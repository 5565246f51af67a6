import RemoteSqlAgent.MonitorSet

/-! Whether `worker.yaml` wins. Its instances are monitored, or retried with the
configuration it has; a remote configuration of an instance that is monitored is passed
over. That of an instance which is being retried is not. -/
namespace RemoteSqlAgent
open Js CallProgram

namespace MonitorSet

/-- The instance is monitored as `worker.yaml` has it. -/
def Monitors (set : MonitorSet) (name : JsString) (config : InstanceConfig) : Prop :=
  ∃ entry status, set.entries.get name = some entry ∧ entry.source = .file ∧
    set.monitors[entry.monitor]? = some status ∧ status.config = config

/-- Every instance of `worker.yaml` is monitored with its configuration, or waits for a
retry with it; and no remote configuration has its name. -/
def FilesWin (files : JsString → Option InstanceConfig) (set : MonitorSet) : Prop :=
  ∀ name config, files name = some config →
    (set.Monitors name config ∨ set.awaitingFirstConnect.get name = some config) ∧
      ∀ entry, set.entries.get name = some entry → entry.source = .file

/-- So it is, and what waits has no entry; nothing else waits. A name has one entry. -/
structure Precedes (files : JsString → Option InstanceConfig) (set : MonitorSet) : Prop where
  won : ∀ name config, files name = some config → set.Monitors name config ∨
    (set.entries.get name = none ∧ set.awaitingFirstConnect.get name = some config)
  waiting : ∀ item ∈ set.awaitingFirstConnect, files item.1 = some item.2 ∧ item.2.name = item.1
  single : ∀ item ∈ set.entries, set.entries.get item.1 = some item.2

theorem precedes_empty : Precedes (fun _ => none) empty where
  won := by simp
  waiting := by simp [empty]
  single := by simp [empty]

theorem Precedes.filesWin {files : JsString → Option InstanceConfig} {set : MonitorSet}
    (precedes : Precedes files set) :
    FilesWin files set := by
  intro name config listed
  rcases precedes.won name config listed with monitors | ⟨free, waits⟩
  · refine ⟨.inl monitors, fun entry found => ?_⟩
    obtain ⟨other, status, there, file, -⟩ := monitors
    cases found.symm.trans there
    exact file
  · refine ⟨.inr waits, fun entry found => ?_⟩
    cases free.symm.trans found

/-- Monitors keep their configurations. -/
def KeepsConfigs (set other : MonitorSet) : Prop :=
  ∀ (monitor : Nat) (status : MonitorStatus), set.monitors[monitor]? = some status →
    ∃ later : MonitorStatus, other.monitors[monitor]? = some later ∧ later.config = status.config

theorem KeepsConfigs.refl (set : MonitorSet) : KeepsConfigs set set := fun _ status found => ⟨status, found, rfl⟩

theorem KeepsConfigs.trans {set other third : MonitorSet} (first : KeepsConfigs set other)
    (second : KeepsConfigs other third) : KeepsConfigs set third := by
  intro monitor status found
  obtain ⟨later, there, same⟩ := first monitor status found
  obtain ⟨last, end_, still⟩ := second monitor later there
  exact ⟨last, end_, still.trans same⟩

theorem keepsConfigs_update (set : MonitorSet) (number : Nat) {change : MonitorStatus → MonitorStatus}
    (config : ∀ status, (change status).config = status.config) : KeepsConfigs set (set.update number change) := by
  intro monitor status found
  rcases eq_or_ne number monitor with rfl | different
  · exact ⟨change status, by simp [update, found], config status⟩
  · exact ⟨status, by simp [update, different, found], rfl⟩

/-- The entries and the retries are the same. -/
structure Alike (set other : MonitorSet) : Prop where
  keeps : KeepsConfigs set other
  entries : other.entries = set.entries
  awaiting : other.awaitingFirstConnect = set.awaitingFirstConnect

theorem Alike.refl (set : MonitorSet) : Alike set set := ⟨.refl set, rfl, rfl⟩

theorem Alike.trans {set other third : MonitorSet} (first : Alike set other) (second : Alike other third) :
    Alike set third :=
  ⟨first.keeps.trans second.keeps, second.entries.trans first.entries, second.awaiting.trans first.awaiting⟩

theorem Alike.monitors {set other : MonitorSet} (alike : Alike set other) {name : JsString} {config : InstanceConfig}
    (monitors : set.Monitors name config) : other.Monitors name config := by
  obtain ⟨entry, status, found, file, there, rfl⟩ := monitors
  obtain ⟨later, still, same⟩ := alike.keeps _ _ there
  exact ⟨entry, later, alike.entries ▸ found, file, still, same⟩

theorem Alike.precedes {files : JsString → Option InstanceConfig} {set other : MonitorSet} (alike : Alike set other)
    (precedes : Precedes files set) : Precedes files other where
  won name config listed := by
    rw [alike.entries, alike.awaiting]
    exact (precedes.won name config listed).imp_left alike.monitors
  waiting := by
    rw [alike.awaiting]
    exact precedes.waiting
  single := by
    rw [alike.entries]
    exact precedes.single

/-- The name has no entry any more, and nothing else has changed. -/
structure Freed (name : JsString) (set other : MonitorSet) : Prop where
  keeps : KeepsConfigs set other
  entries : other.entries = set.entries.delete name
  awaiting : other.awaitingFirstConnect = set.awaitingFirstConnect

end MonitorSet

open MonitorSet

/-- The configuration that connected in an exchange, with its source. -/
def connectOf : Exchange MonitorSetAnswer → Option (InstanceConfig × ConfigSource)
  | ⟨.connect config source _, .ok _⟩ => some (config, source)
  | _ => none

/-- What connected, in its order. -/
def connects (transcript : List (Exchange MonitorSetAnswer)) : List (InstanceConfig × ConfigSource) :=
  transcript.filterMap connectOf

section Programs
variable {deps : MonitorSetDeps} {set after : MonitorSet} {transcript : List (Exchange MonitorSetAnswer)}
  {config : InstanceConfig} {source : ConfigSource} {signature : JsString}

theorem connects_append (first second : List (Exchange MonitorSetAnswer)) :
    connects (first ++ second) = connects first ++ connects second :=
  List.filterMap_append

theorem alone_closeMonitor {name : JsString} {monitor : Nat} {ended : Except Empty Unit}
    (alone : Alone MonitorSetCall.Does set (closeMonitor name monitor) transcript after ended) :
    Freed name set after ∧ connects transcript = [] := by
  obtain ⟨_, middle, later, rfl, stopped, alone⟩ := alone_call.mp alone
  obtain ⟨answer, last, rest, rfl, discarded, alone⟩ := alone_call.mp alone
  obtain ⟨rfl, rfl, -⟩ := alone_done.mp alone
  obtain ⟨-, rfl⟩ := stopped
  refine ⟨?_, rfl⟩
  have stopping :
      KeepsConfigs set (set.update monitor fun status => { status with stopped := true, polling := false }) :=
    keepsConfigs_update set monitor fun _ => rfl
  cases answer with
  | error message =>
    cases discarded
    exact ⟨stopping, rfl, rfl⟩
  | ok _ =>
    cases discarded
    exact ⟨stopping.trans (keepsConfigs_update _ _ fun _ => rfl), rfl, rfl⟩

theorem alone_closePrevious {name : JsString} {ended : Except Empty Unit}
    (alone : Alone MonitorSetCall.Does set (closePrevious name) transcript after ended) :
    Freed name set after ∧ connects transcript = [] := by
  obtain ⟨previous, middle, later, rfl, ⟨rfl, rfl⟩, alone⟩ := alone_call.mp alone
  cases found : middle.entries.get name with
  | none =>
    rw [found] at alone
    obtain ⟨rfl, rfl, -⟩ := alone_done.mp alone
    exact ⟨⟨.refl _, (JsMap.delete_absent found).symm, rfl⟩, rfl⟩
  | some entry =>
    rw [found] at alone
    obtain ⟨freed, silent⟩ := alone_closeMonitor alone
    exact ⟨freed, silent⟩

theorem alone_beginMonitoring {monitor : Nat} {polls : Bool} {ended : Except Empty Unit}
    (alone : Alone MonitorSetCall.Does set (beginMonitoring monitor polls) transcript after ended) :
    Alike set after ∧ connects transcript = [] := by
  cases polls with
  | false =>
    obtain ⟨rfl, rfl, -⟩ := alone_done.mp alone
    exact ⟨.refl _, rfl⟩
  | true =>
    obtain ⟨_, middle, later, rfl, refreshed, alone⟩ := alone_call.mp alone
    obtain ⟨sent, last, rest, rfl, snapshot, alone⟩ := alone_call.mp alone
    cases refreshed
    cases snapshot
    cases sent with
    | error message =>
      obtain ⟨rfl, rfl, -⟩ := alone_done.mp alone
      exact ⟨.refl _, rfl⟩
    | ok _ =>
      obtain ⟨_, final, ends, rfl, started, alone⟩ := alone_call.mp alone
      obtain ⟨rfl, rfl, -⟩ := alone_done.mp alone
      cases started
      exact ⟨⟨keepsConfigs_update _ _ fun _ => rfl, rfl, rfl⟩, rfl⟩

/-- What an attempt to monitor an instance comes to, and what connected. Its name was freed
before. -/
inductive Ensured (config : InstanceConfig) (source : ConfigSource) (signature : JsString) (set after : MonitorSet) :
    List (InstanceConfig × ConfigSource) → Prop where
  | connected {middle : MonitorSet} (freed : Freed config.name set middle)
      (alike : Alike (middle.connected config source signature) after) :
        Ensured config source signature set after [(config, source)]
  | failed {middle : MonitorSet} (freed : Freed config.name set middle) (opened : Bool)
      (same : after = middle.failed config source opened) : Ensured config source signature set after []

theorem alone_ensure {ended : Except Empty InstanceConfigOutcome}
    (alone : Alone MonitorSetCall.Does set (ensure config source signature) transcript after ended) :
    Ensured config source signature set after (connects transcript) := by
  rcases alone_bind.mp alone with ⟨error, thrown, -⟩ | ⟨_, middle, first, second, rfl, closed, alone⟩
  · exact error.elim
  · obtain ⟨freed, silent⟩ := alone_closePrevious closed
    rw [connects_append, silent, List.nil_append]
    obtain ⟨outcome, last, rest, rfl, connected, alone⟩ := alone_call.mp alone
    rcases outcome with ⟨err, opened⟩ | ⟨monitor, polls⟩
    · obtain ⟨rfl, rfl, -⟩ := alone_done.mp alone
      exact .failed freed opened connected
    · obtain ⟨-, -, rfl⟩ := connected
      rcases alone_bind.mp alone with ⟨error, thrown, -⟩ | ⟨_, final, ran, ends, rfl, began, alone⟩
      · exact error.elim
      · obtain ⟨rfl, rfl, -⟩ := alone_done.mp alone
        obtain ⟨alike, quiet⟩ := alone_beginMonitoring began
        have once :
            connects (⟨.connect config source signature, .ok (monitor, polls)⟩ :: (ran ++ [])) =
              [(config, source)] := by
          rw [List.append_nil]
          exact congrArg _ quiet
        exact once ▸ .connected freed alike

end Programs

/-! ## What one instance comes to -/

section Instances
variable {deps : MonitorSetDeps} {files : JsString → Option InstanceConfig} {set middle after : MonitorSet}
  {transcript : List (Exchange MonitorSetAnswer)} {config : InstanceConfig} {signature : JsString}

namespace MonitorSet

theorem Freed.get {name : JsString} (freed : Freed name set middle) (owner : JsString) :
    middle.entries.get owner = if name = owner then none else set.entries.get owner := by
  rw [freed.entries, JsMap.get_delete]

theorem Monitors.freed {name owner : JsString} {listed : InstanceConfig} (monitors : set.Monitors owner listed)
    (freed : Freed name set middle) (different : name ≠ owner) : middle.Monitors owner listed := by
  obtain ⟨entry, status, found, file, there, rfl⟩ := monitors
  obtain ⟨later, still, same⟩ := freed.keeps _ _ there
  refine ⟨entry, later, ?_, file, still, same⟩
  rw [freed.get, if_neg different, found]

theorem Monitors.connected {owner : JsString} {listed : InstanceConfig} (monitors : middle.Monitors owner listed)
    (source : ConfigSource) (different : config.name ≠ owner) :
    (middle.connected config source signature).Monitors owner listed := by
  obtain ⟨entry, status, found, file, there, rfl⟩ := monitors
  refine ⟨entry, status, ?_, file, ?_, rfl⟩
  · rw [MonitorSet.connected, JsMap.get_set, if_neg different, found]
  · rw [MonitorSet.connected, List.getElem?_append_left (List.getElem?_eq_some_iff.mp there).1, there]

theorem Monitors.failed {owner : JsString} {listed : InstanceConfig} (monitors : middle.Monitors owner listed)
    (source : ConfigSource) (opened : Bool) : (middle.failed config source opened).Monitors owner listed := by
  obtain ⟨entry, status, found, file, there, rfl⟩ := monitors
  refine ⟨entry, status, found, file, ?_, rfl⟩
  rw [MonitorSet.failed, List.getElem?_append_left (List.getElem?_eq_some_iff.mp there).1, there]

/-- A name that is not taken by an entry of `worker.yaml` can be freed. -/
theorem Precedes.freed {name : JsString} (precedes : Precedes files set) (freed : Freed name set middle)
    (apart : ∀ listed, files name = some listed → ¬ set.Monitors name listed) : Precedes files middle where
  won owner listed isListed := by
    rw [freed.get, freed.awaiting]
    rcases precedes.won owner listed isListed with monitors | ⟨free, waits⟩
    · refine .inl (monitors.freed freed ?_)
      rintro rfl
      exact apart listed isListed monitors
    · exact .inr ⟨by split <;> trivial, waits⟩
  waiting := by
    rw [freed.awaiting]
    exact precedes.waiting
  single item member := by
    rw [freed.entries] at member
    obtain ⟨there, different⟩ := JsMap.mem_delete member
    rw [freed.get, if_neg different, precedes.single item there]

theorem single_connected (single : ∀ item ∈ middle.entries, middle.entries.get item.1 = some item.2)
    (source : ConfigSource) :
    ∀ item ∈ (middle.connected config source signature).entries,
      (middle.connected config source signature).entries.get item.1 = some item.2 := by
  intro item member
  rw [MonitorSet.connected, JsMap.get_set]
  rcases JsMap.mem_set member with rfl | ⟨there, different⟩
  · exact if_pos rfl
  · rw [if_neg different, single item there]

/-- An instance of `worker.yaml` is monitored, or waits, as it is listed. -/
theorem Precedes.ensured_file {connected : List (InstanceConfig × ConfigSource)} (precedes : Precedes files set)
    (ensured : Ensured config .file signature set after connected) :
    Precedes (Function.update files config.name (some config)) after := by
  have others : ∀ {middle : MonitorSet}, Freed config.name set middle → ∀ name listed, config.name ≠ name →
      files name = some listed → middle.Monitors name listed ∨
        (middle.entries.get name = none ∧ middle.awaitingFirstConnect.get name = some listed) := by
    intro middle freed name listed different isListed
    rcases precedes.won name listed isListed with monitors | ⟨free, waits⟩
    · exact .inl (monitors.freed freed different)
    · rw [freed.get, if_neg different, freed.awaiting]
      exact .inr ⟨free, waits⟩
  have single : ∀ {middle : MonitorSet}, Freed config.name set middle →
      ∀ item ∈ middle.entries, middle.entries.get item.1 = some item.2 := by
    intro middle freed item member
    rw [freed.entries] at member
    obtain ⟨there, different⟩ := JsMap.mem_delete member
    rw [freed.get, if_neg different, precedes.single item there]
  cases ensured with
  | @connected middle freed alike =>
    refine alike.precedes ⟨fun name listed isListed => ?_, fun item member => ?_, single_connected (single freed) _⟩
    · rcases eq_or_ne name config.name with rfl | different
      · rw [Function.update_self] at isListed
        cases isListed
        refine .inl ⟨⟨middle.monitors.length, .file, signature⟩, ⟨config, true, false, false⟩, ?_, rfl, ?_, rfl⟩
        · rw [MonitorSet.connected, JsMap.get_set, if_pos rfl]
        · exact List.getElem?_concat_length
      · rw [Function.update_of_ne different] at isListed
        rcases others freed name listed (Ne.symm different) isListed with monitors | ⟨free, waits⟩
        · exact .inl (monitors.connected .file (Ne.symm different))
        · rw [MonitorSet.connected, JsMap.get_set, if_neg (Ne.symm different), JsMap.get_delete,
            if_neg (Ne.symm different)]
          exact .inr ⟨free, waits⟩
    · obtain ⟨there, different⟩ := JsMap.mem_delete member
      rw [freed.awaiting] at there
      rw [Function.update_of_ne (Ne.symm different)]
      exact precedes.waiting item there
  | @failed middle freed opened same =>
    subst same
    have singles := single freed
    refine ⟨fun name listed isListed => ?_, fun item member => ?_, singles⟩
    · rcases eq_or_ne name config.name with rfl | different
      · rw [Function.update_self] at isListed
        cases isListed
        refine .inr ⟨(freed.get _).trans (if_pos rfl), ?_⟩
        rw [MonitorSet.failed, if_pos rfl, JsMap.get_set, if_pos rfl]
      · rw [Function.update_of_ne different] at isListed
        rcases others freed name listed (Ne.symm different) isListed with monitors | ⟨free, waits⟩
        · exact .inl (monitors.failed .file opened)
        · refine .inr ⟨free, ?_⟩
          rw [MonitorSet.failed, if_pos rfl, JsMap.get_set, if_neg (Ne.symm different), waits]
    · rw [MonitorSet.failed, if_pos rfl] at member
      rcases JsMap.mem_set member with rfl | ⟨there, different⟩
      · exact ⟨Function.update_self .., rfl⟩
      · rw [freed.awaiting] at there
        rw [Function.update_of_ne (Ne.symm different)]
        exact precedes.waiting item there

/-- A remote instance is monitored if its name does not wait, and is no name of
`worker.yaml` then. -/
theorem Precedes.ensured_remote {connected : List (InstanceConfig × ConfigSource)} (precedes : Precedes files set)
    (ensured : Ensured config .remote signature set after connected)
    (apart : ∀ listed, ¬ set.Monitors config.name listed)
    (unstolen : (config, .remote) ∈ connected → set.awaitingFirstConnect.get config.name = none) :
    Precedes files after := by
  cases ensured with
  | @connected middle freed alike =>
    have still := precedes.freed freed fun listed _ => apart listed
    have unlisted : files config.name = none := by
      refine Option.eq_none_iff_forall_ne_some.mpr fun listed isListed => ?_
      rcases precedes.won _ _ isListed with monitors | ⟨-, waits⟩
      · exact apart listed monitors
      · cases (unstolen List.mem_cons_self).symm.trans waits
    have different : ∀ {name listed}, files name = some listed → config.name ≠ name := by
      rintro name listed isListed rfl
      cases unlisted.symm.trans isListed
    refine alike.precedes ⟨fun name listed isListed => ?_, fun item member => ?_, single_connected still.single _⟩
    · rcases still.won name listed isListed with monitors | ⟨free, waits⟩
      · exact .inl (monitors.connected .remote (different isListed))
      · rw [MonitorSet.connected, JsMap.get_set, if_neg (different isListed), JsMap.get_delete,
          if_neg (different isListed)]
        exact .inr ⟨free, waits⟩
    · exact still.waiting item (JsMap.mem_delete member).1
  | @failed middle freed opened same =>
    subst same
    have still := precedes.freed freed fun listed _ => apart listed
    exact ⟨fun name listed isListed => (still.won name listed isListed).imp_left (·.failed .remote opened),
      still.waiting, still.single⟩

/-- Remote instances do not begin to wait. -/
theorem awaiting_of_ensured {connected : List (InstanceConfig × ConfigSource)} {name : JsString}
    (ensured : Ensured config .remote signature set after connected)
    (rests : set.awaitingFirstConnect.get name = none) :
    after.awaitingFirstConnect.get name = none := by
  cases ensured with
  | connected freed alike =>
    rw [alike.awaiting, MonitorSet.connected, JsMap.get_delete, freed.awaiting, rests, ite_self]
  | failed freed opened same =>
    rw [same, MonitorSet.failed, if_neg nofun, freed.awaiting, rests]

end MonitorSet
end Instances

/-! ## What an operation comes to -/

section Operations
variable {deps : MonitorSetDeps} {files : JsString → Option InstanceConfig} {set after : MonitorSet}
  {transcript : List (Exchange MonitorSetAnswer)}

/-- The instances of `worker.yaml`, with more of them. -/
def listFiles (files : JsString → Option InstanceConfig) (configs : List InstanceConfig) :
    JsString → Option InstanceConfig :=
  configs.foldl (fun files config => Function.update files config.name (some config)) files

/-- Nothing that connects takes the name of an instance that waits. -/
def Unstolen (set : MonitorSet) (connected : List (InstanceConfig × ConfigSource)) : Prop :=
  ∀ config, (config, .remote) ∈ connected → set.awaitingFirstConnect.get config.name = none

theorem precedes_addLocal {configs : List InstanceConfig} {ended : Except Empty (List InstanceConfigOutcome)}
    (precedes : Precedes files set) (alone : Alone MonitorSetCall.Does set (addLocal configs) transcript after ended) :
    Precedes (listFiles files configs) after := by
  induction configs generalizing files set transcript ended with
  | nil =>
    obtain ⟨-, rfl, -⟩ := alone_done.mp alone
    exact precedes
  | cons config rest ih =>
    rcases alone_bind.mp alone with ⟨error, -, -⟩ | ⟨_, middle, first, second, rfl, ensured, alone⟩
    · exact error.elim
    · have here := precedes.ensured_file (alone_ensure ensured)
      rcases alone_bind.mp alone with ⟨error, -, -⟩ | ⟨_, last, third, ends, rfl, others, alone⟩
      · exact error.elim
      · obtain ⟨-, rfl, -⟩ := alone_done.mp alone
        exact ih here others

/-- What waits is as it is listed, so that a retry changes nothing of that. -/
theorem precedes_retryEach {waiting : List (JsString × InstanceConfig)} {ended : Except Empty Unit}
    (precedes : Precedes files set) (listed : ∀ item ∈ waiting, files item.1 = some item.2 ∧ item.2.name = item.1)
    (alone : Alone MonitorSetCall.Does set (retryEach waiting) transcript after ended) : Precedes files after := by
  induction waiting generalizing set transcript with
  | nil =>
    obtain ⟨-, rfl, -⟩ := alone_done.mp alone
    exact precedes
  | cons item rest ih =>
    obtain ⟨name, config⟩ := item
    rcases alone_bind.mp alone with ⟨error, -, -⟩ | ⟨_, middle, first, second, rfl, ensured, alone⟩
    · exact error.elim
    · have here := precedes.ensured_file (alone_ensure ensured)
      obtain ⟨isListed, named⟩ := listed (name, config) List.mem_cons_self
      dsimp only at isListed named
      rw [named, ← isListed, Function.update_eq_self] at here
      exact ih here (fun item member => listed item (List.mem_cons_of_mem _ member)) alone

/-- A remote instance is left, or its name is no entry of `worker.yaml` and it is tried. -/
theorem alone_reconcileInstance {remote : WireInstanceConfig} {ended : Except Empty InstanceConfigOutcome}
    (alone : Alone MonitorSetCall.Does set (reconcileInstance deps remote) transcript after ended) :
    (after = set ∧ connects transcript = []) ∨
      ∃ config signature, config.name = remote.instanceName ∧
        (∀ entry, set.entries.get remote.instanceName = some entry → entry.source ≠ .file) ∧
        Ensured config .remote signature set after (connects transcript) := by
  obtain ⟨existing, middle, later, rfl, ⟨rfl, rfl⟩, alone⟩ := alone_call.mp alone
  by_cases isFile : (middle.entries.get remote.instanceName).any (·.source = .file) = true
  · rw [if_pos isFile] at alone
    obtain ⟨rfl, rfl, -⟩ := alone_done.mp alone
    exact .inl ⟨rfl, rfl⟩
  · rw [if_neg isFile] at alone
    have notFile : ∀ entry, middle.entries.get remote.instanceName = some entry → entry.source ≠ .file := by
      intro entry found file
      exact isFile (by rw [found]; exact decide_eq_true file)
    cases usable : toInstanceConfig deps remote with
    | error unusable =>
      rw [usable] at alone
      cases unusable with
      | awaitingCredential message | failed message =>
        obtain ⟨rfl, rfl, -⟩ := alone_done.mp alone
        exact .inl ⟨rfl, rfl⟩
    | ok config =>
      rw [usable] at alone
      rcases alone_bind.mp alone with ⟨error, -, -⟩ | ⟨unchanged, next, first, second, rfl, looked, alone⟩
      · exact error.elim
      · have quiet : next = middle ∧ connects first = [] := by
          unfold isUnchanged at looked
          split at looked
          · obtain ⟨rfl, rfl, -⟩ := alone_done.mp looked
            exact ⟨rfl, rfl⟩
          · split at looked
            · obtain ⟨connected, _, rest, rfl, ⟨-, rfl⟩, answered⟩ := alone_call.mp looked
              obtain ⟨rfl, rfl, -⟩ := alone_done.mp answered
              exact ⟨rfl, rfl⟩
            · obtain ⟨rfl, rfl, -⟩ := alone_done.mp looked
              exact ⟨rfl, rfl⟩
        obtain ⟨rfl, silent⟩ := quiet
        have same : connects (⟨.find remote.instanceName, next.entries.get remote.instanceName⟩ :: (first ++ second)) =
            connects second := by
          change connects (first ++ second) = _
          rw [connects_append, silent, List.nil_append]
        rw [same]
        cases unchanged with
        | true =>
          obtain ⟨rfl, rfl, -⟩ := alone_done.mp alone
          exact .inl ⟨rfl, rfl⟩
        | false => exact .inr ⟨config, _, toInstanceConfig_name usable, notFile, alone_ensure alone⟩

theorem precedes_reconcileInstances {wire : List WireInstanceConfig} {ended : Except Empty (List InstanceConfigOutcome)}
    (precedes : Precedes files set)
    (alone : Alone MonitorSetCall.Does set (reconcileInstances deps wire) transcript after ended)
    (unstolen : Unstolen set (connects transcript)) : Precedes files after := by
  induction wire generalizing set transcript ended with
  | nil =>
    obtain ⟨-, rfl, -⟩ := alone_done.mp alone
    exact precedes
  | cons remote rest ih =>
    rcases alone_bind.mp alone with ⟨error, -, -⟩ | ⟨_, middle, first, second, rfl, reconciled, alone⟩
    · exact error.elim
    · rcases alone_bind.mp alone with ⟨error, -, -⟩ | ⟨_, last, third, ends, rfl, others, alone⟩
      · exact error.elim
      · obtain ⟨rfl, rfl, -⟩ := alone_done.mp alone
        rw [List.append_nil, connects_append] at unstolen
        have now : ∀ config, (config, .remote) ∈ connects first → set.awaitingFirstConnect.get config.name = none :=
          fun config member => unstolen config (List.mem_append_left _ member)
        have later : ∀ config, (config, .remote) ∈ connects third → set.awaitingFirstConnect.get config.name = none :=
          fun config member => unstolen config (List.mem_append_right _ member)
        rcases alone_reconcileInstance reconciled with ⟨rfl, -⟩ | ⟨config, signature, named, notFile, ensured⟩
        · exact ih precedes others later
        · refine ih (precedes.ensured_remote ensured ?_ (now config)) others fun other member =>
            awaiting_of_ensured ensured (later other member)
          rintro listed ⟨entry, status, found, file, -⟩
          exact notFile entry (named ▸ found) file

theorem precedes_removeUnlisted {wanted : List JsString} {entries : List (JsString × MonitorEntry)}
    {ended : Except Empty Unit} (precedes : Precedes files set)
    (unlisted : ∀ item ∈ entries, item.2.source = .remote → files item.1 = none)
    (alone : Alone MonitorSetCall.Does set (removeUnlisted wanted entries) transcript after ended) :
    Precedes files after := by
  induction entries generalizing set transcript with
  | nil =>
    obtain ⟨-, rfl, -⟩ := alone_done.mp alone
    exact precedes
  | cons item rest ih =>
    obtain ⟨name, entry⟩ := item
    have others : ∀ item ∈ rest, item.2.source = .remote → files item.1 = none :=
      fun item member => unlisted item (List.mem_cons_of_mem _ member)
    unfold removeUnlisted at alone
    split at alone
    · rename_i removed
      rcases alone_bind.mp alone with ⟨error, -, -⟩ | ⟨_, middle, first, second, rfl, closed, alone⟩
      · exact error.elim
      · obtain ⟨freed, -⟩ := alone_closeMonitor closed
        refine ih (precedes.freed freed fun listed isListed => ?_) others alone
        cases (unlisted (name, entry) List.mem_cons_self removed.1).symm.trans isListed
    · exact ih precedes others alone

theorem alone_reconcileRemote {wire : List WireInstanceConfig} {ended : Except Empty (List InstanceConfigOutcome)}
    (alone : Alone MonitorSetCall.Does set (reconcileRemote deps wire) transcript after ended) :
    ∃ middle first outcomes second,
      Alone MonitorSetCall.Does set (reconcileInstances deps wire) first middle (.ok outcomes) ∧
      Alone MonitorSetCall.Does middle (removeUnlisted (wire.map (·.instanceName)) middle.entries) second after
        (.ok ()) ∧
      connects transcript = connects first ++ connects second := by
  rcases alone_bind.mp alone with ⟨error, -, -⟩ | ⟨outcomes, middle, first, second, rfl, reconciled, alone⟩
  · exact error.elim
  · obtain ⟨_, _, rest, rfl, ⟨rfl, rfl⟩, alone⟩ := alone_call.mp alone
    rcases alone_bind.mp alone with ⟨error, -, -⟩ | ⟨_, last, third, ends, rfl, removed, alone⟩
    · exact error.elim
    · obtain ⟨rfl, rfl, -⟩ := alone_done.mp alone
      refine ⟨_, _, outcomes, third, reconciled, removed, ?_⟩
      rw [List.append_nil, connects_append]
      rfl

theorem alike_pollEach {entries : List (JsString × MonitorEntry)} {ended : Except Empty Unit}
    (alone : Alone MonitorSetCall.Does set (pollMonitors entries) transcript after ended) : Alike set after := by
  induction entries generalizing set transcript with
  | nil =>
    obtain ⟨-, rfl, -⟩ := alone_done.mp alone
    exact .refl _
  | cons item rest ih =>
    obtain ⟨_, first, _, rfl, refreshed, alone⟩ := alone_call.mp alone
    obtain ⟨_, second, _, rfl, snapshot, alone⟩ := alone_call.mp alone
    obtain ⟨_, third, _, rfl, started, alone⟩ := alone_call.mp alone
    cases refreshed
    cases snapshot
    cases started
    refine Alike.trans ?_ (ih alone)
    exact ⟨keepsConfigs_update _ _ fun _ => rfl, rfl, rfl⟩

/-- The instances of `worker.yaml` after an operation. -/
def MonitorSetOperation.lists (files : JsString → Option InstanceConfig) :
    MonitorSetOperation → JsString → Option InstanceConfig
  | .addLocal configs => listFiles files configs
  | _ => files

theorem precedes_operation {operation : MonitorSetOperation} {ended : Except Empty Unit} (precedes : Precedes files set)
    (alone : Alone MonitorSetCall.Does set (operation.body deps) transcript after ended)
    (unstolen : ∀ wire, operation = .reconcileRemote wire → Unstolen set (connects transcript)) :
    Precedes (operation.lists files) after := by
  cases operation with
  | addLocal configs =>
    rcases alone_bind.mp alone with ⟨error, -, -⟩ | ⟨_, _, _, _, rfl, added, alone⟩
    · exact error.elim
    · obtain ⟨-, rfl, -⟩ := alone_done.mp alone
      exact precedes_addLocal precedes added
  | reconcileRemote wire =>
    have honest := unstolen wire rfl
    rcases alone_bind.mp alone with ⟨error, -, -⟩ | ⟨_, _, whole, _, rfl, reconciled, alone⟩
    · exact error.elim
    · obtain ⟨rfl, rfl, -⟩ := alone_done.mp alone
      obtain ⟨middle, first, outcomes, second, each, removed, same⟩ := alone_reconcileRemote reconciled
      rw [List.append_nil, same] at honest
      have between := precedes_reconcileInstances precedes each fun config member =>
        honest config (List.mem_append_left _ member)
      refine precedes_removeUnlisted between (fun item member isRemote => ?_) removed
      refine Option.eq_none_iff_forall_ne_some.mpr fun listed isListed => ?_
      have file := (between.filesWin _ _ isListed).2 _ (between.single item member)
      cases file.symm.trans isRemote
  | retryPending =>
    obtain ⟨_, _, _, rfl, ⟨rfl, rfl⟩, alone⟩ := alone_call.mp alone
    rcases alone_bind.mp alone with ⟨error, -, -⟩ | ⟨_, middle, _, _, rfl, retried, alone⟩
    · exact error.elim
    · obtain ⟨_, _, _, rfl, rested, alone⟩ := alone_call.mp alone
      obtain ⟨-, rfl, -⟩ := alone_done.mp alone
      have still := precedes_retryEach precedes precedes.waiting retried
      cases rested
      exact ⟨still.won, still.waiting, still.single⟩
  | onReady =>
    obtain ⟨_, _, _, rfl, intervals, alone⟩ := alone_call.mp alone
    obtain ⟨_, _, _, rfl, ⟨rfl, rfl⟩, alone⟩ := alone_call.mp alone
    cases intervals
    exact (alike_pollEach alone).precedes ⟨precedes.won, precedes.waiting, precedes.single⟩

/-- The name does not wait, and is not taken by an entry of `worker.yaml`. -/
def Lost (name : JsString) (set : MonitorSet) : Prop :=
  set.awaitingFirstConnect.get name = none ∧ ∀ entry, set.entries.get name = some entry → entry.source = .remote

theorem Lost.not_filesWin {name : JsString} {config : InstanceConfig} (lost : Lost name set)
    (listed : files name = some config) : ¬ FilesWin files set := by
  intro wins
  rcases (wins name config listed).1 with ⟨entry, status, found, file, -⟩ | waits
  · cases file.symm.trans (lost.2 entry found)
  · cases lost.1.symm.trans waits

theorem Lost.freed {name owner : JsString} {middle : MonitorSet} (lost : Lost name set)
    (freed : Freed owner set middle) :
    Lost name middle := by
  refine ⟨freed.awaiting ▸ lost.1, fun entry found => ?_⟩
  rw [freed.get] at found
  split at found
  · cases found
  · exact lost.2 entry found

theorem Lost.ensured {name signature : JsString} {config : InstanceConfig}
    {connected : List (InstanceConfig × ConfigSource)} (lost : Lost name set)
    (ensured : Ensured config .remote signature set after connected) : Lost name after := by
  refine ⟨awaiting_of_ensured ensured lost.1, fun entry found => ?_⟩
  cases ensured with
  | connected freed alike =>
    rw [alike.entries, MonitorSet.connected, JsMap.get_set] at found
    split at found
    · cases found
      rfl
    · exact (lost.freed freed).2 entry found
  | failed freed opened same =>
    subst same
    exact (lost.freed freed).2 entry found

/-- What connects takes its name. -/
theorem lost_of_connected {signature : JsString} {config other : InstanceConfig}
    {connected : List (InstanceConfig × ConfigSource)} (ensured : Ensured config .remote signature set after connected)
    (member : (other, .remote) ∈ connected) : Lost other.name after := by
  cases ensured with
  | connected freed alike =>
    cases List.mem_singleton.mp member
    refine ⟨?_, fun entry found => ?_⟩
    · rw [alike.awaiting, MonitorSet.connected, JsMap.get_delete, if_pos rfl]
    · rw [alike.entries, MonitorSet.connected, JsMap.get_set, if_pos rfl] at found
      cases found
      rfl
  | failed freed opened same => cases member

theorem lost_reconcileInstances {wire : List WireInstanceConfig} {config : InstanceConfig}
    {ended : Except Empty (List InstanceConfigOutcome)}
    (alone : Alone MonitorSetCall.Does set (reconcileInstances deps wire) transcript after ended)
    (lost : Lost config.name set ∨ (config, .remote) ∈ connects transcript) : Lost config.name after := by
  induction wire generalizing set transcript ended with
  | nil =>
    obtain ⟨rfl, rfl, -⟩ := alone_done.mp alone
    exact lost.resolve_right List.not_mem_nil
  | cons remote rest ih =>
    rcases alone_bind.mp alone with ⟨error, -, -⟩ | ⟨_, middle, first, second, rfl, reconciled, alone⟩
    · exact error.elim
    · rcases alone_bind.mp alone with ⟨error, -, -⟩ | ⟨_, last, third, ends, rfl, others, alone⟩
      · exact error.elim
      · obtain ⟨rfl, rfl, -⟩ := alone_done.mp alone
        rw [List.append_nil, connects_append, List.mem_append] at lost
        refine ih others ?_
        rcases alone_reconcileInstance reconciled with ⟨rfl, silent⟩ | ⟨other, signature, -, -, ensured⟩
        · rw [silent] at lost
          exact lost.imp_right (·.resolve_left List.not_mem_nil)
        · rcases lost with lost | here | there
          · exact .inl (lost.ensured ensured)
          · exact .inl (lost_of_connected ensured here)
          · exact .inr there

theorem connects_removeUnlisted {wanted : List JsString} {entries : List (JsString × MonitorEntry)}
    {ended : Except Empty Unit}
    (alone : Alone MonitorSetCall.Does set (removeUnlisted wanted entries) transcript after ended) :
    connects transcript = [] := by
  induction entries generalizing set transcript with
  | nil =>
    obtain ⟨rfl, -, -⟩ := alone_done.mp alone
    rfl
  | cons item rest ih =>
    unfold removeUnlisted at alone
    split at alone
    · rcases alone_bind.mp alone with ⟨error, -, -⟩ | ⟨_, _, _, _, rfl, closed, alone⟩
      · exact error.elim
      · rw [connects_append, (alone_closeMonitor closed).2, ih alone, List.append_nil]
    · exact ih alone

theorem lost_removeUnlisted {name : JsString} {wanted : List JsString} {entries : List (JsString × MonitorEntry)}
    {ended : Except Empty Unit} (lost : Lost name set)
    (alone : Alone MonitorSetCall.Does set (removeUnlisted wanted entries) transcript after ended) :
    Lost name after := by
  induction entries generalizing set transcript with
  | nil =>
    obtain ⟨-, rfl, -⟩ := alone_done.mp alone
    exact lost
  | cons item rest ih =>
    unfold removeUnlisted at alone
    split at alone
    · rcases alone_bind.mp alone with ⟨error, -, -⟩ | ⟨_, _, _, _, rfl, closed, alone⟩
      · exact error.elim
      · exact ih (lost.freed (alone_closeMonitor closed).1) alone
    · exact ih lost alone

end Operations

/-! ## Runs -/

section Runs
variable {deps : MonitorSetDeps} {set : MonitorSet}
  {run : List (Performed MonitorSetAnswer MonitorSet MonitorSetOperation)}

/-- What `worker.yaml` has listed so far. -/
def filesOf (run : List (Performed MonitorSetAnswer MonitorSet MonitorSetOperation)) :
    JsString → Option InstanceConfig :=
  run.foldl (fun files performed => performed.operation.lists files) fun _ => none

/-- A remote configuration connects while an instance of `worker.yaml` with its name waits
for a retry. -/
def Steals (performed : Performed MonitorSetAnswer MonitorSet MonitorSetOperation) : Prop :=
  ∃ wire config, performed.operation = .reconcileRemote wire ∧ (config, .remote) ∈ connects performed.transcript ∧
    performed.before.awaitingFirstConnect.get config.name ≠ none

theorem filesOf_concat (performed : Performed MonitorSetAnswer MonitorSet MonitorSetOperation) :
    filesOf (run ++ [performed]) = performed.operation.lists (filesOf run) :=
  List.foldl_concat ..

theorem precedes_of_sequenced (sequenced : Sequenced MonitorSetCall.Does (MonitorSetOperation.body deps) .empty set run)
    (unstolen : ∀ performed ∈ run, ¬ Steals performed) : Precedes (filesOf run) set := by
  induction sequenced with
  | start => exact precedes_empty
  | perform sequenced operation alone ih =>
    rw [filesOf_concat]
    have before := ih fun performed member => unstolen performed (List.mem_append_left _ member)
    refine precedes_operation before alone fun wire isReconcile config member => ?_
    by_contra waits
    exact unstolen _ (List.mem_append_right _ List.mem_cons_self) ⟨wire, config, isReconcile, member, waits⟩

theorem lost_of_steals {operation : MonitorSetOperation} {transcript : List (Exchange MonitorSetAnswer)}
    {after : MonitorSet}
    {ended : Except Empty Unit} {wire : List WireInstanceConfig} {config : InstanceConfig}
    (alone : Alone MonitorSetCall.Does set (operation.body deps) transcript after ended)
    (isReconcile : operation = .reconcileRemote wire) (member : (config, .remote) ∈ connects transcript) :
    Lost config.name after := by
  subst isReconcile
  rcases alone_bind.mp alone with ⟨error, -, -⟩ | ⟨_, _, whole, _, rfl, reconciled, alone⟩
  · exact error.elim
  · obtain ⟨rfl, rfl, -⟩ := alone_done.mp alone
    obtain ⟨middle, first, outcomes, second, each, removed, same⟩ := alone_reconcileRemote reconciled
    rw [List.append_nil, same, connects_removeUnlisted removed, List.append_nil] at member
    exact lost_removeUnlisted (lost_reconcileInstances each (.inr member)) removed

/-- **The instances of `worker.yaml` win exactly as long as no remote configuration
connects while an instance of its name waits for a retry.** -/
theorem filesWin_iff_unstolen
    (sequenced : Sequenced MonitorSetCall.Does (MonitorSetOperation.body deps) .empty set run) :
    (∀ earlier performed, earlier ++ [performed] <+: run →
      FilesWin (filesOf (earlier ++ [performed])) performed.after) ↔
      ∀ performed ∈ run, ¬ Steals performed := by
  induction sequenced with
  | start => simp
  | @perform set after run transcript ended sequenced operation alone ih =>
    constructor
    · intro wins
      have before := ih.mp fun earlier performed shorter =>
        wins earlier performed (shorter.trans (List.prefix_append _ _))
      intro performed member
      rcases List.mem_append.mp member with old | new
      · exact before performed old
      · cases List.mem_singleton.mp new
        rintro ⟨wire, config, isReconcile, connected, waits⟩
        have precedes := precedes_of_sequenced sequenced before
        obtain ⟨waiting, found⟩ := Option.ne_none_iff_exists'.mp waits
        have listed := (precedes.waiting (config.name, waiting) (property_mem found)).1
        have now := wins run _ (List.prefix_refl _)
        rw [filesOf_concat] at now
        rw [isReconcile] at now
        exact (lost_of_steals alone isReconcile connected).not_filesWin listed now
    · intro unstolen earlier performed shorter
      have before : ∀ performed ∈ run, ¬ Steals performed :=
        fun performed member => unstolen performed (List.mem_append_left _ member)
      rcases List.prefix_concat_iff.mp shorter with same | inside
      · obtain ⟨rfl, last⟩ := List.append_inj' same rfl
        cases last
        exact (precedes_of_sequenced (.perform sequenced operation alone) unstolen).filesWin
      · exact ih.mpr before earlier performed inside

end Runs

/-! ## Samples -/

section Samples

/-- Operations one after the other, each while the server can be reached or not. -/
def performedWork (work : List (MonitorSetOperation × Bool)) :
    MonitorSet × List (Performed MonitorSetAnswer MonitorSet MonitorSetOperation) :=
  (work.map fun (operation, reachable) => (operation, monitorSetAnswer reachable)).foldl
    (performNext (MonitorSetOperation.body sampleDeps)) (.empty, [])

theorem sequenced_performedWork (work : List (MonitorSetOperation × Bool)) :
    Sequenced MonitorSetCall.Does (MonitorSetOperation.body sampleDeps) .empty (performedWork work).1
      (performedWork work).2 := by
  refine sequenced_performNext _ fun part member set call answer after answered => ?_
  obtain ⟨⟨operation, reachable⟩, -, rfl⟩ := List.mem_map.mp member
  exact monitorSetAnswer_does answered

/-- The check of `Steals`. -/
def checksSteals (performed : Performed MonitorSetAnswer MonitorSet MonitorSetOperation) : Bool :=
  (connects performed.transcript).any fun (config, source) =>
    source = .remote && (performed.before.awaitingFirstConnect.get config.name).isSome

theorem unstolen_of_checks {run : List (Performed MonitorSetAnswer MonitorSet MonitorSetOperation)}
    (checks : run.all (fun performed => !checksSteals performed) = true) : ∀ performed ∈ run, ¬ Steals performed := by
  rintro performed member ⟨wire, config, -, connected, waits⟩
  have check := List.all_eq_true.mp checks performed member
  rw [Bool.not_eq_true', ← Bool.not_eq_true] at check
  refine check (List.any_eq_true.mpr ⟨(config, .remote), connected, ?_⟩)
  simpa [Option.isSome_iff_ne_none] using waits

/-- The instance connects at a retry, before the control plane asks for it. -/
def patientWork : List (MonitorSetOperation × Bool) :=
  [(.addLocal [sampleInstance], false), (.retryPending, true), (.reconcileRemote [sampleRemote], true)]

theorem filesWin_iff_unstolen_patient : ∃ set run, (set, run) = performedWork patientWork ∧ run.length = 3 ∧
    ∀ earlier performed, earlier ++ [performed] <+: run → FilesWin (filesOf (earlier ++ [performed])) performed.after :=
  ⟨_, _, rfl, by decide +kernel,
    (filesWin_iff_unstolen (sequenced_performedWork patientWork)).mpr (unstolen_of_checks (by decide +kernel))⟩

/-- The server cannot be reached with the settings of `worker.yaml`; the remote ones
connect. The name is theirs, and nothing is retried. -/
theorem filesWin_stolen :
    ∃ set run, Sequenced MonitorSetCall.Does (MonitorSetOperation.body sampleDeps) .empty set run ∧
    filesOf run (js "SQL01") = some sampleInstance ∧
    ((set.entries.get (js "SQL01")).map fun entry =>
      (entry.source, (set.monitors[entry.monitor]?).map (·.config.server))) =
      some (.remote, some (js "sql01.example")) ∧
    set.awaitingFirstConnect = [] ∧ ¬ FilesWin (filesOf run) set := by
  refine ⟨_, _, sequenced_performedWork [(.addLocal [sampleInstance], false), (.reconcileRemote [sampleRemote], true)],
    by decide +kernel, by decide +kernel, by decide +kernel, fun wins => ?_⟩
  rcases (wins (js "SQL01") sampleInstance (by decide +kernel)).1 with ⟨entry, status, found, file, -⟩ | waits
  · have remote :
        ((performedWork [(.addLocal [sampleInstance], false), (.reconcileRemote [sampleRemote], true)]).1.entries.get
        (js "SQL01")).map (·.source) = some .remote := by decide +kernel
    rw [found, Option.map_some, file] at remote
    cases remote
  · revert waits
    decide +kernel

end Samples

end RemoteSqlAgent
