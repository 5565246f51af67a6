import RemoteSqlAgent.LinkRules

/-! Ceilings that workers report. The control plane reads one in a hello, and again whenever
it looks up what a worker may do. What is no tier is to be read as the lowest; a name that
every object has from its prototype passes for a tier, and both computations throw. -/
namespace CallProgram
variable {Call : Type} {Answer : Call → Type} {Error α : Type} {program : CallProgram Call Answer Error α}
  {rule : List (Exchange Answer) → Call → Prop} {said transcript : List (Exchange Answer)} {outcome : Except Error α}

/-- What is asked in a run is asked by the rule, as things stand then. -/
theorem Obeys.asked (obeys : Obeys rule said program) (run : Runs program transcript outcome)
    {exchange : Exchange Answer} (asked : exchange ∈ transcript) :
    ∃ before, before <+: said ++ transcript ∧ rule before exchange.1 := by
  induction run generalizing said with
  | done | throw => cases asked
  | call answer _ ih =>
    cases obeys with
    | call allowed each =>
      rcases List.mem_cons.mp asked with rfl | later
      · exact ⟨said, List.prefix_append _ _, allowed⟩
      · obtain ⟨before, shorter, holds⟩ := ih (each answer) later
        rw [List.append_assoc] at shorter
        exact ⟨before, shorter, holds⟩

/-- A run ends as the program does. -/
theorem Goes.ended {ends : List (Exchange Answer) → α → Prop} {fails : List (Exchange Answer) → Error → Prop}
    (goes : Goes rule ends fails said program) (run : Runs program transcript outcome) :
    (∃ value, outcome = .ok value ∧ ends (said ++ transcript) value) ∨
      ∃ error, outcome = .error error ∧ fails (said ++ transcript) error := by
  induction run generalizing said with
  | done value =>
    cases goes with
    | done holds => exact .inl ⟨value, rfl, by rwa [List.append_nil]⟩
  | throw error =>
    cases goes with
    | throw holds => exact .inr ⟨error, rfl, by rwa [List.append_nil]⟩
  | call answer _ ih =>
    cases goes with
    | call allowed each =>
      have onward := ih (each answer)
      rwa [List.append_assoc] at onward

end CallProgram

namespace RemoteSqlAgent
open Js CallProgram

/-! ## Grants under a ceiling -/

theorem effectiveCapabilities_mono {serverGrant more : List JsString} {ceiling : MaxCapabilityTier}
    (wider : serverGrant ⊆ more) : effectiveCapabilities serverGrant ceiling ⊆ effectiveCapabilities more ceiling := by
  intro capability member
  refine mem_effectiveCapabilities.mpr ((mem_effectiveCapabilities.mp member).imp_right ?_)
  exact fun ⟨granted, within⟩ => ⟨wider granted, within⟩

/-- Neither the order of a grant nor its repetitions matter. -/
theorem effectiveCapabilities_congr {serverGrant other : List JsString} {ceiling : MaxCapabilityTier}
    (same : ∀ granted, granted ∈ serverGrant ↔ granted ∈ other) :
    effectiveCapabilities serverGrant ceiling = effectiveCapabilities other ceiling := by
  apply effectiveCapabilities_ext
  intro capability
  rw [mem_effectiveCapabilities, mem_effectiveCapabilities, same]

theorem effectiveCapabilities_readOnly (serverGrant : List JsString) :
    effectiveCapabilities serverGrant .readOnly = [.observe] := by
  have nothing : effectiveCapabilities [] .readOnly = [.observe] := rfl
  rw [← nothing]
  apply effectiveCapabilities_ext
  intro capability
  rw [nothing, mem_effectiveCapabilities, List.mem_singleton]
  exact ⟨fun held => held.elim id fun ⟨_, within⟩ => List.mem_singleton.mp within, .inl⟩

/-- What is right for a ceiling: nothing above the tier of that name, or observing alone if
there is none. -/
structure SoundUnder (maxCapability : JsString) (capabilities : List Capability) : Prop where
  within : ∀ tier : MaxCapabilityTier, maxCapability = tier.text → capabilities ⊆ MAX_CAPABILITY_TIERS tier
  unknown : (∀ tier : MaxCapabilityTier, maxCapability ≠ tier.text) → capabilities = [.observe]
  observes : .observe ∈ capabilities

theorem soundUnder_of_ok {serverGrant : List JsString} {maxCapability : JsString} {capabilities : List Capability}
    (computed : capabilitiesUnder serverGrant maxCapability = .ok capabilities) :
    SoundUnder maxCapability capabilities := by
  rw [capabilitiesUnder_eq] at computed
  split at computed
  · cases computed
  · cases computed
    constructor
    · rintro tier rfl
      rw [ceilingOf_text]
      exact effectiveCapabilities_subset serverGrant tier
    · intro undeclared
      have none : declaredTier maxCapability = none := by
        rw [Option.eq_none_iff_forall_not_mem]
        exact fun tier declared => undeclared tier (declaredTier_eq_some.mp declared)
      rw [ceilingOf, none]
      exact effectiveCapabilities_readOnly serverGrant
    · exact mem_effectiveCapabilities.mpr (.inl rfl)

theorem capabilitiesUnder_mono {serverGrant more : List JsString} {maxCapability : JsString}
    {capabilities others : List Capability} (computed : capabilitiesUnder serverGrant maxCapability = .ok capabilities)
    (again : capabilitiesUnder more maxCapability = .ok others) (wider : serverGrant ⊆ more) : capabilities ⊆ others := by
  rw [capabilitiesUnder_eq] at computed again
  split at computed
  · cases computed
  next own =>
    rw [if_neg own] at again
    cases computed
    cases again
    exact effectiveCapabilities_mono wider

theorem capabilitiesUnder_congr {serverGrant other : List JsString} {maxCapability : JsString}
    (same : ∀ granted, granted ∈ serverGrant ↔ granted ∈ other) :
    capabilitiesUnder serverGrant maxCapability = capabilitiesUnder other maxCapability := by
  rw [capabilitiesUnder_eq, capabilitiesUnder_eq, effectiveCapabilities_congr same]

/-! ## A hello -/

/-- A statement that a hello waits for has failed. -/
def HelloFails : Exchange HubAnswer → Prop
  | ⟨.recordWorkerHello .., .error _⟩ | ⟨.upsertInstance _ _, .error _⟩ | ⟨.insertSyncState _, .error _⟩
  | ⟨.command (.writeAudit _), .error _⟩ => True
  | _ => False

section Hello
variable {config : HubConfig} {worker : AuthenticatedWorker} {remoteAddress : JsString} {session : HubSession}
  {hello : HubHello} {said : List (Exchange HubAnswer)}

/-- The hello was recorded, and its worker found. -/
def recorded (worker : AuthenticatedWorker) (remoteAddress : JsString) (hello : HubHello) (row : HelloRow) :
    Exchange HubAnswer :=
  ⟨.recordWorkerHello worker.workerId hello.workerVersion hello.maxCapability remoteAddress, .ok row⟩

/-- An acknowledgement has what the grant of the worker comes to under the ceiling of the
hello. -/
def AckRule (worker : AuthenticatedWorker) (remoteAddress : JsString) (hello : HubHello)
    (said : List (Exchange HubAnswer)) (request : HubCall) : Prop :=
  ∀ workerId capabilities, request = .sendHelloAck workerId capabilities →
    ∃ row, [recorded worker remoteAddress hello row] <+: said ∧
      capabilitiesUnder row.capabilities hello.maxCapability = .ok capabilities

abbrev Longer {α : Type} (said later : List (Exchange HubAnswer)) (_ : α) : Prop := said <+: later

abbrev Failed {α : Type} (later : List (Exchange HubAnswer)) (_ : α) : Prop := ∃ exchange ∈ later, HelloFails exchange

theorem ackRule_of_ne {request : HubCall}
    (silent : ∀ workerId capabilities, request ≠ .sendHelloAck workerId capabilities) :
    AckRule worker remoteAddress hello said request :=
  fun workerId capabilities same => absurd same (silent workerId capabilities)

/-- A statement that succeeds, or fails the hello. -/
theorem goes_statement {α : Type} {request : HubCall} {rule : List (Exchange HubAnswer) → HubCall → Prop}
    {answer : HubAnswer request} {result : Except JsString α}
    (failing : ∀ text, result = .error text → HelloFails ⟨request, answer⟩) :
    Goes rule (Longer said) Failed (said ++ [⟨request, answer⟩]) (orLog result) := by
  cases result with
  | error text => exact .throw ⟨⟨request, answer⟩, by simp, failing text rfl⟩
  | ok value => exact .done (List.prefix_append _ _)

theorem goes_hello_audit (actor action : JsString) (target : Option JsString) :
    Goes (AckRule worker remoteAddress hello) (Longer said) Failed said (audit actor action target remoteAddress) := by
  refine .call (ackRule_of_ne fun _ _ same => by cases same) fun answer => goes_statement fun text failed => ?_
  subst failed
  trivial

theorem goes_hello_publish (hostName publicKey : JsString) :
    Goes (AckRule worker remoteAddress hello) (Longer said) Never said
      (publishCredentialKey worker remoteAddress hostName publicKey) := by
  unfold publishCredentialKey
  refine Goes.ite (fun _ => ?_) fun _ => .done List.prefix_rfl
  refine .ask (ackRule_of_ne fun _ _ same => by cases same) fun answer => ?_
  cases answer with
  | error text => exact .done (List.prefix_append _ _)
  | ok changed =>
    cases changed with
    | false => exact .done (List.prefix_append _ _)
    | true =>
      refine .ask (ackRule_of_ne fun _ _ same => by cases same) fun answer => ?_
      cases answer <;> exact .done ((List.prefix_append _ _).trans (List.prefix_append _ _))

theorem goes_hello_upsert (names : List JsString) :
    Goes (AckRule worker remoteAddress hello) (Longer said) Failed said (upsertInstances worker.workerId names) := by
  induction names generalizing said with
  | nil => exact .done List.prefix_rfl
  | cons name rest ih =>
    refine .ask (ackRule_of_ne fun _ _ same => by cases same) fun answer => ?_
    refine Goes.bind (goes_statement fun text failed => ?_) fun later id longer => ?_
    · subst failed
      trivial
    refine .ask (ackRule_of_ne fun _ _ same => by cases same) fun answer => ?_
    refine Goes.bind (goes_statement fun text failed => ?_) fun next _ longest => ?_
    · subst failed
      trivial
    exact ih.bind fun last ids onward => .done (longer.trans (longest.trans onward))

theorem goes_hello_onCommands {α : Type} (program : Service α) :
    Goes (AckRule worker remoteAddress hello) (Longer said) Never said (onCommands program) := by
  suffices every : ∀ start, start <+: said →
      Goes (AckRule worker remoteAddress hello) (Longer start) Never said (onCommands program) from
    every said List.prefix_rfl
  induction program generalizing said with
  | done value => exact fun start shorter => .done shorter
  | throw error => exact fun start shorter => .done shorter
  | call request next ih =>
    intro start shorter
    exact .call (ackRule_of_ne fun _ _ same => by cases same) fun answer =>
      ih answer start (shorter.trans (List.prefix_append _ _))

/-- The hello was answered, unless its ceiling is an inherited name or a statement failed. -/
def HelloAnswered (worker : AuthenticatedWorker) (remoteAddress : JsString) (hello : HubHello)
    (said : List (Exchange HubAnswer)) (_ : HubSession) : Prop :=
  hello.maxCapability ∉ OBJECT_PROTOTYPE → (∃ exchange ∈ said, HelloFails exchange) ∨
    ∃ row capabilities, [recorded worker remoteAddress hello row] <+: said ∧
      ⟨.sendHelloAck worker.workerId capabilities, ()⟩ ∈ said

/-- A hello never throws, and what it acknowledges is what was computed for it. -/
theorem goes_hello (allowed : config.versionAllowed hello.workerVersion = true) :
    Goes (AckRule worker remoteAddress hello) (HelloAnswered worker remoteAddress hello) Never []
      (handleHello config worker remoteAddress session hello) := by
  unfold handleHello
  rw [if_neg (not_not.mpr allowed)]
  refine .call (ackRule_of_ne fun _ _ same => by cases same) fun answer => ?_
  cases answer with
  | error text => exact .done fun _ => .inl ⟨_, List.mem_cons_self, trivial⟩
  | ok row =>
    refine goes_proceed (goes_hello_publish _ _) (fun _ never => never.elim) fun published _ first => ?_
    refine goes_proceed (goes_hello_upsert _) (fun _ failed _ => .inl failed) fun upserted ids second => ?_
    dsimp only
    cases computed : capabilitiesUnder row.capabilities hello.maxCapability with
    | error message =>
      refine .done fun own => ?_
      rw [capabilitiesUnder_eq, if_neg own] at computed
      cases computed
    | ok capabilities =>
      refine .call (ackRule_of_ne fun _ _ same => by cases same) fun superseded => ?_
      refine goes_proceed (goes_hello_audit _ _ _) (fun _ failed _ => .inl failed) fun audited _ third => ?_
      have opened : [recorded worker remoteAddress hello row] <+: audited :=
        first.trans (second.trans ((List.prefix_append _ _).trans third))
      refine .call ?_ fun _ => ?_
      · intro workerId acked same
        cases same
        exact ⟨row, opened, computed⟩
      have answered : ∀ last session, audited ++ [⟨.sendHelloAck worker.workerId capabilities, ()⟩] <+: last →
          HelloAnswered worker remoteAddress hello last session := by
        intro last session longer _
        exact .inr ⟨row, capabilities, opened.trans ((List.prefix_append _ _).trans longer),
          longer.subset (List.mem_append_right _ List.mem_cons_self)⟩
      refine .call (ackRule_of_ne fun _ _ same => by cases same) fun answer => ?_
      cases answer with
      | error text => exact .done (answered _ _ (List.prefix_append _ _))
      | ok _ =>
        exact (goes_hello_onCommands _).bind fun last _ fourth =>
          .done (answered _ _ ((List.prefix_append _ _).trans fourth))

end Hello

/-! ## Both computations -/

/-- What a computation of the control plane gives for a worker with a reported ceiling and a
grant: a hello acknowledges it, or the look-up of a command returns it. -/
inductive Computed (maxCapability : JsString) (grant : List JsString) : List Capability → Prop where
  | hello {config : HubConfig} {worker : AuthenticatedWorker} {remoteAddress : JsString} {session : HubSession}
      {hello : HubHello} {row : HelloRow} {transcript : List (Exchange HubAnswer)} {ended : Except Unit HubSession}
      {workerId : JsString} {capabilities : List Capability}
      (run : Runs (handleHello config worker remoteAddress session hello)
        (recorded worker remoteAddress hello row :: transcript) ended)
      (reported : hello.maxCapability = maxCapability) (granted : row.capabilities = grant)
      (acknowledged : ⟨.sendHelloAck workerId capabilities, ()⟩ ∈ transcript) :
      Computed maxCapability grant capabilities
  | lookup {instanceId : JsString} {row : GrantRow} {transcript : List (Exchange CommandAnswer)}
      {effective : EffectiveCapabilities}
      (run : Runs (effectiveCapabilitiesFor instanceId) (⟨.selectGrant instanceId, .ok (some row)⟩ :: transcript)
        (.ok effective))
      (reported : row.ceiling.getD [] = maxCapability) (granted : row.granted = grant) :
      Computed maxCapability grant effective.capabilities

/-- A reported ceiling fails closed. Both computations end with a result if no statement
fails; each result is right for the ceiling; a wider grant gives no less, and one with the
same members gives the same. -/
structure FailsClosed (maxCapability : JsString) : Prop where
  greets : ∀ {config : HubConfig} {worker : AuthenticatedWorker} {remoteAddress : JsString} {session : HubSession}
    {hello : HubHello} {transcript : List (Exchange HubAnswer)} {ended : Except Unit HubSession},
    hello.maxCapability = maxCapability → config.versionAllowed hello.workerVersion = true →
    Runs (handleHello config worker remoteAddress session hello) transcript ended →
    (∀ exchange ∈ transcript, ¬ HelloFails exchange) →
    ∃ capabilities, ⟨.sendHelloAck worker.workerId capabilities, ()⟩ ∈ transcript
  finds : ∀ (instanceId : JsString) (row : GrantRow), row.ceiling.getD [] = maxCapability →
    ∃ capabilities, Runs (effectiveCapabilitiesFor instanceId) [⟨.selectGrant instanceId, .ok (some row)⟩]
      (.ok ⟨row.workerId, row.hostName, capabilities⟩)
  sound : ∀ {grant capabilities}, Computed maxCapability grant capabilities → SoundUnder maxCapability capabilities
  monotone : ∀ {grant more capabilities others}, Computed maxCapability grant capabilities →
    Computed maxCapability more others → grant ⊆ more → capabilities ⊆ others
  unordered : ∀ {grant other capabilities others}, Computed maxCapability grant capabilities →
    Computed maxCapability other others → (∀ granted, granted ∈ grant ↔ granted ∈ other) → capabilities = others

/-- Looking up a worker ends with what its grant comes to, or throws where that does. -/
theorem runs_effectiveCapabilitiesFor {instanceId : JsString} {row : GrantRow}
    {transcript : List (Exchange CommandAnswer)} {ended : Except ServiceError EffectiveCapabilities} :
    Runs (effectiveCapabilitiesFor instanceId) (⟨.selectGrant instanceId, .ok (some row)⟩ :: transcript) ended ↔
      transcript = [] ∧ ended = ((capabilitiesUnder row.granted (row.ceiling.getD [])).map fun capabilities =>
        EffectiveCapabilities.mk row.workerId row.hostName capabilities).mapError .typeError := by
  constructor
  · intro run
    obtain ⟨answer, later, same, onward⟩ := runs_call.mp run
    cases same
    cases under : capabilitiesUnder row.granted (row.ceiling.getD []) <;>
      simpa [orFail, CallProgram.bind, under, Except.map, Except.mapError] using onward
  · rintro ⟨rfl, rfl⟩
    refine runs_call.mpr ⟨.ok (some row), [], rfl, ?_⟩
    cases under : capabilitiesUnder row.granted (row.ceiling.getD []) <;>
      simp [orFail, CallProgram.bind, under, Except.map, Except.mapError]

/-- An acknowledgement in a run is of what the grant that was found comes to. -/
theorem acknowledged_computed {config : HubConfig} {worker : AuthenticatedWorker} {remoteAddress : JsString}
    {session : HubSession} {hello : HubHello} {row : HelloRow} {transcript : List (Exchange HubAnswer)}
    {ended : Except Unit HubSession} {workerId : JsString} {capabilities : List Capability}
    (run : Runs (handleHello config worker remoteAddress session hello)
      (recorded worker remoteAddress hello row :: transcript) ended)
    (acknowledged : ⟨.sendHelloAck workerId capabilities, ()⟩ ∈ transcript) :
    capabilitiesUnder row.capabilities hello.maxCapability = .ok capabilities := by
  by_cases allowed : config.versionAllowed hello.workerVersion = true
  · obtain ⟨before, shorter, rule⟩ := (goes_hello allowed).obeys.asked run (List.mem_cons_of_mem _ acknowledged)
    obtain ⟨found, opened, computed⟩ := rule workerId capabilities rfl
    obtain ⟨rest, same⟩ := opened.trans shorter
    cases (List.cons.inj same).1
    exact computed
  · unfold handleHello at run
    rw [if_pos allowed] at run
    obtain ⟨answer, later, same, -⟩ := runs_call.mp run
    cases (List.cons.inj same).1

theorem Computed.computed {maxCapability : JsString} {grant : List JsString} {capabilities : List Capability}
    (computed : Computed maxCapability grant capabilities) :
    capabilitiesUnder grant maxCapability = .ok capabilities := by
  cases computed with
  | hello run reported granted acknowledged =>
    subst reported granted
    exact acknowledged_computed run acknowledged
  | @lookup instanceId row transcript effective run reported granted =>
    subst reported granted
    obtain ⟨-, ended⟩ := runs_effectiveCapabilitiesFor.mp run
    cases under : capabilitiesUnder row.granted (row.ceiling.getD []) with
    | error message =>
      rw [under] at ended
      cases ended
    | ok found =>
      rw [under] at ended
      cases ended
      rfl

/-- A reported ceiling fails closed unless it is the name of something inherited. -/
theorem failsClosed_iff (maxCapability : JsString) : FailsClosed maxCapability ↔ maxCapability ∉ OBJECT_PROTOTYPE := by
  constructor
  · intro closed inherited
    obtain ⟨capabilities, run⟩ := closed.finds [] ⟨[], [], [], some maxCapability⟩ rfl
    have computed := (Computed.lookup run rfl rfl).computed
    rw [capabilitiesUnder_eq] at computed
    change (if maxCapability ∈ OBJECT_PROTOTYPE then _ else _) = _ at computed
    rw [if_pos inherited] at computed
    cases computed
  · intro own
    constructor
    · intro config worker remoteAddress session hello transcript ended reported allowed run faultless
      subst reported
      rcases (goes_hello allowed).ended run with ⟨after, rfl, answered⟩ | ⟨error, rfl, never⟩
      · rcases answered own with ⟨exchange, member, failed⟩ | ⟨row, capabilities, -, acknowledged⟩
        · exact absurd failed (faultless exchange member)
        · exact ⟨capabilities, acknowledged⟩
      · exact never.elim
    · intro instanceId row reported
      refine ⟨effectiveCapabilities row.granted (ceilingOf maxCapability), runs_effectiveCapabilitiesFor.mpr ⟨rfl, ?_⟩⟩
      rw [reported, capabilitiesUnder_eq, if_neg own]
      rfl
    · intro grant capabilities computed
      exact soundUnder_of_ok computed.computed
    · intro grant more capabilities others computed again wider
      exact capabilitiesUnder_mono computed.computed again.computed wider
    · intro grant other capabilities others computed again same
      have results := computed.computed.symm.trans ((capabilitiesUnder_congr same).trans again.computed)
      exact Except.ok.inj results

def constructorRow : GrantRow := ⟨js "w1", js "HOST1", [js "job.run"], some (js "constructor")⟩

/-- For a worker that reports `constructor` as its ceiling, the look-up throws. -/
theorem constructor_throws :
    Runs (effectiveCapabilitiesFor (js "i1")) [⟨.selectGrant (js "i1"), .ok (some constructorRow)⟩]
      (.error (.typeError (js "TypeError"))) ∧ ¬ FailsClosed (js "constructor") := by
  have thrown : capabilitiesUnder [js "job.run"] (js "constructor") = .error (js "TypeError") := by decide
  have run : Runs (effectiveCapabilitiesFor (js "i1")) [⟨.selectGrant (js "i1"), .ok (some constructorRow)⟩]
      (.error (.typeError (js "TypeError"))) := by
    refine runs_effectiveCapabilitiesFor.mpr ⟨rfl, ?_⟩
    change _ = ((capabilitiesUnder [js "job.run"] (js "constructor")).map _).mapError _
    rw [thrown]
    rfl
  refine ⟨run, fun closed => ?_⟩
  obtain ⟨capabilities, found⟩ := closed.finds (js "i1") constructorRow rfl
  cases run.ended_unique found

end RemoteSqlAgent
