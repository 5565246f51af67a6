import RemoteSqlAgent.JsDigits
import RemoteSqlAgent.JsScalars
import RemoteSqlAgent.LikePattern
import RemoteSqlAgent.Hub
import RemoteSqlAgent.Notifications

/-! Searching jobs by their names and the text of their steps. The database looks with a
pattern, what it finds is looked through again, and both ask for the same: that a text
contains what was typed. -/
namespace RemoteSqlAgent
open Js

/-! ## Patterns -/

/-- `String.prototype.replaceAll` of one unit. -/
def replaceAll (unit : CodeUnit) (replacement s : JsString) : JsString :=
  s.flatMap fun other => if other = unit then replacement else [other]

def percent : CodeUnit := Fin.ofNat _ 0x25

def underscore : CodeUnit := Fin.ofNat _ 0x5F

def backslash : CodeUnit := Fin.ofNat _ 0x5C

/-- Escape the wildcards, so that a search for `100%` does not match everything. -/
def escapeLikePattern (input : JsString) : JsString :=
  replaceAll underscore [backslash, underscore]
    (replaceAll percent [backslash, percent] (replaceAll backslash [backslash, backslash] input))

def likePattern (query : JsString) : JsString := js "%" ++ escapeLikePattern query ++ js "%"

/-- The signs of `LIKE`. -/
def likeSigns : Like.Wildcards Char where
  any := Char.ofNat 0x25
  one := Char.ofNat 0x5F
  escape := Char.ofNat 0x5C
  any_ne_one := by decide
  any_ne_escape := by decide
  one_ne_escape := by decide

def IsSign (unit : CodeUnit) : Prop := unit = percent ∨ unit = underscore ∨ unit = backslash

instance (unit : CodeUnit) : Decidable (IsSign unit) := inferInstanceAs (Decidable (_ ∨ _))

/-- A unit, with a backslash if it is a sign. -/
def escapedUnit (unit : CodeUnit) : JsString := if IsSign unit then [backslash, unit] else [unit]

theorem replaceAll_other {unit other : CodeUnit} (different : other ≠ unit) (replacement : JsString) :
    replaceAll unit replacement [other] = [other] := by
  rw [replaceAll, List.flatMap_singleton, if_neg different]

theorem escapeLikePattern_unit (unit : CodeUnit) : escapeLikePattern [unit] = escapedUnit unit := by
  by_cases sign : IsSign unit
  · rcases sign with rfl | rfl | rfl <;> rfl
  · have plain := sign
    rw [IsSign, not_or, not_or] at plain
    rw [escapeLikePattern, replaceAll_other plain.2.2, replaceAll_other plain.1, replaceAll_other plain.2.1, escapedUnit,
      if_neg sign]

theorem escapeLikePattern_append (first second : JsString) :
    escapeLikePattern (first ++ second) = escapeLikePattern first ++ escapeLikePattern second := by
  unfold escapeLikePattern replaceAll
  rw [List.flatMap_append, List.flatMap_append, List.flatMap_append]

/-- The three passes do at once what they do one after another: each leaves alone what the
others put in. -/
theorem escapeLikePattern_eq (input : JsString) : escapeLikePattern input = input.flatMap escapedUnit := by
  induction input with
  | nil => rfl
  | cons unit rest ih =>
    rw [← List.singleton_append, escapeLikePattern_append, escapeLikePattern_unit, ih, List.singleton_append,
      List.flatMap_cons]

theorem IsSign.plain {unit : CodeUnit} (sign : IsSign unit) :
    isHighSurrogate unit = false ∧ isLowSurrogate unit = false := by
  rcases sign with rfl | rfl | rfl <;> exact ⟨rfl, rfl⟩

/-- A unit is read as a sign only if it is that one. -/
theorem loneScalar_eq_iff {unit sign : CodeUnit} (isSign : IsSign sign) :
    loneScalar unit = loneScalar sign ↔ unit = sign := by
  refine ⟨fun same => ?_, congrArg loneScalar⟩
  have value : (loneScalar sign).toNat = sign.val ∧ sign.val < 0x80 := by
    rcases isSign with rfl | rfl | rfl <;> decide
  have read : (loneScalar unit).toNat = sign.val := (congrArg Char.toNat same).trans value.1
  by_cases surrogate : (isHighSurrogate unit || isLowSurrogate unit) = true
  · rw [loneScalar, if_pos surrogate] at read
    have replaced : (Char.ofNat 0xFFFD).toNat = 0xFFFD := rfl
    omega
  · rw [loneScalar, if_neg surrogate] at read
    have small := unit.isLt
    have valid : Nat.isValidChar unit.val := by
      simp only [isHighSurrogate, isLowSurrogate, Bool.or_eq_true, Bool.and_eq_true, decide_eq_true_eq] at surrogate
      simp only [Nat.isValidChar]
      omega
    rw [Char.ofNat, dif_pos valid] at read
    exact Fin.ext read

/-- A unit on its own is escaped as the character it is read as. -/
theorem toScalars_escapedUnit (unit : CodeUnit) : toScalars (escapedUnit unit) = likeSigns.escaped (loneScalar unit) := by
  have signs : (loneScalar unit = likeSigns.any ∨ loneScalar unit = likeSigns.one ∨
      loneScalar unit = likeSigns.escape) ↔ IsSign unit :=
    or_congr (@loneScalar_eq_iff unit percent (.inl rfl)) (or_congr (@loneScalar_eq_iff unit underscore (.inr (.inl rfl)))
      (@loneScalar_eq_iff unit backslash (.inr (.inr rfl))))
  rw [escapedUnit, Like.Wildcards.escaped]
  by_cases sign : IsSign unit
  · rw [if_pos sign, if_pos (signs.mpr sign)]
    rfl
  · rw [if_neg sign, if_neg (mt signs.mp sign)]
    rfl

theorem escapedUnit_surrogate {unit : CodeUnit} (surrogate : isHighSurrogate unit = true ∨ isLowSurrogate unit = true) :
    escapedUnit unit = [unit] := by
  refine if_neg fun sign => ?_
  have plain := sign.plain
  rcases surrogate with high | low
  · exact Bool.noConfusion (plain.1.symm.trans high)
  · exact Bool.noConfusion (plain.2.symm.trans low)

/-- A pair is no sign. -/
theorem escaped_pairScalar {first second : CodeUnit} (paired : (isHighSurrogate first && isLowSurrogate second) = true) :
    likeSigns.escaped (pairScalar first second) = [pairScalar first second] := by
  simp only [isHighSurrogate, isLowSurrogate, Bool.and_eq_true, decide_eq_true_eq] at paired
  have valid : Nat.isValidChar (0x10000 + (first.val - 0xD800) * 0x400 + (second.val - 0xDC00)) := by
    simp only [Nat.isValidChar]
    omega
  have large : 0x10000 ≤ (pairScalar first second).toNat := by
    rw [pairScalar, Char.ofNat, dif_pos valid]
    change 0x10000 ≤ 0x10000 + (first.val - 0xD800) * 0x400 + (second.val - 0xDC00)
    omega
  refine if_neg fun sign => ?_
  have small : (pairScalar first second).toNat < 0x80 := by
    rcases sign with same | same | same <;> rw [same] <;> decide
  omega

/-- What the database reads of an escaped text is the text it reads, escaped. -/
theorem toScalars_escapeLikePattern (input : JsString) :
    toScalars (escapeLikePattern input) = (toScalars input).flatMap likeSigns.escaped := by
  rw [escapeLikePattern_eq]
  induction input using toScalars.induct with
  | case1 => rfl
  | case2 unit =>
    rw [List.flatMap_singleton, toScalars_escapedUnit, toScalars, List.flatMap_singleton]
  | case3 first second rest paired ih =>
    have both := paired
    rw [Bool.and_eq_true] at both
    rw [List.flatMap_cons, List.flatMap_cons, escapedUnit_surrogate (.inl both.1), escapedUnit_surrogate (.inr both.2),
      List.singleton_append, List.singleton_append, toScalars, if_pos paired, ih, toScalars, if_pos paired,
      List.flatMap_cons, escaped_pairScalar paired, List.singleton_append]
  | case4 first second rest lone ih =>
    have parted : toScalars (escapedUnit first ++ (second :: rest).flatMap escapedUnit) =
        toScalars (escapedUnit first) ++ toScalars ((second :: rest).flatMap escapedUnit) := by
      -- The first unit is followed by the second or by a backslash, so no pair comes about.
      refine toScalars_append fun high isLast low isFirst paired => ?_
      have isHigh : high = first := by
        unfold escapedUnit at isLast
        split at isLast <;> exact (Option.some.inj isLast).symm
      subst isHigh
      rw [List.flatMap_cons, escapedUnit] at isFirst
      split at isFirst
      · obtain rfl := Option.some.inj isFirst
        rw [Bool.and_eq_true] at paired
        exact Bool.noConfusion paired.2
      · obtain rfl := Option.some.inj isFirst
        exact lone paired
    rw [List.flatMap_cons, parted, ih, toScalars_escapedUnit, toScalars, if_neg lone, List.flatMap_cons]

/-- The whole pattern, as the database reads it. -/
theorem toScalars_likePattern (query : JsString) : toScalars (likePattern query) =
    likeSigns.any :: ((toScalars query).flatMap likeSigns.escaped ++ [likeSigns.any]) := by
  have sign : js "%" = [percent] := rfl
  have front := toScalars_append_cons (IsSign.plain (.inl rfl) : isHighSurrogate percent = false ∧ _).1
    (IsSign.plain (.inl rfl) : _ ∧ isLowSurrogate percent = false).2
  have before := front [] (escapeLikePattern query ++ [percent])
  rw [likePattern, sign, List.append_assoc, List.singleton_append, ← List.nil_append (percent :: _), before, front,
    toScalars_escapeLikePattern]
  rfl

/-- **`LIKE` with an escaped query between two percent signs is containing it.** -/
theorem like_likePattern (query : JsString) (text : List Char) :
    Like.like likeSigns (toScalars (likePattern query)) text = some (decide (toScalars query <:+: text)) := by
  rw [toScalars_likePattern, Like.like_contains]

/-! ## Folding -/

/-- A case folding that leaves the signs of `LIKE` alone: a sign is folded to itself and no
letter to a sign, and what stands on one side of a sign has no effect on the other. -/
structure CaseFolding where
  fold : JsString → JsString
  nil : fold [] = []
  sign : ∀ before unit after, IsSign unit → fold (before ++ unit :: after) = fold before ++ unit :: fold after
  plain : ∀ s : JsString, (∀ unit ∈ s, ¬ IsSign unit) → ∀ unit ∈ fold s, ¬ IsSign unit
  wellFormed : ∀ s, IsWellFormed s → IsWellFormed (fold s)

section Folding
variable (folding : CaseFolding)

/-- `text ILIKE pattern`. -/
def ilike (text pattern : JsString) : Option Bool :=
  Like.like likeSigns (toScalars (folding.fold pattern)) (toScalars (folding.fold text))

variable {folding}

theorem escapeLikePattern_plain {s : JsString} (plain : ∀ unit ∈ s, ¬ IsSign unit) : escapeLikePattern s = s := by
  rw [escapeLikePattern_eq]
  induction s with
  | nil => rfl
  | cons unit rest ih =>
    rw [List.flatMap_cons, escapedUnit, if_neg (plain unit List.mem_cons_self),
      ih fun other member => plain other (List.mem_cons_of_mem _ member), List.singleton_append]

theorem escapeLikePattern_sign (before after : JsString) {unit : CodeUnit} (sign : IsSign unit) :
    escapeLikePattern (before ++ unit :: after) =
      escapeLikePattern before ++ backslash :: unit :: escapeLikePattern after := by
  rw [← List.singleton_append, escapeLikePattern_append, escapeLikePattern_append, escapeLikePattern_unit, escapedUnit,
    if_pos sign]
  rfl

/-- Folding a text and escaping it can be done in either order. -/
theorem fold_escapeLikePattern (s : JsString) :
    folding.fold (escapeLikePattern s) = escapeLikePattern (folding.fold s) := by
  induction length : s.length using Nat.strongRecOn generalizing s with
  | _ n ih =>
    subst length
    by_cases plain : ∀ unit ∈ s, ¬ IsSign unit
    · rw [escapeLikePattern_plain plain, escapeLikePattern_plain (folding.plain s plain)]
    · push Not at plain
      obtain ⟨unit, member, sign⟩ := plain
      obtain ⟨before, after, rfl⟩ := List.append_of_mem member
      have isBackslash : IsSign backslash := .inr (.inr rfl)
      have alone := folding.sign [] unit (escapeLikePattern after) sign
      rw [List.nil_append, folding.nil, List.nil_append] at alone
      rw [escapeLikePattern_sign before after sign, folding.sign _ _ _ isBackslash, alone,
        ih before.length (by simp) before rfl, ih after.length (by simp; omega) after rfl, folding.sign _ _ _ sign,
        escapeLikePattern_sign _ _ sign]

theorem fold_likePattern (query : JsString) : folding.fold (likePattern query) = likePattern (folding.fold query) := by
  have isPercent : IsSign percent := .inl rfl
  have literal : js "%" = [percent] := rfl
  have front := folding.sign [] percent (escapeLikePattern query ++ [percent]) isPercent
  rw [List.nil_append, folding.nil, List.nil_append] at front
  rw [likePattern, likePattern, literal, List.append_assoc, List.singleton_append, front,
    folding.sign _ _ _ isPercent, folding.nil, fold_escapeLikePattern]
  rfl

/-- **`ILIKE` with the pattern of a query is containing it, under the folding.** -/
theorem ilike_likePattern {query text : JsString} (decoded : IsWellFormed query) (stored : IsWellFormed text) :
    ilike folding text (likePattern query) = some (includes (folding.fold text) (folding.fold query)) := by
  rw [ilike, fold_likePattern, like_likePattern]
  exact congrArg some (decide_eq_decide.mpr
    (infix_iff_toScalars (folding.wellFormed query decoded) (folding.wellFormed text stored)).symm)

end Folding

/-! ## The search -/

/-- A row of `jobs` with its key. -/
structure KeyedJob extends JobsRow where
  job : JobKey

/-- A row of `workers`, as far as a search shows it. -/
structure WorkerName where
  id : JsString
  hostName : JsString

/-- A row of `job_versions` with its job. -/
structure KeyedVersion extends JobVersion where
  job : JobKey

/-- The tables a search reads. The texts that are searched are stored as UTF-8. -/
structure SearchStore where
  jobs : KeyedTable KeyedJob.job
  instances : KeyedTable InstanceRow.id
  workers : KeyedTable WorkerName.id
  jobVersions : KeyedTable fun version : KeyedVersion => (version.job, version.versionNo)
  names : ∀ job ∈ jobs, IsWellFormed job.name
  commands : ∀ version ∈ jobVersions, ∀ step ∈ version.definition.steps, IsWellFormed step.command

/-- What the joined tables have of a job. -/
structure JoinedJob where
  job : KeyedJob
  instanceName : JsString
  hostName : JsString
  definition : JobDefinition

structure MatchingStep where
  stepId : Int
  stepName : JsString
  excerpt : JsString

structure SearchHit where
  instanceId : JsString
  instanceName : JsString
  hostName : JsString
  jobUuid : JsString
  jobName : JsString
  enabled : Bool
  isDrifted : Bool
  matchingSteps : List MatchingStep
  nameMatched : Bool

structure SearchOptions where
  limit : Option Nat
  includeDeleted : Bool

namespace SearchStore

/-- Each job with its instance, its worker and its current version. -/
def joined (store : SearchStore) : List JoinedJob :=
  store.jobs.rows.flatMap fun job =>
    (store.instances.rows.filter fun row => row.id = job.job.instanceId).flatMap fun row =>
      (store.workers.rows.filter fun worker => worker.id = row.workerId).flatMap fun worker =>
        (store.jobVersions.rows.filter fun version =>
          version.job = job.job ∧ version.versionNo = job.currentVersionNo).map fun version =>
            ⟨job, row.instanceName, worker.hostName, version.definition⟩

end SearchStore

/-- The number of the first unit where a text has a part. -/
def indexOf (text part : JsString) : Option Nat := text.tails.findIdx? fun rest => part.isPrefixOf rest

section Search
variable (folding : CaseFolding)

/-- A piece of a text around what was looked for. -/
def excerptAround (text needle : JsString) (radius : Nat) : JsString :=
  match indexOf (folding.fold text) needle with
  | none => slice text 0 (radius * 2)
  | some idx =>
    let start := idx - radius
    let finish := min text.length (idx + needle.length + radius)
    (if 0 < start then js "…" else []) ++ slice text start finish ++ (if finish < text.length then js "…" else [])

/-- The condition of the query: the name or the command of a step matches, and the job is not
deleted unless those are wanted. A pattern that cannot be read matches nothing. -/
def Selected (query : JsString) (includeDeleted : Bool) (row : JoinedJob) : Prop :=
  (ilike folding row.job.name (likePattern query) = some true ∨
      ∃ step ∈ row.definition.steps, ilike folding step.command (likePattern query) = some true) ∧
    (includeDeleted = false → row.job.deletedAt = none)

instance (query : JsString) (includeDeleted : Bool) (row : JoinedJob) :
    Decidable (Selected folding query includeDeleted row) := instDecidableAnd

def hitOf (needle : JsString) (row : JoinedJob) : SearchHit where
  instanceId := row.job.job.instanceId
  instanceName := row.instanceName
  hostName := row.hostName
  jobUuid := row.job.job.jobUuid
  jobName := row.job.name
  enabled := row.job.enabled
  isDrifted := row.job.isDrifted
  matchingSteps := (row.definition.steps.filter fun step => includes (folding.fold step.command) needle).map fun step =>
    { stepId := step.stepId, stepName := step.name, excerpt := excerptAround folding step.command needle 80 }
  nameMatched := includes (folding.fold row.job.name) needle

/-- The rows that are found, before the limit. -/
def foundRows (store : SearchStore) (query : JsString) (options : SearchOptions) : List JoinedJob :=
  store.joined.filter fun row => Selected folding query options.includeDeleted row

/-- Find jobs by name or by text inside any step. `order` is that of the database, by host, by
instance and by name. -/
def searchJobs (order : JoinedJob → JoinedJob → Int) (store : SearchStore) (query : JsString)
    (options : SearchOptions) : List SearchHit :=
  let limit := min (options.limit.getD 200) 1000
  let rows := (sortBy order (foundRows folding store query options)).take limit
  rows.map (hitOf folding (folding.fold query))

/-- A job whose name or one of whose steps contains a query. -/
def JoinedJob.Contains (query : JsString) (row : JoinedJob) : Prop :=
  folding.fold query <:+: folding.fold row.job.name ∨
    ∃ step ∈ row.definition.steps, folding.fold query <:+: folding.fold step.command

variable {folding} {store : SearchStore} {query : JsString} {options : SearchOptions} {row : JoinedJob}

theorem joined_wellFormed (member : row ∈ store.joined) : IsWellFormed row.job.name ∧
    ∀ step ∈ row.definition.steps, IsWellFormed step.command := by
  obtain ⟨job, isJob, member⟩ := List.mem_flatMap.mp member
  obtain ⟨instanceRow, -, member⟩ := List.mem_flatMap.mp member
  obtain ⟨worker, -, member⟩ := List.mem_flatMap.mp member
  obtain ⟨version, isVersion, rfl⟩ := List.mem_map.mp member
  exact ⟨store.names job isJob, store.commands version (List.mem_of_mem_filter isVersion)⟩

/-- What is found are the jobs that contain the query. -/
theorem mem_foundRows (decoded : IsWellFormed query) : row ∈ foundRows folding store query options ↔
    row ∈ store.joined ∧ row.Contains folding query ∧ (options.includeDeleted = false → row.job.deletedAt = none) := by
  rw [foundRows, List.mem_filter, decide_eq_true_iff, Selected]
  refine and_congr_right fun member => and_congr_left fun _ => ?_
  obtain ⟨name, commands⟩ := joined_wellFormed member
  rw [ilike_likePattern decoded name, Option.some_inj, includes, decide_eq_true_iff, JoinedJob.Contains]
  refine or_congr_right (exists_congr fun step => and_congr_right fun isStep => ?_)
  rw [ilike_likePattern decoded (commands step isStep), Option.some_inj, includes, decide_eq_true_iff]

/-- What is shown of a job that contains the query says so. -/
theorem hitOf_matched (contains : row.Contains folding query) :
    (hitOf folding (folding.fold query) row).nameMatched = true ∨
      (hitOf folding (folding.fold query) row).matchingSteps ≠ [] := by
  rcases contains with name | ⟨step, member, command⟩
  · exact .inl (decide_eq_true name)
  · right
    have kept : step ∈ row.definition.steps.filter fun step => includes (folding.fold step.command)
        (folding.fold query) := List.mem_filter.mpr ⟨member, decide_eq_true command⟩
    exact List.ne_nil_of_mem (List.mem_map_of_mem kept)

end Search

/-- **A search is for what contains the query.** -/
theorem search_contains (folding : CaseFolding) (order : JoinedJob → JoinedJob → Int) (store : SearchStore)
    (query : JsString) (options : SearchOptions) :
    (∀ text : List Char, Like.like likeSigns (toScalars (likePattern query)) text =
        some (decide (toScalars query <:+: text))) ∧
      (IsWellFormed query →
        (∀ hit ∈ searchJobs folding order store query options, hit.nameMatched = true ∨ hit.matchingSteps ≠ []) ∧
        ∀ row ∈ store.joined, row.Contains folding query → (options.includeDeleted = false → row.job.deletedAt = none) →
          row ∈ foundRows folding store query options) := by
  refine ⟨like_likePattern query, fun decoded => ⟨fun hit member => ?_, fun row member contains kept => ?_⟩⟩
  · obtain ⟨row, taken, rfl⟩ := List.mem_map.mp member
    have found := mem_sortBy.mp (List.mem_of_mem_take taken)
    exact hitOf_matched ((mem_foundRows decoded).mp found).2.1
  · exact (mem_foundRows decoded).mpr ⟨member, contains, kept⟩

/-! ## A sample -/

/-- The small letter of a capital of ASCII. -/
def smallUnit (unit : CodeUnit) : CodeUnit :=
  if 0x41 ≤ unit.val && unit.val ≤ 0x5A then Fin.ofNat _ (unit.val + 0x20) else unit

theorem smallUnit_sign {unit : CodeUnit} : IsSign (smallUnit unit) ↔ IsSign unit := by
  by_cases capital : (0x41 ≤ unit.val && unit.val ≤ 0x5A) = true
  · have range := capital
    simp only [Bool.and_eq_true, decide_eq_true_eq] at range
    have value : (Fin.ofNat 0x10000 (unit.val + 0x20)).val = unit.val + 0x20 := Nat.mod_eq_of_lt (by omega)
    have letter : ∀ {other : CodeUnit}, (0x41 ≤ other.val ∧ other.val ≤ 0x5A) ∨ 0x61 ≤ other.val → ¬ IsSign other := by
      intro other isLetter sign
      rcases sign with rfl | rfl | rfl <;> revert isLetter <;> decide
    rw [smallUnit, if_pos capital]
    exact iff_of_false (letter (.inr (by omega))) (letter (.inl range))
  · rw [smallUnit, if_neg capital]

/-- Small letters are made character by character. -/
theorem map_smallUnit (c : Char) : ∃ d : Char, (unitsOfChar c).map smallUnit = unitsOfChar d := by
  by_cases capital : 0x41 ≤ c.toNat ∧ c.toNat ≤ 0x5A
  · refine ⟨Char.ofNat (c.toNat + 0x20), ?_⟩
    have valid : (c.toNat + 0x20).isValidChar := .inl (by omega)
    have small : (Char.ofNat (c.toNat + 0x20)).toNat = c.toNat + 0x20 := by
      rw [Char.ofNat, dif_pos valid]
      rfl
    have value : (Fin.ofNat 0x10000 c.toNat).val = c.toNat := Nat.mod_eq_of_lt (by omega)
    rw [unitsOfChar, if_pos (by omega), unitsOfChar, if_pos (by omega), List.map_singleton, smallUnit, value, small,
      if_pos (by simpa using capital)]
  · refine ⟨c, ?_⟩
    have same : ∀ unit ∈ unitsOfChar c, smallUnit unit = unit := by
      intro unit member
      refine if_neg fun range => capital ?_
      simp only [Bool.and_eq_true, decide_eq_true_eq] at range
      unfold unitsOfChar at member
      have bound : c.toNat < 0x110000 := by
        have valid : c.toNat < 0xD800 ∨ (0xDFFF < c.toNat ∧ c.toNat < 0x110000) := c.valid
        omega
      split at member
      · have value : (Fin.ofNat 0x10000 c.toNat).val = c.toNat := Nat.mod_eq_of_lt ‹_›
        rw [List.mem_singleton.mp member, value] at range
        exact range
      · have first : (Fin.ofNat 0x10000 (0xD800 + (c.toNat - 0x10000) / 0x400)).val =
            0xD800 + (c.toNat - 0x10000) / 0x400 := Nat.mod_eq_of_lt (by omega)
        have second : (Fin.ofNat 0x10000 (0xDC00 + (c.toNat - 0x10000) % 0x400)).val =
            0xDC00 + (c.toNat - 0x10000) % 0x400 := Nat.mod_eq_of_lt (by omega)
        rcases List.mem_cons.mp member with rfl | member
        · omega
        · rw [List.mem_singleton.mp member] at range
          omega
    exact (List.map_congr_left same).trans (List.map_id _)

theorem map_smallUnit_sign (before : JsString) (unit : CodeUnit) (after : JsString) (sign : IsSign unit) :
    (before ++ unit :: after).map smallUnit = before.map smallUnit ++ unit :: after.map smallUnit := by
  have own : smallUnit unit = unit := by
    rcases sign with rfl | rfl | rfl <;> rfl
  rw [List.map_append, List.map_cons, own]

theorem map_smallUnit_plain (s : JsString) (plain : ∀ unit ∈ s, ¬ IsSign unit) :
    ∀ unit ∈ s.map smallUnit, ¬ IsSign unit := by
  intro unit member
  obtain ⟨other, inside, rfl⟩ := List.mem_map.mp member
  exact mt smallUnit_sign.mp (plain other inside)

theorem map_smallUnit_wellFormed (s : JsString) (wellFormed : IsWellFormed s) : IsWellFormed (s.map smallUnit) := by
  rw [← wellFormed]
  generalize toScalars s = scalars
  induction scalars with
  | nil => rfl
  | cons c rest ih =>
    obtain ⟨d, small⟩ := map_smallUnit c
    have front : IsWellFormed (unitsOfChar d) := by
      have alone := ofScalars_wellFormed [d]
      rwa [ofScalars, List.flatMap_singleton] at alone
    rw [ofScalars, List.flatMap_cons, List.map_append, small]
    exact front.append ih

/-- The folding of ASCII. -/
def asciiFolding : CaseFolding where
  fold := List.map smallUnit
  nil := rfl
  sign := map_smallUnit_sign
  plain := map_smallUnit_plain
  wellFormed := map_smallUnit_wellFormed

/-- Two jobs, one with a wildcard in its name and one that the wildcard would match. -/
def loadStore : SearchStore where
  jobs := ⟨[⟨⟨js "Load 90% of LEDGER", true, none, none, none, 1, none, false, none, none, 0⟩, ⟨js "i1", js "j1"⟩⟩,
    ⟨⟨js "Load 900 rows", true, none, none, none, 1, none, false, none, none, 0⟩, ⟨js "i1", js "j2"⟩⟩], by decide⟩
  instances := ⟨[⟨js "i1", js "w1", js "MSSQLSERVER"⟩], by decide⟩
  workers := ⟨[⟨js "w1", js "sqlprod01"⟩], by decide⟩
  jobVersions := ⟨[⟨⟨1, sampleJob 0 [], [], .local, none, none, 0⟩, ⟨js "i1", js "j1"⟩⟩,
    ⟨⟨1, sampleJob 0 [], [], .local, none, none, 0⟩, ⟨js "i1", js "j2"⟩⟩], by decide⟩
  names := by decide
  commands := by decide

theorem search_contains_load :
    (∀ hit ∈ searchJobs asciiFolding (fun _ _ => 0) loadStore (js "90%") ⟨none, false⟩,
        hit.nameMatched = true ∨ hit.matchingSteps ≠ []) ∧
      (searchJobs asciiFolding (fun _ _ => 0) loadStore (js "90%") ⟨none, false⟩).map (·.jobUuid) = [js "j1"] :=
  ⟨((search_contains asciiFolding (fun _ _ => 0) loadStore (js "90%") ⟨none, false⟩).2 (by decide)).1, by decide⟩

end RemoteSqlAgent
