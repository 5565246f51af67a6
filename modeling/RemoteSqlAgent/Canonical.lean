import RemoteSqlAgent.JobDefinition
import RemoteSqlAgent.JsArray
import RemoteSqlAgent.JsSame
import RemoteSqlAgent.NormalisedText

/-! Canonical serialisation: text bodies normalised, collections whose order
carries no meaning sorted, object keys sorted at every level. -/
namespace RemoteSqlAgent
open Js

/-! ## Keys -/

mutual
/-- Sort the keys of every object and leave out properties that are undefined.
The one error there is does not tell in which order the keys were converted. -/
def sortKeysDeep : JsValue → Except JsString JsonValue
  | .undefined => .error (js "Unsupported value in canonical serialisation: undefined")
  | .null => .ok .null
  | .bool b => .ok (.bool b)
  | .number n => .ok (.number n)
  | .string s => .ok (.string s)
  | .array elements => do
    let elements ← sortKeysElements elements
    return .array elements
  | .object fields => do
    let fields ← sortKeysFields fields
    return .object (assignAll (sortBy (fun a b => compareDefault a.1 b.1) fields))

def sortKeysElements : List JsValue → Except JsString (List JsonValue)
  | [] => .ok []
  | value :: rest => do
    let value ← sortKeysDeep value
    let rest ← sortKeysElements rest
    return value :: rest

def sortKeysFields : List (JsString × JsValue) → Except JsString (List (JsString × JsonValue))
  | [] => .ok []
  | (_, .undefined) :: rest => sortKeysFields rest
  | (name, value) :: rest => do
    let value ← sortKeysDeep value
    let rest ← sortKeysFields rest
    return (name, value) :: rest
end

/-- Deterministic JSON for any plain value. -/
def canonicalJsonStringify (value : JsValue) : Except JsString JsString := do
  let sorted ← sortKeysDeep value
  return stringify sorted

/-! ## Sorted keys determine the value -/

theorem bind_eq_ok {ε α β : Type} {first : Except ε α} {next : α → Except ε β} {result : β} :
    first >>= next = .ok result ↔ ∃ value, first = .ok value ∧ next value = .ok result := by
  cases first with
  | error message => exact iff_of_false nofun fun ⟨_, absurd, _⟩ => nomatch absurd
  | ok value => exact ⟨fun same => ⟨value, rfl, same⟩, fun ⟨_, rfl, same⟩ => same⟩

private theorem pure_eq_ok {ε α : Type} {value result : α} :
    (pure value : Except ε α) = .ok result ↔ value = result :=
  ⟨Except.ok.inj, congrArg _⟩

theorem sortKeysElements_ok {elements : List JsValue} {sorted : List JsonValue} :
    sortKeysElements elements = .ok sorted ↔
      List.Forall₂ (fun value json => sortKeysDeep value = .ok json) elements sorted := by
  induction elements generalizing sorted with
  | nil =>
    rw [sortKeysElements, Except.ok.injEq, List.forall₂_nil_left_iff, eq_comm]
  | cons value rest ih =>
    simp only [sortKeysElements, bind_eq_ok, pure_eq_ok, ih, List.forall₂_cons_left_iff]
    constructor
    · rintro ⟨json, head, jsons, tail, rfl⟩
      exact ⟨json, jsons, head, tail, rfl⟩
    · rintro ⟨json, jsons, head, tail, rfl⟩
      exact ⟨json, head, jsons, tail, rfl⟩

/-- The fields that come out are the defined fields that went in. -/
theorem sortKeysFields_ok {fields : List (JsString × JsValue)} {sorted : List (JsString × JsonValue)} :
    sortKeysFields fields = .ok sorted ↔ List.Forall₂
      (fun field json => field.1 = json.1 ∧ sortKeysDeep field.2 = .ok json.2)
      (definedFields fields) sorted := by
  induction fields generalizing sorted with
  | nil =>
    rw [sortKeysFields, Except.ok.injEq, definedFields, List.filter_nil, List.forall₂_nil_left_iff, eq_comm]
  | cons field rest ih =>
    obtain ⟨name, value⟩ := field
    by_cases defined : value.isDefined = true
    · have step : sortKeysFields ((name, value) :: rest) = (do
          let value ← sortKeysDeep value
          let rest ← sortKeysFields rest
          return (name, value) :: rest) := by
        cases value <;> first | rfl | cases defined
      simp only [step, bind_eq_ok, pure_eq_ok, ih, definedFields, List.filter_cons, defined, ↓reduceIte,
        List.forall₂_cons_left_iff]
      constructor
      · rintro ⟨json, head, jsons, tail, rfl⟩
        exact ⟨(name, json), jsons, ⟨rfl, head⟩, tail, rfl⟩
      · rintro ⟨⟨_, json⟩, jsons, ⟨rfl, head⟩, tail, rfl⟩
        exact ⟨json, head, jsons, tail, rfl⟩
    · have gone : value = .undefined := by cases value <;> first | rfl | exact absurd rfl defined
      subst gone
      exact ih

theorem forall₂_partner {α β : Type} {R : α → β → Prop} {left : List α} {right : List β}
    (related : List.Forall₂ R left right) :
    (∀ a ∈ left, ∃ b ∈ right, R a b) ∧ ∀ b ∈ right, ∃ a ∈ left, R a b := by
  induction related with
  | nil => simp
  | cons head _ ih =>
    simp only [List.forall_mem_cons, List.exists_mem_cons_iff]
    exact ⟨⟨.inl head, fun a member => .inr (ih.1 a member)⟩,
      ⟨.inl head, fun b member => .inr (ih.2 b member)⟩⟩

/-- What the properties of a sorted object are. -/
theorem sortKeysDeep_object {fields : List (JsString × JsValue)} {json : JsonValue}
    (ran : sortKeysDeep (.object fields) = .ok json) :
    ∃ sorted, json = .object sorted ∧
      (∀ name value, (name, value) ∈ sorted → name ≠ js "__proto__" ∧
        ∃ original, (name, original) ∈ definedFields fields ∧ sortKeysDeep original = .ok value) ∧
      ∀ name original, (name, original) ∈ definedFields fields → name ≠ js "__proto__" →
        ∃ value, (name, value) ∈ sorted ∧ sortKeysDeep original = .ok value := by
  rw [sortKeysDeep, bind_eq_ok] at ran
  obtain ⟨converted, ran, same⟩ := ran
  obtain ⟨forward, backward⟩ := forall₂_partner (sortKeysFields_ok.mp ran)
  refine ⟨_, (pure_eq_ok.mp same).symm, fun name value member => ?_, fun name original member own => ?_⟩
  · obtain ⟨member, own⟩ := mem_assignAll.mp member
    obtain ⟨⟨_, original⟩, there, rfl, from_⟩ := backward _ (mem_sortBy.mp member)
    exact ⟨own, original, there, from_⟩
  · obtain ⟨⟨_, value⟩, there, rfl, becomes⟩ := forward _ member
    exact ⟨value, mem_assignAll.mpr ⟨mem_sortBy.mpr there, own⟩, becomes⟩

theorem sortKeysDeep_array {elements : List JsValue} {json : JsonValue}
    (ran : sortKeysDeep (.array elements) = .ok json) :
    ∃ sorted, json = .array sorted ∧
      List.Forall₂ (fun value json => sortKeysDeep value = .ok json) elements sorted := by
  rw [sortKeysDeep, bind_eq_ok] at ran
  obtain ⟨sorted, ran, same⟩ := ran
  exact ⟨sorted, (pure_eq_ok.mp same).symm, sortKeysElements_ok.mp ran⟩

/-- Sorting the keys of a value does not throw. -/
def Sorts (value : JsValue) : Prop := ∃ json, sortKeysDeep value = .ok json

private theorem forall₂_of_exists {α β : Type} {R : α → β → Prop} {left : List α}
    (each : ∀ a ∈ left, ∃ b, R a b) : ∃ right, List.Forall₂ R left right := by
  induction left with
  | nil => exact ⟨[], .nil⟩
  | cons a rest ih =>
    obtain ⟨b, related⟩ := each a List.mem_cons_self
    obtain ⟨right, others⟩ := ih fun a member => each a (List.mem_cons_of_mem _ member)
    exact ⟨b :: right, .cons related others⟩

theorem sorts_array {elements : List JsValue} (each : ∀ value ∈ elements, Sorts value) :
    Sorts (.array elements) := by
  obtain ⟨sorted, ran⟩ := forall₂_of_exists each
  exact ⟨.array sorted, by rw [sortKeysDeep, sortKeysElements_ok.mpr ran]; rfl⟩

theorem sorts_object {fields : List (JsString × JsValue)}
    (each : ∀ field ∈ fields, field.2.isDefined = true → Sorts field.2) : Sorts (.object fields) := by
  have converts : ∀ field ∈ definedFields fields, ∃ json : JsString × JsonValue,
      field.1 = json.1 ∧ sortKeysDeep field.2 = .ok json.2 := by
    intro field member
    obtain ⟨there, defined⟩ := List.mem_filter.mp member
    obtain ⟨json, ran⟩ := each field there defined
    exact ⟨(field.1, json), rfl, ran⟩
  obtain ⟨sorted, ran⟩ := forall₂_of_exists converts
  exact ⟨_, by rw [sortKeysDeep, sortKeysFields_ok.mpr ran]; rfl⟩

/-- Sorting keys never turns a value into one of another kind. -/
private theorem sortKeysDeep_kind {value : JsValue} {json : JsonValue}
    (ran : sortKeysDeep value = .ok json) :
    match json with
    | .null => value = .null
    | .bool b => value = .bool b
    | .number n => value = .number n
    | .string s => value = .string s
    | .array _ => ∃ elements, value = .array elements
    | .object _ => ∃ fields, value = .object fields := by
  cases value with
  | array elements =>
    obtain ⟨sorted, rfl, -⟩ := sortKeysDeep_array ran
    exact ⟨elements, rfl⟩
  | object fields =>
    obtain ⟨sorted, rfl, -⟩ := sortKeysDeep_object ran
    exact ⟨fields, rfl⟩
  | _ => cases ran <;> rfl

private theorem forall₂_of_common {α β γ : Type} {R : α → γ → Prop} {S : β → γ → Prop} {T : α → β → Prop}
    {left : List α} {right : List β} {middle : List γ} (first : List.Forall₂ R left middle)
    (second : List.Forall₂ S right middle)
    (joins : ∀ a ∈ left, ∀ b ∈ right, ∀ c, R a c → S b c → T a b) : List.Forall₂ T left right := by
  induction first generalizing right with
  | nil =>
    cases second
    exact .nil
  | cons related _ ih =>
    cases second with
    | cons other others =>
      refine .cons (joins _ List.mem_cons_self _ List.mem_cons_self _ related other) (ih others ?_)
      exact fun a memberA b memberB =>
        joins a (List.mem_cons_of_mem _ memberA) b (List.mem_cons_of_mem _ memberB)

theorem eq_of_distinct {fields : List (JsString × JsValue)}
    (distinct : (fields.map Prod.fst).Nodup) {name : JsString} {v w : JsValue}
    (left : (name, v) ∈ definedFields fields) (right : (name, w) ∈ definedFields fields) : v = w := by
  have same := List.inj_on_of_nodup_map distinct (List.mem_of_mem_filter left)
    (List.mem_of_mem_filter right) rfl
  exact congrArg Prod.snd same

/-- **Sorting keys conflates nothing else.** Plain values with one sorted form
are the same up to property order and undefined properties. -/
theorem same_of_sortKeysDeep {v w : JsValue} {json : JsonValue} (plainV : Plain v) (plainW : Plain w)
    (left : sortKeysDeep v = .ok json) (right : sortKeysDeep w = .ok json) : Same v w := by
  induction plainV generalizing w json with
  | undefined => cases left
  | null =>
    cases left
    rw [sortKeysDeep_kind right]
    exact .null
  | bool b =>
    cases left
    rw [sortKeysDeep_kind right]
    exact .bool b
  | number n =>
    cases left
    rw [sortKeysDeep_kind right]
    exact .number n
  | string s =>
    cases left
    rw [sortKeysDeep_kind right]
    exact .string s
  | @array elements each ih =>
    obtain ⟨sorted, rfl, leftEach⟩ := sortKeysDeep_array left
    obtain ⟨others, rfl⟩ := sortKeysDeep_kind right
    obtain ⟨_, same, rightEach⟩ := sortKeysDeep_array right
    cases same
    cases plainW with
    | array eachOther =>
      refine .array (forall₂_of_common leftEach rightEach fun a memberA b memberB c first second => ?_)
      exact ih a memberA (eachOther b memberB) first second
  | @object fields distinct noProto each ih =>
    obtain ⟨sorted, rfl, leftFrom, leftInto⟩ := sortKeysDeep_object left
    obtain ⟨others, rfl⟩ := sortKeysDeep_kind right
    obtain ⟨_, same, rightFrom, rightInto⟩ := sortKeysDeep_object right
    cases same
    cases plainW with
    | object distinctOther noProtoOther eachOther =>
      have own : ∀ {name value}, (name, value) ∈ definedFields fields → name ≠ js "__proto__" :=
        fun member proto => noProto (proto ▸ List.mem_map_of_mem (List.mem_of_mem_filter member))
      have ownOther : ∀ {name value}, (name, value) ∈ definedFields others → name ≠ js "__proto__" :=
        fun member proto => noProtoOther (proto ▸ List.mem_map_of_mem (List.mem_of_mem_filter member))
      refine .object (fun name => ?_) fun name first second firstMember secondMember => ?_
      · simp only [List.mem_map, Prod.exists, exists_and_right, exists_eq_right]
        constructor
        · rintro ⟨value, member⟩
          obtain ⟨json, there, -⟩ := leftInto name value member (own member)
          obtain ⟨-, original, from_, -⟩ := rightFrom name json there
          exact ⟨original, from_⟩
        · rintro ⟨value, member⟩
          obtain ⟨json, there, -⟩ := rightInto name value member (ownOther member)
          obtain ⟨-, original, from_, -⟩ := leftFrom name json there
          exact ⟨original, from_⟩
      · -- Both values came out under this name, and a name comes in only once.
        obtain ⟨json, there, becomes⟩ := leftInto name first firstMember (own firstMember)
        obtain ⟨-, original, from_, same⟩ := rightFrom name json there
        obtain rfl := eq_of_distinct distinctOther from_ secondMember
        exact ih (name, first) (List.mem_of_mem_filter firstMember)
          (eachOther (name, original) (List.mem_of_mem_filter from_)) becomes same

theorem canonicalJsonStringify_eq_ok {value : JsValue} {text : JsString} :
    canonicalJsonStringify value = .ok text ↔
      ∃ json, sortKeysDeep value = .ok json ∧ stringify json = text := by
  simp only [canonicalJsonStringify, bind_eq_ok, pure_eq_ok]

/-- Two plain values have one canonical text only if they are the same. -/
theorem same_of_canonicalJsonStringify {v w : JsValue} {text : JsString} (plainV : Plain v)
    (plainW : Plain w) (left : canonicalJsonStringify v = .ok text)
    (right : canonicalJsonStringify w = .ok text) : Same v w := by
  obtain ⟨json, ranLeft, spelled⟩ := canonicalJsonStringify_eq_ok.mp left
  obtain ⟨other, ranRight, same⟩ := canonicalJsonStringify_eq_ok.mp right
  rw [← spelled, stringify_injective.eq_iff] at same
  subst same
  exact same_of_sortKeysDeep plainV plainW ranLeft ranRight

/-! ## Jobs -/

/-- The order of schedules: by name, then by the whole schedule. -/
def compareSchedules (a b : ScheduleDefinition) : Int :=
  if a.name ≠ b.name then if a.name < b.name then -1 else 1
  else
    match canonicalJsonStringify a.toValue, canonicalJsonStringify b.toValue with
    | .ok left, .ok right => compareDefault left right
    -- Not taken: every property of a schedule is defined.
    | _, _ => 0

def normaliseJobDefinition (job : JobDefinition) : JobDefinition := { job with
  description := job.description.map normaliseText
  steps := (sortBy (fun a b : JobStep => a.stepId - b.stepId) job.steps).map fun s =>
    { s with command := normaliseText s.command }
  schedules := sortBy compareSchedules job.schedules
  targetServers := sortBy compareDefault job.targetServers }

inductive CanonicaliseError where
  /-- The schema does not admit the value. -/
  | invalid
  | unsupported (message : JsString)

/-- Validate, normalise and serialise a job definition. -/
def canonicaliseJob (job : JsValue) : Except CanonicaliseError JsString :=
  match jobDefinitionSchema job with
  | none => .error .invalid
  | some parsed =>
    match canonicalJsonStringify (normaliseJobDefinition parsed).toValue with
    | .error message => .error (.unsupported message)
    | .ok text => .ok text

end RemoteSqlAgent
