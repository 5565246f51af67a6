import RemoteSqlAgent.JsJson
import Mathlib.Data.List.Dedup

/-! What a worker may be told to do. A command needs one capability, a site caps
the capabilities of a worker by a named tier, and both ends intersect what is
granted with that ceiling. -/
namespace RemoteSqlAgent
open Js

inductive Capability where
  | observe
  | jobToggle
  | jobRun
  | scheduleWrite
  | jobWrite
  | operatorWrite
  deriving DecidableEq

def Capability.text : Capability → JsString
  | .observe => js "observe"
  | .jobToggle => js "job.toggle"
  | .jobRun => js "job.run"
  | .scheduleWrite => js "schedule.write"
  | .jobWrite => js "job.write"
  | .operatorWrite => js "operator.write"

def CAPABILITIES : List Capability :=
  [.observe, .jobToggle, .jobRun, .scheduleWrite, .jobWrite, .operatorWrite]

/-- A worker that cannot observe is useless. -/
def ALWAYS_GRANTED : List Capability := [.observe]

/-- Named ceilings a site can pin, in order of increasing power. -/
inductive MaxCapabilityTier where
  | readOnly
  | operate
  | schedule
  | full
  deriving DecidableEq

def MAX_CAPABILITY_TIERS : MaxCapabilityTier → List Capability
  | .readOnly => [.observe]
  | .operate => [.observe, .jobToggle, .jobRun]
  | .schedule => [.observe, .jobToggle, .jobRun, .scheduleWrite]
  | .full => [.observe, .jobToggle, .jobRun, .scheduleWrite, .jobWrite, .operatorWrite]

def MaxCapabilityTier.text : MaxCapabilityTier → JsString
  | .readOnly => js "readOnly"
  | .operate => js "operate"
  | .schedule => js "schedule"
  | .full => js "full"

/-- The tier that is declared under a name. -/
def declaredTier (value : JsString) : Option MaxCapabilityTier :=
  [MaxCapabilityTier.readOnly, .operate, .schedule, .full].find? fun tier => tier.text == value

/-- What every object has from `Object.prototype`. -/
def OBJECT_PROTOTYPE : List JsString :=
  [js "constructor", js "hasOwnProperty", js "isPrototypeOf", js "propertyIsEnumerable", js "toLocaleString",
    js "toString", js "valueOf", js "__proto__", js "__defineGetter__", js "__defineSetter__",
    js "__lookupGetter__", js "__lookupSetter__"]

/-- `value in MAX_CAPABILITY_TIERS`, and what is inherited is in it as well. -/
def isMaxCapabilityTier (value : JsString) : Bool :=
  (declaredTier value).isSome || value ∈ OBJECT_PROTOTYPE

/-- The ceiling that a value stands for, of those that are declared. One that is not
is read as the lowest. -/
def ceilingOf (maxCapability : JsString) : MaxCapabilityTier :=
  (declaredTier maxCapability).getD .readOnly

/-- The capability a string names, if `isCapability`. -/
def isCapability (value : JsString) : Option Capability :=
  CAPABILITIES.find? fun capability => capability.text == value

/-- Intersect a grant with a ceiling. A string that names no capability is
dropped. -/
def effectiveCapabilities (serverGrant : List JsString) (ceiling : MaxCapabilityTier) : List Capability :=
  let allowed := MAX_CAPABILITY_TIERS ceiling
  let granted := serverGrant.foldl (fun granted cap =>
    match isCapability cap with
    | some capability => if capability ∈ allowed then granted.insert capability else granted
    | none => granted) ALWAYS_GRANTED
  CAPABILITIES.filter (· ∈ granted)

/-- What the control plane computes for a reported ceiling. One that is no tier is read
as the lowest; what is inherited passes for a tier, and `new Set` throws on it. -/
def capabilitiesUnder (serverGrant : List JsString) (maxCapability : JsString) : Except JsString (List Capability) :=
  let ceiling := if isMaxCapabilityTier maxCapability then maxCapability else MaxCapabilityTier.readOnly.text
  match declaredTier ceiling with
  | some tier => .ok (effectiveCapabilities serverGrant tier)
  | none => .error (js "TypeError")

/-- Command type to the capability required to apply it. -/
def COMMAND_CAPABILITY : List (JsString × Capability) :=
  [(js "toggleJob", .jobToggle), (js "runJob", .jobRun), (js "stopJob", .jobRun),
    (js "upsertJob", .jobWrite), (js "deleteJob", .jobWrite), (js "upsertSchedule", .scheduleWrite),
    (js "deleteSchedule", .scheduleWrite), (js "upsertOperator", .operatorWrite),
    (js "deleteOperator", .operatorWrite), (js "setJobWriteAllowed", .jobWrite)]

theorem Capability.mem_all (capability : Capability) : capability ∈ CAPABILITIES := by
  cases capability <;> decide

theorem isCapability_text (capability : Capability) : isCapability capability.text = some capability := by
  cases capability <;> decide

theorem isCapability_eq_some {value : JsString} {capability : Capability} :
    isCapability value = some capability ↔ value = capability.text := by
  refine ⟨fun found => ?_, fun named => named ▸ isCapability_text capability⟩
  have matched : (capability.text == value) = true :=
    List.find?_some (p := fun capability : Capability => capability.text == value) found
  exact (beq_iff_eq.mp matched).symm

theorem ceilingOf_text (tier : MaxCapabilityTier) : ceilingOf tier.text = tier := by
  cases tier <;> decide

theorem declaredTier_text (tier : MaxCapabilityTier) : declaredTier tier.text = some tier := by
  cases tier <;> decide

theorem declaredTier_eq_some {value : JsString} {tier : MaxCapabilityTier} :
    declaredTier value = some tier ↔ value = tier.text := by
  refine ⟨fun found => ?_, fun named => named ▸ declaredTier_text tier⟩
  have matched : (tier.text == value) = true :=
    List.find?_some (p := fun tier : MaxCapabilityTier => tier.text == value) found
  exact (beq_iff_eq.mp matched).symm

theorem declaredTier_inherited {value : JsString} (inherited : value ∈ OBJECT_PROTOTYPE) : declaredTier value = none := by
  have each : ∀ name ∈ OBJECT_PROTOTYPE, declaredTier name = none := by decide
  exact each value inherited

/-- A ceiling that is not inherited is a tier, or the lowest. -/
theorem capabilitiesUnder_eq {serverGrant : List JsString} {maxCapability : JsString} :
    capabilitiesUnder serverGrant maxCapability =
      if maxCapability ∈ OBJECT_PROTOTYPE then .error (js "TypeError")
      else .ok (effectiveCapabilities serverGrant (ceilingOf maxCapability)) := by
  by_cases inherited : maxCapability ∈ OBJECT_PROTOTYPE
  · simp [capabilitiesUnder, isMaxCapabilityTier, inherited, declaredTier_inherited inherited]
  · cases declared : declaredTier maxCapability with
    | none => simp [capabilitiesUnder, isMaxCapabilityTier, inherited, declared, ceilingOf, declaredTier_text]
    | some tier => simp [capabilitiesUnder, isMaxCapabilityTier, inherited, declared, ceilingOf]

theorem observe_mem_tier (ceiling : MaxCapabilityTier) : .observe ∈ MAX_CAPABILITY_TIERS ceiling := by
  cases ceiling <;> decide

/-- What is in force: observing, and what was granted within the ceiling. -/
theorem mem_effectiveCapabilities {serverGrant : List JsString} {ceiling : MaxCapabilityTier}
    {capability : Capability} : capability ∈ effectiveCapabilities serverGrant ceiling ↔
      capability = .observe ∨ (capability.text ∈ serverGrant ∧ capability ∈ MAX_CAPABILITY_TIERS ceiling) := by
  have gathered : ∀ (grant : List JsString) (start : List Capability),
      capability ∈ grant.foldl (fun granted cap =>
        match isCapability cap with
        | some found => if found ∈ MAX_CAPABILITY_TIERS ceiling then granted.insert found else granted
        | none => granted) start ↔
      capability ∈ start ∨ (capability.text ∈ grant ∧ capability ∈ MAX_CAPABILITY_TIERS ceiling) := by
    intro grant
    induction grant with
    | nil => simp
    | cons cap rest ih =>
      intro start
      rw [List.foldl_cons, ih]
      cases found : isCapability cap with
      | none =>
        have other : capability.text ≠ cap := by
          intro same
          rw [isCapability_eq_some.mpr same.symm] at found
          cases found
        simp only [List.mem_cons, other, false_or]
      | some named =>
        obtain rfl := isCapability_eq_some.mp found
        have texts : capability.text = named.text ↔ capability = named := by
          rw [← isCapability_eq_some, isCapability_text, Option.some.injEq, eq_comm]
        by_cases within : named ∈ MAX_CAPABILITY_TIERS ceiling
        · simp only [within, ↓reduceIte, List.mem_insert_iff, List.mem_cons, texts]
          constructor
          · rintro ((rfl | member) | ⟨member, tier⟩)
            · exact .inr ⟨.inl rfl, within⟩
            · exact .inl member
            · exact .inr ⟨.inr member, tier⟩
          · rintro (member | ⟨rfl | member, tier⟩)
            · exact .inl (.inr member)
            · exact .inl (.inl rfl)
            · exact .inr ⟨member, tier⟩
        · simp only [within, ↓reduceIte, List.mem_cons, texts]
          constructor
          · rintro (member | ⟨member, tier⟩)
            · exact .inl member
            · exact .inr ⟨.inr member, tier⟩
          · rintro (member | ⟨rfl | member, tier⟩)
            · exact .inl member
            · exact absurd tier within
            · exact .inr ⟨member, tier⟩
  simp only [effectiveCapabilities, List.mem_filter, capability.mem_all, decide_eq_true_eq, true_and,
    gathered, ALWAYS_GRANTED, List.mem_singleton]

/-- No grant lifts a worker above its ceiling. -/
theorem effectiveCapabilities_subset (serverGrant : List JsString) (ceiling : MaxCapabilityTier) :
    effectiveCapabilities serverGrant ceiling ⊆ MAX_CAPABILITY_TIERS ceiling := by
  intro capability member
  rcases mem_effectiveCapabilities.mp member with rfl | ⟨-, within⟩
  · exact observe_mem_tier ceiling
  · exact within

/-- Two results with the same members are the same: both are in one order. -/
theorem effectiveCapabilities_ext {serverGrant other : List JsString} {ceiling lower : MaxCapabilityTier}
    (same : ∀ capability, capability ∈ effectiveCapabilities serverGrant ceiling ↔
      capability ∈ effectiveCapabilities other lower) :
    effectiveCapabilities serverGrant ceiling = effectiveCapabilities other lower := by
  have ordered : ∀ (grant : List JsString) (tier : MaxCapabilityTier), effectiveCapabilities grant tier =
      CAPABILITIES.filter (· ∈ effectiveCapabilities grant tier) := by
    intro grant tier
    refine List.filter_congr fun capability member => ?_
    simp only [effectiveCapabilities, List.mem_filter, member, true_and, decide_eq_true_eq]
  refine (ordered serverGrant ceiling).trans (Eq.trans ?_ (ordered other lower).symm)
  exact List.filter_congr fun capability _ => decide_eq_decide.mpr (same capability)

/-- Intersecting what the other end computed gives the same set again. -/
theorem effectiveCapabilities_idempotent (serverGrant : List JsString) (ceiling : MaxCapabilityTier) :
    effectiveCapabilities ((effectiveCapabilities serverGrant ceiling).map Capability.text) ceiling =
      effectiveCapabilities serverGrant ceiling := by
  have texts : ∀ {first second : Capability}, first.text = second.text ↔ first = second := by
    intro first second
    rw [← isCapability_eq_some, isCapability_text, Option.some.injEq, eq_comm]
  apply effectiveCapabilities_ext
  intro capability
  rw [mem_effectiveCapabilities, List.mem_map]
  constructor
  · rintro (rfl | ⟨⟨other, member, same⟩, -⟩)
    · exact mem_effectiveCapabilities.mpr (.inl rfl)
    · exact texts.mp same ▸ member
  · intro member
    exact .inr ⟨⟨capability, member, rfl⟩, effectiveCapabilities_subset _ _ member⟩

end RemoteSqlAgent
