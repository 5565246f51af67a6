import RemoteSqlAgent.JsJson

/-! When two plain values say the same: objects are compared property by
property, whatever the order of their properties and whichever of them are
spelled out as `undefined`. -/
namespace Js

def JsValue.isDefined : JsValue → Bool
  | .undefined => false
  | _ => true

namespace JsValue

@[simp] theorem isDefined_bool (b : Bool) : (bool b).isDefined = true := rfl
@[simp] theorem isDefined_number (n : Int) : (number n).isDefined = true := rfl
@[simp] theorem isDefined_string (s : JsString) : (string s).isDefined = true := rfl
@[simp] theorem isDefined_array (elements : List JsValue) : (array elements).isDefined = true := rfl
@[simp] theorem isDefined_object (fields : List (JsString × JsValue)) :
    (object fields).isDefined = true := rfl

end JsValue

/-- The properties of an object that have a value. -/
def definedFields (fields : List (JsString × JsValue)) : List (JsString × JsValue) :=
  fields.filter (·.2.isDefined)

/-- Data as a program builds it: no object names a property twice, or calls one
`__proto__`. -/
inductive Plain : JsValue → Prop
  | undefined : Plain .undefined
  | null : Plain .null
  | bool (b : Bool) : Plain (.bool b)
  | number (n : Int) : Plain (.number n)
  | string (s : JsString) : Plain (.string s)
  | array {elements : List JsValue} (each : ∀ value ∈ elements, Plain value) : Plain (.array elements)
  | object {fields : List (JsString × JsValue)} (distinct : (fields.map Prod.fst).Nodup)
      (noProto : js "__proto__" ∉ fields.map Prod.fst) (each : ∀ field ∈ fields, Plain field.2) :
      Plain (.object fields)

/-- Equal up to the order of object properties and up to undefined ones. -/
inductive Same : JsValue → JsValue → Prop
  | undefined : Same .undefined .undefined
  | null : Same .null .null
  | bool (b : Bool) : Same (.bool b) (.bool b)
  | number (n : Int) : Same (.number n) (.number n)
  | string (s : JsString) : Same (.string s) (.string s)
  | array {left right : List JsValue} (each : List.Forall₂ Same left right) :
      Same (.array left) (.array right)
  | object {left right : List (JsString × JsValue)}
      (names : ∀ name, name ∈ (definedFields left).map Prod.fst ↔
        name ∈ (definedFields right).map Prod.fst)
      (values : ∀ name v w, (name, v) ∈ definedFields left → (name, w) ∈ definedFields right → Same v w) :
      Same (.object left) (.object right)

section Kinds
variable {a b : JsString} {m n : Int} {p q : Bool} {xs ys : List JsValue}

@[simp] theorem same_string : Same (.string a) (.string b) ↔ a = b :=
  ⟨fun same => by cases same; rfl, fun same => same ▸ .string a⟩

@[simp] theorem same_number : Same (.number m) (.number n) ↔ m = n :=
  ⟨fun same => by cases same; rfl, fun same => same ▸ .number m⟩

@[simp] theorem same_bool : Same (.bool p) (.bool q) ↔ p = q :=
  ⟨fun same => by cases same; rfl, fun same => same ▸ .bool p⟩

@[simp] theorem same_array : Same (.array xs) (.array ys) ↔ List.Forall₂ Same xs ys :=
  ⟨fun same => by cases same; assumption, .array⟩

theorem eq_of_same_string {value : JsValue} (same : Same value (.string a)) : value = .string a := by
  cases same
  rfl

theorem eq_of_same_number {value : JsValue} (same : Same value (.number n)) : value = .number n := by
  cases same
  rfl

theorem eq_of_same_bool {value : JsValue} (same : Same value (.bool p)) : value = .bool p := by
  cases same
  rfl

theorem eq_of_same_array {value : JsValue} (same : Same value (.array ys)) :
    ∃ elements, value = .array elements ∧ List.Forall₂ Same elements ys := by
  cases same with
  | array each => exact ⟨_, rfl, each⟩

theorem eq_of_same_object {value : JsValue} {fields : List (JsString × JsValue)} (same : Same value (.object fields)) :
    ∃ own, value = .object own := by
  cases same
  exact ⟨_, rfl⟩

end Kinds

/-- Every property of one object reads the same from the other. -/
theorem Same.properties {left right : List (JsString × JsValue)} (same : Same (.object left) (.object right))
    (plain : Plain (.object left)) (defined : ∀ field ∈ right, field.2.isDefined = true) :
    ∀ field ∈ right, Same ((property field.1 left).getD .undefined) field.2 := by
  rintro ⟨name, value⟩ member
  cases same with
  | object names values =>
    cases plain with
    | object distinct noProto each =>
      have own : (name, value) ∈ definedFields right := List.mem_filter.mpr ⟨member, defined _ member⟩
      obtain ⟨⟨_, other⟩, there, rfl⟩ := List.mem_map.mp ((names name).mpr (List.mem_map_of_mem own))
      rw [(property_eq_some distinct).mpr (List.mem_of_mem_filter there), Option.getD_some]
      exact values _ other value there own

/-- What is read from a plain object is plain. -/
theorem Plain.property {fields : List (JsString × JsValue)} (plain : Plain (.object fields)) (name : JsString) :
    Plain ((property name fields).getD .undefined) := by
  cases plain with
  | object distinct noProto each =>
    cases found : Js.property name fields with
    | none => exact .undefined
    | some value => exact each _ (property_mem found)

/-- Objects that list the same properties in the same order are the same only if
each property is. -/
theorem Same.values_of_names {left right : List (JsString × JsValue)}
    (same : Same (.object left) (.object right)) (names : left.map Prod.fst = right.map Prod.fst)
    (definedLeft : ∀ field ∈ left, field.2.isDefined = true)
    (definedRight : ∀ field ∈ right, field.2.isDefined = true) :
    List.Forall₂ Same (left.map Prod.snd) (right.map Prod.snd) := by
  cases same with
  | object domains values =>
    rw [definedFields, List.filter_eq_self.mpr definedLeft, definedFields,
      List.filter_eq_self.mpr definedRight] at values
    clear domains definedLeft definedRight
    induction left generalizing right with
    | nil =>
      cases right with
      | nil => exact .nil
      | cons field rest => simp at names
    | cons field rest ih =>
      cases right with
      | nil => simp at names
      | cons other others =>
        simp only [List.map_cons, List.cons.injEq] at names
        refine .cons (values field.1 field.2 other.2 (by simp) ?_) (ih names.2 ?_)
        · rw [names.1]
          simp
        · intro name v w first second
          exact values name v w (List.mem_cons_of_mem _ first) (List.mem_cons_of_mem _ second)

end Js
