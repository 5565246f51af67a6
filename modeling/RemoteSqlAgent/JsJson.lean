import RemoteSqlAgent.JsText
import Mathlib.Data.List.Sort

/-! Plain JavaScript data, and `JSON.stringify` on the part of it that JSON can
carry. Numbers are integers: the data modelled here holds no others. -/
namespace Js

/-- A plain value of static type `unknown`. The fields of an object are its own
enumerable string-keyed properties in property order. -/
inductive JsValue where
  | undefined
  | null
  | bool (value : Bool)
  | number (value : Int)
  | string (value : JsString)
  | array (elements : List JsValue)
  | object (fields : List (JsString × JsValue))

/-- `JsonValue`: the values JSON can carry. -/
inductive JsonValue where
  | null
  | bool (value : Bool)
  | number (value : Int)
  | string (value : JsString)
  | array (elements : List JsonValue)
  | object (fields : List (JsString × JsonValue))

/-- The value of an object's property, if it has one of that name. -/
def property {α : Type} (name : JsString) (fields : List (JsString × α)) : Option α :=
  (fields.find? (·.1 == name)).map (·.2)

theorem property_mem {α : Type} {name : JsString} {value : α} {fields : List (JsString × α)}
    (found : property name fields = some value) : (name, value) ∈ fields := by
  obtain ⟨field, located, rfl⟩ := Option.map_eq_some_iff.mp found
  have named : field.1 = name := by simpa using List.find?_some located
  exact named ▸ List.mem_of_find?_eq_some located

/-- Where property names are distinct, an object has exactly the properties
listed. -/
theorem property_eq_some {α : Type} {name : JsString} {value : α} {fields : List (JsString × α)}
    (distinct : (fields.map Prod.fst).Nodup) :
    property name fields = some value ↔ (name, value) ∈ fields := by
  refine ⟨property_mem, fun member => ?_⟩
  induction fields with
  | nil => cases member
  | cons field rest ih =>
    obtain ⟨fresh, distinctRest⟩ := List.nodup_cons.mp distinct
    rcases List.mem_cons.mp member with rfl | member
    · simp [property]
    · have other : (field.1 == name) = false := by
        simp only [beq_eq_false_iff_ne, ne_eq]
        intro same
        exact fresh (List.mem_map.mpr ⟨_, member, same.symm⟩)
      have below := ih distinctRest member
      simpa only [property, List.find?_cons, other] using below

/-! ## Building an object by assignment -/

/-- The array index a property name spells, if it spells one. -/
def arrayIndex (name : JsString) : Option Nat :=
  let value := name.foldl (fun sum unit => sum * 10 + (unit.val - 0x30)) 0
  if digits value = name ∧ value < 2 ^ 32 - 1 then some value else none

/-- The order in which an object lists its own properties: array indices in
ascending order, then the other names as they were created. -/
def propertyOrder {α : Type} (fields : List (JsString × α)) : List (JsString × α) :=
  (fields.filter fun field => (arrayIndex field.1).isSome).insertionSort
      (fun a b => (arrayIndex a.1).getD 0 ≤ (arrayIndex b.1).getD 0) ++
    fields.filter fun field => (arrayIndex field.1).isNone

/-- The own properties of `{}` after `out[name] = value` for each field. An
assignment to `__proto__` runs the inherited setter and creates no property. -/
def assignAll {α : Type} (fields : List (JsString × α)) : List (JsString × α) :=
  propertyOrder (fields.filter fun field => field.1 ≠ js "__proto__")

theorem mem_assignAll {α : Type} {field : JsString × α} {fields : List (JsString × α)} :
    field ∈ assignAll fields ↔ field ∈ fields ∧ field.1 ≠ js "__proto__" := by
  simp only [assignAll, propertyOrder, List.mem_append, List.mem_insertionSort, List.mem_filter,
    decide_eq_true_eq]
  cases arrayIndex field.1 <;> simp

/-! ## `JSON.stringify` -/

/-- The digit of a `\u` escape. -/
def hexDigit (n : Nat) : CodeUnit := Fin.ofNat _ (if n < 10 then 0x30 + n else 0x57 + n)

def unicodeEscape (unit : CodeUnit) : JsString :=
  js "\\u" ++ [hexDigit (unit.val / 0x1000), hexDigit (unit.val / 0x100 % 0x10),
    hexDigit (unit.val / 0x10 % 0x10), hexDigit (unit.val % 0x10)]

/-- One code unit inside a JSON string, when it is not half of a pair. -/
def escapeUnit (unit : CodeUnit) : JsString :=
  if unit = 0x08 then js "\\b"
  else if unit = 0x09 then js "\\t"
  else if unit = 0x0A then js "\\n"
  else if unit = 0x0C then js "\\f"
  else if unit = 0x0D then js "\\r"
  else if unit = 0x22 then js "\\\""
  else if unit = 0x5C then js "\\\\"
  else if unit < 0x20 || isHighSurrogate unit || isLowSurrogate unit then unicodeEscape unit
  else [unit]

def escapeUnits : JsString → JsString
  | [] => []
  | [unit] => escapeUnit unit
  | first :: second :: rest =>
    if isHighSurrogate first && isLowSurrogate second then first :: second :: escapeUnits rest
    else escapeUnit first ++ escapeUnits (second :: rest)

def quote (s : JsString) : JsString := js "\"" ++ escapeUnits s ++ js "\""

mutual
/-- `JSON.stringify(value)`, without indentation. -/
def stringify : JsonValue → JsString
  | .null => js "null"
  | .bool true => js "true"
  | .bool false => js "false"
  | .number n => decimal n
  | .string s => quote s
  | .array [] => js "[]"
  | .array (value :: rest) => js "[" ++ stringify value ++ stringifyElements rest
  | .object [] => js "\x7b\x7d"
  | .object ((name, value) :: rest) =>
    js "\x7b" ++ quote name ++ js ":" ++ stringify value ++ stringifyFields rest

def stringifyElements : List JsonValue → JsString
  | [] => js "]"
  | value :: rest => js "," ++ stringify value ++ stringifyElements rest

def stringifyFields : List (JsString × JsonValue) → JsString
  | [] => js "\x7d"
  | (name, value) :: rest =>
    js "," ++ quote name ++ js ":" ++ stringify value ++ stringifyFields rest
end

/-! ## A JSON text is well formed -/

private theorem hexDigit_wellFormed {n : Nat} (small : n < 0x10) : IsWellFormed [hexDigit n] := by
  have ascii : ∀ digit < 0x10, isHighSurrogate (hexDigit digit) = false ∧
      isLowSurrogate (hexDigit digit) = false := by decide
  exact wellFormed_unit (ascii n small).1 (ascii n small).2

private theorem unicodeEscape_wellFormed (unit : CodeUnit) : IsWellFormed (unicodeEscape unit) := by
  have bound := unit.isLt
  have first := hexDigit_wellFormed (n := unit.val / 0x1000) (by omega)
  have second := hexDigit_wellFormed (n := unit.val / 0x100 % 0x10) (by omega)
  have third := hexDigit_wellFormed (n := unit.val / 0x10 % 0x10) (by omega)
  have fourth := hexDigit_wellFormed (n := unit.val % 0x10) (by omega)
  exact (js_wellFormed _).append (first.append (second.append (third.append fourth)))

/-- A lone surrogate is escaped, so it never reaches the text. -/
private theorem escapeUnit_wellFormed (unit : CodeUnit) : IsWellFormed (escapeUnit unit) := by
  unfold escapeUnit
  iterate 7
    split
    · exact js_wellFormed _
  split
  · exact unicodeEscape_wellFormed unit
  · rename_i plain
    simp only [Bool.or_eq_true, not_or, Bool.not_eq_true] at plain
    exact wellFormed_unit plain.1.2 plain.2

private theorem escapeUnits_wellFormed (s : JsString) : IsWellFormed (escapeUnits s) := by
  fun_induction escapeUnits s with
  | case1 => exact js_wellFormed ""
  | case2 unit => exact escapeUnit_wellFormed unit
  | case3 first second rest paired ih => exact (wellFormed_pair paired).append ih
  | case4 first second rest lone ih => exact (escapeUnit_wellFormed first).append ih

private theorem quote_wellFormed (s : JsString) : IsWellFormed (quote s) :=
  ((js_wellFormed _).append (escapeUnits_wellFormed s)).append (js_wellFormed _)

mutual
/-- `JSON.stringify` gives a well-formed string, whatever the strings inside. -/
theorem stringify_wellFormed : ∀ value : JsonValue, IsWellFormed (stringify value)
  | .null => js_wellFormed _
  | .bool true => js_wellFormed _
  | .bool false => js_wellFormed _
  | .number n => decimal_wellFormed n
  | .string s => quote_wellFormed s
  | .array [] => js_wellFormed _
  | .array (value :: rest) =>
    ((js_wellFormed _).append (stringify_wellFormed value)).append (stringifyElements_wellFormed rest)
  | .object [] => js_wellFormed _
  | .object ((name, value) :: rest) =>
    ((((js_wellFormed _).append (quote_wellFormed name)).append (js_wellFormed _)).append
      (stringify_wellFormed value)).append (stringifyFields_wellFormed rest)

theorem stringifyElements_wellFormed : ∀ elements, IsWellFormed (stringifyElements elements)
  | [] => js_wellFormed _
  | value :: rest =>
    ((js_wellFormed _).append (stringify_wellFormed value)).append (stringifyElements_wellFormed rest)

theorem stringifyFields_wellFormed : ∀ fields, IsWellFormed (stringifyFields fields)
  | [] => js_wellFormed _
  | (name, value) :: rest =>
    ((((js_wellFormed _).append (quote_wellFormed name)).append (js_wellFormed _)).append
      (stringify_wellFormed value)).append (stringifyFields_wellFormed rest)
end

/-! ## A JSON text determines its value -/

def hexValue (unit : CodeUnit) : Option Nat :=
  if 0x30 ≤ unit.val && unit.val ≤ 0x39 then some (unit.val - 0x30)
  else if 0x61 ≤ unit.val && unit.val ≤ 0x66 then some (unit.val - 0x57)
  else if 0x41 ≤ unit.val && unit.val ≤ 0x46 then some (unit.val - 0x37)
  else none

/-- The unit a one-letter escape stands for. -/
def escapeLetter (letter : CodeUnit) : Option CodeUnit :=
  if letter = 0x22 then some 0x22
  else if letter = 0x5C then some 0x5C
  else if letter = 0x2F then some 0x2F
  else if letter = 0x62 then some 0x08
  else if letter = 0x66 then some 0x0C
  else if letter = 0x6E then some 0x0A
  else if letter = 0x72 then some 0x0D
  else if letter = 0x74 then some 0x09
  else none

/-- The rest of a JSON string up to its closing quote, and what follows it. -/
def readString : JsString → Option (JsString × JsString)
  | [] => none
  | unit :: rest =>
    if unit = 0x22 then some ([], rest)
    else if unit = 0x5C then
      match rest with
      | 0x75 :: a :: b :: c :: d :: rest => do
        let high ← hexValue a
        let upper ← hexValue b
        let lower ← hexValue c
        let low ← hexValue d
        let (text, after) ← readString rest
        return (Fin.ofNat _ (high * 0x1000 + upper * 0x100 + lower * 0x10 + low) :: text, after)
      | letter :: rest => do
        let unit ← escapeLetter letter
        let (text, after) ← readString rest
        return (unit :: text, after)
      | [] => none
    else if unit < 0x20 then none
    else do
      let (text, after) ← readString rest
      return (unit :: text, after)

theorem hexValue_hexDigit {n : Nat} (small : n < 16) : hexValue (hexDigit n) = some n := by
  have all : ∀ digit < 16, hexValue (hexDigit digit) = some digit := by decide
  exact all n small

private theorem hex_digits_value (n : Nat) :
    n / 0x1000 * 0x1000 + n / 0x100 % 0x10 * 0x100 + n / 0x10 % 0x10 * 0x10 + n % 0x10 = n := by
  omega

private theorem readString_unicodeEscape (unit : CodeUnit) (after : JsString) :
    readString (unicodeEscape unit ++ after) =
      (readString after).map fun found => (unit :: found.1, found.2) := by
  have bound : unit.val < 0x10000 := unit.isLt
  have spelled : unicodeEscape unit ++ after = 0x5C :: 0x75 :: hexDigit (unit.val / 0x1000) ::
      hexDigit (unit.val / 0x100 % 0x10) :: hexDigit (unit.val / 0x10 % 0x10) ::
      hexDigit (unit.val % 0x10) :: after := rfl
  have value : Fin.ofNat 0x10000 (unit.val / 0x1000 * 0x1000 + unit.val / 0x100 % 0x10 * 0x100 +
      unit.val / 0x10 % 0x10 * 0x10 + unit.val % 0x10) = unit := by
    rw [hex_digits_value]
    exact Fin.ofNat_val_eq_self unit
  rw [spelled, readString]
  simp only [show (0x5C : CodeUnit) ≠ 0x22 by decide, ↓reduceIte,
    hexValue_hexDigit (show unit.val / 0x1000 < 16 by omega),
    hexValue_hexDigit (show unit.val / 0x100 % 0x10 < 16 by omega),
    hexValue_hexDigit (show unit.val / 0x10 % 0x10 < 16 by omega),
    hexValue_hexDigit (show unit.val % 0x10 < 16 by omega), Option.bind_eq_bind, Option.bind_some,
    value]
  cases readString after <;> rfl

private theorem readString_letter (letter : CodeUnit) {unit : CodeUnit} (stands : escapeLetter letter = some unit)
    (short : letter ≠ 0x75) (after : JsString) :
    readString (0x5C :: letter :: after) =
      (readString after).map fun found => (unit :: found.1, found.2) := by
  rw [readString]
  · simp only [show (0x5C : CodeUnit) ≠ 0x22 by decide, ↓reduceIte, stands, Option.bind_eq_bind,
      Option.bind_some]
    cases readString after <;> rfl
  · intro a b c d rest same
    exact absurd same short

private theorem readString_plain {unit : CodeUnit} (noQuote : unit ≠ 0x22) (noEscape : unit ≠ 0x5C)
    (printable : ¬ unit < 0x20) (after : JsString) :
    readString (unit :: after) = (readString after).map fun found => (unit :: found.1, found.2) := by
  rw [readString.eq_def]
  simp only [noQuote, noEscape, printable, ↓reduceIte]
  cases readString after <;> rfl

/-- Reading an escaped unit gives the unit, whichever escape spelled it. -/
private theorem readString_escapeUnit (unit : CodeUnit) (after : JsString) :
    readString (escapeUnit unit ++ after) =
      (readString after).map fun found => (unit :: found.1, found.2) := by
  unfold escapeUnit
  split
  · exact readString_letter 0x62 (by subst unit; rfl) (by decide) after
  split
  · exact readString_letter 0x74 (by subst unit; rfl) (by decide) after
  split
  · exact readString_letter 0x6E (by subst unit; rfl) (by decide) after
  split
  · exact readString_letter 0x66 (by subst unit; rfl) (by decide) after
  split
  · exact readString_letter 0x72 (by subst unit; rfl) (by decide) after
  split
  · exact readString_letter 0x22 (by subst unit; rfl) (by decide) after
  split
  · exact readString_letter 0x5C (by subst unit; rfl) (by decide) after
  split
  · exact readString_unicodeEscape unit after
  · rename_i noQuote noEscape plain
    simp only [Bool.or_eq_true, decide_eq_true_eq, not_or] at plain
    exact readString_plain noQuote noEscape plain.1.1 after

/-- The halves of a surrogate pair stand in a JSON string as they are. -/
private theorem readString_pair {first second : CodeUnit}
    (paired : (isHighSurrogate first && isLowSurrogate second) = true) (after : JsString) :
    readString (first :: second :: after) =
      (readString after).map fun found => (first :: second :: found.1, found.2) := by
  simp only [isHighSurrogate, isLowSurrogate, Bool.and_eq_true, decide_eq_true_eq] at paired
  obtain ⟨⟨firstLow, -⟩, secondLow, -⟩ := paired
  have plain : ∀ {unit : CodeUnit}, 0xD800 ≤ unit.val →
      unit ≠ 0x22 ∧ unit ≠ 0x5C ∧ ¬ unit < 0x20 := by
    intro unit large
    refine ⟨?_, ?_, ?_⟩
    · rintro rfl; exact absurd large (by decide)
    · rintro rfl; exact absurd large (by decide)
    · intro small
      have : unit.val < 0x20 := small
      omega
  obtain ⟨noQuote, noEscape, printable⟩ := plain firstLow
  rw [readString_plain noQuote noEscape printable]
  obtain ⟨noQuote, noEscape, printable⟩ := plain (show 0xD800 ≤ second.val by omega)
  rw [readString_plain noQuote noEscape printable]
  cases readString after <;> rfl

/-- A string is read back from its quoted form, up to the closing quote. -/
theorem readString_escapeUnits (s after : JsString) :
    readString (escapeUnits s ++ js "\"" ++ after) = some (s, after) := by
  have closing : readString (js "\"" ++ after) = some ([], after) := by
    change readString (0x22 :: after) = some ([], after)
    rw [readString.eq_def]
    rfl
  fun_induction escapeUnits s with
  | case1 => exact closing
  | case2 unit =>
    rw [List.append_assoc, readString_escapeUnit, closing]
    rfl
  | case3 first second rest paired ih =>
    simp only [List.cons_append]
    rw [readString_pair paired, ih]
    rfl
  | case4 first second rest lone ih =>
    rw [List.append_assoc, List.append_assoc, readString_escapeUnit, ← List.append_assoc, ih]
    rfl

/-- A quoted string ends where its closing quote is, so two quoted strings
followed by anything agree only if the strings and what follows do. -/
theorem quote_append_inj {s t r r' : JsString} (same : quote s ++ r = quote t ++ r') :
    s = t ∧ r = r' := by
  simp only [quote, List.append_assoc] at same
  have opened : escapeUnits s ++ js "\"" ++ r = escapeUnits t ++ js "\"" ++ r' := by
    simpa only [List.append_assoc] using List.append_cancel_left same
  have read := congrArg readString opened
  rw [readString_escapeUnits, readString_escapeUnits] at read
  simpa using read

/-- What may follow a complete value: nothing that continues a numeral. -/
def Delimited (after : JsString) : Prop := ∀ unit ∈ after.head?, isDigit unit = false

/-- A numeral ends where its digits do. -/
theorem takeWhile_digits (n : Nat) {after : JsString} (delimited : Delimited after) :
    (digits n ++ after).takeWhile isDigit = digits n := by
  rw [List.takeWhile_append_of_pos (fun unit member => digits_are_digits member)]
  cases after with
  | nil => simp
  | cons unit rest => simp [delimited unit (by simp)]

private theorem digits_append_inj {m n : Nat} {r r' : JsString} (left : Delimited r)
    (right : Delimited r') (same : digits m ++ r = digits n ++ r') : m = n ∧ r = r' := by
  have numerals : digits m = digits n := by rw [← takeWhile_digits m left, ← takeWhile_digits n right, same]
  rw [numerals] at same
  exact ⟨digits_injective numerals, List.append_cancel_left same⟩

/-- Which kind of value a text starting with this unit denotes. -/
private def leadKind (unit : CodeUnit) : Nat :=
  if unit = 0x6E then 0 else if unit = 0x74 then 1 else if unit = 0x66 then 2
  else if unit = 0x2D then 3 else if isDigit unit then 4 else if unit = 0x22 then 5
  else if unit = 0x5B then 6 else if unit = 0x7B then 7 else 8

private def valueKind : JsonValue → Nat
  | .null => 0
  | .bool true => 1
  | .bool false => 2
  | .number n => if n < 0 then 3 else 4
  | .string _ => 5
  | .array _ => 6
  | .object _ => 7

private theorem digits_lead (n : Nat) :
    ∃ unit rest, digits n = unit :: rest ∧ leadKind unit = 4 := by
  cases spelled : digits n with
  | nil => exact absurd spelled (digits_ne_nil n)
  | cons unit rest =>
    have digit : isDigit unit = true := digits_are_digits (n := n) (by rw [spelled]; simp)
    have all : ∀ value, 0x30 ≤ value → value ≤ 0x39 → leadKind (Fin.ofNat _ value) = 4 := by
      intro value low high
      have small : value < 0x3A := by omega
      revert value
      decide
    have bounds := digit
    simp only [isDigit, Bool.and_eq_true, decide_eq_true_eq] at bounds
    refine ⟨unit, rest, rfl, ?_⟩
    simpa using all unit.val bounds.1 bounds.2

/-- The first unit of a text tells the kind of its value. -/
private theorem stringify_lead (value : JsonValue) :
    ∃ unit rest, stringify value = unit :: rest ∧ leadKind unit = valueKind value := by
  cases value with
  | null => exact ⟨_, _, rfl, rfl⟩
  | bool value => cases value <;> exact ⟨_, _, rfl, rfl⟩
  | number n =>
    by_cases negative : n < 0
    · refine ⟨0x2D, digits n.natAbs, ?_, ?_⟩
      · simp only [stringify, decimal, negative, ↓reduceIte]
        rfl
      · simp only [valueKind, negative, ↓reduceIte]
        rfl
    · obtain ⟨unit, rest, spelled, kind⟩ := digits_lead n.natAbs
      refine ⟨unit, rest, ?_, ?_⟩
      · simpa only [stringify, decimal, negative, ↓reduceIte] using spelled
      · simpa only [valueKind, negative, ↓reduceIte] using kind
  | string s => exact ⟨_, _, rfl, rfl⟩
  | array elements => cases elements <;> exact ⟨_, _, rfl, rfl⟩
  | object fields => cases fields <;> exact ⟨_, _, rfl, rfl⟩

private theorem same_kind {v w : JsonValue} {r r' : JsString}
    (same : stringify v ++ r = stringify w ++ r') : valueKind v = valueKind w := by
  obtain ⟨unit, rest, spelled, kind⟩ := stringify_lead v
  obtain ⟨unit', rest', spelled', kind'⟩ := stringify_lead w
  rw [spelled, spelled'] at same
  rw [← kind, ← kind', (List.cons.inj same).1]

theorem delimited_elements (rest : List JsonValue) (after : JsString) :
    Delimited (stringifyElements rest ++ after) := by
  cases rest <;> (intro unit lead; cases lead; rfl)

theorem delimited_fields (rest : List (JsString × JsonValue)) (after : JsString) :
    Delimited (stringifyFields rest ++ after) := by
  cases rest <;> (intro unit lead; cases lead; rfl)

/-- No value starts with a closing bracket. -/
private theorem value_not_bracket {v : JsonValue} {r r' : JsString} :
    stringify v ++ r ≠ js "]" ++ r' := by
  intro same
  obtain ⟨unit, rest, spelled, kind⟩ := stringify_lead v
  rw [spelled] at same
  rw [(List.cons.inj same).1] at kind
  cases v with
  | bool value => cases value <;> cases kind
  | number n => simp only [valueKind] at kind; split at kind <;> cases kind
  | null | string | array | object => cases kind

private theorem decimal_append_inj {m n : Int} {r r' : JsString} (left : Delimited r)
    (right : Delimited r') (same : decimal m ++ r = decimal n ++ r') : m = n ∧ r = r' := by
  have kinds := same_kind (v := .number m) (w := .number n) same
  simp only [valueKind] at kinds
  unfold decimal at same
  by_cases negative : m < 0 <;> by_cases negative' : n < 0 <;>
    simp only [negative, negative', ↓reduceIte] at kinds same
  · rw [List.append_assoc, List.append_assoc] at same
    obtain ⟨sizes, rest⟩ := digits_append_inj left right (List.append_cancel_left same)
    exact ⟨by omega, rest⟩
  · cases kinds
  · cases kinds
  · obtain ⟨sizes, rest⟩ := digits_append_inj left right same
    exact ⟨by omega, rest⟩

mutual
/-- Two texts followed by anything that is not a digit agree only if they denote
one value. -/
theorem stringify_append_inj : ∀ (v w : JsonValue) {r r' : JsString}, Delimited r → Delimited r' →
    stringify v ++ r = stringify w ++ r' → v = w ∧ r = r'
  | .null, w, r, r', _, _, same => by
    have kinds := same_kind same
    cases w with
    | null => exact ⟨rfl, List.append_cancel_left same⟩
    | bool b => cases b <;> cases kinds
    | number n => simp only [valueKind] at kinds; split at kinds <;> cases kinds
    | string | array | object => cases kinds
  | .bool b, w, r, r', _, _, same => by
    have kinds := same_kind same
    cases w with
    | bool b' =>
      cases b <;> cases b' <;> first | exact ⟨rfl, List.append_cancel_left same⟩ | cases kinds
    | number n => cases b <;> simp only [valueKind] at kinds <;> split at kinds <;> cases kinds
    | null | string | array | object => cases b <;> cases kinds
  | .number n, w, r, r', left, right, same => by
    have kinds := same_kind same
    cases w with
    | number m =>
      obtain ⟨rfl, rest⟩ := decimal_append_inj left right same
      exact ⟨rfl, rest⟩
    | bool b => cases b <;> simp only [valueKind] at kinds <;> split at kinds <;> cases kinds
    | null | string | array | object =>
      simp only [valueKind] at kinds
      split at kinds <;> cases kinds
  | .string s, w, r, r', _, _, same => by
    have kinds := same_kind same
    cases w with
    | string t =>
      obtain ⟨rfl, rest⟩ := quote_append_inj same
      exact ⟨rfl, rest⟩
    | bool b => cases b <;> cases kinds
    | number n => simp only [valueKind] at kinds; split at kinds <;> cases kinds
    | null | array | object => cases kinds
  | .array vs, w, r, r', _, _, same => by
    have kinds := same_kind same
    cases w with
    | array ws =>
      match vs, ws with
      | [], [] => exact ⟨rfl, List.append_cancel_left same⟩
      | [], w :: ws =>
        simp only [stringify, List.append_assoc] at same
        exact absurd (List.cons.inj same).2.symm value_not_bracket
      | v :: vs, [] =>
        simp only [stringify, List.append_assoc] at same
        exact absurd (List.cons.inj same).2 value_not_bracket
      | v :: vs, w :: ws =>
        simp only [stringify, List.append_assoc] at same
        obtain ⟨rfl, rest⟩ := stringify_append_inj v w (delimited_elements vs r)
          (delimited_elements ws r') (List.append_cancel_left same)
        obtain ⟨rfl, after⟩ := stringifyElements_append_inj vs ws rest
        exact ⟨rfl, after⟩
    | bool b => cases b <;> cases kinds
    | number n => simp only [valueKind] at kinds; split at kinds <;> cases kinds
    | null | string | object => cases kinds
  | .object fs, w, r, r', _, _, same => by
    have kinds := same_kind same
    cases w with
    | object gs =>
      match fs, gs with
      | [], [] => exact ⟨rfl, List.append_cancel_left same⟩
      | [], (name, w) :: gs =>
        simp only [stringify, List.append_assoc] at same
        exact absurd (List.cons.inj (List.cons.inj same).2).1 (by decide)
      | (name, v) :: fs, [] =>
        simp only [stringify, List.append_assoc] at same
        exact absurd (List.cons.inj (List.cons.inj same).2).1 (by decide)
      | (name, v) :: fs, (name', w) :: gs =>
        simp only [stringify, List.append_assoc] at same
        obtain ⟨rfl, colon⟩ := quote_append_inj (List.append_cancel_left same)
        obtain ⟨rfl, rest⟩ := stringify_append_inj v w (delimited_fields fs r)
          (delimited_fields gs r') (List.append_cancel_left colon)
        obtain ⟨rfl, after⟩ := stringifyFields_append_inj fs gs rest
        exact ⟨rfl, after⟩
    | bool b => cases b <;> cases kinds
    | number n => simp only [valueKind] at kinds; split at kinds <;> cases kinds
    | null | string | array => cases kinds

theorem stringifyElements_append_inj : ∀ (vs ws : List JsonValue) {r r' : JsString},
    stringifyElements vs ++ r = stringifyElements ws ++ r' → vs = ws ∧ r = r'
  | [], [], r, r', same => ⟨rfl, List.append_cancel_left same⟩
  | [], w :: ws, r, r', same => absurd (List.cons.inj same).1 (by decide)
  | v :: vs, [], r, r', same => absurd (List.cons.inj same).1 (by decide)
  | v :: vs, w :: ws, r, r', same => by
    simp only [stringifyElements, List.append_assoc] at same
    obtain ⟨rfl, rest⟩ := stringify_append_inj v w (delimited_elements vs r)
      (delimited_elements ws r') (List.append_cancel_left same)
    obtain ⟨rfl, after⟩ := stringifyElements_append_inj vs ws rest
    exact ⟨rfl, after⟩

theorem stringifyFields_append_inj : ∀ (fs gs : List (JsString × JsonValue)) {r r' : JsString},
    stringifyFields fs ++ r = stringifyFields gs ++ r' → fs = gs ∧ r = r'
  | [], [], r, r', same => ⟨rfl, List.append_cancel_left same⟩
  | [], (name, w) :: gs, r, r', same => absurd (List.cons.inj same).1 (by decide)
  | (name, v) :: fs, [], r, r', same => absurd (List.cons.inj same).1 (by decide)
  | (name, v) :: fs, (name', w) :: gs, r, r', same => by
    simp only [stringifyFields, List.append_assoc] at same
    obtain ⟨rfl, colon⟩ := quote_append_inj (List.append_cancel_left same)
    obtain ⟨rfl, rest⟩ := stringify_append_inj v w (delimited_fields fs r)
      (delimited_fields gs r') (List.append_cancel_left colon)
    obtain ⟨rfl, after⟩ := stringifyFields_append_inj fs gs rest
    exact ⟨rfl, after⟩
end

/-- `JSON.stringify` is injective on JSON values. -/
theorem stringify_injective : Function.Injective stringify := by
  intro v w same
  have open_ : Delimited [] := fun unit lead => by cases lead
  exact (stringify_append_inj v w open_ open_ (by simpa using same)).1

end Js
