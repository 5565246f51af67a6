import RemoteSqlAgent.JsDigits
import RemoteSqlAgent.JsMap
import RemoteSqlAgent.JsSame

/-! `JSON.parse`, on texts whose numbers are safe integers, and the values it gives back. Any
value that `JSON.parse` could have built is read back from what `JSON.stringify` writes for it. -/
namespace Js

/-! ## Tokens -/

/-- White space between the tokens of a JSON text. -/
def isJsonSpace (unit : CodeUnit) : Bool := unit = 0x20 || unit = 0x09 || unit = 0x0A || unit = 0x0D

def skipSpace (text : JsString) : JsString := text.dropWhile isJsonSpace

/-- What follows a token of one unit. -/
def token (unit : CodeUnit) (text : JsString) : Option JsString :=
  match skipSpace text with
  | [] => none
  | first :: rest => if first = unit then some rest else none

/-- A word is read as a value. -/
def readWord (word : String) (value : JsValue) (text : JsString) : Option (JsValue × JsString) :=
  if (js word).isPrefixOf text then some (value, text.drop (js word).length) else none

/-- A numeral without leading zeros, whose number a double holds exactly. -/
def readNumeral (text : JsString) : Option (Nat × JsString) :=
  let numeral := text.takeWhile isDigit
  let value := digitsValue numeral
  if digits value = numeral ∧ value < 2 ^ 53 then some (value, text.drop numeral.length) else none

/-- A whole number. A fraction or an exponent is not read: it is left over. -/
def readNumber : JsString → Option (JsValue × JsString)
  | [] => none
  | first :: rest =>
    if first = 0x2D then (readNumeral rest).map fun found => (.number (-found.1), found.2)
    else (readNumeral (first :: rest)).map fun found => (.number found.1, found.2)

/-! ## Values -/

/-- The own properties of an object that a text lists in this order: a name that comes again sets
the property it has. -/
def ownProperties {α : Type} (listed : List (JsString × α)) : List (JsString × α) :=
  propertyOrder (JsMap.ofEntries listed)

mutual
/-- A value and the text after it. Whatever is nested takes up fuel, and so does every element and
every property. -/
def readValue : Nat → JsString → Option (JsValue × JsString)
  | 0, _ => none
  | fuel + 1, text =>
    match token 0x22 text with
    | some text => (readString text).map fun found => (.string found.1, found.2)
    | none =>
      match token 0x5B text with
      | some text =>
        match token 0x5D text with
        | some after => some (.array [], after)
        | none => do
          let first ← readValue fuel text
          let rest ← readElements fuel first.2
          return (.array (first.1 :: rest.1), rest.2)
      | none =>
        match token 0x7B text with
        | some text =>
          match token 0x7D text with
          | some after => some (.object [], after)
          | none => do
            let first ← readMember fuel text
            let rest ← readMembers fuel first.2
            return (.object (ownProperties (first.1 :: rest.1)), rest.2)
        | none =>
          let text := skipSpace text
          (readWord "null" .null text <|> readWord "true" (.bool true) text) <|>
            (readWord "false" (.bool false) text <|> readNumber text)

/-- The elements after one, up to the bracket that closes the array. -/
def readElements : Nat → JsString → Option (List JsValue × JsString)
  | 0, _ => none
  | fuel + 1, text =>
    match token 0x5D text with
    | some after => some ([], after)
    | none => do
      let found ← readValue fuel (← token 0x2C text)
      let rest ← readElements fuel found.2
      return (found.1 :: rest.1, rest.2)

def readMember : Nat → JsString → Option ((JsString × JsValue) × JsString)
  | 0, _ => none
  | fuel + 1, text => do
    let name ← readString (← token 0x22 text)
    let found ← readValue fuel (← token 0x3A name.2)
    return ((name.1, found.1), found.2)

/-- The properties after one, up to the brace that closes the object. -/
def readMembers : Nat → JsString → Option (List (JsString × JsValue) × JsString)
  | 0, _ => none
  | fuel + 1, text =>
    match token 0x7D text with
    | some after => some ([], after)
    | none => do
      let found ← readMember fuel (← token 0x2C text)
      let rest ← readMembers fuel found.2
      return (found.1 :: rest.1, rest.2)
end

/-- `JSON.parse(text)`, where it does not throw. -/
def parseJson (text : JsString) : Option JsValue := do
  let found ← readValue (text.length + 1) text
  if skipSpace found.2 = [] then some found.1 else none

mutual
/-- A JSON value as a plain one. -/
def JsonValue.toValue : JsonValue → JsValue
  | .null => .null
  | .bool b => .bool b
  | .number n => .number n
  | .string s => .string s
  | .array elements => .array (toValues elements)
  | .object fields => .object (toFields fields)

def JsonValue.toValues : List JsonValue → List JsValue
  | [] => []
  | value :: rest => value.toValue :: toValues rest

def JsonValue.toFields : List (JsString × JsonValue) → List (JsString × JsValue)
  | [] => []
  | (name, value) :: rest => (name, value.toValue) :: toFields rest
end

namespace JsonValue

/-- A value as `JSON.parse` builds one: its numbers are safe integers, and the properties of an
object have names of their own and stand in property order. -/
inductive Regular : JsonValue → Prop
  | null : Regular .null
  | bool (b : Bool) : Regular (.bool b)
  | number {n : Int} (safe : n.natAbs < 2 ^ 53) : Regular (.number n)
  | string (s : JsString) : Regular (.string s)
  | array {elements : List JsonValue} (each : ∀ value ∈ elements, Regular value) : Regular (.array elements)
  | object {fields : List (JsString × JsonValue)} (distinct : (fields.map Prod.fst).Nodup)
      (ordered : propertyOrder fields = fields) (each : ∀ field ∈ fields, Regular field.2) :
      Regular (.object fields)

theorem toValues_eq_map (elements : List JsonValue) : toValues elements = elements.map toValue := by
  induction elements with
  | nil => rfl
  | cons value rest ih => rw [toValues, ih, List.map_cons]

theorem toFields_eq_map (fields : List (JsString × JsonValue)) :
    toFields fields = fields.map fun field => (field.1, field.2.toValue) := by
  induction fields with
  | nil => rfl
  | cons field rest ih => rw [toFields, ih, List.map_cons]

theorem isDefined_toValue (json : JsonValue) : json.toValue.isDefined = true := by
  cases json <;> rfl

end JsonValue

theorem definedFields_toFields (fields : List (JsString × JsonValue)) :
    definedFields (JsonValue.toFields fields) = JsonValue.toFields fields := by
  rw [definedFields, List.filter_eq_self, JsonValue.toFields_eq_map]
  exact List.forall_mem_map.mpr fun field _ => field.2.isDefined_toValue

/-! ## Property order -/

theorem propertyOrder_perm {α : Type} (fields : List (JsString × α)) : (propertyOrder fields).Perm fields := by
  have named : (fields.filter fun field => (arrayIndex field.1).isNone) =
      fields.filter fun field => !(arrayIndex field.1).isSome := by
    congr 1
    funext field
    simp
  rw [propertyOrder, named]
  exact ((List.perm_insertionSort _ _).append_right _).trans (List.filter_append_perm _ _)

/-- The order depends on the names alone. -/
theorem propertyOrder_map {α β : Type} (g : α → β) (fields : List (JsString × α)) :
    propertyOrder (fields.map fun field => (field.1, g field.2)) =
      (propertyOrder fields).map fun field => (field.1, g field.2) := by
  have indices := List.map_insertionSort
    (fun a b : JsString × α => (arrayIndex a.1).getD 0 ≤ (arrayIndex b.1).getD 0)
    (fun a b : JsString × β => (arrayIndex a.1).getD 0 ≤ (arrayIndex b.1).getD 0)
    (fun field : JsString × α => (field.1, g field.2))
    (fields.filter fun field => (arrayIndex field.1).isSome) fun _ _ _ _ => Iff.rfl
  rw [propertyOrder, propertyOrder, List.map_append, indices, List.filter_map, List.filter_map]
  rfl

/-- Properties in property order stay so. -/
theorem propertyOrder_idempotent {α : Type} (fields : List (JsString × α)) :
    propertyOrder (propertyOrder fields) = propertyOrder fields := by
  let le := fun a b : JsString × α => (arrayIndex a.1).getD 0 ≤ (arrayIndex b.1).getD 0
  let indices := (fields.filter fun field => (arrayIndex field.1).isSome).insertionSort le
  let names := fields.filter fun field => (arrayIndex field.1).isNone
  have indexed : ∀ field ∈ indices, (arrayIndex field.1).isSome = true := fun field member =>
    (List.mem_filter.mp ((List.mem_insertionSort _).mp member)).2
  have named : ∀ field ∈ names, (arrayIndex field.1).isNone = true := fun field member =>
    (List.mem_filter.mp member).2
  have sorted : indices.insertionSort le = indices := by
    have : Std.Total le := ⟨fun a b => Nat.le_total _ _⟩
    have : IsTrans _ le := ⟨fun a b c => Nat.le_trans⟩
    exact (List.pairwise_insertionSort le _).insertionSort_eq
  change ((indices ++ names).filter _).insertionSort le ++ (indices ++ names).filter _ = indices ++ names
  rw [List.filter_append, List.filter_append, List.filter_eq_self.mpr indexed, List.filter_eq_self.mpr named,
    List.filter_eq_nil_iff.mpr, List.filter_eq_nil_iff.mpr, List.append_nil, List.nil_append, sorted]
  · intro field member
    simpa [Option.isSome_iff_ne_none] using indexed field member
  · intro field member
    simpa using named field member

/-! ## Reading back -/

theorem token_cons {first : CodeUnit} (visible : isJsonSpace first = false) (unit : CodeUnit) (rest : JsString) :
    token unit (first :: rest) = if first = unit then some rest else none := by
  have here : skipSpace (first :: rest) = first :: rest := List.dropWhile_cons_of_neg (by simp [visible])
  rw [token, here]

/-- A numeral is read up to where it ends. -/
theorem readNumeral_digits {n : Nat} (safe : n < 2 ^ 53) {after : JsString} (delimited : Delimited after) :
    readNumeral (digits n ++ after) = some (n, after) := by
  have numeral := takeWhile_digits n delimited
  simp only [readNumeral, numeral, digitsValue_digits, safe, true_and, if_true, List.drop_left]

/-- A digit starts no token but a numeral. -/
private theorem digit_lead {unit : CodeUnit} (digit : isDigit unit = true) :
    isJsonSpace unit = false ∧ unit ≠ 0x22 ∧ unit ≠ 0x5B ∧ unit ≠ 0x7B ∧ unit ≠ 0x5D ∧ unit ≠ 0x2D ∧
      unit ≠ 0x6E ∧ unit ≠ 0x74 ∧ unit ≠ 0x66 := by
  have all : ∀ value, 0x30 ≤ value → value ≤ 0x39 → (fun unit : CodeUnit => isJsonSpace unit = false ∧
      unit ≠ 0x22 ∧ unit ≠ 0x5B ∧ unit ≠ 0x7B ∧ unit ≠ 0x5D ∧ unit ≠ 0x2D ∧ unit ≠ 0x6E ∧ unit ≠ 0x74 ∧
      unit ≠ 0x66) (Fin.ofNat _ value) := by
    intro value low high
    have small : value < 0x3A := by omega
    revert value
    decide
  simp only [isDigit, Bool.and_eq_true, decide_eq_true_eq] at digit
  simpa using all unit.val digit.1 digit.2

private theorem readWord_other (word : String) {value : JsValue} {first unit : CodeUnit} {letters rest : JsString}
    (spelled : js word = first :: letters) (other : unit ≠ first) : readWord word value (unit :: rest) = none := by
  have apart : (first == unit) = false := beq_false_of_ne (Ne.symm other)
  rw [readWord, spelled, List.isPrefixOf_cons_cons, apart, Bool.false_and]
  rfl

private theorem token_quote (s after : JsString) :
    token 0x22 (quote s ++ after) = some (escapeUnits s ++ js "\"" ++ after) := rfl

/-- No value starts with a closing bracket. -/
private theorem token_value (value : JsonValue) (after : JsString) : token 0x5D (stringify value ++ after) = none := by
  cases value with
  | null => rfl
  | bool value => cases value <;> rfl
  | number n =>
    rw [stringify, decimal]
    split
    · rfl
    · cases spelled : digits n.natAbs with
      | nil => exact absurd spelled (digits_ne_nil _)
      | cons unit rest =>
        obtain ⟨visible, -, -, -, noBracket, -⟩ :=
          digit_lead (digits_are_digits (n := n.natAbs) (by rw [spelled]; exact List.mem_cons_self))
        rw [List.cons_append, token_cons visible, if_neg noBracket]
  | string s => rfl
  | array elements => cases elements <;> rfl
  | object fields => cases fields <;> rfl

private theorem readValue_decimal {n : Int} (safe : n.natAbs < 2 ^ 53) (fuel : Nat) {after : JsString}
    (delimited : Delimited after) : readValue (fuel + 1) (decimal n ++ after) = some (.number n, after) := by
  have numeral := readNumeral_digits safe delimited
  rw [decimal]
  by_cases negative : n < 0
  · have size : -(n.natAbs : Int) = n := by omega
    rw [if_pos negative]
    change (readNumeral (digits n.natAbs ++ after)).map _ = _
    rw [numeral, Option.map_some, size]
  · have size : (n.natAbs : Int) = n := by omega
    rw [if_neg negative]
    cases spelled : digits n.natAbs with
    | nil => exact absurd spelled (digits_ne_nil _)
    | cons unit rest =>
      obtain ⟨visible, noQuote, noBracket, noBrace, -, noSign, noNull, noTrue, noFalse⟩ :=
        digit_lead (digits_are_digits (n := n.natAbs) (by rw [spelled]; exact List.mem_cons_self))
      have here : skipSpace (unit :: (rest ++ after)) = unit :: (rest ++ after) :=
        List.dropWhile_cons_of_neg (by simp [visible])
      rw [spelled, List.cons_append] at numeral
      rw [List.cons_append, readValue, token_cons visible, if_neg noQuote, token_cons visible, if_neg noBracket,
        token_cons visible, if_neg noBrace, here]
      dsimp only
      rw [readWord_other "null" rfl noNull, readWord_other "true" rfl noTrue,
        readWord_other "false" rfl noFalse, readNumber, if_neg noSign, numeral, Option.map_some, size]
      rfl

/-- An object is built from properties that stand in property order and are told apart by their
names without any change. -/
private theorem ownProperties_toFields {fields : List (JsString × JsonValue)} (distinct : (fields.map Prod.fst).Nodup)
    (ordered : propertyOrder fields = fields) :
    ownProperties (JsonValue.toFields fields) = JsonValue.toFields fields := by
  have names : ((JsonValue.toFields fields).map Prod.fst).Nodup := by
    rw [JsonValue.toFields_eq_map, List.map_map]
    exact distinct
  rw [ownProperties, JsMap.ofEntries_of_nodup names, JsonValue.toFields_eq_map, propertyOrder_map, ordered]

mutual
/-- **What `JSON.stringify` writes for a value, `JSON.parse` reads as that value.** -/
theorem readValue_stringify : ∀ {json : JsonValue} {fuel : Nat} {after : JsString}, json.Regular → Delimited after →
    (stringify json).length < fuel → readValue fuel (stringify json ++ after) = some (json.toValue, after)
  | _, 0, _, _, _, fits => absurd fits (Nat.not_lt_zero _)
  | .null, _ + 1, _, _, _, _ => rfl
  | .bool true, _ + 1, _, _, _, _ => rfl
  | .bool false, _ + 1, _, _, _, _ => rfl
  | .number n, fuel + 1, after, regular, delimited, _ => by
    cases regular with
    | number safe => exact readValue_decimal safe fuel delimited
  | .string s, fuel + 1, after, _, _, _ => by
    rw [stringify, readValue, token_quote]
    dsimp only
    rw [readString_escapeUnits]
    rfl
  | .array [], _ + 1, _, _, _, _ => rfl
  | .array (value :: rest), fuel + 1, after, regular, _, fits => by
    cases regular with
    | array each =>
      have lengths : 1 + (stringify value).length + (stringifyElements rest).length < fuel + 1 := by
        simpa only [stringify, List.length_append, show (js "[").length = 1 from rfl] using fits
      have first := readValue_stringify (each value List.mem_cons_self) (delimited_elements rest after)
        (show (stringify value).length < fuel by omega)
      have others : readElements fuel (stringifyElements rest ++ after) =
          some (JsonValue.toValues rest, after) := readElements_stringify
        (fun other member => each other (List.mem_cons_of_mem _ member))
        (show (stringifyElements rest).length < fuel by omega)
      have full := token_value value (stringifyElements rest ++ after)
      rw [stringify, List.append_assoc, List.append_assoc]
      generalize stringify value ++ (stringifyElements rest ++ after) = elements at first full
      have noString : token 0x22 (js "[" ++ elements) = none := rfl
      have opens : token 0x5B (js "[" ++ elements) = some elements := rfl
      rw [readValue, noString, opens]
      dsimp only
      rw [full]
      dsimp only
      rw [first, Option.bind_eq_bind, Option.bind_some, others]
      rfl
  | .object [], _ + 1, _, _, _, _ => rfl
  | .object ((name, value) :: rest), fuel + 1, after, regular, _, fits => by
    cases regular with
    | object distinct ordered each =>
      have lengths : 1 + (quote name ++ js ":" ++ stringify value).length + (stringifyFields rest).length <
          fuel + 1 := by
        simpa only [stringify, List.length_append, show (js "\x7b").length = 1 from rfl, Nat.add_assoc] using fits
      have first := readMember_stringify name (each _ List.mem_cons_self) (delimited_fields rest after)
        (show (quote name ++ js ":" ++ stringify value).length < fuel by omega)
      have others : readMembers fuel (stringifyFields rest ++ after) =
          some (JsonValue.toFields rest, after) := readMembers_stringify
        (fun other member => each other (List.mem_cons_of_mem _ member))
        (show (stringifyFields rest).length < fuel by omega)
      have built := ownProperties_toFields distinct ordered
      rw [JsonValue.toFields] at built
      have spelled : stringify (.object ((name, value) :: rest)) ++ after =
          js "\x7b" ++ (quote name ++ js ":" ++ stringify value ++ (stringifyFields rest ++ after)) := by
        simp only [stringify, List.append_assoc]
      have full : token 0x7D (quote name ++ js ":" ++ stringify value ++ (stringifyFields rest ++ after)) = none := rfl
      generalize quote name ++ js ":" ++ stringify value ++ (stringifyFields rest ++ after) = members
        at first spelled full
      have noString : token 0x22 (js "\x7b" ++ members) = none := rfl
      have noArray : token 0x5B (js "\x7b" ++ members) = none := rfl
      have opens : token 0x7B (js "\x7b" ++ members) = some members := rfl
      rw [spelled, readValue, noString, noArray, opens]
      dsimp only
      rw [full]
      dsimp only
      rw [first, Option.bind_eq_bind, Option.bind_some, others, Option.bind_eq_bind, Option.bind_some]
      dsimp only
      rw [built, JsonValue.toValue]
      rfl

theorem readElements_stringify : ∀ {elements : List JsonValue} {fuel : Nat} {after : JsString},
    (∀ value ∈ elements, value.Regular) → (stringifyElements elements).length < fuel →
    readElements fuel (stringifyElements elements ++ after) = some (JsonValue.toValues elements, after)
  | _, 0, _, _, fits => absurd fits (Nat.not_lt_zero _)
  | [], _ + 1, _, _, _ => rfl
  | value :: rest, fuel + 1, after, each, fits => by
    have lengths : 1 + (stringify value).length + (stringifyElements rest).length < fuel + 1 := by
      simpa only [stringifyElements, List.length_append, show (js ",").length = 1 from rfl] using fits
    have first := readValue_stringify (each value List.mem_cons_self) (delimited_elements rest after)
      (show (stringify value).length < fuel by omega)
    have others : readElements fuel (stringifyElements rest ++ after) =
        some (JsonValue.toValues rest, after) := readElements_stringify
      (fun other member => each other (List.mem_cons_of_mem _ member))
      (show (stringifyElements rest).length < fuel by omega)
    rw [stringifyElements, List.append_assoc, List.append_assoc]
    generalize stringify value ++ (stringifyElements rest ++ after) = elements at first
    have open_ : token 0x5D (js "," ++ elements) = none := rfl
    have goesOn : token 0x2C (js "," ++ elements) = some elements := rfl
    rw [readElements, open_, goesOn]
    dsimp only
    rw [Option.bind_eq_bind, Option.bind_some, first, Option.bind_eq_bind, Option.bind_some, others]
    rfl

theorem readMember_stringify : ∀ (name : JsString) {value : JsonValue} {fuel : Nat} {after : JsString},
    value.Regular → Delimited after → (quote name ++ js ":" ++ stringify value).length < fuel →
    readMember fuel (quote name ++ js ":" ++ stringify value ++ after) = some ((name, value.toValue), after)
  | _, _, 0, _, _, _, fits => absurd fits (Nat.not_lt_zero _)
  | name, value, fuel + 1, after, regular, delimited, fits => by
    have lengths : (quote name).length + 1 + (stringify value).length < fuel + 1 := by
      simpa only [List.length_append, show (js ":").length = 1 from rfl] using fits
    have read := readValue_stringify regular delimited (show (stringify value).length < fuel by omega)
    have colon : token 0x3A (js ":" ++ (stringify value ++ after)) = some (stringify value ++ after) := rfl
    rw [List.append_assoc, List.append_assoc, readMember, token_quote, Option.bind_eq_bind, Option.bind_some,
      readString_escapeUnits, Option.bind_eq_bind, Option.bind_some, colon, Option.bind_eq_bind, Option.bind_some, read]
    rfl

theorem readMembers_stringify : ∀ {fields : List (JsString × JsonValue)} {fuel : Nat} {after : JsString},
    (∀ field ∈ fields, field.2.Regular) → (stringifyFields fields).length < fuel →
    readMembers fuel (stringifyFields fields ++ after) = some (JsonValue.toFields fields, after)
  | _, 0, _, _, fits => absurd fits (Nat.not_lt_zero _)
  | [], _ + 1, _, _, _ => rfl
  | (name, value) :: rest, fuel + 1, after, each, fits => by
    have lengths : 1 + (quote name ++ js ":" ++ stringify value).length + (stringifyFields rest).length <
        fuel + 1 := by
      simpa only [stringifyFields, List.length_append, show (js ",").length = 1 from rfl, Nat.add_assoc] using fits
    have first := readMember_stringify name (each _ List.mem_cons_self) (delimited_fields rest after)
      (show (quote name ++ js ":" ++ stringify value).length < fuel by omega)
    have others : readMembers fuel (stringifyFields rest ++ after) =
        some (JsonValue.toFields rest, after) := readMembers_stringify
      (fun other member => each other (List.mem_cons_of_mem _ member))
      (show (stringifyFields rest).length < fuel by omega)
    have spelled : stringifyFields ((name, value) :: rest) ++ after =
        js "," ++ (quote name ++ js ":" ++ stringify value ++ (stringifyFields rest ++ after)) := by
      simp only [stringifyFields, List.append_assoc]
    generalize quote name ++ js ":" ++ stringify value ++ (stringifyFields rest ++ after) = members at first spelled
    have open_ : token 0x7D (js "," ++ members) = none := rfl
    have goesOn : token 0x2C (js "," ++ members) = some members := rfl
    rw [spelled, readMembers, open_, goesOn]
    dsimp only
    rw [Option.bind_eq_bind, Option.bind_some, first, Option.bind_eq_bind, Option.bind_some, others]
    rfl
end

/-- `JSON.parse` undoes `JSON.stringify`, on every value that it could have given. -/
theorem parseJson_stringify {json : JsonValue} (regular : json.Regular) :
    parseJson (stringify json) = some json.toValue := by
  have ends : Delimited [] := fun unit lead => by cases lead
  have read := readValue_stringify regular ends (Nat.lt_succ_self _)
  rw [List.append_nil] at read
  rw [parseJson, read]
  rfl

example : (parseJson (js " [1, \x7b\"a\": -20, \"b\" : [null,true]\x7d ]\n")).isSome = true ∧
    (parseJson (js "[1.5]")).isNone = true ∧ (parseJson (js "[01]")).isNone = true ∧
    (parseJson (js "[1,]")).isNone = true := by decide +kernel

end Js
