import ApiSurface.NameMap
import ApiSurface.Json.Scan

/-!
Reading JSON of a known shape. Objects and arrays are read by one loop each, which takes a reader for
their parts; parts that are not asked for are passed over, and only have to be JSON. A value of
another kind than the one asked for is a fault: a scalar is read before it is refused, an array or
object is not.
-/

namespace ApiSurface.Json

/-- Passes over blanks and shows the next character. -/
def peek : Scan (Option Char) := fun cs =>
  let rest := skipBlank cs
  .ok (rest.head?, rest)

/-- Passes over one character. -/
def advance : Scan Unit := fun cs => .ok ((), cs.tail)

/-- A fault just after the first byte of the text that is left. -/
def stopIn {α : Type} (cause : Cause) : Scan α := fun cs => failIn cause cs

/-- The next character, where a value has to begin. -/
def peekValue : Scan Char := do
  match ← peek with
  | some c => return c
  | none => stop .endOfValue

/-- Whether an array goes on with an item. -/
def nextItem (first : Bool) : Scan Bool := do
  match ← peek with
  | none => stop .endOfList
  | some ']' => return false
  | some c =>
    if first then return true
    else if c = ',' then
      advance
      match ← peekValue with
      | ']' => stopIn .trailingComma
      | _ => return true
    else stopIn .listEndExpected

/-- Whether an object goes on with a field, which begins with a quote. -/
def nextField (first : Bool) : Scan Bool := do
  match ← peek with
  | none => stop .endOfObject
  | some '\x7d' => return false
  | some c =>
    if first then
      if c = '"' then return true else stopIn .keyExpected
    else if c = ',' then
      advance
      match ← peekValue with
      | '"' => return true
      | '\x7d' => stopIn .trailingComma
      | _ => stopIn .keyExpected
    else stopIn .objectEndExpected

/-- The colon between the name of a field and its value. -/
def colon : Scan Unit := do
  match ← peek with
  | some ':' => advance
  | some _ => stopIn .colonExpected
  | none => stop .endOfObject

/-! ### Values that are passed over -/

mutual

/-- Passes over a value. -/
def skipValue : Nat → Scan Unit
  | 0 => stop .endOfValue
  | n + 1 => do
    match ← peekValue with
    | 'n' => advance; scanWord ['u', 'l', 'l']
    | 't' => advance; scanWord ['r', 'u', 'e']
    | 'f' => advance; scanWord ['a', 'l', 's', 'e']
    | '-' => advance; skipNumber
    | '"' => advance; skipString ((← get).length + 1)
    | '[' =>
      advance
      match ← peek with
      | some ']' => advance
      | none => stop .endOfList
      | some _ => skipItems n
    | '\x7b' =>
      advance
      match ← peek with
      | some '\x7d' => advance
      | _ => skipFields n
    | c => if c.isDigit then skipNumber else stopIn .valueExpected

/-- Passes over the items of an array, of which there is one, and its end. -/
def skipItems : Nat → Scan Unit
  | 0 => stop .endOfValue
  | n + 1 => do
    skipValue n
    match ← peek with
    | some ',' => advance; skipItems n
    | some ']' => advance
    | some _ => stopIn .listEndExpected
    | none => stop .endOfList

/-- Passes over the fields of an object, of which there is one, and its end. -/
def skipFields : Nat → Scan Unit
  | 0 => stop .endOfValue
  | n + 1 => do
    match ← peek with
    | some '"' => advance; skipString ((← get).length + 1)
    | some _ => stopIn .keyExpected
    | none => stop .endOfObject
    colon
    skipValue n
    match ← peek with
    | some ',' => advance; skipFields n
    | some '\x7d' => advance
    | some _ => stopIn .objectEndExpected
    | none => stop .endOfObject

end

theorem skipValue_quote (n : Nat) (cs : List Char) :
    skipValue (n + 1) ('"' :: cs) = skipString (cs.length + 1) cs := by
  rw [skipValue]
  rfl

/-- Passes over a value. -/
def skip : Scan Unit := do
  skipValue (2 * (← get).length + 2)

/-! ### Values that are asked for -/

/-- Refuses a value of another kind than the one asked for. -/
def refuse {α : Type} (expected : Expected) : Scan α := do
  let mismatch (found : Found) : Scan α := stop (.mismatch ⟨found, expected⟩)
  match ← peekValue with
  | 'n' => advance; scanWord ['u', 'l', 'l']; mismatch .null
  | 't' => advance; scanWord ['r', 'u', 'e']; mismatch (.boolean true)
  | 'f' => advance; scanWord ['a', 'l', 's', 'e']; mismatch (.boolean false)
  | '-' => advance; mismatch (← scanNumber true).found
  | '"' => advance; mismatch (.string (← scanString))
  | '[' => mismatch .sequence
  | '\x7b' => mismatch .map
  | c => if c.isDigit then mismatch (← scanNumber false).found else stopIn .valueExpected

/-- A string. -/
def text : Scan String := do
  match ← peekValue with
  | '"' => advance; scanString
  | _ => refuse .string

/-- The fields of an object, each handed with what was read so far to the reader of fields, which
starts after the name. -/
def fields {σ : Type} (field : σ → String → Scan σ) : Nat → Bool → σ → Scan σ
  | 0, _, _ => stop .endOfObject
  | n + 1, first, s => do
    if ← nextField first then
      advance
      let name ← scanString
      fields field n false (← field s name)
    else
      advance
      return s

theorem fields_of_end {σ : Type} {field : σ → String → Scan σ} {n : Nat} {first : Bool} {s : σ}
    {c : Char} {cs rest : List Char} (h : nextField first cs = .ok (false, c :: rest)) :
    fields field (n + 1) first s cs = .ok (s, rest) := by
  rw [fields]
  change Except.bind (nextField first cs) _ = _
  rw [h]
  rfl

/-- The items of an array, each read with what was read so far. -/
def items {σ : Type} (item : σ → Scan σ) : Nat → Bool → σ → Scan σ
  | 0, _, _ => stop .endOfList
  | n + 1, first, s => do
    if ← nextItem first then
      items item n false (← item s)
    else
      advance
      return s

theorem items_of_end {σ : Type} {item : σ → Scan σ} {n : Nat} {first : Bool} {s : σ} {c : Char}
    {cs rest : List Char} (h : nextItem first cs = .ok (false, c :: rest)) :
    items item (n + 1) first s cs = .ok (s, rest) := by
  rw [items]
  change Except.bind (nextItem first cs) _ = _
  rw [h]
  rfl

/-- An object as a map; of two fields with one name the later counts. -/
def map {α : Type} (value : Scan α) : Scan (NameMap α) := do
  match ← peekValue with
  | '\x7b' =>
    advance
    fields (fun m name => do colon; return m.insert name (← value)) ((← get).length + 1) true ∅
  | _ => refuse .map

/-- An array of strings as a set. -/
def names : Scan NameSet := do
  match ← peekValue with
  | '[' =>
    advance
    items (fun s => return s.insert (← text)) ((← get).length + 1) true ∅
  | _ => refuse .sequence

/-- The end of an array that stands for a record and has an item for each of its fields. -/
def recordEnd : Scan Unit := do
  match ← peek with
  | some ']' => advance
  | some ',' =>
    advance
    match ← peek with
    | some ']' => stopIn .trailingComma
    | _ => stopIn .trailingCharacters
  | some _ => stopIn .trailingCharacters
  | none => stop .endOfList

/-- Refuses a second field of one name. The blanks after the name are read, and the end of the object
if it follows. -/
def refuseDuplicate {α : Type} (name : String) : Scan α := do
  if (← peek) = some '\x7d' then advance
  stop (.duplicateField name)

/-- A whole text that holds one value. -/
def readText {α : Type} (value : Scan α) (source : String) : Except Error α :=
  let whole : Scan α := do
    let result ← value
    match ← peek with
    | some _ => stopIn .trailingCharacters
    | none => return result
  match whole source.toList with
  | .ok (result, _) => .ok result
  | .error fault => .error (fault.locate source.toList)

end ApiSurface.Json
