import ApiSurface.Double.Shortest
import ApiSurface.Json.Fault

/-!
The tokens of JSON: blanks, strings, numbers and the three words. Each reader takes the text that is
left and gives what it read together with the text after it.
-/

namespace ApiSurface.Json

/-- A reader: takes the text that is left, gives a value and the text after it, or a fault. -/
abbrev Scan : Type → Type := StateT (List Char) (Except Fault)

/-- A fault at the place where the given text is left. -/
def failAt {α : Type} (cause : Cause) (rest : List Char) : Except Fault α :=
  .error { cause, rest }

/-- A fault just after the first byte of the text that is left. -/
def failIn {α : Type} (cause : Cause) (rest : List Char) : Except Fault α :=
  .error { cause, rest, ahead := 1 }

/-- A fault at the reading place. -/
def stop {α : Type} (cause : Cause) : Scan α := fun cs => failAt cause cs

/-- The text from its first character that is not blank on. -/
def skipBlank (cs : List Char) : List Char :=
  cs.dropWhile fun c => c = ' ' || c = '\n' || c = '\t' || c = '\r'

/-! ### Strings -/

/-- The value of a hexadecimal digit. -/
def hexValue? (c : Char) : Option Nat :=
  if '0' ≤ c && c ≤ '9' then some (c.toNat - '0'.toNat)
  else if 'a' ≤ c && c ≤ 'f' then some (c.toNat - 'a'.toNat + 10)
  else if 'A' ≤ c && c ≤ 'F' then some (c.toNat - 'A'.toNat + 10)
  else none

/-- The number of bytes of a text. -/
def byteLength : List Char → Nat
  | [] => 0
  | c :: cs => c.utf8Size + byteLength cs

/-- Four hexadecimal digits. -/
def hexEscape : Scan Nat := fun cs =>
  if byteLength cs < 4 then failAt .endOfString []
  else match cs with
    | a :: b :: c :: d :: rest =>
      match hexValue? a, hexValue? b, hexValue? c, hexValue? d with
      | some a, some b, some c, some d => .ok (((a * 16 + b) * 16 + c) * 16 + d, rest)
      | _, _, _, _ => .error { cause := .invalidEscape, rest := cs, ahead := 4 }
    | _ => .error { cause := .invalidEscape, rest := cs, ahead := 4 }

/-- The character that a simple escape stands for. -/
def simpleEscape? : Char → Option Char
  | '"' => some '"'
  | '\\' => some '\\'
  | '/' => some '/'
  | 'b' => some '\x08'
  | 'f' => some '\x0c'
  | 'n' => some '\n'
  | 'r' => some '\r'
  | 't' => some '\t'
  | _ => none

/-- The given character, which has to come next in a pair of surrogates. -/
def surrogateMark (mark : Char) : Scan Unit
  | [] => failAt .endOfString []
  | c :: cs => if c = mark then .ok ((), cs) else failIn .hexEscapeEnd (c :: cs)

/-- The character of an escape with a code, after its letter. A code above the basic plane is written
as two surrogates. -/
def codeEscape : Scan Char := do
  let high ← hexEscape
  if 0xDC00 ≤ high && high ≤ 0xDFFF then
    stop .loneSurrogate
  else if 0xD800 ≤ high && high ≤ 0xDBFF then
    surrogateMark '\\'
    surrogateMark 'u'
    let low ← hexEscape
    if low < 0xDC00 || 0xDFFF < low then
      stop .loneSurrogate
    else
      return Char.ofNat (0x10000 + (high - 0xD800) * 0x400 + (low - 0xDC00))
  else
    return Char.ofNat high

/-- The character of an escape, after its backslash. -/
def escaped : Scan Char
  | [] => failAt .endOfString []
  | 'u' :: cs => codeEscape cs
  | c :: cs => match simpleEscape? c with
    | some value => .ok (value, cs)
    | none => failIn .invalidEscape (c :: cs)

/-- The characters of a string after its opening quote, up to the closing one. -/
def stringBody : Nat → Scan (List Char)
  | 0, cs => failAt .endOfString cs
  | _ + 1, [] => failAt .endOfString []
  | n + 1, c :: cs =>
    if c = '"' then .ok ([], cs)
    else if c = '\\' then
      (do
        let value ← escaped
        let values ← stringBody n
        return value :: values : Scan (List Char)) cs
    else if c.toNat < 0x20 then failIn .controlCharacter (c :: cs)
    else
      (do
        let values ← stringBody n
        return c :: values : Scan (List Char)) cs

theorem stringBody_quote (n : Nat) (cs : List Char) : stringBody (n + 1) ('"' :: cs) = .ok ([], cs) := by
  rw [stringBody, if_pos rfl]

/-- A string, after its opening quote. -/
def scanString : Scan String := do
  let values ← stringBody ((← get).length + 1)
  return String.ofList values

/-- Passes over an escape after its backslash; what it stands for does not matter. -/
def skipEscape : Scan Unit
  | [] => failAt .endOfString []
  | 'u' :: cs => (do let _ ← hexEscape : Scan Unit) cs
  | c :: cs => match simpleEscape? c with
    | some _ => .ok ((), cs)
    | none => failIn .invalidEscape (c :: cs)

/-- Passes over a string after its opening quote. -/
def skipString : Nat → Scan Unit
  | 0, cs => failAt .endOfString cs
  | _ + 1, [] => failAt .endOfString []
  | n + 1, c :: cs =>
    if c = '"' then .ok ((), cs)
    else if c = '\\' then (do skipEscape; skipString n : Scan Unit) cs
    else if c.toNat < 0x20 then failAt .controlCharacter (c :: cs)
    else skipString n cs

theorem skipString_quote (n : Nat) (cs : List Char) : skipString (n + 1) ('"' :: cs) = .ok ((), cs) := by
  rw [skipString, if_pos rfl]

/-! ### Words -/

/-- The rest of a word whose first letter was read. -/
def scanWord : List Char → Scan Unit
  | [], cs => .ok ((), cs)
  | _ :: _, [] => failAt .endOfValue []
  | w :: ws, c :: cs => if c = w then scanWord ws cs else failIn .wordExpected (c :: cs)

/-! ### Numbers -/

/-- A number: an integer that fits 64 bits, or a double. -/
inductive Number where
  | integer (value : Int)
  | double (value : Double)

def Number.found : Number → Found
  | integer value => .integer value
  | double value => .floating value.general

/-- Appends digits to a significand as long as it fits 64 bits; gives also the number of digits that
were left out. -/
def appendDigits : Nat → List Char → Nat × Nat
  | significand, [] => (significand, 0)
  | significand, c :: cs =>
    let longer := significand * 10 + (c.toNat - '0'.toNat)
    if longer < Nat.pow 2 64 then appendDigits longer cs else (significand, cs.length + 1)

/-- A power of ten as a double. -/
def tens (exponent : Nat) : Double := .ofRatio false ⟨Nat.pow 10 exponent, 1⟩

/-- Divides by ever more powers of ten, until the exponent is used up or nothing is left. -/
def divideTens : Nat → Double → Nat → Double
  | 0, x, _ => x
  | n + 1, x, exponent =>
    if exponent ≤ 308 then .ofRatio false (x.ratio.div (tens exponent).ratio)
    else if x.ratio.num = 0 then x
    else divideTens n (.ofRatio false (x.ratio.div (tens 308).ratio)) (exponent - 308)

/-- The double `significand · 10 ^ exponent`, unless it is too large. Significand, power and result
are each rounded. -/
def double? (significand : Nat) (exponent : Int) : Option Double :=
  let x := Double.ofRatio false ⟨significand, 1⟩
  if exponent < 0 then some (divideTens 4 x exponent.natAbs)
  else if 308 < exponent then if significand = 0 then some x else none
  else match Double.ofRatio false (x.ratio.mul (tens exponent.natAbs).ratio) with
    | .infinite _ => none
    | y => some y

/-- The double of a sign, a significand and an exponent, read up to the given place. -/
def scaled (negative : Bool) (significand : Nat) (exponent : Int) : Scan Number := fun rest =>
  match double? significand exponent with
  | some x => .ok (.double (if negative then x.negate else x), rest)
  | none => failAt .numberOutOfRange rest

/-- The digits of an exponent after the first: its value, or `none` with the text after the digit at
which it does not fit 32 bits any more. -/
def exponentDigits : Nat → List Char → Option Nat × List Char
  | value, [] => (some value, [])
  | value, c :: cs =>
    if c.isDigit then
      let longer := value * 10 + (c.toNat - '0'.toNat)
      if longer < Nat.pow 2 31 then exponentDigits longer cs else (none, cs)
    else (some value, c :: cs)

/-- The exponent of a number, after its letter. -/
def exponentPart (negative : Bool) (significand : Nat) (start : Int) : Scan Number := fun cs =>
  let (below, cs) := match cs with
    | '+' :: cs => (false, cs)
    | '-' :: cs => (true, cs)
    | cs => (false, cs)
  match cs with
  | [] => failAt .endOfValue []
  | c :: cs' =>
    if c.isDigit then
      match exponentDigits (c.toNat - '0'.toNat) cs' with
      | (some size, rest) =>
        scaled negative significand (if below then start - size else start + size) rest
      | (none, rest) =>
        if significand != 0 && !below then failAt .numberOutOfRange rest
        else scaled negative 0 0 (rest.dropWhile Char.isDigit)
    else failIn .invalidNumber cs

/-- The fraction of a number, after its point. -/
def fractionPart (negative : Bool) (significand : Nat) (start : Int) : Scan Number := fun cs =>
  let digits := cs.takeWhile Char.isDigit
  let rest := cs.dropWhile Char.isDigit
  let (longer, dropped) := appendDigits significand digits
  let exponent : Int := start - (digits.length - dropped : Nat)
  if digits.isEmpty then
    if rest.isEmpty then failAt .endOfValue [] else failIn .invalidNumber rest
  else match rest with
    | 'e' :: rest | 'E' :: rest => exponentPart negative longer exponent rest
    | rest => scaled negative longer exponent rest

/-- What follows the digits of the whole part, of which some may not fit the significand. -/
def afterWhole (negative : Bool) (significand dropped : Nat) : Scan Number := fun cs =>
  match cs with
  | '.' :: rest => fractionPart negative significand dropped rest
  | 'e' :: rest | 'E' :: rest => exponentPart negative significand dropped rest
  | rest =>
    if dropped != 0 then scaled negative significand dropped rest
    else if !negative then .ok (.integer significand, rest)
    else if significand = 0 || Nat.pow 2 63 < significand then scaled true significand 0 rest
    else .ok (.integer (-significand), rest)

/-- A number, after its sign. -/
def scanNumber (negative : Bool) : Scan Number
  | [] => failAt .endOfValue []
  | '0' :: cs =>
    if (cs.head?.map Char.isDigit).getD false then failIn .invalidNumber cs
    else afterWhole negative 0 0 cs
  | c :: cs =>
    if c.isDigit then
      let (significand, dropped) := appendDigits 0 ((c :: cs).takeWhile Char.isDigit)
      afterWhole negative significand dropped ((c :: cs).dropWhile Char.isDigit)
    else failIn .invalidNumber (c :: cs)

/-- Passes over the exponent of a number, after its letter. -/
def skipExponent : Scan Unit := fun cs =>
  let cs := match cs with
    | '+' :: cs | '-' :: cs => cs
    | cs => cs
  match cs with
  | c :: _ => if c.isDigit then .ok ((), cs.dropWhile Char.isDigit) else failIn .invalidNumber cs
  | [] => failAt .invalidNumber []

/-- Passes over what follows the whole part of a number. -/
def skipAfterWhole : Scan Unit
  | '.' :: cs =>
    match cs.takeWhile Char.isDigit, cs.dropWhile Char.isDigit with
    | [], rest => failIn .invalidNumber rest
    | _, 'e' :: rest | _, 'E' :: rest => skipExponent rest
    | _, rest => .ok ((), rest)
  | 'e' :: cs | 'E' :: cs => skipExponent cs
  | cs => .ok ((), cs)

/-- Passes over a number, after its sign. -/
def skipNumber : Scan Unit
  | [] => failAt .invalidNumber []
  | '0' :: cs =>
    if (cs.head?.map Char.isDigit).getD false then failIn .invalidNumber cs
    else skipAfterWhole cs
  | c :: cs =>
    if c.isDigit then skipAfterWhole (cs.dropWhile Char.isDigit)
    else failIn .invalidNumber (c :: cs)

end ApiSurface.Json
