/-! Places in a text by the number of bytes before them. A number of bytes need not be a place: it may be
larger than the text, or lie within a character. -/

namespace ApiSurface.Text

/-- The number of bytes of a text. -/
def byteLength : List Char → Nat
  | [] => 0
  | c :: cs => c.utf8Size + byteLength cs

/-- The bytes before the last character of a class. -/
def lastOffset? (p : Char → Bool) : List Char → Option Nat
  | [] => none
  | c :: cs => match lastOffset? p cs with
    | some offset => some (c.utf8Size + offset)
    | none => if p c then some 0 else none

/-- A text cut at a number of bytes, if that is a place in it. -/
def cut? : Nat → List Char → Option (List Char × List Char)
  | 0, cs => some ([], cs)
  | _ + 1, [] => none
  | n + 1, c :: cs =>
    if c.utf8Size ≤ n + 1 then
      (cut? (n + 1 - c.utf8Size) cs).map fun (before, after) => (c :: before, after)
    else none

/-- The part of a text from a number of bytes on. -/
def from? (offset : Nat) (cs : List Char) : Option (List Char) := (cut? offset cs).map Prod.snd

/-- The part of a text up to a number of bytes. -/
def upTo? (offset : Nat) (cs : List Char) : Option (List Char) := (cut? offset cs).map Prod.fst

end ApiSurface.Text
