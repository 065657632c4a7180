import ApiSurface.Toml.Document
import ApiSurface.Proofs.TomlTokens

/-! The strings of TOML that stand on one line, and its keys, as they are written. What each form stands
for is said here, and that the readers agree. -/

namespace ApiSurface.Toml

open Scan

namespace Scan

variable {p : Char → Bool} {read : Scan (List Char)}

theorem run_of_stops {cs : List Char} (h : Stops p cs) : run p read cs = read cs := by
  have htake : takeWhile p ([] ++ cs) = some ([], cs) := takeWhile_append (by simp) h
  rw [List.nil_append] at htake
  rw [run, bind_of_some htake]
  cases hread : read cs with
  | none => exact bind_of_none hread _
  | some result => exact bind_of_some hread _

theorem run_cons {c : Char} {cs xs rest : List Char} (hc : p c = true)
    (h : run p read cs = some (xs, rest)) : run p read (c :: cs) = some (c :: xs, rest) := by
  have htake : takeWhile p (c :: cs) = some (c :: cs.takeWhile p, cs.dropWhile p) := by
    rw [takeWhile, List.takeWhile_cons_of_pos hc, List.dropWhile_cons_of_pos hc]
  rw [run, bind_of_some (rfl : takeWhile p cs = some (cs.takeWhile p, cs.dropWhile p))] at h
  rw [run, bind_of_some htake]
  cases hread : read (cs.dropWhile p) with
  | none =>
      rw [bind_of_none hread] at h
      cases h
  | some result =>
      rw [bind_of_some hread] at h ⊢
      cases h
      rfl

end Scan

/-! ### Escapes -/

/-- The escapes of a backslash and a letter. -/
inductive Short where
  | backspace
  | tab
  | newline
  | formFeed
  | carriageReturn
  | quote
  | backslash

def Short.letter : Short → Char
  | backspace => 'b'
  | tab => 't'
  | newline => 'n'
  | formFeed => 'f'
  | carriageReturn => 'r'
  | quote => '"'
  | backslash => '\\'

/-- The character that the escape stands for. -/
def Short.char : Short → Char
  | backspace => '\x08'
  | tab => '\t'
  | newline => '\n'
  | formFeed => '\x0c'
  | carriageReturn => '\r'
  | quote => '"'
  | backslash => '\\'

/-- The hexadecimal digits of the code of a character. -/
structure Code (length : Nat) where
  digits : List Char
  length_digits : digits.length = length
  isHex : ∀ c ∈ digits, (hexValue? c).isSome = true
  isChar : (digitsValue 16 digits).isValidChar

def Code.char {length : Nat} (u : Code length) : Char :=
  Char.ofNat (digitsValue 16 u.digits)

/-- An escape, after its backslash. -/
inductive Escape where
  | short (s : Short)
  | code (u : Code 4)
  | longCode (u : Code 8)

namespace Escape

def text : Escape → List Char
  | short s => [s.letter]
  | code u => 'u' :: u.digits
  | longCode u => 'U' :: u.digits

/-- The character that the escape stands for. -/
def char : Escape → Char
  | short s => s.char
  | code u => u.char
  | longCode u => u.char

end Escape

theorem hexDigits_append {digits : List Char} (h : ∀ c ∈ digits, (hexValue? c).isSome = true) (value : Nat)
    (rest : List Char) :
    hexDigits digits.length value (digits ++ rest) =
      some (digits.foldl (fun value c => value * 16 + (hexValue? c).getD 0) value, rest) := by
  induction digits generalizing value with
  | nil => rfl
  | cons c digits ih =>
      obtain ⟨d, hd⟩ := Option.isSome_iff_exists.mp (h c List.mem_cons_self)
      have hrest := ih (fun c hc => h c (List.mem_cons_of_mem _ hc)) (value * 16 + d)
      rw [List.foldl_cons, hd, Option.getD_some, ← hrest]
      change (hexValue? c).bind _ = _
      rw [hd]
      rfl

theorem codePoint_digits {length : Nat} (u : Code length) (rest : List Char) :
    codePoint length (u.digits ++ rest) = some (u.char, rest) := by
  have hread : hexDigits length 0 (u.digits ++ rest) = some (digitsValue 16 u.digits, rest) := by
    have hdigits := hexDigits_append u.isHex 0 rest
    rwa [u.length_digits] at hdigits
  have hchar := u.isChar
  rw [codePoint, bind_of_some hread, if_pos]
  · rfl
  · simpa [Nat.isValidChar] using hchar

theorem escaped_text (e : Escape) (rest : List Char) : escaped (e.text ++ rest) = some (e.char, rest) := by
  cases e with
  | short s => cases s <;> rfl
  | code u => exact codePoint_digits u rest
  | longCode u => exact codePoint_digits u rest

/-! ### Strings on one line -/

/-- A character of a string in double quotes, as it is written. -/
inductive Mark where
  | plain (c : Char) (hc : isBasicChar c = true)
  | escape (e : Escape)

namespace Mark

def text : Mark → List Char
  | plain c _ => [c]
  | escape e => '\\' :: e.text

def char : Mark → Char
  | plain c _ => c
  | escape e => e.char

end Mark

def marksText (marks : List Mark) : List Char :=
  marks.flatMap Mark.text

theorem basicBody_marks (marks : List Mark) (rest : List Char) :
    ∀ n, (marksText marks).length ≤ n →
      basicBody (n + 1) (marksText marks ++ '"' :: rest) = some (marks.map Mark.char, rest) := by
  induction marks with
  | nil =>
      intro n _
      rw [basicBody, marksText, List.flatMap_nil, List.nil_append, run_of_stops (stops_cons.mpr rfl),
        bind_of_some (accept_self _ _)]
      rfl
  | cons m marks ih =>
      intro n hn
      have htext : marksText (m :: marks) = m.text ++ marksText marks := rfl
      rw [htext, List.length_append] at hn
      rw [htext, List.append_assoc]
      cases m with
      | plain c hc =>
          have hread := ih n (by omega)
          rw [basicBody] at hread ⊢
          exact run_cons hc hread
      | escape e =>
          have hlength : 1 ≤ (Mark.escape e).text.length := by simp [Mark.text]
          obtain ⟨k, rfl⟩ : ∃ k, n = k + 1 := ⟨n - 1, by omega⟩
          have hread := ih k (by omega)
          rw [basicBody, Mark.text, List.cons_append, run_of_stops (stops_cons.mpr rfl),
            bind_of_some (accept_of_ne (by simp)), if_neg Bool.false_ne_true,
            bind_of_some (expect_self _ _), bind_of_some (escaped_text e _), bind_of_some hread]
          rfl

/-- The characters of a string in single quotes. -/
abbrev Literal : Type := { cs : List Char // ∀ c ∈ cs, isLiteralChar c = true }

theorem literalBody_text (l : Literal) (rest : List Char) :
    literalBody (l.1 ++ '\'' :: rest) = some (l.1, rest) := by
  rw [literalBody, bind_of_some (takeWhile_append l.2 (stops_cons.mpr rfl)),
    bind_of_some (expect_self _ _)]
  rfl

/-- A string on one line, with its quotes. -/
inductive LineString where
  | basic (marks : List Mark)
  | literal (l : Literal)

namespace LineString

def text : LineString → List Char
  | basic marks => '"' :: (marksText marks ++ ['"'])
  | literal l => '\'' :: (l.1 ++ ['\''])

/-- What the string stands for. -/
def value : LineString → String
  | basic marks => String.ofList (marks.map Mark.char)
  | literal l => String.ofList l.1

end LineString

theorem lineString_text (s : LineString) (rest : List Char) :
    lineString (s.text ++ rest) = some (s.value, rest) := by
  cases s with
  | basic marks =>
      have hbody := basicBody_marks marks rest (marksText marks ++ '"' :: rest).length (by simp)
      have htext : (LineString.basic marks).text ++ rest = '"' :: (marksText marks ++ '"' :: rest) := by
        simp [LineString.text]
      rw [htext, lineString, bind_of_some (accept_self _ _), if_pos rfl, get_bind, bind_of_some hbody]
      rfl
  | literal l =>
      have htext : (LineString.literal l).text ++ rest = '\'' :: (l.1 ++ '\'' :: rest) := by
        simp [LineString.text]
      rw [htext, lineString, bind_of_some (accept_of_ne (by simp)), if_neg Bool.false_ne_true,
        bind_of_some (expect_self _ _), bind_of_some (literalBody_text l rest)]
      rfl

/-! ### Keys -/

/-- A part of a dotted key. -/
inductive KeyPart where
  | bare (name : List Char) (hne : name ≠ []) (hname : ∀ c ∈ name, isBareChar c = true)
  | quoted (s : LineString)

namespace KeyPart

def text : KeyPart → List Char
  | bare name _ _ => name
  | quoted s => s.text

/-- What the part stands for. -/
def name : KeyPart → String
  | bare name _ _ => String.ofList name
  | quoted s => s.value

end KeyPart

theorem keyPart_text (p : KeyPart) {rest : List Char} (hrest : Stops isBareChar rest) :
    keyPart (p.text ++ rest) = some (p.name, rest) := by
  cases p with
  | bare name hne hname =>
      obtain ⟨c, cs, rfl⟩ := List.exists_cons_of_ne_nil hne
      have hc := hname c List.mem_cons_self
      have hread : (do
          let name ← takeWhile isBareChar
          if name.isEmpty then failure
          return String.ofList name : Scan String) (c :: cs ++ rest) =
            some (String.ofList (c :: cs), rest) := by
        rw [bind_of_some (takeWhile_append hname hrest)]
        rfl
      rw [keyPart, KeyPart.text, KeyPart.name, peek_bind, ← hread]
      refine congrFun ?_ _
      rw [List.cons_append, List.head?_cons]
      split
      case h_3 => rfl
      all_goals
        rename_i heq
        cases heq
        cases hc
  | quoted s =>
      have hread := lineString_text s rest
      rw [keyPart, peek_bind]
      cases s with
      | basic marks => exact hread
      | literal l => exact hread

/-- A dotted key, with the blanks after each of its parts and before the next. -/
inductive DottedKey where
  | last (p : KeyPart) (after : Blanks)
  | more (p : KeyPart) (after before : Blanks) (rest : DottedKey)

namespace DottedKey

def text : DottedKey → List Char
  | last p after => p.text ++ after.1
  | more p after before rest => p.text ++ (after.1 ++ '.' :: (before.1 ++ rest.text))

/-- The number of its parts. -/
def parts : DottedKey → Nat
  | last .. => 1
  | more _ _ _ rest => rest.parts + 1

def names : DottedKey → List String
  | last p _ => [p.name]
  | more p _ _ rest => p.name :: rest.names

/-- The parts but for the last, if so many characters follow the key. -/
def path (following : Nat) : DottedKey → List Key
  | last .. => []
  | more p after before rest =>
    let left := (after.1 ++ '.' :: (before.1 ++ rest.text)).length + following
    ⟨p.name, ⟨p.text.length + left, left⟩⟩ :: rest.path following

/-- The last of the parts, if so many characters follow the key. -/
def final (following : Nat) : DottedKey → Key
  | last p after =>
    let left := after.1.length + following
    ⟨p.name, ⟨p.text.length + left, left⟩⟩
  | more _ _ _ rest => rest.final following

theorem map_name_path_append (k : DottedKey) (following : Nat) :
    (k.path following ++ [k.final following]).map Key.name = k.names := by
  induction k with
  | last p after => rfl
  | more p after before rest ih => exact congrArg (p.name :: ·) ih

end DottedKey

/-- A key is followed by one of these. -/
def IsKeyEnd (c : Char) : Prop :=
  c = '=' ∨ c = ']'

/-- The characters with which a key can begin. -/
def isKeyStart (c : Char) : Bool :=
  isBareChar c || c = '"' || c = '\''

theorem isBlank_of_isKeyStart {c : Char} (hc : isKeyStart c = true) : isBlank c = false := by
  refine Bool.eq_false_iff.mpr fun hblank => ?_
  have hcases : c = ' ' ∨ c = '\t' := by simpa [isBlank] using hblank
  rcases hcases with rfl | rfl
  · cases hc
  · cases hc

theorem KeyPart.exists_text_eq_cons (p : KeyPart) : ∃ c cs, p.text = c :: cs ∧ isKeyStart c = true := by
  match p with
  | .bare (c :: cs) _ hname => exact ⟨c, cs, rfl, by simp [isKeyStart, hname c List.mem_cons_self]⟩
  | .quoted (.basic marks) => exact ⟨'"', _, rfl, rfl⟩
  | .quoted (.literal l) => exact ⟨'\'', _, rfl, rfl⟩

theorem DottedKey.exists_text_eq_cons (k : DottedKey) : ∃ c cs, k.text = c :: cs ∧ isKeyStart c = true := by
  cases k with
  | last p after =>
      obtain ⟨c, cs, htext, hc⟩ := p.exists_text_eq_cons
      exact ⟨c, _, by rw [DottedKey.text, htext]; rfl, hc⟩
  | more p after before rest =>
      obtain ⟨c, cs, htext, hc⟩ := p.exists_text_eq_cons
      exact ⟨c, _, by rw [DottedKey.text, htext]; rfl, hc⟩

theorem KeyPart.stops_blank (p : KeyPart) (rest : List Char) : Stops isBlank (p.text ++ rest) := by
  obtain ⟨c, cs, htext, hc⟩ := p.exists_text_eq_cons
  rw [htext]
  exact stops_cons.mpr (isBlank_of_isKeyStart hc)

theorem IsKeyEnd.stops {c : Char} (hc : IsKeyEnd c) (rest : List Char) {p : Char → Bool}
    (hequals : p '=' = false) (hbracket : p ']' = false) : Stops p (c :: rest) := by
  rcases hc with rfl | rfl
  · exact stops_cons.mpr hequals
  · exact stops_cons.mpr hbracket

/-- The first part of a key is read, with its place. -/
theorem keyParts_part (before : Blanks) (p : KeyPart) (after : Blanks) {cs : List Char}
    (hbare : Stops isBareChar cs) (hblank : Stops isBlank cs) (n : Nat) :
    keyParts (n + 1) (before.1 ++ (p.text ++ (after.1 ++ cs))) =
      (do
        let key : Key := ⟨p.name, ⟨p.text.length + (after.1 ++ cs).length, (after.1 ++ cs).length⟩⟩
        if ← accept '.' then return key :: (← keyParts n)
        else return [key] : Scan (List Key)) cs := by
  have hpart := spanned_of_some (keyPart_text p (blanks_stops after rfl rfl hbare))
  rw [keyParts, bind_of_some (blanks_text before (p.stops_blank _)), bind_of_some hpart]
  exact bind_of_some (blanks_text after hblank) _

/-- A key is read part by part, with the place of each part. -/
theorem keyParts_text (k : DottedKey) {c : Char} (hc : IsKeyEnd c) (rest : List Char) :
    ∀ (before : Blanks) (n : Nat), k.parts ≤ n →
      keyParts n (before.1 ++ (k.text ++ c :: rest)) =
        some (k.path (c :: rest).length ++ [k.final (c :: rest).length], c :: rest) := by
  have hpoint : (c :: rest).head? ≠ some '.' := fun heq => by
    have hstop := hc.stops rest (p := fun c => c = '.') rfl rfl '.' heq
    simp at hstop
  induction k with
  | last p after =>
      intro before n hn
      obtain ⟨m, rfl⟩ : ∃ m, n = m + 1 := ⟨n - 1, by simp only [DottedKey.parts] at hn; omega⟩
      rw [DottedKey.text, List.append_assoc,
        keyParts_part before p after (hc.stops rest rfl rfl) (hc.stops rest rfl rfl),
        bind_of_some (accept_of_ne hpoint), List.length_append]
      rfl
  | more p after before' k ih =>
      intro before n hn
      obtain ⟨m, rfl⟩ : ∃ m, n = m + 1 := ⟨n - 1, by simp only [DottedKey.parts] at hn; omega⟩
      have htext : (DottedKey.more p after before' k).text ++ c :: rest =
          p.text ++ (after.1 ++ '.' :: (before'.1 ++ (k.text ++ c :: rest))) := by
        simp [DottedKey.text]
      have hlength : (after.1 ++ '.' :: (before'.1 ++ (k.text ++ c :: rest))).length =
          (after.1 ++ '.' :: (before'.1 ++ k.text)).length + (c :: rest).length := by
        simp only [List.length_append, List.length_cons]
        omega
      have hrest := ih before' m (by simp only [DottedKey.parts] at hn; omega)
      rw [htext, keyParts_part before p after (stops_cons.mpr rfl) (stops_cons.mpr rfl),
        bind_of_some (accept_self _ _), if_pos rfl, bind_of_some hrest, hlength]
      rfl

theorem splitLast_append (path : List Key) (last : Key) : splitLast (path ++ [last]) = some (path, last) := by
  induction path with
  | nil => rfl
  | cons k path ih => rw [List.cons_append, splitLast, ih]

end ApiSurface.Toml
