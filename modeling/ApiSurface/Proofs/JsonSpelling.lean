import ApiSurface.Proofs.JsonReading

/-! JSON as it is written, by whomever: a value together with the white space between its tokens, the
escapes of its strings and the digits of its numbers, so that every JSON text is the text of one of
these. What a string stands for is said here too, and that both readers of strings, the one that wants
to know and the one that passes over them, agree with it. -/

namespace ApiSurface.Json

/-! ### White space -/

instance (cs : List Char) : Decidable (Blank cs) :=
  decidable_of_iff (cs.all fun c => decide (IsBlank c)) (by simp [Blank])

/-- White space, or nothing. -/
abbrev Gap : Type := { b : List Char // Blank b }

/-- Something with white space around it. -/
structure Padded (α : Type) where
  before : Gap
  body : α
  after : Gap

/-! ### Strings as they are written -/

/-- The escapes of a backslash and a letter. -/
inductive Short where
  | quote
  | backslash
  | slash
  | backspace
  | formFeed
  | newline
  | carriageReturn
  | tab

def Short.letter : Short → Char
  | quote => '"'
  | backslash => '\\'
  | slash => '/'
  | backspace => 'b'
  | formFeed => 'f'
  | newline => 'n'
  | carriageReturn => 'r'
  | tab => 't'

/-- The character that the escape stands for. -/
def Short.char : Short → Char
  | quote => '"'
  | backslash => '\\'
  | slash => '/'
  | backspace => '\x08'
  | formFeed => '\x0c'
  | newline => '\n'
  | carriageReturn => '\r'
  | tab => '\t'

/-- A hexadecimal digit in either case. -/
structure HexDigit where
  value : Fin 16
  upper : Bool

def HexDigit.char (d : HexDigit) : Char :=
  if d.upper then (Nat.digitChar d.value).toUpper else Nat.digitChar d.value

/-- The four digits of a code. -/
structure Code where
  first : HexDigit
  second : HexDigit
  third : HexDigit
  fourth : HexDigit

namespace Code

def value (u : Code) : Nat :=
  ((u.first.value * 16 + u.second.value) * 16 + u.third.value) * 16 + u.fourth.value

def digits (u : Code) : List Char :=
  [u.first.char, u.second.char, u.third.char, u.fourth.char]

def IsHigh (u : Code) : Prop :=
  0xD800 ≤ u.value ∧ u.value ≤ 0xDBFF

def IsLow (u : Code) : Prop :=
  0xDC00 ≤ u.value ∧ u.value ≤ 0xDFFF

instance (u : Code) : Decidable u.IsHigh :=
  inferInstanceAs (Decidable (_ ∧ _))

instance (u : Code) : Decidable u.IsLow :=
  inferInstanceAs (Decidable (_ ∧ _))

end Code

/-- A character that may stand for itself. -/
def Plain (c : Char) : Prop :=
  c ≠ '"' ∧ c ≠ '\\' ∧ 0x20 ≤ c.toNat

instance (c : Char) : Decidable (Plain c) :=
  inferInstanceAs (Decidable (_ ∧ _))

/-- A piece of a string as it is written. -/
inductive Mark where
  | plain (c : Char) (hc : Plain c)
  | short (s : Short)
  | code (u : Code)

def Mark.text : Mark → List Char
  | plain c _ => [c]
  | short s => ['\\', s.letter]
  | code u => '\\' :: 'u' :: u.digits

/-- The characters that the pieces of a string stand for. A character beyond the basic plane has the
codes of two surrogates, and a surrogate alone stands for nothing. -/
def characters : List Mark → Option (List Char)
  | [] => some []
  | .plain c _ :: marks => (characters marks).map (c :: ·)
  | .short s :: marks => (characters marks).map (s.char :: ·)
  | .code u :: marks =>
    if u.IsHigh then
      match marks with
      | .code v :: marks =>
        if v.IsLow then
          (characters marks).map
            (Char.ofNat (0x10000 + (u.value - 0xD800) * 0x400 + (v.value - 0xDC00)) :: ·)
        else none
      | _ => none
    else if u.IsLow then none
    else (characters marks).map (Char.ofNat u.value :: ·)

def string? (marks : List Mark) : Option String :=
  (characters marks).map String.ofList

def quoted (marks : List Mark) : List Char :=
  '"' :: (marks.flatMap Mark.text ++ ['"'])

/-! ### Numbers as they are written -/

/-- One decimal digit or more. -/
structure Digits where
  text : List Char
  ne_nil : text ≠ []
  isDigit : text.all Char.isDigit = true

structure Exponent where
  upper : Bool
  sign : Option Bool
  digits : Digits

/-- The exponent after its letter. -/
def Exponent.size (e : Exponent) : List Char :=
  match e.sign with
  | none => e.digits.text
  | some false => '+' :: e.digits.text
  | some true => '-' :: e.digits.text

def Exponent.text (e : Exponent) : List Char :=
  (if e.upper then 'E' else 'e') :: e.size

/-- A number; no zero leads other digits. -/
structure Numeral where
  negative : Bool
  whole : Digits
  leading : whole.text.head? = some '0' → whole.text = ['0']
  fraction : Option Digits
  exponent : Option Exponent

namespace Numeral

def tail (n : Numeral) : List Char :=
  (n.fraction.elim [] fun d => '.' :: d.text) ++ n.exponent.elim [] Exponent.text

def unsigned (n : Numeral) : List Char :=
  n.whole.text ++ n.tail

def text (n : Numeral) : List Char :=
  if n.negative then '-' :: n.unsigned else n.unsigned

end Numeral

/-! ### Values as they are written -/

/-- A JSON value as it is written: any white space, any escapes, any numbers, any depth. -/
inductive Spelling where
  | null
  | boolean (value : Bool)
  | number (n : Numeral)
  | string (marks : List Mark)
  | array (items : List (Padded Spelling)) (gap : Gap)
  | object (fields : List (Padded (List Mark) × Padded Spelling)) (gap : Gap)

abbrev Item : Type := Padded Spelling

abbrev Field : Type := Padded (List Mark) × Padded Spelling

/-- What stands before a part but for white space. -/
def separator (first : Bool) : List Char :=
  if first then [] else [',']

mutual

def Spelling.text : Spelling → List Char
  | .null => ['n', 'u', 'l', 'l']
  | .boolean true => ['t', 'r', 'u', 'e']
  | .boolean false => ['f', 'a', 'l', 's', 'e']
  | .number n => n.text
  | .string marks => quoted marks
  | .array items gap => '[' :: (itemsText true items ++ (gap.1 ++ [']']))
  | .object fields gap => '\x7b' :: (fieldsText true fields ++ (gap.1 ++ ['\x7d']))

def spacedText : Padded Spelling → List Char
  | ⟨before, body, after⟩ => before.1 ++ (body.text ++ after.1)

def itemsText (first : Bool) : List Item → List Char
  | [] => []
  | item :: items => separator first ++ (spacedText item ++ itemsText false items)

def fieldText : Field → List Char
  | (name, value) => name.before.1 ++ (quoted name.body ++ (name.after.1 ++ ':' :: spacedText value))

def fieldsText (first : Bool) : List Field → List Char
  | [] => []
  | field :: fields => separator first ++ (fieldText field ++ fieldsText false fields)

end

theorem string_text (marks : List Mark) (rest : List Char) :
    (Spelling.string marks).text ++ rest = '"' :: (marks.flatMap Mark.text ++ '"' :: rest) := by
  simp [Spelling.text, quoted]

/-! ### What a reader makes of a text -/

/-- The reader gives the results with the property, if there are any, and leaves the rest. -/
def Reads {α : Type} (r : Scan α) (cs : List Char) (P : α → Prop) (rest : List Char) : Prop :=
  ∀ a ds, r cs = .ok (a, ds) ↔ P a ∧ ds = rest

/-- The reader gives no result. -/
def Fails {α : Type} (r : Scan α) (cs : List Char) : Prop :=
  ∀ a ds, r cs ≠ .ok (a, ds)

section

variable {α β : Type} {r : Scan α} {k : α → Scan β} {cs ds rest : List Char} {P : α → Prop}

theorem bind_eq_ok {b : β} :
    (r >>= k) cs = .ok (b, ds) ↔ ∃ a es, r cs = .ok (a, es) ∧ k a es = .ok (b, ds) := by
  change Except.bind (r cs) _ = _ ↔ _
  cases r cs with
  | error fault => simp [Except.bind]
  | ok result =>
      obtain ⟨a, es⟩ := result
      simp [Except.bind]

theorem fails_stop (cause : Cause) (cs : List Char) : Fails (stop cause : Scan α) cs := by
  intro a ds h
  cases h

theorem Fails.bind (h : Fails r cs) (k : α → Scan β) : Fails (r >>= k) cs := by
  intro b ds hok
  rw [bind_eq_ok] at hok
  obtain ⟨a, es, hr, -⟩ := hok
  exact h a es hr

theorem fails_bind (h : ∀ a es, Fails (k a) es) (cs : List Char) : Fails (r >>= k) cs := by
  intro b ds hok
  rw [bind_eq_ok] at hok
  obtain ⟨a, es, -, hk⟩ := hok
  exact h a es b ds hk

theorem Reads.of_ok {a : α} (h : r cs = .ok (a, rest)) : Reads r cs (· = a) rest := by
  intro b ds
  rw [h]
  simp [eq_comm]

theorem reads_pure (a : α) (rest : List Char) : Reads (pure a) rest (· = a) rest :=
  Reads.of_ok rfl

theorem Reads.of_fails (h : Fails r cs) (hP : ∀ a, ¬P a) : Reads r cs P rest := by
  intro a ds
  exact iff_of_false (h a ds) fun hread => hP a hread.1

theorem Reads.of_eq {r' : Scan α} {cs' : List Char} (h : Reads r' cs' P rest) (heq : r cs = r' cs') :
    Reads r cs P rest := by
  intro a ds
  rw [heq, h a ds]

theorem Reads.congr {Q : α → Prop} (h : Reads r cs P rest) (hPQ : ∀ a, P a ↔ Q a) :
    Reads r cs Q rest := by
  intro a ds
  rw [h a ds, hPQ]

theorem Reads.bind {mid : List Char} {Q : α → β → Prop} (h : Reads r cs P mid)
    (hk : ∀ a, P a → Reads (k a) mid (Q a) rest) :
    Reads (r >>= k) cs (fun b => ∃ a, P a ∧ Q a b) rest := by
  intro b ds
  rw [bind_eq_ok]
  constructor
  · rintro ⟨a, es, hr, hb⟩
    obtain ⟨hP, rfl⟩ := (h a es).mp hr
    obtain ⟨hQ, hds⟩ := (hk a hP b ds).mp hb
    exact ⟨⟨a, hP, hQ⟩, hds⟩
  · rintro ⟨⟨a, hP, hQ⟩, hds⟩
    exact ⟨a, mid, (h a mid).mpr ⟨hP, rfl⟩, (hk a hP b ds).mpr ⟨hQ, hds⟩⟩

theorem Reads.map (h : Reads r cs P rest) (f : α → β) :
    Reads (do return f (← r)) cs (fun b => ∃ a, P a ∧ b = f a) rest :=
  h.bind fun a _ => reads_pure (f a) rest

end

/-! ### Strings that are passed over -/

theorem simpleEscape?_letter (s : Short) : simpleEscape? s.letter = some s.char := by
  cases s <;> rfl

theorem hexValue?_char (d : HexDigit) : hexValue? d.char = some d.value.val := by
  obtain ⟨value, upper⟩ := d
  revert value upper
  decide

theorem hexEscape_digits (u : Code) (cs : List Char) :
    hexEscape (u.digits ++ cs) = .ok (u.value, cs) := by
  change hexEscape (u.first.char :: u.second.char :: u.third.char :: u.fourth.char :: cs) = _
  rw [hexEscape, if_neg (byteLength_four _ _ _ _ _)]
  simp only [hexValue?_char]
  rfl

theorem skipString_mark (n : Nat) (m : Mark) (cs : List Char) :
    skipString (n + 1) (m.text ++ cs) = skipString n cs := by
  cases m with
  | plain c hc =>
      obtain ⟨hquote, hback, hcontrol⟩ := hc
      change skipString (n + 1) (c :: cs) = _
      rw [skipString, if_neg hquote, if_neg hback, if_neg (by omega)]
  | short s =>
      have hescape : skipEscape (s.letter :: cs) = .ok ((), cs) := by
        cases s <;> rfl
      change skipString (n + 1) ('\\' :: s.letter :: cs) = _
      rw [skipString, if_neg (by decide), if_pos rfl, bind_of_ok hescape]
  | code u =>
      have hescape : skipEscape ('u' :: (u.digits ++ cs)) = .ok ((), cs) := by
        rw [skipEscape, bind_of_ok (hexEscape_digits u cs)]
        rfl
      change skipString (n + 1) ('\\' :: 'u' :: (u.digits ++ cs)) = _
      rw [skipString, if_neg (by decide), if_pos rfl, bind_of_ok hescape]

theorem length_le_flatMap_text (marks : List Mark) :
    marks.length ≤ (marks.flatMap Mark.text).length := by
  induction marks with
  | nil => exact Nat.le_refl 0
  | cons m marks ih =>
      have hpos : 0 < m.text.length := by
        cases m <;> exact Nat.succ_pos _
      rw [List.flatMap_cons, List.length_append, List.length_cons]
      omega

theorem skipString_marks (marks : List Mark) (rest : List Char) {n : Nat} (hn : marks.length < n) :
    skipString n (marks.flatMap Mark.text ++ '"' :: rest) = .ok ((), rest) := by
  induction marks generalizing n with
  | nil =>
      obtain ⟨m, rfl⟩ : ∃ m, n = m + 1 := ⟨n - 1, by omega⟩
      rw [List.flatMap_nil, List.nil_append, skipString_quote]
  | cons mark marks ih =>
      obtain ⟨m, rfl⟩ : ∃ m, n = m + 1 := ⟨n - 1, by omega⟩
      rw [List.flatMap_cons, List.append_assoc, skipString_mark]
      exact ih (by simpa using hn)

/-- A string is passed over whatever its escapes stand for. -/
theorem skipString_length (marks : List Mark) (rest : List Char) :
    skipString ((marks.flatMap Mark.text ++ '"' :: rest).length + 1)
      (marks.flatMap Mark.text ++ '"' :: rest) = .ok ((), rest) := by
  have hlength := length_le_flatMap_text marks
  refine skipString_marks marks rest ?_
  rw [List.length_append]
  omega

/-! ### Strings that are asked for -/

theorem not_isLow_of_isHigh {u : Code} (hhigh : u.IsHigh) : ¬u.IsLow := by
  simp only [Code.IsHigh, Code.IsLow] at *
  omega

theorem codeEscape_basic {u : Code} (hhigh : ¬u.IsHigh) (hlow : ¬u.IsLow) (cs : List Char) :
    codeEscape (u.digits ++ cs) = .ok (Char.ofNat u.value, cs) := by
  rw [codeEscape, bind_of_ok (hexEscape_digits u cs), if_neg (by simpa [Code.IsLow] using hlow),
    if_neg (by simpa [Code.IsHigh] using hhigh)]
  rfl

theorem codeEscape_low {u : Code} (hlow : u.IsLow) (cs : List Char) :
    Fails codeEscape (u.digits ++ cs) := by
  intro c ds
  rw [codeEscape, bind_of_ok (hexEscape_digits u cs), if_pos (by simpa [Code.IsLow] using hlow)]
  exact fails_stop _ _ c ds

theorem codeEscape_high {u : Code} (hhigh : u.IsHigh) (cs : List Char) :
    codeEscape (u.digits ++ cs) = (do
      surrogateMark '\\'
      surrogateMark 'u'
      let low ← hexEscape
      if low < 0xDC00 || 0xDFFF < low then
        stop .loneSurrogate
      else
        return Char.ofNat (0x10000 + (u.value - 0xD800) * 0x400 + (low - 0xDC00)) : Scan Char) cs := by
  have hlow := not_isLow_of_isHigh hhigh
  rw [codeEscape, bind_of_ok (hexEscape_digits u cs), if_neg (by simpa [Code.IsLow] using hlow),
    if_pos (by simpa [Code.IsHigh] using hhigh)]

theorem surrogateMark_self (mark : Char) (cs : List Char) :
    surrogateMark mark (mark :: cs) = .ok ((), cs) := by
  rw [surrogateMark, if_pos rfl]

theorem surrogateMark_of_ne {mark c : Char} (h : c ≠ mark) (cs : List Char) :
    Fails (surrogateMark mark) (c :: cs) := by
  intro a ds
  rw [surrogateMark, if_neg h]
  intro hok
  cases hok

theorem codeEscape_pair {u v : Code} (hhigh : u.IsHigh) (hlow : v.IsLow) (cs : List Char) :
    codeEscape (u.digits ++ '\\' :: 'u' :: (v.digits ++ cs)) =
      .ok (Char.ofNat (0x10000 + (u.value - 0xD800) * 0x400 + (v.value - 0xDC00)), cs) := by
  have hrange : ¬(decide (v.value < 0xDC00) || decide (0xDFFF < v.value)) = true := by
    simpa [Code.IsLow] using hlow
  rw [codeEscape_high hhigh, bind_of_ok (surrogateMark_self _ _),
    bind_of_ok (surrogateMark_self _ _), bind_of_ok (hexEscape_digits v cs), if_neg hrange]
  rfl

/-- A high surrogate that is not followed by a low one stands for nothing. -/
theorem codeEscape_alone {u : Code} (hhigh : u.IsHigh) {marks : List Mark} (rest : List Char)
    (hmarks : ∀ v marks', marks = .code v :: marks' → ¬v.IsLow) :
    Fails codeEscape (u.digits ++ (marks.flatMap Mark.text ++ '"' :: rest)) := by
  intro c ds
  rw [codeEscape_high hhigh]
  cases marks with
  | nil => exact (surrogateMark_of_ne (by decide) _).bind _ c ds
  | cons m marks =>
      rw [List.flatMap_cons, List.append_assoc]
      cases m with
      | plain d hd => exact (surrogateMark_of_ne hd.2.1 _).bind _ c ds
      | short s =>
          have hletter : s.letter ≠ 'u' := by cases s <;> decide
          change (surrogateMark '\\' >>= fun _ => _) ('\\' :: s.letter :: _) ≠ _
          rw [bind_of_ok (surrogateMark_self _ _)]
          exact (surrogateMark_of_ne hletter _).bind _ c ds
      | code v =>
          have hlow := hmarks v marks rfl
          have hrange : (decide (v.value < 0xDC00) || decide (0xDFFF < v.value)) = true := by
            simp only [Code.IsLow] at hlow
            simp
            omega
          change (surrogateMark '\\' >>= fun _ => _) ('\\' :: 'u' :: (v.digits ++ _)) ≠ _
          rw [bind_of_ok (surrogateMark_self _ _), bind_of_ok (surrogateMark_self _ _),
            bind_of_ok (hexEscape_digits v _), if_pos hrange]
          exact fails_stop _ _ c ds

/-- One more character is read before those of the rest of the string. -/
theorem Reads.cons_character {r : Scan (List Char)} {cs rest : List Char} {values : Option (List Char)}
    (h : Reads r cs (values = some ·) rest) (c : Char) :
    Reads (do return c :: (← r)) cs (values.map (c :: ·) = some ·) rest := by
  refine (h.map (c :: ·)).congr fun a => ?_
  rw [Option.map_eq_some_iff]
  exact exists_congr fun _ => and_congr_right fun _ => eq_comm

theorem stringBody_code (n : Nat) (u : Code) (marks : List Mark) (rest : List Char) :
    stringBody (n + 1) ((Mark.code u :: marks).flatMap Mark.text ++ '"' :: rest) =
      (do
        let c ← codeEscape
        return c :: (← stringBody n) : Scan (List Char))
        (u.digits ++ (marks.flatMap Mark.text ++ '"' :: rest)) := by
  rw [List.flatMap_cons, List.append_assoc]
  change stringBody (n + 1) ('\\' :: 'u' :: (u.digits ++ _)) = _
  rw [stringBody, if_neg (by decide), if_pos rfl]
  rfl

/-- One round reads one character. Where a code is no character, the whole string is none. -/
theorem reads_stringBody (marks : List Mark) (rest : List Char) {n : Nat} (hn : marks.length < n) :
    Reads (stringBody n) (marks.flatMap Mark.text ++ '"' :: rest) (characters marks = some ·) rest := by
  have hfails : ∀ (m : Nat) (u : Code) (marks : List Mark),
      Fails codeEscape (u.digits ++ (marks.flatMap Mark.text ++ '"' :: rest)) →
      Reads (stringBody (m + 1)) ((Mark.code u :: marks).flatMap Mark.text ++ '"' :: rest)
        (none = some ·) rest :=
    fun m u marks h => (Reads.of_fails (h.bind _) (by simp)).of_eq (stringBody_code m u marks rest)
  fun_induction characters marks generalizing n with
  | case1 =>
      obtain ⟨m, rfl⟩ : ∃ m, n = m + 1 := ⟨n - 1, by omega⟩
      refine (Reads.of_ok (a := []) ?_).congr fun _ => by simp [eq_comm]
      rw [List.flatMap_nil, List.nil_append, stringBody_quote]
  | case2 c hc marks ih =>
      obtain ⟨m, rfl⟩ : ∃ m, n = m + 1 := ⟨n - 1, by omega⟩
      exact ((ih (by simpa using hn)).cons_character c).of_eq
        (stringBody_plain m hc.1 hc.2.1 (Nat.not_lt.mpr hc.2.2) _)
  | case3 s marks ih =>
      obtain ⟨m, rfl⟩ : ∃ m, n = m + 1 := ⟨n - 1, by omega⟩
      exact ((ih (by simpa using hn)).cons_character s.char).of_eq
        (stringBody_backslash m (escaped_simple (simpleEscape?_letter s) _))
  | case4 u hhigh v marks hlow ih =>
      obtain ⟨m, rfl⟩ : ∃ m, n = m + 1 := ⟨n - 1, by omega⟩
      have hshort : marks.length < m := by
        simp only [List.length_cons] at hn
        omega
      refine ((ih hshort).cons_character _).of_eq ((stringBody_code m u _ rest).trans ?_)
      rw [List.flatMap_cons, List.append_assoc]
      exact bind_of_ok (codeEscape_pair hhigh hlow _) _
  | case5 u hhigh v marks hlow =>
      obtain ⟨m, rfl⟩ : ∃ m, n = m + 1 := ⟨n - 1, by omega⟩
      refine hfails m u _ (codeEscape_alone hhigh rest fun v' marks' heq => ?_)
      cases heq
      exact hlow
  | case6 u marks hhigh hmarks =>
      obtain ⟨m, rfl⟩ : ∃ m, n = m + 1 := ⟨n - 1, by omega⟩
      exact hfails m u marks
        (codeEscape_alone hhigh rest fun v marks' heq => (hmarks v marks' heq).elim)
  | case7 u marks _ hlow =>
      obtain ⟨m, rfl⟩ : ∃ m, n = m + 1 := ⟨n - 1, by omega⟩
      exact hfails m u marks (codeEscape_low hlow _)
  | case8 u marks hhigh hlow ih =>
      obtain ⟨m, rfl⟩ : ∃ m, n = m + 1 := ⟨n - 1, by omega⟩
      exact ((ih (by simpa using hn)).cons_character _).of_eq
        ((stringBody_code m u marks rest).trans (bind_of_ok (codeEscape_basic hhigh hlow _) _))

/-- A string is read as the characters it stands for, if it stands for any. -/
theorem reads_scanString (marks : List Mark) (rest : List Char) :
    Reads scanString (marks.flatMap Mark.text ++ '"' :: rest) (string? marks = some ·) rest := by
  have hlength := length_le_flatMap_text marks
  have hfuel : marks.length < (marks.flatMap Mark.text ++ '"' :: rest).length + 1 := by
    rw [List.length_append]
    omega
  refine ((reads_stringBody marks rest hfuel).map String.ofList).congr fun name => ?_
  rw [string?, Option.map_eq_some_iff]
  exact exists_congr fun _ => and_congr_right fun _ => eq_comm

end ApiSurface.Json
