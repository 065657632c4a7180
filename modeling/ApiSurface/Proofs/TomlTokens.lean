import Mathlib.Data.List.TakeWhile
import ApiSurface.Toml.Scan

/-! The text between the parts of a TOML document: blanks, comments and line ends, as they are written,
and that the readers pass over them. A reader is followed along a text of which it takes the first part
and leaves the rest. -/

namespace ApiSurface.Toml

/-! ### Readers on a text -/

/-- The text does not go on with a character of the class. -/
def Stops (p : Char → Bool) (rest : List Char) : Prop :=
  ∀ c ∈ rest.head?, p c = false

theorem stops_nil (p : Char → Bool) : Stops p [] := by
  intro c hc
  cases hc

theorem stops_cons {p : Char → Bool} {c : Char} {cs : List Char} : Stops p (c :: cs) ↔ p c = false := by
  simp [Stops]

theorem Stops.imp {p q : Char → Bool} {rest : List Char} (h : Stops p rest)
    (hpq : ∀ c, q c = true → p c = true) : Stops q rest := by
  intro c hc
  have hp := h c hc
  cases hq : q c with
  | false => rfl
  | true => rw [hpq c hq] at hp; exact hp

namespace Scan

variable {α β : Type}

theorem bind_of_some {r : Scan α} {cs ds : List Char} {a : α} (h : r cs = some (a, ds))
    (f : α → Scan β) : (r >>= f) cs = f a ds := by
  change (r cs).bind _ = _
  rw [h]
  rfl

theorem bind_of_none {r : Scan α} {cs : List Char} (h : r cs = none) (f : α → Scan β) :
    (r >>= f) cs = none := by
  change (r cs).bind _ = _
  rw [h]
  rfl

theorem peek_bind (f : Option Char → Scan β) (cs : List Char) : (peek >>= f) cs = f cs.head? cs :=
  rfl

theorem get_bind (f : List Char → Scan β) (cs : List Char) : (get >>= f) cs = f cs cs :=
  rfl

theorem accept_self (c : Char) (cs : List Char) : accept c (c :: cs) = some (true, cs) := by
  rw [accept, if_pos rfl]

theorem accept_of_ne {c : Char} {cs : List Char} (h : cs.head? ≠ some c) :
    accept c cs = some (false, cs) := by
  cases cs with
  | nil => rfl
  | cons d cs =>
      have hne : c ≠ d := fun heq => h (by rw [heq]; rfl)
      rw [accept, if_neg hne]

theorem expect_self (c : Char) (cs : List Char) : expect c (c :: cs) = some ((), cs) := by
  rw [expect, bind_of_some (accept_self c cs)]
  rfl

theorem acceptText_append (text : String) (cs : List Char) :
    acceptText text (text.toList ++ cs) = some (true, cs) := by
  have hlength : text.length = text.toList.length := String.length_toList.symm
  rw [acceptText, if_pos (by simp), hlength, List.drop_left]

theorem acceptText_of_not {text : String} {cs : List Char} (h : ¬text.toList <+: cs) :
    acceptText text cs = some (false, cs) := by
  rw [acceptText, if_neg (by simpa using h)]

theorem acceptText_of_head_ne {text : String} {c : Char} {cs : List Char} (htext : text.toList.head? = some c)
    (hcs : cs.head? ≠ some c) : acceptText text cs = some (false, cs) := by
  apply acceptText_of_not
  rintro ⟨tail, rfl⟩
  apply hcs
  rw [List.head?_append, htext]
  rfl

theorem takeWhile_append {p : Char → Bool} {xs rest : List Char} (hxs : ∀ c ∈ xs, p c = true)
    (hrest : Stops p rest) : takeWhile p (xs ++ rest) = some (xs, rest) := by
  have hstop : rest.takeWhile p = [] ∧ rest.dropWhile p = rest := by
    cases rest with
    | nil => exact ⟨rfl, rfl⟩
    | cons c cs =>
        have hc : p c = false := stops_cons.mp hrest
        simp [hc]
  rw [takeWhile, List.takeWhile_append_of_pos hxs, List.dropWhile_append_of_pos hxs, hstop.1, hstop.2,
    List.append_nil]

theorem spanned_of_some {r : Scan α} {xs rest : List Char} {a : α} (h : r (xs ++ rest) = some (a, rest)) :
    spanned r (xs ++ rest) = some ((a, ⟨xs.length + rest.length, rest.length⟩), rest) := by
  rw [spanned, h, ← List.length_append]
  rfl

end Scan

open Scan

/-! ### Blanks and line ends -/

/-- Blanks, or nothing. -/
abbrev Blanks : Type := { cs : List Char // ∀ c ∈ cs, isBlank c = true }

theorem blanks_text (b : Blanks) {rest : List Char} (hrest : Stops isBlank rest) :
    blanks (b.1 ++ rest) = some ((), rest) := by
  rw [blanks, bind_of_some (takeWhile_append b.2 hrest)]
  rfl

theorem blanks_stops (b : Blanks) {p : Char → Bool} (hspace : p ' ' = false) (htab : p '\t' = false)
    {rest : List Char} (hrest : Stops p rest) : Stops p (b.1 ++ rest) := by
  obtain ⟨bs, hbs⟩ := b
  cases bs with
  | nil => exact hrest
  | cons c bs =>
      have hcases : c = ' ' ∨ c = '\t' := by simpa [isBlank] using hbs c List.mem_cons_self
      rcases hcases with rfl | rfl
      · exact stops_cons.mpr hspace
      · exact stops_cons.mpr htab

/-- The end of a line. -/
inductive Newline where
  | lf
  | crlf

def Newline.text : Newline → List Char
  | lf => ['\n']
  | crlf => ['\r', '\n']

theorem newline_text (e : Newline) (rest : List Char) : newline (e.text ++ rest) = some (true, rest) := by
  cases e with
  | lf => rfl
  | crlf => rfl

/-- The text does not go on with a line end. -/
theorem newline_of_stops {rest : List Char} (h : Stops (fun c => c = '\n' || c = '\r') rest) :
    newline rest = some (false, rest) := by
  have hlf : rest.head? ≠ some '\n' := fun heq => by simpa using h '\n' heq
  have hcr : rest.head? ≠ some '\r' := fun heq => by simpa using h '\r' heq
  rw [newline, bind_of_some (accept_of_ne hlf)]
  exact acceptText_of_head_ne rfl hcr

/-! ### Comments -/

/-- A comment, after its mark. -/
abbrev Comment : Type := { cs : List Char // ∀ c ∈ cs, isCommentChar c = true }

/-- What may stand at the end of a line: blanks and perhaps a comment. -/
structure Margin where
  blanks : Blanks
  comment : Option Comment

def commentText : Option Comment → List Char
  | none => []
  | some c => '#' :: c.1

def Margin.text (m : Margin) : List Char :=
  m.blanks.1 ++ commentText m.comment

/-- The text goes on with a line end, or it ends. -/
def AtLineEnd (rest : List Char) : Prop :=
  rest = [] ∨ ∃ (e : Newline) (rest' : List Char), rest = e.text ++ rest'

theorem AtLineEnd.stops {rest : List Char} (h : AtLineEnd rest) {p : Char → Bool}
    (hlf : p '\n' = false) (hcr : p '\r' = false) : Stops p rest := by
  rcases h with rfl | ⟨e, rest', rfl⟩
  · exact stops_nil p
  · cases e with
    | lf => exact stops_cons.mpr hlf
    | crlf => exact stops_cons.mpr hcr

theorem comment_text (c : Option Comment) {rest : List Char} (hrest : AtLineEnd rest) :
    comment (commentText c ++ rest) = some ((), rest) := by
  cases c with
  | none =>
      have hne : rest.head? ≠ some '#' := fun heq => by
        have hstop := hrest.stops (p := fun c => c = '#') rfl rfl '#' heq
        simp at hstop
      rw [commentText, List.nil_append, comment, bind_of_some (accept_of_ne hne)]
      rfl
  | some c =>
      rw [commentText, List.cons_append, comment, bind_of_some (accept_self _ _), if_pos rfl,
        bind_of_some (takeWhile_append c.2 (hrest.stops rfl rfl))]
      rfl

theorem commentText_stops (c : Option Comment) {rest : List Char} (hrest : AtLineEnd rest) :
    Stops isBlank (commentText c ++ rest) := by
  cases c with
  | none => exact hrest.stops rfl rfl
  | some c => exact stops_cons.mpr rfl

/-- The rest of a line is passed over together with its end. -/
theorem lineRest_newline (m : Margin) (e : Newline) (rest : List Char) :
    lineRest (m.text ++ (e.text ++ rest)) = some ((), rest) := by
  have hend : AtLineEnd (e.text ++ rest) := Or.inr ⟨e, rest, rfl⟩
  rw [lineRest, Margin.text, List.append_assoc,
    bind_of_some (blanks_text m.blanks (commentText_stops m.comment hend)),
    bind_of_some (comment_text m.comment hend), bind_of_some (newline_text e rest)]
  rfl

/-- The last line may go without an end. -/
theorem lineRest_end (m : Margin) : lineRest m.text = some ((), []) := by
  have hend : AtLineEnd [] := Or.inl rfl
  have hblanks := blanks_text m.blanks (commentText_stops m.comment hend)
  have hcomment := comment_text m.comment hend
  rw [List.append_nil] at hblanks hcomment
  rw [lineRest, Margin.text, bind_of_some hblanks, bind_of_some hcomment]
  rfl

/-! ### Gaps -/

/-- What may stand between the parts of an array: lines with nothing but comments, and blanks. -/
structure Gap where
  lines : List (Margin × Newline)
  blanks : Blanks

def linesText (lines : List (Margin × Newline)) : List Char :=
  lines.flatMap fun line => line.1.text ++ line.2.text

def Gap.text (g : Gap) : List Char :=
  linesText g.lines ++ g.blanks.1

/-- The characters with which a gap can go on. -/
def isGapChar (c : Char) : Bool :=
  isBlank c || c = '#' || c = '\n' || c = '\r'

theorem gap_of_stops (n : Nat) {rest : List Char} (h : Stops isGapChar rest) :
    gap (n + 1) rest = some ((), rest) := by
  cases rest with
  | nil => exact gap_nil n
  | cons c cs =>
      have hc : isGapChar c = false := stops_cons.mp h
      rw [gap, peek_bind]
      refine congrFun (g := (pure () : Scan Unit)) ?_ (c :: cs)
      rw [List.head?_cons]
      split
      case h_6 => rfl
      all_goals
        rename_i heq
        cases heq
        cases hc

theorem gap_blanks (n : Nat) {b : Blanks} (hb : b.1 ≠ []) {cs : List Char} (hcs : Stops isBlank cs) :
    gap (n + 1) (b.1 ++ cs) = gap n cs := by
  have hread := blanks_text b hcs
  obtain ⟨bs, hbs⟩ := b
  cases bs with
  | nil => exact absurd rfl hb
  | cons c bs =>
      have hc : c = ' ' ∨ c = '\t' := by simpa [isBlank] using hbs c List.mem_cons_self
      rw [gap, peek_bind]
      rcases hc with rfl | rfl
      · exact bind_of_some hread _
      · exact bind_of_some hread _

theorem gap_comment (n : Nat) (c : Comment) {cs : List Char} (hcs : AtLineEnd cs) :
    gap (n + 1) (commentText (some c) ++ cs) = gap n cs := by
  rw [gap, peek_bind]
  exact bind_of_some (comment_text (some c) hcs) _

theorem gap_newline (n : Nat) (e : Newline) (cs : List Char) : gap (n + 1) (e.text ++ cs) = gap n cs := by
  rw [gap, peek_bind]
  cases e with
  | lf => exact bind_of_some (newline_text .lf cs) _
  | crlf => exact bind_of_some (newline_text .crlf cs) _

/-- A gap leads past the text, at the cost of no more rounds than the text has characters. -/
def Skips (xs rest : List Char) : Prop :=
  ∀ n, xs.length ≤ n → ∃ k, n ≤ k + xs.length ∧ gap n (xs ++ rest) = gap k rest

theorem skips_nil (rest : List Char) : Skips [] rest :=
  fun n _ => ⟨n, le_refl n, rfl⟩

theorem Skips.append {xs ys rest : List Char} (hxs : Skips xs (ys ++ rest)) (hys : Skips ys rest) :
    Skips (xs ++ ys) rest := by
  intro n hn
  rw [List.length_append] at hn
  obtain ⟨k, hk, hgap⟩ := hxs n (by omega)
  obtain ⟨j, hj, hgap'⟩ := hys k (by omega)
  refine ⟨j, by rw [List.length_append]; omega, ?_⟩
  rw [List.append_assoc, hgap, hgap']

theorem skips_of_step {xs rest : List Char} (hxs : xs ≠ [])
    (h : ∀ n, gap (n + 1) (xs ++ rest) = gap n rest) : Skips xs rest := by
  intro n hn
  have hpos : 0 < xs.length := List.length_pos_iff.mpr hxs
  obtain ⟨m, rfl⟩ : ∃ m, n = m + 1 := ⟨n - 1, by omega⟩
  exact ⟨m, by omega, h m⟩

theorem skips_blanks (b : Blanks) {rest : List Char} (hrest : Stops isBlank rest) : Skips b.1 rest := by
  by_cases hb : b.1 = []
  · rw [hb]
    exact skips_nil rest
  · exact skips_of_step hb fun n => gap_blanks n hb hrest

theorem skips_line (m : Margin) (e : Newline) (rest : List Char) : Skips (m.text ++ e.text) rest := by
  have hend : AtLineEnd (e.text ++ rest) := Or.inr ⟨e, rest, rfl⟩
  have hnewline : Skips e.text rest :=
    skips_of_step (by cases e <;> simp [Newline.text]) fun n => gap_newline n e rest
  have hcomment : Skips (commentText m.comment) (e.text ++ rest) := by
    cases m.comment with
    | none => exact skips_nil _
    | some c => exact skips_of_step (List.cons_ne_nil _ _) fun n => gap_comment n c hend
  exact ((skips_blanks m.blanks (commentText_stops m.comment hend)).append hcomment).append hnewline

theorem skips_lines (lines : List (Margin × Newline)) (rest : List Char) : Skips (linesText lines) rest := by
  induction lines with
  | nil => exact skips_nil rest
  | cons line lines ih => exact (skips_line line.1 line.2 _).append ih

/-- A gap leads past all that may stand between the parts of an array. -/
theorem gap_text (g : Gap) {rest : List Char} (hrest : Stops isGapChar rest) :
    gap ((g.text ++ rest).length + 1) (g.text ++ rest) = some ((), rest) := by
  have hblank : Stops isBlank rest := hrest.imp fun c hc => by simp [isGapChar, hc]
  have hskips : Skips g.text rest := (skips_lines g.lines _).append (skips_blanks g.blanks hblank)
  rw [List.length_append]
  obtain ⟨k, hk, hgap⟩ := hskips (g.text.length + rest.length + 1) (by omega)
  obtain ⟨m, rfl⟩ : ∃ m, k = m + 1 := ⟨k - 1, by omega⟩
  rw [hgap, gap_of_stops m hrest]

end ApiSurface.Toml
