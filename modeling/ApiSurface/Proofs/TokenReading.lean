import Mathlib.Data.List.Basic
import ApiSurface.Python.Statement

/-! Readers that do not stop. What a reader does is said by a triple: from every reading of one kind it
gives a value and comes to a reading of another kind. Triples are given for the tokens, and for the line
structure of a text that consists of lines, each indented by spaces. -/

namespace ApiSurface.Python

/-- This text is left, and these blocks are open; no formatted string is. -/
structure Reading.Stands (cs : List Char) (indents : List Nat) (r : Reading) : Prop where
  rest : r.rest = cs
  indents : r.indents = indents
  plain : r.formatted = false

namespace Reading

variable {r : Reading} {cs : List Char} {is : List Nat}

/-- Passing over characters changes only what is left and where it begins. -/
theorem exists_drop_eq (r : Reading) (n : Nat) :
    ∃ p, r.drop n = { r with rest := r.rest.drop n, position := p } := by
  induction n generalizing r with
  | zero => exact ⟨r.position, rfl⟩
  | succ n ih =>
      obtain ⟨rest, position, indents, formatted⟩ := r
      cases rest with
      | nil => exact ⟨position, rfl⟩
      | cons c cs => exact ih _

theorem Stands.drop {xs : List Char} (h : Stands (xs ++ cs) is r) : Stands cs is (r.drop xs.length) := by
  obtain ⟨p, hp⟩ := exists_drop_eq r xs.length
  rw [hp, h.rest, List.drop_left]
  exact ⟨rfl, h.indents, h.plain⟩

theorem Stands.indent_eq (h : Stands cs is r) : r.indent = is.headD 0 := by
  rw [indent, h.indents]

end Reading

namespace Reader

open Reading (Stands)

/-! ### Triples -/

/-- From every reading of the first kind, the reader gives a value and comes to a reading of the second
kind. -/
def Triple {α : Type} (before : Reading → Prop) (m : Reader α) (after : α → Reading → Prop) : Prop :=
  ∀ r, before r → ∃ a r', m r = .ok (a, r') ∧ after a r'

/-- A triple with the value told. -/
def Gives {α : Type} (before : Reading → Prop) (m : Reader α) (value : α) (after : Reading → Prop) :
    Prop :=
  Triple before m fun a r => a = value ∧ after r

variable {α β : Type} {P Q : Reading → Prop}

theorem Triple.bind {x : Reader α} {f : α → Reader β} {R : α → Reading → Prop}
    {S : β → Reading → Prop} (hx : Triple P x R) (hf : ∀ a, Triple (R a) (f a) S) :
    Triple P (x >>= f) S := by
  intro r hr
  obtain ⟨a, r', hrun, ha⟩ := hx r hr
  obtain ⟨b, r'', hrun', hb⟩ := hf a r' ha
  refine ⟨b, r'', ?_, hb⟩
  change (x r).bind _ = _
  rw [hrun]
  exact hrun'

theorem triple_pure {a : α} {S : α → Reading → Prop} (h : ∀ r, P r → S a r) :
    Triple P (pure a : Reader α) S :=
  fun r hr => ⟨a, r, rfl, h r hr⟩

theorem Triple.weaken {x : Reader α} {R S : α → Reading → Prop} (h : Triple P x R)
    (hafter : ∀ a r, R a r → S a r) : Triple P x S := by
  intro r hr
  obtain ⟨a, r', hrun, ha⟩ := h r hr
  exact ⟨a, r', hrun, hafter a r' ha⟩

theorem triple_and {x : Reader α} {p : Prop} {S : α → Reading → Prop} (h : p → Triple P x S) :
    Triple (fun r => p ∧ P r) x S :=
  fun r ⟨hp, hr⟩ => h hp r hr

theorem Gives.bind {x : Reader α} {v : α} {f : α → Reader β} {S : β → Reading → Prop}
    (hx : Gives P x v Q) (hf : Triple Q (f v) S) : Triple P (x >>= f) S := by
  refine Triple.bind hx fun a r hr => ?_
  obtain ⟨rfl, hr⟩ := hr
  exact hf r hr

theorem gives_pure (v : α) : Gives P (pure v : Reader α) v P :=
  triple_pure fun _ hr => ⟨rfl, hr⟩

theorem Gives.ifTrue {x : Reader Bool} {f g : Reader β} {S : β → Reading → Prop}
    (hx : Gives P x true Q) (hf : Triple Q f S) :
    Triple P (x >>= fun found => if found = true then f else g) S := by
  refine hx.bind ?_
  rwa [if_pos rfl]

theorem Gives.ifFalse {x : Reader Bool} {f g : Reader β} {S : β → Reading → Prop}
    (hx : Gives P x false Q) (hg : Triple Q g S) :
    Triple P (x >>= fun found => if found = true then f else g) S := by
  refine hx.bind ?_
  rwa [if_neg Bool.false_ne_true]

theorem Gives.of_eq {x : Reader α} {v : α} (h : ∀ r, P r → ∃ r', x r = .ok (v, r') ∧ Q r') :
    Gives P x v Q := by
  intro r hr
  obtain ⟨r', hrun, hr'⟩ := h r hr
  exact ⟨v, r', hrun, rfl, hr'⟩

/-! ### Texts -/

variable {cs : List Char} {is : List Nat}

theorem get_reads : Triple (Stands cs is) get fun _ => Stands cs is :=
  fun r hr => ⟨r, r, rfl, hr⟩

theorem rest_gives : Gives (Stands cs is) rest cs (Stands cs is) := by
  refine .of_eq fun r hr => ⟨r, ?_, hr⟩
  rw [← hr.rest]
  rfl

theorem here_reads : Triple (Stands cs is) here fun _ => Stands cs is :=
  fun r hr => ⟨r.position, r, rfl, hr⟩

theorem take_gives (text : String) {n : Nat} (hlength : text.length = n) :
    Gives (Stands (text.toList ++ cs) is) (take n) () (Stands cs is) := by
  subst hlength
  exact .of_eq fun r hr => ⟨r.drop text.length, rfl, hr.drop⟩

theorem standing_gives {text : String} {found : Bool} (h : text.toList.isPrefixOf cs = found) :
    Gives (Stands cs is) (standing text) found (Stands cs is) := by
  subst h
  exact rest_gives.bind (gives_pure _)

theorem isPrefixOf_append (text : String) (cs : List Char) :
    text.toList.isPrefixOf (text.toList ++ cs) = true :=
  List.isPrefixOf_iff_prefix.mpr (List.prefix_append _ _)

theorem accept_self (text : String) :
    Gives (Stands (text.toList ++ cs) is) (accept text) true (Stands cs is) := by
  refine Gives.ifTrue (standing_gives (isPrefixOf_append text cs)) ?_
  exact (take_gives text rfl).bind (gives_pure true)

theorem accept_other {text : String} (h : text.toList.isPrefixOf cs = false) :
    Gives (Stands cs is) (accept text) false (Stands cs is) := by
  refine Gives.ifFalse (standing_gives h) ?_
  exact gives_pure false

theorem expect_self (text : String) :
    Gives (Stands (text.toList ++ cs) is) (expect text) () (Stands cs is) := by
  refine Gives.ifTrue (accept_self text) ?_
  exact gives_pure ()

/-! ### Words -/

/-- The text is one word. -/
def IsWord (text : String) : Prop :=
  ∃ c cs, text.toList = c :: cs ∧ Unicode.isIdentifierStart c = true ∧
    ∀ d ∈ cs, Unicode.isIdentifierPart d = true

theorem isWord_iff {text : String} :
    IsWord text ↔ text.toList.head?.any Unicode.isIdentifierStart = true ∧
      text.toList.tail.all Unicode.isIdentifierPart = true := by
  rw [IsWord]
  cases text.toList with
  | nil => simp
  | cons c cs => simp

instance (text : String) : Decidable (IsWord text) :=
  decidable_of_iff _ isWord_iff.symm

/-- No word goes on here. -/
def WordEnds (cs : List Char) : Prop :=
  ∀ c ∈ cs.head?, Unicode.isIdentifierPart c = false

theorem wordOf_append {text : String} (h : IsWord text) (hend : WordEnds cs) :
    wordOf (text.toList ++ cs) = text.toList := by
  obtain ⟨c, ds, htext, hstart, hpart⟩ := h
  rw [htext, List.cons_append, wordOf, if_pos hstart, List.takeWhile_append_of_pos hpart]
  cases cs with
  | nil => rw [List.takeWhile_nil, List.append_nil]
  | cons d cs =>
      have hd : Unicode.isIdentifierPart d = false := hend d rfl
      rw [List.takeWhile_cons_of_neg (by simp [hd]), List.append_nil]

theorem isIdentifierPart_of_start {c : Char} (h : Unicode.isIdentifierStart c = true) :
    Unicode.isIdentifierPart c = true := by
  simp only [Unicode.isIdentifierStart, Unicode.isIdentifierPart, Char.isAlphanum, Bool.or_eq_true,
    Bool.and_eq_true] at h ⊢
  rcases h with (halpha | hunderscore) | ⟨hcode, hrange⟩
  · exact Or.inl (Or.inl (Or.inl halpha))
  · exact Or.inl (Or.inr hunderscore)
  · exact Or.inr ⟨hcode, Or.inl hrange⟩

theorem IsWord.isIdentifierPart {text : String} (h : IsWord text) {c : Char} (hc : c ∈ text.toList) :
    Unicode.isIdentifierPart c = true := by
  obtain ⟨first, others, htext, hfirst, hothers⟩ := h
  rw [htext] at hc
  rcases List.mem_cons.mp hc with rfl | hc
  · exact isIdentifierPart_of_start hfirst
  · exact hothers c hc

theorem IsWord.ne_empty {text : String} (h : IsWord text) : text ≠ "" := by
  rintro rfl
  obtain ⟨c, cs, htext, -⟩ := h
  cases htext

theorem word_gives {text : String} (h : wordOf cs = text.toList) :
    Gives (Stands cs is) word text (Stands cs is) := by
  refine rest_gives.bind ?_
  rw [h, String.ofList_toList]
  exact gives_pure text

theorem word_self {text : String} (h : IsWord text) (hend : WordEnds cs) :
    Gives (Stands (text.toList ++ cs) is) word text (Stands (text.toList ++ cs) is) :=
  word_gives (wordOf_append h hend)

theorem takeWord_self {text : String} (h : IsWord text) (hend : WordEnds cs) :
    Gives (Stands (text.toList ++ cs) is) takeWord text (Stands cs is) := by
  refine (word_self h hend).bind ?_
  rw [if_neg (by simpa using h.ne_empty)]
  exact (take_gives text rfl).bind (gives_pure text)

theorem atWord_gives {text other : String} (h : wordOf cs = other.toList) :
    Gives (Stands cs is) (atWord text) (other == text) (Stands cs is) :=
  (word_gives h).bind (gives_pure _)

theorem acceptWord_self {text : String} (h : IsWord text) (hend : WordEnds cs) :
    Gives (Stands (text.toList ++ cs) is) (acceptWord text) true (Stands cs is) := by
  refine Gives.bind (atWord_gives (wordOf_append h hend)) ?_
  rw [if_pos (beq_self_eq_true text)]
  exact (take_gives text rfl).bind (gives_pure true)

theorem acceptWord_other {text other : String} (h : wordOf cs = other.toList) (hne : other ≠ text) :
    Gives (Stands cs is) (acceptWord text) false (Stands cs is) := by
  refine Gives.bind (atWord_gives h) ?_
  rw [if_neg (by simpa using hne)]
  exact gives_pure false

theorem expectWord_self {text : String} (h : IsWord text) (hend : WordEnds cs) :
    Gives (Stands (text.toList ++ cs) is) (expectWord text) () (Stands cs is) := by
  refine Gives.ifTrue (acceptWord_self h hend) ?_
  exact gives_pure ()

end Reader

/-! ### Blanks -/

/-- The character is neither a blank nor the beginning of a comment or of a joined line. -/
structure Visible (c : Char) : Prop where
  notBlank : isBlank c = false
  notComment : c ≠ '#'
  notJoin : c ≠ '\\'

instance (c : Char) : Decidable (Visible c) :=
  decidable_of_iff (isBlank c = false ∧ c ≠ '#' ∧ c ≠ '\\')
    ⟨fun h => ⟨h.1, h.2.1, h.2.2⟩, fun h => ⟨h.notBlank, h.notComment, h.notJoin⟩⟩

theorem inRanges_eq_any (ranges : Array (Nat × Nat)) (code : Nat) :
    Unicode.inRanges ranges code =
      ranges.toList.any fun range => range.1 ≤ code && code ≤ range.2 := by
  rw [Unicode.inRanges, Array.any_toList]

theorem visible_of_identifierStart {c : Char} (h : Unicode.isIdentifierStart c = true) :
    Visible c := by
  -- a computed test: deciding a statement about all characters may try each of them
  have hnone : [' ', '\n', '\t', '\r', '\x0b', '\x0c', '\ufeff', '\u2060', '\u200b', '#', '\\'].all
      (fun d => !Unicode.isIdentifierStart d) = true := by
    simp only [Unicode.isIdentifierStart, inRanges_eq_any]
    decide +kernel
  have hne : ∀ d ∈ [' ', '\n', '\t', '\r', '\x0b', '\x0c', '\ufeff', '\u2060', '\u200b', '#', '\\'],
      c ≠ d := by
    rintro d hd rfl
    have hnot := List.all_eq_true.mp hnone c hd
    rw [h] at hnot
    cases hnot
  refine ⟨?_, hne '#' (by simp), hne '\\' (by simp)⟩
  simp only [List.forall_mem_cons] at hne
  simp [isBlank, hne]

theorem ahead_visible {c : Char} (hc : Visible c) (comments : Bool) (cs : List Char) (e : Bool)
    (i : Nat) (k : Option Nat) (n : Nat) :
    ahead comments (c :: cs) false e i k n =
      some ⟨e, i, k, c == '"' || c == '\'' || c == '`', n⟩ := by
  obtain ⟨hblank, hcomment, hjoin⟩ := hc
  unfold ahead
  split <;> simp_all [isBlank]

theorem ahead_spaces (comments : Bool) (cs : List Char) (e : Bool) (m i : Nat) (k : Option Nat)
    (n : Nat) :
    ahead comments (List.replicate m ' ' ++ cs) false e i k n =
      ahead comments cs false e (i + m) k (n + m) := by
  induction m generalizing i n with
  | zero => rfl
  | succ m ih =>
      rw [List.replicate_succ, List.cons_append, ahead_space, ih]
      congr 1 <;> omega

theorem blankLength_append {blanks cs : List Char} (hblanks : ∀ c ∈ blanks, isBlank c = true)
    (hcs : ∀ c ∈ cs.head?, Visible c) : blankLength (blanks ++ cs) = (blanks.length, 0) := by
  have htake : (blanks ++ cs).takeWhile isBlank = blanks := by
    rw [List.takeWhile_append_of_pos hblanks]
    cases cs with
    | nil => rw [List.takeWhile_nil, List.append_nil]
    | cons c cs =>
        have hc := (hcs c rfl).notBlank
        rw [List.takeWhile_cons_of_neg (by simp [hc]), List.append_nil]
  simp only [blankLength, htake, List.drop_left]
  cases cs with
  | nil => rfl
  | cons c cs =>
      have hc := hcs c rfl
      split <;> simp_all [hc.notComment, hc.notJoin]

namespace Reading

variable {r : Reading} {w : Wanted} {a : Ahead}

theorem next_none {m : Nat} (hahead : ∀ comments, ahead comments r.rest false false 0 none 0 = some a)
    (hbreak : a.toBreak w r.indent r.formatted = .none) (hblank : blankLength r.rest = (m, 0)) :
    r.next w = (.none, r.drop m) := by
  rw [next_of_ahead hahead, hbreak, hblank]
  rfl

theorem next_newline (hahead : ∀ comments, ahead comments r.rest false false 0 none 0 = some a)
    (hbreak : a.toBreak w r.indent r.formatted = .newline) : r.next w = (.newline, r) := by
  rw [next_of_ahead hahead, hbreak]

theorem next_indent (hahead : ∀ comments, ahead comments r.rest false false 0 none 0 = some a)
    (hbreak : a.toBreak w r.indent r.formatted = .indent) :
    r.next w = (.indent, { r with indents := a.indent % 256 :: r.indents }) := by
  rw [next_of_ahead hahead, hbreak]

theorem next_dedent (hahead : ∀ comments, ahead comments r.rest false false 0 none 0 = some a)
    (hbreak : a.toBreak w r.indent r.formatted = .dedent) :
    r.next w = (.dedent, { r with indents := r.indents.tail }) := by
  rw [next_of_ahead hahead, hbreak]

end Reading

namespace Reader

open Reading (Stands)

variable {cs : List Char} {is : List Nat}

/-- Spaces before a token on the same line are passed. -/
theorem next_spaces {c : Char} (hc : Visible c) (m : Nat) (w : Wanted) :
    Gives (Stands (List.replicate m ' ' ++ c :: cs) is) (next w) .none (Stands (c :: cs) is) := by
  refine .of_eq fun r hr => ?_
  have hahead : ∀ comments, ahead comments r.rest false false 0 none 0 =
      some ⟨false, 0 + m, none, c == '"' || c == '\'' || c == '`', 0 + m⟩ := by
    intro comments
    rw [hr.rest, ahead_spaces, ahead_visible hc]
  have hblank : blankLength r.rest = (m, 0) := by
    have hspaces : ∀ c ∈ List.replicate m ' ', isBlank c = true := by
      intro c hc
      rw [List.eq_of_mem_replicate hc]
      rfl
    have hvisible : ∀ d ∈ (c :: cs).head?, Visible d := by
      rintro d ⟨⟩
      exact hc
    rw [hr.rest, blankLength_append hspaces hvisible, List.length_replicate]
  have hdrop := hr.drop
  rw [List.length_replicate] at hdrop
  exact ⟨r.drop m, congrArg Except.ok (Reading.next_none hahead rfl hblank), hdrop⟩

theorem settle_of_none {w : Wanted} {P Q : Reading → Prop} (h : Gives P (next w) .none Q) :
    Gives P (settle w) false Q := by
  refine h.bind ?_
  exact gives_pure false

theorem settle_visible {c : Char} (hc : Visible c) (w : Wanted) :
    Gives (Stands (c :: cs) is) (settle w) false (Stands (c :: cs) is) :=
  settle_of_none (next_spaces hc 0 w)

theorem settle_space {c : Char} (hc : Visible c) (w : Wanted) :
    Gives (Stands (' ' :: c :: cs) is) (settle w) false (Stands (c :: cs) is) :=
  settle_of_none (next_spaces hc 1 w)

end Reader

end ApiSurface.Python
