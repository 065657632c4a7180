import ApiSurface.Proofs.Skeleton

/-! Reading the lines of a skeleton. The characters of lines are given from the first token on, with the
word they begin with; between two lines a block goes on, opens or closes, as the second line is indented
as far as the block, further or less far; and a name that stands alone is read as an expression. -/

namespace ApiSurface.Python

/-! ### Lines as characters -/

/-- The characters of lines. -/
def render (ls : List Line) : List Char :=
  ls.flatMap fun l => l.text.toList

/-- The characters of lines from the first token on. -/
def tokens : List Line → List Char
  | [] => []
  | l :: ls => l.header.text.toList ++ '\n' :: render ls

theorem tokens_cons (l : Line) (ls : List Line) :
    tokens (l :: ls) = l.header.text.toList ++ '\n' :: render ls :=
  rfl

/-- How far the first line is indented; the end of the text counts as not indented. -/
def firstIndent : List Line → Nat
  | [] => 0
  | l :: _ => l.indent

theorem render_eq (ls : List Line) :
    render ls = List.replicate (firstIndent ls) ' ' ++ tokens ls := by
  cases ls with
  | nil => rfl
  | cons l ls => simp [tokens_cons, render, firstIndent, Line.text]

theorem toList_text (width : Nat) (statements : List Skeleton) :
    (Skeleton.text width statements).toList = render (Skeleton.linesOf width 0 statements) := by
  rw [Skeleton.text, String.toList_join, List.flatMap_map]
  rfl

theorem Header.head_text (h : Header) :
    ∃ c cs, h.text.toList = c :: cs ∧ Visible c ∧ (c == '"' || c == '\'' || c == '`') = false := by
  cases h with
  | pass => exact ⟨_, _, rfl, by decide⟩
  | decorator name => exact ⟨'@', name.text.toList, by simp [text], by decide⟩
  | conditional condition =>
      exact ⟨'i', 'f' :: ' ' :: (condition.text.toList ++ [':']), by simp [text], by decide⟩
  | definition form name =>
      cases form with
      | function => exact ⟨'d', _, by simp [text, Form.opening]; rfl, by decide⟩
      | asyncFunction => exact ⟨'a', _, by simp [text, Form.opening]; rfl, by decide⟩
      | classDefinition => exact ⟨'c', _, by simp [text, Form.opening]; rfl, by decide⟩

/-- A line begins with a token that is no blank and no string. -/
theorem exists_tokens_cons (l : Line) (ls : List Line) :
    ∃ c cs, tokens (l :: ls) = c :: cs ∧ Visible c ∧ (c == '"' || c == '\'' || c == '`') = false := by
  obtain ⟨c, cs, htext, hc⟩ := l.header.head_text
  refine ⟨c, cs ++ '\n' :: render ls, ?_, hc⟩
  rw [tokens_cons, htext, List.cons_append]

theorem visible_of_head_tokens {ls : List Line} {c : Char} (h : c ∈ (tokens ls).head?) :
    Visible c := by
  cases ls with
  | nil => cases h
  | cons l ls =>
      obtain ⟨d, ds, htokens, hvisible, -⟩ := exists_tokens_cons l ls
      rw [htokens] at h
      cases h
      exact hvisible

theorem ahead_lines (comments : Bool) (ls : List Line) :
    ahead comments ('\n' :: render ls) false false 0 none 0 =
      some ⟨true, firstIndent ls, none, false, 1 + firstIndent ls⟩ := by
  rw [ahead, render_eq, ahead_spaces, Nat.zero_add, Nat.zero_add]
  cases ls with
  | nil => rfl
  | cons l ls =>
      obtain ⟨c, cs, htokens, hvisible, hquote⟩ := exists_tokens_cons l ls
      rw [htokens, ahead_visible hvisible, hquote]

theorem blankLength_lines (ls : List Line) :
    blankLength ('\n' :: render ls) = (1 + firstIndent ls, 0) := by
  have hblanks : ∀ c ∈ '\n' :: List.replicate (firstIndent ls) ' ', isBlank c = true := by
    intro c hc
    rcases List.mem_cons.mp hc with rfl | hc
    · rfl
    · rw [List.eq_of_mem_replicate hc]
      rfl
  have hvisible : ∀ c ∈ (tokens ls).head?, Visible c := fun c hc => visible_of_head_tokens hc
  have hlength := blankLength_append hblanks hvisible
  rw [List.cons_append, ← render_eq] at hlength
  rw [hlength, List.length_cons, List.length_replicate, Nat.add_comm]

/-! ### Words of headers -/

/-- The first word of a definition. -/
def Form.word : Form → String
  | function => "def"
  | asyncFunction => "async"
  | classDefinition => "class"

/-- The first word of a header, empty for a decorator. -/
def Header.word : Header → String
  | pass => "pass"
  | decorator _ => ""
  | definition form _ => form.word
  | conditional _ => "if"

/-- The text of a definition, with what follows its colon. -/
def definitionText (name : Identifier) (cs : List Char) : Form → List Char
  | .function => "def".toList ++ ' ' :: (name.text.toList ++ '(' :: ')' :: ':' :: cs)
  | .asyncFunction =>
    "async".toList ++ ' ' :: ("def".toList ++ ' ' :: (name.text.toList ++ '(' :: ')' :: ':' :: cs))
  | .classDefinition => "class".toList ++ ' ' :: (name.text.toList ++ ':' :: cs)

theorem definition_text_append (form : Form) (name : Identifier) (cs : List Char) :
    (Header.definition form name).text.toList ++ cs = definitionText name cs form := by
  rw [Header.text, String.toList_append, String.toList_append, List.append_assoc, List.append_assoc]
  cases form <;> rfl

theorem wordEnds_space (cs : List Char) : Reader.WordEnds (' ' :: cs) := by
  rintro _ ⟨⟩
  rfl

theorem wordEnds_newline (cs : List Char) : Reader.WordEnds ('\n' :: cs) := by
  rintro _ ⟨⟩
  rfl

theorem wordOf_definitionText (form : Form) (name : Identifier) (cs : List Char) :
    wordOf (definitionText name cs form) = form.word.toList := by
  cases form with
  | function => exact Reader.wordOf_append (by decide) (wordEnds_space _)
  | asyncFunction => exact Reader.wordOf_append (by decide) (wordEnds_space _)
  | classDefinition => exact Reader.wordOf_append (by decide) (wordEnds_space _)

theorem wordOf_tokens (l : Line) (ls : List Line) :
    wordOf (tokens (l :: ls)) = l.header.word.toList := by
  rw [tokens_cons]
  cases l.header with
  | pass => exact Reader.wordOf_append (by decide) (wordEnds_newline _)
  | decorator name =>
      rw [decorator_text_append]
      rfl
  | definition form name =>
      rw [definition_text_append]
      exact wordOf_definitionText form name _
  | conditional condition =>
      rw [conditional_text_append]
      exact Reader.wordOf_append (by decide) (wordEnds_space _)

/-- No line goes on with the condition before it. -/
theorem exists_wordOf_tokens (ls : List Line) :
    ∃ word : String, wordOf (tokens ls) = word.toList ∧ word ≠ "elif" ∧ word ≠ "else" := by
  cases ls with
  | nil => exact ⟨"", rfl, by decide, by decide⟩
  | cons l ls =>
      have hword : l.header.word ≠ "elif" ∧ l.header.word ≠ "else" := by
        cases l.header with
        | pass => simp [Header.word]
        | decorator name => simp [Header.word]
        | definition form name => cases form <;> simp [Header.word, Form.word]
        | conditional condition => simp [Header.word]
      exact ⟨l.header.word, wordOf_tokens l ls, hword.1, hword.2⟩

namespace Reader

open Reading (Stands)

variable {ls : List Line} {is : List Nat} {w : Wanted} {r : Reading}

/-! ### Line structure -/

theorem ahead_of_stands (h : Stands ('\n' :: render ls) is r) (comments : Bool) :
    ahead comments r.rest false false 0 none 0 =
      some ⟨true, firstIndent ls, none, false, 1 + firstIndent ls⟩ := by
  rw [h.rest, ahead_lines]

theorem settle_newline (hw : w.newline = true) (hindent : w.indent = false)
    (hdedent : w.dedent = false) :
    Gives (Stands ('\n' :: render ls) is) (settle w) true (Stands ('\n' :: render ls) is) := by
  have hnext : Gives (Stands ('\n' :: render ls) is) (next w) .newline
      (Stands ('\n' :: render ls) is) := by
    refine .of_eq fun r hr => ⟨r, congrArg Except.ok ?_, hr⟩
    apply Reading.next_newline (ahead_of_stands hr)
    simp [Ahead.toBreak, hw, hindent, hdedent]
  exact hnext.bind (gives_pure true)

/-- A deeper line opens a block. -/
theorem next_block (hw : w.indent = true) (hdeeper : is.headD 0 < firstIndent ls)
    (hbound : firstIndent ls < 256) :
    Gives (Stands ('\n' :: render ls) is) (next w) .indent
      (Stands ('\n' :: render ls) (firstIndent ls :: is)) := by
  refine .of_eq fun r hr => ⟨_, congrArg Except.ok (Reading.next_indent (ahead_of_stands hr) ?_), ?_⟩
  · rw [← hr.indent_eq] at hdeeper
    simp [Ahead.toBreak, hw, hdeeper]
  · refine ⟨hr.rest, ?_, hr.plain⟩
    simp [hr.indents, Nat.mod_eq_of_lt hbound]

/-- Neither the end of a line nor the beginning of a block nor a closing bracket may stand next. -/
structure Between (w : Wanted) : Prop where
  newline : w.newline = false
  indent : w.indent = false
  close : w.close = false

/-- The lines are next: the line before ends here, or else their first token stands here, unless that
is outside the block. -/
def Pending (ls : List Line) (is : List Nat) (r : Reading) : Prop :=
  Stands ('\n' :: render ls) is r ∨ Stands (tokens ls) is r ∧ is.headD 0 ≤ firstIndent ls

theorem toBreak_between (hw : Between w) (hr : Stands ('\n' :: render ls) is r) (length : Nat) :
    (Ahead.mk true (firstIndent ls) none false length).toBreak w r.indent r.formatted =
      if firstIndent ls < is.headD 0 then .dedent else .none := by
  rw [← hr.indent_eq]
  simp [Ahead.toBreak, hw.newline, hw.indent, hw.close, hr.plain]

/-- A line that is not outside the block goes on with it. -/
theorem next_pending (hw : Between w) (h : is.headD 0 ≤ firstIndent ls) :
    Gives (Pending ls is) (next w) .none (Stands (tokens ls) is) := by
  refine .of_eq fun r hr => ?_
  rcases hr with hr | ⟨hr, -⟩
  · have hdrop : Stands (tokens ls) is (r.drop (1 + firstIndent ls)) := by
      have hmoved : Stands (('\n' :: List.replicate (firstIndent ls) ' ') ++ tokens ls) is r := by
        rw [List.cons_append, ← render_eq]
        exact hr
      have hdrop := hmoved.drop
      rwa [List.length_cons, List.length_replicate, Nat.add_comm] at hdrop
    refine ⟨_, congrArg Except.ok (Reading.next_none (ahead_of_stands hr) ?_ ?_), hdrop⟩
    · rw [toBreak_between hw hr, if_neg (by omega)]
    · rw [hr.rest, blankLength_lines]
  · cases ls with
    | nil =>
        -- at the end of the text there is nothing left to pass
        have hahead : ∀ comments, ahead comments r.rest false false 0 none 0 =
            some ⟨true, 0, none, false, 0⟩ := by
          intro comments
          rw [hr.rest]
          rfl
        have htop : r.indent ≤ 0 := hr.indent_eq ▸ h
        refine ⟨r.drop 0, congrArg Except.ok (Reading.next_none hahead ?_ ?_), hr⟩
        · simp [Ahead.toBreak, hw.newline, hw.indent, Nat.le_zero.mp htop]
        · rw [hr.rest]
          rfl
    | cons l ls =>
        obtain ⟨c, cs, htokens, hvisible, -⟩ := exists_tokens_cons l ls
        rw [htokens] at hr ⊢
        obtain ⟨_, r', hrun, rfl, hr'⟩ := next_spaces hvisible 0 w r hr
        exact ⟨r', hrun, hr'⟩

/-- A line outside the block closes it. -/
theorem next_outside (hw : Between w) {top : Nat} (h : firstIndent ls < top) :
    Gives (Pending ls (top :: is)) (next w) .dedent (Stands ('\n' :: render ls) is) := by
  refine .of_eq fun r hr => ?_
  rcases hr with hr | ⟨-, hinside⟩
  · refine ⟨_, congrArg Except.ok (Reading.next_dedent (ahead_of_stands hr) ?_), ?_⟩
    · rw [toBreak_between hw hr]
      exact if_pos h
    · exact ⟨hr.rest, by simp [hr.indents], hr.plain⟩
  · exact absurd h (Nat.not_lt.mpr hinside)

theorem upcoming_of_none {P Q : Reading → Prop} (h : Gives P (next w) .none Q) :
    Gives P (upcoming w) .none Q := by
  refine .of_eq fun r hr => ?_
  obtain ⟨_, r', hrun, rfl, hr'⟩ := h r hr
  have hnext : r.next w = (.none, r') := Except.ok.inj hrun
  exact ⟨r', by simp only [upcoming, hnext], hr'⟩

/-- Looking at a line outside the block leaves the block open. -/
theorem upcoming_outside (hw : Between w) (h : firstIndent ls < is.headD 0) :
    Gives (Stands ('\n' :: render ls) is) (upcoming w) .dedent (Stands ('\n' :: render ls) is) := by
  refine .of_eq fun r hr => ⟨r, ?_, hr⟩
  have hnext := Reading.next_dedent (ahead_of_stands hr) ((toBreak_between hw hr _).trans (if_pos h))
  simp only [upcoming, hnext]

/-! ### Names as expressions -/

/-- What follows a name that is an expression by itself: the end of the line where that may stand next,
or a colon and the end of the line. -/
inductive Follows : Context → Bool → List Char → Prop
  | line (ls : List Line) : Follows .line true ('\n' :: render ls)
  | colon (cs : List Char) : Follows {} false (':' :: '\n' :: cs)

variable {c : Context} {ends : Bool} {cs : List Char}

theorem Follows.settle_gives (h : Follows c ends cs) :
    Gives (Stands cs is) (settle c.after) ends (Stands cs is) := by
  cases h with
  | line ls => exact settle_newline rfl rfl rfl
  | colon cs => exact settle_visible (by decide) _

theorem Follows.exists_cons (h : Follows c ends cs) : ∃ d ds, cs = d :: ds ∧ (d = '\n' ∨ d = ':') := by
  cases h with
  | line ls => exact ⟨_, _, rfl, Or.inl rfl⟩
  | colon cs => exact ⟨_, _, rfl, Or.inr rfl⟩

theorem Follows.wordEnds (h : Follows c ends cs) : WordEnds cs := by
  obtain ⟨d, ds, rfl, hd⟩ := h.exists_cons
  rintro _ ⟨⟩
  rcases hd with rfl | rfl <;> rfl

theorem stringStart?_eq_none {xs : List Char}
    (h : ∀ d ∈ (xs.dropWhile isStringLetter).head?, d ≠ '`' ∧ d ≠ '\'' ∧ d ≠ '"') :
    stringStart? xs = none := by
  have hdrop : xs.drop (xs.takeWhile isStringLetter).length = xs.dropWhile isStringLetter := by
    have hsplit := List.takeWhile_append_dropWhile (p := isStringLetter) (l := xs)
    calc xs.drop (xs.takeWhile isStringLetter).length
        = (xs.takeWhile isStringLetter ++ xs.dropWhile isStringLetter).drop
            (xs.takeWhile isStringLetter).length := by rw [hsplit]
      _ = xs.dropWhile isStringLetter := List.drop_left
  simp only [stringStart?, hdrop]
  cases hrest : xs.dropWhile isStringLetter with
  | nil => rfl
  | cons d ds =>
      have hd := h d (by rw [hrest]; rfl)
      split <;> simp_all

theorem mem_or_eq_of_head?_dropWhile {p : Char → Bool} {xs ds : List Char} {d e : Char}
    (hstop : p d = false) (he : e ∈ ((xs ++ d :: ds).dropWhile p).head?) : e ∈ xs ∨ e = d := by
  rw [List.dropWhile_append, List.dropWhile_cons_of_neg (by simp [hstop])] at he
  split at he
  · cases he
    exact Or.inr rfl
  · rename_i hsome
    rw [List.head?_append_of_ne_nil _ (by simpa using hsome)] at he
    exact Or.inl ((List.dropWhile_suffix p).subset (List.mem_of_mem_head? he))

/-- No string begins with a name: a quote does not belong to a name and does not follow one. -/
theorem Follows.stringStart?_eq_none (h : Follows c ends cs) (name : Identifier) :
    stringStart? (name.text.toList ++ cs) = none := by
  obtain ⟨d, ds, rfl, hd⟩ := h.exists_cons
  have hstop : isStringLetter d = false := by rcases hd with rfl | rfl <;> rfl
  apply Reader.stringStart?_eq_none
  intro e he
  rcases mem_or_eq_of_head?_dropWhile hstop he with hmem | rfl
  · have hpart := name.isWord.isIdentifierPart hmem
    refine ⟨?_, ?_, ?_⟩ <;> rintro rfl <;> exact absurd hpart (by decide)
  · rcases hd with rfl | rfl <;> decide

theorem atom_gives (h : Follows c ends cs) (name : Identifier) (n : Nat) :
    Gives (Stands (name.text.toList ++ cs) is) (atom (n + 1) c) .ofName (Stands cs is) := by
  have hkeyword : ["None", "True", "False"].contains name.text = false := by
    have hnone : name.text ≠ "None" := name.ne_keyword (by decide)
    have htrue : name.text ≠ "True" := name.ne_keyword (by decide)
    have hfalse : name.text ≠ "False" := name.ne_keyword (by decide)
    simp [hnone, htrue, hfalse]
  rw [atom]
  refine rest_gives.bind ?_
  rw [h.stringStart?_eq_none name, if_neg (by simp)]
  refine (word_self name.isWord h.wordEnds).bind ?_
  rw [if_pos (by simpa using name.isWord.ne_empty)]
  refine (take_gives name.text rfl).bind ?_
  rw [hkeyword]
  exact gives_pure Shape.ofName

theorem trailer_gives (h : Follows c ends cs) (s : Shape) (n : Nat) :
    Gives (Stands cs is) (trailer (n + 1) c s) s (Stands cs is) := by
  rw [trailer]
  cases id h with
  | line ls => exact h.settle_gives.ifTrue (gives_pure s)
  | colon cs =>
      refine h.settle_gives.ifFalse ?_
      refine (accept_other rfl).ifFalse ?_
      refine (accept_other rfl).ifFalse ?_
      refine (accept_other rfl).ifFalse ?_
      exact gives_pure s

theorem operand_gives (h : Follows c ends cs) (name : Identifier) (n : Nat) :
    Gives (Stands (name.text.toList ++ cs) is) (operand (n + 2) c) .ofName (Stands cs is) := by
  rw [operand]
  exact (atom_gives h name n).bind (trailer_gives h _ n)

theorem unary_gives (h : Follows c ends cs) (name : Identifier) (n : Nat) :
    Gives (Stands (name.text.toList ++ cs) is) (unary (n + 3) c) .ofName (Stands cs is) := by
  have hsign : firstStanding? ["+", "-", "~"] (name.text.toList ++ cs) = none := by
    obtain ⟨d, ds, htext, hstart, -⟩ := name.isWord
    have hne : '+' ≠ d ∧ '-' ≠ d ∧ '~' ≠ d := by
      refine ⟨?_, ?_, ?_⟩ <;> rintro rfl <;> exact absurd hstart (by decide)
    simp [firstStanding?, htext, hne]
  have hawait : (name.text == "await") = false := beq_false_of_ne (name.ne_keyword (by decide))
  rw [unary]
  refine rest_gives.bind ?_
  rw [hsign, if_neg (by simp)]
  refine Gives.ifFalse (hawait ▸ atWord_gives (wordOf_append name.isWord h.wordEnds)) ?_
  exact operand_gives h name n

theorem primaryTail_gives (h : Follows c ends cs) (s : Shape) (n : Nat) :
    Gives (Stands cs is) (primaryTail (n + 1) c s) s (Stands cs is) := by
  rw [primaryTail]
  cases id h with
  | line ls => exact h.settle_gives.ifTrue (gives_pure s)
  | colon cs =>
      have hoperator : binaryOperator? (':' :: '\n' :: cs) = none := rfl
      refine h.settle_gives.ifFalse ?_
      refine rest_gives.bind ?_
      rw [hoperator]
      exact gives_pure s

theorem primary_gives (h : Follows c ends cs) (name : Identifier) (n : Nat) :
    Gives (Stands (name.text.toList ++ cs) is) (primary (n + 4) c) .ofName (Stands cs is) := by
  rw [primary]
  exact (unary_gives h name n).bind (primaryTail_gives h _ _)

theorem wordOf_colon (cs : List Char) : wordOf (':' :: cs) = "".toList := rfl

theorem comparison_colon :
    Gives (Stands (':' :: cs) is) comparison false (Stands (':' :: cs) is) := by
  have haugmented : firstStanding? augmentedOperators (':' :: cs) = none := rfl
  have hsigns : firstStanding? comparisonSigns (':' :: cs) = none := rfl
  rw [comparison]
  refine (word_gives (wordOf_colon cs)).bind ?_
  rw [if_neg (by decide), if_neg (by decide), if_neg (by decide)]
  refine rest_gives.bind ?_
  rw [haugmented, if_neg (by simp)]
  refine rest_gives.bind ?_
  rw [hsigns]
  exact gives_pure false

theorem expressionTail_gives (h : Follows c ends cs) (s : Shape) (n : Nat) :
    Gives (Stands cs is) (expressionTail (n + 1) c s) s (Stands cs is) := by
  rw [expressionTail]
  cases id h with
  | line ls => exact h.settle_gives.ifTrue (gives_pure s)
  | colon cs =>
      refine h.settle_gives.ifFalse ?_
      refine (word_gives (wordOf_colon _)).bind ?_
      rw [if_neg (by decide), if_neg (by decide)]
      exact comparison_colon.ifFalse (gives_pure s)

theorem expression_gives (h : Follows c ends cs) (name : Identifier) (n : Nat) :
    Gives (Stands (name.text.toList ++ cs) is) (expression (n + 5) c) .ofName (Stands cs is) := by
  have hnot : ¬(name.text == "not") = true := by simpa using name.ne_keyword (by decide)
  have hlambda : ¬(name.text == "lambda") = true := by simpa using name.ne_keyword (by decide)
  have hassign : ":=".toList.isPrefixOf cs = false := by cases h <;> rfl
  rw [expression]
  refine (word_self name.isWord h.wordEnds).bind ?_
  rw [if_neg hnot, if_neg hlambda]
  refine (primary_gives h name n).bind ?_
  refine Gives.ifFalse ?_ (expressionTail_gives h _ _)
  exact Gives.bind (gives_pure true) (accept_other hassign)

end Reader

end ApiSurface.Python
