import ApiSurface.Proofs.LineReading

/-! Reading the text of a skeleton. The line structure is that of the lines: a body opens a block, and
the next line that is indented less closes it, one block for each body that ends there. Reading the text
of a statement therefore gives its tree, whatever lines follow it, and reading a whole text gives the
tree of the skeleton. -/

namespace ApiSurface.Python

namespace Reader

open Reading (Stands)

/-! ### Bodies and definitions

Each reader is given what the readers it calls do. -/

variable {ls : List Line} {is : List Nat} {w : Wanted} {cs : List Char} {n : Nat}
  {Q : Reading → Prop} {body : Node}

theorem suite_reads {ns : List Node} (hdeeper : is.headD 0 < firstIndent ls)
    (hbound : firstIndent ls < 256)
    (hblock : Triple (Stands ('\n' :: render ls) (firstIndent ls :: is)) (block n)
      fun children r => children.map Node.unplaced = ns ∧ Q r) :
    Triple (Stands (':' :: '\n' :: render ls) is) (suite (n + 1))
      fun b r => b.unplaced = Node.ofChildren .block ⟨0, 0⟩ ns ∧ Q r := by
  rw [suite]
  refine (expect_self ":").bind ?_
  refine here_reads.bind fun start => ?_
  refine (next_block rfl hdeeper hbound).bind ?_
  refine hblock.bind fun children => ?_
  refine triple_pure fun r ⟨hchildren, hr⟩ => ⟨?_, hr⟩
  rw [Node.unplaced_ofChildren, hchildren]

theorem visible_head (name : Identifier) :
    ∃ c cs, name.text.toList = c :: cs ∧ Visible c := by
  obtain ⟨c, cs, htext, hstart, -⟩ := name.isWord
  exact ⟨c, cs, htext, visible_of_identifierStart hstart⟩

theorem settle_name (name : Identifier) :
    Gives (Stands (' ' :: (name.text.toList ++ cs)) is) (settle w) false
      (Stands (name.text.toList ++ cs) is) := by
  obtain ⟨c, ds, htext, hvisible⟩ := visible_head name
  rw [htext]
  exact settle_space hvisible w

theorem function_reads (name : Identifier) (isAsync : Bool) (start : Position)
    (hsuite : Triple (Stands (':' :: cs) is) (suite n) fun b r => b.unplaced = body ∧ Q r) :
    Triple (Stands (' ' :: (name.text.toList ++ '(' :: ')' :: ':' :: cs)) is)
      (function (n + 1) start isAsync)
      fun d r => d.unplaced = Node.ofChildren (.function name.text isAsync) ⟨0, 0⟩ [body] ∧ Q r := by
  have hends : WordEnds ('(' :: ')' :: ':' :: cs) := by
    rintro _ ⟨⟩
    rfl
  rw [function]
  refine (settle_name name).bind ?_
  refine (takeWord_self name.isWord hends).bind ?_
  refine (settle_visible (by decide) _).bind ?_
  refine Gives.ifFalse (standing_gives rfl) ?_
  refine (expect_self "(").bind ?_
  refine (settle_visible (by decide) _).bind ?_
  refine Gives.ifTrue (standing_gives rfl) ?_
  refine (expect_self ")").bind ?_
  refine (settle_visible (by decide) _).bind ?_
  refine Gives.ifFalse (accept_other rfl) ?_
  refine hsuite.bind fun b => ?_
  refine triple_pure fun r ⟨hb, hr⟩ => ⟨?_, hr⟩
  rw [Node.unplaced_ofChildren, List.map_singleton, hb]

theorem classDefinition_reads (name : Identifier) (start : Position)
    (hsuite : Triple (Stands (':' :: cs) is) (suite n) fun b r => b.unplaced = body ∧ Q r) :
    Triple (Stands (' ' :: (name.text.toList ++ ':' :: cs)) is) (classDefinition (n + 1) start)
      fun d r => d.unplaced = Node.ofChildren (.classDefinition name.text) ⟨0, 0⟩ [body] ∧ Q r := by
  have hends : WordEnds (':' :: cs) := by
    rintro _ ⟨⟩
    rfl
  rw [classDefinition]
  refine (settle_name name).bind ?_
  refine (takeWord_self name.isWord hends).bind ?_
  refine (settle_visible (by decide) _).bind ?_
  refine Gives.ifFalse (standing_gives rfl) ?_
  refine Gives.ifFalse (accept_other rfl) ?_
  refine hsuite.bind fun b => ?_
  refine triple_pure fun r ⟨hb, hr⟩ => ⟨?_, hr⟩
  rw [Node.unplaced_ofChildren, List.map_singleton, hb]

/-- A definition after its decorators. -/
theorem decorated_definition_reads (form : Form) (name : Identifier)
    (hsuite : Triple (Stands (':' :: cs) is) (suite n) fun b r => b.unplaced = body ∧ Q r) :
    Triple (Stands (definitionText name cs form) is) (decorated (n + 2))
      fun d r => d.unplaced = Node.ofChildren (form.kind name.text) ⟨0, 0⟩ [body] ∧ Q r := by
  have hword := wordOf_definitionText form name cs
  have hdef : IsWord "def" := by decide
  rw [decorated]
  refine here_reads.bind fun start => ?_
  cases form with
  | function =>
      refine Gives.ifFalse (accept_other rfl) ?_
      refine Gives.ifFalse (acceptWord_other hword (by decide)) ?_
      refine (acceptWord_other hword (by decide)).bind ?_
      refine (settle_visible (by decide) _).bind ?_
      refine (expectWord_self hdef (wordEnds_space _)).bind ?_
      exact function_reads name false start hsuite
  | asyncFunction =>
      refine Gives.ifFalse (accept_other rfl) ?_
      refine Gives.ifFalse (acceptWord_other hword (by decide)) ?_
      refine (acceptWord_self (by decide) (wordEnds_space _)).bind ?_
      refine (settle_space (by decide) _).bind ?_
      refine (expectWord_self hdef (wordEnds_space _)).bind ?_
      exact function_reads name true start hsuite
  | classDefinition =>
      refine Gives.ifFalse (accept_other rfl) ?_
      refine Gives.ifTrue (acceptWord_self (by decide) (wordEnds_space _)) ?_
      exact classDefinition_reads name start hsuite

/-- A decorator, and what stands on the lines after it. -/
theorem decorated_decorator_reads {S : Node → Reading → Prop} (name : Identifier)
    (hinside : is.headD 0 ≤ firstIndent ls)
    (hrest : Triple (Stands (tokens ls) is) (decorated (n + 5)) S) :
    Triple (Stands ('@' :: (name.text.toList ++ '\n' :: render ls)) is) (decorated (n + 6)) S := by
  have hpending : Gives (Stands ('\n' :: render ls) is) (settle {}) false (Stands (tokens ls) is) :=
    settle_of_none fun r hr => next_pending ⟨rfl, rfl, rfl⟩ hinside r (Or.inl hr)
  obtain ⟨c, ds, htext, hvisible⟩ := visible_head name
  rw [decorated]
  refine here_reads.bind fun start => ?_
  refine Gives.ifTrue (accept_self "@") ?_
  have hsettle : Gives (Stands (name.text.toList ++ '\n' :: render ls) is) (settle operandNext) false
      (Stands (name.text.toList ++ '\n' :: render ls) is) := by
    rw [htext]
    exact settle_visible hvisible _
  refine hsettle.bind ?_
  refine (expression_gives (Follows.line ls) name n).bind ?_
  refine Gives.ifTrue (settle_newline rfl rfl rfl) ?_
  exact hpending.bind hrest

/-- A definition with its decorators, each on a line of its own. -/
theorem decorated_reads (decorators : List Identifier) (form : Form) (name : Identifier)
    (hsuite : ∀ m, n ≤ m → Triple (Stands (':' :: '\n' :: render ls) is) (suite m)
      fun b r => b.unplaced = body ∧ Q r) :
    Triple (Stands (tokens (decorators.map (⟨is.headD 0, .decorator ·⟩) ++
        ⟨is.headD 0, .definition form name⟩ :: ls)) is)
      (decorated (n + 5 + decorators.length))
      fun d r => d.unplaced = Node.ofChildren (form.kind name.text) ⟨0, 0⟩ [body] ∧ Q r := by
  induction decorators with
  | nil =>
      rw [List.map_nil, List.nil_append, tokens_cons, definition_text_append]
      exact decorated_definition_reads form name (hsuite _ (by omega))
  | cons decorator decorators ih =>
      have hinside : is.headD 0 ≤ firstIndent (decorators.map (⟨is.headD 0, .decorator ·⟩) ++
          ⟨is.headD 0, .definition form name⟩ :: ls) := by
        cases decorators <;> exact Nat.le_refl _
      have hfuel : n + 5 + (decorator :: decorators).length = n + decorators.length + 6 := by
        rw [List.length_cons]
        omega
      rw [List.map_cons, List.cons_append, tokens_cons, decorator_text_append, hfuel]
      refine decorated_decorator_reads decorator hinside ?_
      rwa [Nat.add_right_comm] at ih

/-! ### Statements -/

variable {inBlock : Bool}

/-- Where a line ends, the lines after it are next. -/
theorem Triple.pending {α : Type} {x : Reader α} {P : Reading → Prop} {value : α → Prop}
    (h : Triple P x fun a r => value a ∧ Stands ('\n' :: render ls) is r) :
    Triple P x fun a r => value a ∧ Pending ls is r :=
  h.weaken fun _ _ ⟨ha, hr⟩ => ⟨ha, Or.inl hr⟩

theorem upcoming_tokens (hw : Between w) (h : is.headD 0 ≤ firstIndent ls) :
    Gives (Stands (tokens ls) is) (upcoming w) .none (Stands (tokens ls) is) :=
  upcoming_of_none fun r hr => next_pending hw h r (Or.inr ⟨hr, h⟩)

theorem alternative_gives (h : is.headD 0 ≤ firstIndent ls) :
    Gives (Stands (tokens ls) is) (alternative (n + 1) inBlock) [] (Stands (tokens ls) is) := by
  obtain ⟨word, hword, -, helse⟩ := exists_wordOf_tokens ls
  rw [alternative]
  refine (upcoming_tokens ⟨rfl, rfl, rfl⟩ h).bind ?_
  rw [if_neg (by decide)]
  refine here_reads.bind fun start => ?_
  exact (acceptWord_other hword helse).ifFalse (gives_pure [])

theorem conditional_reads (condition : Identifier)
    (hsuite : Triple (Stands (':' :: '\n' :: cs) is) (suite (n + 5))
      fun b r => b.unplaced = body ∧ Stands ('\n' :: render ls) is r) :
    Triple (Stands (' ' :: (condition.text.toList ++ ':' :: '\n' :: cs)) is)
      (conditional (n + 6) inBlock)
      fun parts r => parts.map Node.unplaced = [body] ∧ Pending ls is r := by
  rw [conditional]
  refine (settle_name condition).bind ?_
  refine (expression_gives (Follows.colon cs) condition n).bind ?_
  refine hsuite.bind fun b => triple_and fun hb => ?_
  have hparts : [b].map Node.unplaced = [body] := by rw [List.map_singleton, hb]
  -- an alternative is looked for only where the next line is not outside the block
  by_cases houtside : firstIndent ls < is.headD 0
  · refine (upcoming_outside ⟨rfl, rfl, rfl⟩ houtside).bind ?_
    rw [if_pos (by decide)]
    exact triple_pure fun r hr => ⟨hparts, Or.inl hr⟩
  · have hinside : is.headD 0 ≤ firstIndent ls := Nat.not_lt.mp houtside
    obtain ⟨word, hword, helif, -⟩ := exists_wordOf_tokens ls
    refine Gives.bind (upcoming_of_none fun r hr =>
      next_pending ⟨rfl, rfl, rfl⟩ hinside r (Or.inl hr)) ?_
    rw [if_neg (by decide)]
    refine here_reads.bind fun start => ?_
    refine (acceptWord_other hword helif).ifFalse ?_
    refine (alternative_gives hinside).bind ?_
    exact triple_pure fun r hr => ⟨hparts, Or.inr ⟨hr, hinside⟩⟩

theorem statement_conditional_reads (condition : Identifier)
    (hsuite : Triple (Stands (':' :: '\n' :: cs) is) (suite (n + 5))
      fun b r => b.unplaced = body ∧ Stands ('\n' :: render ls) is r) :
    Triple (Stands ("if".toList ++ ' ' :: (condition.text.toList ++ ':' :: '\n' :: cs)) is)
      (statement (n + 7) inBlock)
      fun ns r => ns.map Node.unplaced = [Node.ofChildren .compound ⟨0, 0⟩ [body]] ∧
        Pending ls is r := by
  rw [statement]
  refine here_reads.bind fun start => ?_
  refine (word_self (by decide) (wordEnds_space _)).bind ?_
  refine (take_gives "if" rfl).bind ?_
  refine (conditional_reads condition hsuite).bind fun parts => triple_and fun hparts => ?_
  refine triple_pure fun r hr => ⟨?_, hr⟩
  rw [List.map_singleton, Node.unplaced_ofChildren, hparts]

theorem simpleLine_pass_reads :
    Triple (Stands ("pass".toList ++ '\n' :: render ls) is) (simpleLine (n + 1))
      fun ns r => ns.map Node.unplaced = [Node.leaf .simple ⟨0, 0⟩] ∧
        Stands ('\n' :: render ls) is r := by
  have hsimple : Gives (Stands ("pass".toList ++ '\n' :: render ls) is) (simple n) ()
      (Stands ('\n' :: render ls) is) := by
    rw [simple]
    refine (word_self (by decide) (wordEnds_newline _)).bind ?_
    exact take_gives "pass" rfl
  rw [simpleLine]
  refine here_reads.bind fun start => ?_
  refine hsimple.bind ?_
  refine Gives.ifTrue (settle_newline rfl rfl rfl) ?_
  refine triple_pure fun r hr => ⟨?_, hr⟩
  rw [List.map_singleton, Node.leaf, Node.unplaced_ofChildren]
  rfl

theorem statement_pass_reads :
    Triple (Stands ("pass".toList ++ '\n' :: render ls) is) (statement (n + 2) inBlock)
      fun ns r => ns.map Node.unplaced = [Node.leaf .simple ⟨0, 0⟩] ∧
        Stands ('\n' :: render ls) is r := by
  rw [statement]
  refine here_reads.bind fun start => ?_
  refine (word_self (by decide) (wordEnds_newline _)).bind ?_
  exact Gives.ifFalse (standing_gives rfl) simpleLine_pass_reads

theorem statement_definition_reads (form : Form) (name : Identifier)
    (hsuite : Triple (Stands (':' :: cs) is) (suite n) fun b r => b.unplaced = body ∧ Q r) :
    Triple (Stands (definitionText name cs form) is) (statement (n + 2) inBlock)
      fun ns r => ns.map Node.unplaced = [Node.ofChildren (form.kind name.text) ⟨0, 0⟩ [body]] ∧
        Q r := by
  have hone : ∀ {d : Node} {r : Reading},
      (d.unplaced = Node.ofChildren (form.kind name.text) ⟨0, 0⟩ [body] ∧ Q r) →
      [d].map Node.unplaced = [Node.ofChildren (form.kind name.text) ⟨0, 0⟩ [body]] ∧ Q r := by
    rintro d r ⟨hd, hr⟩
    rw [List.map_singleton, hd]
    exact ⟨rfl, hr⟩
  have hdef : IsWord "def" := by decide
  rw [statement]
  refine here_reads.bind fun start => ?_
  refine (word_gives (wordOf_definitionText form name cs)).bind ?_
  cases form with
  | function =>
      refine (take_gives "def" rfl).bind ?_
      refine (function_reads name false start hsuite).bind fun d => ?_
      exact triple_pure fun r hr => hone hr
  | asyncFunction =>
      refine get_reads.bind fun before => ?_
      refine (take_gives "async" rfl).bind ?_
      refine (settle_space (by decide) _).bind ?_
      refine (word_self hdef (wordEnds_space _)).bind ?_
      rw [if_pos (by decide)]
      refine (take_gives "def" rfl).bind ?_
      refine (function_reads name true start hsuite).bind fun d => ?_
      exact triple_pure fun r hr => hone hr
  | classDefinition =>
      refine (take_gives "class" rfl).bind ?_
      refine (classDefinition_reads name start hsuite).bind fun d => ?_
      exact triple_pure fun r hr => hone hr

theorem statement_decorated_reads {decorator : Identifier} {definition : Node}
    (hdecorated : Triple (Stands ('@' :: (decorator.text.toList ++ cs)) is) (decorated n)
      fun d r => d.unplaced = definition ∧ Q r) :
    Triple (Stands ('@' :: (decorator.text.toList ++ cs)) is) (statement (n + 1) inBlock)
      fun ns r => ns.map Node.unplaced = [Node.ofChildren .decorated ⟨0, 0⟩ [definition]] ∧ Q r := by
  have hword : wordOf ('@' :: (decorator.text.toList ++ cs)) = "".toList := rfl
  rw [statement]
  refine here_reads.bind fun start => ?_
  refine (word_gives hword).bind ?_
  refine Gives.ifTrue (standing_gives rfl) ?_
  refine hdecorated.bind fun d => triple_and fun hd => ?_
  refine triple_pure fun r hr => ⟨?_, hr⟩
  rw [List.map_singleton, Node.unplaced_ofChildren, List.map_singleton, hd]

theorem block_nil_reads {top : Nat} (houtside : firstIndent ls < top) :
    Triple (Pending ls (top :: is)) (block (n + 1))
      fun ns r => ns.map Node.unplaced = [] ∧ Stands ('\n' :: render ls) is r := by
  rw [block]
  refine (next_outside ⟨rfl, rfl, rfl⟩ houtside).bind ?_
  exact triple_pure fun r hr => ⟨rfl, hr⟩

theorem block_cons_reads {P : Reading → Prop} {first : Node} {others : List Node}
    (hinside : is.headD 0 ≤ firstIndent ls)
    (hfirst : Triple (Stands (tokens ls) is) (statement n true)
      fun ns r => ns.map Node.unplaced = [first] ∧ P r)
    (hothers : Triple P (block n) fun ns r => ns.map Node.unplaced = others ∧ Q r) :
    Triple (Pending ls is) (block (n + 1))
      fun ns r => ns.map Node.unplaced = first :: others ∧ Q r := by
  rw [block]
  refine (next_pending ⟨rfl, rfl, rfl⟩ hinside).bind ?_
  refine hfirst.bind fun ns => triple_and fun hns => ?_
  refine hothers.bind fun ms => triple_and fun hms => ?_
  refine triple_pure fun r hr => ⟨?_, hr⟩
  rw [List.map_append, hns, hms, List.singleton_append]

theorem statements_nil_reads :
    Triple (Pending [] []) (statements (n + 1)) fun ns _ => ns.map Node.unplaced = [] := by
  rw [statements]
  refine (next_pending ⟨rfl, rfl, rfl⟩ (Nat.le_refl _)).bind ?_
  refine rest_gives.bind ?_
  exact triple_pure fun r _ => rfl

theorem statements_cons_reads {P : Reading → Prop} {first : Node} {others : List Node} (hls : ls ≠ [])
    (hfirst : Triple (Stands (tokens ls) []) (statement n false)
      fun ns r => ns.map Node.unplaced = [first] ∧ P r)
    (hothers : Triple P (statements n) fun ns _ => ns.map Node.unplaced = others) :
    Triple (Pending ls []) (statements (n + 1))
      fun ns _ => ns.map Node.unplaced = first :: others := by
  have hsome : (tokens ls).isEmpty = false := by
    obtain ⟨l, ls, rfl⟩ := List.exists_cons_of_ne_nil hls
    obtain ⟨c, cs, htokens, -⟩ := exists_tokens_cons l ls
    rw [htokens]
    rfl
  rw [statements]
  refine (next_pending ⟨rfl, rfl, rfl⟩ (Nat.zero_le _)).bind ?_
  refine rest_gives.bind ?_
  rw [hsome, if_neg Bool.false_ne_true]
  refine hfirst.bind fun ns => triple_and fun hns => ?_
  refine hothers.bind fun ms => ?_
  refine triple_pure fun r hms => ?_
  rw [List.map_append, hns, hms, List.singleton_append]

end Reader

/-! ### Skeletons -/

namespace Skeleton

open Reader
open Reading (Stands)

variable {width indent : Nat}

theorem firstIndent_lines (s : Skeleton) (indent : Nat) (ls : List Line) :
    firstIndent (s.lines width indent ++ ls) = indent := by
  obtain ⟨header, others, hlines⟩ := exists_lines_cons s indent
  rw [hlines]
  rfl

theorem firstIndent_linesOf_le {ls : List Line} (h : firstIndent ls ≤ indent) (ss : List Skeleton) :
    firstIndent (linesOf width indent ss ++ ls) ≤ indent := by
  cases ss with
  | nil => rwa [linesOf, List.nil_append]
  | cons s ss => rw [linesOf_cons, List.append_assoc, firstIndent_lines]

theorem firstIndent_linesOf (ss : List Skeleton) : firstIndent (linesOf width 0 ss) = 0 := by
  cases ss with
  | nil => rw [linesOf, firstIndent]
  | cons s ss => rw [linesOf_cons, firstIndent_lines]

theorem length_lines_pos (s : Skeleton) (indent : Nat) : 0 < (s.lines width indent).length := by
  obtain ⟨header, others, hlines⟩ := exists_lines_cons s indent
  rw [hlines]
  exact Nat.zero_lt_succ _

theorem indent_lt_of_lines {bound : Nat} {s : Skeleton} {ss : List Skeleton}
    (h : ∀ l ∈ linesOf width indent (s :: ss), l.indent < bound) : indent < bound := by
  obtain ⟨header, others, hlines⟩ := exists_lines_cons s indent
  rw [linesOf_cons, hlines] at h
  exact h ⟨indent, header⟩ List.mem_cons_self

/-- The statement is read from its lines, whatever lines follow that are not deeper. Ten steps for each
line are enough. -/
def StatementReads (width : Nat) (s : Skeleton) : Prop :=
  ∀ (n : Nat) (inBlock : Bool) (ls : List Line) (is : List Nat),
    10 * (s.lines width (is.headD 0)).length ≤ n →
    (∀ l ∈ s.lines width (is.headD 0), l.indent < 256) → firstIndent ls ≤ is.headD 0 →
    Triple (Stands (tokens (s.lines width (is.headD 0) ++ ls)) is) (statement n inBlock)
      fun ns r => ns.map Node.unplaced = [s.node] ∧ Pending ls is r

/-- The statements are read as a block, up to a line that is less deep. -/
def BlockReads (width : Nat) (ss : List Skeleton) : Prop :=
  ∀ (indent n : Nat) (ls : List Line) (is : List Nat),
    10 * (linesOf width indent ss).length + 1 ≤ n →
    (∀ l ∈ linesOf width indent ss, l.indent < 256) → firstIndent ls < indent →
    Triple (Pending (linesOf width indent ss ++ ls) (indent :: is)) (block n)
      fun ns r => ns.map Node.unplaced = nodes ss ∧ Stands ('\n' :: render ls) is r

theorem blockReads_nil : BlockReads width [] := by
  intro indent n ls is hn _ houtside
  obtain ⟨m, rfl⟩ := Nat.exists_eq_add_of_le' (show 1 ≤ n by omega)
  rw [linesOf, nodes]
  exact block_nil_reads houtside

theorem blockReads_cons {s : Skeleton} {ss : List Skeleton} (hs : StatementReads width s)
    (hss : BlockReads width ss) : BlockReads width (s :: ss) := by
  intro indent n ls is hn hbound houtside
  have hpos : 0 < (s.lines width indent).length := length_lines_pos s indent
  rw [linesOf_cons] at hn hbound
  rw [List.length_append] at hn
  rw [List.forall_mem_append] at hbound
  obtain ⟨m, rfl⟩ := Nat.exists_eq_add_of_le' (show 1 ≤ n by omega)
  have hinside : indent ≤ firstIndent (s.lines width indent ++ (linesOf width indent ss ++ ls)) := by
    rw [firstIndent_lines]
  have hfuel : 10 * (s.lines width indent).length ≤ m := by omega
  have hfirst := hs m true (linesOf width indent ss ++ ls) (indent :: is) hfuel hbound.1
    (firstIndent_linesOf_le houtside.le ss)
  have hothers := hss indent m ls is (by omega) hbound.2 houtside
  rw [linesOf_cons, nodes_cons, List.append_assoc]
  exact block_cons_reads hinside hfirst hothers

/-- A body is read after the colon of its header. -/
theorem suite_of_blockReads {s : Skeleton} {ss : List Skeleton} (hwidth : 0 < width)
    (hblock : BlockReads width (s :: ss)) {n : Nat} {ls : List Line} {is : List Nat}
    (hn : 10 * (linesOf width (is.headD 0 + width) (s :: ss)).length + 2 ≤ n)
    (hbound : ∀ l ∈ linesOf width (is.headD 0 + width) (s :: ss), l.indent < 256)
    (hls : firstIndent ls ≤ is.headD 0) :
    Triple (Stands (':' :: '\n' :: render (linesOf width (is.headD 0 + width) (s :: ss) ++ ls)) is)
      (suite n) fun b r =>
        b.unplaced = Node.ofChildren .block ⟨0, 0⟩ (nodes (s :: ss)) ∧
          Stands ('\n' :: render ls) is r := by
  obtain ⟨m, rfl⟩ := Nat.exists_eq_add_of_le' (show 1 ≤ n by omega)
  have hfirst : firstIndent (linesOf width (is.headD 0 + width) (s :: ss) ++ ls) =
      is.headD 0 + width := by
    rw [linesOf_cons, List.append_assoc, firstIndent_lines]
  have hindent : is.headD 0 + width < 256 := indent_lt_of_lines hbound
  refine suite_reads (by omega) (by omega) ?_
  rw [hfirst]
  exact fun r hr => hblock _ m ls is (by omega) hbound (by omega) r (Or.inl hr)

theorem statementReads_pass : StatementReads width pass := by
  intro n inBlock ls is hn _ _
  rw [lines] at hn ⊢
  rw [List.length_singleton] at hn
  obtain ⟨m, rfl⟩ := Nat.exists_eq_add_of_le' (show 2 ≤ n by omega)
  rw [node]
  exact statement_pass_reads.pending

theorem statementReads_conditional {condition : Identifier} {first : Skeleton}
    {others : List Skeleton} (hwidth : 0 < width) (hblock : BlockReads width (first :: others)) :
    StatementReads width (conditional condition first others) := by
  intro n inBlock ls is hn hbound hls
  rw [lines, ← linesOf_cons] at hn hbound ⊢
  rw [List.length_cons] at hn
  obtain ⟨m, rfl⟩ := Nat.exists_eq_add_of_le' (show 7 ≤ n by omega)
  have hfuel : 10 * (linesOf width (is.headD 0 + width) (first :: others)).length + 2 ≤ m + 5 := by
    omega
  have hsuite := suite_of_blockReads hwidth hblock hfuel (List.forall_mem_cons.mp hbound).2 hls
  rw [node, ← nodes_cons, List.cons_append, tokens_cons, conditional_text_append]
  exact statement_conditional_reads condition hsuite

theorem statementReads_definition {decorators : List Identifier} {form : Form} {name : Identifier}
    {first : Skeleton} {others : List Skeleton} (hwidth : 0 < width)
    (hblock : BlockReads width (first :: others)) :
    StatementReads width (definition decorators form name first others) := by
  intro n inBlock ls is hn hbound hls
  rw [lines, ← linesOf_cons] at hn hbound ⊢
  rw [List.length_append, List.length_map, List.length_cons] at hn
  rw [List.forall_mem_append, List.forall_mem_cons] at hbound
  -- the body is read with any fuel that is enough for its lines
  have hsuite : ∀ m, 10 * (linesOf width (is.headD 0 + width) (first :: others)).length + 2 ≤ m → _ :=
    fun m hm => suite_of_blockReads hwidth hblock hm hbound.2.2 hls
  rw [node, ← nodes_cons]
  cases decorators with
  | nil =>
      rw [List.length_nil] at hn
      obtain ⟨m, rfl⟩ := Nat.exists_eq_add_of_le' (show 2 ≤ n by omega)
      rw [List.map_nil, List.nil_append, List.cons_append, tokens_cons, definition_text_append]
      exact (statement_definition_reads form name (hsuite m (by omega))).pending
  | cons decorator decorators =>
      obtain ⟨m, rfl⟩ : ∃ m, n = m + 5 + (decorator :: decorators).length + 1 :=
        ⟨n - (5 + (decorator :: decorators).length + 1), by omega⟩
      have hdecorated := decorated_reads (decorator :: decorators) form name
        fun k hk => hsuite k (Nat.le_trans (show _ ≤ m by omega) hk)
      rw [List.map_cons, List.cons_append, tokens_cons, decorator_text_append] at hdecorated
      rw [List.append_assoc, List.cons_append, List.map_cons, List.cons_append, tokens_cons,
        decorator_text_append]
      exact (statement_decorated_reads hdecorated).pending

theorem length_le_length_render (ls : List Line) : ls.length ≤ (render ls).length := by
  induction ls with
  | nil => exact Nat.zero_le _
  | cons l ls ih =>
      have hline : 0 < l.text.toList.length := by simp [Line.text]
      rw [render, List.flatMap_cons, ← render, List.length_append, List.length_cons]
      omega

-- by induction on the skeleton, with one lemma for each kind of statement
mutual

theorem statementReads (hwidth : 0 < width) : ∀ s : Skeleton, StatementReads width s
  | pass => statementReads_pass
  | definition _ _ _ first others =>
    statementReads_definition hwidth
      (blockReads_cons (statementReads hwidth first) (blockReads hwidth others))
  | conditional _ first others =>
    statementReads_conditional hwidth
      (blockReads_cons (statementReads hwidth first) (blockReads hwidth others))

theorem blockReads (hwidth : 0 < width) : ∀ ss : List Skeleton, BlockReads width ss
  | [] => blockReads_nil
  | s :: ss => blockReads_cons (statementReads hwidth s) (blockReads hwidth ss)

end

/-! ### The text of a skeleton -/

theorem statements_read (hwidth : 0 < width) (ss : List Skeleton) {n : Nat}
    (hn : 10 * (linesOf width 0 ss).length + 1 ≤ n)
    (hbound : ∀ l ∈ linesOf width 0 ss, l.indent < 256) :
    Triple (Pending (linesOf width 0 ss) []) (Reader.statements n)
      fun ns _ => ns.map Node.unplaced = nodes ss := by
  induction ss generalizing n with
  | nil =>
      obtain ⟨m, rfl⟩ := Nat.exists_eq_add_of_le' (show 1 ≤ n by omega)
      rw [linesOf, nodes]
      exact statements_nil_reads
  | cons s ss ih =>
      have hpos : 0 < (s.lines width 0).length := length_lines_pos s 0
      rw [linesOf_cons] at hn hbound
      rw [List.length_append] at hn
      rw [List.forall_mem_append] at hbound
      obtain ⟨m, rfl⟩ := Nat.exists_eq_add_of_le' (show 1 ≤ n by omega)
      have hfuel : 10 * (s.lines width 0).length ≤ m := by omega
      have hls : firstIndent (linesOf width 0 ss) ≤ 0 := (firstIndent_linesOf ss).le
      have hfirst := statementReads hwidth s m false (linesOf width 0 ss) [] hfuel hbound.1 hls
      have hothers := ih (show _ ≤ m by omega) hbound.2
      rw [linesOf_cons, nodes_cons]
      exact statements_cons_reads (by simp [List.ne_nil_of_length_pos hpos]) hfirst hothers

/-- The text of a skeleton is read as its tree. -/
theorem unplaced_ofText (hwidth : 0 < width) (ss : List Skeleton)
    (hbound : ∀ l ∈ linesOf width 0 ss, l.indent < 256) :
    (Node.ofText (text width ss)).unplaced = tree ss := by
  have hfuel : 10 * (linesOf width 0 ss).length + 1 ≤ 10 * ((text width ss).toList.length + 10) := by
    have hlength := length_le_length_render (linesOf width 0 ss)
    rw [toList_text]
    omega
  -- the first line is not indented, so that its first token stands at the beginning
  have hstart : Pending (linesOf width 0 ss) [] { rest := (text width ss).toList } := by
    refine Or.inr ⟨⟨?_, rfl, rfl⟩, Nat.zero_le _⟩
    rw [toList_text, render_eq, firstIndent_linesOf, List.replicate_zero, List.nil_append]
  obtain ⟨ns, r, hrun, hns⟩ := statements_read hwidth ss hfuel hbound _ hstart
  have hstatements : statementsOf (text width ss) = .ok ns := by
    rw [statementsOf, hrun]
    rfl
  rw [Node.ofText, hstatements]
  exact (Node.unplaced_ofChildren _ _ _).trans (by rw [hns, tree])

/-- **Reading undoes printing.** The text of a skeleton always has a surface. Its functions are those at
the top, its classes those at any depth, and the methods of a class are those of the one that counts. -/
theorem surface_text_exact (width : Nat) (statements : List Skeleton) (hwidth : 0 < width)
    (hindent : ∀ l ∈ linesOf width 0 statements, l.indent < 256) :
    ∃ s, surface (text width statements) = .ok s ∧
      (∀ name, name ∈ s.functions ↔
        IsPublicName name ∧ ∃ statement ∈ statements, statement.function? = some name) ∧
      (∀ name, name ∈ s.classes.keySet ↔
        IsPublicName name ∧ ∃ c ∈ classesOf 1 statements, c.name = name) ∧
      ∀ name methods, s.classes.get? name = some methods ↔
        IsPublicName name ∧ ∃ c, Counts statements name c ∧
          ∀ method, method ∈ methods ↔
            IsPublicName method ∧ ∃ statement ∈ c.body, statement.function? = some method := by
  refine ⟨(tree statements).symbols, ?_, fun name => mem_functions_tree, fun name => mem_classes_tree,
    fun name methods => get?_classes_tree⟩
  rw [surface]
  exact surface_of_unplaced (unplaced_ofText hwidth statements hindent)

/-- Three classes of one name: under decorators in a function and in a condition, where they are equally
deep, and after these at the top. -/
def outline : List Skeleton :=
  let a : Identifier := ⟨"A", by decide, by decide⟩
  let f : Identifier := ⟨"f", by decide, by decide⟩
  let g : Identifier := ⟨"g", by decide, by decide⟩
  let start : Identifier := ⟨"__init__", by decide, by decide⟩
  [definition [] .function g
      (definition [f, g] .classDefinition a (definition [] .function f pass []) []) [],
    conditional g
      (definition [f] .classDefinition a (definition [g] .function start pass [])
        [definition [] .asyncFunction g pass []]) [],
    definition [] .classDefinition a (definition [] .function f pass []) []]

/-- The class in the condition counts. -/
theorem surface_text_outline :
    (∀ l ∈ linesOf 2 0 outline, l.indent < 256) ∧
      surface (text 2 outline) = .ok ⟨.insert ∅ "A" (.ofList ["__init__"]), .ofList ["g"]⟩ ∧
      ∃ c, Counts outline "A" c ∧ ∃ statement ∈ c.body, statement.function? = some "__init__" := by
  have hindent : ∀ l ∈ linesOf 2 0 outline, l.indent < 256 := by decide +kernel
  have hsymbols : (tree outline).symbols = ⟨.insert ∅ "A" (.ofList ["__init__"]), .ofList ["g"]⟩ := by
    decide +kernel
  have hsurface := surface_of_unplaced (unplaced_ofText (by decide) outline hindent)
  rw [hsymbols] at hsurface
  obtain ⟨s, hs, _, _, hclasses⟩ := surface_text_exact 2 outline (by decide) hindent
  obtain rfl := Except.ok.inj (hs.symm.trans hsurface)
  obtain ⟨_, c, hcounts, hmethods⟩ := (hclasses "A" _).mp (NameMap.get?_insert_self _ _ _)
  have hstart := (hmethods "__init__").mp (NameSet.mem_ofList.mpr List.mem_cons_self)
  exact ⟨hindent, hsurface, c, hcounts, hstart.2⟩

end Skeleton

end ApiSurface.Python
