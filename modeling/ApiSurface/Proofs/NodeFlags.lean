import ApiSurface.Proofs.ClassSurface
import ApiSurface.Python.Surface

/-! The flags of syntax trees. A node is made from its children and takes its flag from theirs, so in the
tree of every source each flag tells whether there is a fault in its node. For a source that is read as
it stands this is an invariant of all readers of statements; for any other it is one of the outline of
the repaired tree. -/

namespace ApiSurface.Python

namespace Node

/-- Some node of the tree is a fault. -/
def HasFault (n : Node) : Prop :=
  ∃ path m, n.at? path = some m ∧ m.kind.isFault = true

theorem not_hasFault_iff {n : Node} : ¬n.HasFault ↔ n.Faultless := by
  simp [HasFault, Faultless]

/-- The flag of each node tells whether there is a fault in it. -/
def WellFlagged (n : Node) : Prop :=
  ∀ path m, n.at? path = some m → (m.faulty = true ↔ m.HasFault)

theorem at?_cons {n m : Node} {i : Nat} {path : Address} :
    n.at? (i :: path) = some m ↔ ∃ child, n.children[i]? = some child ∧ child.at? path = some m := by
  rw [at?, Option.bind_eq_some_iff]

theorem hasFault_iff {n : Node} :
    n.HasFault ↔ n.kind.isFault = true ∨ ∃ child ∈ n.children, child.HasFault := by
  constructor
  · rintro ⟨path, m, hm, hfault⟩
    cases path with
    | nil =>
        cases hm
        exact Or.inl hfault
    | cons i path =>
        obtain ⟨child, hchild, hm⟩ := at?_cons.mp hm
        exact Or.inr ⟨child, List.mem_of_getElem? hchild, path, m, hm, hfault⟩
  · rintro (hfault | ⟨child, hchild, path, m, hm, hfault⟩)
    · exact ⟨[], n, rfl, hfault⟩
    · obtain ⟨i, hi⟩ := List.mem_iff_getElem?.mp hchild
      exact ⟨i :: path, m, at?_cons.mpr ⟨child, hi, hm⟩, hfault⟩

theorem wellFlagged_iff {n : Node} :
    n.WellFlagged ↔ (n.faulty = true ↔ n.HasFault) ∧ ∀ child ∈ n.children, child.WellFlagged := by
  constructor
  · intro h
    refine ⟨h [] n rfl, fun child hchild path m hm => ?_⟩
    obtain ⟨i, hi⟩ := List.mem_iff_getElem?.mp hchild
    exact h (i :: path) m (at?_cons.mpr ⟨child, hi, hm⟩)
  · rintro ⟨hroot, hchildren⟩ path m hm
    cases path with
    | nil =>
        cases hm
        exact hroot
    | cons i path =>
        obtain ⟨child, hchild, hm⟩ := at?_cons.mp hm
        exact hchildren child (List.mem_of_getElem? hchild) path m hm

/-- A node made from children with right flags has a right flag. -/
theorem wellFlagged_ofChildren (kind : Kind) (start : Position) {children : List Node}
    (h : ∀ child ∈ children, child.WellFlagged) : (ofChildren kind start children).WellFlagged := by
  refine wellFlagged_iff.mpr ⟨?_, h⟩
  rw [hasFault_iff]
  change (kind.isFault || children.any faulty) = true ↔ _
  rw [Bool.or_eq_true, List.any_eq_true]
  refine or_congr_right (exists_congr fun child => and_congr_right fun hchild => ?_)
  exact (wellFlagged_iff.mp (h child hchild)).1

theorem wellFlagged_leaf (kind : Kind) (start : Position) : (leaf kind start).WellFlagged :=
  wellFlagged_ofChildren kind start (List.forall_mem_nil _)

end Node

/-- All these nodes have right flags. -/
def AllFlagged (ns : List Node) : Prop :=
  ∀ n ∈ ns, n.WellFlagged

theorem allFlagged_nil : AllFlagged [] :=
  List.forall_mem_nil _

theorem allFlagged_cons {n : Node} {ns : List Node} (hn : n.WellFlagged) (hns : AllFlagged ns) :
    AllFlagged (n :: ns) :=
  List.forall_mem_cons.mpr ⟨hn, hns⟩

theorem allFlagged_singleton {n : Node} (hn : n.WellFlagged) : AllFlagged [n] :=
  allFlagged_cons hn allFlagged_nil

theorem allFlagged_append {ms ns : List Node} (hms : AllFlagged ms) (hns : AllFlagged ns) :
    AllFlagged (ms ++ ns) :=
  List.forall_mem_append.mpr ⟨hms, hns⟩

/-! ### Sources that are read as they stand -/

namespace Reader

/-- All values that the reader gives have the property. -/
def Yields {α : Type} (m : Reader α) (P : α → Prop) : Prop :=
  ∀ r a r', m r = .ok (a, r') → P a

section

variable {α β : Type} {P : β → Prop}

theorem yields_fail : Yields (fail : Reader β) P := by
  intro r b r' h
  cases h

theorem yields_pure {b : β} (h : P b) : Yields (pure b : Reader β) P := by
  intro r b' r' heq
  cases heq
  exact h

theorem Yields.bind {Q : α → Prop} {x : Reader α} {f : α → Reader β} (hx : Yields x Q)
    (hf : ∀ a, Q a → Yields (f a) P) : Yields (x >>= f) P := by
  intro r b r'' h
  change (x r).bind _ = _ at h
  cases hrun : x r with
  | error fault =>
      rw [hrun] at h
      cases h
  | ok result =>
      obtain ⟨a, r'⟩ := result
      rw [hrun] at h
      exact hf a (hx r a r' hrun) r' b r'' h

/-- What a reader gives that does not read nodes does not matter. -/
theorem yields_bind {x : Reader α} {f : α → Reader β} (hf : ∀ a, Yields (f a) P) :
    Yields (x >>= f) P := by
  have hx : Yields x fun _ => True := fun _ _ _ _ => trivial
  exact hx.bind fun a _ => hf a

end

theorem yields_simpleLine (n : Nat) : Yields (simpleLine n) AllFlagged := by
  induction n with
  | zero => exact yields_fail
  | succ n ih =>
      rw [simpleLine]
      refine yields_bind fun start => yields_bind fun _ => yields_bind fun lineEnds => ?_
      have hnode := Node.wellFlagged_leaf .simple start
      split
      · exact yields_pure (allFlagged_singleton hnode)
      · refine yields_bind fun more => ?_
        split
        · refine yields_bind fun lineEnds => ?_
          split
          · exact yields_pure (allFlagged_singleton hnode)
          · exact ih.bind fun nodes hnodes => yields_pure (allFlagged_cons hnode hnodes)
        · exact yields_fail

/-- With so much fuel, all readers of statements give nodes with right flags. -/
structure Flagged (n : Nat) : Prop where
  statement : ∀ inBlock, Yields (statement n inBlock) AllFlagged
  suite : Yields (suite n) Node.WellFlagged
  block : Yields (block n) AllFlagged
  clause : ∀ start, Yields (clause n start) Node.WellFlagged
  alternative : ∀ inBlock, Yields (alternative n inBlock) AllFlagged
  conditional : ∀ inBlock, Yields (conditional n inBlock) AllFlagged
  iteration : ∀ inBlock, Yields (iteration n inBlock) AllFlagged
  resources : Yields (resources n) Node.WellFlagged
  handlers : ∀ inBlock, Yields (handlers n inBlock) AllFlagged
  plainHandlers : ∀ inBlock, Yields (plainHandlers n inBlock) AllFlagged
  groupHandlers : ∀ inBlock, Yields (groupHandlers n inBlock) AllFlagged
  finish : ∀ inBlock, Yields (finish n inBlock) AllFlagged
  function : ∀ start isAsync, Yields (function n start isAsync) Node.WellFlagged
  classDefinition : ∀ start, Yields (classDefinition n start) Node.WellFlagged
  decorated : Yields (decorated n) Node.WellFlagged
  selection : Yields (selection n) Node.WellFlagged
  caseClauses : Yields (caseClauses n) AllFlagged

theorem flagged_zero : Flagged 0 where
  statement _ := yields_fail
  suite := yields_fail
  block := yields_fail
  clause _ := yields_fail
  alternative _ := yields_fail
  conditional _ := yields_fail
  iteration _ := yields_fail
  resources := yields_fail
  handlers _ := yields_fail
  plainHandlers _ := yields_fail
  groupHandlers _ := yields_fail
  finish _ := yields_fail
  function _ _ := yields_fail
  classDefinition _ := yields_fail
  decorated := yields_fail
  selection := yields_fail
  caseClauses := yields_fail

namespace Flagged

variable {n : Nat} (h : Flagged n)

include h

theorem suite_succ : Yields (Reader.suite (n + 1)) Node.WellFlagged := by
  rw [Reader.suite]
  refine yields_bind fun _ => yields_bind fun start => yields_bind fun found => ?_
  split
  · exact yields_pure (Node.wellFlagged_leaf _ _)
  · exact h.block.bind fun nodes hnodes => yields_pure (Node.wellFlagged_ofChildren _ _ hnodes)
  · exact (yields_simpleLine n).bind fun nodes hnodes =>
      yields_pure (Node.wellFlagged_ofChildren _ _ hnodes)
  · exact yields_fail

theorem block_succ : Yields (Reader.block (n + 1)) AllFlagged := by
  rw [Reader.block]
  refine yields_bind fun found => ?_
  split
  · exact yields_pure allFlagged_nil
  · exact (h.statement true).bind fun first hfirst => h.block.bind fun rest hrest =>
      yields_pure (allFlagged_append hfirst hrest)

theorem clause_succ (start : Position) : Yields (Reader.clause (n + 1) start) Node.WellFlagged := by
  rw [Reader.clause]
  refine yields_bind fun _ => h.suite.bind fun body hbody => ?_
  exact yields_pure (Node.wellFlagged_ofChildren _ _ (allFlagged_singleton hbody))

/-- A clause that may follow, after its word. -/
theorem clause_bind (word : String) (inBlock : Bool) :
    Yields
      (do
        if (← upcoming { dedent := inBlock, string := true }) != .none then return []
        let start ← here
        if ← acceptWord word then
          return [← Reader.clause n start]
        else
          return []) AllFlagged := by
  refine yields_bind fun found => ?_
  split
  · exact yields_pure allFlagged_nil
  · refine yields_bind fun start => yields_bind fun found => ?_
    split
    · exact (h.clause start).bind fun node hnode => yields_pure (allFlagged_singleton hnode)
    · exact yields_pure allFlagged_nil

theorem alternative_succ (inBlock : Bool) : Yields (Reader.alternative (n + 1) inBlock) AllFlagged := by
  rw [Reader.alternative]
  exact h.clause_bind "else" inBlock

theorem conditional_succ (inBlock : Bool) : Yields (Reader.conditional (n + 1) inBlock) AllFlagged := by
  rw [Reader.conditional]
  refine yields_bind fun _ => yields_bind fun _ => h.suite.bind fun body hbody => ?_
  refine yields_bind fun found => ?_
  split
  · exact yields_pure (allFlagged_singleton hbody)
  · refine yields_bind fun start => yields_bind fun again => ?_
    split
    · refine (h.conditional inBlock).bind fun parts hparts => ?_
      split
      · -- The body after `elif` belongs to the new clause, and what follows to the whole statement.
        rename_i inner others
        obtain ⟨hinner, hothers⟩ := List.forall_mem_cons.mp hparts
        have hclause := Node.wellFlagged_ofChildren .clause start (allFlagged_singleton hinner)
        exact yields_pure (allFlagged_cons hbody (allFlagged_cons hclause hothers))
      · exact yields_pure (allFlagged_singleton hbody)
    · exact (h.alternative inBlock).bind fun parts hparts => yields_pure (allFlagged_cons hbody hparts)

theorem iteration_succ (inBlock : Bool) : Yields (Reader.iteration (n + 1) inBlock) AllFlagged := by
  rw [Reader.iteration]
  refine yields_bind fun _ => yields_bind fun _ => yields_bind fun _ => yields_bind fun _ =>
    yields_bind fun _ => h.suite.bind fun body hbody => ?_
  exact (h.alternative inBlock).bind fun parts hparts => yields_pure (allFlagged_cons hbody hparts)

theorem resources_succ : Yields (Reader.resources (n + 1)) Node.WellFlagged := by
  rw [Reader.resources]
  exact yields_bind fun _ => yields_bind fun _ => h.suite

theorem handlers_succ (inBlock : Bool) : Yields (Reader.handlers (n + 1) inBlock) AllFlagged := by
  rw [Reader.handlers]
  refine yields_bind fun found => ?_
  split
  · exact yields_fail
  · refine yields_bind fun group => ?_
    split
    · exact h.groupHandlers inBlock
    · refine yields_bind fun plain => ?_
      split
      · exact h.plainHandlers inBlock
      · refine yields_bind fun final => ?_
        split
        · exact h.finish inBlock
        · exact yields_fail

/-- A handler is followed by more handlers of its kind, or by the last clauses. -/
theorem handler_bind (start : Position) (inBlock : Bool) {again : Reader Bool}
    {more : Reader (List Node)} (hmore : Yields more AllFlagged) :
    Yields
      (do
        let body ← Reader.suite n
        let handler := Node.ofChildren .clause start [body]
        if (← upcoming { dedent := inBlock, handler := true, string := true }) != .none then
          return [handler]
        if ← again then
          return handler :: (← more)
        else
          let otherwise ← Reader.alternative n inBlock
          return handler :: otherwise ++ (← Reader.finish n inBlock)) AllFlagged := by
  refine h.suite.bind fun body hbody => ?_
  have hhandler := Node.wellFlagged_ofChildren .clause start (allFlagged_singleton hbody)
  refine yields_bind fun found => ?_
  split
  · exact yields_pure (allFlagged_singleton hhandler)
  · refine yields_bind fun found => ?_
    split
    · exact hmore.bind fun nodes hnodes => yields_pure (allFlagged_cons hhandler hnodes)
    · refine (h.alternative inBlock).bind fun otherwise hotherwise =>
        (h.finish inBlock).bind fun last hlast => ?_
      exact yields_pure (allFlagged_append (allFlagged_cons hhandler hotherwise) hlast)

theorem plainHandlers_succ (inBlock : Bool) :
    Yields (Reader.plainHandlers (n + 1) inBlock) AllFlagged := by
  rw [Reader.plainHandlers]
  refine yields_bind fun start => yields_bind fun _ => yields_bind fun _ => yields_bind fun bare => ?_
  extract_lets +lift body
  have hbody : Yields (body ()) AllFlagged := h.handler_bind start inBlock (h.plainHandlers inBlock)
  split
  · exact hbody
  · refine yields_bind fun _ => yields_bind fun named => ?_
    split
    · exact yields_bind fun _ => yields_bind fun _ => hbody
    · exact hbody

theorem groupHandlers_succ (inBlock : Bool) :
    Yields (Reader.groupHandlers (n + 1) inBlock) AllFlagged := by
  rw [Reader.groupHandlers]
  refine yields_bind fun start => yields_bind fun _ => yields_bind fun _ => yields_bind fun _ => ?_
  exact h.handler_bind start inBlock (h.groupHandlers inBlock)

theorem finish_succ (inBlock : Bool) : Yields (Reader.finish (n + 1) inBlock) AllFlagged := by
  rw [Reader.finish]
  exact h.clause_bind "finally" inBlock

/-- A definition or clause with a single body. -/
theorem definition_bind (kind : Kind) (start : Position) :
    Yields (do return Node.ofChildren kind start [← Reader.suite n]) Node.WellFlagged :=
  h.suite.bind fun _ hbody =>
    yields_pure (Node.wellFlagged_ofChildren kind start (allFlagged_singleton hbody))

theorem function_succ (start : Position) (isAsync : Bool) :
    Yields (Reader.function (n + 1) start isAsync) Node.WellFlagged := by
  rw [Reader.function]
  refine yields_bind fun _ => yields_bind fun name => yields_bind fun _ => yields_bind fun generic => ?_
  -- What follows the return type, the parameters and the type parameters.
  extract_lets +lift afterType afterParameters afterGeneric
  have htype : Yields (afterType ()) Node.WellFlagged := h.definition_bind _ _
  have hparameters : Yields (afterParameters ()) Node.WellFlagged := by
    refine yields_bind fun _ => yields_bind fun _ => yields_bind fun typed => ?_
    split
    · exact yields_bind fun _ => yields_bind fun _ => htype
    · exact htype
  have hgeneric : Yields (afterGeneric ()) Node.WellFlagged := by
    refine yields_bind fun _ => yields_bind fun _ => yields_bind fun closed => ?_
    split
    · exact hparameters
    · exact yields_bind fun _ => hparameters
  split
  · exact yields_bind fun _ => yields_bind fun _ => hgeneric
  · exact hgeneric

theorem classDefinition_succ (start : Position) :
    Yields (Reader.classDefinition (n + 1) start) Node.WellFlagged := by
  rw [Reader.classDefinition]
  refine yields_bind fun _ => yields_bind fun name => yields_bind fun _ => yields_bind fun generic => ?_
  extract_lets +lift afterBases afterGeneric
  have hbases : Yields (afterBases ()) Node.WellFlagged := h.definition_bind _ _
  have hgeneric : Yields (afterGeneric ()) Node.WellFlagged := by
    refine yields_bind fun bases => ?_
    split
    · exact yields_bind fun _ => yields_bind fun _ => hbases
    · exact hbases
  split
  · exact yields_bind fun _ => yields_bind fun _ => hgeneric
  · exact hgeneric

theorem decorated_succ : Yields (Reader.decorated (n + 1)) Node.WellFlagged := by
  rw [Reader.decorated]
  refine yields_bind fun start => yields_bind fun more => ?_
  split
  · refine yields_bind fun _ => yields_bind fun _ => yields_bind fun lineEnds => ?_
    split
    · exact yields_bind fun _ => h.decorated
    · exact yields_bind fun _ => yields_bind fun _ => h.decorated
  · refine yields_bind fun isClass => ?_
    split
    · exact h.classDefinition start
    · exact yields_bind fun isAsync => yields_bind fun _ => yields_bind fun _ => h.function start isAsync

theorem selection_succ : Yields (Reader.selection (n + 1)) Node.WellFlagged := by
  rw [Reader.selection]
  refine yields_bind fun _ => yields_bind fun _ => yields_bind fun start => yields_bind fun found => ?_
  split
  · exact h.caseClauses.bind fun nodes hnodes => yields_pure (Node.wellFlagged_ofChildren _ _ hnodes)
  · exact yields_pure (Node.wellFlagged_leaf _ _)

theorem caseClauses_succ : Yields (Reader.caseClauses (n + 1)) AllFlagged := by
  rw [Reader.caseClauses]
  refine yields_bind fun found => ?_
  split
  · exact yields_pure allFlagged_nil
  · refine yields_bind fun start => yields_bind fun _ => yields_bind fun _ => yields_bind fun _ =>
      yields_bind fun guarded => ?_
    extract_lets +lift afterGuard
    have hguard : Yields (afterGuard ()) AllFlagged := by
      refine h.suite.bind fun body hbody => h.caseClauses.bind fun nodes hnodes => ?_
      have hclause := Node.wellFlagged_ofChildren .clause start (allFlagged_singleton hbody)
      exact yields_pure (allFlagged_cons hclause hnodes)
    split
    · exact yields_bind fun _ => yields_bind fun _ => hguard
    · exact hguard

theorem statement_succ (inBlock : Bool) : Yields (Reader.statement (n + 1) inBlock) AllFlagged := by
  rw [Reader.statement]
  refine yields_bind fun start => yields_bind fun word => ?_
  have hcompound : ∀ {parts}, AllFlagged parts → AllFlagged [Node.ofChildren .compound start parts] :=
    fun hparts => allFlagged_singleton (Node.wellFlagged_ofChildren _ _ hparts)
  have hiteration : Yields (do return [Node.ofChildren .compound start (← Reader.iteration n inBlock)])
      AllFlagged :=
    (h.iteration inBlock).bind fun parts hparts => yields_pure (hcompound hparts)
  have hresources : Yields (do return [Node.ofChildren .compound start [← Reader.resources n]])
      AllFlagged :=
    h.resources.bind fun body hbody => yields_pure (hcompound (allFlagged_singleton hbody))
  have hfunction : ∀ isAsync, Yields (do return [← Reader.function n start isAsync]) AllFlagged :=
    fun isAsync => (h.function start isAsync).bind fun node hnode =>
      yields_pure (allFlagged_singleton hnode)
  split
  · exact yields_bind fun _ => (h.conditional inBlock).bind fun parts hparts =>
      yields_pure (hcompound hparts)
  · exact yields_bind fun _ => yields_bind fun _ => yields_bind fun _ => h.suite.bind fun body hbody =>
      (h.alternative inBlock).bind fun parts hparts => yields_pure (hcompound (allFlagged_cons hbody hparts))
  · exact yields_bind fun _ => hiteration
  · exact yields_bind fun _ => yields_bind fun _ => h.suite.bind fun body hbody =>
      (h.handlers inBlock).bind fun parts hparts => yields_pure (hcompound (allFlagged_cons hbody hparts))
  · exact yields_bind fun _ => hresources
  · exact yields_bind fun _ => hfunction false
  · exact yields_bind fun _ => (h.classDefinition start).bind fun node hnode =>
      yields_pure (allFlagged_singleton hnode)
  · refine yields_bind fun _ => yields_bind fun _ => yields_bind fun lineEnds => yields_bind fun next => ?_
    split
    · exact yields_bind fun _ => hfunction true
    · split
      · exact yields_bind fun _ => hiteration
      · split
        · exact yields_bind fun _ => hresources
        · exact yields_bind fun _ => yields_simpleLine n
  · refine yields_bind fun _ => yields_bind fun _ => yields_bind fun lineEnds => yields_bind fun next => ?_
    split
    · exact h.selection.bind fun body hbody => yields_pure (hcompound (allFlagged_singleton hbody))
    · exact yields_bind fun _ => yields_simpleLine n
  · refine yields_bind fun decorators => ?_
    split
    · exact h.decorated.bind fun node hnode =>
        yields_pure (allFlagged_singleton (Node.wellFlagged_ofChildren _ _ (allFlagged_singleton hnode)))
    · exact yields_simpleLine n

theorem succ : Flagged (n + 1) where
  statement := h.statement_succ
  suite := h.suite_succ
  block := h.block_succ
  clause := h.clause_succ
  alternative := h.alternative_succ
  conditional := h.conditional_succ
  iteration := h.iteration_succ
  resources := h.resources_succ
  handlers := h.handlers_succ
  plainHandlers := h.plainHandlers_succ
  groupHandlers := h.groupHandlers_succ
  finish := h.finish_succ
  function := h.function_succ
  classDefinition := h.classDefinition_succ
  decorated := h.decorated_succ
  selection := h.selection_succ
  caseClauses := h.caseClauses_succ

end Flagged

theorem flagged (n : Nat) : Flagged n := by
  induction n with
  | zero => exact flagged_zero
  | succ n ih => exact ih.succ

theorem yields_statements (n : Nat) : Yields (statements n) AllFlagged := by
  induction n with
  | zero => exact yields_fail
  | succ n ih =>
      rw [statements]
      refine yields_bind fun _ => yields_bind fun rest => ?_
      split
      · exact yields_pure allFlagged_nil
      · exact ((flagged n).statement false).bind fun first hfirst => ih.bind fun others hothers =>
          yields_pure (allFlagged_append hfirst hothers)

end Reader

/-! ### Sources that are repaired -/

namespace Repair.Tree

mutual

theorem allFlagged_outline : ∀ t : Tree, AllFlagged t.outline
  | mk s cs => by
      rw [outline]
      split
      · exact allFlagged_singleton (Node.wellFlagged_leaf _ _)
      · exact allFlagged_nil
      · split
        · exact allFlagged_singleton (Node.wellFlagged_leaf _ _)
        · exact allFlagged_nil
      · rename_i c hc
        have hparts : AllFlagged (if hasBody c then outlineBodies cs else outlineAll cs) := by
          split
          · exact allFlagged_outlineBodies cs
          · exact allFlagged_outlineAll cs
        dsimp only
        split
        · exact allFlagged_singleton (Node.wellFlagged_ofChildren _ _ hparts)
        · exact hparts

theorem allFlagged_outlineAll : ∀ ts : List Tree, AllFlagged (outlineAll ts)
  | [] => allFlagged_nil
  | t :: ts => by
      rw [outlineAll]
      exact allFlagged_append (allFlagged_outline t) (allFlagged_outlineAll ts)

theorem allFlagged_outlineBodies : ∀ ts : List Tree, AllFlagged (outlineBodies ts)
  | [] => allFlagged_nil
  | mk s cs :: ts => by
      rw [outlineBodies]
      refine allFlagged_append ?_ (allFlagged_outlineBodies ts)
      split
      · exact allFlagged_singleton (Node.wellFlagged_ofChildren _ _ (allFlagged_outlineAll cs))
      · exact allFlagged_singleton (Node.wellFlagged_ofChildren _ _ (allFlagged_outlineAll cs))
      · exact allFlagged_singleton (Node.wellFlagged_leaf _ _)
      · exact allFlagged_outline (mk s cs)

end

end Repair.Tree

theorem Repair.wellFlagged_ofRepair (t : Tree) : (Node.ofRepair t).WellFlagged := by
  have houtline := t.allFlagged_outline
  rw [Node.ofRepair]
  split
  · rename_i n heq
    exact houtline n (heq ▸ List.mem_cons_self)
  · exact Node.wellFlagged_ofChildren _ _ houtline

theorem allFlagged_statementsOf {text : String} {nodes : List Node}
    (h : statementsOf text = .ok nodes) : AllFlagged nodes := by
  unfold statementsOf at h
  dsimp only at h
  generalize 10 * (text.toList.length + 10) = fuel at h
  cases hrun : Reader.statements fuel { rest := text.toList } with
  | error fault =>
      rw [hrun] at h
      cases h
  | ok result =>
      obtain ⟨nodes', r⟩ := result
      rw [hrun] at h
      cases h
      exact Reader.yields_statements fuel _ _ _ hrun

/-- In the tree of a source each flag tells whether there is a fault in its node. -/
theorem Node.wellFlagged_ofText (text : String) : (Node.ofText text).WellFlagged := by
  have hstatements : ∀ nodes, statementsOf text = .ok nodes → AllFlagged nodes :=
    fun _ => allFlagged_statementsOf
  unfold Node.ofText
  generalize Repair.Tree.ofText? .python text.toList = repaired
  generalize statementsOf text = statements at hstatements
  cases statements with
  | ok nodes => exact Node.wellFlagged_ofChildren _ _ (hstatements nodes rfl)
  | error fault =>
      cases repaired with
      | some tree => exact Repair.wellFlagged_ofRepair tree
      | none =>
          exact Node.wellFlagged_ofChildren _ _ (allFlagged_singleton (Node.wellFlagged_leaf _ _))

end ApiSurface.Python
