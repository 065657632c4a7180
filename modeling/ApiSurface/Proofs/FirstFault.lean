import ApiSurface.Proofs.DocumentOrder
import ApiSurface.Proofs.NodeFlags

/-! The first fault of a tree. It is looked for in document order, but nothing below a node is looked at
unless its flag is set. Where the flags are right, as they are in the tree of every source, this finds
what a search of all nodes finds. -/

namespace ApiSurface.Python

namespace Node

/-! ### The search -/

/-- The first fault of a tree when all its nodes are looked at. -/
def plainFault? (n : Node) : Option Placed :=
  (n.documentOrder []).find? (·.node.kind.isFault)

/-- This node of the tree is a fault, and no fault comes before it in document order. -/
structure FirstFaultAt (n : Node) (x : Placed) : Prop where
  at_address : n.at? x.address = some x.node
  isFault : x.node.kind.isFault = true
  first : ∀ path m, n.at? path = some m → m.kind.isFault = true → x.address ≤ path

theorem mem_documentOrder_root {n : Node} {x : Placed} :
    x ∈ n.documentOrder [] ↔ n.at? x.address = some x.node := by
  rw [mem_documentOrder]
  simp [Placed.Under]

theorem plainFault?_eq_some_iff {n : Node} {x : Placed} :
    n.plainFault? = some x ↔ n.FirstFaultAt x := by
  have hpairwise := pairwise_documentOrder [] n
  rw [plainFault?, List.find?_eq_some_iff_append]
  constructor
  · rintro ⟨hfault, before, after, hsplit, hbefore⟩
    rw [hsplit, List.pairwise_append, List.pairwise_cons] at hpairwise
    refine ⟨mem_documentOrder_root.mp (hsplit ▸ by simp), hfault, fun path m hm hmfault => ?_⟩
    have hmem : (⟨path, m⟩ : Placed) ∈ n.documentOrder [] := mem_documentOrder_root.mpr hm
    rw [hsplit, List.mem_append, List.mem_cons] at hmem
    rcases hmem with hmem | rfl | hmem
    · exact absurd hmfault (by simpa using hbefore _ hmem)
    · exact le_refl path
    · exact le_of_lt (hpairwise.2.1.1 _ hmem)
  · rintro ⟨hx, hfault, hfirst⟩
    obtain ⟨before, after, hsplit⟩ := List.append_of_mem (mem_documentOrder_root.mpr hx)
    refine ⟨hfault, before, after, hsplit, fun y hy => ?_⟩
    rw [hsplit, List.pairwise_append] at hpairwise
    have hlt : y.address < x.address := hpairwise.2.2 y hy x List.mem_cons_self
    have hnode := mem_documentOrder_root.mp (hsplit ▸ List.mem_append_left _ hy)
    rw [Bool.not_eq_true']
    exact Bool.eq_false_iff.mpr fun hyfault =>
      absurd (hfirst y.address y.node hnode hyfault) (not_le_of_gt hlt)

theorem plainFault?_eq_none_iff {n : Node} : n.plainFault? = none ↔ n.Faultless := by
  rw [plainFault?, List.find?_eq_none]
  constructor
  · intro h path m hm
    simpa using h ⟨path, m⟩ (mem_documentOrder_root.mpr hm)
  · intro h x hx
    simpa using h x.address x.node (mem_documentOrder_root.mp hx)

theorem find?_eq_none_of_not_hasFault {ns : List Node} (h : ∀ n ∈ ns, ¬n.HasFault) (address : Address)
    (index : Nat) : (documentOrderFrom address index ns).find? (·.node.kind.isFault) = none := by
  rw [List.find?_eq_none]
  intro x hx hfault
  obtain ⟨i, child, hchild, path, hnode, -⟩ := (mem_documentOrderFrom address index ns).mp hx
  exact h child (List.mem_of_getElem? hchild) ⟨path, x.node, hnode, hfault⟩

mutual

theorem firstFault?_eq_find? :
    ∀ (address : Address) (n : Node), n.WellFlagged →
      n.firstFault? = ((n.documentOrder address).find? (·.node.kind.isFault)).map (·.node.start)
  | address, mk kind start faulty children, h => by
      obtain ⟨hflag, hchildren⟩ := wellFlagged_iff.mp h
      rw [firstFault?, documentOrder]
      by_cases hkind : kind.isFault = true
      · rw [if_pos hkind, List.find?_cons_of_pos (by exact hkind)]
        rfl
      · rw [if_neg hkind, List.find?_cons_of_neg (by exact hkind)]
        cases faulty with
        | true => exact firstFaultIn?_eq_find? address 0 children hchildren
        | false =>
            -- The flag is not set, so nothing below is a fault.
            have hnone : ∀ child ∈ children, ¬child.HasFault := fun child hchild hfault =>
              Bool.false_ne_true (hflag.mpr (hasFault_iff.mpr (Or.inr ⟨child, hchild, hfault⟩)))
            rw [find?_eq_none_of_not_hasFault hnone]
            rfl

theorem firstFaultIn?_eq_find? :
    ∀ (address : Address) (index : Nat) (ns : List Node), (∀ n ∈ ns, n.WellFlagged) →
      firstFaultIn? ns =
        ((documentOrderFrom address index ns).find? (·.node.kind.isFault)).map (·.node.start)
  | address, index, [], _ => rfl
  | address, index, n :: ns, h => by
      rw [List.forall_mem_cons] at h
      rw [firstFaultIn?, documentOrderFrom, List.find?_append,
        firstFault?_eq_find? (address ++ [index]) n h.1,
        firstFaultIn?_eq_find? address (index + 1) ns h.2]
      cases (n.documentOrder (address ++ [index])).find? (·.node.kind.isFault) with
      | none => rfl
      | some x => rfl

end

theorem firstFault?_eq_plainFault? {n : Node} (h : n.WellFlagged) :
    n.firstFault? = n.plainFault?.map (·.node.start) :=
  firstFault?_eq_find? [] n h

theorem surface_of_plainFault? {n : Node} (h : n.WellFlagged) :
    n.surface = match n.plainFault? with
      | some x => .error (.fault (x.node.start.row + 1) (x.node.start.column + 1))
      | none => .ok n.symbols := by
  rw [surface, firstFault?_eq_plainFault? h]
  cases n.plainFault? with
  | none => rfl
  | some x => rfl

/-- **The search that follows the flags finds the first fault.** In every tree with right flags it agrees
with the search of all nodes: it gives the start of the fault that comes first in document order, and
nothing exactly if there is no fault. So a tree has a surface exactly if it has no fault, and otherwise
the place of the first one is reported, counted from one. The tree of every source has right flags. -/
theorem firstFault?_exact :
    (∀ n : Node, n.WellFlagged →
      n.firstFault? = n.plainFault?.map (·.node.start) ∧
      (∀ x, n.plainFault? = some x ↔ n.FirstFaultAt x) ∧
      (n.firstFault? = none ↔ n.Faultless) ∧
      (∀ s, n.surface = .ok s ↔ n.Faultless ∧ n.symbols = s) ∧
      ∀ e, n.surface = .error e ↔
        ∃ x, n.FirstFaultAt x ∧ .fault (x.node.start.row + 1) (x.node.start.column + 1) = e) ∧
    ∀ text, (ofText text).WellFlagged ∧ Python.surface text = (ofText text).surface := by
  refine ⟨fun n h => ⟨firstFault?_eq_plainFault? h, fun x => plainFault?_eq_some_iff, ?_, ?_, ?_⟩,
    fun text => ⟨wellFlagged_ofText text, rfl⟩⟩
  · rw [firstFault?_eq_plainFault? h, Option.map_eq_none_iff, plainFault?_eq_none_iff]
  · intro s
    rw [surface_of_plainFault? h, ← plainFault?_eq_none_iff]
    cases n.plainFault? with
    | none => simp
    | some x => simp
  · intro e
    simp only [surface_of_plainFault? h, ← plainFault?_eq_some_iff]
    cases n.plainFault? with
    | none => simp
    | some x => simp

/-- A tree with a missing token in a statement, and an error after it. -/
def brokenModule : Node :=
  ofChildren .module ⟨0, 0⟩ [
    functionOf "f" false,
    ofChildren .compound ⟨1, 0⟩ [leaf .block ⟨1, 5⟩, leaf .missing ⟨1, 7⟩],
    leaf .error ⟨4, 0⟩]

/-- The missing token comes first. -/
theorem firstFault?_brokenModule :
    brokenModule.WellFlagged ∧ brokenModule.plainFault? = some ⟨[1, 1], leaf .missing ⟨1, 7⟩⟩ ∧
      brokenModule.firstFault? = some ⟨1, 7⟩ ∧ brokenModule.surface = .error (.fault 2 8) := by
  have hflagged : brokenModule.WellFlagged := by
    refine wellFlagged_ofChildren _ _ (allFlagged_cons ?_ (allFlagged_cons ?_ (allFlagged_singleton ?_)))
    · exact wellFlagged_ofChildren _ _ (allFlagged_singleton (wellFlagged_leaf _ _))
    · exact wellFlagged_ofChildren _ _
        (allFlagged_cons (wellFlagged_leaf _ _) (allFlagged_singleton (wellFlagged_leaf _ _)))
    · exact wellFlagged_leaf _ _
  have hplain : brokenModule.plainFault? = some ⟨[1, 1], leaf .missing ⟨1, 7⟩⟩ := rfl
  obtain ⟨hfirst, hiff, -, -, hsurface⟩ := firstFault?_exact.1 brokenModule hflagged
  exact ⟨hflagged, hplain, hfirst.trans (congrArg _ hplain), (hsurface _).mpr ⟨_, (hiff _).mp hplain, rfl⟩⟩

end Node

end ApiSurface.Python
