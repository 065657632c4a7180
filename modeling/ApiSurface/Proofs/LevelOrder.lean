import Mathlib.Data.List.Lex
import ApiSurface.Python.Surface

/-! The order in which the nodes of a syntax tree are visited. Each node is followed together with its
address, and a queue is kept in level order: its entries stand in order, and none of them comes after
the children of an earlier one. A visit from a queue in level order then reaches every node below it
once, those of lesser depth first and those of equal depth in document order. -/

namespace ApiSurface.Python

/-! ### Addresses -/

/-- Where a node stands: which child is taken at each step down from the root. -/
abbrev Address := List Nat

/-- The second address is deeper, or as deep and later in document order. -/
def Before (a b : Address) : Prop :=
  a.length < b.length ∨ a.length = b.length ∧ a < b

instance (a b : Address) : Decidable (Before a b) :=
  inferInstanceAs (Decidable (_ ∨ _ ∧ _))

theorem Before.length_le {a b : Address} (h : Before a b) : a.length ≤ b.length := by
  rcases h with hlength | ⟨hlength, _⟩ <;> omega

theorem Before.asymm {a b : Address} (hab : Before a b) (hba : Before b a) : False := by
  have hlength : a.length = b.length := le_antisymm hab.length_le hba.length_le
  rcases hab with hab | ⟨_, hab⟩
  · omega
  rcases hba with hba | ⟨_, hba⟩
  · omega
  exact lt_asymm hab hba

theorem before_append_cons (a : Address) (i : Nat) (path : Address) :
    Before a (a ++ i :: path) := by
  refine Or.inl ?_
  rw [List.length_append, List.length_cons]
  omega

theorem Before.append {a b : Address} (h : Before a b) (path : Address) :
    Before a (b ++ path) := by
  cases path with
  | nil => rwa [List.append_nil]
  | cons i path =>
      have hlength := h.length_le
      refine Or.inl ?_
      rw [List.length_append, List.length_cons]
      omega

/-- Between two lists of one length, what is appended does not matter. -/
theorem append_lt_append_of_lt {a b : Address} (h : a < b) (hlength : a.length = b.length)
    (c d : Address) : a ++ c < b ++ d := by
  induction a generalizing b with
  | nil =>
      have hnil : b = [] := List.length_eq_zero_iff.mp hlength.symm
      exact absurd (hnil ▸ h) (lt_irrefl [])
  | cons i a ih =>
      cases b with
      | nil => exact absurd hlength (Nat.succ_ne_zero _)
      | cons j b =>
          rcases List.cons_lt_cons_iff.mp h with hij | ⟨rfl, htail⟩
          · exact List.cons_lt_cons_iff.mpr (Or.inl hij)
          · exact List.cons_lt_cons_iff.mpr (Or.inr ⟨rfl, ih htail (Nat.succ.inj hlength)⟩)

/-- The children of an earlier node come before those of a later one. -/
theorem Before.children {a b : Address} (h : Before a b) (i j : Nat) :
    Before (a ++ [i]) (b ++ [j]) := by
  rcases h with hlength | ⟨hlength, hlt⟩
  · refine Or.inl ?_
    rw [List.length_append, List.length_append, List.length_singleton, List.length_singleton]
    omega
  · refine Or.inr ⟨?_, append_lt_append_of_lt hlt hlength [i] [j]⟩
    rw [List.length_append, List.length_append, hlength]
    rfl

theorem before_siblings (a : Address) {i j : Nat} (h : i < j) : Before (a ++ [i]) (a ++ [j]) := by
  refine Or.inr ⟨by rw [List.length_append, List.length_append]; rfl, List.append_left_lt ?_⟩
  exact List.cons_lt_cons_iff.mpr (Or.inl h)

/-! ### The nodes of a tree and their addresses -/

namespace Node

/-- The node at an address below a node. -/
def at? (n : Node) : Address → Option Node
  | [] => some n
  | i :: path => n.children[i]?.bind (at? · path)

end Node

/-- A node and its address. -/
@[ext]
structure Placed where
  address : Address
  node : Node

namespace Placed

/-- The children of a node, each at its address. -/
def children (x : Placed) : List Placed :=
  x.node.children.mapIdx fun i child => ⟨x.address ++ [i], child⟩

/-- The second node is the first one, or lies below it. -/
def Under (x y : Placed) : Prop :=
  ∃ path, x.node.at? path = some y.node ∧ y.address = x.address ++ path

theorem mem_children {x y : Placed} :
    y ∈ x.children ↔ ∃ i, x.node.children[i]? = some y.node ∧ y.address = x.address ++ [i] := by
  rw [children, List.mem_mapIdx]
  constructor
  · rintro ⟨i, hi, rfl⟩
    exact ⟨i, List.getElem?_eq_getElem hi, rfl⟩
  · rintro ⟨i, hchild, haddress⟩
    obtain ⟨hi, hnode⟩ := List.getElem?_eq_some_iff.mp hchild
    refine ⟨i, hi, ?_⟩
    rw [hnode, ← haddress]

theorem map_node_children (x : Placed) : x.children.map node = x.node.children := by
  apply List.ext_getElem?
  intro i
  rw [List.getElem?_map, children, List.getElem?_mapIdx, Option.map_map]
  exact Option.map_id'

theorem under_iff {x y : Placed} : Under x y ↔ y = x ∨ ∃ z ∈ x.children, Under z y := by
  obtain ⟨b, m⟩ := y
  constructor
  · rintro ⟨path, hnode, haddress⟩
    cases path with
    | nil =>
        have hroot : x.node = m := Option.some.inj hnode
        rw [List.append_nil] at haddress
        subst hroot haddress
        exact Or.inl rfl
    | cons i path =>
        obtain ⟨child, hchild, hpath⟩ := Option.bind_eq_some_iff.mp hnode
        refine Or.inr ⟨⟨x.address ++ [i], child⟩, mem_children.mpr ⟨i, hchild, rfl⟩, path, hpath, ?_⟩
        rw [haddress, List.append_assoc, List.singleton_append]
  · rintro (rfl | ⟨z, hz, path, hnode, haddress⟩)
    · exact ⟨[], rfl, (List.append_nil b).symm⟩
    · obtain ⟨i, hchild, hz⟩ := mem_children.mp hz
      refine ⟨i :: path, ?_, ?_⟩
      · rw [Node.at?, hchild]
        exact hnode
      · rw [haddress, hz, List.append_assoc, List.singleton_append]

/-! ### The visit with addresses -/

theorem sizes_map_append_children (queue : List Placed) (x : Placed) :
    Node.sizes ((queue ++ x.children).map node) < Node.sizes ((x :: queue).map node) := by
  rw [List.map_append, map_node_children, Node.sizes_append, List.map_cons,
    Node.sizes, Node.size_eq]
  omega

/-- The nodes that a visit takes from its queue, in this order. -/
def order : List Placed → List Placed
  | [] => []
  | x :: queue => x :: order (queue ++ x.children)
termination_by queue => Node.sizes (queue.map node)
decreasing_by exact sizes_map_append_children queue x

theorem order_cons (x : Placed) (queue : List Placed) :
    order (x :: queue) = x :: order (queue ++ x.children) := by
  rw [order]

theorem visit_eq (queue : List Placed) (classes : NameMap NameSet) :
    Node.visit classes (queue.map node) =
      (order queue).foldl (fun classes x => Node.addClass classes x.node) classes := by
  induction queue using order.induct generalizing classes with
  | case1 => rw [List.map_nil, Node.visit, order, List.foldl_nil]
  | case2 x queue ih =>
      rw [List.map_cons, Node.visit, order_cons, List.foldl_cons, ← ih, List.map_append, map_node_children]

/-- A visit takes exactly the nodes of the trees in its queue. -/
theorem mem_order {queue : List Placed} {y : Placed} :
    y ∈ order queue ↔ ∃ x ∈ queue, Under x y := by
  induction queue using order.induct with
  | case1 =>
      rw [order]
      simp
  | case2 x queue ih =>
      rw [order_cons, List.mem_cons, ih]
      -- the children of `x` stand in the queue for all that lies below `x`
      constructor
      · rintro (rfl | ⟨z, hz, hunder⟩)
        · exact ⟨y, List.mem_cons_self, under_iff.mpr (Or.inl rfl)⟩
        · rcases List.mem_append.mp hz with hz | hz
          · exact ⟨z, List.mem_cons_of_mem x hz, hunder⟩
          · exact ⟨x, List.mem_cons_self, under_iff.mpr (Or.inr ⟨z, hz, hunder⟩)⟩
      · rintro ⟨z, hz, hunder⟩
        rcases List.mem_cons.mp hz with rfl | hz
        · rcases under_iff.mp hunder with heq | ⟨w, hw, hunder⟩
          · exact Or.inl heq
          · exact Or.inr ⟨w, List.mem_append_right queue hw, hunder⟩
        · exact Or.inr ⟨z, List.mem_append_left x.children hz, hunder⟩

/-! ### Level order -/

/-- Earlier entries of a queue come before later ones, and these before the children of the earlier
ones. -/
def Levelled (queue : List Placed) : Prop :=
  queue.Pairwise fun x y => Before x.address y.address ∧ ∀ i, Before y.address (x.address ++ [i])

theorem levelled_children (x : Placed) : Levelled x.children := by
  rw [Levelled, List.pairwise_iff_getElem]
  intro i j hi hj hij
  simp only [children, List.getElem_mapIdx]
  refine ⟨before_siblings x.address hij, fun k => Or.inl ?_⟩
  simp

/-- Taking the first node and putting its children at the end keeps the level order. -/
theorem Levelled.step {x : Placed} {queue : List Placed} (h : Levelled (x :: queue)) :
    Levelled (queue ++ x.children) := by
  obtain ⟨hfirst, hqueue⟩ := List.pairwise_cons.mp h
  refine List.pairwise_append.mpr ⟨hqueue, levelled_children x, ?_⟩
  intro y hy z hz
  obtain ⟨i, _, haddress⟩ := mem_children.mp hz
  obtain ⟨hbefore, hchildren⟩ := hfirst y hy
  rw [haddress]
  -- `z` is a child of `x`, so what came after `x` is before `z` and has its children after it
  exact ⟨hchildren i, fun j => hbefore.children i j⟩

/-- The first node of a queue in level order comes before all others that are visited. -/
theorem Levelled.before_of_mem {x y : Placed} {queue : List Placed} (h : Levelled (x :: queue))
    (hy : y ∈ order (queue ++ x.children)) : Before x.address y.address := by
  rw [mem_order] at hy
  obtain ⟨z, hz, path, _, haddress⟩ := hy
  rw [haddress]
  rcases List.mem_append.mp hz with hz | hz
  · exact ((List.pairwise_cons.mp h).1 z hz).1.append path
  · obtain ⟨i, _, hchild⟩ := mem_children.mp hz
    rw [hchild, List.append_assoc, List.singleton_append]
    exact before_append_cons x.address i path

/-- From a queue in level order, nodes are visited in level order. -/
theorem Levelled.pairwise_order {queue : List Placed} (h : Levelled queue) :
    (order queue).Pairwise fun x y => Before x.address y.address := by
  induction queue using order.induct with
  | case1 =>
      rw [order]
      exact List.Pairwise.nil
  | case2 x queue ih =>
      rw [order_cons]
      exact List.Pairwise.cons (fun y hy => h.before_of_mem hy) (ih h.step)

end Placed

namespace Node

open Placed

/-- The nodes of a tree in the order of the visit. -/
def levelOrder (n : Node) : List Placed :=
  order [⟨[], n⟩]

theorem mem_levelOrder {n : Node} {x : Placed} : x ∈ n.levelOrder ↔ n.at? x.address = some x.node := by
  rw [levelOrder, mem_order]
  simp [Under]

theorem pairwise_levelOrder (n : Node) :
    n.levelOrder.Pairwise fun x y => Before x.address y.address :=
  Levelled.pairwise_order (List.pairwise_singleton _ _)

theorem visit_root (n : Node) (classes : NameMap NameSet) :
    visit classes [n] = n.levelOrder.foldl (fun classes x => addClass classes x.node) classes :=
  visit_eq [⟨[], n⟩] classes

end Node

end ApiSurface.Python
