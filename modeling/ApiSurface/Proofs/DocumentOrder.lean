import ApiSurface.Proofs.ClassSurface

/-! Document order. The nodes of a tree are listed each before those below it, which is the order of
their addresses. Of the classes with one name, the last in level order is the one in this list that is
at least as deep as those before it and deeper than those after it. -/

namespace ApiSurface.Python

/-- The entry of greatest depth, and among those the last. -/
def LastDeepest {α : Type} (depth : α → Nat) (xs : List α) (x : α) : Prop :=
  ∃ before after, xs = before ++ x :: after ∧ (∀ y ∈ before, depth y ≤ depth x) ∧
    ∀ y ∈ after, depth y < depth x

theorem lastDeepest_map {α β : Type} {depth : β → Nat} {f : α → β} {xs : List α} {y : β} :
    LastDeepest depth (xs.map f) y ↔ ∃ x, f x = y ∧ LastDeepest (fun x => depth (f x)) xs x := by
  constructor
  · rintro ⟨before, after, hsplit, hbefore, hafter⟩
    obtain ⟨xs₁, xs₂, rfl, rfl, htail⟩ := List.map_eq_append_iff.mp hsplit
    obtain ⟨x, xs₃, rfl, rfl, rfl⟩ := List.map_eq_cons_iff.mp htail
    simp only [List.mem_map, forall_exists_index, and_imp, forall_apply_eq_imp_iff₂] at hbefore hafter
    exact ⟨x, rfl, xs₁, xs₃, rfl, hbefore, hafter⟩
  · rintro ⟨x, rfl, before, after, rfl, hbefore, hafter⟩
    refine ⟨before.map f, after.map f, by simp, ?_, ?_⟩
    · simpa using hbefore
    · simpa using hafter

namespace Node

open Placed

mutual

/-- The nodes of a tree in document order; the root is at the given address. -/
def documentOrder (address : Address) : Node → List Placed
  | mk kind start faulty children =>
    ⟨address, mk kind start faulty children⟩ :: documentOrderFrom address 0 children

/-- The nodes of sibling trees in document order; the first is the child with the given index. -/
def documentOrderFrom (address : Address) (index : Nat) : List Node → List Placed
  | [] => []
  | n :: ns => documentOrder (address ++ [index]) n ++ documentOrderFrom address (index + 1) ns

end

theorem documentOrder_eq (address : Address) (n : Node) :
    n.documentOrder address = ⟨address, n⟩ :: documentOrderFrom address 0 n.children := by
  cases n
  rw [documentOrder, children]

mutual

theorem mem_documentOrder {x : Placed} :
    ∀ (address : Address) (n : Node), x ∈ n.documentOrder address ↔ Under ⟨address, n⟩ x
  | address, mk kind start faulty ns => by
      rw [documentOrder, List.mem_cons, mem_documentOrderFrom, under_iff]
      apply or_congr_right
      constructor
      · rintro ⟨i, child, hchild, hunder⟩
        rw [Nat.zero_add] at hunder
        exact ⟨⟨address ++ [i], child⟩, Placed.mem_children.mpr ⟨i, hchild, rfl⟩, hunder⟩
      · rintro ⟨⟨b, child⟩, hz, hunder⟩
        obtain ⟨i, hchild, rfl⟩ := Placed.mem_children.mp hz
        refine ⟨i, child, hchild, ?_⟩
        rwa [Nat.zero_add]

theorem mem_documentOrderFrom {x : Placed} :
    ∀ (address : Address) (index : Nat) (ns : List Node),
      x ∈ documentOrderFrom address index ns ↔
        ∃ i child, ns[i]? = some child ∧ Under ⟨address ++ [index + i], child⟩ x
  | address, index, [] => by
      rw [documentOrderFrom]
      simp
  | address, index, n :: ns => by
      rw [documentOrderFrom, List.mem_append, mem_documentOrder, mem_documentOrderFrom]
      constructor
      · rintro (hunder | ⟨i, child, hchild, hunder⟩)
        · exact ⟨0, n, rfl, hunder⟩
        · refine ⟨i + 1, child, hchild, ?_⟩
          rwa [Nat.add_assoc, Nat.add_comm 1 i] at hunder
      · rintro ⟨i, child, hchild, hunder⟩
        cases i with
        | zero =>
            cases hchild
            exact Or.inl hunder
        | succ i =>
            refine Or.inr ⟨i, child, hchild, ?_⟩
            rwa [Nat.add_assoc, Nat.add_comm 1 i]

end

/-- What lies below a node comes after it. -/
theorem lt_append_cons (address : Address) (i : Nat) (path : Address) :
    address < address ++ i :: path := by
  have hlt : address ++ [] < address ++ i :: path := List.append_left_lt (List.nil_lt_cons i path)
  rwa [List.append_nil] at hlt

mutual

theorem pairwise_documentOrder :
    ∀ (address : Address) (n : Node),
      (n.documentOrder address).Pairwise fun x y => x.address < y.address
  | address, mk kind start faulty ns => by
      rw [documentOrder]
      refine List.Pairwise.cons ?_ (pairwise_documentOrderFrom address 0 ns)
      intro y hy
      obtain ⟨i, child, -, path, -, haddress⟩ := (mem_documentOrderFrom address 0 ns).mp hy
      rw [haddress, List.append_assoc, List.singleton_append]
      exact lt_append_cons address _ path

theorem pairwise_documentOrderFrom :
    ∀ (address : Address) (index : Nat) (ns : List Node),
      (documentOrderFrom address index ns).Pairwise fun x y => x.address < y.address
  | address, index, [] => by
      rw [documentOrderFrom]
      exact List.Pairwise.nil
  | address, index, n :: ns => by
      rw [documentOrderFrom]
      refine List.pairwise_append.mpr
        ⟨pairwise_documentOrder _ n, pairwise_documentOrderFrom _ _ ns, ?_⟩
      intro x hx y hy
      obtain ⟨path, -, hxaddress⟩ := (mem_documentOrder _ n).mp hx
      obtain ⟨i, child, -, path', -, hyaddress⟩ := (mem_documentOrderFrom address _ ns).mp hy
      rw [hxaddress, hyaddress, List.append_assoc, List.append_assoc]
      exact List.append_left_lt (List.cons_lt_cons_iff.mpr (Or.inl (by omega)))

end

/-- The classes with a name, in document order. -/
def classesInOrder (n : Node) (name : String) : List Placed :=
  (n.documentOrder []).filter (·.node.kind = .classDefinition name)

theorem mem_classesInOrder {n : Node} {name : String} {x : Placed} :
    x ∈ n.classesInOrder name ↔ n.ClassAt name x.address x.node := by
  rw [classesInOrder, List.mem_filter, mem_documentOrder, decide_eq_true_iff]
  simp [Under, ClassAt]

theorem pairwise_classesInOrder (n : Node) (name : String) :
    (n.classesInOrder name).Pairwise fun x y => x.address < y.address :=
  (pairwise_documentOrder [] n).filter _

/-- The class that counts, found in document order. -/
theorem lastClassAt_iff {n : Node} {name : String} {x : Placed} :
    n.LastClassAt name x.address x.node ↔
      LastDeepest (·.address.length) (n.classesInOrder name) x := by
  have hpairwise := pairwise_classesInOrder n name
  constructor
  · rintro ⟨hclass, hlast⟩
    obtain ⟨before, after, hsplit⟩ := List.append_of_mem (mem_classesInOrder.mpr hclass)
    rw [hsplit, List.pairwise_append, List.pairwise_cons] at hpairwise
    obtain ⟨-, ⟨hafter, -⟩, hbefore⟩ := hpairwise
    refine ⟨before, after, hsplit, ?_, ?_⟩
    · intro y hy
      have hlt : y.address < x.address := hbefore y hy x List.mem_cons_self
      have hclass := mem_classesInOrder.mp (hsplit ▸ List.mem_append_left _ hy)
      rcases hlast y.address y.node hclass with hsame | hyx
      · rw [hsame] at hlt
        exact absurd hlt (lt_irrefl x.address)
      · exact hyx.length_le
    · intro y hy
      have hlt : x.address < y.address := hafter y hy
      have hclass := mem_classesInOrder.mp
        (hsplit ▸ List.mem_append_right _ (List.mem_cons_of_mem _ hy))
      rcases hlast y.address y.node hclass with hsame | hlength | ⟨-, hyx⟩
      · rw [hsame] at hlt
        exact absurd hlt (lt_irrefl x.address)
      · exact hlength
      · exact absurd hyx (lt_asymm hlt)
  · rintro ⟨before, after, hsplit, hbefore, hafter⟩
    rw [hsplit, List.pairwise_append] at hpairwise
    refine ⟨mem_classesInOrder.mp (hsplit ▸ by simp), ?_⟩
    intro path c hclass
    have hmem : (⟨path, c⟩ : Placed) ∈ n.classesInOrder name := mem_classesInOrder.mpr hclass
    rw [hsplit] at hmem
    rcases List.mem_append.mp hmem with hy | hy
    · have hlt : path < x.address := hpairwise.2.2 _ hy x List.mem_cons_self
      have hlength : path.length ≤ x.address.length := hbefore _ hy
      rcases Nat.lt_or_eq_of_le hlength with hlength | hlength
      · exact Or.inr (Or.inl hlength)
      · exact Or.inr (Or.inr ⟨hlength, hlt⟩)
    · rcases List.mem_cons.mp hy with hsame | hy
      · exact Or.inl (congrArg Placed.address hsame)
      · exact Or.inr (Or.inl (hafter _ hy))

end Node

end ApiSurface.Python
