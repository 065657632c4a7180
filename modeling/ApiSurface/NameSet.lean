/-!
Finite sets of names, kept as the strictly increasing list of their members. The order is that of
code points, so equal sets are equal lists and are always shown in the same order.
-/

namespace ApiSurface

/-- A finite set of names: its members in increasing order. -/
structure NameSet where
  toList : List String
  sorted : toList.Pairwise (· < ·)
deriving DecidableEq

namespace NameSet

/-- Names are comparable: what is neither smaller nor equal is larger. -/
theorem lt_of_not_lt_of_ne {a b : String} (h : ¬a < b) (hne : a ≠ b) : b < a := by
  refine Decidable.byContradiction fun hba => hne ?_
  exact String.le_antisymm (String.not_lt.1 hba) (String.not_lt.1 h)

/-- The increasing list with one more name in it. -/
def insertList (a : String) : List String → List String
  | [] => [a]
  | b :: bs =>
    if a < b then a :: b :: bs else if a = b then b :: bs else b :: insertList a bs

theorem mem_insertList {a x : String} {bs : List String} :
    x ∈ insertList a bs ↔ x = a ∨ x ∈ bs := by
  induction bs with
  | nil => simp [insertList]
  | cons b bs ih =>
    rw [insertList]
    split
    · simp
    · split
      · rename_i hab
        simp [hab]
      · simp only [List.mem_cons, ih]
        exact or_left_comm

theorem pairwise_insertList {a : String} {bs : List String} (h : bs.Pairwise (· < ·)) :
    (insertList a bs).Pairwise (· < ·) := by
  induction bs with
  | nil => simp [insertList]
  | cons b bs ih =>
    obtain ⟨hb, hbs⟩ := List.pairwise_cons.1 h
    rw [insertList]
    split
    · rename_i hab
      refine List.pairwise_cons.2 ⟨fun x hx => ?_, h⟩
      rcases List.mem_cons.1 hx with rfl | hx
      · exact hab
      · exact String.lt_trans hab (hb x hx)
    · split
      · exact h
      · rename_i hab hne
        refine List.pairwise_cons.2 ⟨fun x hx => ?_, ih hbs⟩
        rcases mem_insertList.1 hx with rfl | hx
        · exact lt_of_not_lt_of_ne hab hne
        · exact hb x hx

/-- The set without members. -/
def empty : NameSet := ⟨[], .nil⟩

instance : EmptyCollection NameSet := ⟨empty⟩

instance : Inhabited NameSet := ⟨∅⟩

instance : Membership String NameSet := ⟨fun s a => a ∈ s.toList⟩

instance (a : String) (s : NameSet) : Decidable (a ∈ s) :=
  inferInstanceAs (Decidable (a ∈ s.toList))

/-- The set with one more member. -/
def insert (s : NameSet) (a : String) : NameSet :=
  ⟨insertList a s.toList, pairwise_insertList s.sorted⟩

/-- The set of the names in a list. -/
def ofList (names : List String) : NameSet :=
  names.foldl insert ∅

/-- The members for which a test holds. -/
def filter (p : String → Bool) (s : NameSet) : NameSet :=
  ⟨s.toList.filter p, s.sorted.filter p⟩

/-- The members of the first set that are not in the second. -/
def diff (s t : NameSet) : NameSet :=
  s.filter fun a => decide (a ∉ t)

/-- The members of the first set that are also in the second. -/
def inter (s t : NameSet) : NameSet :=
  s.filter fun a => decide (a ∈ t)

/-- The set has no members. -/
def isEmpty (s : NameSet) : Bool :=
  s.toList.isEmpty

theorem mem_def {a : String} {s : NameSet} : a ∈ s ↔ a ∈ s.toList :=
  Iff.rfl

@[simp] theorem not_mem_empty (a : String) : a ∉ (∅ : NameSet) :=
  List.not_mem_nil

@[simp] theorem mem_insert {a b : String} {s : NameSet} : a ∈ s.insert b ↔ a = b ∨ a ∈ s :=
  mem_insertList

@[simp] theorem mem_filter {a : String} {p : String → Bool} {s : NameSet} :
    a ∈ s.filter p ↔ a ∈ s ∧ p a = true :=
  List.mem_filter

@[simp] theorem mem_diff {a : String} {s t : NameSet} : a ∈ s.diff t ↔ a ∈ s ∧ a ∉ t := by
  simp [diff]

@[simp] theorem mem_inter {a : String} {s t : NameSet} : a ∈ s.inter t ↔ a ∈ s ∧ a ∈ t := by
  simp [inter]

end NameSet

end ApiSurface
