import ApiSurface.NameSet

/-!
Finite maps from names, kept as the list of their entries with strictly increasing keys. An entry
that is put in replaces the one that had its key.
-/

namespace ApiSurface

/-- A finite map from names: its entries in increasing order of their keys. -/
structure NameMap (α : Type) where
  toList : List (String × α)
  sorted : toList.Pairwise (·.1 < ·.1)
deriving DecidableEq

namespace NameMap

variable {α β : Type}

/-- The increasing list with the value of one key set. -/
def insertList (k : String) (v : α) : List (String × α) → List (String × α)
  | [] => [(k, v)]
  | e :: es =>
    if k < e.1 then (k, v) :: e :: es
    else if k = e.1 then (k, v) :: es
    else e :: insertList k v es

theorem key_of_mem_insertList {k : String} {v : α} {es : List (String × α)} {e : String × α}
    (h : e ∈ insertList k v es) : e.1 = k ∨ e ∈ es := by
  induction es with
  | nil => exact .inl (by simp_all [insertList])
  | cons d ds ih =>
    rw [insertList] at h
    split at h
    · rcases List.mem_cons.1 h with rfl | h
      · exact .inl rfl
      · exact .inr h
    · split at h
      · rcases List.mem_cons.1 h with rfl | h
        · exact .inl rfl
        · exact .inr (List.mem_cons_of_mem _ h)
      · rcases List.mem_cons.1 h with rfl | h
        · exact .inr List.mem_cons_self
        · exact (ih h).imp id (List.mem_cons_of_mem _)

theorem pairwise_insertList {k : String} {v : α} {es : List (String × α)}
    (h : es.Pairwise (·.1 < ·.1)) : (insertList k v es).Pairwise (·.1 < ·.1) := by
  induction es with
  | nil => simp [insertList]
  | cons d ds ih =>
    obtain ⟨hd, hds⟩ := List.pairwise_cons.1 h
    rw [insertList]
    split
    · rename_i hlt
      refine List.pairwise_cons.2 ⟨fun e he => ?_, h⟩
      rcases List.mem_cons.1 he with rfl | he
      · exact hlt
      · exact String.lt_trans hlt (hd e he)
    · split
      · rename_i heq
        refine List.pairwise_cons.2 ⟨fun e he => ?_, hds⟩
        exact heq ▸ hd e he
      · rename_i hlt hne
        refine List.pairwise_cons.2 ⟨fun e he => ?_, ih hds⟩
        rcases key_of_mem_insertList he with hk | he
        · exact hk ▸ NameSet.lt_of_not_lt_of_ne hlt hne
        · exact hd e he

/-- The map without entries. -/
def empty : NameMap α := ⟨[], .nil⟩

instance : EmptyCollection (NameMap α) := ⟨empty⟩

instance : Inhabited (NameMap α) := ⟨∅⟩

/-- The map with the value of one key set. -/
def insert (m : NameMap α) (k : String) (v : α) : NameMap α :=
  ⟨insertList k v m.toList, pairwise_insertList m.sorted⟩

/-- The map of the entries in a list; of two entries with one key the later counts. -/
def ofList (entries : List (String × α)) : NameMap α :=
  entries.foldl (fun m e => m.insert e.1 e.2) ∅

/-- The value of a key. -/
def get? (m : NameMap α) (k : String) : Option α :=
  m.toList.lookup k

/-- The key has a value. -/
def contains (m : NameMap α) (k : String) : Bool :=
  (m.get? k).isSome

/-- The keys, in increasing order. -/
def keys (m : NameMap α) : List String :=
  m.toList.map Prod.fst

/-- The set of the keys. -/
def keySet (m : NameMap α) : NameSet :=
  ⟨m.keys, List.pairwise_map.2 m.sorted⟩

/-- The map that gives one value to all names of a set. -/
def constant (keys : NameSet) (v : α) : NameMap α :=
  ofList (keys.toList.map (·, v))

/-- The number of entries. -/
def size (m : NameMap α) : Nat :=
  m.toList.length

/-- The map has no entries. -/
def isEmpty (m : NameMap α) : Bool :=
  m.toList.isEmpty

theorem pairwise_filterMapList (f : String → α → Option β) {es : List (String × α)}
    (h : es.Pairwise (·.1 < ·.1)) :
    (es.filterMap fun e => (f e.1 e.2).map (e.1, ·)).Pairwise (·.1 < ·.1) := by
  refine List.pairwise_filterMap.2 (h.imp fun {a b} hab x hx y hy => ?_)
  obtain ⟨_, _, rfl⟩ := Option.map_eq_some_iff.1 hx
  obtain ⟨_, _, rfl⟩ := Option.map_eq_some_iff.1 hy
  exact hab

/-- The map with each value replaced by what a function makes of it, without the entries for which
it makes nothing. -/
def filterMap (f : String → α → Option β) (m : NameMap α) : NameMap β :=
  ⟨m.toList.filterMap fun e => (f e.1 e.2).map (e.1, ·), pairwise_filterMapList f m.sorted⟩

/-- The entries for which a test of key and value holds. -/
def filter (p : String → α → Bool) (m : NameMap α) : NameMap α :=
  ⟨m.toList.filter fun e => p e.1 e.2, m.sorted.filter _⟩

end NameMap

end ApiSurface
