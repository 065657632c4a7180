import Mathlib.Data.List.Sort
import Mathlib.Data.String.Basic
import ApiSurface.NameMap

/-! Sets and maps of names are determined by their members and their values. Both are kept as
increasing lists, so equality of the lists follows from membership alone; every later statement about
the order of names, and every statement that two ways to build a set or a map agree, rests on this. -/

namespace ApiSurface

namespace NameSet

theorem ext_mem {s t : NameSet} (h : ∀ a, a ∈ s ↔ a ∈ t) : s = t := by
  obtain ⟨xs, hxs⟩ := s
  obtain ⟨ys, hys⟩ := t
  have hlist : xs = ys := hxs.eq_of_mem_iff hys h
  subst hlist
  rfl

theorem isEmpty_eq_false_iff {s : NameSet} : s.isEmpty = false ↔ ∃ a, a ∈ s := by
  rw [isEmpty, List.isEmpty_eq_false_iff_exists_mem]
  exact Iff.rfl

theorem isEmpty_iff {s : NameSet} : s.isEmpty = true ↔ s = ∅ := by
  constructor
  · intro h
    apply ext_mem
    intro a
    have hnil : s.toList = [] := List.isEmpty_iff.mp h
    rw [mem_def, hnil]
    simp
  · rintro rfl
    rfl

theorem ne_empty_iff {s : NameSet} : s ≠ ∅ ↔ ∃ a, a ∈ s := by
  rw [← isEmpty_eq_false_iff, ← Bool.not_eq_true, ne_eq, isEmpty_iff]

theorem mem_foldl_insert {names : List String} {s : NameSet} {a : String} :
    a ∈ names.foldl insert s ↔ a ∈ names ∨ a ∈ s := by
  induction names generalizing s with
  | nil => simp
  | cons b names ih =>
      rw [List.foldl_cons, ih, mem_insert, List.mem_cons]
      exact or_left_comm.trans or_assoc.symm

@[simp] theorem mem_ofList {names : List String} {a : String} : a ∈ ofList names ↔ a ∈ names := by
  rw [ofList, mem_foldl_insert]
  simp

/-- Reading the members of a set one by one gives the set back. -/
theorem ofList_toList (s : NameSet) : ofList s.toList = s :=
  ext_mem fun _ => mem_ofList

end NameSet

namespace NameMap

variable {α β : Type}

theorem lookup_cons_pair (e : String × α) (es : List (String × α)) (key : String) :
    (e :: es).lookup key = if key = e.1 then some e.2 else es.lookup key := by
  rw [List.lookup_cons]
  by_cases hkey : key = e.1
  · simp [hkey]
  · rw [if_neg hkey, beq_false_of_ne hkey]

theorem lookup_insertList (k : String) (v : α) (es : List (String × α)) (key : String) :
    (insertList k v es).lookup key = if key = k then some v else es.lookup key := by
  induction es with
  | nil => rw [insertList, lookup_cons_pair]
  | cons e es ih =>
      rw [insertList]
      split
      · rw [lookup_cons_pair]
      · split
        · rename_i heq
          rw [lookup_cons_pair, lookup_cons_pair, ← heq]
          split <;> rfl
        · rename_i hne
          rw [lookup_cons_pair, lookup_cons_pair, ih]
          split
          · rename_i hkey
            rw [if_neg fun h => hne (h.symm.trans hkey)]
          · rfl

theorem lookup_insertList_self (k : String) (v : α) (es : List (String × α)) :
    (insertList k v es).lookup k = some v := by
  rw [lookup_insertList, if_pos rfl]

@[simp] theorem get?_empty (key : String) : (∅ : NameMap α).get? key = none := rfl

@[simp] theorem get?_insert (m : NameMap α) (k : String) (v : α) (key : String) :
    (m.insert k v).get? key = if key = k then some v else m.get? key :=
  lookup_insertList k v m.toList key

theorem get?_insert_self (m : NameMap α) (k : String) (v : α) : (m.insert k v).get? k = some v :=
  lookup_insertList_self k v m.toList

theorem lookup_eq_some_iff_mem {es : List (String × α)} (h : es.Pairwise (·.1 < ·.1)) {k : String}
    {v : α} : es.lookup k = some v ↔ (k, v) ∈ es := by
  induction es with
  | nil => simp
  | cons e es ih =>
      obtain ⟨hlt, hes⟩ := List.pairwise_cons.mp h
      rw [lookup_cons_pair, List.mem_cons]
      split
      · rename_i hk
        have hnot : (k, v) ∉ es := fun hmem => lt_irrefl k (hk ▸ hlt (k, v) hmem)
        rw [or_iff_left hnot, Option.some.injEq, Prod.ext_iff]
        exact ⟨fun hv => ⟨hk, hv.symm⟩, fun he => he.2.symm⟩
      · rename_i hk
        rw [ih hes, or_iff_right fun he => hk (congrArg Prod.fst he)]

theorem get?_eq_some_iff {m : NameMap α} {k : String} {v : α} :
    m.get? k = some v ↔ (k, v) ∈ m.toList :=
  lookup_eq_some_iff_mem m.sorted

theorem ext_get? {m n : NameMap α} (h : ∀ k, m.get? k = n.get? k) : m = n := by
  obtain ⟨es, hes⟩ := m
  obtain ⟨fs, hfs⟩ := n
  have hirrefl : Std.Irrefl fun e f : String × α => e.1 < f.1 := ⟨fun e => lt_irrefl e.1⟩
  have hantisymm : Std.Antisymm fun e f : String × α => e.1 < f.1 :=
    ⟨fun e f hef hfe => absurd hfe (lt_asymm hef)⟩
  have hlist : es = fs := by
    apply hes.eq_of_mem_iff hfs
    rintro ⟨k, v⟩
    rw [← lookup_eq_some_iff_mem hes, ← lookup_eq_some_iff_mem hfs]
    exact Eq.congr (h k) rfl
  subst hlist
  rfl

theorem mem_keySet {m : NameMap α} {k : String} : k ∈ m.keySet ↔ ∃ v, m.get? k = some v := by
  simp only [get?_eq_some_iff]
  exact List.mem_map.trans ⟨fun ⟨e, he, hk⟩ => ⟨e.2, hk ▸ he⟩, fun ⟨v, hv⟩ => ⟨(k, v), hv, rfl⟩⟩

theorem mem_keys {m : NameMap α} {k : String} : k ∈ m.keys ↔ ∃ v, m.get? k = some v :=
  mem_keySet

theorem not_mem_keySet {m : NameMap α} {k : String} : k ∉ m.keySet ↔ m.get? k = none := by
  rw [mem_keySet, Option.eq_none_iff_forall_ne_some]
  exact not_exists

theorem isEmpty_eq_false_iff {m : NameMap α} : m.isEmpty = false ↔ ∃ k v, m.get? k = some v := by
  rw [isEmpty, List.isEmpty_eq_false_iff_exists_mem]
  simp only [get?_eq_some_iff, Prod.exists]

theorem isEmpty_iff {m : NameMap α} : m.isEmpty = true ↔ m = ∅ := by
  constructor
  · intro h
    apply ext_get?
    intro k
    have hnil : m.toList = [] := List.isEmpty_iff.mp h
    rw [get?, hnil]
    rfl
  · rintro rfl
    rfl

/-- The last entry of a key in a list is the one that counts. -/
theorem get?_foldl_insert (entries : List (String × α)) (m : NameMap α) (k : String) :
    (entries.foldl (fun m e => m.insert e.1 e.2) m).get? k =
      (entries.reverse.lookup k).or (m.get? k) := by
  induction entries generalizing m with
  | nil => simp
  | cons e entries ih =>
      rw [List.foldl_cons, ih, List.reverse_cons, List.lookup_append, get?_insert, Option.or_assoc,
        lookup_cons_pair]
      split <;> simp

theorem get?_ofList (entries : List (String × α)) (k : String) :
    (ofList entries).get? k = entries.reverse.lookup k := by
  rw [ofList, get?_foldl_insert, get?_empty, Option.or_none]

/-- Where each key has one entry, the order of a list of entries does not matter. -/
theorem lookup_eq_of_perm {es fs : List (String × α)} (hperm : es.Perm fs)
    (hkeys : (es.map Prod.fst).Nodup) (k : String) : es.lookup k = fs.lookup k := by
  induction hperm with
  | nil => rfl
  | cons e _ ih =>
      rw [List.map_cons, List.nodup_cons] at hkeys
      rw [lookup_cons_pair, lookup_cons_pair, ih hkeys.2]
  | swap e f es =>
      rw [List.map_cons, List.map_cons, List.nodup_cons, List.mem_cons, not_or] at hkeys
      simp only [lookup_cons_pair]
      split
      · rename_i hf
        rw [if_neg fun he => hkeys.1.1 (hf.symm.trans he)]
      · rfl
  | trans hes _ ihes ihfs =>
      rw [ihes hkeys, ihfs ((hes.map Prod.fst).nodup_iff.mp hkeys)]

theorem nodup_keys (m : NameMap α) : (m.toList.map Prod.fst).Nodup :=
  (List.pairwise_map.mpr m.sorted).imp fun h => ne_of_lt h

theorem lookup_reverse {es : List (String × α)} (hkeys : (es.map Prod.fst).Nodup) (k : String) :
    es.reverse.lookup k = es.lookup k := by
  apply lookup_eq_of_perm (List.reverse_perm es)
  rw [List.map_reverse]
  exact List.nodup_reverse.mpr hkeys

theorem foldl_insert_eq_of_perm {es fs : List (String × α)} (hperm : es.Perm fs)
    (hkeys : (es.map Prod.fst).Nodup) (m : NameMap α) :
    es.foldl (fun m e => m.insert e.1 e.2) m = fs.foldl (fun m e => m.insert e.1 e.2) m := by
  have hkeys' : (fs.map Prod.fst).Nodup := (hperm.map Prod.fst).nodup_iff.mp hkeys
  apply ext_get?
  intro k
  rw [get?_foldl_insert, get?_foldl_insert, lookup_reverse hkeys, lookup_reverse hkeys',
    lookup_eq_of_perm hperm hkeys]

/-- Reading the entries of a map one by one gives the map back. -/
theorem ofList_toList (m : NameMap α) : ofList m.toList = m := by
  apply ext_get?
  intro k
  rw [get?_ofList, lookup_reverse m.nodup_keys, get?]

theorem get?_constant (names : NameSet) (v : α) (k : String) :
    (constant names v).get? k = if k ∈ names then some v else none := by
  rw [constant, get?_ofList, ← List.map_reverse]
  have hmem : k ∈ names ↔ k ∈ names.toList.reverse := List.mem_reverse.symm
  simp only [hmem]
  induction names.toList.reverse with
  | nil => simp
  | cons name names ih =>
      rw [List.map_cons, lookup_cons_pair, ih]
      by_cases hk : k = name <;> simp [hk]

theorem isEmpty_constant (names : NameSet) (v : α) : (constant names v).isEmpty = names.isEmpty := by
  apply Bool.eq_iff_iff.mpr
  rw [isEmpty_iff, NameSet.isEmpty_iff]
  constructor
  · intro h
    apply NameSet.ext_mem
    intro a
    have hget := get?_constant names v a
    rw [h, get?_empty] at hget
    by_cases ha : a ∈ names
    · rw [if_pos ha] at hget
      cases hget
    · exact iff_of_false ha (NameSet.not_mem_empty a)
  · rintro rfl
    rfl

theorem get?_foldl_toList (m n : NameMap α) (k : String) :
    (m.toList.foldl (fun m e => m.insert e.1 e.2) n).get? k = (m.get? k).or (n.get? k) := by
  rw [get?_foldl_insert, ← get?_ofList, ofList_toList]

theorem toList_filterMap (f : String → α → Option β) (m : NameMap α) :
    (m.filterMap f).toList = m.toList.filterMap fun e => (f e.1 e.2).map (e.1, ·) := rfl

theorem get?_filterMap (f : String → α → Option β) (m : NameMap α) (k : String) :
    (m.filterMap f).get? k = (m.get? k).bind (f k) := by
  apply Option.ext
  intro w
  rw [get?_eq_some_iff, Option.bind_eq_some_iff]
  simp only [get?_eq_some_iff]
  constructor
  · intro hmem
    obtain ⟨e, he, hw⟩ := List.mem_filterMap.mp hmem
    obtain ⟨w', hw', heq⟩ := Option.map_eq_some_iff.mp hw
    cases heq
    exact ⟨e.2, he, hw'⟩
  · rintro ⟨v, hv, hw⟩
    exact List.mem_filterMap.mpr ⟨(k, v), hv, by rw [hw]; rfl⟩

/-- The map with each value replaced by what a function makes of it. -/
def map (f : α → β) (m : NameMap α) : NameMap β :=
  m.filterMap fun _ a => some (f a)

@[simp] theorem get?_map (f : α → β) (m : NameMap α) (k : String) :
    (m.map f).get? k = (m.get? k).map f := by
  rw [map, get?_filterMap]
  cases m.get? k <;> rfl

theorem ofList_map (f : α → β) (m : NameMap α) :
    ofList (m.toList.map fun e => (e.1, f e.2)) = m.map f := by
  have hentries : (m.map f).toList = m.toList.map fun e => (e.1, f e.2) :=
    congrFun List.filterMap_eq_map m.toList
  rw [← hentries, ofList_toList]

theorem map_id (m : NameMap α) : m.map id = m := by
  apply ext_get?
  intro k
  rw [get?_map, Option.map_id, id]

end NameMap

end ApiSurface
