import Mathlib.Data.List.Nodup
import Mathlib.Data.Set.Card
import ApiSurface.Diff.Lines
import ApiSurface.Proofs.DiffTiers

/-! The lines of a diff. What one snapshot lacks of another is a list of modules, classes, methods and
functions; it is written down here straight from the two snapshots, in the order in which the lines are
to come. The lines are gathered from the entries of the diff, whole modules apart from all else, and
they turn out to be the names of that list, one by one. -/

namespace ApiSurface

/-- Something that one snapshot has and another lacks. -/
inductive Lack where
  | wholeModule (path : String)
  | wholeClass (path name : String)
  | method (path owner name : String)
  | function (path name : String)
deriving DecidableEq

namespace Lack

/-- The module that it is in. -/
def path : Lack → String
  | wholeModule path | wholeClass path _ | method path _ _ | function path _ => path

/-- The class that it is or is in. -/
def owner? : Lack → Option String
  | wholeClass _ name => some name
  | method _ owner _ => some owner
  | _ => none

/-- The dotted name that is reported for it. -/
def name : Lack → String
  | wholeModule path => ModulePath.dotted path
  | wholeClass path name => ModulePath.dotted path ++ "." ++ name
  | method path owner name => ModulePath.dotted path ++ "." ++ owner ++ "." ++ name
  | function path name => ModulePath.dotted path ++ "." ++ name

/-- What is lacking of a class: all of it if the other side has no such class, and else its methods, of
which nothing is said unless both sides list some. -/
def ofClass (path owner : String) (here : NameSet) : Option NameSet → List Lack
  | none => [wholeClass path owner]
  | some there =>
      if here = ∅ ∨ there = ∅ then [] else (here.diff there).toList.map (method path owner)

/-- What is lacking of a module that both sides have: its classes in increasing order, each with its
methods, and then its functions. -/
def ofModule (path : String) (here there : Symbols) : List Lack :=
  here.classes.toList.flatMap (fun e => ofClass path e.1 e.2 (there.classes.get? e.1)) ++
    (here.functions.diff there.functions).toList.map (function path)

/-- What is lacking within a module, if both sides have it. -/
def inBoth (path : String) : Option Symbols → Option Symbols → List Lack
  | some here, some there => ofModule path here there
  | _, _ => []

/-- What a snapshot has and another lacks: the modules that are missing altogether, in increasing order
of their paths, and then, in the same order, what is lacking within each module that both have. -/
def between (here there : Snapshot) : List Lack :=
  (here.pathSet.diff there.pathSet).toList.map wholeModule ++
    (here.pathSet.inter there.pathSet).toList.flatMap fun path =>
      inBoth path (here.get? path) (there.get? path)

end Lack

/-- A snapshot has this and the other does not. Of a module or class that is missing altogether nothing
else is counted, and the methods of a class only if both sides list some. -/
def Snapshot.Lacks (here there : Snapshot) : Lack → Prop
  | .wholeModule path => path ∈ here.paths ∧ path ∉ there.paths
  | .wholeClass path name => ∃ x y, here.get? path = some x ∧ there.get? path = some y ∧
      name ∈ x.classes.keys ∧ name ∉ y.classes.keys
  | .method path owner name => ∃ x y a b, here.get? path = some x ∧ there.get? path = some y ∧
      x.classes.get? owner = some a ∧ y.classes.get? owner = some b ∧ a ≠ ∅ ∧ b ≠ ∅ ∧
      name ∈ a ∧ name ∉ b
  | .function path name => ∃ x y, here.get? path = some x ∧ there.get? path = some y ∧
      name ∈ x.functions ∧ name ∉ y.functions

/-! ### Gathering from entries -/

theorem NameMap.flatMap_filterMap {α β γ : Type} (f : String → α → Option β) (m : NameMap α)
    (g : String × β → List γ) :
    (m.filterMap f).toList.flatMap g =
      m.toList.flatMap fun e => (f e.1 e.2).elim [] fun b => g (e.1, b) := by
  rw [toList_filterMap]
  induction m.toList with
  | nil => rfl
  | cons e es ih =>
      rw [List.filterMap_cons, List.flatMap_cons]
      cases f e.1 e.2 with
      | none => exact ih
      | some b => exact congrArg (g (e.1, b) ++ ·) ih

/-- Gathering from some of the paths of a snapshot goes over all its modules and passes over the
others. -/
theorem Snapshot.flatMap_filter_pathSet {γ : Type} (s : Snapshot) (p : String → Bool)
    (g : String → List γ) :
    (s.pathSet.filter p).toList.flatMap g =
      s.modules.toList.flatMap fun e => if p e.1 then g e.1 else [] := by
  show ((s.modules.toList.map Prod.fst).filter p).flatMap g = _
  induction s.modules.toList with
  | nil => rfl
  | cons e es ih =>
      rw [List.map_cons, List.filter_cons, List.flatMap_cons]
      by_cases hp : p e.1 = true
      · simp [hp, ih]
      · simp [hp, ih]

/-! ### The names of the entries -/

namespace SymbolChanges

/-- The names of a class that is entered, put behind the name of its module. -/
theorem map_names_between? (path owner : String) (here : NameSet) (there : Option NameSet) :
    ((ClassChange.between? here there).elim [] fun change => change.names owner).map
        (fun name => ModulePath.dotted path ++ "." ++ name) =
      (Lack.ofClass path owner here there).map Lack.name := by
  cases there with
  | none => rfl
  | some there =>
      rw [ClassChange.between?, Lack.ofClass]
      by_cases hempty : here = ∅ ∨ there = ∅
      · have hguard : (here.isEmpty || there.isEmpty || (here.diff there).isEmpty) = true := by
          simpa [NameSet.isEmpty_iff] using Or.inl hempty
        rw [if_pos hempty, if_pos hguard]
        rfl
      rw [if_neg hempty]
      by_cases hdiff : here.diff there = ∅
      · -- No method is missing, so there is neither an entry nor a name.
        have hguard : (here.isEmpty || there.isEmpty || (here.diff there).isEmpty) = true := by
          simpa [NameSet.isEmpty_iff] using Or.inr hdiff
        rw [if_pos hguard, hdiff]
        rfl
      · have hguard : ¬(here.isEmpty || there.isEmpty || (here.diff there).isEmpty) = true := by
          simpa [NameSet.isEmpty_iff] using ⟨not_or.mp hempty, hdiff⟩
        rw [if_neg hguard]
        simp [ClassChange.names, Lack.name, String.append_assoc]

theorem map_names_between (path : String) (here there : Symbols) :
    (between here there).names.map (fun name => ModulePath.dotted path ++ "." ++ name) =
      (Lack.ofModule path here there).map Lack.name := by
  unfold names Lack.ofModule
  rw [List.map_append, List.map_append]
  congr 1
  · calc ((between here there).classes.toList.flatMap fun e => e.2.names e.1).map
          (fun name => ModulePath.dotted path ++ "." ++ name)
        = (here.classes.toList.flatMap fun e =>
            (ClassChange.between? e.2 (there.classes.get? e.1)).elim [] fun change =>
              change.names e.1).map (fun name => ModulePath.dotted path ++ "." ++ name) := by
          rw [between, NameMap.flatMap_filterMap]
      _ = here.classes.toList.flatMap fun e =>
            (Lack.ofClass path e.1 e.2 (there.classes.get? e.1)).map Lack.name := by
          rw [List.map_flatMap]
          exact List.flatMap_congr fun e _ => map_names_between? path e.1 e.2 _
      _ = (here.classes.toList.flatMap fun e =>
            Lack.ofClass path e.1 e.2 (there.classes.get? e.1)).map Lack.name := by
          rw [List.map_flatMap]
  · simp [between, Lack.name]

/-- A module without an entry lacks nothing, so the names of its changes can be taken anyway. -/
theorem names_eq_nil_of_isEmpty {c : SymbolChanges} (h : c.isEmpty = true) : c.names = [] := by
  rw [isEmpty_iff.mp h]
  rfl

end SymbolChanges

namespace Diff

theorem wholeModules_between (former latter : Snapshot) (d : Direction) :
    (between former latter d).wholeModules =
      ((d.source former latter).pathSet.diff (d.target former latter).pathSet).toList.map
        ModulePath.dotted := by
  rw [between_eq]
  generalize d.source former latter = here
  generalize d.target former latter = there
  unfold wholeModules
  rw [List.filterMap_eq_flatMap_toList, changes, NameMap.flatMap_filterMap, List.map_eq_flatMap,
    NameSet.diff, Snapshot.flatMap_filter_pathSet]
  apply List.flatMap_congr
  intro e _
  cases hthere : there.get? e.1 with
  | none =>
      have hnot : e.1 ∉ there.pathSet := not_mem_pathSet.mpr hthere
      simp [ModuleChange.between?, hnot]
  | some y =>
      have hmem : e.1 ∈ there.pathSet := mem_pathSet.mpr ⟨y, hthere⟩
      unfold ModuleChange.between? SymbolChanges.change?
      by_cases hempty : (SymbolChanges.between e.2 y).isEmpty = true
      · simp [hempty, hmem]
      · simp [hempty, hmem]

theorem symbols_between (former latter : Snapshot) (d : Direction) :
    (between former latter d).symbols =
      ((d.source former latter).pathSet.inter (d.target former latter).pathSet).toList.flatMap
        fun path => (Lack.inBoth path ((d.source former latter).get? path)
          ((d.target former latter).get? path)).map Lack.name := by
  rw [between_eq]
  generalize d.source former latter = here
  generalize d.target former latter = there
  unfold symbols
  rw [changes, NameMap.flatMap_filterMap, NameSet.inter, Snapshot.flatMap_filter_pathSet]
  apply List.flatMap_congr
  intro e he
  have hhere : here.get? e.1 = some e.2 := NameMap.get?_eq_some_iff.mpr he
  cases hthere : there.get? e.1 with
  | none =>
      have hnot : e.1 ∉ there.pathSet := not_mem_pathSet.mpr hthere
      simp [ModuleChange.between?, hnot]
  | some y =>
      have hmem : e.1 ∈ there.pathSet := mem_pathSet.mpr ⟨y, hthere⟩
      rw [if_pos (decide_eq_true hmem), hhere, Lack.inBoth, ← SymbolChanges.map_names_between]
      unfold ModuleChange.between? SymbolChanges.change?
      by_cases hempty : (SymbolChanges.between e.2 y).isEmpty = true
      · simp [hempty, SymbolChanges.names_eq_nil_of_isEmpty hempty]
      · simp [hempty]

theorem lines_between_eq (former latter : Snapshot) (d : Direction) :
    (between former latter d).lines =
      (Lack.between (d.source former latter) (d.target former latter)).map fun l => line d l.name := by
  unfold lines Lack.between
  rw [direction_between, wholeModules_between, symbols_between, List.map_append, List.map_append,
    List.map_map, List.map_map, List.map_flatMap, List.map_flatMap]
  simp [Function.comp_def, Lack.name]

end Diff

/-! ### Each thing once -/

namespace Lack

variable {here there : Snapshot}

theorem mem_ofClass {path owner : String} {here : NameSet} {there : Option NameSet} {l : Lack} :
    l ∈ ofClass path owner here there ↔
      there = none ∧ l = wholeClass path owner ∨
      ∃ b name, there = some b ∧ here ≠ ∅ ∧ b ≠ ∅ ∧ name ∈ here ∧ name ∉ b ∧
        l = method path owner name := by
  cases there with
  | none => simp [ofClass]
  | some b =>
      rw [ofClass]
      by_cases hempty : here = ∅ ∨ b = ∅
      · rw [if_pos hempty]
        rcases hempty with h | h <;> simp [h]
      · rw [if_neg hempty]
        rw [not_or] at hempty
        simp [hempty, ← NameSet.mem_def, eq_comm, and_assoc]

theorem mem_ofModule {path : String} {x y : Symbols} {l : Lack} :
    l ∈ ofModule path x y ↔
      (∃ k a, x.classes.get? k = some a ∧ l ∈ ofClass path k a (y.classes.get? k)) ∨
      ∃ name, name ∈ x.functions ∧ name ∉ y.functions ∧ l = function path name := by
  simp [ofModule, ← NameMap.get?_eq_some_iff, ← NameSet.mem_def, eq_comm, and_assoc]

theorem mem_inBoth {path : String} {x? y? : Option Symbols} {l : Lack} :
    l ∈ inBoth path x? y? ↔ ∃ x y, x? = some x ∧ y? = some y ∧ l ∈ ofModule path x y := by
  cases x? <;> cases y? <;> simp [inBoth]

theorem mem_between {l : Lack} :
    l ∈ between here there ↔
      (∃ path, path ∈ here.paths ∧ path ∉ there.paths ∧ l = wholeModule path) ∨
      ∃ path x y, here.get? path = some x ∧ there.get? path = some y ∧ l ∈ ofModule path x y := by
  unfold between
  rw [List.mem_append, List.mem_map, List.mem_flatMap]
  constructor
  · rintro (⟨path, hpath, rfl⟩ | ⟨path, -, hl⟩)
    · obtain ⟨hhere, hthere⟩ := NameSet.mem_diff.mp hpath
      exact Or.inl ⟨path, hhere, hthere, rfl⟩
    · rw [mem_inBoth] at hl
      obtain ⟨x, y, hx, hy, hmem⟩ := hl
      exact Or.inr ⟨path, x, y, hx, hy, hmem⟩
  · rintro (⟨path, hhere, hthere, rfl⟩ | ⟨path, x, y, hx, hy, hmem⟩)
    · exact Or.inl ⟨path, NameSet.mem_diff.mpr ⟨hhere, hthere⟩, rfl⟩
    · have hpath : path ∈ here.pathSet.inter there.pathSet :=
        NameSet.mem_inter.mpr ⟨Diff.mem_pathSet.mpr ⟨x, hx⟩, Diff.mem_pathSet.mpr ⟨y, hy⟩⟩
      refine Or.inr ⟨path, hpath, ?_⟩
      rw [mem_inBoth]
      exact ⟨x, y, hx, hy, hmem⟩

/-- The list holds exactly what the one snapshot has and the other lacks. -/
theorem mem_between_iff {l : Lack} : l ∈ between here there ↔ here.Lacks there l := by
  rw [mem_between]
  simp only [mem_ofModule, mem_ofClass]
  cases l with
  | wholeModule path => simp [Snapshot.Lacks]
  | wholeClass path name =>
      simp [Snapshot.Lacks, NameMap.mem_keys, Option.eq_none_iff_forall_ne_some]
  | method path owner name => simp [Snapshot.Lacks]
  | function path name => simp [Snapshot.Lacks]

theorem nodup_names (names : NameSet) : names.toList.Nodup :=
  names.sorted.imp fun h => ne_of_lt h

theorem path_of_mem_ofModule {path : String} {x y : Symbols} {l : Lack} (h : l ∈ ofModule path x y) :
    l.path = path := by
  rw [mem_ofModule] at h
  rcases h with ⟨k, a, -, hl⟩ | ⟨name, -, -, rfl⟩
  · rw [mem_ofClass] at hl
    rcases hl with ⟨-, rfl⟩ | ⟨b, name, -, -, -, -, -, rfl⟩ <;> rfl
  · rfl

theorem owner?_of_mem_ofClass {path owner : String} {a : NameSet} {b? : Option NameSet} {l : Lack}
    (h : l ∈ ofClass path owner a b?) : l.owner? = some owner := by
  rw [mem_ofClass] at h
  rcases h with ⟨-, rfl⟩ | ⟨b, name, -, -, -, -, -, rfl⟩ <;> rfl

theorem nodup_ofClass (path owner : String) (a : NameSet) (b? : Option NameSet) :
    (ofClass path owner a b?).Nodup := by
  cases b? with
  | none => exact List.nodup_singleton _
  | some b =>
      rw [ofClass]
      split
      · exact List.nodup_nil
      · exact (nodup_names _).map fun name name' h => (Lack.method.inj h).2.2

theorem nodup_ofModule (path : String) (x y : Symbols) : (ofModule path x y).Nodup := by
  unfold ofModule
  apply List.Nodup.append
  · apply List.nodup_flatMap.mpr
    refine ⟨fun e _ => nodup_ofClass path e.1 e.2 _, ?_⟩
    -- What is lacking of different classes is told apart by the name of the class.
    refine x.classes.sorted.imp fun {d e} hlt l hd he => ?_
    have howner := owner?_of_mem_ofClass hd
    rw [owner?_of_mem_ofClass he] at howner
    exact ne_of_lt hlt (Option.some.inj howner).symm
  · exact (nodup_names _).map fun name name' h => (Lack.function.inj h).2
  · intro l hclass hfunction
    obtain ⟨e, -, he⟩ := List.mem_flatMap.mp hclass
    obtain ⟨name, -, rfl⟩ := List.mem_map.mp hfunction
    cases owner?_of_mem_ofClass he

theorem nodup_between (here there : Snapshot) : (between here there).Nodup := by
  unfold between
  apply List.Nodup.append
  · exact (nodup_names _).map fun path path' h => Lack.wholeModule.inj h
  · apply List.nodup_flatMap.mpr
    constructor
    · intro path _
      cases here.get? path <;> cases there.get? path <;> simp [inBoth, nodup_ofModule]
    · refine (nodup_names _).imp fun {p q} hne l hp hq => hne ?_
      rw [mem_inBoth] at hp hq
      obtain ⟨x, y, -, -, hl⟩ := hp
      obtain ⟨x', y', -, -, hl'⟩ := hq
      rw [← path_of_mem_ofModule hl, path_of_mem_ofModule hl']
  · intro l hwhole hwithin
    obtain ⟨path, hpath, rfl⟩ := List.mem_map.mp hwhole
    obtain ⟨path', hpath', hl⟩ := List.mem_flatMap.mp hwithin
    rw [mem_inBoth] at hl
    obtain ⟨x, y, -, -, hmem⟩ := hl
    -- A module that is missing is on one side only, and nothing within it is listed.
    obtain rfl : path = path' := path_of_mem_ofModule hmem
    exact (NameSet.mem_diff.mp hpath).2 (NameSet.mem_inter.mp hpath').2

theorem ncard_lacks (here there : Snapshot) :
    {l | here.Lacks there l}.ncard = (between here there).length := by
  have hset : {l | here.Lacks there l} = ↑(between here there).toFinset := by
    ext l
    simp [mem_between_iff]
  rw [hset, Set.ncard_coe_finset, List.toFinset_card_of_nodup (nodup_between here there)]

/-- A list names all that one snapshot has and another lacks, each once, and nothing within a module or
class that is missing altogether. -/
structure Complete (here there : Snapshot) (items : List Lack) : Prop where
  nodup : items.Nodup
  mem_iff : ∀ l, l ∈ items ↔ here.Lacks there l
  wholeModule : ∀ l ∈ items, l.path ∉ there.paths → l = .wholeModule l.path
  wholeClass : ∀ path owner name, .wholeClass path owner ∈ items → .method path owner name ∉ items

theorem complete_between (here there : Snapshot) : Complete here there (between here there) where
  nodup := nodup_between here there
  mem_iff _ := mem_between_iff
  wholeModule l hl hpath := by
    rcases mem_between.mp hl with ⟨path, -, -, rfl⟩ | ⟨path, x, y, -, hy, hmem⟩
    · rfl
    · rw [path_of_mem_ofModule hmem] at hpath
      exact absurd (Diff.mem_paths.mpr ⟨y, hy⟩) hpath
  wholeClass path owner name hclass hmethod := by
    obtain ⟨x, y, -, hy, -, hnot⟩ := mem_between_iff.mp hclass
    obtain ⟨x', y', a, b, -, hy', -, hb, -⟩ := mem_between_iff.mp hmethod
    obtain rfl : y = y' := Option.some.inj (hy.symm.trans hy')
    exact hnot (NameMap.mem_keys.mpr ⟨b, hb⟩)

end Lack

/-- **The lines of a diff list every change once, in the documented order.** They are the names of what
one side has and the other lacks, each behind the label of the direction: first the missing modules,
then module by module the classes, whole or by their methods, and the functions. There are as many lines
as there are missing modules, classes, methods and functions, and nothing within a missing module or
class has a line. -/
theorem Diff.lines_between_exact (former latter : Snapshot) (d : Direction) :
    (between former latter d).lines =
      (Lack.between (d.source former latter) (d.target former latter)).map
        (fun l => d.label ++ " " ++ l.name) ∧
    Lack.Complete (d.source former latter) (d.target former latter)
      (Lack.between (d.source former latter) (d.target former latter)) ∧
    (between former latter d).lines.length =
      {l | (d.source former latter).Lacks (d.target former latter) l}.ncard := by
  refine ⟨lines_between_eq former latter d, Lack.complete_between _ _, ?_⟩
  rw [lines_between_eq, List.length_map, Lack.ncard_lacks]

end ApiSurface
