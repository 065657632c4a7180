import Mathlib.Data.List.Forall2
import ApiSurface.Report
import ApiSurface.Proofs.DiffText

/-! The two directions of a comparison. Exchanging the snapshots and the direction together changes
nothing but the label of the lines, so what was removed on the way there was added on the way back.
For one pair of snapshots the two directions belong together as a patch: taking away what was removed
and putting in what was added turns the former into the latter, at each of the three tiers, and nothing
is named in both. -/

namespace ApiSurface

namespace Direction

def opposite : Direction → Direction
  | removed => added
  | added => removed

theorem source_opposite {α : Type} (d : Direction) (former latter : α) :
    d.opposite.source former latter = d.target former latter := by
  cases d <;> rfl

theorem target_opposite {α : Type} (d : Direction) (former latter : α) :
    d.opposite.target former latter = d.source former latter := by
  cases d <;> rfl

end Direction

/-! ### The way back -/

namespace Diff

def mirror (d : Diff) : Diff :=
  { d with direction := d.direction.opposite }

theorem between_opposite (former latter : Snapshot) (d : Direction) :
    between latter former d.opposite = (between former latter d).mirror := by
  -- The two runs visit the classes of different sides; their closed forms are the same comparison.
  rw [between_eq, between_eq]
  cases d <;> rfl

/-- A diff of removals says what a diff of additions says: it holds the same changes, is written as
the same text in both layouts, and has the same lines but for their label. -/
structure Mirrors (removed added : Diff) : Prop where
  changes : ∀ p, removed.get? p = added.get? p
  compact : removed.toJson.render Json.compact = added.toJson.render Json.compact
  pretty : removed.toJson.render Json.pretty = added.toJson.render Json.pretty
  lines : List.Forall₂ (fun line line' => ∃ rest, line = "DELETED" ++ rest ∧ line' = "ADDED" ++ rest)
    removed.lines added.lines

theorem forall₂_lines_mirror (d : Diff) :
    List.Forall₂ (fun line line' =>
        ∃ rest, line = d.direction.label ++ rest ∧ line' = d.direction.opposite.label ++ rest)
      d.lines d.mirror.lines := by
  rw [lines, lines, List.forall₂_map_left_iff, List.forall₂_map_right_iff]
  apply List.forall₂_same.mpr
  intro name _
  exact ⟨" " ++ name, String.append_assoc, String.append_assoc⟩

theorem mirrors_between (former latter : Snapshot) :
    Mirrors (between former latter .removed) (between latter former .added) := by
  have hmirror : between latter former .added = (between former latter .removed).mirror :=
    between_opposite former latter .removed
  have hlines := forall₂_lines_mirror (between former latter .removed)
  rw [direction_between] at hlines
  rw [hmirror]
  exact ⟨fun _ => rfl, rfl, rfl, hlines⟩

end Diff

namespace Report

/-- The report with removals and additions exchanged, each under its new label. -/
def exchange (r : Report) : Report where
  removed := r.added.mirror
  added := r.removed.mirror

/-- **What was removed on the way there was added on the way back.** The two diffs hold the same
changes, have the same text in both layouts, and their lines differ in the label only, position by
position. So the report of the way back is that of the way there with removals and additions
exchanged. -/
theorem between_mirrored (former latter : Snapshot) :
    (Diff.between former latter .removed).Mirrors (Diff.between latter former .added) ∧
    between latter former = (between former latter).exchange ∧
    (between former latter).removed.Mirrors (between latter former).added ∧
    (between latter former).removed.Mirrors (between former latter).added := by
  refine ⟨Diff.mirrors_between former latter, ?_, Diff.mirrors_between former latter,
    Diff.mirrors_between latter former⟩
  exact congrArg₂ Report.mk (Diff.between_opposite former latter .added)
    (Diff.between_opposite former latter .removed)

end Report

/-! ### Patches of sets -/

namespace NameSet

def union (s t : NameSet) : NameSet :=
  t.toList.foldl insert s

@[simp] theorem mem_union {s t : NameSet} {a : String} : a ∈ s.union t ↔ a ∈ s ∨ a ∈ t :=
  mem_foldl_insert.trans or_comm

/-- A set with some names taken away and others put in. -/
def patch (s removed added : NameSet) : NameSet :=
  (s.diff removed).union added

theorem patch_diff_diff (s t : NameSet) : s.patch (s.diff t) (t.diff s) = t := by
  apply ext_mem
  intro a
  by_cases hs : a ∈ s <;> simp [patch, hs]

end NameSet

def NameMap.keysWith {α : Type} [DecidableEq α] (m : NameMap α) (v : α) : NameSet :=
  (m.filter fun _ w => w = v).keySet

theorem NameMap.mem_keysWith {α : Type} [DecidableEq α] {m : NameMap α} {v : α} {k : String} :
    k ∈ m.keysWith v ↔ m.get? k = some v := by
  rw [keysWith, mem_keySet]
  simp only [get?_eq_some_iff, filter, List.mem_filter, decide_eq_true_eq, exists_eq_right]

/-! ### The names of a diff

Where a diff has no entry for a module, or a module none for a class, nothing is missing. -/

namespace SymbolChanges

def wholeClasses (c : SymbolChanges) : NameSet :=
  c.classes.keysWith .whole

def methodsOf (c : SymbolChanges) (name : String) : NameSet :=
  match c.classes.get? name with
  | some (.methods names) => names
  | _ => ∅

/-- The changes of a module take one side of it to the other. The methods of a class are compared only
if both sides list some. -/
structure Patches (removed added : SymbolChanges) (x y : Symbols) : Prop where
  functions : x.functions.patch removed.functions added.functions = y.functions
  classes : x.classes.keySet.patch removed.wholeClasses added.wholeClasses = y.classes.keySet
  methods : ∀ k a b, x.classes.get? k = some a → y.classes.get? k = some b → a ≠ ∅ → b ≠ ∅ →
    a.patch (removed.methodsOf k) (added.methodsOf k) = b

/-- Two changes of a module name no function or method twice, and the second has no entry for a class
that is missing as a whole in the first. -/
structure Apart (c c' : SymbolChanges) : Prop where
  functions : ∀ f, f ∈ c.functions → f ∉ c'.functions
  whole : ∀ k, c.classes.get? k = some .whole → c'.classes.get? k = none
  methods : ∀ k ms ms', c.classes.get? k = some (.methods ms) →
    c'.classes.get? k = some (.methods ms') → ∀ m, m ∈ ms → m ∉ ms'

end SymbolChanges

namespace Diff

def wholePaths (d : Diff) : NameSet :=
  d.modules.keysWith .whole

def symbolsAt (d : Diff) (path : String) : SymbolChanges :=
  match d.get? path with
  | some (.symbols c) => c
  | _ => {}

/-- Two diffs take one snapshot to another, in its modules and within each module that both have. -/
structure Patches (removed added : Diff) (former latter : Snapshot) : Prop where
  paths : former.pathSet.patch removed.wholePaths added.wholePaths = latter.pathSet
  symbols : ∀ p x y, former.get? p = some x → latter.get? p = some y →
    (removed.symbolsAt p).Patches (added.symbolsAt p) x y

/-- Two diffs name nothing within a module twice, and the second has no entry for a module that is
missing as a whole in the first. -/
structure Apart (d d' : Diff) : Prop where
  whole : ∀ p, d.get? p = some .whole → d'.get? p = none
  symbols : ∀ p c c', d.get? p = some (.symbols c) → d'.get? p = some (.symbols c') → c.Apart c'

end Diff

/-! ### One module -/

namespace SymbolChanges

theorem wholeClasses_between (here there : Symbols) :
    (between here there).wholeClasses = here.classes.keySet.diff there.classes.keySet := by
  apply NameSet.ext_mem
  intro k
  rw [wholeClasses, NameMap.mem_keysWith, between_whole_iff, NameSet.mem_diff]
  rfl

theorem methodsOf_between {here there : Symbols} {k : String} {a b : NameSet}
    (ha : here.classes.get? k = some a) (hb : there.classes.get? k = some b) (hane : a ≠ ∅)
    (hbne : b ≠ ∅) : (between here there).methodsOf k = a.diff b := by
  by_cases hdiff : a.diff b = ∅
  · -- A class that lacks nothing has no entry, and so lacks the empty set.
    have hnone : (between here there).classes.get? k = none := by
      rw [get?_between_classes, ha, hb, Option.bind_some, ClassChange.between?, if_pos]
      simp [hdiff, NameSet.isEmpty_iff]
    rw [methodsOf, hnone, hdiff]
  · have hsome := between_methods_iff.mpr ⟨a, b, ha, hb, hane, hbne, hdiff, rfl⟩
    rw [methodsOf, hsome]

theorem patches_between (x y : Symbols) : (between x y).Patches (between y x) x y where
  functions := NameSet.patch_diff_diff _ _
  classes := by
    rw [wholeClasses_between, wholeClasses_between]
    exact NameSet.patch_diff_diff _ _
  methods k a b ha hb hane hbne := by
    rw [methodsOf_between ha hb hane hbne, methodsOf_between hb ha hbne hane]
    exact NameSet.patch_diff_diff a b

theorem apart_between (x y : Symbols) : (between x y).Apart (between y x) where
  functions f hf hf' := (NameSet.mem_diff.mp hf).2 (NameSet.mem_diff.mp hf').1
  whole k hk := by
    have hnot : y.classes.get? k = none := NameMap.not_mem_keySet.mp (between_whole_iff.mp hk).2
    rw [get?_between_classes, hnot]
    rfl
  methods k ms ms' hk hk' m hm hm' := by
    obtain ⟨a, b, ha, hb, -, -, -, rfl⟩ := between_methods_iff.mp hk
    obtain ⟨b', a', hb', ha', -, -, -, rfl⟩ := between_methods_iff.mp hk'
    rw [hb] at hb'
    cases hb'
    exact (NameSet.mem_diff.mp hm).2 (NameSet.mem_diff.mp hm').1

end SymbolChanges

/-! ### All modules -/

namespace Diff

variable {former latter : Snapshot}

theorem wholePaths_between (former latter : Snapshot) (d : Direction) :
    (between former latter d).wholePaths =
      (d.source former latter).pathSet.diff (d.target former latter).pathSet := by
  apply NameSet.ext_mem
  intro p
  rw [wholePaths, NameMap.mem_keysWith, NameSet.mem_diff]
  exact between_whole_iff

theorem symbolsAt_between {p : String} {x y : Symbols} (d : Direction)
    (hx : (d.source former latter).get? p = some x)
    (hy : (d.target former latter).get? p = some y) :
    (between former latter d).symbolsAt p = SymbolChanges.between x y := by
  rw [symbolsAt, get?_between, hx, hy, Option.bind_some, ModuleChange.between?,
    SymbolChanges.change?]
  cases hempty : (SymbolChanges.between x y).isEmpty with
  | true =>
      -- There is no entry, which says that the module lacks the empty set of names.
      exact (SymbolChanges.isEmpty_iff.mp hempty).symm
  | false => rfl

theorem apart_between (former latter : Snapshot) (d : Direction) :
    (between former latter d).Apart (between former latter d.opposite) where
  whole p hp := by
    have hnot : (d.target former latter).get? p = none :=
      not_mem_pathSet.mp (between_whole_iff.mp hp).2
    rw [get?_between, Direction.source_opposite, hnot]
    rfl
  symbols p c c' hp hp' := by
    obtain ⟨x, y, hx, hy, -, hexact⟩ := between_symbols_iff.mp hp
    obtain ⟨y', x', hy', hx', -, hexact'⟩ := between_symbols_iff.mp hp'
    rw [Direction.source_opposite, hy] at hy'
    rw [Direction.target_opposite, hx] at hx'
    cases hy'
    cases hx'
    rw [hexact.eq_between, hexact'.eq_between]
    exact SymbolChanges.apart_between x y

/-- **The two directions make a patch.** The former, with what was removed taken away and what was
added put in, is the latter: in its modules, in the functions and classes of a module that both have,
and in the methods of a class of which both list some. What was removed is in the former, what was
added is in the latter, and nothing is named in both. -/
theorem between_patches (former latter : Snapshot) :
    (between former latter .removed).Patches (between former latter .added) former latter ∧
    (between former latter .removed).listed.Within former ∧
    (between former latter .added).listed.Within latter ∧
    (between former latter .removed).Apart (between former latter .added) ∧
    (between former latter .added).Apart (between former latter .removed) := by
  have hwithin : ∀ d, (between former latter d).listed.Within (d.source former latter) := by
    intro d
    rw [between_eq]
    exact listed_within d _ _
  refine ⟨⟨?_, ?_⟩, hwithin .removed, hwithin .added, apart_between former latter .removed,
    apart_between former latter .added⟩
  · rw [wholePaths_between, wholePaths_between]
    exact NameSet.patch_diff_diff former.pathSet latter.pathSet
  · intro p x y hx hy
    rw [symbolsAt_between .removed hx hy, symbolsAt_between .added hy hx]
    exact SymbolChanges.patches_between x y

end Diff

end ApiSurface
