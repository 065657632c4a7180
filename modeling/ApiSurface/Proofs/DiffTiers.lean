import ApiSurface.Diff.Basic
import ApiSurface.Proofs.Names

/-! What a diff holds. The passes that fill it touch one module at a time, and within a module one
class at a time, so each has a closed form: the entry of a module is the comparison of its two sides,
name by name, and there is no entry where that comparison finds nothing. From the closed form the
exact meaning of all three tiers is read off. -/

namespace ApiSurface

@[simp] theorem Direction.mem_apply {d : Direction} {former latter : NameSet} {a : String} :
    a ∈ d.apply former latter ↔ a ∈ d.source former latter ∧ a ∉ d.target former latter :=
  NameSet.mem_diff

/-- How a class differs from the class of its name on the other side. -/
def ClassChange.between? (here : NameSet) : Option NameSet → Option ClassChange
  | none => some .whole
  | some there =>
      if here.isEmpty || there.isEmpty || (here.diff there).isEmpty then none
      else some (.methods (here.diff there))

/-- How a class of the latter differs from the class of its name in the former, as far as its methods
go. -/
def ClassChange.methods? (d : Direction) (before : Symbols) (name : String) (after : NameSet) :
    Option ClassChange :=
  (before.classes.get? name).bind fun methods =>
    if methods.isEmpty || after.isEmpty || (d.apply methods after).isEmpty then none
    else some (.methods (d.apply methods after))

/-- A class that both sides have is compared by its methods, and any other class of the side that
changes are taken from is missing as a whole. -/
theorem ClassChange.methods?_or_whole (d : Direction) (before after : Symbols) (k : String) :
    ((after.classes.get? k).bind (ClassChange.methods? d before k)).or
        (if k ∈ d.apply before.classes.keySet after.classes.keySet then some .whole else none) =
      ((d.source before after).classes.get? k).bind fun methods =>
        ClassChange.between? methods ((d.target before after).classes.get? k) := by
  cases hbefore : before.classes.get? k with
  | none =>
      have hno : k ∉ before.classes.keySet := NameMap.not_mem_keySet.mpr hbefore
      cases hafter : after.classes.get? k with
      | none =>
          have hno' : k ∉ after.classes.keySet := NameMap.not_mem_keySet.mpr hafter
          cases d <;> simp [Direction.source, Direction.target, hno, hno', hbefore, hafter]
      | some methods =>
          have hyes : k ∈ after.classes.keySet := NameMap.mem_keySet.mpr ⟨methods, hafter⟩
          cases d <;> simp [Direction.source, Direction.target, ClassChange.methods?,
            ClassChange.between?, hno, hyes, hbefore, hafter]
  | some methods =>
      have hyes : k ∈ before.classes.keySet := NameMap.mem_keySet.mpr ⟨methods, hbefore⟩
      cases hafter : after.classes.get? k with
      | none =>
          have hno : k ∉ after.classes.keySet := NameMap.not_mem_keySet.mpr hafter
          cases d <;> simp [Direction.source, Direction.target, ClassChange.between?, hno, hyes,
            hbefore, hafter]
      | some methods' =>
          have hyes' : k ∈ after.classes.keySet := NameMap.mem_keySet.mpr ⟨methods', hafter⟩
          have hcomm : (methods.isEmpty || methods'.isEmpty) = (methods'.isEmpty || methods.isEmpty) :=
            Bool.or_comm _ _
          cases d with
          | removed =>
              simp [Direction.source, Direction.target, Direction.apply, ClassChange.methods?,
                ClassChange.between?, hyes', hbefore, hafter]
          | added =>
              simp only [Direction.source, Direction.target, Direction.apply, ClassChange.methods?,
                ClassChange.between?, hbefore, hafter, Option.bind_some, hcomm]
              simp [hyes]

namespace SymbolChanges

/-- What a module has and the module of its path on the other side lacks. -/
def between (here there : Symbols) : SymbolChanges where
  classes := here.classes.filterMap fun name methods =>
    ClassChange.between? methods (there.classes.get? name)
  functions := here.functions.diff there.functions

/-- The module lacks nothing. -/
def isEmpty (c : SymbolChanges) : Bool :=
  c.classes.isEmpty && c.functions.isEmpty

/-- The entry of a module: none if it lacks nothing. -/
def change? (c : SymbolChanges) : Option ModuleChange :=
  if c.isEmpty then none else some (.symbols c)

/-- The functions and whole classes that one side of a module lacks. -/
def wholes (d : Direction) (before after : Symbols) : SymbolChanges where
  classes := .constant (d.apply before.classes.keySet after.classes.keySet) .whole
  functions := d.apply before.functions after.functions

/-- The changes with the methods of some classes of the latter, class by class. -/
def addMethods (c : SymbolChanges) (d : Direction) (before : Symbols)
    (classes : List (String × NameSet)) : SymbolChanges :=
  let entries := classes.filterMap fun e => (ClassChange.methods? d before e.1 e.2).map (e.1, ·)
  { c with classes := entries.foldl (fun m e => m.insert e.1 e.2) c.classes }

theorem isEmpty_iff {c : SymbolChanges} : c.isEmpty = true ↔ c = {} := by
  obtain ⟨classes, functions⟩ := c
  rw [isEmpty, Bool.and_eq_true, NameMap.isEmpty_iff, NameSet.isEmpty_iff, SymbolChanges.mk.injEq]

theorem change?_of_isEmpty_eq_false {c : SymbolChanges} (h : c.isEmpty = false) :
    c.change? = some (.symbols c) := by
  rw [change?, h]
  rfl

theorem isEmpty_insert (c : SymbolChanges) (name : String) (change : ClassChange) :
    isEmpty { c with classes := c.classes.insert name change } = false := by
  rw [isEmpty, Bool.and_eq_false_iff]
  exact Or.inl (NameMap.isEmpty_eq_false_iff.mpr ⟨name, change, NameMap.get?_insert_self _ _ _⟩)

end SymbolChanges

/-- How a module differs from the module of its path on the other side. -/
def ModuleChange.between? (here : Symbols) : Option Symbols → Option ModuleChange
  | none => some .whole
  | some there => (SymbolChanges.between here there).change?

namespace Diff

/-- The changes of the modules of one snapshot against another. -/
def changes (here there : Snapshot) : NameMap ModuleChange :=
  here.modules.filterMap fun path symbols => ModuleChange.between? symbols (there.get? path)

/-! ### What one update does

An update has its effect on the module of one path, and leaves the direction and all other modules
alone. -/

theorem get?_set (d : Diff) (path : String) (change : ModuleChange) (p : String) :
    (d.set path change).get? p = if p = path then some change else d.get? p :=
  NameMap.get?_insert _ _ _ _

/-- Two diffs differ at most in the change of one module. -/
def AgreeExcept (path : String) (d e : Diff) : Prop :=
  e.direction = d.direction ∧ ∀ p, p ≠ path → e.get? p = d.get? p

theorem AgreeExcept.refl (path : String) (d : Diff) : AgreeExcept path d d :=
  ⟨rfl, fun _ _ => rfl⟩

theorem AgreeExcept.trans {path : String} {d e f : Diff} (hde : AgreeExcept path d e)
    (hef : AgreeExcept path e f) : AgreeExcept path d f :=
  ⟨hef.1.trans hde.1, fun p hp => (hef.2 p hp).trans (hde.2 p hp)⟩

theorem agreeExcept_set (d : Diff) (path : String) (change : ModuleChange) :
    AgreeExcept path d (d.set path change) :=
  ⟨rfl, fun p hp => by rw [get?_set, if_neg hp]⟩

theorem agreeExcept_updateSymbols (d : Diff) (path : String) (f : SymbolChanges → SymbolChanges) :
    AgreeExcept path d (d.updateSymbols path f) := by
  rw [updateSymbols]
  split
  · exact agreeExcept_set d path _
  · exact agreeExcept_set d path _
  · exact AgreeExcept.refl path d

theorem agreeExcept_addSymbols (d : Diff) (path : String) (before after : Symbols) :
    AgreeExcept path d (d.addSymbols path before after) := by
  simp only [addSymbols]
  split
  · exact AgreeExcept.refl path d
  · exact agreeExcept_updateSymbols d path _

theorem agreeExcept_addClassMethods (path : String) (before : Symbols) (d : Diff)
    (after : String × NameSet) : AgreeExcept path d (addClassMethods path before d after) := by
  rw [addClassMethods]
  split
  · exact AgreeExcept.refl path d
  · simp only []
    split
    · exact AgreeExcept.refl path d
    · exact agreeExcept_updateSymbols d path _

theorem agreeExcept_foldl_addClassMethods (path : String) (before : Symbols)
    (classes : List (String × NameSet)) (d : Diff) :
    AgreeExcept path d (classes.foldl (addClassMethods path before) d) := by
  induction classes generalizing d with
  | nil => exact AgreeExcept.refl path d
  | cons after classes ih =>
      exact (agreeExcept_addClassMethods path before d after).trans (ih _)

theorem agreeExcept_addModule (former latter : Snapshot) (d : Diff) (path : String) :
    AgreeExcept path d (addModule former latter d path) := by
  rw [addModule]
  split
  · exact (agreeExcept_addSymbols d path _ _).trans (agreeExcept_foldl_addClassMethods path _ _ _)
  · exact AgreeExcept.refl path d

/-! ### The entry of one module

While the passes run, the entry of a module stands for what the module lacks so far: it is absent as
long as that is nothing. -/

theorem get?_updateSymbols {d : Diff} {path : String} {c : SymbolChanges}
    (h : d.get? path = c.change?) (f : SymbolChanges → SymbolChanges) :
    (d.updateSymbols path f).get? path = some (.symbols (f c)) := by
  cases hc : c.isEmpty with
  | true =>
      have hnone : d.get? path = none := by rw [h, SymbolChanges.change?, hc, if_pos rfl]
      rw [updateSymbols, hnone, SymbolChanges.isEmpty_iff.mp hc]
      simp only [get?_set, if_pos]
  | false =>
      have hsome : d.get? path = some (.symbols c) := by
        rw [h, SymbolChanges.change?_of_isEmpty_eq_false hc]
      rw [updateSymbols, hsome]
      simp only [get?_set, if_pos]

theorem get?_addSymbols {d : Diff} {path : String} (h : d.get? path = none)
    (before after : Symbols) :
    (d.addSymbols path before after).get? path =
      (SymbolChanges.wholes d.direction before after).change? := by
  have hempty : (SymbolChanges.wholes d.direction before after).isEmpty =
      ((d.direction.apply before.functions after.functions).isEmpty &&
        (d.direction.apply before.classes.keySet after.classes.keySet).isEmpty) := by
    rw [SymbolChanges.isEmpty, SymbolChanges.wholes, NameMap.isEmpty_constant, Bool.and_comm]
  have hfresh : d.get? path = SymbolChanges.change? {} := h
  simp only [addSymbols, ← hempty]
  cases hc : (SymbolChanges.wholes d.direction before after).isEmpty with
  | true =>
      rw [if_pos rfl, SymbolChanges.change?, hc, if_pos rfl]
      exact h
  | false =>
      rw [if_neg Bool.false_ne_true, get?_updateSymbols hfresh,
        SymbolChanges.change?_of_isEmpty_eq_false hc]
      rfl

theorem get?_addClassMethods {d : Diff} {path : String} {c : SymbolChanges}
    (h : d.get? path = c.change?) (before : Symbols) (after : String × NameSet) :
    (addClassMethods path before d after).get? path =
      ((ClassChange.methods? d.direction before after.1 after.2).elim c fun change =>
        { c with classes := c.classes.insert after.1 change }).change? := by
  rw [addClassMethods, ClassChange.methods?]
  cases hbefore : before.classes.get? after.1 with
  | none => exact h
  | some methods =>
      simp only [Option.bind_some]
      split
      · exact h
      · rw [get?_updateSymbols h]
        exact (SymbolChanges.change?_of_isEmpty_eq_false (SymbolChanges.isEmpty_insert c _ _)).symm

theorem get?_foldl_addClassMethods {d : Diff} {path : String} {c : SymbolChanges}
    (h : d.get? path = c.change?) (before : Symbols) (classes : List (String × NameSet)) :
    (classes.foldl (addClassMethods path before) d).get? path =
      (c.addMethods d.direction before classes).change? := by
  induction classes generalizing d c with
  | nil => exact h
  | cons after classes ih =>
      have hstep := ih (get?_addClassMethods h before after)
      rw [List.foldl_cons, hstep, (agreeExcept_addClassMethods path before d after).1,
        SymbolChanges.addMethods, SymbolChanges.addMethods, List.filterMap_cons]
      cases ClassChange.methods? d.direction before after.1 after.2 <;> rfl

/-- The two passes over a module that both sides have find all that one side lacks. -/
theorem get?_addModule {former latter : Snapshot} {d : Diff} {path : String}
    {before after : Symbols} (h : d.get? path = none) (hbefore : former.get? path = some before)
    (hafter : latter.get? path = some after) :
    (addModule former latter d path).get? path =
      (SymbolChanges.between (d.direction.source before after)
        (d.direction.target before after)).change? := by
  have hsymbols := get?_addSymbols h before after
  have hdirection := (agreeExcept_addSymbols d path before after).1
  rw [addModule, hbefore, hafter]
  simp only [addMethods]
  rw [get?_foldl_addClassMethods hsymbols, hdirection]
  congr 1
  rw [SymbolChanges.addMethods, SymbolChanges.between, SymbolChanges.wholes, SymbolChanges.mk.injEq]
  refine ⟨?_, by cases d.direction <;> rfl⟩
  apply NameMap.ext_get?
  intro k
  rw [← NameMap.toList_filterMap, NameMap.get?_foldl_toList, NameMap.get?_constant,
    NameMap.get?_filterMap, NameMap.get?_filterMap]
  exact ClassChange.methods?_or_whole d.direction before after k

/-! ### The whole run

The first pass visits the paths that only one side has and the second those that both have; no path
is visited twice. -/

theorem get?_addWhole (d : Diff) (paths : NameSet) (p : String) :
    (d.addWhole paths).get? p = if p ∈ paths then some .whole else d.get? p := by
  have hfold : ∀ (names : List String) (d : Diff),
      (names.foldl (fun d path => d.set path .whole) d).get? p =
        if p ∈ names then some .whole else d.get? p := by
    intro names
    induction names with
    | nil => intro d; simp
    | cons name names ih =>
        intro d
        rw [List.foldl_cons, ih, get?_set]
        by_cases hname : p = name <;> simp [hname]
  exact hfold paths.toList d

theorem direction_addWhole (d : Diff) (paths : NameSet) : (d.addWhole paths).direction = d.direction := by
  rw [addWhole]
  induction paths.toList generalizing d with
  | nil => rfl
  | cons path paths ih => exact ih _

theorem direction_foldl_addModule (former latter : Snapshot) (paths : List String) (d : Diff) :
    (paths.foldl (addModule former latter) d).direction = d.direction := by
  induction paths generalizing d with
  | nil => rfl
  | cons path paths ih =>
      rw [List.foldl_cons, ih]
      exact (agreeExcept_addModule former latter d path).1

theorem get?_foldl_addModule_of_not_mem (former latter : Snapshot) {paths : List String} (d : Diff)
    {p : String} (hp : p ∉ paths) :
    (paths.foldl (addModule former latter) d).get? p = d.get? p := by
  induction paths generalizing d with
  | nil => rfl
  | cons path paths ih =>
      rw [List.mem_cons, not_or] at hp
      rw [List.foldl_cons, ih _ hp.2]
      exact (agreeExcept_addModule former latter d path).2 p hp.1

theorem get?_foldl_addModule {former latter : Snapshot} {paths : List String} (hnodup : paths.Nodup)
    {d : Diff} {p : String} (hp : p ∈ paths) (hfresh : d.get? p = none) {before after : Symbols}
    (hbefore : former.get? p = some before) (hafter : latter.get? p = some after) :
    (paths.foldl (addModule former latter) d).get? p =
      (SymbolChanges.between (d.direction.source before after)
        (d.direction.target before after)).change? := by
  induction paths generalizing d with
  | nil => cases hp
  | cons path paths ih =>
      obtain ⟨hpath, hpaths⟩ := List.nodup_cons.mp hnodup
      have hstep := agreeExcept_addModule former latter d path
      rw [List.foldl_cons]
      rcases List.mem_cons.mp hp with rfl | hmem
      · rw [get?_foldl_addModule_of_not_mem former latter _ hpath,
          get?_addModule hfresh hbefore hafter]
      · have hne : p ≠ path := fun h => hpath (h ▸ hmem)
        rw [ih hpaths hmem ((hstep.2 p hne).trans hfresh), hstep.1]

theorem mem_pathSet {s : Snapshot} {p : String} : p ∈ s.pathSet ↔ ∃ symbols, s.get? p = some symbols :=
  NameMap.mem_keySet

theorem not_mem_pathSet {s : Snapshot} {p : String} : p ∉ s.pathSet ↔ s.get? p = none :=
  NameMap.not_mem_keySet

/-- **The entry of every module.** It is the comparison of the two sides of the module, seen from the
side that changes are taken from. -/
theorem get?_between (former latter : Snapshot) (d : Direction) (p : String) :
    (between former latter d).get? p =
      ((d.source former latter).get? p).bind fun symbols =>
        ModuleChange.between? symbols ((d.target former latter).get? p) := by
  rw [between]
  by_cases hcommon : p ∈ former.pathSet.inter latter.pathSet
  · obtain ⟨hformer, hlatter⟩ := NameSet.mem_inter.mp hcommon
    obtain ⟨before, hbefore⟩ := mem_pathSet.mp hformer
    obtain ⟨after, hafter⟩ := mem_pathSet.mp hlatter
    have hnodup : (former.pathSet.inter latter.pathSet).toList.Nodup :=
      (NameSet.sorted _).imp fun h => ne_of_lt h
    have hnot : p ∉ d.apply former.pathSet latter.pathSet := by
      cases d <;> simp [Direction.source, Direction.target, hformer, hlatter]
    have hfresh : (addWhole { direction := d } (d.apply former.pathSet latter.pathSet)).get? p =
        none := by
      rw [get?_addWhole, if_neg hnot]
      rfl
    rw [get?_foldl_addModule hnodup hcommon hfresh hbefore hafter, direction_addWhole]
    cases d <;> simp only [Direction.source, Direction.target, hbefore, hafter, Option.bind_some,
      ModuleChange.between?]
  · rw [get?_foldl_addModule_of_not_mem former latter _ hcommon, get?_addWhole]
    have hempty : get? { direction := d } p = none := rfl
    rw [hempty]
    cases hbefore : former.get? p with
    | none =>
        have hno := not_mem_pathSet.mpr hbefore
        cases hafter : latter.get? p with
        | none =>
            have hno' := not_mem_pathSet.mpr hafter
            cases d <;> simp [Direction.source, Direction.target, hno, hno', hbefore, hafter]
        | some after =>
            have hyes := mem_pathSet.mpr ⟨after, hafter⟩
            cases d <;> simp [Direction.source, Direction.target, ModuleChange.between?, hno, hyes,
              hbefore, hafter]
    | some before =>
        have hyes := mem_pathSet.mpr ⟨before, hbefore⟩
        have hno : p ∉ latter.pathSet := fun h => hcommon (NameSet.mem_inter.mpr ⟨hyes, h⟩)
        have hafter := not_mem_pathSet.mp hno
        cases d <;> simp [Direction.source, Direction.target, ModuleChange.between?, hno, hyes,
          hbefore, hafter]

theorem direction_between (former latter : Snapshot) (d : Direction) :
    (between former latter d).direction = d := by
  rw [between, direction_foldl_addModule, direction_addWhole]

/-- A diff in closed form: one comparison for each module of one side. -/
theorem between_eq (former latter : Snapshot) (d : Direction) :
    between former latter d = ⟨d, changes (d.source former latter) (d.target former latter)⟩ := by
  have hmodules : (between former latter d).modules =
      changes (d.source former latter) (d.target former latter) := by
    apply NameMap.ext_get?
    intro p
    rw [changes, NameMap.get?_filterMap]
    exact get?_between former latter d p
  have hdirection := direction_between former latter d
  exact congrArg₂ Diff.mk hdirection hmodules

end Diff

/-! ### The exact meaning of the three tiers -/

/-- The changes of a module are exactly what it has and the other side lacks. -/
structure SymbolChanges.Exact (here there : Symbols) (c : SymbolChanges) : Prop where
  functions_sorted : c.functions.toList.Pairwise (· < ·)
  mem_functions : ∀ f, f ∈ c.functions.toList ↔ f ∈ here.functions ∧ f ∉ there.functions
  whole : ∀ k, c.classes.get? k = some .whole ↔ k ∈ here.classes.keys ∧ k ∉ there.classes.keys
  /-- The methods of a class are compared only if both sides list some. -/
  methods : ∀ k ms, c.classes.get? k = some (.methods ms) ↔
    ∃ a b, here.classes.get? k = some a ∧ there.classes.get? k = some b ∧ a ≠ ∅ ∧ b ≠ ∅ ∧ ms ≠ ∅ ∧
      ms.toList.Pairwise (· < ·) ∧ ∀ m, m ∈ ms.toList ↔ m ∈ a ∧ m ∉ b

/-- A module has a name that the other side lacks: a function, a class, or a method of a class of which
both sides list methods. -/
def Symbols.Exceeds (here there : Symbols) : Prop :=
  (∃ f, f ∈ here.functions ∧ f ∉ there.functions) ∨
  (∃ k, k ∈ here.classes.keys ∧ k ∉ there.classes.keys) ∨
  ∃ k a b, here.classes.get? k = some a ∧ there.classes.get? k = some b ∧ a ≠ ∅ ∧ b ≠ ∅ ∧
    ∃ m, m ∈ a ∧ m ∉ b

/-- A diff is exactly what one snapshot has and another lacks. -/
structure Diff.Exact (here there : Snapshot) (diff : Diff) : Prop where
  whole : ∀ p, diff.get? p = some .whole ↔ p ∈ here.paths ∧ p ∉ there.paths
  symbols : ∀ p c, diff.get? p = some (.symbols c) ↔
    ∃ x y, here.get? p = some x ∧ there.get? p = some y ∧ x.Exceeds y ∧ c.Exact x y
  none : ∀ p, diff.get? p = none ↔
    p ∉ here.paths ∨ ∃ x y, here.get? p = some x ∧ there.get? p = some y ∧ ¬x.Exceeds y
  symbols_ne_empty : ∀ p c, diff.get? p = some (.symbols c) → c.classes ≠ ∅ ∨ c.functions ≠ ∅
  methods_ne_empty : ∀ p c k ms, diff.get? p = some (.symbols c) →
    c.classes.get? k = some (.methods ms) → ms ≠ ∅

namespace SymbolChanges

theorem get?_between_classes (here there : Symbols) (k : String) :
    (between here there).classes.get? k =
      (here.classes.get? k).bind fun methods =>
        ClassChange.between? methods (there.classes.get? k) :=
  NameMap.get?_filterMap _ _ _

theorem between_whole_iff {here there : Symbols} {k : String} :
    (between here there).classes.get? k = some .whole ↔
      k ∈ here.classes.keys ∧ k ∉ there.classes.keys := by
  rw [get?_between_classes, NameMap.mem_keys]
  have hnot : k ∉ there.classes.keys ↔ there.classes.get? k = none := NameMap.not_mem_keySet
  rw [hnot]
  cases here.classes.get? k with
  | none => simp
  | some a =>
      cases there.classes.get? k with
      | none => simp [ClassChange.between?]
      | some b =>
          simp only [Option.bind_some, ClassChange.between?]
          split <;> simp

theorem between_methods_iff {here there : Symbols} {k : String} {ms : NameSet} :
    (between here there).classes.get? k = some (.methods ms) ↔
      ∃ a b, here.classes.get? k = some a ∧ there.classes.get? k = some b ∧ a ≠ ∅ ∧ b ≠ ∅ ∧
        a.diff b ≠ ∅ ∧ ms = a.diff b := by
  rw [get?_between_classes]
  cases here.classes.get? k with
  | none => simp
  | some a =>
      cases there.classes.get? k with
      | none => simp [ClassChange.between?]
      | some b =>
          have hguard : ∀ s : NameSet, s.isEmpty = true ↔ s = ∅ := fun s => NameSet.isEmpty_iff
          simp only [Option.bind_some, ClassChange.between?, Bool.or_eq_true, hguard]
          by_cases hempty : (a = ∅ ∨ b = ∅) ∨ a.diff b = ∅
          · rw [if_pos hempty]
            constructor
            · intro h
              cases h
            · rintro ⟨a', b', ha, hb, hane, hbne, hdiff, -⟩
              cases ha
              cases hb
              rcases hempty with (h | h) | h
              · exact absurd h hane
              · exact absurd h hbne
              · exact absurd h hdiff
          · rw [if_neg hempty, Option.some.injEq, ClassChange.methods.injEq]
            rw [not_or, not_or] at hempty
            obtain ⟨⟨hane, hbne⟩, hdiff⟩ := hempty
            constructor
            · rintro rfl
              exact ⟨a, b, rfl, rfl, hane, hbne, hdiff, rfl⟩
            · rintro ⟨a', b', ha, hb, -, -, -, hms⟩
              cases ha
              cases hb
              exact hms.symm

theorem exact_between (here there : Symbols) : (between here there).Exact here there where
  functions_sorted := NameSet.sorted _
  mem_functions _ := NameSet.mem_diff
  whole _ := between_whole_iff
  methods k ms := by
    rw [between_methods_iff]
    constructor
    · rintro ⟨a, b, ha, hb, hane, hbne, hdiff, rfl⟩
      exact ⟨a, b, ha, hb, hane, hbne, hdiff, NameSet.sorted _, fun _ => NameSet.mem_diff⟩
    · rintro ⟨a, b, ha, hb, hane, hbne, hms, -, hmem⟩
      have heq : ms = a.diff b := NameSet.ext_mem fun m => (hmem m).trans NameSet.mem_diff.symm
      exact ⟨a, b, ha, hb, hane, hbne, heq ▸ hms, heq⟩

/-- The two sides of a module determine its changes. -/
theorem Exact.eq_between {here there : Symbols} {c : SymbolChanges} (h : c.Exact here there) :
    c = between here there := by
  have hbetween := exact_between here there
  have hfunctions : c.functions = (between here there).functions :=
    NameSet.ext_mem fun f => (h.mem_functions f).trans (hbetween.mem_functions f).symm
  have hclasses : c.classes = (between here there).classes := by
    apply NameMap.ext_get?
    intro k
    apply Option.ext
    intro change
    cases change with
    | whole => exact (h.whole k).trans (hbetween.whole k).symm
    | methods ms => exact (h.methods k ms).trans (hbetween.methods k ms).symm
  exact congrArg₂ SymbolChanges.mk hclasses hfunctions

theorem isEmpty_between_eq_false_iff {here there : Symbols} :
    (between here there).isEmpty = false ↔ here.Exceeds there := by
  rw [isEmpty, Bool.and_eq_false_iff, NameMap.isEmpty_eq_false_iff, NameSet.isEmpty_eq_false_iff]
  constructor
  · rintro (⟨k, change, hchange⟩ | ⟨f, hf⟩)
    · cases change with
      | whole => exact Or.inr (Or.inl ⟨k, between_whole_iff.mp hchange⟩)
      | methods ms =>
          obtain ⟨a, b, ha, hb, hane, hbne, hdiff, -⟩ := between_methods_iff.mp hchange
          obtain ⟨m, hm⟩ := NameSet.ne_empty_iff.mp hdiff
          exact Or.inr (Or.inr ⟨k, a, b, ha, hb, hane, hbne, m, NameSet.mem_diff.mp hm⟩)
    · exact Or.inl ⟨f, NameSet.mem_diff.mp hf⟩
  · rintro (⟨f, hf⟩ | ⟨k, hk⟩ | ⟨k, a, b, ha, hb, hane, hbne, m, hm⟩)
    · exact Or.inr ⟨f, NameSet.mem_diff.mpr hf⟩
    · exact Or.inl ⟨k, .whole, between_whole_iff.mpr hk⟩
    · have hdiff : a.diff b ≠ ∅ := NameSet.ne_empty_iff.mpr ⟨m, NameSet.mem_diff.mpr hm⟩
      exact Or.inl ⟨k, .methods (a.diff b),
        between_methods_iff.mpr ⟨a, b, ha, hb, hane, hbne, hdiff, rfl⟩⟩

theorem change?_between_eq_some_iff {here there : Symbols} {change : ModuleChange} :
    (between here there).change? = some change ↔
      here.Exceeds there ∧ change = .symbols (between here there) := by
  rw [← isEmpty_between_eq_false_iff, change?]
  cases (between here there).isEmpty <;> simp [eq_comm]

end SymbolChanges

namespace Diff

theorem mem_paths {s : Snapshot} {p : String} : p ∈ s.paths ↔ ∃ symbols, s.get? p = some symbols :=
  NameMap.mem_keys

theorem get?_between_eq_some_iff {former latter : Snapshot} {d : Direction} {p : String}
    {change : ModuleChange} :
    (between former latter d).get? p = some change ↔
      (∃ x, (d.source former latter).get? p = some x ∧ (d.target former latter).get? p = none ∧
        change = .whole) ∨
      ∃ x y, (d.source former latter).get? p = some x ∧ (d.target former latter).get? p = some y ∧
        x.Exceeds y ∧ change = .symbols (SymbolChanges.between x y) := by
  rw [get?_between]
  cases (d.source former latter).get? p with
  | none => simp
  | some x =>
      cases (d.target former latter).get? p with
      | none => simp [ModuleChange.between?, eq_comm]
      | some y =>
          rw [Option.bind_some, ModuleChange.between?, SymbolChanges.change?_between_eq_some_iff]
          simp

theorem between_whole_iff {former latter : Snapshot} {d : Direction} {p : String} :
    (between former latter d).get? p = some .whole ↔
      p ∈ (d.source former latter).paths ∧ p ∉ (d.target former latter).paths := by
  have hnot : p ∉ (d.target former latter).paths ↔ (d.target former latter).get? p = none :=
    not_mem_pathSet
  rw [get?_between_eq_some_iff, mem_paths, hnot]
  simp

theorem between_symbols_iff {former latter : Snapshot} {d : Direction} {p : String}
    {c : SymbolChanges} :
    (between former latter d).get? p = some (.symbols c) ↔
      ∃ x y, (d.source former latter).get? p = some x ∧ (d.target former latter).get? p = some y ∧
        x.Exceeds y ∧ c.Exact x y := by
  rw [get?_between_eq_some_iff]
  constructor
  · rintro (⟨x, -, -, h⟩ | ⟨x, y, hx, hy, hexceeds, h⟩)
    · cases h
    · cases h
      exact ⟨x, y, hx, hy, hexceeds, SymbolChanges.exact_between x y⟩
  · rintro ⟨x, y, hx, hy, hexceeds, hexact⟩
    exact Or.inr ⟨x, y, hx, hy, hexceeds, congrArg ModuleChange.symbols hexact.eq_between⟩

theorem between_none_iff {former latter : Snapshot} {d : Direction} {p : String} :
    (between former latter d).get? p = none ↔
      p ∉ (d.source former latter).paths ∨
        ∃ x y, (d.source former latter).get? p = some x ∧ (d.target former latter).get? p = some y ∧
          ¬x.Exceeds y := by
  have hnot : p ∉ (d.source former latter).paths ↔ (d.source former latter).get? p = none :=
    not_mem_pathSet
  rw [hnot, get?_between]
  cases (d.source former latter).get? p with
  | none => simp
  | some x =>
      cases (d.target former latter).get? p with
      | none => simp [ModuleChange.between?]
      | some y =>
          simp [ModuleChange.between?, SymbolChanges.change?,
            ← SymbolChanges.isEmpty_between_eq_false_iff]

/-- **A diff says exactly what one side has and the other lacks**, for every module, function, class
and method of either snapshot and in both directions. -/
theorem between_exact (former latter : Snapshot) (d : Direction) :
    (between former latter d).direction = d ∧
      (between former latter d).Exact (d.source former latter) (d.target former latter) := by
  refine ⟨direction_between former latter d, fun _ => between_whole_iff,
    fun _ _ => between_symbols_iff, fun _ => between_none_iff, ?_, ?_⟩
  · intro p c hc
    obtain ⟨x, y, -, -, hexceeds, hexact⟩ := between_symbols_iff.mp hc
    rw [← SymbolChanges.isEmpty_between_eq_false_iff, ← hexact.eq_between] at hexceeds
    by_contra hempty
    rw [not_or, not_not, not_not] at hempty
    have heq : c = {} := congrArg₂ SymbolChanges.mk hempty.1 hempty.2
    rw [SymbolChanges.isEmpty_iff.mpr heq] at hexceeds
    cases hexceeds
  · intro p c k ms hc hms
    obtain ⟨x, y, -, -, -, hexact⟩ := between_symbols_iff.mp hc
    obtain ⟨a, b, -, -, -, -, hne, -⟩ := (hexact.methods k ms).mp hms
    exact hne

end Diff

end ApiSurface
