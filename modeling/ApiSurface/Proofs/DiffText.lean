import ApiSurface.Diff.Json
import ApiSurface.Proofs.DiffTiers
import ApiSurface.Proofs.SnapshotText

/-! The text of a diff is that of a snapshot. A module or class that is missing as a whole is written
like one without names and is read back as such; everything else is read back as the names that are
listed. What is read lies within the side that the changes were taken from, and it can stand for that
side: compared with the other side it gives the same diff again. -/

namespace ApiSurface

/-! ### Inclusion -/

/-- All names of one module are names of another. -/
structure Symbols.Within (x y : Symbols) : Prop where
  functions : ∀ f, f ∈ x.functions → f ∈ y.functions
  classes : ∀ k, k ∈ x.classes.keys → k ∈ y.classes.keys
  methods : ∀ k a b, x.classes.get? k = some a → y.classes.get? k = some b → ∀ m, m ∈ a → m ∈ b

/-- All modules of one snapshot are modules of another, and so are their names. -/
structure Snapshot.Within (s t : Snapshot) : Prop where
  paths : ∀ p, p ∈ s.paths → p ∈ t.paths
  symbols : ∀ p x y, s.get? p = some x → t.get? p = some y → x.Within y

/-! ### The names that a diff lists -/

/-- The methods that are listed for a class. -/
def ClassChange.listed : ClassChange → NameSet
  | whole => ∅
  | methods names => names

/-- The names that are listed for a module. -/
def ModuleChange.listed : ModuleChange → Symbols
  | whole => {}
  | symbols c => { classes := c.classes.map ClassChange.listed, functions := c.functions }

/-- The names that a diff lists, as a snapshot. -/
def Diff.listed (d : Diff) : Snapshot :=
  ⟨d.modules.map ModuleChange.listed⟩

theorem ModuleChange.get?_listed_symbols (c : SymbolChanges) (k : String) :
    (ModuleChange.symbols c).listed.classes.get? k = (c.classes.get? k).map ClassChange.listed :=
  NameMap.get?_map _ _ _

theorem Diff.get?_listed (d : Diff) (p : String) :
    d.listed.get? p = (d.get? p).map ModuleChange.listed :=
  NameMap.get?_map _ _ _

/-! ### Reading the text -/

namespace Json

theorem lawful_compact : compact.Lawful where
  lineBreak _ := blank_nil
  colon := ⟨[], blank_nil, rfl⟩

variable {style : Style}

/-- An object without fields is taken as the state that reading starts from. -/
theorem takes_fields_empty (style : Style) {σ : Type} (field : σ → String → Scan σ) (s : σ)
    (depth : Nat) :
    Takes (do advance; fields field ((← get).length + 1) true s)
      ((Json.object []).write style depth) s := by
  have hempty : FieldsText field true s ['\x7d'] s := FieldsText.done blank_nil
  rw [write]
  exact hempty.takes_opened

end Json

open Json

variable {style : Style}

theorem Symbols.takes_readClass_empty (depth : Nat) :
    Takes readClass ((Json.object []).write style depth) ∅ := by
  have hfields := takes_fields_empty style classField none depth
  intro rest
  rw [write] at hfields ⊢
  exact (peekValue_brace _ _).trans (hfields.map (·.getD ∅) rest)

theorem Symbols.takes_read_empty (depth : Nat) :
    Takes Symbols.read ((Json.object []).write style depth) {} := by
  have hfields := takes_fields_empty style Symbols.field {} depth
  intro rest
  rw [write] at hfields ⊢
  exact (peekValue_brace _ _).trans
    (hfields.map (fun t => Symbols.mk (t.classes.getD ∅) (t.functions.getD ∅)) rest)

theorem ClassChange.takes_readClass (hstyle : style.Lawful) (c : ClassChange) (depth : Nat) :
    Takes Symbols.readClass (c.toJson.write style depth) c.listed := by
  cases c with
  | whole => exact Symbols.takes_readClass_empty depth
  | methods names => exact Symbols.takes_readClass hstyle names depth

theorem ModuleChange.takes_read (hstyle : style.Lawful) (c : ModuleChange) (depth : Nat) :
    Takes Symbols.read (c.toJson.write style depth) c.listed := by
  cases c with
  | whole => exact Symbols.takes_read_empty depth
  | symbols c =>
      have hclasses := takes_map_write_map hstyle c.classes (depth + 1)
        fun b hb change => Takes.blank (change.takes_readClass hstyle (depth + 2)) hb
      exact Symbols.takes_read_record hstyle c.functions depth fun _ => Takes.blank hclasses

namespace Diff

/-- The text of a diff, in any layout, is read as what it lists. -/
theorem ofJson_toJson (hstyle : style.Lawful) (d : Diff) :
    Snapshot.ofJson (d.toJson.render style) = .ok d.listed := by
  have hmap := takes_map_write_map hstyle d.modules 0
    fun b hb change => Takes.blank (change.takes_read hstyle 1) hb
  have hread := readText_of_takes (hmap.map Snapshot.mk) blank_nil
  rw [List.append_nil] at hread
  exact hread

end Diff

/-! ### Comparing what was read -/

theorem NameSet.diff_diff_self (s t : NameSet) : (s.diff t).diff t = s.diff t := by
  apply NameSet.ext_mem
  intro a
  simp only [NameSet.mem_diff, and_assoc, and_self]

/-- A class that is missing as a whole is still missing, and listed methods are compared again as they
are neither empty nor on the other side. -/
theorem ClassChange.between?_listed {here : NameSet} {there : Option NameSet} {change : ClassChange}
    (h : ClassChange.between? here there = some change) :
    ClassChange.between? change.listed there = some change := by
  cases there with
  | none =>
      cases h
      rfl
  | some there =>
      rw [ClassChange.between?] at h
      split at h
      · cases h
      · rename_i hguard
        cases h
        have hmethods : ¬(here.diff there).isEmpty = true ∧ ¬there.isEmpty = true := by
          simp only [Bool.or_eq_true, not_or] at hguard
          exact ⟨hguard.2, hguard.1.2⟩
        rw [ClassChange.listed, ClassChange.between?, NameSet.diff_diff_self, if_neg]
        simp [hmethods.1, hmethods.2]

theorem ClassChange.listed_subset {here : NameSet} {there : Option NameSet} {change : ClassChange}
    (h : ClassChange.between? here there = some change) {m : String} (hm : m ∈ change.listed) :
    m ∈ here := by
  cases change with
  | whole => exact absurd hm (NameSet.not_mem_empty m)
  | methods names =>
      cases there with
      | none => cases h
      | some there =>
          rw [ClassChange.between?] at h
          split at h
          · cases h
          · cases h
            exact (NameSet.mem_diff.mp hm).1

namespace SymbolChanges

theorem between_listed (here there : Symbols) :
    between (ModuleChange.symbols (between here there)).listed there = between here there := by
  have hclasses : (between (ModuleChange.symbols (between here there)).listed there).classes =
      (between here there).classes := by
    apply NameMap.ext_get?
    intro k
    rw [get?_between_classes, ModuleChange.get?_listed_symbols]
    cases hk : (between here there).classes.get? k with
    | none => rfl
    | some change =>
        rw [get?_between_classes] at hk
        obtain ⟨methods, -, hchange⟩ := Option.bind_eq_some_iff.mp hk
        exact ClassChange.between?_listed hchange
  exact congrArg₂ SymbolChanges.mk hclasses (NameSet.diff_diff_self here.functions there.functions)

theorem listed_within (here there : Symbols) :
    (ModuleChange.symbols (between here there)).listed.Within here := by
  have hentry : ∀ k a, (ModuleChange.symbols (between here there)).listed.classes.get? k = some a →
      ∃ methods, here.classes.get? k = some methods ∧ ∀ m, m ∈ a → m ∈ methods := by
    intro k a ha
    rw [ModuleChange.get?_listed_symbols] at ha
    obtain ⟨change, hk, rfl⟩ := Option.map_eq_some_iff.mp ha
    rw [get?_between_classes] at hk
    obtain ⟨methods, hmethods, hchange⟩ := Option.bind_eq_some_iff.mp hk
    exact ⟨methods, hmethods, fun _ => ClassChange.listed_subset hchange⟩
  refine ⟨fun f hf => (NameSet.mem_diff.mp hf).1, ?_, ?_⟩
  · intro k hk
    obtain ⟨a, ha⟩ := NameMap.mem_keys.mp hk
    obtain ⟨methods, hmethods, -⟩ := hentry k a ha
    exact NameMap.mem_keys.mpr ⟨methods, hmethods⟩
  · intro k a b ha hb
    obtain ⟨methods, hmethods, hsubset⟩ := hentry k a ha
    rw [hmethods] at hb
    cases hb
    exact hsubset

end SymbolChanges

/-- The names listed for a module are compared to the same change. -/
theorem ModuleChange.between?_listed {here : Symbols} {there : Option Symbols}
    {change : ModuleChange} (h : ModuleChange.between? here there = some change) :
    ModuleChange.between? change.listed there = some change ∧ change.listed.Within here := by
  cases there with
  | none =>
      cases h
      exact ⟨rfl, fun _ hf => absurd hf (NameSet.not_mem_empty _),
        fun _ hk => absurd hk List.not_mem_nil, fun _ _ _ ha => by cases ha⟩
  | some there =>
      obtain ⟨hexceeds, rfl⟩ := SymbolChanges.change?_between_eq_some_iff.mp h
      rw [ModuleChange.between?, SymbolChanges.between_listed]
      exact ⟨h, SymbolChanges.listed_within here there⟩

namespace Diff

theorem changes_listed (d : Direction) (here there : Snapshot) :
    changes (Diff.mk d (changes here there)).listed there = changes here there := by
  apply NameMap.ext_get?
  intro p
  have hget : (changes (Diff.mk d (changes here there)).listed there).get? p =
      ((Diff.mk d (changes here there)).listed.get? p).bind fun symbols =>
        ModuleChange.between? symbols (there.get? p) := NameMap.get?_filterMap _ _ _
  rw [hget, get?_listed, get?]
  cases hp : (changes here there).get? p with
  | none => rfl
  | some change =>
      rw [changes, NameMap.get?_filterMap] at hp
      obtain ⟨symbols, -, hchange⟩ := Option.bind_eq_some_iff.mp hp
      exact (ModuleChange.between?_listed hchange).1

theorem listed_within (d : Direction) (here there : Snapshot) :
    (Diff.mk d (changes here there)).listed.Within here := by
  have hentry : ∀ p x, (Diff.mk d (changes here there)).listed.get? p = some x →
      ∃ symbols, here.get? p = some symbols ∧ x.Within symbols := by
    intro p x hx
    rw [get?_listed, get?] at hx
    obtain ⟨change, hp, rfl⟩ := Option.map_eq_some_iff.mp hx
    rw [changes, NameMap.get?_filterMap] at hp
    obtain ⟨symbols, hsymbols, hchange⟩ := Option.bind_eq_some_iff.mp hp
    exact ⟨symbols, hsymbols, (ModuleChange.between?_listed hchange).2⟩
  constructor
  · intro p hp
    obtain ⟨x, hx⟩ := mem_paths.mp hp
    obtain ⟨symbols, hsymbols, -⟩ := hentry p x hx
    exact mem_paths.mpr ⟨symbols, hsymbols⟩
  · intro p x y hx hy
    obtain ⟨symbols, hsymbols, hwithin⟩ := hentry p x hx
    rw [hsymbols] at hy
    cases hy
    exact hwithin

theorem between_removed_listed (former latter : Snapshot) :
    between (between former latter .removed).listed latter .removed =
      between former latter .removed := by
  rw [between_eq former latter, between_eq]
  exact congrArg (Diff.mk .removed) (changes_listed .removed former latter)

theorem between_added_listed (former latter : Snapshot) :
    between former (between former latter .added).listed .added = between former latter .added := by
  rw [between_eq former latter, between_eq]
  exact congrArg (Diff.mk .added) (changes_listed .added latter former)

/-- **A diff that was written and read as a snapshot can stand for the side it was taken from.** Both
layouts are read as the same snapshot. All its names are names of that side, and compared with the
other side it gives the diff that was written. -/
theorem ofJson_between_exact (former latter : Snapshot) :
    (∃ p, Snapshot.ofJson ((between former latter .removed).toJson.render compact) = .ok p ∧
      Snapshot.ofJson ((between former latter .removed).toJson.render pretty) = .ok p ∧
      p.Within former ∧ between p latter .removed = between former latter .removed) ∧
    ∃ p, Snapshot.ofJson ((between former latter .added).toJson.render compact) = .ok p ∧
      Snapshot.ofJson ((between former latter .added).toJson.render pretty) = .ok p ∧
      p.Within latter ∧ between former p .added = between former latter .added := by
  have hwithin : ∀ d, (between former latter d).listed.Within (d.source former latter) := by
    intro d
    rw [between_eq]
    exact listed_within d _ _
  exact ⟨⟨_, ofJson_toJson lawful_compact _, ofJson_toJson lawful_pretty _, hwithin .removed,
      between_removed_listed former latter⟩,
    ⟨_, ofJson_toJson lawful_compact _, ofJson_toJson lawful_pretty _, hwithin .added,
      between_added_listed former latter⟩⟩

end Diff

end ApiSurface
