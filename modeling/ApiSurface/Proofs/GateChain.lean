import ApiSurface.Proofs.RemovalGate

/-! Gates along a chain of releases. Modules, functions and classes are compared by inclusion, so what
no step of a chain lost is not lost from its first release to its last. Methods are not: a class that
lists none is compared with nothing, and a release in which it lists none lets its methods be exchanged
unseen. That is the only way in which a removal can show from end to end and at no step. -/

namespace ApiSurface

/-! ### Lapses -/

/-- Of three states of a module, a class lists methods in the first and the third and none in the
second. -/
structure Symbols.Lapses (x y z : Symbols) (name : String) (first third : NameSet) : Prop where
  first_listed : x.classes.get? name = some first
  second_listed : y.classes.get? name = some ∅
  third_listed : z.classes.get? name = some third
  first_ne : first ≠ ∅
  third_ne : third ≠ ∅

/-- The same of a module of three snapshots. -/
def Snapshot.Lapses (s t u : Snapshot) (path name : String) (first third : NameSet) : Prop :=
  ∃ x y z, s.get? path = some x ∧ t.get? path = some y ∧ u.get? path = some z ∧
    x.Lapses y z name first third

/-! ### One module -/

namespace Symbols

variable {x y z : Symbols}

theorem subset_of_chain (hxy : ¬x.Exceeds y) (hyz : ¬y.Exceeds z) :
    (∀ f, f ∈ x.functions → f ∈ z.functions) ∧ ∀ k, k ∈ x.classes.keys → k ∈ z.classes.keys := by
  obtain ⟨hfxy, hkxy, -⟩ := not_exceeds_iff.mp hxy
  obtain ⟨hfyz, hkyz, -⟩ := not_exceeds_iff.mp hyz
  exact ⟨fun f hf => hfyz f (hfxy f hf), fun k hk => hkyz k (hkxy k hk)⟩

theorem lapses_of_lost_method (hxy : ¬x.Exceeds y) (hyz : ¬y.Exceeds z) {k m : String}
    {a c : NameSet} (ha : x.classes.get? k = some a) (hc : z.classes.get? k = some c)
    (hcne : c ≠ ∅) (hma : m ∈ a) (hmc : m ∉ c) : x.Lapses y z k a c := by
  obtain ⟨-, hkxy, hmxy⟩ := not_exceeds_iff.mp hxy
  obtain ⟨-, -, hmyz⟩ := not_exceeds_iff.mp hyz
  obtain ⟨b, hb⟩ := NameMap.mem_keys.mp (hkxy k (NameMap.mem_keys.mpr ⟨a, ha⟩))
  have hane : a ≠ ∅ := NameSet.ne_empty_iff.mpr ⟨m, hma⟩
  -- Had the class listed a method in between, both steps would have compared its methods.
  have hempty : b = ∅ := by
    by_contra hbne
    have hmb : m ∈ b := hmxy k a b ha hb hane hbne m hma
    exact hmc (hmyz k b c hb hc hbne hcne m hmb)
  rw [hempty] at hb
  exact ⟨ha, hb, hc, hane, hcne⟩

theorem between_of_chain (hxy : ¬x.Exceeds y) (hyz : ¬y.Exceeds z) :
    (SymbolChanges.between x z).functions = ∅ ∧
    ∀ k change, (SymbolChanges.between x z).classes.get? k = some change →
      ∃ a c, x.Lapses y z k a c ∧ change = .methods (a.diff c) := by
  obtain ⟨hfunctions, hclasses⟩ := subset_of_chain hxy hyz
  constructor
  · by_contra hne
    obtain ⟨f, hf⟩ := NameSet.ne_empty_iff.mp hne
    obtain ⟨hfx, hfz⟩ := NameSet.mem_diff.mp hf
    exact hfz (hfunctions f hfx)
  · intro k change hchange
    cases change with
    | whole =>
        obtain ⟨hkx, hkz⟩ := SymbolChanges.between_whole_iff.mp hchange
        exact absurd (hclasses k hkx) hkz
    | methods ms =>
        obtain ⟨a, c, ha, hc, -, hcne, hdiff, rfl⟩ := SymbolChanges.between_methods_iff.mp hchange
        obtain ⟨m, hm⟩ := NameSet.ne_empty_iff.mp hdiff
        obtain ⟨hma, hmc⟩ := NameSet.mem_diff.mp hm
        exact ⟨a, c, lapses_of_lost_method hxy hyz ha hc hcne hma hmc, rfl⟩

theorem exceeds_iff_of_chain (hxy : ¬x.Exceeds y) (hyz : ¬y.Exceeds z) :
    x.Exceeds z ↔ ∃ k a c, x.Lapses y z k a c ∧ ∃ m, m ∈ a ∧ m ∉ c := by
  obtain ⟨hfunctions, hclasses⟩ := subset_of_chain hxy hyz
  constructor
  · rintro (⟨f, hfx, hfz⟩ | ⟨k, hkx, hkz⟩ | ⟨k, a, c, ha, hc, -, hcne, m, hma, hmc⟩)
    · exact absurd (hfunctions f hfx) hfz
    · exact absurd (hclasses k hkx) hkz
    · exact ⟨k, a, c, lapses_of_lost_method hxy hyz ha hc hcne hma hmc, m, hma, hmc⟩
  · rintro ⟨k, a, c, hlapse, m, hma, hmc⟩
    exact Or.inr (Or.inr ⟨k, a, c, hlapse.first_listed, hlapse.third_listed, hlapse.first_ne,
      hlapse.third_ne, m, hma, hmc⟩)

end Symbols

/-! ### Whole snapshots -/

namespace Snapshot

variable {s t u : Snapshot}

/-- A module of the first release is in all three, and no step removes anything from it. -/
theorem steps_of_chain (hst : ¬s.Exceeds t) (htu : ¬t.Exceeds u) {p : String} {x : Symbols}
    (hx : s.get? p = some x) :
    ∃ y z, t.get? p = some y ∧ u.get? p = some z ∧ ¬x.Exceeds y ∧ ¬y.Exceeds z := by
  obtain ⟨hpst, hstep⟩ := not_exceeds_iff.mp hst
  obtain ⟨hptu, hstep'⟩ := not_exceeds_iff.mp htu
  have hpt : p ∈ t.paths := hpst p (Diff.mem_paths.mpr ⟨x, hx⟩)
  obtain ⟨y, hy⟩ := Diff.mem_paths.mp hpt
  obtain ⟨z, hz⟩ := Diff.mem_paths.mp (hptu p hpt)
  exact ⟨y, z, hy, hz, hstep p x y hx hy, hstep' p y z hy hz⟩

theorem exceeds_iff_of_chain (hst : ¬s.Exceeds t) (htu : ¬t.Exceeds u) :
    s.Exceeds u ↔ ∃ p k a c, s.Lapses t u p k a c ∧ ∃ m, m ∈ a ∧ m ∉ c := by
  constructor
  · rintro (⟨p, hps, hpu⟩ | ⟨p, x, z, hx, hz, hexceeds⟩)
    · obtain ⟨x, hx⟩ := Diff.mem_paths.mp hps
      obtain ⟨-, z, -, hz, -⟩ := steps_of_chain hst htu hx
      exact absurd (Diff.mem_paths.mpr ⟨z, hz⟩) hpu
    · obtain ⟨y, z', hy, hz', hxy, hyz⟩ := steps_of_chain hst htu hx
      rw [hz] at hz'
      cases hz'
      obtain ⟨k, a, c, hlapse, hlost⟩ := (Symbols.exceeds_iff_of_chain hxy hyz).mp hexceeds
      exact ⟨p, k, a, c, ⟨x, y, z, hx, hy, hz, hlapse⟩, hlost⟩
  · rintro ⟨p, k, a, c, ⟨x, y, z, hx, hy, hz, hlapse⟩, hlost⟩
    obtain ⟨y', z', hy', hz', hxy, hyz⟩ := steps_of_chain hst htu hx
    rw [hy] at hy'
    rw [hz] at hz'
    cases hy'
    cases hz'
    exact Or.inr ⟨p, x, z, hx, hz,
      (Symbols.exceeds_iff_of_chain hxy hyz).mpr ⟨k, a, c, hlapse, hlost⟩⟩

end Snapshot

namespace Report

theorem hasRemovals_between_eq_false_iff {former latter : Snapshot} :
    (between former latter).hasRemovals = false ↔ ¬former.Exceeds latter := by
  rw [hasRemovals_between, Bool.not_eq_false', ← Bool.not_eq_false]
  exact not_congr Diff.isEmpty_between_eq_false_iff

theorem removed_of_chain {s t u : Snapshot} (hst : ¬s.Exceeds t) (htu : ¬t.Exceeds u) {p : String}
    {change : ModuleChange} (h : (between s u).removed.get? p = some change) :
    ∃ changes, change = .symbols changes ∧ changes.functions = ∅ ∧
      ∀ k classChange, changes.classes.get? k = some classChange →
        ∃ a c, s.Lapses t u p k a c ∧ classChange = .methods (a.diff c) := by
  cases change with
  | whole =>
      obtain ⟨hps, hpu⟩ := Diff.between_whole_iff.mp h
      obtain ⟨x, hx⟩ := Diff.mem_paths.mp hps
      obtain ⟨-, z, -, hz, -⟩ := Snapshot.steps_of_chain hst htu hx
      exact absurd (Diff.mem_paths.mpr ⟨z, hz⟩) hpu
  | symbols changes =>
      obtain ⟨x, z, hx, hz, -, hexact⟩ := Diff.between_symbols_iff.mp h
      obtain ⟨y, z', hy, hz', hxy, hyz⟩ := Snapshot.steps_of_chain hst htu hx
      cases hz.symm.trans hz'
      obtain ⟨hfunctions, hclasses⟩ := Symbols.between_of_chain hxy hyz
      rw [hexact.eq_between]
      refine ⟨_, rfl, hfunctions, fun k classChange hk => ?_⟩
      obtain ⟨a, c, hlapse, hchange⟩ := hclasses k classChange hk
      exact ⟨a, c, ⟨x, y, z, hx, hy, hz, hlapse⟩, hchange⟩

/-- **Gates along a chain.** If neither step of a chain of three releases removes anything, then from
end to end nothing is removed, except where a class that lists methods in the first and the third
release and none in the second has a method in the first that it lacks in the third. Then something is
removed, and nothing but such methods. -/
theorem hasRemovals_chain (s t u : Snapshot) (hst : (between s t).hasRemovals = false)
    (htu : (between t u).hasRemovals = false) :
    ((between s u).hasRemovals = false ↔
      ¬∃ p k a c, s.Lapses t u p k a c ∧ ∃ m, m ∈ a ∧ m ∉ c) ∧
    ∀ p change, (between s u).removed.get? p = some change →
      ∃ changes, change = .symbols changes ∧ changes.functions = ∅ ∧
        ∀ k classChange, changes.classes.get? k = some classChange →
          ∃ a c, s.Lapses t u p k a c ∧ classChange = .methods (a.diff c) := by
  rw [hasRemovals_between_eq_false_iff] at hst htu ⊢
  exact ⟨not_congr (Snapshot.exceeds_iff_of_chain hst htu), fun p change => removed_of_chain hst htu⟩

/-- A snapshot of one module with one class. -/
def classRelease (methods : List String) : Snapshot :=
  Snapshot.insert {} "m.py" { classes := NameMap.insert ∅ "K" (.ofList methods) }

/-- No lapse, and so nothing is removed from end to end. -/
theorem hasRemovals_chain_growing :
    (between (classRelease ["f"]) (classRelease ["f", "g"])).hasRemovals = false ∧
    (between (classRelease ["f", "g"]) (classRelease ["f", "g", "h"])).hasRemovals = false ∧
    (between (classRelease ["f"]) (classRelease ["f", "g", "h"])).hasRemovals = false := by
  have hst : (between (classRelease ["f"]) (classRelease ["f", "g"])).hasRemovals = false := by
    decide +kernel
  have htu : (between (classRelease ["f", "g"]) (classRelease ["f", "g", "h"])).hasRemovals =
      false := by decide +kernel
  refine ⟨hst, htu, (hasRemovals_chain _ _ _ hst htu).1.mpr ?_⟩
  rintro ⟨p, k, a, c, ⟨x, y, z, -, hy, -, hlapse⟩, -⟩
  have hlisted := hlapse.second_listed
  rw [Snapshot.get?, classRelease, Snapshot.insert, NameMap.get?_insert] at hy
  split at hy
  · cases hy
    rw [NameMap.get?_insert] at hlisted
    split at hlisted
    · revert hlisted
      decide +kernel
    · cases hlisted
  · cases hy

/-- The methods of a class are exchanged while it lists none: neither step removes anything, and yet
the first release has a method that the third lacks. -/
theorem hasRemovals_exchanged_methods :
    (between (classRelease ["f"]) (classRelease [])).hasRemovals = false ∧
    (between (classRelease []) (classRelease ["g"])).hasRemovals = false ∧
    (between (classRelease ["f"]) (classRelease ["g"])).hasRemovals = true := by
  decide +kernel

end Report

end ApiSurface
