import ApiSurface.Command.Run
import ApiSurface.Proofs.DiffTiers

/-! The gate on removals. A comparison of both directions decides it on the lines of its report and a
comparison of one direction on the diff itself; since no diff holds an empty change, the two agree, and
the exit status says exactly whether the former has a name that the latter lacks. -/

namespace ApiSurface

/-- A snapshot has a name that another lacks: a module, or a name of a module that both have. -/
def Snapshot.Exceeds (here there : Snapshot) : Prop :=
  (∃ p, p ∈ here.paths ∧ p ∉ there.paths) ∨
  ∃ p x y, here.get? p = some x ∧ there.get? p = some y ∧ x.Exceeds y

/-- Two modules have the same names. The methods of a class count only if both sides list some. -/
structure Symbols.SameNames (x y : Symbols) : Prop where
  functions : x.functions = y.functions
  classes : ∀ k, k ∈ x.classes.keys ↔ k ∈ y.classes.keys
  methods : ∀ k a b, x.classes.get? k = some a → y.classes.get? k = some b → a = b ∨ a = ∅ ∨ b = ∅

/-- Two snapshots have the same modules with the same names. -/
structure Snapshot.SameNames (s t : Snapshot) : Prop where
  paths : ∀ p, p ∈ s.paths ↔ p ∈ t.paths
  symbols : ∀ p x y, s.get? p = some x → t.get? p = some y → x.SameNames y

/-! ### Neither side exceeds the other

That a side exceeds another is read off as inclusion of its names where it fails. -/

theorem Symbols.not_exceeds_iff {x y : Symbols} :
    ¬x.Exceeds y ↔
      (∀ f, f ∈ x.functions → f ∈ y.functions) ∧
      (∀ k, k ∈ x.classes.keys → k ∈ y.classes.keys) ∧
      ∀ k a b, x.classes.get? k = some a → y.classes.get? k = some b → a ≠ ∅ → b ≠ ∅ →
        ∀ m, m ∈ a → m ∈ b := by
  rw [Symbols.Exceeds]
  push Not
  rfl

theorem Snapshot.not_exceeds_iff {s t : Snapshot} :
    ¬s.Exceeds t ↔
      (∀ p, p ∈ s.paths → p ∈ t.paths) ∧
      ∀ p x y, s.get? p = some x → t.get? p = some y → ¬x.Exceeds y := by
  rw [Snapshot.Exceeds]
  push Not
  rfl

theorem Symbols.sameNames_iff {x y : Symbols} : x.SameNames y ↔ ¬x.Exceeds y ∧ ¬y.Exceeds x := by
  rw [Symbols.not_exceeds_iff, Symbols.not_exceeds_iff]
  constructor
  · intro h
    refine ⟨⟨fun f hf => h.functions ▸ hf, fun k hk => (h.classes k).mp hk, ?_⟩,
      ⟨fun f hf => h.functions ▸ hf, fun k hk => (h.classes k).mpr hk, ?_⟩⟩
    · intro k a b ha hb hane hbne m hm
      rcases h.methods k a b ha hb with hab | hempty | hempty
      · exact hab ▸ hm
      · exact absurd hempty hane
      · exact absurd hempty hbne
    · intro k b a hb ha hbne hane m hm
      rcases h.methods k a b ha hb with hab | hempty | hempty
      · exact hab ▸ hm
      · exact absurd hempty hane
      · exact absurd hempty hbne
  · rintro ⟨⟨hxf, hxk, hxm⟩, ⟨hyf, hyk, hym⟩⟩
    refine ⟨NameSet.ext_mem fun f => ⟨hxf f, hyf f⟩, fun k => ⟨hxk k, hyk k⟩, ?_⟩
    intro k a b ha hb
    by_cases hane : a = ∅
    · exact Or.inr (Or.inl hane)
    by_cases hbne : b = ∅
    · exact Or.inr (Or.inr hbne)
    exact Or.inl (NameSet.ext_mem fun m =>
      ⟨hxm k a b ha hb hane hbne m, hym k b a hb ha hbne hane m⟩)

theorem Snapshot.sameNames_iff {s t : Snapshot} : s.SameNames t ↔ ¬s.Exceeds t ∧ ¬t.Exceeds s := by
  rw [Snapshot.not_exceeds_iff, Snapshot.not_exceeds_iff]
  constructor
  · intro h
    refine ⟨⟨fun p hp => (h.paths p).mp hp, ?_⟩, ⟨fun p hp => (h.paths p).mpr hp, ?_⟩⟩
    · intro p x y hx hy
      exact (Symbols.sameNames_iff.mp (h.symbols p x y hx hy)).1
    · intro p y x hy hx
      exact (Symbols.sameNames_iff.mp (h.symbols p x y hx hy)).2
  · rintro ⟨⟨hs, hsx⟩, ⟨ht, hty⟩⟩
    refine ⟨fun p => ⟨hs p, ht p⟩, ?_⟩
    intro p x y hx hy
    exact Symbols.sameNames_iff.mpr ⟨hsx p x y hx hy, hty p y x hy hx⟩

namespace Diff

/-! ### A diff has lines if it has changes

Every change of a module stands for at least one name, as no change is empty. -/

theorem isEmpty_between_eq_false_iff {former latter : Snapshot} {d : Direction} :
    (between former latter d).isEmpty = false ↔
      (d.source former latter).Exceeds (d.target former latter) := by
  rw [isEmpty, NameMap.isEmpty_eq_false_iff]
  constructor
  · rintro ⟨p, change, hchange⟩
    cases change with
    | whole => exact Or.inl ⟨p, between_whole_iff.mp hchange⟩
    | symbols c =>
        obtain ⟨x, y, hx, hy, hexceeds, -⟩ := between_symbols_iff.mp hchange
        exact Or.inr ⟨p, x, y, hx, hy, hexceeds⟩
  · rintro (⟨p, hp⟩ | ⟨p, x, y, hx, hy, hexceeds⟩)
    · exact ⟨p, .whole, between_whole_iff.mpr hp⟩
    · exact ⟨p, .symbols (SymbolChanges.between x y),
        between_symbols_iff.mpr ⟨x, y, hx, hy, hexceeds, SymbolChanges.exact_between x y⟩⟩

theorem names_between_ne_nil {here there : Symbols} (h : here.Exceeds there) :
    (SymbolChanges.between here there).names ≠ [] := by
  rw [← SymbolChanges.isEmpty_between_eq_false_iff, SymbolChanges.isEmpty, Bool.and_eq_false_iff,
    NameMap.isEmpty_eq_false_iff, NameSet.isEmpty_eq_false_iff] at h
  rw [SymbolChanges.names, Ne, List.append_eq_nil_iff, not_and_or]
  rcases h with ⟨k, change, hchange⟩ | ⟨f, hf⟩
  · refine Or.inl fun hnil => ?_
    have hnames := List.flatMap_eq_nil_iff.mp hnil _ (NameMap.get?_eq_some_iff.mp hchange)
    cases change with
    | whole => cases hnames
    | methods ms =>
        obtain ⟨a, b, -, -, -, -, hne, rfl⟩ := SymbolChanges.between_methods_iff.mp hchange
        obtain ⟨m, hm⟩ := NameSet.ne_empty_iff.mp hne
        rw [NameSet.mem_def, List.map_eq_nil_iff.mp hnames] at hm
        cases hm
  · exact Or.inr (List.ne_nil_of_mem hf)

theorem lines_between_ne_nil {former latter : Snapshot} {d : Direction} {p : String}
    {change : ModuleChange} (h : (between former latter d).get? p = some change) :
    (between former latter d).lines ≠ [] := by
  have hmem := NameMap.get?_eq_some_iff.mp h
  rw [lines, Ne, List.map_eq_nil_iff, List.append_eq_nil_iff, not_and_or]
  cases change with
  | whole =>
      refine Or.inl fun hnil => ?_
      cases List.filterMap_eq_nil_iff.mp hnil _ hmem
  | symbols c =>
      obtain ⟨x, y, -, -, hexceeds, hexact⟩ := between_symbols_iff.mp h
      refine Or.inr fun hnil => names_between_ne_nil hexceeds ?_
      rw [← hexact.eq_between]
      exact List.map_eq_nil_iff.mp (List.flatMap_eq_nil_iff.mp hnil _ hmem)

/-- Whether something changed can be seen from the lines as well as from the changes. -/
theorem isEmpty_lines_between (former latter : Snapshot) (d : Direction) :
    (between former latter d).lines.isEmpty = (between former latter d).isEmpty := by
  cases hdiff : (between former latter d).isEmpty with
  | true =>
      have hnil : (between former latter d).modules.toList = [] := List.isEmpty_iff.mp hdiff
      rw [lines, wholeModules, symbols, hnil]
      rfl
  | false =>
      obtain ⟨p, change, hchange⟩ := NameMap.isEmpty_eq_false_iff.mp hdiff
      exact List.isEmpty_eq_false_iff.mpr (lines_between_ne_nil hchange)

end Diff

namespace Report

theorem hasRemovals_between (former latter : Snapshot) :
    (between former latter).hasRemovals = !(between former latter).removed.isEmpty := by
  rw [hasRemovals]
  exact congrArg not (Diff.isEmpty_lines_between former latter .removed)

theorem isEmpty_between_iff {former latter : Snapshot} :
    (between former latter).isEmpty = true ↔ former.SameNames latter := by
  have hdirection : ∀ d, (Diff.between former latter d).lines.isEmpty = true ↔
      ¬(d.source former latter).Exceeds (d.target former latter) := by
    intro d
    rw [Diff.isEmpty_lines_between, ← Diff.isEmpty_between_eq_false_iff, Bool.not_eq_false]
  rw [isEmpty, Bool.and_eq_true, Snapshot.sameNames_iff]
  exact and_congr (hdirection .removed) (hdirection .added)

end Report

namespace Command

/-- The operands of a comparison can be read: the configuration loads, there is a language for its
sources, and both operands give a snapshot. -/
def Reads (t : FileTree) (crawl : CrawlOptions) (former latter : String)
    (before after : Snapshot) : Prop :=
  ∃ c name, crawl.load t = .ok c ∧ language c.extension = .ok name ∧
    operand c t former = .ok before ∧ operand c t latter = .ok after

variable {t : FileTree} {crawl : CrawlOptions} {former latter : String} {before after : Snapshot}

theorem run_diff (h : Reads t crawl former latter before after) {args : List String}
    {only : Option Direction} {format : Format} {failOnRemoved : Bool}
    (hargs : parse args = .ok (.diff former latter only format failOnRemoved crawl)) :
    run t args =
      { status := if failOnRemoved && (compared before after only format).2 then 1 else 0
        output := (compared before after only format).1, tree := t } := by
  obtain ⟨c, name, hload, hlanguage, hbefore, hafter⟩ := h
  rw [run, hargs]
  simp only [perform, hload, stage, Except.mapError, bind, Except.bind, hlanguage, hbefore, hafter,
    pure, Except.pure]

theorem compared_removed_iff (before after : Snapshot) (only : Option Direction) (format : Format) :
    (compared before after only format).2 = true ↔ only ≠ some .added ∧ before.Exceeds after := by
  have hexceeds : (Diff.between before after .removed).isEmpty = false ↔ before.Exceeds after :=
    Diff.isEmpty_between_eq_false_iff
  cases only with
  | none =>
      have hreport := Report.hasRemovals_between before after
      simp only [compared, hreport]
      simp [← hexceeds, Report.between]
  | some d =>
      cases d with
      | removed => simp [compared, ← hexceeds]
      | added => simp [compared]

/-- **The exit status of a comparison.** With the gate it is 1 exactly if the former exceeds the latter,
whether both directions were asked for or the removals alone and however they are printed; otherwise,
without the gate and for the additions alone it is 0. A report shows removals exactly if its diff holds
some, and it is empty exactly if both sides have the same names. -/
theorem status_diff_exact (t : FileTree) (crawl : CrawlOptions) (former latter : String)
    (before after : Snapshot) (h : Reads t crawl former latter before after) :
    (∀ args only format failOnRemoved,
      parse args = .ok (.diff former latter only format failOnRemoved crawl) →
        (run t args).failure = none) ∧
    (∀ args args' format format',
      parse args = .ok (.diff former latter none format true crawl) →
      parse args' = .ok (.diff former latter (some .removed) format' true crawl) →
        (run t args).status = (run t args').status) ∧
    (∀ args only format, only = none ∨ only = some .removed →
      parse args = .ok (.diff former latter only format true crawl) →
        ((run t args).status = 1 ↔ before.Exceeds after) ∧
        ((run t args).status = 0 ↔ ¬before.Exceeds after)) ∧
    (∀ args only format failOnRemoved, only = some .added ∨ failOnRemoved = false →
      parse args = .ok (.diff former latter only format failOnRemoved crawl) →
        (run t args).status = 0) ∧
    ((Report.between before after).hasRemovals = true ↔
      (Report.between before after).removed.isEmpty = false) ∧
    ((Report.between before after).isEmpty = true ↔ before.SameNames after) := by
  refine ⟨?_, ?_, ?_, ?_, ?_, Report.isEmpty_between_iff⟩
  · intro args only format failOnRemoved hargs
    rw [run_diff h hargs]
  · intro args args' format format' hargs hargs'
    rw [run_diff h hargs, run_diff h hargs']
    have hsame : (compared before after none format).2 =
        (compared before after (some .removed) format').2 := by
      rw [Bool.eq_iff_iff, compared_removed_iff, compared_removed_iff]
      simp
    simp only [hsame]
  · intro args only format honly hargs
    have hgate : (compared before after only format).2 = true ↔ before.Exceeds after := by
      rw [compared_removed_iff]
      rcases honly with rfl | rfl <;> simp
    rw [run_diff h hargs, Bool.true_and, ← hgate]
    cases (compared before after only format).2 <;> simp
  · intro args only format failOnRemoved hoff hargs
    have hgate : (failOnRemoved && (compared before after only format).2) = false := by
      rcases hoff with rfl | rfl
      · rw [Bool.eq_false_iff, Ne, Bool.and_eq_true, compared_removed_iff]
        simp
      · rfl
    rw [run_diff h hargs, hgate]
    rfl
  · rw [Report.hasRemovals_between, Bool.not_eq_true']

/-- A snapshot of one module with the given functions. -/
def release (functions : List String) : Snapshot :=
  Snapshot.insert {} "m.py" { functions := .ofList functions }

/-- Two saved snapshots, of which the latter lacks a function. -/
def savedReleases : FileTree :=
  let former := Entry.file (release ["f", "g"]).toJson.toUTF8
  let latter := Entry.file (release ["f"]).toJson.toUTF8
  ((∅ : FileTree).put ["a.json"] former (.file _)).put ["b.json"] latter (.file _)

/-- The lost function is noticed, in the report of both directions and in that of the removals. -/
theorem status_diff_savedReleases :
    parse ["diff", "a.json", "b.json", "--fail-on-removed"] =
      .ok (.diff "a.json" "b.json" none .text true {}) ∧
    parse ["diff", "a.json", "b.json", "--only", "removed", "--fail-on-removed", "-fjson"] =
      .ok (.diff "a.json" "b.json" (some .removed) .json true {}) ∧
    (run savedReleases ["diff", "a.json", "b.json", "--fail-on-removed"]).status = 1 ∧
    (run savedReleases
      ["diff", "a.json", "b.json", "--only", "removed", "--fail-on-removed", "-fjson"]).status = 1 := by
  have hreads : Reads savedReleases {} "a.json" "b.json" (release ["f", "g"]) (release ["f"]) :=
    ⟨{}, "python", by decide +kernel, by decide +kernel, by decide +kernel, by decide +kernel⟩
  have hexceeds : (release ["f", "g"]).Exceeds (release ["f"]) :=
    Or.inr ⟨"m.py", _, _, NameMap.get?_insert_self _ _ _, NameMap.get?_insert_self _ _ _,
      Or.inl ⟨"g", by decide +kernel, by decide +kernel⟩⟩
  have hboth : parse ["diff", "a.json", "b.json", "--fail-on-removed"] =
      .ok (.diff "a.json" "b.json" none .text true {}) := by decide +kernel
  have hremoved :
      parse ["diff", "a.json", "b.json", "--only", "removed", "--fail-on-removed", "-fjson"] =
        .ok (.diff "a.json" "b.json" (some .removed) .json true {}) := by decide +kernel
  have hstatus := (status_diff_exact _ _ _ _ _ _ hreads).2.2.1
  exact ⟨hboth, hremoved, (hstatus _ _ _ (Or.inl rfl) hboth).1.mpr hexceeds,
    (hstatus _ _ _ (Or.inr rfl) hremoved).1.mpr hexceeds⟩

end Command

end ApiSurface
