import ApiSurface.Report
import ApiSurface.Proofs.DiffText

/-! The text of a diff loses nothing. Any value that was written can be read back without knowing what
it stands for, from either layout, so the text determines the value. The value in turn determines the
diff: what is missing as a whole is the only thing that is written without fields, and names are kept
as they are. What is printed for a reader then follows from the text and the direction. -/

namespace ApiSurface

namespace Json

/-- A value that is nested less deep than the given number. Numbers and words are refused, as no value
holds them. -/
def value : Nat → Scan Json
  | 0 => stop .endOfValue
  | n + 1 => do
    match ← peekValue with
    | '"' => advance; return string (← scanString)
    | '[' =>
      advance
      return array (← items (fun vs => return vs ++ [← value n]) ((← get).length + 1) true [])
    | '\x7b' =>
      advance
      return object (← fields (fun es name => do colon; return es ++ [(name, ← value n)])
        ((← get).length + 1) true [])
    | _ => stopIn .valueExpected

/-- The value that a text holds. The length of the text bounds how deep it is nested. -/
def ofText (text : String) : Except Error Json :=
  readText (do value ((← get).length + 1)) text

variable {style : Style} {depth : Nat}

/-! ### Reading what was written -/

theorem Takes.value_blank {n : Nat} {text b : List Char} {v : Json} (h : Takes (value n) text v)
    (hb : Blank b) : Takes (value n) (b ++ text) v := by
  cases n with
  | zero =>
      have hstop := h []
      cases hstop
  | succ n => exact Takes.blank h hb

theorem length_write_le_writeItems {v : Json} {vs : List Json} (h : v ∈ vs) :
    (v.write style depth).length ≤ (writeItems style depth vs).length := by
  induction vs with
  | nil => cases h
  | cons w vs ih =>
      rw [writeItems]
      simp only [List.length_cons, List.length_append]
      rcases List.mem_cons.mp h with rfl | h
      · omega
      · have hle := ih h
        omega

theorem length_write_lt_array {v : Json} {vs : List Json} (h : v ∈ vs) :
    (v.write style (depth + 1)).length < (write style depth (.array vs)).length := by
  cases vs with
  | nil => cases h
  | cons w vs =>
      rw [write]
      simp only [List.length_cons, List.length_append]
      rcases List.mem_cons.mp h with rfl | h
      · omega
      · have hle : (v.write style (depth + 1)).length ≤ (writeItems style (depth + 1) vs).length :=
          length_write_le_writeItems h
        omega

theorem length_write_le_writeFields {e : String × Json} {es : List (String × Json)} (h : e ∈ es) :
    (e.2.write style depth).length ≤ (writeFields style depth es).length := by
  induction es with
  | nil => cases h
  | cons d es ih =>
      rw [writeFields]
      simp only [List.length_cons, List.length_append]
      rcases List.mem_cons.mp h with rfl | h
      · rw [writeField]
        simp only [List.length_append]
        omega
      · have hle := ih h
        omega

theorem length_write_lt_object {e : String × Json} {es : List (String × Json)} (h : e ∈ es) :
    (e.2.write style (depth + 1)).length < (write style depth (.object es)).length := by
  cases es with
  | nil => cases h
  | cons d es =>
      rw [write]
      simp only [List.length_cons, List.length_append]
      rcases List.mem_cons.mp h with rfl | h
      · rw [writeField]
        simp only [List.length_append]
        omega
      · have hle : (e.2.write style (depth + 1)).length ≤ (writeFields style (depth + 1) es).length :=
          length_write_le_writeFields h
        omega

theorem itemsTaken_values {n : Nat} {vs : List Json} (us : List Json)
    (hvalue : ∀ v ∈ vs, Takes (value n) (v.write style depth) v) :
    ItemsTaken (fun vs => return vs ++ [← value n]) style depth us vs (us ++ vs) := by
  induction vs generalizing us with
  | nil =>
      rw [List.append_nil]
      exact ItemsTaken.nil us
  | cons v vs ih =>
      have hfirst := (hvalue v List.mem_cons_self).map fun v => us ++ [v]
      have hrest := ih (us ++ [v]) fun w hw => hvalue w (List.mem_cons_of_mem v hw)
      rw [List.append_assoc] at hrest
      exact ItemsTaken.cons hfirst hrest

theorem fieldsTaken_values (hstyle : style.Lawful) {n : Nat} {es : List (String × Json)}
    (ds : List (String × Json))
    (hvalue : ∀ e ∈ es, Takes (value n) (e.2.write style depth) e.2) :
    FieldsTaken (fun es name => do colon; return es ++ [(name, ← value n)]) style depth ds es
      (ds ++ es) := by
  induction es generalizing ds with
  | nil =>
      rw [List.append_nil]
      exact FieldsTaken.nil ds
  | cons e es ih =>
      have hfirst := takes_after_colon hstyle
        (fun _ => (hvalue e List.mem_cons_self).value_blank) fun v => ds ++ [(e.1, v)]
      have hrest := ih (ds ++ [e]) fun d hd => hvalue d (List.mem_cons_of_mem e hd)
      rw [List.append_assoc] at hrest
      exact FieldsTaken.cons hfirst hrest

/-- A written value is taken by the reader of values, in every layout. -/
theorem takes_value_write (hstyle : style.Lawful) {n : Nat} {v : Json} {depth : Nat}
    (hn : (v.write style depth).length ≤ n) : Takes (value n) (v.write style depth) v := by
  -- By induction on the bound: a part of a value is written with fewer characters than the whole.
  induction n generalizing v depth with
  | zero =>
      obtain ⟨c, cs, hwrite, -⟩ := write_eq_cons style depth v
      rw [hwrite] at hn
      cases hn
  | succ n ih =>
      cases v with
      | string text =>
          rw [write, quote]
          intro rest
          have hpeek := peekValue_append blank_nil (show ¬IsBlank '"' by decide)
            (text.toList.flatMap escape ++ ['"'] ++ rest)
          exact (bind_of_ok hpeek _).trans ((takes_scanString text).map string rest)
      | array vs =>
          have hitems : ItemsTaken _ style (depth + 1) [] vs vs := itemsTaken_values [] fun v hv => by
            have hlt : (v.write style (depth + 1)).length < (write style depth (.array vs)).length :=
              length_write_lt_array hv
            exact ih (by omega)
          obtain ⟨cs, hcs, htext⟩ := hitems.write_array hstyle
          rw [hcs]
          exact fun rest => (peekValue_bracket _ _).trans (htext.takes_opened.map array rest)
      | object es =>
          have hfields : FieldsTaken _ style (depth + 1) [] es es :=
            fieldsTaken_values hstyle [] fun e he => by
              have hlt : (e.2.write style (depth + 1)).length <
                  (write style depth (.object es)).length := length_write_lt_object he
              exact ih (by omega)
          obtain ⟨cs, hcs, htext⟩ := hfields.write_object hstyle
          rw [hcs]
          exact fun rest => (peekValue_brace _ _).trans (htext.takes_opened.map object rest)

theorem ofText_render (hstyle : style.Lawful) (v : Json) : ofText (v.render style) = .ok v := by
  have htakes : Takes (do value ((← get).length + 1)) (v.write style 0) v := by
    intro rest
    have hlength : (v.write style 0).length ≤ (v.write style 0 ++ rest).length + 1 := by
      rw [List.length_append]
      omega
    exact takes_value_write hstyle hlength rest
  have hread := readText_of_takes htakes blank_nil
  rw [List.append_nil] at hread
  exact hread

theorem render_inj (hstyle : style.Lawful) {v w : Json} :
    v.render style = w.render style ↔ v = w := by
  constructor
  · intro h
    have hread := congrArg ofText h
    rw [ofText_render hstyle, ofText_render hstyle] at hread
    exact Except.ok.inj hread
  · rintro rfl
    rfl

end Json

open Json

/-! ### The value of a diff -/

theorem NameSet.toJson_injective : Function.Injective NameSet.toJson := by
  intro s t h
  have hnames : s.toList = t.toList :=
    List.map_injective_iff.mpr (fun _ _ => Json.string.inj) (Json.array.inj h)
  exact NameSet.ext_mem fun a => by rw [NameSet.mem_def, NameSet.mem_def, hnames]

theorem NameMap.toJson_injective {α : Type} {value : α → Json} (hvalue : Function.Injective value) :
    Function.Injective (NameMap.toJson value) := by
  intro m n h
  have hentry : Function.Injective fun e : String × α => (e.1, value e.2) := by
    intro d e hde
    rw [Prod.mk.injEq] at hde
    exact Prod.ext hde.1 (hvalue hde.2)
  have hentries : m.toList = n.toList := List.map_injective_iff.mpr hentry (Json.object.inj h)
  exact NameMap.ext_get? fun k => by rw [NameMap.get?, NameMap.get?, hentries]

theorem ClassChange.toJson_injective : Function.Injective ClassChange.toJson := by
  intro c c' h
  cases c with
  | whole =>
      cases c' with
      | whole => rfl
      | methods names => cases h
  | methods names =>
      cases c' with
      | whole => cases h
      | methods names' =>
          have hfields := Json.object.inj h
          simp only [List.cons.injEq, Prod.mk.injEq, and_true, true_and] at hfields
          rw [NameSet.toJson_injective hfields]

theorem ModuleChange.toJson_injective : Function.Injective ModuleChange.toJson := by
  intro c c' h
  cases c with
  | whole =>
      cases c' with
      | whole => rfl
      | symbols changes => cases h
  | symbols changes =>
      cases c' with
      | whole => cases h
      | symbols changes' =>
          have hfields := Json.object.inj h
          simp only [List.cons.injEq, Prod.mk.injEq, and_true, true_and] at hfields
          have hclasses := NameMap.toJson_injective ClassChange.toJson_injective hfields.1
          have hfunctions := NameSet.toJson_injective hfields.2
          exact congrArg ModuleChange.symbols (congrArg₂ SymbolChanges.mk hclasses hfunctions)

namespace Diff

theorem modules_eq_iff {d e : Diff} : d.modules = e.modules ↔ ∀ p, d.get? p = e.get? p := by
  constructor
  · intro h p
    rw [get?, get?, h]
  · exact NameMap.ext_get?

theorem toJson_inj {d e : Diff} : d.toJson = e.toJson ↔ ∀ p, d.get? p = e.get? p := by
  rw [← modules_eq_iff]
  exact (NameMap.toJson_injective ModuleChange.toJson_injective).eq_iff

/-- The lines follow from the direction and the changes. -/
theorem lines_congr {d e : Diff} (hdirection : d.direction = e.direction)
    (h : ∀ p, d.get? p = e.get? p) : d.lines = e.lines := by
  have heq : d = e := congrArg₂ Diff.mk hdirection (modules_eq_iff.mpr h)
  rw [heq]

end Diff

theorem Report.toJson_inj {r s : Report} :
    r.toJson = s.toJson ↔
      (∀ p, r.removed.get? p = s.removed.get? p) ∧ ∀ p, r.added.get? p = s.added.get? p := by
  rw [← Diff.toJson_inj, ← Diff.toJson_inj, toJson, toJson]
  simp only [Json.object.injEq, List.cons.injEq, Prod.mk.injEq, and_true, true_and]
  exact and_comm

namespace Diff

/-- **The text of a diff loses nothing.** In each of the two layouts, two diffs have one text exactly
if they hold the same changes, and two reports if both their diffs do. Both layouts are read back as
the value that was written. So the lines follow from the text and the direction. -/
theorem toJson_lossless :
    (∀ style, style = compact ∨ style = pretty →
      (∀ d e : Diff,
        d.toJson.render style = e.toJson.render style ↔ ∀ p, d.get? p = e.get? p) ∧
      (∀ r s : Report, r.toJson.render style = s.toJson.render style ↔
        (∀ p, r.removed.get? p = s.removed.get? p) ∧ ∀ p, r.added.get? p = s.added.get? p) ∧
      (∀ d e : Diff, d.direction = e.direction →
        d.toJson.render style = e.toJson.render style → d.lines = e.lines) ∧
      ∀ former latter former' latter',
        (Report.between former latter).toJson.render style =
          (Report.between former' latter').toJson.render style →
        (Report.between former latter).lines = (Report.between former' latter').lines) ∧
    (∀ d : Diff, ofText (d.toJson.render compact) = .ok d.toJson ∧
      ofText (d.toJson.render pretty) = .ok d.toJson) ∧
    ∀ r : Report, ofText (r.toJson.render compact) = .ok r.toJson ∧
      ofText (r.toJson.render pretty) = .ok r.toJson := by
  refine ⟨?_, fun d => ⟨ofText_render lawful_compact _, ofText_render lawful_pretty _⟩,
    fun r => ⟨ofText_render lawful_compact _, ofText_render lawful_pretty _⟩⟩
  intro style hlayout
  have hstyle : style.Lawful := by
    rcases hlayout with rfl | rfl
    · exact lawful_compact
    · exact lawful_pretty
  refine ⟨fun d e => ?_, fun r s => ?_, fun d e hdirection h => ?_,
    fun former latter former' latter' h => ?_⟩
  · rw [render_inj hstyle, toJson_inj]
  · rw [render_inj hstyle, Report.toJson_inj]
  · rw [render_inj hstyle, toJson_inj] at h
    exact lines_congr hdirection h
  · rw [render_inj hstyle, Report.toJson_inj] at h
    have hdirections : ∀ d,
        (between former latter d).direction = (between former' latter' d).direction := by
      intro d
      rw [direction_between, direction_between]
    exact congrArg₂ (· ++ ·) (lines_congr (hdirections .removed) h.1)
      (lines_congr (hdirections .added) h.2)

/-- A snapshot of modules without names. -/
def bareModules (paths : List String) : Snapshot :=
  paths.foldl (fun s path => s.insert path {}) {}

/-- A path that spells out the text of two modules is not taken for them, and a module that both sides
have does not show. -/
theorem toJson_lossless_bareModules :
    (between (bareModules ["a\":\x7b\x7d,\"b"]) {} .removed).toJson.render compact ≠
      (between (bareModules ["a", "b"]) {} .removed).toJson.render compact ∧
    (between (bareModules ["b", "a"]) {} .removed).toJson.render pretty =
      (between (bareModules ["a", "b", "c"]) (bareModules ["c"]) .removed).toJson.render pretty ∧
    (between (bareModules ["b", "a"]) {} .removed).lines =
      (between (bareModules ["a", "b", "c"]) (bareModules ["c"]) .removed).lines := by
  obtain ⟨hcompact, -⟩ := toJson_lossless.1 compact (Or.inl rfl)
  obtain ⟨-, -, hlines, -⟩ := toJson_lossless.1 pretty (Or.inr rfl)
  have htext : (between (bareModules ["b", "a"]) {} .removed).toJson.render pretty =
      (between (bareModules ["a", "b", "c"]) (bareModules ["c"]) .removed).toJson.render pretty := by
    decide +kernel
  refine ⟨?_, htext, hlines _ _ (by decide +kernel) htext⟩
  rw [Ne, hcompact]
  intro hsame
  have ha := hsame "a"
  revert ha
  decide +kernel

end Diff

end ApiSurface
