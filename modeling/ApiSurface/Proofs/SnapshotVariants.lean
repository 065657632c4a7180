import ApiSurface.Proofs.SnapshotText
import ApiSurface.Proofs.JsonShapes

/-! All the texts that stand for a snapshot. A snapshot is written in one way but may be read from many
texts, and what they have in common is said here without the reader: what a value has to be for it to be
written for a class, a module or a snapshot. The reader is then shown to agree with it on every JSON
text, also where the text stands for none. -/

namespace ApiSurface

/-! ### The text that is written -/

namespace Json

/-- What is written for a character is one piece of a string. -/
theorem exists_mark (c : Char) : ∃ m : Mark, m.text = escape c := by
  rw [escape]
  split_ifs with hquote hback hnewline hreturn htab hbackspace hfeed hcontrol
  · exact ⟨.short .quote, rfl⟩
  · exact ⟨.short .backslash, rfl⟩
  · exact ⟨.short .newline, rfl⟩
  · exact ⟨.short .carriageReturn, rfl⟩
  · exact ⟨.short .tab, rfl⟩
  · exact ⟨.short .backspace, rfl⟩
  · exact ⟨.short .formFeed, rfl⟩
  · exact ⟨.code ⟨⟨0, false⟩, ⟨0, false⟩, ⟨⟨c.toNat / 16, by omega⟩, false⟩,
      ⟨⟨c.toNat % 16, by omega⟩, false⟩⟩, rfl⟩
  · exact ⟨.plain c ⟨hquote, hback, Nat.not_lt.mp hcontrol⟩, rfl⟩

theorem exists_marks (cs : List Char) :
    ∃ marks : List Mark, marks.flatMap Mark.text = cs.flatMap escape := by
  induction cs with
  | nil => exact ⟨[], rfl⟩
  | cons c cs ih =>
      obtain ⟨m, hm⟩ := exists_mark c
      obtain ⟨marks, hmarks⟩ := ih
      exact ⟨m :: marks, by rw [List.flatMap_cons, List.flatMap_cons, hm, hmarks]⟩

variable {style : Style}

mutual

theorem exists_spelling (hstyle : style.Lawful) (depth : Nat) :
    ∀ v : Json, ∃ w : Spelling, w.text = v.write style depth
  | .string text => by
      obtain ⟨marks, hmarks⟩ := exists_marks text.toList
      exact ⟨.string marks, by rw [Spelling.text, quoted, write, quote, hmarks]⟩
  | .array [] => ⟨.array [] ⟨[], blank_nil⟩, rfl⟩
  | .array (item :: items) => by
      obtain ⟨v, hv⟩ := exists_spelling hstyle (depth + 1) item
      obtain ⟨vs, hvs⟩ := exists_items hstyle (depth + 1) items
      refine ⟨.array (⟨⟨_, hstyle.lineBreak (depth + 1)⟩, v, ⟨[], blank_nil⟩⟩ :: vs)
        ⟨_, hstyle.lineBreak depth⟩, ?_⟩
      simp [Spelling.text, itemsText, spacedText, separator, write, hv, hvs]
  | .object [] => ⟨.object [] ⟨[], blank_nil⟩, rfl⟩
  | .object (field :: fields) => by
      obtain ⟨f, hf⟩ := exists_field hstyle (depth + 1) field
      obtain ⟨fs, hfs⟩ := exists_fields hstyle (depth + 1) fields
      refine ⟨.object (f :: fs) ⟨_, hstyle.lineBreak depth⟩, ?_⟩
      simp [Spelling.text, fieldsText, separator, write, hf, hfs]

theorem exists_items (hstyle : style.Lawful) (depth : Nat) :
    ∀ items : List Json, ∃ vs : List Item, itemsText false vs = writeItems style depth items
  | [] => ⟨[], rfl⟩
  | item :: items => by
      obtain ⟨v, hv⟩ := exists_spelling hstyle depth item
      obtain ⟨vs, hvs⟩ := exists_items hstyle depth items
      refine ⟨⟨⟨_, hstyle.lineBreak depth⟩, v, ⟨[], blank_nil⟩⟩ :: vs, ?_⟩
      simp [itemsText, spacedText, separator, writeItems, hv, hvs]

theorem exists_field (hstyle : style.Lawful) (depth : Nat) :
    ∀ e : String × Json, ∃ f : Field, fieldText f = style.lineBreak depth ++ writeField style depth e
  | (name, value) => by
      obtain ⟨marks, hmarks⟩ := exists_marks name.toList
      obtain ⟨b, hb, hcolon⟩ := hstyle.colon
      obtain ⟨v, hv⟩ := exists_spelling hstyle depth value
      refine ⟨(⟨⟨_, hstyle.lineBreak depth⟩, marks, ⟨[], blank_nil⟩⟩, ⟨⟨b, hb⟩, v, ⟨[], blank_nil⟩⟩), ?_⟩
      simp [fieldText, spacedText, quoted, writeField, quote, hcolon, hmarks, hv]

theorem exists_fields (hstyle : style.Lawful) (depth : Nat) :
    ∀ es : List (String × Json), ∃ fs : List Field, fieldsText false fs = writeFields style depth es
  | [] => ⟨[], rfl⟩
  | e :: es => by
      obtain ⟨f, hf⟩ := exists_field hstyle depth e
      obtain ⟨fs, hfs⟩ := exists_fields hstyle depth es
      exact ⟨f :: fs, by simp [fieldsText, separator, writeFields, hf, hfs]⟩

end

end Json

open Json

/-! ### Classes and modules -/

namespace Symbols

/-- The value is a class with the methods: a record, in which the methods are left out if there are
none and other fields may stand, or an array of what the record has. -/
inductive WritesClass : Spelling → NameSet → Prop
  | object {fields : List Field} {gap : Gap} {methods : NameSet}
      (hnames : ∀ f ∈ fields, (string? f.1.body).isSome)
      (hmethods : WritesPart WritesNames ∅ (valuesOf "methods" fields) methods) :
      WritesClass (.object fields gap) methods
  | array {items : List Item} {gap : Gap} {methods : NameSet}
      (hmethods : WritesPart WritesNames ∅ (items.map Padded.body) methods) :
      WritesClass (.array items gap) methods

/-- The value is a module with the names, in the same ways. -/
inductive Writes : Spelling → Symbols → Prop
  | object {fields : List Field} {gap : Gap} {s : Symbols}
      (hnames : ∀ f ∈ fields, (string? f.1.body).isSome)
      (hclasses : WritesPart (WritesMap WritesClass) ∅ (valuesOf "classes" fields) s.classes)
      (hfunctions : WritesPart WritesNames ∅ (valuesOf "functions" fields) s.functions) :
      Writes (.object fields gap) s
  | array {items : List Item} {gap : Gap} {s : Symbols}
      (hclasses : WritesPart (WritesMap WritesClass) ∅ ((items.map Padded.body).take 1) s.classes)
      (hfunctions : WritesPart WritesNames ∅ ((items.map Padded.body).drop 1) s.functions) :
      Writes (.array items gap) s

theorem readsField_classField (methods : Option NameSet) :
    ReadsField (classField methods) fun name v => Sets WritesNames "methods" name v methods := by
  intro name v b b' rest hb hb' hrest
  unfold classField Sets
  by_cases hname : name = "methods"
  · simp only [if_pos hname]
    exact reads_known readsValue_names name methods some v hb hb' hrest
  · simp only [if_neg hname]
    exact reads_unknown methods v hb hb' hrest

theorem readsValue_readClass : ReadsValue readClass WritesClass := by
  refine readsValue_of_first .classSymbols ?_ ?_ ?_ ?_ ?_
  · intro marks rest
    exact Reads.of_fails (fails_refuse _ _) fun _ h => nomatch h
  · intro items gap rest
    have hread := reads_lastPart readsValue_names ∅ id true items gap rest blank_nil
    refine Reads.congr hread fun methods => ?_
    constructor
    · rintro ⟨methods, hmethods, rfl⟩
      exact WritesClass.array hmethods
    · rintro (_ | hmethods)
      exact ⟨methods, hmethods, rfl⟩
  · intro fields gap rest
    have hread := (reads_object readsField_classField fields gap none rest).map (·.getD ∅)
    refine hread.congr fun methods => ?_
    simp only [folds_sets]
    constructor
    · rintro ⟨t, ⟨hnames, ht⟩, hmethods⟩
      exact WritesClass.object hnames (folds_fills_iff.mp ⟨t, ht, hmethods⟩)
    · rintro (⟨hnames, hmethods⟩ | _)
      obtain ⟨t, ht, hmethods⟩ := folds_fills_iff.mpr hmethods
      exact ⟨t, ⟨hnames, ht⟩, hmethods⟩
  · intro c _ hbracket hbrace
    split
    · exact absurd rfl hbracket
    · exact absurd rfl hbrace
    · rfl
  · intro v methods h
    cases h with
    | object => exact Or.inr (Or.inr ⟨_, _, rfl⟩)
    | array => exact Or.inr (Or.inl ⟨_, _, rfl⟩)

/-- The two parts of a record are set apart from each other. -/
theorem folds_field {A : String → Spelling → Option (NameMap NameSet) → Option (NameMap NameSet) → Prop}
    {B : String → Spelling → Option NameSet → Option NameSet → Prop}
    {fields : List Field} {s t : Fields} :
    Folds (fun f s s' => ∃ name, string? f.1.body = some name ∧
        (A name f.2.body s.classes s'.classes ∧ B name f.2.body s.functions s'.functions)) fields s t ↔
      Folds (fun f x x' => ∃ name, string? f.1.body = some name ∧ A name f.2.body x x') fields
        s.classes t.classes ∧
      Folds (fun f x x' => ∃ name, string? f.1.body = some name ∧ B name f.2.body x x') fields
        s.functions t.functions := by
  induction fields generalizing s with
  | nil =>
      constructor
      · rintro rfl
        exact ⟨rfl, rfl⟩
      · rintro ⟨hclasses, hfunctions⟩
        obtain ⟨classes, functions⟩ := s
        obtain ⟨classes', functions'⟩ := t
        cases hclasses
        cases hfunctions
        rfl
  | cons f fields ih =>
      simp only [Folds, ih]
      constructor
      · rintro ⟨s', ⟨name, hname, hA, hB⟩, hclasses, hfunctions⟩
        exact ⟨⟨_, ⟨name, hname, hA⟩, hclasses⟩, ⟨_, ⟨name, hname, hB⟩, hfunctions⟩⟩
      · rintro ⟨⟨classes, ⟨name, hname, hA⟩, hclasses⟩, ⟨functions, ⟨name', hname', hB⟩, hfunctions⟩⟩
        rw [hname] at hname'
        cases hname'
        exact ⟨⟨classes, functions⟩, ⟨name, hname, hA, hB⟩, hclasses, hfunctions⟩

theorem readsField_field (s : Fields) :
    ReadsField (field s) fun name v s' =>
      Sets (WritesMap WritesClass) "classes" name v s.classes s'.classes ∧
        Sets WritesNames "functions" name v s.functions s'.functions := by
  intro name v b b' rest hb hb' hrest
  obtain ⟨classes, functions⟩ := s
  unfold field Sets
  by_cases hclasses : name = "classes"
  · have hne : name ≠ "functions" := by
      rw [hclasses]
      decide
    simp only [if_pos hclasses, if_neg hne]
    refine (reads_known (readsValue_map readsValue_readClass) name classes
      (fun classes => Fields.mk (some classes) functions) v hb hb' hrest).congr fun s => ?_
    constructor
    · rintro ⟨hnone, classes, hclasses, rfl⟩
      exact ⟨⟨hnone, classes, hclasses, rfl⟩, rfl⟩
    · rintro ⟨⟨hnone, classes, hclasses, hs⟩, hs'⟩
      exact ⟨hnone, classes, hclasses, by rw [← hs, ← hs']⟩
  · by_cases hfunctions : name = "functions"
    · simp only [if_neg hclasses, if_pos hfunctions]
      refine (reads_known readsValue_names name functions
        (fun functions => Fields.mk classes (some functions)) v hb hb' hrest).congr fun s => ?_
      constructor
      · rintro ⟨hnone, functions, hfunctions, rfl⟩
        exact ⟨rfl, hnone, functions, hfunctions, rfl⟩
      · rintro ⟨hs, hnone, functions, hfunctions, hs'⟩
        exact ⟨hnone, functions, hfunctions, by rw [← hs, ← hs']⟩
    · simp only [if_neg hclasses, if_neg hfunctions]
      refine (reads_unknown _ v hb hb' hrest).congr fun s => ?_
      constructor
      · rintro rfl
        exact ⟨rfl, rfl⟩
      · rintro ⟨hs, hs'⟩
        rw [← hs, ← hs']

/-- A module as an array: its classes, and its functions if there is a second item. -/
theorem reads_read_array (items : List Item) (gap : Gap) (rest : List Char) :
    Reads (do
        advance
        if ← nextItem true then
          let classes ← map readClass
          let functions ← if ← nextItem false then names else pure ∅
          recordEnd
          return Symbols.mk classes functions
        else
          recordEnd
          return {}) ('[' :: (itemsText true items ++ (gap.1 ++ ']' :: rest)))
      (Writes (.array items gap)) rest := by
  cases items with
  | nil =>
      refine (Reads.of_ok (a := ({} : Symbols)) ?_).congr fun s => ?_
      · rw [advance_bind, itemsText, List.nil_append, bind_of_ok (nextItem_end gap.2 true rest)]
        rfl
      · constructor
        · rintro rfl
          exact Writes.array WritesPart.absent WritesPart.absent
        · rintro (_ | ⟨hclasses, hfunctions⟩)
          obtain ⟨classes, functions⟩ := s
          cases hclasses
          cases hfunctions
          rfl
  | cons item items =>
      obtain ⟨before, v, after⟩ := item
      have hends := Ends.append after.2 (ends_itemsText items gap rest)
      have hnext := nextItem_item true blank_nil before v after items gap rest
      have hread := (readsValue_map readsValue_readClass v blank_nil hends).bind fun classes _ =>
        reads_lastPart readsValue_names ∅ (Symbols.mk classes) false items gap rest after.2
      refine (hread.of_eq ?_).congr fun s => ?_
      · rw [advance_bind]
        exact (bind_of_ok hnext _).trans rfl
      · constructor
        · rintro ⟨classes, hclasses, functions, hfunctions, rfl⟩
          exact Writes.array (WritesPart.present hclasses) hfunctions
        · rintro (_ | ⟨hclasses, hfunctions⟩)
          rcases hclasses with _ | hclasses
          exact ⟨s.classes, hclasses, s.functions, hfunctions, rfl⟩

theorem readsValue_read : ReadsValue read Writes := by
  refine readsValue_of_first .symbols ?_ reads_read_array ?_ ?_ ?_
  · intro marks rest
    exact Reads.of_fails (fails_refuse _ _) fun _ h => nomatch h
  · intro fields gap rest
    have hread := (reads_object readsField_field fields gap {} rest).map fun s =>
      Symbols.mk (s.classes.getD ∅) (s.functions.getD ∅)
    refine hread.congr fun s => ?_
    simp only [folds_field, folds_sets]
    constructor
    · rintro ⟨t, ⟨⟨hnames, hclasses⟩, -, hfunctions⟩, rfl⟩
      exact Writes.object hnames (folds_fills_iff.mp ⟨_, hclasses, rfl⟩)
        (folds_fills_iff.mp ⟨_, hfunctions, rfl⟩)
    · rintro (⟨hnames, hclasses, hfunctions⟩ | _)
      obtain ⟨classes, hfold, hclasses⟩ := folds_fills_iff.mpr hclasses
      obtain ⟨functions, hfold', hfunctions⟩ := folds_fills_iff.mpr hfunctions
      refine ⟨⟨classes, functions⟩, ⟨⟨hnames, hfold⟩, hnames, hfold'⟩, ?_⟩
      rw [← hclasses, ← hfunctions]
  · intro c _ hbracket hbrace
    split
    · exact absurd rfl hbracket
    · exact absurd rfl hbrace
    · rfl
  · intro v s h
    cases h with
    | object => exact Or.inr (Or.inr ⟨_, _, rfl⟩)
    | array => exact Or.inr (Or.inl ⟨_, _, rfl⟩)

/-- What a module is written with for its classes. -/
def classesParts : Spelling → List Spelling
  | .object fields _ => valuesOf "classes" fields
  | .array items _ => (items.map Padded.body).take 1
  | _ => []

theorem WritesClass.not_repeats {c : Spelling} {methods : NameSet} (h : WritesClass c methods) :
    ¬c.Repeats "methods" := by
  cases h with
  | object _ hmethods => exact hmethods.not_repeats _
  | array _ => exact id

theorem Writes.not_repeats_classes {m : Spelling} {s : Symbols} (h : Writes m s) :
    ¬m.Repeats "classes" := by
  cases h with
  | object _ hclasses _ => exact hclasses.not_repeats _
  | array _ _ => exact id

theorem Writes.not_repeats_functions {m : Spelling} {s : Symbols} (h : Writes m s) :
    ¬m.Repeats "functions" := by
  cases h with
  | object _ _ hfunctions => exact hfunctions.not_repeats _
  | array _ _ => exact id

theorem Writes.exists_of_mem_classesParts {m classes : Spelling} {s : Symbols} (h : Writes m s)
    (hclasses : classes ∈ classesParts m) : ∃ map, WritesMap WritesClass classes map := by
  cases h with
  | object _ hpart _ => exact hpart.exists_of_mem hclasses
  | array hpart _ => exact hpart.exists_of_mem hclasses

end Symbols

namespace Snapshot

/-- The value is a snapshot with the modules. -/
inductive Writes : Spelling → Snapshot → Prop
  | mk {v : Spelling} {modules : NameMap Symbols} (h : WritesMap Symbols.Writes v modules) :
      Writes v ⟨modules⟩

theorem readsValue_modules : ReadsValue (do return Snapshot.mk (← Json.map Symbols.read)) Writes := by
  intro v b rest hb hrest
  refine ((readsValue_map Symbols.readsValue_read).map Snapshot.mk v hb hrest).congr fun s => ?_
  constructor
  · rintro ⟨modules, hmodules, rfl⟩
    exact Writes.mk hmodules
  · rintro ⟨hmodules⟩
    exact ⟨_, hmodules, rfl⟩

/-- Some module or class is an object that repeats a field it knows. -/
def RepeatsField (v : Spelling) : Prop :=
  ∃ m ∈ v.values, m.Repeats "classes" ∨ m.Repeats "functions" ∨
    ∃ classes ∈ Symbols.classesParts m, ∃ c ∈ classes.values, c.Repeats "methods"

theorem Writes.not_repeatsField {v : Spelling} {s : Snapshot} (h : Writes v s) : ¬RepeatsField v := by
  obtain ⟨hmodules⟩ := h
  rintro ⟨m, hm, hrepeats⟩
  obtain ⟨symbols, hsymbols⟩ := hmodules.exists_of_mem_values hm
  rcases hrepeats with hclasses | hfunctions | ⟨classes, hmem, c, hc, hmethods⟩
  · exact hsymbols.not_repeats_classes hclasses
  · exact hsymbols.not_repeats_functions hfunctions
  · obtain ⟨map, hmap⟩ := hsymbols.exists_of_mem_classesParts hmem
    obtain ⟨methods, hclass⟩ := hmap.exists_of_mem_values hc
    exact hclass.not_repeats hmethods

/-- **A snapshot is read however it is written.** Of a JSON text, with any white space between its
tokens and any spelling of its strings, reading gives exactly the snapshot it is written for: the names
of a sequence may come in any order and repeatedly, fields in any order and with others between them,
empty parts may be left out, records may be arrays, and of two entries with one name the later counts.
But a text with a module or class that repeats one of its own fields is not read. -/
theorem ofJson_spelling :
    (∀ s : Snapshot, ∃ d : Padded Spelling,
      String.ofList (spacedText d) = s.toJson ∧ Writes d.body s) ∧
    ∀ d : Padded Spelling,
      (∀ s, ofJson (String.ofList (spacedText d)) = .ok s ↔ Writes d.body s) ∧
      (RepeatsField d.body → ∃ e, ofJson (String.ofList (spacedText d)) = .error e) := by
  have hread := readText_spelling readsValue_modules
  constructor
  · intro s
    obtain ⟨v, hv⟩ := exists_spelling lawful_pretty 0 (s.modules.toJson Symbols.toJson)
    have htext : String.ofList (spacedText ⟨⟨[], blank_nil⟩, v, ⟨[], blank_nil⟩⟩) = s.toJson := by
      rw [spacedText, List.nil_append, List.append_nil, hv]
      rfl
    exact ⟨_, htext, (hread _ s).mp (htext ▸ ofJson_toJson s)⟩
  · intro d
    refine ⟨hread d, fun hrepeats => ?_⟩
    cases hresult : ofJson (String.ofList (spacedText d)) with
    | error e => exact ⟨e, rfl⟩
    | ok s => exact absurd hrepeats ((hread d s).mp hresult).not_repeatsField

/-- Something with no white space around it. -/
def bare {α : Type} (body : α) : Padded α :=
  ⟨⟨[], blank_nil⟩, body, ⟨[], blank_nil⟩⟩

/-- A string without escapes. -/
def word (text : String) (h : (text.toList.all fun c => decide (Plain c)) = true) : List Mark :=
  text.toList.pmap Mark.plain fun c hc => of_decide_eq_true (List.all_eq_true.mp h c hc)

/-- The text `{"x":[-0.5e-01,{"\uD800":null}],"functions":["f","\u0066"],"x":null}`. -/
def objectModule : Spelling :=
  .object [
    (bare (word "x" (by decide)), bare (.array [
      bare (.number ⟨true, ⟨['0'], by decide, by decide⟩, by decide,
        some ⟨['5'], by decide, by decide⟩,
        some ⟨false, some true, ⟨['0', '1'], by decide, by decide⟩⟩⟩),
      bare (.object [(bare [.code ⟨⟨13, true⟩, ⟨8, false⟩, ⟨0, false⟩, ⟨0, false⟩⟩], bare .null)]
        ⟨[], blank_nil⟩)] ⟨[], blank_nil⟩)),
    (bare (word "functions" (by decide)), bare (.array [
      bare (.string (word "f" (by decide))),
      bare (.string [.code ⟨⟨0, false⟩, ⟨0, false⟩, ⟨6, false⟩, ⟨6, false⟩⟩])] ⟨[], blank_nil⟩)),
    (bare (word "x" (by decide)), bare .null)] ⟨[], blank_nil⟩

/-- The text `[{"K":[["m"]],"K":{ }}]`. -/
def arrayModule : Spelling :=
  .array [bare (.object [
    (bare (word "K" (by decide)), bare (.array [
      bare (.array [bare (.string (word "m" (by decide)))] ⟨[], blank_nil⟩)] ⟨[], blank_nil⟩)),
    (bare (word "K" (by decide)), bare (.object [] ⟨[' '], by decide⟩))] ⟨[], blank_nil⟩)]
    ⟨[], blank_nil⟩

def variedText : Padded Spelling :=
  bare (.object [(bare (word "b" (by decide)), bare arrayModule),
    (bare (word "a" (by decide)), bare objectModule)] ⟨['\n', '\t'], by decide⟩)

/-- The text `{"functions":[],"functions":[]}`. -/
def repeatingModule : Spelling :=
  .object [(bare (word "functions" (by decide)), bare (.array [] ⟨[], blank_nil⟩)),
    (bare (word "functions" (by decide)), bare (.array [] ⟨[], blank_nil⟩))] ⟨[], blank_nil⟩

def repeatingText : Padded Spelling :=
  bare (.object [(bare (word "a" (by decide)), bare repeatingModule)] ⟨[], blank_nil⟩)

def variedSnapshot : Snapshot :=
  (Snapshot.insert {} "a" { functions := .ofList ["f"] }).insert "b"
    { classes := NameMap.insert ∅ "K" ∅ }

theorem ofJson_spelling_variedText :
    Writes variedText.body variedSnapshot ∧
      ofJson (String.ofList (spacedText variedText)) = .ok variedSnapshot ∧
      RepeatsField repeatingText.body ∧
      ∃ e, ofJson (String.ofList (spacedText repeatingText)) = .error e := by
  have hread : ofJson (String.ofList (spacedText variedText)) = .ok variedSnapshot := by
    decide +kernel
  have hfunctions : repeatingModule.Repeats "functions" := by
    change 2 ≤ List.length _
    decide +kernel
  have hrepeats : RepeatsField repeatingText.body :=
    ⟨repeatingModule, List.mem_cons_self, Or.inr (Or.inl hfunctions)⟩
  exact ⟨((ofJson_spelling.2 variedText).1 _).mp hread, hread, hrepeats,
    (ofJson_spelling.2 repeatingText).2 hrepeats⟩

end Snapshot

end ApiSurface
