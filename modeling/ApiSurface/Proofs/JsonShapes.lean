import ApiSurface.Proofs.JsonSkipping

/-! What the readers of JSON make of a text that anyone may have written. A reader of values is
described by a relation between the values, as they are written, and its results: it gives a result
exactly if the two are related, and then leaves what follows the value. The description of arrays and
objects is made from that of their parts, and of the fields of a record only those it knows count. -/

namespace ApiSurface.Json

/-! ### Readers of values -/

/-- The reader reads every value as the relation says, with white space before it. -/
def ReadsValue {α : Type} (r : Scan α) (P : Spelling → α → Prop) : Prop :=
  ∀ (v : Spelling) {b rest : List Char}, Blank b → Ends rest → Reads r (b ++ (v.text ++ rest)) (P v) rest

/-- The reader of a field, which starts after its name, reads every value as the relation says. -/
def ReadsField {σ : Type} (field : String → Scan σ) (P : String → Spelling → σ → Prop) : Prop :=
  ∀ (name : String) (v : Spelling) {b b' rest : List Char}, Blank b → Blank b' → Ends rest →
    Reads (field name) (b ++ ':' :: (b' ++ (v.text ++ rest))) (P name v) rest

variable {α β σ : Type}

theorem ReadsValue.map {r : Scan α} {P : Spelling → α → Prop} (h : ReadsValue r P) (f : α → β) :
    ReadsValue (do return f (← r)) fun v b => ∃ a, P v a ∧ b = f a :=
  fun v _ _ hb hrest => (h v hb hrest).map f

theorem fails_stopIn (cause : Cause) (cs : List Char) : Fails (stopIn cause : Scan α) cs := by
  intro a ds h
  cases h

theorem fails_refuse (expected : Expected) (cs : List Char) :
    Fails (refuse expected : Scan α) cs := by
  refine fails_bind (fun c es => ?_) cs
  split
  · exact fails_bind (fun _ _ => fails_bind (fun _ _ => fails_stop _ _) _) _
  · exact fails_bind (fun _ _ => fails_bind (fun _ _ => fails_stop _ _) _) _
  · exact fails_bind (fun _ _ => fails_bind (fun _ _ => fails_stop _ _) _) _
  · exact fails_bind (fun _ _ => fails_bind (fun _ _ => fails_stop _ _) _) _
  · exact fails_bind (fun _ _ => fails_bind (fun _ _ => fails_stop _ _) _) _
  · exact fails_stop _ _
  · exact fails_stop _ _
  · split
    · exact fails_bind (fun _ _ => fails_stop _ _) _
    · exact fails_stopIn _ _

/-! ### Loops -/

/-- The relation leads along a list from one state to another. -/
def Folds {ι : Type} (step : ι → σ → σ → Prop) : List ι → σ → σ → Prop
  | [], s, t => t = s
  | i :: is, s, t => ∃ s', step i s s' ∧ Folds step is s' t

theorem folds_iff_foldl {ι : Type} {Q : ι → α → Prop} {f : σ → α → σ} {is : List ι} {s t : σ} :
    Folds (fun i s s' => ∃ a, Q i a ∧ s' = f s a) is s t ↔
      ∃ as, List.Forall₂ Q is as ∧ t = as.foldl f s := by
  induction is generalizing s with
  | nil =>
      constructor
      · intro h
        exact ⟨[], List.Forall₂.nil, h⟩
      · rintro ⟨as, has, rfl⟩
        cases has
        rfl
  | cons i is ih =>
      constructor
      · rintro ⟨s', ⟨a, ha, rfl⟩, h⟩
        obtain ⟨as, has, rfl⟩ := ih.mp h
        exact ⟨a :: as, List.Forall₂.cons ha has, rfl⟩
      · rintro ⟨as, has, rfl⟩
        cases has with
        | cons ha has => exact ⟨_, ⟨_, ha, rfl⟩, ih.mpr ⟨_, has, rfl⟩⟩

theorem folds_congr {ι : Type} {step step' : ι → σ → σ → Prop}
    (h : ∀ i s s', step i s s' ↔ step' i s s') {is : List ι} {s t : σ} :
    Folds step is s t ↔ Folds step' is s t := by
  have heq : step = step' := by
    funext i s s'
    exact propext (h i s s')
  rw [heq]

theorem lead_separator (first : Bool) {b : List Char} (hb : Blank b) (before : Gap) :
    Lead first (b ++ (separator first ++ before.1)) := by
  cases first with
  | true => exact Lead.first (hb.append before.2)
  | false => exact Lead.next hb before.2

theorem nextItem_item (first : Bool) {b : List Char} (hb : Blank b) (before : Gap) (v : Spelling)
    (after : Gap) (items : List Item) (gap : Gap) (rest : List Char) :
    nextItem first (b ++ (itemsText first (⟨before, v, after⟩ :: items) ++ (gap.1 ++ ']' :: rest))) =
      .ok (true, v.text ++ (after.1 ++ (itemsText false items ++ (gap.1 ++ ']' :: rest)))) := by
  obtain ⟨c, cs, hv, hc, hend, -⟩ := v.text_eq_cons
  have htext : b ++ (itemsText first (⟨before, v, after⟩ :: items) ++ (gap.1 ++ ']' :: rest)) =
      b ++ (separator first ++ before.1) ++ (v.text ++
        (after.1 ++ (itemsText false items ++ (gap.1 ++ ']' :: rest)))) := by
    simp [itemsText, spacedText]
  rw [htext, hv, List.cons_append]
  exact nextItem_lead (lead_separator first hb before) hc hend _

/-- One round of the loop reads one item, and white space before the next is passed over. -/
theorem reads_items {item : σ → Scan σ} {step : Spelling → σ → σ → Prop}
    (hitem : ∀ s, ReadsValue (item s) fun v => step v s) (items : List Item) (gap : Gap)
    (rest : List Char) {n : Nat} (hn : items.length < n) (first : Bool) (s : σ) {b : List Char}
    (hb : Blank b) :
    Reads (Json.items item n first s) (b ++ (itemsText first items ++ (gap.1 ++ ']' :: rest)))
      (Folds (fun i => step i.body) items s) rest := by
  induction items generalizing n first s b with
  | nil =>
      obtain ⟨m, rfl⟩ : ∃ m, n = m + 1 := ⟨n - 1, by omega⟩
      have hend := nextItem_end (hb.append gap.2) first rest
      refine Reads.of_ok ?_
      rw [itemsText, List.nil_append, ← List.append_assoc]
      exact items_of_end hend
  | cons i items ih =>
      obtain ⟨m, rfl⟩ : ∃ m, n = m + 1 := ⟨n - 1, by omega⟩
      obtain ⟨before, v, after⟩ := i
      have hends := Ends.append after.2 (ends_itemsText items gap rest)
      rw [Json.items]
      refine Reads.of_eq ?_ (bind_of_ok (nextItem_item first hb before v after items gap rest) _)
      have hloop := fun s' => ih (by simpa using hn) false s' after.2
      exact (hitem s v blank_nil hends).bind fun s' _ => hloop s'

/-- One round of the loop reads one field, its name before its value. -/
theorem reads_fields {field : σ → String → Scan σ} {step : String → Spelling → σ → σ → Prop}
    (hfield : ∀ s, ReadsField (field s) fun name v => step name v s)
    (fields : List Field) (gap : Gap) (rest : List Char) {n : Nat}
    (hn : fields.length < n) (first : Bool) (s : σ) {b : List Char} (hb : Blank b) :
    Reads (Json.fields field n first s) (b ++ (fieldsText first fields ++ (gap.1 ++ '\x7d' :: rest)))
      (Folds (fun f s s' => ∃ name, string? f.1.body = some name ∧ step name f.2.body s s') fields s)
      rest := by
  induction fields generalizing n first s b with
  | nil =>
      obtain ⟨m, rfl⟩ : ∃ m, n = m + 1 := ⟨n - 1, by omega⟩
      have hend := nextField_end (hb.append gap.2) first rest
      refine Reads.of_ok ?_
      rw [fieldsText, List.nil_append, ← List.append_assoc]
      exact fields_of_end hend
  | cons f fields ih =>
      obtain ⟨m, rfl⟩ : ∃ m, n = m + 1 := ⟨n - 1, by omega⟩
      obtain ⟨name, before, v, after⟩ := f
      have hends := Ends.append after.2 (ends_fieldsText fields gap rest)
      have htext : b ++ (fieldsText first ((name, ⟨before, v, after⟩) :: fields) ++
            (gap.1 ++ '\x7d' :: rest)) =
          b ++ (separator first ++ name.before.1) ++ '"' :: (name.body.flatMap Mark.text ++ '"' ::
            (name.after.1 ++ ':' :: (before.1 ++ (v.text ++
              (after.1 ++ (fieldsText false fields ++ (gap.1 ++ '\x7d' :: rest))))))) := by
        simp [fieldsText, fieldText, spacedText, quoted]
      have hnext := nextField_lead (lead_separator first hb name.before)
        (name.body.flatMap Mark.text ++ '"' :: (name.after.1 ++ ':' :: (before.1 ++ (v.text ++
              (after.1 ++ (fieldsText false fields ++ (gap.1 ++ '\x7d' :: rest)))))))
      rw [htext, Json.fields]
      refine Reads.of_eq ?_ (bind_of_ok hnext _)
      have hloop := fun s' => ih (by simpa using hn) false s' after.2
      have hround := (reads_scanString name.body _).bind fun key _ =>
        (hfield s key v name.after.2 before.2 hends).bind fun s' _ => hloop s'
      refine hround.congr fun t => ?_
      constructor
      · rintro ⟨key, hkey, s', hstep, ht⟩
        exact ⟨s', ⟨key, hkey, hstep⟩, ht⟩
      · rintro ⟨s', ⟨key, hkey, hstep⟩, ht⟩
        exact ⟨key, hkey, s', hstep, ht⟩

theorem length_le_itemsText (first : Bool) (items : List Item) :
    items.length ≤ (itemsText first items).length := by
  induction items generalizing first with
  | nil => exact Nat.zero_le _
  | cons item items ih =>
      obtain ⟨before, v, after⟩ := item
      obtain ⟨c, cs, hv, -⟩ := v.text_eq_cons
      have htail := ih false
      simp [itemsText, spacedText, hv]
      omega

theorem length_le_fieldsText (first : Bool) (fields : List Field) :
    fields.length ≤ (fieldsText first fields).length := by
  induction fields generalizing first with
  | nil => exact Nat.zero_le _
  | cons field fields ih =>
      obtain ⟨name, value⟩ := field
      have htail := ih false
      simp [fieldsText, fieldText]
      omega

/-- The loop over the items of an array reads it from its opening bracket on. -/
theorem reads_array {item : σ → Scan σ} {step : Spelling → σ → σ → Prop}
    (hitem : ∀ s, ReadsValue (item s) fun v => step v s) (items : List Item) (gap : Gap)
    (s : σ) (rest : List Char) :
    Reads (do advance; Json.items item ((← get).length + 1) true s)
      ('[' :: (itemsText true items ++ (gap.1 ++ ']' :: rest)))
      (Folds (fun i => step i.body) items s) rest := by
  have hlength := length_le_itemsText true items
  refine reads_items hitem items gap rest ?_ true s blank_nil
  simp only [List.tail_cons, List.length_append]
  omega

/-- The loop over the fields of an object reads it from its opening brace on. -/
theorem reads_object {field : σ → String → Scan σ} {step : String → Spelling → σ → σ → Prop}
    (hfield : ∀ s, ReadsField (field s) fun name v => step name v s)
    (fields : List Field) (gap : Gap) (s : σ) (rest : List Char) :
    Reads (do advance; Json.fields field ((← get).length + 1) true s)
      ('\x7b' :: (fieldsText true fields ++ (gap.1 ++ '\x7d' :: rest)))
      (Folds (fun f s s' => ∃ name, string? f.1.body = some name ∧ step name f.2.body s s') fields s)
      rest := by
  have hlength := length_le_fieldsText true fields
  refine reads_fields hfield fields gap rest ?_ true s blank_nil
  simp only [List.tail_cons, List.length_append]
  omega

/-- A reader that goes by the first character, and refuses what is no string, array or object. -/
theorem readsValue_of_first {k : Char → Scan α} {P : Spelling → α → Prop} (expected : Expected)
    (hstring : ∀ marks rest, Reads (k '"') ('"' :: (marks.flatMap Mark.text ++ '"' :: rest))
      (P (.string marks)) rest)
    (harray : ∀ (items : List Item) (gap : Gap) (rest : List Char),
      Reads (k '[') ('[' :: (itemsText true items ++ (gap.1 ++ ']' :: rest)))
        (P (.array items gap)) rest)
    (hobject : ∀ (fields : List Field) (gap : Gap) (rest : List Char),
      Reads (k '\x7b') ('\x7b' :: (fieldsText true fields ++ (gap.1 ++ '\x7d' :: rest)))
        (P (.object fields gap)) rest)
    (hother : ∀ c, c ≠ '"' → c ≠ '[' → c ≠ '\x7b' → k c = refuse expected)
    (hP : ∀ v a, P v a → (∃ marks, v = .string marks) ∨ (∃ items gap, v = .array items gap) ∨
      ∃ fields gap, v = .object fields gap) : ReadsValue (peekValue >>= k) P := by
  intro v b rest hb hrest
  obtain ⟨c, cs, hv, hc, -, hstring', harray', hobject'⟩ := v.text_eq_cons
  have hpeek : (peekValue >>= k) (b ++ (v.text ++ rest)) = k c (v.text ++ rest) := by
    rw [hv, List.cons_append]
    exact bind_of_ok (peekValue_append hb hc _) k
  refine Reads.of_eq ?_ hpeek
  by_cases hquote : c = '"'
  · obtain ⟨marks, rfl⟩ := hstring'.mp hquote
    rw [hquote, string_text]
    exact hstring marks rest
  by_cases hbracket : c = '['
  · obtain ⟨items, gap, rfl⟩ := harray'.mp hbracket
    rw [hbracket, array_text]
    exact harray items gap rest
  by_cases hbrace : c = '\x7b'
  · obtain ⟨fields, gap, rfl⟩ := hobject'.mp hbrace
    rw [hbrace, object_text]
    exact hobject fields gap rest
  · rw [hother c hquote hbracket hbrace]
    refine Reads.of_fails (fails_refuse expected _) fun a ha => ?_
    rcases hP v a ha with h | h | h
    · exact hquote (hstring'.mpr h)
    · exact hbracket (harray'.mpr h)
    · exact hbrace (hobject'.mpr h)

/-! ### Names and maps -/

/-- The value is a string that stands for the name. -/
inductive WritesString : Spelling → String → Prop
  | mk {marks : List Mark} {name : String} (h : string? marks = some name) :
      WritesString (.string marks) name

/-- The value is an array of the names of the set, in any order and repeated. -/
inductive WritesNames : Spelling → NameSet → Prop
  | mk {items : List Item} {gap : Gap} {names : List String} {s : NameSet}
      (hitems : List.Forall₂ (fun i name => WritesString i.body name) items names)
      (hmem : ∀ name, name ∈ s ↔ name ∈ names) : WritesNames (.array items gap) s

/-- The value is an object with the entries of the map. Of the fields with one name the last counts,
but the earlier ones have to be written for something as well. -/
inductive WritesMap {α : Type} (P : Spelling → α → Prop) : Spelling → NameMap α → Prop
  | mk {fields : List Field} {gap : Gap}
      {entries : List (String × α)} {m : NameMap α}
      (hfields : List.Forall₂ (fun f e => string? f.1.body = some e.1 ∧ P f.2.body e.2) fields entries)
      (hget : ∀ key, m.get? key = entries.reverse.lookup key) : WritesMap P (.object fields gap) m

theorem readsValue_text : ReadsValue Json.text WritesString := by
  refine readsValue_of_first .string ?_ ?_ ?_ ?_ ?_
  · intro marks rest
    refine (reads_scanString marks rest).congr fun name => ?_
    constructor
    · exact WritesString.mk
    · rintro ⟨h⟩
      exact h
  · intro items gap rest
    exact Reads.of_fails (fails_refuse _ _) fun _ h => nomatch h
  · intro fields gap rest
    exact Reads.of_fails (fails_refuse _ _) fun _ h => nomatch h
  · intro c hquote _ _
    split
    · exact absurd rfl hquote
    · rfl
  · rintro _ name ⟨h⟩
    exact Or.inl ⟨_, rfl⟩

theorem readsValue_names : ReadsValue names WritesNames := by
  refine readsValue_of_first .sequence ?_ ?_ ?_ ?_ ?_
  · intro marks rest
    exact Reads.of_fails (fails_refuse _ _) fun _ h => nomatch h
  · intro items gap rest
    have hread := reads_array (fun s : NameSet => readsValue_text.map s.insert) items gap ∅ rest
    refine hread.congr fun s => ?_
    rw [folds_iff_foldl]
    constructor
    · rintro ⟨names, hnames, rfl⟩
      exact WritesNames.mk hnames fun name => by simp [NameSet.mem_foldl_insert]
    · rintro ⟨hnames, hmem⟩
      refine ⟨_, hnames, NameSet.ext_mem fun name => ?_⟩
      simp [hmem, NameSet.mem_foldl_insert]
  · intro fields gap rest
    exact Reads.of_fails (fails_refuse _ _) fun _ h => nomatch h
  · intro c _ hbracket _
    split
    · exact absurd rfl hbracket
    · rfl
  · rintro _ s ⟨h⟩
    exact Or.inr (Or.inl ⟨_, _, rfl⟩)

/-- The values of an object. -/
def Spelling.values : Spelling → List Spelling
  | .object fields _ => fields.map fun f => f.2.body
  | _ => []

theorem WritesMap.exists_of_mem_values {P : Spelling → α → Prop} {v w : Spelling} {m : NameMap α}
    (h : WritesMap P v m) (hw : w ∈ v.values) : ∃ a, P w a := by
  obtain ⟨hfields, -⟩ := h
  obtain ⟨f, hf, rfl⟩ := List.mem_map.mp hw
  clear hw
  induction hfields with
  | nil => cases hf
  | cons hfield _ ih =>
      rcases List.mem_cons.mp hf with rfl | hf
      · exact ⟨_, hfield.2⟩
      · exact ih hf

theorem readsField_value {r : Scan α} {P : Spelling → α → Prop} (h : ReadsValue r P)
    (f : String → α → β) :
    ReadsField (fun name => do colon; return f name (← r)) fun name v b => ∃ a, P v a ∧ b = f name a :=
  fun name v _ _ _ hb hb' hrest =>
    ((h v hb' hrest).map (f name)).of_eq (bind_of_ok (colon_append hb _) _)

theorem readsValue_map {r : Scan α} {P : Spelling → α → Prop} (h : ReadsValue r P) :
    ReadsValue (map r) (WritesMap P) := by
  have hstep : ∀ (f : Field) (m m' : NameMap α),
      (∃ name, string? f.1.body = some name ∧ ∃ a, P f.2.body a ∧ m' = m.insert name a) ↔
        ∃ e : String × α, (string? f.1.body = some e.1 ∧ P f.2.body e.2) ∧ m' = m.insert e.1 e.2 := by
    intro f m m'
    constructor
    · rintro ⟨name, hname, a, ha, hm⟩
      exact ⟨(name, a), ⟨hname, ha⟩, hm⟩
    · rintro ⟨e, ⟨hname, ha⟩, hm⟩
      exact ⟨e.1, hname, e.2, ha, hm⟩
  refine readsValue_of_first .map ?_ ?_ ?_ ?_ ?_
  · intro marks rest
    exact Reads.of_fails (fails_refuse _ _) fun _ h => nomatch h
  · intro items gap rest
    exact Reads.of_fails (fails_refuse _ _) fun _ h => nomatch h
  · intro fields gap rest
    have hread := reads_object (fun m : NameMap α => readsField_value h m.insert) fields gap ∅ rest
    refine hread.congr fun m => ?_
    rw [folds_congr hstep, folds_iff_foldl]
    constructor
    · rintro ⟨entries, hentries, rfl⟩
      exact WritesMap.mk hentries fun key => NameMap.get?_ofList entries key
    · rintro ⟨hentries, hget⟩
      refine ⟨_, hentries, NameMap.ext_get? fun key => ?_⟩
      rw [hget]
      exact (NameMap.get?_ofList _ key).symm
  · intro c _ _ hbrace
    split
    · exact absurd rfl hbrace
    · rfl
  · rintro _ m ⟨h⟩
    exact Or.inr (Or.inr ⟨_, _, rfl⟩)

/-! ### Records -/

/-- The values of the fields with the name. -/
def valuesOf (name : String) (fields : List Field) : List Spelling :=
  (fields.filter fun f => string? f.1.body = some name).map fun f => f.2.body

/-- The part of a record for which the values are written: nothing for an empty part, and never two. -/
inductive WritesPart {α : Type} (P : Spelling → α → Prop) (empty : α) : List Spelling → α → Prop
  | absent : WritesPart P empty [] empty
  | present {v : Spelling} {a : α} (h : P v a) : WritesPart P empty [v] a

/-- The object has two fields with the name. -/
def Spelling.Repeats (name : String) : Spelling → Prop
  | .object fields _ => 2 ≤ (valuesOf name fields).length
  | _ => False

theorem WritesPart.exists_of_mem {P : Spelling → α → Prop} {empty a : α} {vs : List Spelling}
    (h : WritesPart P empty vs a) {v : Spelling} (hv : v ∈ vs) : ∃ a, P v a := by
  cases h with
  | absent => cases hv
  | present h =>
      rw [List.mem_singleton.mp hv]
      exact ⟨a, h⟩

theorem WritesPart.length_le {P : Spelling → α → Prop} {empty a : α} {vs : List Spelling}
    (h : WritesPart P empty vs a) : vs.length ≤ 1 := by
  cases h with
  | absent => exact Nat.zero_le 1
  | present => exact Nat.le_refl 1

theorem WritesPart.not_repeats {P : Spelling → α → Prop} {empty a : α} {name : String}
    {fields : List Field} (h : WritesPart P empty (valuesOf name fields) a) (gap : Gap) :
    ¬(Spelling.object fields gap).Repeats name :=
  Nat.not_le.mpr (Nat.lt_succ_of_le h.length_le)

/-- A value sets what was not set yet. -/
def Fills {α : Type} (P : Spelling → α → Prop) (v : Spelling) (s s' : Option α) : Prop :=
  s = none ∧ ∃ a, P v a ∧ s' = some a

/-- A field sets what its name says, and leaves the rest. -/
def Sets {α : Type} (P : Spelling → α → Prop) (known name : String) (v : Spelling)
    (s s' : Option α) : Prop :=
  if name = known then Fills P v s s' else s' = s

theorem folds_sets {P : Spelling → α → Prop} {known : String}
    {fields : List Field} {s t : Option α} :
    Folds (fun f s s' => ∃ name, string? f.1.body = some name ∧ Sets P known name f.2.body s s')
      fields s t ↔
      (∀ f ∈ fields, (string? f.1.body).isSome) ∧ Folds (Fills P) (valuesOf known fields) s t := by
  induction fields generalizing s with
  | nil => simp [Folds, valuesOf]
  | cons f fields ih =>
      simp only [Folds, ih, List.forall_mem_cons]
      cases hname : string? f.1.body with
      | none => simp
      | some name =>
          simp only [Option.some.injEq, exists_eq_left', Option.isSome_some, true_and]
          by_cases hknown : name = known
          · have hvalues : valuesOf known (f :: fields) = f.2.body :: valuesOf known fields := by
              simp [valuesOf, hname, hknown]
            simp only [hvalues, Folds, Sets, if_pos hknown]
            constructor
            · rintro ⟨s', hfills, hnames, ht⟩
              exact ⟨hnames, s', hfills, ht⟩
            · rintro ⟨hnames, s', hfills, ht⟩
              exact ⟨s', hfills, hnames, ht⟩
          · have hvalues : valuesOf known (f :: fields) = valuesOf known fields := by
              simp [valuesOf, hname, hknown]
            simp only [hvalues, Sets, if_neg hknown, exists_eq_left]

theorem folds_fills_iff {P : Spelling → α → Prop} {empty a : α} {vs : List Spelling} :
    (∃ t, Folds (Fills P) vs none t ∧ a = t.getD empty) ↔ WritesPart P empty vs a := by
  constructor
  · rintro ⟨t, ht, rfl⟩
    cases vs with
    | nil =>
        cases ht
        exact WritesPart.absent
    | cons v vs =>
        obtain ⟨s, ⟨-, a, ha, rfl⟩, ht⟩ := ht
        cases vs with
        | nil =>
            cases ht
            exact WritesPart.present ha
        | cons w vs =>
            obtain ⟨s', ⟨hnone, -⟩, -⟩ := ht
            cases hnone
  · rintro (_ | h)
    · exact ⟨none, rfl, rfl⟩
    · exact ⟨some a, ⟨some a, ⟨rfl, a, h, rfl⟩, rfl⟩, rfl⟩

theorem fails_refuseDuplicate (name : String) (cs : List Char) :
    Fails (refuseDuplicate name : Scan α) cs := by
  refine fails_bind (fun c es => ?_) cs
  split
  · exact fails_bind (fun _ _ => fails_stop _ _) _
  · exact fails_stop _ _

/-- A known field is read once. -/
theorem reads_known {r : Scan α} {P : Spelling → α → Prop} (h : ReadsValue r P) (name : String)
    (s : Option α) (f : α → β) (v : Spelling) {b b' rest : List Char} (hb : Blank b) (hb' : Blank b')
    (hrest : Ends rest) :
    Reads (do
        if s.isSome then refuseDuplicate name
        colon
        return f (← r)) (b ++ ':' :: (b' ++ (v.text ++ rest)))
      (fun y => s = none ∧ ∃ a, P v a ∧ y = f a) rest := by
  cases s with
  | none =>
      refine (readsField_value h (fun _ => f) name v hb hb' hrest).congr fun y => ?_
      exact ⟨fun hy => ⟨rfl, hy⟩, fun hy => hy.2⟩
  | some a =>
      refine Reads.of_fails ?_ fun y hy => ?_
      · exact (fails_refuseDuplicate name _).bind _
      · cases hy.1

/-- An unknown field is passed over with its value. -/
theorem reads_unknown (s : σ) (v : Spelling) {b b' rest : List Char} (hb : Blank b) (hb' : Blank b')
    (hrest : Ends rest) :
    Reads (do colon; skip; return s) (b ++ ':' :: (b' ++ (v.text ++ rest))) (· = s) rest := by
  refine Reads.of_ok ?_
  rw [bind_of_ok (colon_append hb _), bind_of_ok (skip_text v hb' hrest)]
  rfl

/-- The end of an array is not reached before its last item. -/
theorem reads_recordEnd (items : List Item) (gap : Gap) (rest : List Char)
    {b : List Char} (hb : Blank b) :
    Reads recordEnd (b ++ (itemsText false items ++ (gap.1 ++ ']' :: rest))) (fun _ => items = [])
      rest := by
  cases items with
  | nil =>
      have hpeek := peek_append (hb.append gap.2) (show ¬IsBlank ']' by decide) rest
      rw [List.append_assoc] at hpeek
      refine (Reads.of_ok (a := ()) ?_).congr fun u => by simp
      rw [itemsText, List.nil_append, recordEnd, bind_of_ok hpeek]
      rfl
  | cons item items =>
      have htext : itemsText false (item :: items) ++ (gap.1 ++ ']' :: rest) =
          ',' :: (spacedText item ++ (itemsText false items ++ (gap.1 ++ ']' :: rest))) := by
        simp [itemsText, separator]
      refine Reads.of_fails (fun a ds => ?_) (by simp)
      rw [htext, recordEnd, bind_of_ok (peek_append hb (show ¬IsBlank ',' by decide) _)]
      refine fails_bind (fun _ es => fails_bind (fun c es => ?_) es) _ a ds
      split
      · exact fails_stopIn _ _
      · exact fails_stopIn _ _

/-- The last part of a record that is written as an array: it may be left out, and nothing may follow. -/
theorem reads_lastPart {r : Scan α} {P : Spelling → α → Prop} (h : ReadsValue r P) (empty : α)
    (f : α → β) (first : Bool) (items : List Item) (gap : Gap) (rest : List Char)
    {b : List Char} (hb : Blank b) :
    Reads (do
        let a ← if ← nextItem first then r else pure empty
        recordEnd
        return f a) (b ++ (itemsText first items ++ (gap.1 ++ ']' :: rest)))
      (fun y => ∃ a, WritesPart P empty (items.map Padded.body) a ∧ y = f a) rest := by
  cases items with
  | nil =>
      have hend := nextItem_end (hb.append gap.2) first rest
      rw [List.append_assoc] at hend
      refine (Reads.of_ok (a := f empty) ?_).congr fun y => ?_
      · rw [itemsText, List.nil_append, bind_of_ok hend]
        rfl
      · constructor
        · rintro rfl
          exact ⟨empty, WritesPart.absent, rfl⟩
        · rintro ⟨a, ⟨⟩, rfl⟩
          rfl
  | cons item items =>
      obtain ⟨before, v, after⟩ := item
      have hends := Ends.append after.2 (ends_itemsText items gap rest)
      have hread := (h v blank_nil hends).bind fun a _ =>
        (reads_recordEnd items gap rest after.2).bind fun _ _ => reads_pure (f a) rest
      have hnext := nextItem_item first hb before v after items gap rest
      refine (hread.of_eq ((bind_of_ok hnext _).trans rfl)).congr fun y => ?_
      constructor
      · rintro ⟨a, ha, -, rfl, rfl⟩
        exact ⟨a, WritesPart.present ha, rfl⟩
      · rintro ⟨a, ha, rfl⟩
        cases items with
        | nil =>
            rcases ha with _ | ha
            exact ⟨a, ha, (), rfl, rfl⟩
        | cons item items => cases ha

/-! ### Whole texts -/

/-- A whole text that is read: nothing but white space stands around the value. -/
theorem readText_spelling {r : Scan α} {P : Spelling → α → Prop} (h : ReadsValue r P)
    (d : Padded Spelling) (a : α) :
    readText r (String.ofList (spacedText d)) = .ok a ↔ P d.body a := by
  obtain ⟨before, v, after⟩ := d
  have hread := h v before.2 after.2.ends
  rw [readText, String.toList_ofList, spacedText]
  constructor
  · intro hok
    split at hok
    case h_1 result ds heq =>
      obtain ⟨a', es, hr, hend⟩ := bind_eq_ok.mp heq
      obtain ⟨hP, rfl⟩ := (hread a' es).mp hr
      rw [bind_of_ok (peek_blank after.2)] at hend
      cases hend
      cases hok
      exact hP
    case h_2 => cases hok
  · intro hP
    rw [bind_of_ok ((hread a _).mpr ⟨hP, rfl⟩), bind_of_ok (peek_blank after.2)]
    rfl

end ApiSurface.Json
