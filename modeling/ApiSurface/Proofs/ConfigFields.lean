import ApiSurface.Config
import ApiSurface.Proofs.TomlLines
import ApiSurface.Proofs.TomlRoles

/-! A configuration is read from a TOML text field by field: each of three keys at the top level of the
document gives its field, by what stands under it and by nothing else, and an error is about the first key
in the order of the document under which something of the wrong kind stands. -/

namespace ApiSurface

namespace Toml.Document

/-- The pairs before the first header, and the sections. -/
def parts (d : Document) : List Part :=
  d.pairs.map .pair ++ d.sections.map .block

/-- The document keeps to the rules for keys and headers, and so does each table in braces. -/
structure Valid (d : Document) : Prop where
  sound : ∀ line ∈ d.allLines, line.Sound
  allowed : View.AllowsAll (fun _ => none) d.parts

/-- What stands under a name at the top level. -/
def content (d : Document) (name : String) : Option Content :=
  contentOf name d.parts

/-- Where a name of the top level counts in the order of the document. -/
def place (d : Document) (name : String) : Nat :=
  Toml.place name d.parts

/-- The text of a valid document has a table, which holds what the document says in its order. -/
theorem exists_reflects (d : Document) (hvalid : d.Valid) (hmoderate : d.Moderate) :
    ∃ es, document d.text = some es ∧ Reflects d.parts es := by
  have hempty : roleAt [] = fun _ => none := by
    funext r
    exact roleAt_empty r
  have hallowed := hvalid.allowed
  rw [← hempty] at hallowed
  obtain ⟨es, hes⟩ := foldlM_addPart_of_allows hallowed
  have hdocument : document d.text = some es := by
    rw [d.document_text hvalid.sound hmoderate, ← hes, parts, List.foldlM_append, List.foldlM_map]
    congr 1
    funext root
    rw [List.foldlM_map]
    rfl
  exact ⟨es, hdocument, Reflects.empty.of_foldlM hes⟩

end Toml.Document

namespace Config

open Toml (Content Document Key Item Entries Reflects)

/-! ### What a key gives -/

/-- The fields of a configuration. -/
inductive Field where
  | exclude
  | extension
  | keepRootName
deriving DecidableEq

namespace Field

/-- The key that gives the field. -/
def name : Field → String
  | exclude => "exclude"
  | extension => "extension"
  | keepRootName => "keep_root_name"

theorem name_injective {f g : Field} (h : f.name = g.name) : f = g := by
  revert h
  cases f <;> cases g <;> decide

/-- The values of the field. -/
def Ty : Field → Type
  | exclude => List String
  | extension => String
  | keepRootName => Bool

def get : (f : Field) → Config → f.Ty
  | exclude, c => c.exclude
  | extension, c => c.extension
  | keepRootName, c => c.keepRootName

/-- What stands under the key of the field is of the right kind, and has the value. -/
def Gives : (f : Field) → Content → f.Ty → Prop
  | exclude, content, texts =>
    ∃ items span, content = .value (.array items) span ∧ items.map Prod.fst = texts.map Toml.Value.string
  | extension, content, text => ∃ span, content = .value (.string text) span
  | keepRootName, content, value => ∃ span, content = .value (.boolean value) span

/-- The value of the field, by what stands under its key; it is as by default if nothing does. -/
def Holds (f : Field) : Option Content → f.Ty → Prop
  | none, v => v = f.get {}
  | some content, v => f.Gives content v

end Field

/-- The error about something that is not of the expected kind. A table is shown by its header, or else by
the first key that mentions it. -/
def refusal (expected : Expected) : Content → Fault
  | .value v span => .mismatched ⟨v.found, expected⟩ span
  | .headed span => .mismatched ⟨.map, expected⟩ span
  | .unheaded mention => .mismatched ⟨.map, expected⟩ mention
  | .tables first last => .mismatched ⟨.sequence, expected⟩ ⟨first.start, last.stop⟩

def isString : Toml.Value → Bool
  | .string _ => true
  | _ => false

/-- The error about what stands under the key of a field, if it is not of the right kind. In an array it
is about the first item that is no string. -/
def Field.fault? : Field → Content → Option Fault
  | exclude, .value (.array items) _ =>
    (items.find? fun item => !isString item.1).map fun item => .mismatched ⟨item.1.found, .string⟩ item.2
  | exclude, .tables first _ => some (.mismatched ⟨.map, .string⟩ first)
  | exclude, content => some (refusal .sequence content)
  | extension, .value (.string _) _ => none
  | extension, content => some (refusal .string content)
  | keepRootName, .value (.boolean _) _ => none
  | keepRootName, content => some (refusal .boolean content)

/-! ### One entry -/

theorem isString_eq_true {v : Toml.Value} (h : isString v = true) : ∃ text, v = .string text := by
  cases v with
  | string text => exact ⟨text, rfl⟩
  | _ => cases h

theorem stringsOf_cons_string (text : String) (span : Toml.Span) (items : List (Toml.Value × Toml.Span)) :
    stringsOf ((.string text, span) :: items) = (stringsOf items).map (text :: ·) := by
  rw [stringsOf, List.mapM_cons]
  change (stringsOf items).bind _ = _
  cases stringsOf items <;> rfl

theorem stringsOf_cons_of_not {v : Toml.Value} (h : isString v = false) (span : Toml.Span)
    (items : List (Toml.Value × Toml.Span)) :
    stringsOf ((v, span) :: items) = .error (.mismatched ⟨v.found, .string⟩ span) := by
  cases v with
  | string text => cases h
  | integer _ => rfl
  | floating _ => rfl
  | boolean _ => rfl
  | date => rfl
  | array _ => rfl
  | table _ => rfl

/-- An array is read up to the first item that is no string. -/
theorem stringsOf_of_find? {items : List (Toml.Value × Toml.Span)} {item : Toml.Value × Toml.Span}
    (h : items.find? (fun item => !isString item.1) = some item) :
    stringsOf items = .error (.mismatched ⟨item.1.found, .string⟩ item.2) := by
  induction items with
  | nil => cases h
  | cons first items ih =>
      cases hfirst : isString first.1 with
      | true =>
          obtain ⟨text, htext⟩ := isString_eq_true hfirst
          rw [List.find?_cons_of_neg (by simp [hfirst])] at h
          obtain ⟨v, span⟩ := first
          cases htext
          rw [stringsOf_cons_string, ih h]
          rfl
      | false =>
          rw [List.find?_cons_of_pos (by simp [hfirst]), Option.some.injEq] at h
          subst h
          exact stringsOf_cons_of_not hfirst first.2 items

theorem stringsOf_of_find?_eq_none {items : List (Toml.Value × Toml.Span)}
    (h : items.find? (fun item => !isString item.1) = none) :
    ∃ texts, stringsOf items = .ok texts ∧ items.map Prod.fst = texts.map Toml.Value.string := by
  induction items with
  | nil => exact ⟨[], rfl, rfl⟩
  | cons first items ih =>
      obtain ⟨v, span⟩ := first
      have hall := List.find?_eq_none.mp h
      obtain ⟨text, rfl⟩ := isString_eq_true (by simpa using hall (v, span) List.mem_cons_self)
      obtain ⟨texts, hread, hvalues⟩ := ih (List.find?_eq_none.mpr fun item hitem =>
        hall item (List.mem_cons_of_mem _ hitem))
      refine ⟨text :: texts, ?_, ?_⟩
      · rw [stringsOf_cons_string, hread]
        rfl
      · rw [List.map_cons, hvalues, List.map_cons]

theorem setEntry_exclude_array (c : Config) (keySpan span : Toml.Span) (items : List (Toml.Value × Toml.Span)) :
    setEntry c (⟨"exclude", keySpan⟩, .value (.array items) span) =
      (stringsOf items).map fun texts => { c with exclude := texts } := by
  change (stringsOf items).bind _ = _
  cases stringsOf items <;> rfl

/-- An entry under the key of a field is refused by what it holds. -/
theorem setEntry_of_fault {f : Field} {c : Config} {e : Key × Item} {content : Content} {fault : Fault}
    (hname : e.1.name = f.name) (hcontent : e.2.summary e.1 = some content)
    (hfault : f.fault? content = some fault) : setEntry c e = .error fault := by
  obtain ⟨⟨name, keySpan⟩, item⟩ := e
  obtain rfl : name = f.name := hname
  cases item with
  | value v span =>
      cases hcontent
      cases f <;> cases v
      case exclude.array items =>
        obtain ⟨item, hitem, rfl⟩ := Option.map_eq_some_iff.mp hfault
        refine (setEntry_exclude_array c keySpan span items).trans ?_
        rw [stringsOf_of_find? hitem]
        rfl
      all_goals cases hfault <;> rfl
  | table kind span es =>
      cases kind <;> cases span <;> cases hcontent <;> cases f <;> cases hfault <;> rfl
  | tables earlier last =>
      cases hcontent
      cases f <;> cases hfault <;> rfl

/-- Otherwise it sets the field and nothing else. -/
theorem setEntry_of_fault_eq_none {f : Field} (c : Config) {e : Key × Item} {content : Content}
    (hname : e.1.name = f.name) (hcontent : e.2.summary e.1 = some content)
    (hfault : f.fault? content = none) :
    ∃ c', setEntry c e = .ok c' ∧ f.Gives content (f.get c') ∧ ∀ g, g ≠ f → g.get c' = g.get c := by
  obtain ⟨⟨name, keySpan⟩, item⟩ := e
  obtain rfl : name = f.name := hname
  cases item with
  | value v span =>
      cases hcontent
      cases f <;> cases v
      case exclude.array items =>
        obtain ⟨texts, hread, hvalues⟩ := stringsOf_of_find?_eq_none (Option.map_eq_none_iff.mp hfault)
        refine ⟨{ c with exclude := texts }, ?_, ⟨items, span, rfl, hvalues⟩, fun g hg => ?_⟩
        · refine (setEntry_exclude_array c keySpan span items).trans ?_
          rw [hread]
          rfl
        · cases g <;> first | rfl | exact absurd rfl hg
      case extension.string text =>
        refine ⟨{ c with extension := text }, rfl, ⟨span, rfl⟩, fun g hg => ?_⟩
        cases g <;> first | rfl | exact absurd rfl hg
      case keepRootName.boolean value =>
        refine ⟨{ c with keepRootName := value }, rfl, ⟨span, rfl⟩, fun g hg => ?_⟩
        cases g <;> first | rfl | exact absurd rfl hg
      all_goals cases hfault
  | table kind span es =>
      cases kind <;> cases span <;> cases hcontent <;> cases f <;> cases hfault
  | tables earlier last =>
      cases hcontent
      cases f <;> cases hfault

/-- Any other key sets nothing. -/
theorem setEntry_of_name_ne (c : Config) {e : Key × Item} (h : ∀ f : Field, e.1.name ≠ f.name) :
    setEntry c e = .ok c := by
  have hexclude : e.1.name ≠ "exclude" := h .exclude
  have hextension : e.1.name ≠ "extension" := h .extension
  have hkeep : e.1.name ≠ "keep_root_name" := h .keepRootName
  rw [setEntry]
  split
  all_goals first | rfl | contradiction

/-! ### Fields and faults -/

theorem Field.fault?_exclude_eq_none {content : Content} {texts : List String}
    (h : Field.exclude.Gives content texts) : Field.exclude.fault? content = none := by
  obtain ⟨items, span, rfl, hvalues⟩ := h
  refine Option.map_eq_none_iff.mpr (List.find?_eq_none.mpr fun item hitem => ?_)
  have hmem : item.1 ∈ texts.map Toml.Value.string := hvalues ▸ List.mem_map_of_mem hitem
  obtain ⟨text, -, htext⟩ := List.mem_map.mp hmem
  rw [← htext]
  exact Bool.false_ne_true

/-- There is an error exactly about what gives the field no value. -/
theorem Field.fault?_eq_none_iff (f : Field) (content : Content) :
    f.fault? content = none ↔ ∃ v, f.Gives content v := by
  refine ⟨fun h => ?_, fun ⟨v, hv⟩ => ?_⟩
  · cases f <;> cases content
    case exclude.value v span =>
      cases v
      case array items =>
        obtain ⟨texts, -, hvalues⟩ := stringsOf_of_find?_eq_none (Option.map_eq_none_iff.mp h)
        exact ⟨texts, items, span, rfl, hvalues⟩
      all_goals cases h
    case extension.value v span =>
      cases v
      case string text => exact ⟨text, span, rfl⟩
      all_goals cases h
    case keepRootName.value v span =>
      cases v
      case boolean value => exact ⟨value, span, rfl⟩
      all_goals cases h
    all_goals cases h
  · cases f with
    | exclude => exact fault?_exclude_eq_none hv
    | extension =>
        obtain ⟨span, rfl⟩ := hv
        rfl
    | keepRootName =>
        obtain ⟨span, rfl⟩ := hv
        rfl

/-- A field has one value. -/
theorem Field.holds_unique {f : Field} {content : Option Content} {v w : f.Ty} (hv : f.Holds content v)
    (hw : f.Holds content w) : v = w := by
  cases content with
  | none => exact hv.trans hw.symm
  | some content =>
      cases f with
      | exclude =>
          obtain ⟨items, span, rfl, hvalues⟩ := hv
          obtain ⟨items', span', heq, hvalues'⟩ := hw
          cases heq
          exact List.map_injective_iff.mpr (fun _ _ => Toml.Value.string.inj) (hvalues.symm.trans hvalues')
      | extension =>
          obtain ⟨span, rfl⟩ := hv
          obtain ⟨span', heq⟩ := hw
          cases heq
          rfl
      | keepRootName =>
          obtain ⟨span, rfl⟩ := hv
          obtain ⟨span', heq⟩ := hw
          cases heq
          rfl

theorem ext_get {c c' : Config} (h : ∀ f : Field, f.get c = f.get c') : c = c' := by
  obtain ⟨exclude, extension, keepRootName⟩ := c
  obtain ⟨exclude', extension', keepRootName'⟩ := c'
  obtain rfl : exclude = exclude' := h .exclude
  obtain rfl : extension = extension' := h .extension
  obtain rfl : keepRootName = keepRootName' := h .keepRootName
  rfl

/-! ### All entries -/

/-- What stands under the key of a field is of the right kind. -/
def Fine (e : Key × Item) : Prop :=
  ∀ (f : Field) content, e.1.name = f.name → e.2.summary e.1 = some content → f.fault? content = none

/-- A fine entry sets the field that it names, and no other. -/
theorem setEntry_of_fine (c : Config) {e : Key × Item} (hfine : Fine e) (hheld : e.2.summary e.1 ≠ none) :
    ∃ c', setEntry c e = .ok c' ∧
      (∀ f : Field, e.1.name = f.name → ∃ content, e.2.summary e.1 = some content ∧ f.Gives content (f.get c')) ∧
      ∀ f : Field, e.1.name ≠ f.name → f.get c' = f.get c := by
  obtain ⟨content, hcontent⟩ := Option.ne_none_iff_exists'.mp hheld
  by_cases hnamed : ∃ f : Field, e.1.name = f.name
  · obtain ⟨f, hname⟩ := hnamed
    obtain ⟨c', hset, hgives, hkept⟩ := setEntry_of_fault_eq_none c hname hcontent (hfine f content hname hcontent)
    refine ⟨c', hset, fun g hg => ?_, fun g hg => hkept g fun heq => hg (heq ▸ hname)⟩
    obtain rfl : g = f := Field.name_injective (hg.symm.trans hname)
    exact ⟨content, hcontent, hgives⟩
  · have hother : ∀ f : Field, e.1.name ≠ f.name := fun f hf => hnamed ⟨f, hf⟩
    exact ⟨c, setEntry_of_name_ne c hother, fun f hf => absurd hf (hother f), fun f _ => rfl⟩

/-- Fine entries, one after the other. What one of them sets stays, since no other names its field. -/
theorem foldlM_setEntry_of_fine (c : Config) {es : Entries} (hfine : ∀ e ∈ es, Fine e)
    (hheld : ∀ e ∈ es, e.2.summary e.1 ≠ none) (hnodup : (es.map fun e => e.1.name).Nodup) :
    ∃ c', es.foldlM setEntry c = .ok c' ∧
      (∀ f : Field, ∀ e ∈ es, e.1.name = f.name →
        ∃ content, e.2.summary e.1 = some content ∧ f.Gives content (f.get c')) ∧
      ∀ f : Field, (∀ e ∈ es, e.1.name ≠ f.name) → f.get c' = f.get c := by
  induction es generalizing c with
  | nil => exact ⟨c, rfl, fun f e he => absurd he List.not_mem_nil, fun f _ => rfl⟩
  | cons e es ih =>
      rw [List.map_cons, List.nodup_cons] at hnodup
      obtain ⟨next, hset, hgives, hkept⟩ := setEntry_of_fine c (hfine e List.mem_cons_self)
        (hheld e List.mem_cons_self)
      obtain ⟨c', hfold, hlater, hrest⟩ := ih next (fun e' he' => hfine e' (List.mem_cons_of_mem _ he'))
        (fun e' he' => hheld e' (List.mem_cons_of_mem _ he')) hnodup.2
      refine ⟨c', ?_, fun f e' he' hname => ?_, fun f hnone => ?_⟩
      · rw [List.foldlM_cons, hset]
        exact hfold
      · rcases List.mem_cons.mp he' with rfl | hmem
        · have hothers : ∀ e'' ∈ es, e''.1.name ≠ f.name := fun e'' hmem heq =>
            hnodup.1 (List.mem_map.mpr ⟨e'', hmem, heq.trans hname.symm⟩)
          rw [hrest f hothers]
          exact hgives f hname
        · exact hlater f e' hmem hname
      · rw [hrest f fun e' he' => hnone e' (List.mem_cons_of_mem _ he'), hkept f (hnone e List.mem_cons_self)]

/-- The first entry that is not fine is refused. -/
theorem foldlM_setEntry_of_fault (c : Config) {before after : Entries} {e : Key × Item} {f : Field}
    {content : Content} {fault : Fault} (hfine : ∀ e ∈ before, Fine e)
    (hheld : ∀ e ∈ before, e.2.summary e.1 ≠ none) (hname : e.1.name = f.name)
    (hcontent : e.2.summary e.1 = some content) (hfault : f.fault? content = some fault) :
    (before ++ e :: after).foldlM setEntry c = .error fault := by
  induction before generalizing c with
  | nil =>
      rw [List.nil_append, List.foldlM_cons, setEntry_of_fault hname hcontent hfault]
      rfl
  | cons first before ih =>
      obtain ⟨next, hset, -⟩ := setEntry_of_fine c (hfine first List.mem_cons_self)
        (hheld first List.mem_cons_self)
      rw [List.cons_append, List.foldlM_cons, hset]
      exact ih next (fun e' he' => hfine e' (List.mem_cons_of_mem _ he'))
        fun e' he' => hheld e' (List.mem_cons_of_mem _ he')

/-! ### Documents -/

section Documents

variable {d : Document} {es : Entries}

theorem content_eq_summary (h : Reflects d.parts es) {e : Key × Item} (he : e ∈ es) {name : String}
    (hname : e.1.name = name) : d.content name = e.2.summary e.1 := by
  rw [(h.held e he).2, hname]
  rfl

theorem exists_mem_of_content (h : Reflects d.parts es) {name : String} {content : Content}
    (hcontent : d.content name = some content) : ∃ e ∈ es, e.1.name = name ∧ e.2.summary e.1 = some content := by
  have hne : Toml.contentOf name d.parts ≠ none := fun hnone => by
    rw [Document.content, hnone] at hcontent
    cases hcontent
  obtain ⟨e, he, hname⟩ := h.complete name hne
  exact ⟨e, he, hname, (content_eq_summary h he hname).symm.trans hcontent⟩

theorem summary_ne_none (h : Reflects d.parts es) {e : Key × Item} (he : e ∈ es) : e.2.summary e.1 ≠ none := by
  rw [(h.held e he).2]
  exact (h.held e he).1

/-- If what stands under the keys of fields is of the right kind, each field has what the document says. -/
theorem exists_foldlM_setEntry_ok (h : Reflects d.parts es) (hfine : ∀ e ∈ es, Fine e) :
    ∃ c, es.foldlM setEntry {} = .ok c ∧ ∀ f : Field, f.Holds (d.content f.name) (f.get c) := by
  obtain ⟨c, hfold, hgives, hkept⟩ := foldlM_setEntry_of_fine {} hfine (fun e he => summary_ne_none h he) h.nodup
  refine ⟨c, hfold, fun f => ?_⟩
  cases hcontent : d.content f.name with
  | none =>
      refine hkept f fun e he hname => summary_ne_none h he ?_
      rw [← content_eq_summary h he hname, hcontent]
  | some content =>
      obtain ⟨e, he, hname, hsummary⟩ := exists_mem_of_content h hcontent
      obtain ⟨content', hcontent', hgiven⟩ := hgives f e he hname
      rw [hsummary, Option.some.injEq] at hcontent'
      rw [hcontent']
      exact hgiven

/-- Otherwise the first entry that is not fine is refused, and every other key under which something of the
wrong kind stands comes after it in the order of the document. -/
theorem exists_foldlM_setEntry_error {before after : Entries} {e : Key × Item}
    (h : Reflects d.parts (before ++ e :: after)) (hfine : ∀ e ∈ before, Fine e) (hbad : ¬Fine e) :
    ∃ (f : Field) (content : Content) (fault : Fault),
      (before ++ e :: after).foldlM setEntry {} = .error fault ∧
      d.content f.name = some content ∧ f.fault? content = some fault ∧
      ∀ (g : Field) other, g ≠ f → d.content g.name = some other → g.fault? other ≠ none →
        d.place f.name < d.place g.name := by
  obtain ⟨f, content, hname, hsummary, hfault⟩ :
      ∃ (f : Field) (content : Content), e.1.name = f.name ∧ e.2.summary e.1 = some content ∧
        f.fault? content ≠ none := by
    simpa [Fine] using hbad
  obtain ⟨fault, hfault⟩ := Option.ne_none_iff_exists'.mp hfault
  refine ⟨f, content, fault, ?_, ?_, hfault, fun g other hne hother hwrong => ?_⟩
  · exact foldlM_setEntry_of_fault {} hfine (fun e he => summary_ne_none h (by simp [he])) hname hsummary hfault
  · rw [content_eq_summary h (by simp) hname, hsummary]
  · -- The entry of the other key is not before the first faulty one, so it comes after it.
    obtain ⟨e', he', hname', hsummary'⟩ := exists_mem_of_content h hother
    have hlater : e' ∈ after := by
      rcases List.mem_append.mp he' with hin | hin
      · exact absurd (hfine e' hin g other hname' hsummary') hwrong
      · rcases List.mem_cons.mp hin with rfl | hin
        · exact absurd (Field.name_injective (hname'.symm.trans hname)) hne
        · exact hin
    have hordered := h.ordered
    rw [List.map_append, List.map_cons, List.pairwise_append, List.pairwise_cons] at hordered
    have hlt := hordered.2.1.1 e'.1.name (List.mem_map_of_mem hlater)
    rwa [hname, hname'] at hlt

/-- Reading either gives each field what the document says, or fails about the first key in the order of
the document under which something of the wrong kind stands. -/
theorem ofToml_cases (hvalid : d.Valid) (hmoderate : d.Moderate) :
    (∃ c, ofToml d.text = .ok c ∧ ∀ f : Field, f.Holds (d.content f.name) (f.get c)) ∨
    ∃ (f : Field) (content : Content) (fault : Fault), ofToml d.text = .error fault ∧
      d.content f.name = some content ∧ f.fault? content = some fault ∧
      ∀ (g : Field) other, g ≠ f → d.content g.name = some other → g.fault? other ≠ none →
        d.place f.name < d.place g.name := by
  classical
  obtain ⟨es, hdocument, h⟩ := d.exists_reflects hvalid hmoderate
  have hread : ofToml d.text = es.foldlM setEntry {} := by rw [ofToml, hdocument]
  rw [hread]
  cases hfind : es.find? fun e => decide (¬Fine e) with
  | none => exact Or.inl (exists_foldlM_setEntry_ok h (by simpa using hfind))
  | some e =>
      obtain ⟨hbad, before, after, rfl, hbefore⟩ := List.find?_eq_some_iff_append.mp hfind
      exact Or.inr (exists_foldlM_setEntry_error h (by simpa using hbefore) (by simpa using hbad))

theorem exists_gives_of_holds {f : Field} {content : Content} {v : f.Ty} (hcontent : d.content f.name = some content)
    (h : f.Holds (d.content f.name) v) : ∃ v, f.Gives content v := by
  rw [hcontent] at h
  exact ⟨v, h⟩

theorem holds_of_ofToml_ok (hvalid : d.Valid) (hmoderate : d.Moderate) {c : Config} (h : ofToml d.text = .ok c) :
    ∀ f : Field, f.Holds (d.content f.name) (f.get c) := by
  rcases ofToml_cases hvalid hmoderate with ⟨c', hread, hholds⟩ | ⟨_, _, _, hread, _⟩
  · rw [hread, Except.ok.injEq] at h
    rwa [← h]
  · rw [hread] at h
    cases h

/-- A key that gives no value, and comes before all others that give none. -/
def FirstOffending (d : Document) (f : Field) (content : Content) : Prop :=
  d.content f.name = some content ∧ (¬∃ v, f.Gives content v) ∧
    ∀ (g : Field) other, g ≠ f → d.content g.name = some other → (¬∃ v, g.Gives other v) →
      d.place f.name < d.place g.name

theorem FirstOffending.unique {f g : Field} {content other : Content} (hf : FirstOffending d f content)
    (hg : FirstOffending d g other) : f = g := by
  by_contra hne
  have hbefore := hf.2.2 g other (Ne.symm hne) hg.1 hg.2.1
  have hafter := hg.2.2 f content hne hf.1 hf.2.1
  omega

theorem firstOffending_of_ofToml_error (hvalid : d.Valid) (hmoderate : d.Moderate) {fault : Fault}
    (h : ofToml d.text = .error fault) :
    ∃ (f : Field) (content : Content), FirstOffending d f content ∧ f.fault? content = some fault := by
  rcases ofToml_cases hvalid hmoderate with ⟨c, hread, _⟩ | ⟨f, content, fault', hread, hcontent, hfault, hfirst⟩
  · rw [hread] at h
    cases h
  · rw [hread, Except.error.injEq] at h
    have hwrong : ¬∃ v, f.Gives content v := by
      rw [← f.fault?_eq_none_iff, hfault]
      simp
    refine ⟨f, content, ⟨hcontent, hwrong, fun g other hne hother hnot => ?_⟩, by rw [hfault, h]⟩
    exact hfirst g other hne hother fun hnone => hnot ((g.fault?_eq_none_iff other).mp hnone)

theorem exists_ofToml_ok (hvalid : d.Valid) (hmoderate : d.Moderate)
    (h : ∀ (f : Field) content, d.content f.name = some content → ∃ v, f.Gives content v) :
    ∃ c, ofToml d.text = .ok c := by
  cases hread : ofToml d.text with
  | ok c => exact ⟨c, rfl⟩
  | error fault =>
      obtain ⟨f, content, hfirst, -⟩ := firstOffending_of_ofToml_error hvalid hmoderate hread
      exact absurd (h f content hfirst.1) hfirst.2.1

end Documents

/-- Reading the text of a valid document is field-wise. It succeeds exactly if what stands under each of the
three keys that is present is of the right kind; the configuration then has, for each field, the value that
its key gives or the default; and otherwise the error is about the first key in the order of the document
that gives no value. -/
theorem ofToml_fieldwise (d : Document) (hvalid : d.Valid) (hmoderate : d.Moderate) :
    ((∃ c, ofToml d.text = .ok c) ↔
      ∀ (f : Field) content, d.content f.name = some content → ∃ v, f.Gives content v) ∧
    (∀ c, ofToml d.text = .ok c ↔ ∀ f : Field, f.Holds (d.content f.name) (f.get c)) ∧
    ∀ fault, ofToml d.text = .error fault ↔
      ∃ (f : Field) (content : Content), FirstOffending d f content ∧ f.fault? content = some fault := by
  refine ⟨⟨fun ⟨c, hread⟩ f content hcontent => ?_, exists_ofToml_ok hvalid hmoderate⟩, fun c =>
    ⟨holds_of_ofToml_ok hvalid hmoderate, fun hholds => ?_⟩, fun fault =>
    ⟨firstOffending_of_ofToml_error hvalid hmoderate, fun ⟨f, content, hfirst, hfault⟩ => ?_⟩⟩
  · exact exists_gives_of_holds hcontent (holds_of_ofToml_ok hvalid hmoderate hread f)
  · obtain ⟨c', hread⟩ := exists_ofToml_ok hvalid hmoderate fun f content hcontent =>
      exists_gives_of_holds hcontent (hholds f)
    have hholds' := holds_of_ofToml_ok hvalid hmoderate hread
    rw [hread, ext_get fun f => Field.holds_unique (hholds' f) (hholds f)]
  · cases hread : ofToml d.text with
    | ok c =>
        have hgives := exists_gives_of_holds hfirst.1 (holds_of_ofToml_ok hvalid hmoderate hread f)
        exact absurd hgives hfirst.2.1
    | error fault' =>
        obtain ⟨g, other, hfirst', hfault'⟩ := firstOffending_of_ofToml_error hvalid hmoderate hread
        obtain rfl : g = f := hfirst'.unique hfirst
        have hother : other = content := Option.some.inj (hfirst'.1.symm.trans hfirst.1)
        rw [hother, hfault, Option.some.injEq] at hfault'
        rw [hfault']

section Samples

open Toml

def noBlanks : Blanks := ⟨[], List.all_eq_true.mp rfl⟩

def oneBlank : Blanks := ⟨[' '], List.all_eq_true.mp rfl⟩

def bareMargin : Margin := ⟨noBlanks, none⟩

/-- The key of a field without quotes. -/
def Field.bareKey (f : Field) : KeyPart :=
  .bare f.name.toList (by cases f <;> decide) (by cases f <;> exact List.all_eq_true.mp rfl)

/-- A document of five lines, with names of fields at its top level and below it. -/
def sample : Document :=
  let note : Margin := ⟨oneBlank, some ⟨" kept".toList, List.all_eq_true.mp rfl⟩⟩
  let tool : KeyPart := .quoted (.literal ⟨"tool".toList, List.all_eq_true.mp rfl⟩)
  { marked := true
    lines := [
      (.pair ⟨noBlanks, .last (Field.bareKey .keepRootName) oneBlank, oneBlank, .boolean true, note⟩, .lf),
      (.header ⟨noBlanks, false, noBlanks, .more tool noBlanks noBlanks (.last (Field.bareKey .exclude) noBlanks),
        bareMargin⟩, .crlf),
      (.pair ⟨oneBlank, .last (Field.bareKey .extension) noBlanks, noBlanks, .boolean false, bareMargin⟩, .lf),
      (.header ⟨noBlanks, true, noBlanks, .last (Field.bareKey .extension) noBlanks, bareMargin⟩, .lf)]
    last := .header ⟨noBlanks, false, oneBlank, .last (Field.bareKey .exclude) noBlanks, bareMargin⟩ }

theorem ofToml_sample :
    sample.Valid ∧ sample.Moderate ∧
      sample.text =
        "\ufeffkeep_root_name = true # kept\n['tool'.exclude]\r\n extension=false\n[[extension]]\n[ exclude]" ∧
      ofToml sample.text = .error (.mismatched ⟨.sequence, .string⟩ ⟨24, 11⟩) := by
  have hvalid : sample.Valid := by
    refine ⟨?_, ?_⟩
    · simp [sample, Document.allLines, Line.Sound, Spelling.Sound]
    · decide +kernel
  have hmoderate : sample.Moderate := by
    simp [sample, Document.Moderate, Document.allLines, Line.Moderate, Spelling.Moderate, Spelling.depth,
      DottedKey.parts, depthLimit]
  refine ⟨hvalid, hmoderate, by decide +kernel, ?_⟩
  refine ((ofToml_fieldwise sample hvalid hmoderate).2.2 _).mpr
    ⟨.extension, .tables ⟨24, 11⟩ ⟨24, 11⟩, ⟨rfl, ?_, fun g other hne hother hnot => ?_⟩, rfl⟩
  · rw [← Field.fault?_eq_none_iff]
    exact Option.some_ne_none _
  · cases g with
    | exclude => decide +kernel
    | extension => exact absurd rfl hne
    | keepRootName =>
        cases hother
        exact absurd ⟨true, _, rfl⟩ hnot

/-! ### Order and limits -/

/-- A key of one letter. -/
def letter (c : Char) (hc : isBareChar c = true) : KeyPart :=
  .bare [c] (List.cons_ne_nil _ _) (List.forall_mem_singleton.mpr hc)

def headerLine (key : DottedKey) : Line :=
  .header ⟨noBlanks, false, noBlanks, key, bareMargin⟩

/-- A table that is mentioned before another one, and gets its header after it. -/
def lateHeader : Document where
  marked := false
  lines := [
    (headerLine (.more (Field.bareKey .exclude) noBlanks noBlanks (.last (letter 'a' rfl) noBlanks)), .lf),
    (headerLine (.last (Field.bareKey .extension) noBlanks), .lf),
    (headerLine (.last (Field.bareKey .exclude) noBlanks), .lf)]
  last := .blank bareMargin

/-- A document of one line, with a blank before the value. -/
def single (key : DottedKey) (v : Spelling) : Document where
  marked := false
  lines := []
  last := .pair ⟨noBlanks, key, oneBlank, v, bareMargin⟩

/-- One letter, again and again. -/
def repeatedKey : Nat → DottedKey
  | 0 => .last (letter 'x' rfl) oneBlank
  | n + 1 => .more (letter 'x' rfl) noBlanks noBlanks (repeatedKey n)

/-- Arrays in an empty array. -/
def nestedArrays : Nat → Spelling
  | 0 => .array (.done ⟨[], noBlanks⟩)
  | n + 1 => .array (.last ⟨[], noBlanks⟩ (nestedArrays n) ⟨[], noBlanks⟩)

/-- The number `1e400`. -/
def largeNumber : Spelling :=
  .scalar (.number .absent
    (.floating (.groups (.last ⟨['1'], by decide, List.all_eq_true.mp rfl⟩) (by decide))
      (.exponent ⟨false, .absent, .last ⟨['4', '0', '0'], by decide, List.all_eq_true.mp rfl⟩⟩))
    trivial)

theorem nestedArrays_sound (n : Nat) : (nestedArrays n).Sound := by
  induction n with
  | zero => trivial
  | succ n ih => exact ih

/-- A single pair keeps to the rules whatever its key. -/
theorem single_valid (key : DottedKey) {v : Spelling} (h : v.Sound) : (single key v).Valid where
  sound line hline := by
    obtain rfl : line = (single key v).last := List.mem_singleton.mp hline
    exact h
  allowed := ⟨⟨fun _ _ _ _ => ⟨nofun, nofun⟩, fun _ => Or.inl rfl, rfl⟩, trivial⟩

/-- Nothing stands under another name than the first part of the key. -/
theorem single_content (n : Nat) (v : Spelling) (f : Field) : (single (repeatedKey n) v).content f.name = none := by
  apply contentOf_eq_none_iff.mpr
  cases n <;> cases f <;> rfl

/-- The order of a document and the limits of its reader. A table that is mentioned before its header counts
at the header, so the first error is about the key that is mentioned second. The other texts are not read,
although no key of a field stands in them: a number is beyond the largest double, a value and a key are as
deep as the limit, and a dotted key adds to a table that headers only imply. -/
theorem ofToml_order_and_limits :
    (lateHeader.Valid ∧ lateHeader.Moderate ∧ lateHeader.text = "[exclude.a]\n[extension]\n[exclude]\n" ∧
      lateHeader.parts.map (fun p => p.head.name) = ["exclude", "extension", "exclude"] ∧
      (∃ former latter, lateHeader.content "exclude" = some (.headed former) ∧
        lateHeader.content "extension" = some (.headed latter) ∧
        ofToml lateHeader.text = .error (refusal .string (.headed latter)))) ∧
    (∀ e ∈ [
        (single (repeatedKey 0) largeNumber, "x = 1e400".toList),
        (single (repeatedKey 0) (nestedArrays 79),
          "x = ".toList ++ List.replicate 80 '[' ++ List.replicate 80 ']'),
        (single (repeatedKey 79) (.boolean true),
          'x' :: (List.replicate 79 ['.', 'x']).flatten ++ " = true".toList)],
      e.1.Valid ∧ e.1.text = String.ofList e.2 ∧ (∀ f : Field, e.1.content f.name = none) ∧
        ofToml e.1.text = .error .malformed) ∧
    ofToml "[a.b.c]\n[a]\nb.x = 1\n" = .error .malformed := by
  refine ⟨⟨⟨?_, by decide +kernel⟩, ?_, by decide +kernel, by decide +kernel, ⟨10, 1⟩, ⟨22, 11⟩, rfl, rfl, ?_⟩, ?_, ?_⟩
  · simp [lateHeader, headerLine, Document.allLines, Line.Sound]
  · simp [lateHeader, headerLine, Document.Moderate, Document.allLines, Line.Moderate, DottedKey.parts,
      depthLimit]
  · decide +kernel
  · simp only [List.forall_mem_cons]
    refine ⟨⟨single_valid _ trivial, congrArg String.ofList (by decide +kernel), single_content 0 _,
        by decide +kernel⟩,
      ⟨single_valid _ (nestedArrays_sound 79), congrArg String.ofList (by decide +kernel), single_content 0 _,
        by decide +kernel⟩,
      ⟨single_valid _ trivial, congrArg String.ofList (by decide +kernel), single_content 79 _,
        by decide +kernel⟩, ?_⟩
    exact List.forall_mem_nil _
  · decide +kernel

end Samples

end Config

end ApiSurface
