import Mathlib.Data.List.Basic
import ApiSurface.Toml.Document

/-! What a document holds under each name at its top level, said of the pairs and sections that mention
the name and of nothing else, and the order of the names. The table that is put together from the pairs
and sections, one after the other, holds the same in the same order. -/

namespace ApiSurface.Toml

/-! ### The parts of a document -/

/-- A part of a document: a pair before the first header, or a section. -/
inductive Part where
  | pair (p : Pair)
  | block (s : Section)

namespace Part

def path : Part → List Key
  | pair p => p.path
  | block s => s.header.path

def key : Part → Key
  | pair p => p.key
  | block s => s.header.key

def span : Part → Span
  | pair p => p.span
  | block s => s.span

/-- The key of the top level that the part mentions. -/
def head (p : Part) : Key :=
  p.path.head?.getD p.key

/-- The part gives what stands under that key, and not something further down. -/
def isOwn (p : Part) : Bool :=
  p.path.isEmpty

/-- The part is the section of a table at the top level, with a header in single brackets. -/
def isTableOf (name : String) : Part → Bool
  | pair _ => false
  | block s => s.header.path.isEmpty && !s.header.doubled && s.header.key.name == name

end Part

/-- What stands under a name. -/
inductive Content where
  | value (v : Value) (span : Span)
  /-- A table with a header of its own. -/
  | headed (span : Span)
  /-- A table that is only mentioned on the way to something further down, first here. -/
  | unheaded (mention : Span)
  /-- Tables in an array, from the first to the last of them. -/
  | tables (first last : Span)

/-- What a part gives that stands for its key, with the last such part. -/
def Part.content (own last : Part) : Content :=
  match own with
  | pair p => .value p.value p.span
  | block s => if s.header.doubled then .tables s.span last.span else .headed s.span

/-- The parts that mention a name at the top level. -/
def mentions (name : String) (parts : List Part) : List Part :=
  parts.filter fun p => p.head.name == name

/-- Those of them that give what stands under the name. -/
def owners (name : String) (parts : List Part) : List Part :=
  (mentions name parts).filter Part.isOwn

/-- What the parts of a document give under a name at its top level, if they mention it. -/
def contentOf (name : String) (parts : List Part) : Option Content :=
  match mentions name parts, owners name parts with
  | [], _ => none
  | first :: _, [] => some (.unheaded first.head.span)
  | _ :: _, own :: more => some (own.content (more.getLast?.getD own))

/-- Where a name counts in the order of the document: a table at its own header, and all else where it
is mentioned first. -/
def place (name : String) (parts : List Part) : Nat :=
  (parts.findIdx? (Part.isTableOf name)).getD (parts.findIdx fun p => p.head.name == name)

/-! ### One more part -/

section Append

variable {parts : List Part} {p : Part} {name : String}

theorem Part.head_eq_key (h : p.path = []) : p.head = p.key := by
  rw [Part.head, h]
  rfl

theorem Part.isOwn_eq_true (h : p.path = []) : p.isOwn = true := by
  rw [Part.isOwn, h]
  rfl

theorem mentions_append_of_ne (h : p.head.name ≠ name) : mentions name (parts ++ [p]) = mentions name parts := by
  simp [mentions, h]

theorem mentions_append_self : mentions p.head.name (parts ++ [p]) = mentions p.head.name parts ++ [p] := by
  simp [mentions]

theorem owners_append_self :
    owners p.head.name (parts ++ [p]) =
      owners p.head.name parts ++ if p.isOwn then [p] else [] := by
  rw [owners, mentions_append_self, List.filter_append, owners]
  congr 1
  cases hown : p.isOwn <;> simp [hown]

theorem contentOf_eq_none_iff : contentOf name parts = none ↔ mentions name parts = [] := by
  rw [contentOf]
  cases mentions name parts with
  | nil => simp
  | cons first later => cases owners name parts <;> simp

theorem contentOf_append_of_ne (h : p.head.name ≠ name) :
    contentOf name (parts ++ [p]) = contentOf name parts := by
  rw [contentOf, owners, mentions_append_of_ne h, contentOf, owners]

/-- The first part that mentions a name decides what stands under it. -/
def Part.fresh (p : Part) : Content :=
  if p.isOwn then p.content p else .unheaded p.head.span

theorem contentOf_append_fresh (h : contentOf p.head.name parts = none) :
    contentOf p.head.name (parts ++ [p]) = some p.fresh := by
  have hmentions : mentions p.head.name parts = [] := contentOf_eq_none_iff.mp h
  have howners : owners p.head.name parts = [] := by rw [owners, hmentions]; rfl
  rw [contentOf, mentions_append_self, owners_append_self, hmentions, howners, Part.fresh]
  cases p.isOwn with
  | true => rfl
  | false => rfl

/-- A part that leads further down changes nothing of what stands under the name itself. -/
theorem contentOf_append_of_not_isOwn {c : Content} (h : contentOf p.head.name parts = some c)
    (hown : p.isOwn = false) : contentOf p.head.name (parts ++ [p]) = some c := by
  rw [← h, contentOf, mentions_append_self, owners_append_self, hown, contentOf]
  cases hmentions : mentions p.head.name parts with
  | nil =>
      rw [contentOf_eq_none_iff.mpr hmentions] at h
      cases h
  | cons first later =>
      rw [if_neg Bool.false_ne_true, List.append_nil]
      cases owners p.head.name parts <;> rfl

theorem owners_eq_nil_of_unheaded {mention : Span} (h : contentOf name parts = some (.unheaded mention)) :
    owners name parts = [] := by
  rw [contentOf] at h
  cases hmentions : mentions name parts with
  | nil => rw [owners, hmentions]; rfl
  | cons first later =>
      rw [hmentions] at h
      cases howners : owners name parts with
      | nil => rfl
      | cons own more =>
          rw [howners] at h
          cases own with
          | pair p => cases h
          | block s =>
              simp only [Part.content, Option.some.injEq] at h
              split at h <;> cases h

/-- The header of a table that was only mentioned so far. -/
theorem contentOf_append_headed {mention : Span} {s : Section} (hpath : s.header.path = [])
    (hsingle : s.header.doubled = false)
    (h : contentOf s.header.key.name parts = some (.unheaded mention)) :
    contentOf s.header.key.name (parts ++ [.block s]) = some (.headed s.span) := by
  have hhead : (Part.block s).head = s.header.key := Part.head_eq_key hpath
  have hown : (Part.block s).isOwn = true := Part.isOwn_eq_true hpath
  have howners := owners_eq_nil_of_unheaded h
  rw [← hhead] at h howners ⊢
  rw [contentOf, mentions_append_self, owners_append_self, howners, hown]
  cases mentions (Part.block s).head.name parts with
  | nil => simp [Part.content, hsingle]
  | cons first later => simp [Part.content, hsingle]

/-- One more table in an array. -/
theorem contentOf_append_tables {first last : Span} {s : Section} (hpath : s.header.path = [])
    (h : contentOf s.header.key.name parts = some (.tables first last)) :
    contentOf s.header.key.name (parts ++ [.block s]) = some (.tables first s.span) := by
  have hhead : (Part.block s).head = s.header.key := Part.head_eq_key hpath
  have hown : (Part.block s).isOwn = true := Part.isOwn_eq_true hpath
  rw [← hhead] at h ⊢
  rw [contentOf, mentions_append_self, owners_append_self, hown]
  rw [contentOf] at h
  cases hmentions : mentions (Part.block s).head.name parts with
  | nil =>
      rw [hmentions] at h
      cases h
  | cons mention later =>
      rw [hmentions] at h
      cases howners : owners (Part.block s).head.name parts with
      | nil =>
          rw [howners] at h
          cases h
      | cons own more =>
          rw [howners] at h
          cases own with
          | pair q => cases h
          | block t =>
              simp only [Part.content, Option.some.injEq] at h
              split at h
              · rename_i hdoubled
                cases h
                simp [Part.content, hdoubled, Part.span]
              · cases h

theorem Part.eq_head_of_isTableOf (h : p.isTableOf name = true) : p.isOwn = true ∧ p.head.name = name := by
  cases p with
  | pair q => cases h
  | block s =>
      simp only [Part.isTableOf, Bool.and_eq_true, List.isEmpty_iff, beq_iff_eq] at h
      simp [Part.isOwn, Part.head, Part.path, Part.key, h.1.1, h.2]

/-- A name that is mentioned keeps its place, unless the new part is the header of its table. -/
theorem place_append_of_mem (hmentioned : mentions name parts ≠ []) (hp : p.isTableOf name = false) :
    place name (parts ++ [p]) = place name parts := by
  obtain ⟨q, hq⟩ := List.exists_mem_of_ne_nil _ hmentioned
  rw [mentions, List.mem_filter] at hq
  have hfound : parts.findIdx (fun p => p.head.name == name) < parts.length :=
    List.findIdx_lt_length_of_exists ⟨q, hq⟩
  have htable : (parts ++ [p]).findIdx? (Part.isTableOf name) = parts.findIdx? (Part.isTableOf name) := by
    rw [List.findIdx?_append, List.findIdx?_singleton, hp]
    simp
  rw [place, htable, List.findIdx_append, if_pos hfound, place]

theorem findIdx?_isTableOf_eq_none (h : owners name parts = []) :
    parts.findIdx? (Part.isTableOf name) = none := by
  rw [List.findIdx?_eq_none_iff]
  intro q hq
  apply Bool.eq_false_iff.mpr
  intro htable
  obtain ⟨hown, hname⟩ := Part.eq_head_of_isTableOf htable
  have hmem : q ∈ owners name parts :=
    List.mem_filter.mpr ⟨List.mem_filter.mpr ⟨hq, by simp [hname]⟩, hown⟩
  rw [h] at hmem
  cases hmem

theorem place_append_of_isTableOf (h : owners name parts = []) (hp : p.isTableOf name = true) :
    place name (parts ++ [p]) = parts.length := by
  rw [place, List.findIdx?_append, findIdx?_isTableOf_eq_none h, List.findIdx?_singleton, hp]
  simp

theorem place_append_fresh (h : mentions p.head.name parts = []) :
    place p.head.name (parts ++ [p]) = parts.length := by
  have howners : owners p.head.name parts = [] := by rw [owners, h]; rfl
  cases hp : p.isTableOf p.head.name with
  | true => exact place_append_of_isTableOf howners hp
  | false =>
      have hnone : parts.findIdx (fun q => q.head.name == p.head.name) = parts.length :=
        List.findIdx_eq_length.mpr fun q hq => by
          have hne : q ∉ mentions p.head.name parts := by rw [h]; exact List.not_mem_nil
          simpa [mentions, hq] using hne
      rw [place, List.findIdx?_append, findIdx?_isTableOf_eq_none howners, List.findIdx?_singleton, hp,
        List.findIdx_append, hnone]
      simp

theorem place_lt_length (h : mentions name parts ≠ []) : place name parts < parts.length := by
  obtain ⟨q, hq⟩ := List.exists_mem_of_ne_nil _ h
  rw [mentions, List.mem_filter] at hq
  rw [place]
  cases htable : parts.findIdx? (Part.isTableOf name) with
  | none => exact List.findIdx_lt_length_of_exists ⟨q, hq⟩
  | some i => exact (List.findIdx?_eq_some_iff_getElem.mp htable).1

end Append

/-! ### What one part does to a table -/

/-- Puts a part of a document into its table. -/
def addPart (es : Entries) : Part → Option Entries
  | .pair p => addPair es p
  | .block s => addSection es s

/-- What an entry of a table holds, with its key. Only a table with a header has a text of its own. -/
def Item.summary (key : Key) : Item → Option Content
  | .value v span => some (.value v span)
  | .table .explicit (some span) _ => some (.headed span)
  | .table .explicit none _ => none
  | .table _ (some _) _ => none
  | .table _ none _ => some (.unheaded key.span)
  | .tables earlier last => some (.tables (earlier.head?.getD last).1 last.1)

/-- The ways in which a part changes a table at its top level. -/
inductive Step (es : Entries) (p : Part) : Entries → Prop where
  /-- A new key comes last. -/
  | fresh (item : Item) (hlookup : lookup p.head.name es = none) (hitem : item.summary p.head = some p.fresh) :
      Step es p (es ++ [(p.head, item)])
  /-- Something further down changes. -/
  | kept (item item' : Item) (hlookup : lookup p.head.name es = some item) (hown : p.isOwn = false)
      (hitem : ∀ key, item'.summary key = item.summary key) : Step es p (replace p.head.name item' es)
  /-- The header of a table that was mentioned before. -/
  | taken (s : Section) (span : Option Span) (before inner : Entries) (hp : p = .block s)
      (hpath : s.header.path = []) (hsingle : s.header.doubled = false)
      (hlookup : lookup s.header.key.name es = some (.table .implied span before)) :
      Step es p
        (erase s.header.key.name es ++ [(s.header.key, .table .explicit (some s.span) inner)])
  /-- One more table in an array. -/
  | added (s : Section) (earlier : List (Span × Entries)) (last : Span × Entries) (inner : Entries)
      (hp : p = .block s) (hpath : s.header.path = []) (hdoubled : s.header.doubled = true)
      (hlookup : lookup s.header.key.name es = some (.tables earlier last)) :
      Step es p (replace s.header.key.name (.tables (earlier ++ [last]) (s.span, inner)) es)

theorem exists_of_bind_eq_some {α β : Type} {o : Option α} {f : α → Option β} {b : β}
    (h : o.bind f = some b) : ∃ a, o = some a ∧ f a = some b :=
  Option.bind_eq_some_iff.mp h

theorem descend_cons_cases {dotted : Bool} {change : TableKind → Entries → Option Entries} {k : Key}
    {ks : List Key} {kind : TableKind} {es es' : Entries}
    (h : descend dotted change (k :: ks) kind es = some es') :
    (lookup k.name es = none ∧
      ∃ inner, es' = es ++ [(k, .table (if dotted then .dotted else .implied) none inner)]) ∨
    ∃ item item', lookup k.name es = some item ∧ es' = replace k.name item' es ∧
      ∀ key, item'.summary key = item.summary key := by
  rw [descend] at h
  cases hlookup : lookup k.name es with
  | none =>
      rw [hlookup] at h
      obtain ⟨inner, -, hes⟩ := exists_of_bind_eq_some h
      exact Or.inl ⟨rfl, inner, (Option.some.inj hes).symm⟩
  | some item =>
      rw [hlookup] at h
      right
      match item with
      | .value v span => cases h
      | .table kind span before =>
          change (if _ then none else _) = _ at h
          split at h
          · cases h
          · obtain ⟨inner, -, hes⟩ := exists_of_bind_eq_some h
            refine ⟨_, .table kind span inner, rfl, (Option.some.inj hes).symm, fun key => ?_⟩
            cases kind <;> cases span <;> rfl
      | .tables earlier (span, before) =>
          obtain ⟨inner, -, hes⟩ := exists_of_bind_eq_some h
          refine ⟨_, .tables earlier (span, inner), rfl, (Option.some.inj hes).symm, fun key => ?_⟩
          cases earlier <;> rfl

/-- A part that leads further down. -/
theorem step_of_descend {dotted : Bool} {change : TableKind → Entries → Option Entries} {p : Part} {k : Key}
    {ks : List Key} {kind : TableKind} {es es' : Entries} (hpath : p.path = k :: ks)
    (h : descend dotted change p.path kind es = some es') : Step es p es' := by
  have hhead : p.head = k := by rw [Part.head, hpath]; rfl
  have hown : p.isOwn = false := by rw [Part.isOwn, hpath]; rfl
  rw [hpath] at h
  rcases descend_cons_cases h with ⟨hlookup, inner, rfl⟩ | ⟨item, item', hlookup, rfl, hitem⟩
  · rw [← hhead] at hlookup ⊢
    refine .fresh _ hlookup ?_
    rw [Part.fresh, hown]
    cases dotted <;> rfl
  · rw [← hhead] at hlookup ⊢
    exact .kept item item' hlookup hown hitem

theorem addPair_step {p : Pair} {es es' : Entries} (h : addPair es p = some es') : Step es (.pair p) es' := by
  cases hpath : p.path with
  | cons k ks => exact step_of_descend (p := .pair p) hpath h
  | nil =>
      have hhead : (Part.pair p).head = p.key := Part.head_eq_key hpath
      have hown : (Part.pair p).isOwn = true := Part.isOwn_eq_true hpath
      rw [addPair, hpath, descend, Pair.addTo, hpath, List.isEmpty_nil, if_neg (by decide)] at h
      split at h
      · cases h
      · rename_i hlookup
        rw [Option.not_isSome_iff_eq_none] at hlookup
        cases h
        rw [← hhead] at hlookup ⊢
        refine .fresh _ hlookup ?_
        rw [Part.fresh, hown]
        rfl

/-- What a section does to the table right above it. -/
theorem Section.addTo_cases {s : Section} {es es' : Entries} (h : s.addTo es = some es') :
    (lookup s.header.key.name es = none ∧ ∃ item, es' = es ++ [(s.header.key, item)] ∧
      ∀ key, item.summary key =
        some (if s.header.doubled then .tables s.span s.span else .headed s.span)) ∨
    (s.header.doubled = false ∧ ∃ span before inner,
      lookup s.header.key.name es = some (.table .implied span before) ∧
      es' = erase s.header.key.name es ++ [(s.header.key, .table .explicit (some s.span) inner)]) ∨
    (s.header.doubled = true ∧ ∃ earlier last inner,
      lookup s.header.key.name es = some (.tables earlier last) ∧
      es' = replace s.header.key.name (.tables (earlier ++ [last]) (s.span, inner)) es) := by
  rw [Section.addTo] at h
  match hlookup : lookup s.header.key.name es, hdoubled : s.header.doubled with
  | none, false =>
      simp only [hlookup, hdoubled] at h
      obtain ⟨inner, -, hes⟩ := exists_of_bind_eq_some h
      exact Or.inl ⟨rfl, _, (Option.some.inj hes).symm, fun key => rfl⟩
  | none, true =>
      simp only [hlookup, hdoubled] at h
      obtain ⟨inner, -, hes⟩ := exists_of_bind_eq_some h
      exact Or.inl ⟨rfl, _, (Option.some.inj hes).symm, fun key => rfl⟩
  | some (.table .implied span before), false =>
      simp only [hlookup, hdoubled] at h
      obtain ⟨inner, -, hes⟩ := exists_of_bind_eq_some h
      exact Or.inr (Or.inl ⟨rfl, span, before, inner, rfl, (Option.some.inj hes).symm⟩)
  | some (.tables earlier last), true =>
      simp only [hlookup, hdoubled] at h
      obtain ⟨inner, -, hes⟩ := exists_of_bind_eq_some h
      exact Or.inr (Or.inr ⟨rfl, earlier, last, inner, rfl, (Option.some.inj hes).symm⟩)
  | some (.value v span), _ => simp [hlookup] at h
  | some (.table .explicit span before), _ => simp [hlookup] at h
  | some (.table .dotted span before), _ => simp [hlookup] at h
  | some (.table .implied span before), true => simp [hlookup, hdoubled] at h
  | some (.tables earlier last), false => simp [hlookup, hdoubled] at h

theorem addSection_step {s : Section} {es es' : Entries} (h : addSection es s = some es') :
    Step es (.block s) es' := by
  cases hpath : s.header.path with
  | cons k ks => exact step_of_descend (p := .block s) hpath h
  | nil =>
      have hhead : (Part.block s).head = s.header.key := Part.head_eq_key hpath
      have hown : (Part.block s).isOwn = true := Part.isOwn_eq_true hpath
      rw [addSection, hpath, descend] at h
      rcases Section.addTo_cases h with ⟨hlookup, item, rfl, hitem⟩ | ⟨hsingle, span, before, inner, hlookup, rfl⟩ |
        ⟨hdoubled, earlier, last, inner, hlookup, rfl⟩
      · rw [← hhead] at hlookup ⊢
        refine .fresh item hlookup ?_
        rw [hitem, Part.fresh, hown]
        rfl
      · exact .taken s span before inner rfl hpath hsingle hlookup
      · exact .added s earlier last inner rfl hpath hdoubled hlookup

theorem addPart_step {p : Part} {es es' : Entries} (h : addPart es p = some es') : Step es p es' := by
  cases p with
  | pair p => exact addPair_step h
  | block s => exact addSection_step h

/-! ### The table and the parts it is made of -/

theorem lookup_eq_none_iff {name : String} {es : Entries} :
    lookup name es = none ↔ ∀ e ∈ es, e.1.name ≠ name := by
  simp [lookup]

theorem lookup_of_mem {es : Entries} (hnodup : (es.map fun e => e.1.name).Nodup) {e : Key × Item} (he : e ∈ es) :
    lookup e.1.name es = some e.2 := by
  induction es with
  | nil => cases he
  | cons first es ih =>
      rw [List.map_cons, List.nodup_cons] at hnodup
      rcases List.mem_cons.mp he with rfl | he
      · simp [lookup]
      · have hne : first.1.name ≠ e.1.name := fun heq => hnodup.1 (heq ▸ List.mem_map_of_mem he)
        have hrest := ih hnodup.2 he
        rw [lookup, List.find?_cons_of_neg (by simpa using hne)]
        exact hrest

theorem exists_mem_of_lookup {name : String} {es : Entries} {item : Item} (h : lookup name es = some item) :
    ∃ e ∈ es, e.1.name = name ∧ e.2 = item := by
  rw [lookup, Option.map_eq_some_iff] at h
  obtain ⟨e, hfind, rfl⟩ := h
  exact ⟨e, List.mem_of_find?_eq_some hfind, by simpa using List.find?_some hfind, rfl⟩

theorem map_name_replace (name : String) (item : Item) (es : Entries) :
    (replace name item es).map (fun e => e.1.name) = es.map fun e => e.1.name := by
  rw [replace, List.map_map]
  apply List.map_congr_left
  intro e _
  by_cases h : e.1.name = name
  · simp [h]
  · simp [h]

/-- A table holds what the parts of a document give, in their order. -/
structure Reflects (parts : List Part) (es : Entries) : Prop where
  held : ∀ e ∈ es, contentOf e.1.name parts ≠ none ∧ e.2.summary e.1 = contentOf e.1.name parts
  complete : ∀ name, contentOf name parts ≠ none → ∃ e ∈ es, e.1.name = name
  ordered : (es.map fun e => e.1.name).Pairwise fun a b => place a parts < place b parts

namespace Reflects

variable {parts : List Part} {es es' : Entries} {p : Part}

theorem nodup (h : Reflects parts es) : (es.map fun e => e.1.name).Nodup :=
  h.ordered.imp fun hlt heq => by
    rw [heq] at hlt
    exact Nat.lt_irrefl _ hlt

theorem lookup_eq (h : Reflects parts es) {e : Key × Item} (he : e ∈ es) : lookup e.1.name es = some e.2 :=
  lookup_of_mem h.nodup he

theorem contentOf_eq_none (h : Reflects parts es) {name : String} (hlookup : lookup name es = none) :
    contentOf name parts = none := by
  by_contra hne
  obtain ⟨e, he, hname⟩ := h.complete name hne
  exact lookup_eq_none_iff.mp hlookup e he hname

theorem mentions_ne_nil (h : Reflects parts es) {name : String} (hname : name ∈ es.map fun e => e.1.name) :
    mentions name parts ≠ [] := by
  obtain ⟨e, he, rfl⟩ := List.mem_map.mp hname
  exact fun hnil => (h.held e he).1 (contentOf_eq_none_iff.mpr hnil)

theorem empty : Reflects [] [] where
  held := by simp
  complete := fun name hne => absurd rfl hne
  ordered := List.Pairwise.nil

/-- Names other than that of the new part keep their contents and places. -/
theorem place_append_of_ne (h : Reflects parts es) {name : String} (hname : name ∈ es.map fun e => e.1.name)
    (hne : p.head.name ≠ name) : place name (parts ++ [p]) = place name parts := by
  apply place_append_of_mem (h.mentions_ne_nil hname)
  apply Bool.eq_false_iff.mpr
  exact fun htable => hne (Part.eq_head_of_isTableOf htable).2

theorem ordered_of_place_eq (h : Reflects parts es)
    (hplace : ∀ name ∈ es.map fun e => e.1.name, place name (parts ++ [p]) = place name parts) :
    (es.map fun e => e.1.name).Pairwise fun a b => place a (parts ++ [p]) < place b (parts ++ [p]) := by
  refine h.ordered.imp_of_mem fun {a b} ha hb hlt => ?_
  rw [hplace a ha, hplace b hb]
  exact hlt

/-- An entry comes last, in the place of one with its name if there was one. -/
theorem step_last (h : Reflects parts es) {item : Item}
    (hitem : item.summary p.head = contentOf p.head.name (parts ++ [p]))
    (hsome : contentOf p.head.name (parts ++ [p]) ≠ none)
    (hplace : place p.head.name (parts ++ [p]) = parts.length) :
    Reflects (parts ++ [p]) (erase p.head.name es ++ [(p.head, item)]) := by
  have hkept : ∀ e ∈ erase p.head.name es, e ∈ es ∧ p.head.name ≠ e.1.name := by
    intro e he
    obtain ⟨hes, hne⟩ := List.mem_filter.mp he
    exact ⟨hes, Ne.symm (by simpa using hne)⟩
  have hplaces : ∀ name ∈ (erase p.head.name es).map (fun e => e.1.name),
      place name (parts ++ [p]) = place name parts ∧ mentions name parts ≠ [] := by
    intro name hname
    obtain ⟨e, he, rfl⟩ := List.mem_map.mp hname
    obtain ⟨hes, hne⟩ := hkept e he
    have hmem : e.1.name ∈ es.map fun e => e.1.name := List.mem_map_of_mem hes
    exact ⟨h.place_append_of_ne hmem hne, h.mentions_ne_nil hmem⟩
  refine ⟨fun e he => ?_, fun name hname => ?_, ?_⟩
  · rcases List.mem_append.mp he with he | he
    · obtain ⟨hes, hne⟩ := hkept e he
      rw [contentOf_append_of_ne hne]
      exact h.held e hes
    · cases List.mem_singleton.mp he
      exact ⟨hsome, hitem⟩
  · by_cases hne : p.head.name = name
    · exact ⟨(p.head, item), by simp, hne⟩
    · rw [contentOf_append_of_ne hne] at hname
      obtain ⟨e, he, rfl⟩ := h.complete name hname
      refine ⟨e, List.mem_append_left _ ?_, rfl⟩
      simp [erase, he, Ne.symm hne]
  · have hsublist : ((erase p.head.name es).map fun e => e.1.name).Sublist (es.map fun e => e.1.name) :=
      List.filter_sublist.map _
    rw [List.map_append, List.pairwise_append]
    refine ⟨?_, List.pairwise_singleton _ _, fun name hname last hlast => ?_⟩
    · refine (h.ordered.sublist hsublist).imp_of_mem fun {a b} ha hb hlt => ?_
      rw [(hplaces a ha).1, (hplaces b hb).1]
      exact hlt
    · obtain rfl : last = p.head.name := by simpa using hlast
      rw [(hplaces name hname).1, hplace]
      exact place_lt_length (hplaces name hname).2

theorem step_fresh (h : Reflects parts es) {item : Item} (hlookup : lookup p.head.name es = none)
    (hitem : item.summary p.head = some p.fresh) : Reflects (parts ++ [p]) (es ++ [(p.head, item)]) := by
  have hnone := h.contentOf_eq_none hlookup
  have hfresh := contentOf_append_fresh hnone
  have herase : erase p.head.name es = es :=
    List.filter_eq_self.mpr fun e he => by simpa using lookup_eq_none_iff.mp hlookup e he
  have hlast := h.step_last (hitem.trans hfresh.symm) (by rw [hfresh]; exact Option.some_ne_none _)
    (place_append_fresh (contentOf_eq_none_iff.mp hnone))
  rwa [herase] at hlast

/-- An entry changes in its place. -/
theorem step_replace (h : Reflects parts es) {item item' : Item} (hlookup : lookup p.head.name es = some item)
    (hcontent : ∀ key c, item.summary key = contentOf p.head.name parts →
      contentOf p.head.name parts = some c →
      item'.summary key = contentOf p.head.name (parts ++ [p]) ∧
        contentOf p.head.name (parts ++ [p]) ≠ none)
    (htable : p.isTableOf p.head.name = false) :
    Reflects (parts ++ [p]) (replace p.head.name item' es) := by
  refine ⟨fun e he => ?_, fun name hname => ?_, ?_⟩
  · rw [replace, List.mem_map] at he
    obtain ⟨before, hbefore, rfl⟩ := he
    obtain ⟨hsome, hheld⟩ := h.held before hbefore
    by_cases hname : before.1.name = p.head.name
    · have hfound := h.lookup_eq hbefore
      rw [hname, hlookup, Option.some.injEq] at hfound
      obtain ⟨c, hc⟩ := Option.ne_none_iff_exists'.mp hsome
      rw [hname] at hheld hc
      rw [← hfound] at hheld
      obtain ⟨hsummary, hne⟩ := hcontent before.1 c hheld hc
      simp only [hname, beq_self_eq_true, if_true]
      exact ⟨hne, hsummary⟩
    · simp only [beq_iff_eq, hname, if_false]
      rw [contentOf_append_of_ne (fun heq => hname heq.symm)]
      exact ⟨hsome, hheld⟩
  · have hmem : name ∈ es.map fun e => e.1.name := by
      by_cases hne : p.head.name = name
      · obtain ⟨e, he, hename, -⟩ := exists_mem_of_lookup hlookup
        exact List.mem_map.mpr ⟨e, he, hename.trans hne⟩
      · rw [contentOf_append_of_ne hne] at hname
        obtain ⟨e, he, hename⟩ := h.complete name hname
        exact List.mem_map.mpr ⟨e, he, hename⟩
    rw [← map_name_replace p.head.name item' es] at hmem
    exact List.mem_map.mp hmem
  · rw [map_name_replace]
    refine h.ordered_of_place_eq fun name hname => ?_
    by_cases hne : p.head.name = name
    · subst hne
      exact place_append_of_mem (h.mentions_ne_nil hname) htable
    · exact h.place_append_of_ne hname hne

/-- A table without a header is only mentioned on the way to something further down. -/
theorem exists_unheaded (h : Reflects parts es) {name : String} {span : Option Span} {before : Entries}
    (hlookup : lookup name es = some (.table .implied span before)) :
    ∃ mention, contentOf name parts = some (.unheaded mention) := by
  obtain ⟨e, he, rfl, heitem⟩ := exists_mem_of_lookup hlookup
  obtain ⟨hsome, hheld⟩ := h.held e he
  rw [heitem] at hheld
  cases span with
  | none => exact ⟨e.1.span, hheld.symm⟩
  | some span => exact absurd hheld.symm hsome

/-- A table that was only mentioned gets its header, and comes last. -/
theorem step_taken (h : Reflects parts es) {s : Section} {span : Option Span} {before : Entries}
    (inner : Entries) (hpath : s.header.path = []) (hsingle : s.header.doubled = false)
    (hlookup : lookup s.header.key.name es = some (.table .implied span before)) :
    Reflects (parts ++ [.block s])
      (erase s.header.key.name es ++ [(s.header.key, .table .explicit (some s.span) inner)]) := by
  have hhead : (Part.block s).head = s.header.key := Part.head_eq_key hpath
  obtain ⟨mention, hmention⟩ := h.exists_unheaded hlookup
  have hheaded := contentOf_append_headed hpath hsingle hmention
  have hplace := place_append_of_isTableOf (p := .block s) (owners_eq_nil_of_unheaded hmention)
    (by simp [Part.isTableOf, hpath, hsingle])
  rw [← hhead] at hheaded hplace ⊢
  exact h.step_last hheaded.symm (by rw [hheaded]; exact Option.some_ne_none _) hplace

/-- One more part: the table goes on holding what the parts give, in their order. -/
theorem step (h : Reflects parts es) (hstep : Step es p es') : Reflects (parts ++ [p]) es' := by
  cases hstep with
  | fresh item hlookup hitem => exact h.step_fresh hlookup hitem
  | kept item item' hlookup hown hitem =>
      refine h.step_replace hlookup (fun key c hsummary hc => ?_) ?_
      · rw [hitem key, hsummary, hc, contentOf_append_of_not_isOwn hc hown]
        exact ⟨rfl, Option.some_ne_none _⟩
      · apply Bool.eq_false_iff.mpr
        intro htable
        rw [(Part.eq_head_of_isTableOf htable).1] at hown
        cases hown
  | taken s span before inner hp hpath hsingle hlookup =>
      subst hp
      exact h.step_taken inner hpath hsingle hlookup
  | added s earlier last inner hp hpath hdoubled hlookup =>
      subst hp
      have hhead : s.header.key = (Part.block s).head := Eq.symm (Part.head_eq_key hpath)
      rw [hhead] at hlookup ⊢
      refine h.step_replace hlookup (fun key c hsummary _ => ?_) ?_
      · have happend := contentOf_append_tables hpath (hhead ▸ hsummary.symm)
        rw [hhead] at happend
        rw [happend]
        refine ⟨?_, Option.some_ne_none _⟩
        cases earlier <;> rfl
      · simp [Part.isTableOf, hdoubled]

/-- The whole table, by induction over the parts. -/
theorem of_foldlM {later : List Part} (h : Reflects parts es) (hfold : later.foldlM addPart es = some es') :
    Reflects (parts ++ later) es' := by
  induction later generalizing parts es with
  | nil =>
      cases hfold
      rwa [List.append_nil]
  | cons p later ih =>
      rw [List.foldlM_cons] at hfold
      obtain ⟨next, hnext, hlater⟩ := exists_of_bind_eq_some hfold
      have hreflects := ih (h.step (addPart_step hnext)) hlater
      rwa [List.append_assoc, List.singleton_append] at hreflects

end Reflects

end ApiSurface.Toml
