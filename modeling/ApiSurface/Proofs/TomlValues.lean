import ApiSurface.Proofs.TomlMultiline
import ApiSurface.Proofs.TomlNumbers

/-! The values of TOML as they are written, arrays and tables in braces among them, with the white space
and the comments between their parts: what each stands for, and that the reader agrees. -/

namespace ApiSurface.Toml

open Scan

mutual

/-- A value as it is written. -/
inductive Spelling where
  | string (s : Quotation)
  | scalar (s : Scalar)
  | boolean (b : Bool)
  | array (items : Items)
  | emptyBraces (b : Blanks)
  | braces (lead : Blanks) (fields : Fields)

/-- The items of an array, up to its closing bracket. A comma may stand after the last. -/
inductive Items where
  | done (g : Gap)
  | last (before : Gap) (v : Spelling) (after : Gap)
  | more (before : Gap) (v : Spelling) (after : Gap) (rest : Items)

/-- The entries of a table in braces, up to the closing one. -/
inductive Fields where
  | last (k : DottedKey) (before : Blanks) (v : Spelling) (after : Blanks)
  | more (k : DottedKey) (before : Blanks) (v : Spelling) (after lead : Blanks) (rest : Fields)

end

mutual

def Spelling.text : Spelling → List Char
  | .string s => s.text
  | .scalar s => s.text
  | .boolean b => if b then ['t', 'r', 'u', 'e'] else ['f', 'a', 'l', 's', 'e']
  | .array items => '[' :: items.text
  | .emptyBraces b => '\x7b' :: (b.1 ++ ['\x7d'])
  | .braces lead fields => '\x7b' :: (lead.1 ++ fields.text)

def Items.text : Items → List Char
  | .done g => g.text ++ [']']
  | .last before v after => before.text ++ (v.text ++ (after.text ++ [']']))
  | .more before v after rest => before.text ++ (v.text ++ (after.text ++ ',' :: rest.text))

def Fields.text : Fields → List Char
  | .last k before v after => k.text ++ '=' :: (before.1 ++ (v.text ++ (after.1 ++ ['\x7d'])))
  | .more k before v after lead rest =>
    k.text ++ '=' :: (before.1 ++ (v.text ++ (after.1 ++ ',' :: (lead.1 ++ rest.text))))

end

theorem Spelling.array_text_append (items : Items) (cs : List Char) :
    (Spelling.array items).text ++ cs = '[' :: (items.text ++ cs) :=
  rfl

theorem Spelling.emptyBraces_text_append (b : Blanks) (cs : List Char) :
    (Spelling.emptyBraces b).text ++ cs = '\x7b' :: (b.1 ++ '\x7d' :: cs) := by
  simp [Spelling.text]

theorem Spelling.braces_text_append (lead : Blanks) (fields : Fields) (cs : List Char) :
    (Spelling.braces lead fields).text ++ cs = '\x7b' :: (lead.1 ++ (fields.text ++ cs)) :=
  congrArg ('\x7b' :: ·) (List.append_assoc ..)

theorem Items.last_text_append (before : Gap) (v : Spelling) (after : Gap) (cs : List Char) :
    (Items.last before v after).text ++ cs =
      before.text ++ (v.text ++ (after.text ++ ']' :: cs)) := by
  simp [Items.text]

theorem Items.more_text_append (before : Gap) (v : Spelling) (after : Gap) (rest : Items) (cs : List Char) :
    (Items.more before v after rest).text ++ cs =
      before.text ++ (v.text ++ (after.text ++ ',' :: (rest.text ++ cs))) := by
  simp [Items.text]

theorem Fields.last_text_append (k : DottedKey) (before : Blanks) (v : Spelling) (after : Blanks)
    (cs : List Char) :
    (Fields.last k before v after).text ++ cs =
      k.text ++ '=' :: (before.1 ++ (v.text ++ (after.1 ++ '\x7d' :: cs))) := by
  simp [Fields.text]

theorem Fields.more_text_append (k : DottedKey) (before : Blanks) (v : Spelling) (after lead : Blanks)
    (rest : Fields) (cs : List Char) :
    (Fields.more k before v after lead rest).text ++ cs =
      k.text ++ '=' :: (before.1 ++ (v.text ++ (after.1 ++ ',' :: (lead.1 ++ (rest.text ++ cs))))) := by
  simp [Fields.text]

/-! ### What a value stands for -/

mutual

/-- What the value stands for, if so many characters follow it. -/
def Spelling.value (following : Nat) : Spelling → Value
  | .string s => .string s.value
  | .scalar s => s.value
  | .boolean b => .boolean b
  | .array items => .array (items.values following)
  | .emptyBraces _ => .table []
  | .braces _ fields => .table (fields.entries following)

def Items.values (following : Nat) : Items → List (Value × Span)
  | .done _ => []
  | .last _ v after =>
    let left := (after.text ++ [']']).length + following
    [(v.value left, ⟨v.text.length + left, left⟩)]
  | .more _ v after rest =>
    let left := (after.text ++ ',' :: rest.text).length + following
    (v.value left, ⟨v.text.length + left, left⟩) :: rest.values following

def Fields.entries (following : Nat) : Fields → List (List String × Value)
  | .last k _ v after => [(k.names, v.value ((after.1 ++ ['\x7d']).length + following))]
  | .more k _ v after lead rest =>
    (k.names, v.value ((after.1 ++ ',' :: (lead.1 ++ rest.text)).length + following)) ::
      rest.entries following

end

/-- The paths of the entries. -/
def Fields.paths : Fields → List (List String)
  | .last k _ _ _ => [k.names]
  | .more k _ _ _ _ rest => k.names :: rest.paths

/-- Neither path leads to or through the place of the other. -/
def Apart (p q : List String) : Prop :=
  ¬p <+: q ∧ ¬q <+: p

mutual

/-- No two entries of a table in braces name one place. -/
def Spelling.Sound : Spelling → Prop
  | .string _ => True
  | .scalar _ => True
  | .boolean _ => True
  | .array items => items.Sound
  | .emptyBraces _ => True
  | .braces _ fields => fields.paths.Pairwise Apart ∧ fields.Sound

def Items.Sound : Items → Prop
  | .done _ => True
  | .last _ v _ => v.Sound
  | .more _ v _ rest => v.Sound ∧ rest.Sound

def Fields.Sound : Fields → Prop
  | .last _ _ v _ => v.Sound
  | .more _ _ v _ _ rest => v.Sound ∧ rest.Sound

end

mutual

/-- How deep the value is nested. -/
def Spelling.depth : Spelling → Nat
  | .string _ => 0
  | .scalar _ => 0
  | .boolean _ => 0
  | .array items => items.depth + 1
  | .emptyBraces _ => 1
  | .braces _ fields => fields.depth + 1

def Items.depth : Items → Nat
  | .done _ => 0
  | .last _ v _ => v.depth
  | .more _ v _ rest => max v.depth rest.depth

def Fields.depth : Fields → Nat
  | .last _ _ v _ => v.depth
  | .more _ _ v _ _ rest => max v.depth rest.depth

end

mutual

/-- Keys have a limited number of parts, and floating numbers a limited size. -/
def Spelling.Moderate : Spelling → Prop
  | .string _ => True
  | .scalar s => s.Finite
  | .boolean _ => True
  | .array items => items.Moderate
  | .emptyBraces _ => True
  | .braces _ fields => fields.Moderate

def Items.Moderate : Items → Prop
  | .done _ => True
  | .last _ v _ => v.Moderate
  | .more _ v _ rest => v.Moderate ∧ rest.Moderate

def Fields.Moderate : Fields → Prop
  | .last k _ v _ => k.parts < depthLimit ∧ v.Moderate
  | .more k _ v _ _ rest => k.parts < depthLimit ∧ v.Moderate ∧ rest.Moderate

end

/-! ### How a value begins and what follows it -/

theorem Fixed.exists_digits_eq_cons {count : Nat} (f : Fixed (count + 1)) :
    ∃ c cs, f.digits = c :: cs ∧ c.isDigit = true := by
  obtain ⟨c, cs, heq⟩ : ∃ c cs, f.digits = c :: cs := List.exists_cons_of_length_eq_add_one f.length_digits
  exact ⟨c, cs, heq, f.isDigit c (by rw [heq]; exact List.mem_cons_self)⟩

/-- The characters other than digits with which a number can begin. -/
def numberStarts : List Char :=
  ['+', '-', 'i', 'n']

theorem Scalar.exists_text_eq_cons (s : Scalar) :
    ∃ c cs, s.text = c :: cs ∧ (c.isDigit = true ∨ c ∈ numberStarts) := by
  match s with
  | .number .plus m _ => exact ⟨'+', _, rfl, Or.inr (by decide)⟩
  | .number .minus m _ => exact ⟨'-', _, rfl, Or.inr (by decide)⟩
  | .number .absent (.whole w) _ =>
      obtain ⟨c, cs, htext, hc⟩ := w.exists_text_eq_cons
      exact ⟨c, cs, htext, Or.inl hc⟩
  | .number .absent (.floating w t) _ =>
      obtain ⟨c, cs, htext, hc⟩ := w.exists_text_eq_cons
      exact ⟨c, cs ++ t.text, congrArg (· ++ t.text) htext, Or.inl hc⟩
  | .number .absent .infinite _ => exact ⟨'i', _, rfl, Or.inr (by decide)⟩
  | .number .absent .nan _ => exact ⟨'n', _, rfl, Or.inr (by decide)⟩
  | .based b g _ => exact ⟨'0', _, rfl, Or.inl rfl⟩
  | .date d =>
      obtain ⟨c, cs, heq, hc⟩ := d.year.exists_digits_eq_cons
      exact ⟨c, _, by rw [Scalar.text, Date.text, heq]; rfl, Or.inl hc⟩
  | .time t =>
      obtain ⟨c, cs, heq, hc⟩ := t.hour.toFixed.exists_digits_eq_cons
      exact ⟨c, _, by rw [Scalar.text, Time.text, heq]; rfl, Or.inl hc⟩

/-- A value begins neither with white space or a comment nor with the end of an array. -/
theorem Spelling.exists_text_eq_cons (v : Spelling) :
    ∃ c cs, v.text = c :: cs ∧ isGapChar c = false ∧ c ≠ ']' := by
  match v with
  | .string (.line (.basic _)) => exact ⟨'"', _, rfl, rfl, by decide⟩
  | .string (.line (.literal _)) => exact ⟨'\'', _, rfl, rfl, by decide⟩
  | .string (.multilineBasic _) => exact ⟨'"', _, rfl, rfl, by decide⟩
  | .string (.multilineLiteral _) => exact ⟨'\'', _, rfl, rfl, by decide⟩
  | .scalar s =>
      obtain ⟨c, cs, htext, hc⟩ := s.exists_text_eq_cons
      refine ⟨c, cs, htext, ?_⟩
      rcases hc with hdigit | hstart
      · refine ⟨Bool.eq_false_iff.mpr fun hgap => ?_, ?_⟩
        · simp only [isGapChar, isBlank, Bool.or_eq_true, decide_eq_true_eq] at hgap
          rcases hgap with (((rfl | rfl) | rfl) | rfl) | rfl
          all_goals cases hdigit
        · rintro rfl
          cases hdigit
      · simp only [numberStarts, List.mem_cons, List.not_mem_nil, or_false] at hstart
        rcases hstart with rfl | rfl | rfl | rfl
        all_goals exact ⟨rfl, by decide⟩
  | .boolean true => exact ⟨'t', _, rfl, rfl, by decide⟩
  | .boolean false => exact ⟨'f', _, rfl, rfl, by decide⟩
  | .array _ => exact ⟨'[', _, rfl, rfl, by decide⟩
  | .emptyBraces _ => exact ⟨'\x7b', _, rfl, rfl, by decide⟩
  | .braces _ _ => exact ⟨'\x7b', _, rfl, rfl, by decide⟩

theorem Spelling.stops_gap (v : Spelling) (rest : List Char) : Stops isGapChar (v.text ++ rest) := by
  obtain ⟨c, cs, htext, hgap, -⟩ := v.exists_text_eq_cons
  rw [htext]
  exact stops_cons.mpr hgap

theorem Spelling.stops_blank (v : Spelling) (rest : List Char) : Stops isBlank (v.text ++ rest) :=
  (v.stops_gap rest).imp fun c hc => by simp [isGapChar, hc]

theorem Spelling.head_ne (v : Spelling) (rest : List Char) : (v.text ++ rest).head? ≠ some ']' := by
  obtain ⟨c, cs, htext, -, hc⟩ := v.exists_text_eq_cons
  rw [htext]
  simpa using hc

theorem closed_blanks (b : Blanks) {c : Char} (hc : c ∈ endMarks) (rest : List Char) :
    Closed (b.1 ++ c :: rest) :=
  ⟨b, c :: rest, rfl, fun d hd => by cases hd; exact hc⟩

theorem closed_margin (m : Margin) {rest : List Char} (hrest : AtLineEnd rest) : Closed (m.text ++ rest) := by
  refine ⟨m.blanks, commentText m.comment ++ rest, List.append_assoc .., fun c hc => ?_⟩
  match m.comment, hc with
  | some _, hc => cases hc; decide
  | none, hc =>
      rcases hrest with rfl | ⟨e, rest, rfl⟩
      · cases hc
      · cases e with
        | lf => cases hc; decide
        | crlf => cases hc; decide

theorem closed_gap (g : Gap) {c : Char} (hc : c ∈ endMarks) (rest : List Char) :
    Closed (g.text ++ c :: rest) := by
  match g with
  | ⟨[], b⟩ => exact closed_blanks b hc rest
  | ⟨(m, e) :: lines, b⟩ =>
      have htext : Gap.text ⟨(m, e) :: lines, b⟩ ++ c :: rest =
          m.text ++ (e.text ++ (linesText lines ++ (b.1 ++ c :: rest))) := by
        simp [Gap.text, linesText]
      rw [htext]
      exact closed_margin m (Or.inr ⟨e, _, rfl⟩)

/-! ### Reading values -/

/-- The value is read as what it stands for, with enough rounds and depth left. -/
def Spelling.Read (v : Spelling) : Prop :=
  ∀ rest, Closed rest → ∀ n depth, 2 * v.text.length < n → v.depth < depth →
    Toml.value n depth (v.text ++ rest) = some (v.value rest.length, rest)

def Items.Read (items : Items) : Prop :=
  ∀ rest n depth, 2 * items.text.length ≤ n → items.depth < depth →
    arrayItems n depth (items.text ++ rest) = some (items.values rest.length, rest)

/-- The entries are read, if they name no place that those before them name. -/
def Fields.Read (fields : Fields) : Prop :=
  ∀ (lead : Blanks) rest n depth before, 2 * fields.text.length ≤ n → fields.depth < depth →
    fields.paths.Pairwise Apart → (∀ p ∈ fields.paths, ∀ q ∈ before, Apart p q) →
    inlineEntries n depth before (lead.1 ++ (fields.text ++ rest)) =
      some (fields.entries rest.length, rest)

theorem read_string (s : Quotation) : (Spelling.string s).Read := by
  intro rest hrest n depth hn _
  obtain ⟨m, rfl⟩ : ∃ m, n = m + 1 := ⟨n - 1, by omega⟩
  have hread := scanString_text s (hrest.stops rfl)
  rw [Spelling.text, value, peek_bind]
  cases s with
  | line s =>
      cases s with
      | basic _ => exact bind_of_some hread _
      | literal _ => exact bind_of_some hread _
  | multilineBasic _ => exact bind_of_some hread _
  | multilineLiteral _ => exact bind_of_some hread _

theorem read_scalar (s : Scalar) (hs : s.Finite) : (Spelling.scalar s).Read := by
  intro rest hrest n depth hn _
  obtain ⟨m, rfl⟩ : ∃ m, n = m + 1 := ⟨n - 1, by omega⟩
  obtain ⟨c, cs, htext, hc⟩ := s.exists_text_eq_cons
  have hread := scalar_text s hs hrest
  rw [Spelling.text, Spelling.value, ← hread, value, peek_bind]
  refine congrFun ?_ _
  rw [htext, List.cons_append, List.head?_cons]
  split
  case h_7 => rfl
  all_goals
    rename_i heq
    cases heq
    rcases hc with hdigit | hstart
    · cases hdigit
    · exact absurd hstart (by decide)

theorem read_boolean (b : Bool) : (Spelling.boolean b).Read := by
  intro rest hrest n depth hn _
  obtain ⟨m, rfl⟩ : ∃ m, n = m + 1 := ⟨n - 1, by omega⟩
  cases b with
  | true => exact value_true m depth rest
  | false => exact value_false m depth rest

theorem read_array {items : Items} (h : items.Read) : (Spelling.array items).Read := by
  intro rest _ n depth hn hdepth
  rw [Spelling.text, List.length_cons] at hn
  rw [Spelling.depth] at hdepth
  obtain ⟨m, rfl⟩ : ∃ m, n = m + 1 := ⟨n - 1, by omega⟩
  have hread := h rest m (depth - 1) (by omega) (by omega)
  rw [Spelling.array_text_append, value, peek_bind]
  change (expect '[' >>= _) _ = _
  rw [bind_of_some (expect_self _ _), if_neg (by omega)]
  exact bind_of_some hread _

theorem value_brace (n : Nat) {depth : Nat} (hdepth : 1 < depth) (cs : List Char) :
    value (n + 1) depth ('\x7b' :: cs) =
      (do
        blanks
        if ← accept '\x7d' then return .table []
        else return .table (← inlineEntries n (depth - 1) []) : Scan Value) cs := by
  rw [value, peek_bind]
  change (expect '\x7b' >>= _) _ = _
  rw [bind_of_some (expect_self _ _), if_neg (by omega)]

theorem read_emptyBraces (b : Blanks) : (Spelling.emptyBraces b).Read := by
  intro rest _ n depth hn hdepth
  rw [Spelling.depth] at hdepth
  obtain ⟨m, rfl⟩ : ∃ m, n = m + 1 := ⟨n - 1, by omega⟩
  have hstops : Stops isBlank ('\x7d' :: rest) := stops_cons.mpr rfl
  rw [Spelling.emptyBraces_text_append, value_brace m (by omega)]
  exact bind_of_some (blanks_text b hstops) _

theorem Fields.exists_text_eq_cons (fields : Fields) :
    ∃ c cs, fields.text = c :: cs ∧ isKeyStart c = true := by
  cases fields with
  | last k before v after =>
      obtain ⟨c, cs, htext, hc⟩ := k.exists_text_eq_cons
      exact ⟨c, _, by rw [Fields.text, htext]; rfl, hc⟩
  | more k before v after lead rest =>
      obtain ⟨c, cs, htext, hc⟩ := k.exists_text_eq_cons
      exact ⟨c, _, by rw [Fields.text, htext]; rfl, hc⟩

theorem read_braces (lead : Blanks) {fields : Fields} (h : fields.Read) (hpaths : fields.paths.Pairwise Apart) :
    (Spelling.braces lead fields).Read := by
  intro rest _ n depth hn hdepth
  rw [Spelling.text, List.length_cons, List.length_append] at hn
  rw [Spelling.depth] at hdepth
  obtain ⟨m, rfl⟩ : ∃ m, n = m + 1 := ⟨n - 1, by omega⟩
  obtain ⟨c, cs, htext, hc⟩ := fields.exists_text_eq_cons
  have hread := h ⟨[], by simp⟩ rest m (depth - 1) [] (by omega) (by omega) hpaths (by simp)
  have hstops : Stops isBlank (fields.text ++ rest) := by
    rw [htext]
    exact stops_cons.mpr (isBlank_of_isKeyStart hc)
  have hopen : (fields.text ++ rest).head? ≠ some '\x7d' := by
    rw [htext]
    rintro heq
    cases heq
    cases hc
  rw [Spelling.braces_text_append, value_brace m (by omega),
    bind_of_some (blanks_text lead hstops), bind_of_some (accept_of_ne hopen), if_neg Bool.false_ne_true]
  exact bind_of_some hread _

theorem read_done (g : Gap) : (Items.done g).Read := by
  intro rest n depth hn _
  have hpos : 0 < (Items.done g).text.length := by simp [Items.text]
  obtain ⟨m, rfl⟩ : ∃ m, n = m + 1 := ⟨n - 1, by omega⟩
  have hstops : Stops isGapChar (']' :: rest) := stops_cons.mpr rfl
  have hgap := gap_text g hstops
  rw [Items.text, List.append_assoc, List.singleton_append, arrayItems, get_bind, bind_of_some hgap,
    bind_of_some (accept_self _ _)]
  rfl

/-- An item is read, with its place, up to the mark after it. -/
theorem arrayItems_item {v : Spelling} (h : v.Read) (before after : Gap) {c : Char} (hc : c = ',' ∨ c = ']')
    (cs : List Char) {n depth : Nat} (hn : 2 * v.text.length < n) (hdepth : v.depth < depth) :
    arrayItems (n + 1) depth (before.text ++ (v.text ++ (after.text ++ c :: cs))) =
      (do
        let left := (after.text ++ c :: cs).length
        let item := (v.value left, Span.mk (v.text.length + left) left)
        if ← accept ',' then return item :: (← arrayItems n depth)
        else
          expect ']'
          return [item] : Scan (List (Value × Span))) (c :: cs) := by
  have hend : c ∈ endMarks := by rcases hc with rfl | rfl <;> decide
  have hgap : Stops isGapChar (c :: cs) := by rcases hc with rfl | rfl <;> exact stops_cons.mpr rfl
  have hread := spanned_of_some (h _ (closed_gap after hend cs) n depth hn hdepth)
  rw [arrayItems, get_bind, bind_of_some (gap_text before (v.stops_gap _)),
    bind_of_some (accept_of_ne (v.head_ne _)), if_neg Bool.false_ne_true, bind_of_some hread, get_bind]
  exact bind_of_some (gap_text after hgap) _

theorem read_lastItem (before : Gap) {v : Spelling} (after : Gap) (h : v.Read) :
    (Items.last before v after).Read := by
  intro rest n depth hn hdepth
  simp only [Items.text, List.length_append, List.length_singleton] at hn
  obtain ⟨m, rfl⟩ : ∃ m, n = m + 1 := ⟨n - 1, by omega⟩
  have hlength : (after.text ++ ']' :: rest).length = (after.text ++ [']']).length + rest.length := by
    simp only [List.length_append, List.length_cons, List.length_nil]
    omega
  rw [Items.last_text_append, arrayItems_item h before after (Or.inr rfl) rest (by omega) hdepth, hlength]
  rfl

theorem read_moreItems (before : Gap) {v : Spelling} (after : Gap) {items : Items} (h : v.Read)
    (hitems : items.Read) : (Items.more before v after items).Read := by
  intro rest n depth hn hdepth
  simp only [Items.text, List.length_append, List.length_cons] at hn
  rw [Items.depth] at hdepth
  obtain ⟨m, rfl⟩ : ∃ m, n = m + 1 := ⟨n - 1, by omega⟩
  have hlength : (after.text ++ ',' :: (items.text ++ rest)).length =
      (after.text ++ ',' :: items.text).length + rest.length := by
    simp only [List.length_append, List.length_cons]
    omega
  have hread := hitems rest m depth (by omega) (by omega)
  rw [Items.more_text_append, arrayItems_item h before after (Or.inl rfl) _ (by omega) (by omega), hlength,
    bind_of_some (accept_self _ _), if_pos rfl, bind_of_some hread]
  rfl

theorem clash_eq_false_iff {p q : List String} : clash p q = false ↔ Apart p q := by
  simp only [clash, Apart, Bool.or_eq_false_iff, ← List.isPrefixOf_iff_prefix, Bool.not_eq_true]

theorem key_text (k : DottedKey) (hk : k.parts < depthLimit) (before : Blanks) {c : Char} (hc : IsKeyEnd c)
    (rest : List Char) :
    key (before.1 ++ (k.text ++ c :: rest)) =
      some (k.path (c :: rest).length ++ [k.final (c :: rest).length], c :: rest) :=
  keyParts_text k hc rest before (depthLimit - 1) (by omega)

/-- An entry is read up to the mark after it, if it names no place that others name. -/
theorem inlineEntries_field {k : DottedKey} (hk : k.parts < depthLimit) {v : Spelling} (h : v.Read)
    (lead before after : Blanks) {c : Char} (hc : c = ',' ∨ c = '\x7d') (cs : List Char) {n depth : Nat}
    (hn : 2 * v.text.length < n) (hdepth : v.depth < depth) {others : List (List String)}
    (hothers : ∀ q ∈ others, Apart k.names q) :
    inlineEntries (n + 1) depth others
        (lead.1 ++ (k.text ++ '=' :: (before.1 ++ (v.text ++ (after.1 ++ c :: cs))))) =
      (do
        let entry := (k.names, v.value (after.1 ++ c :: cs).length)
        if ← accept ',' then return entry :: (← inlineEntries n depth (k.names :: others))
        else
          expect '\x7d'
          return [entry] : Scan (List (List String × Value))) (c :: cs) := by
  have hend : c ∈ endMarks := by rcases hc with rfl | rfl <;> decide
  have hblank : Stops isBlank (c :: cs) := by rcases hc with rfl | rfl <;> exact stops_cons.mpr rfl
  have hclash : others.any (clash k.names) = false :=
    List.any_eq_false.mpr fun q hq => by simp [clash_eq_false_iff.mpr (hothers q hq)]
  have hread := h _ (closed_blanks after hend cs) n depth hn hdepth
  rw [inlineEntries, bind_of_some (key_text k hk lead (Or.inl rfl) _), k.map_name_path_append, hclash]
  change (expect '=' >>= _) _ = _
  rw [bind_of_some (expect_self _ _), bind_of_some (blanks_text before (v.stops_blank _)),
    bind_of_some hread]
  exact bind_of_some (blanks_text after hblank) _

theorem read_lastField {k : DottedKey} (hk : k.parts < depthLimit) (before : Blanks) {v : Spelling}
    (after : Blanks) (h : v.Read) : (Fields.last k before v after).Read := by
  intro lead rest n depth others hn hdepth _ hothers
  simp only [Fields.text, List.length_append, List.length_cons, List.length_nil] at hn
  obtain ⟨m, rfl⟩ : ∃ m, n = m + 1 := ⟨n - 1, by omega⟩
  have hlength : (after.1 ++ '\x7d' :: rest).length = (after.1 ++ ['\x7d']).length + rest.length := by
    simp only [List.length_append, List.length_cons, List.length_nil]
    omega
  rw [Fields.last_text_append, inlineEntries_field hk h lead before after (Or.inr rfl) rest (by omega) hdepth
    (hothers k.names List.mem_cons_self), hlength]
  rfl

theorem read_moreFields {k : DottedKey} (hk : k.parts < depthLimit) (before : Blanks) {v : Spelling}
    (after lead : Blanks) {fields : Fields} (h : v.Read) (hfields : fields.Read) :
    (Fields.more k before v after lead fields).Read := by
  intro first rest n depth others hn hdepth hpaths hothers
  simp only [Fields.text, List.length_append, List.length_cons] at hn
  rw [Fields.depth] at hdepth
  rw [Fields.paths, List.pairwise_cons] at hpaths
  obtain ⟨m, rfl⟩ : ∃ m, n = m + 1 := ⟨n - 1, by omega⟩
  have hlength : (after.1 ++ ',' :: (lead.1 ++ (fields.text ++ rest))).length =
      (after.1 ++ ',' :: (lead.1 ++ fields.text)).length + rest.length := by
    simp only [List.length_append, List.length_cons]
    omega
  have hlater : ∀ p ∈ fields.paths, ∀ q ∈ k.names :: others, Apart p q := by
    intro p hp q hq
    rcases List.mem_cons.mp hq with rfl | hq
    · exact (hpaths.1 p hp).symm
    · exact hothers p (List.mem_cons_of_mem _ hp) q hq
  have hread := hfields lead rest m depth (k.names :: others) (by omega) (by omega) hpaths.2 hlater
  rw [Fields.more_text_append, inlineEntries_field hk h first before after (Or.inl rfl) _ (by omega) (by omega)
    (hothers k.names List.mem_cons_self), hlength, bind_of_some (accept_self _ _), if_pos rfl,
    bind_of_some hread]
  rfl

/-! ### All values -/

mutual

/-- Every value is read as what it stands for: by induction over the value, with the items and entries of
its parts. -/
theorem Spelling.read (v : Spelling) (hsound : v.Sound) (hmoderate : v.Moderate) : v.Read := by
  match v with
  | .string s => exact read_string s
  | .scalar s => exact read_scalar s hmoderate
  | .boolean b => exact read_boolean b
  | .array items => exact read_array (items.read hsound hmoderate)
  | .emptyBraces b => exact read_emptyBraces b
  | .braces lead fields => exact read_braces lead (fields.read hsound.2 hmoderate) hsound.1

theorem Items.read (items : Items) (hsound : items.Sound) (hmoderate : items.Moderate) : items.Read := by
  match items with
  | .done g => exact read_done g
  | .last before v after => exact read_lastItem before after (v.read hsound hmoderate)
  | .more before v after rest =>
      exact read_moreItems before after (v.read hsound.1 hmoderate.1) (rest.read hsound.2 hmoderate.2)

theorem Fields.read (fields : Fields) (hsound : fields.Sound) (hmoderate : fields.Moderate) : fields.Read := by
  match fields with
  | .last k before v after => exact read_lastField hmoderate.1 before after (v.read hsound hmoderate.2)
  | .more k before v after lead rest =>
      exact read_moreFields hmoderate.1 before after lead (v.read hsound.1 hmoderate.2.1)
        (rest.read hsound.2 hmoderate.2.2)

end

end ApiSurface.Toml
