import ApiSurface.Toml.Document
import ApiSurface.Proofs.TomlValues

/-! TOML documents as they are written, line by line, so that every TOML text is the text of one of these:
the pairs and the sections of a document, and that the reader finds exactly them. -/

namespace ApiSurface.Toml

open Scan

/-- A key with its value, and the rest of the line. -/
structure PairLine where
  lead : Blanks
  key : DottedKey
  before : Blanks
  value : Spelling
  margin : Margin

/-- The header of a section, and the rest of the line. -/
structure HeaderLine where
  lead : Blanks
  doubled : Bool
  inner : Blanks
  key : DottedKey
  margin : Margin

/-- A line of a document. -/
inductive Line where
  | blank (m : Margin)
  | pair (p : PairLine)
  | header (h : HeaderLine)

/-- A document: its lines, of which the last has no end. A byte order mark may stand before them. -/
structure Document where
  marked : Bool
  lines : List (Line × Newline)
  last : Line

namespace PairLine

/-- The text from the equals sign to the end of the value. -/
def valueText (p : PairLine) : List Char :=
  '=' :: (p.before.1 ++ p.value.text)

def text (p : PairLine) : List Char :=
  p.lead.1 ++ (p.key.text ++ (p.valueText ++ p.margin.text))

/-- The pair, if so many characters follow the line. -/
def pair (p : PairLine) (following : Nat) : Pair :=
  let left := p.margin.text.length + following
  ⟨p.key.path (p.valueText.length + left), p.key.final (p.valueText.length + left), p.value.value left,
    ⟨p.value.text.length + left, left⟩⟩

end PairLine

namespace HeaderLine

def closing (h : HeaderLine) : List Char :=
  if h.doubled then [']', ']'] else [']']

/-- The text of the header with its brackets. -/
def bracketed (h : HeaderLine) : List Char :=
  '[' :: ((if h.doubled then ['['] else []) ++ (h.inner.1 ++ (h.key.text ++ h.closing)))

def text (h : HeaderLine) : List Char :=
  h.lead.1 ++ (h.bracketed ++ h.margin.text)

/-- The header, if so many characters follow the line. -/
def header (h : HeaderLine) (following : Nat) : Header :=
  let left := h.margin.text.length + following
  ⟨h.key.path (h.closing.length + left), h.key.final (h.closing.length + left), h.doubled,
    ⟨h.bracketed.length + left, left⟩⟩

end HeaderLine

namespace Line

def text : Line → List Char
  | blank m => m.text
  | pair p => p.text
  | header h => h.text

/-- The pairs and sections from the line on, from those after it. -/
def add (line : Line) (following : Nat) (later : List Pair × List Section) : List Pair × List Section :=
  match line with
  | blank _ => later
  | pair p => (p.pair following :: later.1, later.2)
  | header h => ([], ⟨h.header following, later.1⟩ :: later.2)

/-- No two entries of a table in braces name one place. -/
def Sound : Line → Prop
  | blank _ => True
  | pair p => p.value.Sound
  | header _ => True

/-- Keys have fewer parts than the limit, values are less deep, and no number is beyond the largest double. -/
def Moderate : Line → Prop
  | blank _ => True
  | pair p => p.key.parts < depthLimit ∧ p.value.depth < depthLimit ∧ p.value.Moderate
  | header h => h.key.parts < depthLimit

end Line

/-- The text of lines. -/
def documentText : List (Line × Newline) → Line → List Char
  | [], last => last.text
  | (line, e) :: lines, last => line.text ++ (e.text ++ documentText lines last)

/-- The pairs up to the first header, and the sections from there on. -/
def contents : List (Line × Newline) → Line → List Pair × List Section
  | [], last => last.add 0 ([], [])
  | (line, e) :: lines, last =>
    line.add (e.text ++ documentText lines last).length (contents lines last)

namespace Document

def text (d : Document) : String :=
  String.ofList ((if d.marked then ['\ufeff'] else []) ++ documentText d.lines d.last)

/-- The pairs before the first header. -/
def pairs (d : Document) : List Pair :=
  (contents d.lines d.last).1

def sections (d : Document) : List Section :=
  (contents d.lines d.last).2

/-- All lines. -/
def allLines (d : Document) : List Line :=
  d.lines.map Prod.fst ++ [d.last]

end Document

/-! ### Reading lines -/

theorem lift_some {α : Type} (a : α) (cs : List Char) : (liftM (some a) : Scan α) cs = some (a, cs) :=
  rfl

/-- The text goes on with a line end and what comes after it, or both are empty. -/
def EndsLine (rest after : List Char) : Prop :=
  (∃ e : Newline, rest = e.text ++ after) ∨ (rest = [] ∧ after = [])

theorem EndsLine.atLineEnd {rest after : List Char} (h : EndsLine rest after) : AtLineEnd rest := by
  rcases h with ⟨e, rfl⟩ | ⟨rfl, -⟩
  · exact Or.inr ⟨e, after, rfl⟩
  · exact Or.inl rfl

theorem lineRest_margin (m : Margin) {rest after : List Char} (h : EndsLine rest after) :
    lineRest (m.text ++ rest) = some ((), after) := by
  rcases h with ⟨e, rfl⟩ | ⟨rfl, rfl⟩
  · exact lineRest_newline m e after
  · rw [List.append_nil]
    exact lineRest_end m

theorem pair_text (p : PairLine) (hsound : p.value.Sound) (hkey : p.key.parts < depthLimit)
    (hdepth : p.value.depth < depthLimit) (hmoderate : p.value.Moderate) {rest after : List Char}
    (h : EndsLine rest after) :
    pair (p.key.text ++ (p.valueText ++ (p.margin.text ++ rest))) =
      some (p.pair rest.length, after) := by
  have hclosed : Closed (p.margin.text ++ rest) := closed_margin p.margin h.atLineEnd
  have htext : p.valueText ++ (p.margin.text ++ rest) =
      '=' :: (p.before.1 ++ (p.value.text ++ (p.margin.text ++ rest))) := by
    simp [PairLine.valueText]
  have hlength : ('=' :: (p.before.1 ++ (p.value.text ++ (p.margin.text ++ rest)))).length =
      p.valueText.length + (p.margin.text.length + rest.length) := by
    rw [← htext, List.length_append, List.length_append]
  have hkeyRead := key_text p.key hkey ⟨[], by simp⟩ (Or.inl rfl)
    (p.before.1 ++ (p.value.text ++ (p.margin.text ++ rest)))
  have hvalue := spanned_of_some (p.value.read hsound hmoderate _ hclosed
    (2 * (p.value.text ++ (p.margin.text ++ rest)).length + 2) depthLimit
    (by rw [List.length_append]; omega) hdepth)
  rw [List.nil_append, hlength] at hkeyRead
  rw [htext, Toml.pair, bind_of_some hkeyRead, splitLast_append, bind_of_some (lift_some _ _)]
  change (expect '=' >>= _) _ = _
  rw [bind_of_some (expect_self _ _), bind_of_some (blanks_text p.before (p.value.stops_blank _)), get_bind,
    bind_of_some hvalue, List.length_append]
  exact bind_of_some (lineRest_margin p.margin h) _

theorem DottedKey.stops (k : DottedKey) {c : Char} (hc : isKeyStart c = false) (rest : List Char) :
    Stops (· = c) (k.text ++ rest) := by
  obtain ⟨d, cs, htext, hd⟩ := k.exists_text_eq_cons
  rw [htext]
  refine stops_cons.mpr (decide_eq_false ?_)
  rintro rfl
  rw [hd] at hc
  cases hc

/-- The text of a header with its brackets is read, with its place. -/
theorem bracketed_text (h : HeaderLine) (hkey : h.key.parts < depthLimit) (rest : List Char) :
    spanned (do
      expect '['
      let doubled ← accept '['
      let parts ← key
      expect ']'
      if doubled then expect ']'
      return (doubled, parts) : Scan (Bool × List Key)) (h.bracketed ++ rest) =
      some (((h.doubled, h.key.path (h.closing.length + rest.length) ++
        [h.key.final (h.closing.length + rest.length)]),
        ⟨h.bracketed.length + rest.length, rest.length⟩), rest) := by
  apply spanned_of_some
  cases hdoubled : h.doubled with
  | true =>
      have hread := key_text h.key hkey h.inner (Or.inr rfl) (']' :: rest)
      have hbracketed : h.bracketed ++ rest =
          '[' :: '[' :: (h.inner.1 ++ (h.key.text ++ ']' :: ']' :: rest)) := by
        simp [HeaderLine.bracketed, HeaderLine.closing, hdoubled]
      have hlength : h.closing.length + rest.length = (']' :: ']' :: rest).length := by
        simp [HeaderLine.closing, hdoubled]
        omega
      rw [hbracketed, hlength, bind_of_some (expect_self _ _), bind_of_some (accept_self _ _),
        bind_of_some hread, bind_of_some (expect_self _ _), if_pos rfl, bind_of_some (expect_self _ _)]
      rfl
  | false =>
      have hread := key_text h.key hkey h.inner (Or.inr rfl) rest
      have hbracketed : h.bracketed ++ rest = '[' :: (h.inner.1 ++ (h.key.text ++ ']' :: rest)) := by
        simp [HeaderLine.bracketed, HeaderLine.closing, hdoubled]
      have hlength : h.closing.length + rest.length = (']' :: rest).length := by
        simp [HeaderLine.closing, hdoubled]
        omega
      have hsingle : Stops (· = '[') (h.inner.1 ++ (h.key.text ++ ']' :: rest)) :=
        blanks_stops h.inner rfl rfl (h.key.stops rfl _)
      rw [hbracketed, hlength, bind_of_some (expect_self _ _),
        bind_of_some (accept_of_ne fun heq => by simpa using hsingle '[' heq), bind_of_some hread,
        bind_of_some (expect_self _ _)]
      rfl

theorem header_text (h : HeaderLine) (hkey : h.key.parts < depthLimit) {rest after : List Char}
    (hrest : EndsLine rest after) :
    header (h.bracketed ++ (h.margin.text ++ rest)) = some (h.header rest.length, after) := by
  rw [Toml.header, bind_of_some (bracketed_text h hkey _)]
  change (lineRest >>= _) _ = _
  rw [bind_of_some (lineRest_margin h.margin hrest), splitLast_append, bind_of_some (lift_some _ _),
    List.length_append]
  rfl

theorem lines_blank (m : Margin) {rest after : List Char} (hrest : EndsLine rest after) {n : Nat}
    {later : List Pair × List Section} (hlater : lines n after = some (later, [])) :
    lines (n + 1) (m.text ++ rest) = some (later, []) := by
  have hend := hrest.atLineEnd
  have hmargin := lineRest_margin ⟨⟨[], by simp⟩, m.comment⟩ hrest
  rw [Margin.text, List.append_assoc, lines,
    bind_of_some (blanks_text m.blanks (commentText_stops m.comment hend)), peek_bind]
  cases hcomment : m.comment with
  | some c =>
      rw [hcomment] at hmargin
      exact (bind_of_some hmargin _).trans hlater
  | none =>
      rw [hcomment] at hmargin
      rcases hrest with ⟨e, rfl⟩ | ⟨rfl, rfl⟩
      · cases e with
        | lf => exact (bind_of_some hmargin _).trans hlater
        | crlf => exact (bind_of_some hmargin _).trans hlater
      · cases n with
        | zero => cases hlater
        | succ n => exact hlater

theorem lines_pair (p : PairLine) (hsound : p.value.Sound) (hkey : p.key.parts < depthLimit)
    (hdepth : p.value.depth < depthLimit) (hmoderate : p.value.Moderate) {rest after : List Char}
    (hrest : EndsLine rest after) {n : Nat} {later : List Pair × List Section}
    (hlater : lines n after = some (later, [])) :
    lines (n + 1) (p.text ++ rest) = some ((p.pair rest.length :: later.1, later.2), []) := by
  have hread := pair_text p hsound hkey hdepth hmoderate hrest
  have htext : p.text ++ rest = p.lead.1 ++ (p.key.text ++ (p.valueText ++ (p.margin.text ++ rest))) := by
    simp [PairLine.text]
  obtain ⟨c, cs, hkeyText, hc⟩ := p.key.exists_text_eq_cons
  have hstops : Stops isBlank (p.key.text ++ (p.valueText ++ (p.margin.text ++ rest))) := by
    rw [hkeyText]
    exact stops_cons.mpr (isBlank_of_isKeyStart hc)
  have hpair : (Toml.pair >>= fun q => lines n >>= fun later => pure (q :: later.1, later.2))
        (p.key.text ++ (p.valueText ++ (p.margin.text ++ rest))) =
        some ((p.pair rest.length :: later.1, later.2), []) := by
    rw [bind_of_some hread, bind_of_some hlater]
    rfl
  rw [htext, lines, bind_of_some (blanks_text p.lead hstops), peek_bind, ← hpair]
  refine congrFun ?_ _
  rw [hkeyText, List.cons_append, List.head?_cons]
  split
  case h_6 => rfl
  all_goals
    rename_i heq
    cases heq
    try cases hc

theorem lines_header (h : HeaderLine) (hkey : h.key.parts < depthLimit) {rest after : List Char}
    (hrest : EndsLine rest after) {n : Nat} {later : List Pair × List Section}
    (hlater : lines n after = some (later, [])) :
    lines (n + 1) (h.text ++ rest) = some (([], ⟨h.header rest.length, later.1⟩ :: later.2), []) := by
  have hread := header_text h hkey hrest
  have htext : h.text ++ rest = h.lead.1 ++ (h.bracketed ++ (h.margin.text ++ rest)) := by
    simp [HeaderLine.text]
  have hstops : Stops isBlank (h.bracketed ++ (h.margin.text ++ rest)) := stops_cons.mpr rfl
  rw [htext, lines, bind_of_some (blanks_text h.lead hstops), peek_bind]
  refine (bind_of_some hread _).trans ?_
  exact bind_of_some hlater _

theorem lines_line (line : Line) (hsound : line.Sound) (hmoderate : line.Moderate) {rest after : List Char}
    (hrest : EndsLine rest after) {n : Nat} {later : List Pair × List Section}
    (hlater : lines n after = some (later, [])) :
    lines (n + 1) (line.text ++ rest) = some (line.add rest.length later, []) := by
  cases line with
  | blank m => exact lines_blank m hrest hlater
  | pair p => exact lines_pair p hsound hmoderate.1 hmoderate.2.1 hmoderate.2.2 hrest hlater
  | header h => exact lines_header h hmoderate hrest hlater

theorem Line.add_of_text_eq_nil {line : Line} (h : line.text = []) (following : Nat)
    (later : List Pair × List Section) : line.add following later = later := by
  cases line with
  | blank m => rfl
  | pair p => simp [Line.text, PairLine.text, PairLine.valueText] at h
  | header h' => simp [Line.text, HeaderLine.text, HeaderLine.bracketed] at h

/-- All lines are read, one round for each, by induction over them. -/
theorem lines_text (ls : List (Line × Newline)) (last : Line)
    (hall : ∀ line ∈ ls.map Prod.fst ++ [last], line.Sound ∧ line.Moderate) :
    ∀ n, (documentText ls last).length < n →
      lines n (documentText ls last) = some (contents ls last, []) := by
  induction ls with
  | nil =>
      intro n hn
      rw [documentText] at hn ⊢
      obtain ⟨hsound, hmoderate⟩ := hall last (by simp)
      obtain ⟨k, rfl⟩ : ∃ k, n = k + 1 := ⟨n - 1, by omega⟩
      by_cases hempty : last.text = []
      · rw [hempty, contents, Line.add_of_text_eq_nil hempty, lines_nil]
      · have hpos : 0 < last.text.length := List.length_pos_iff.mpr hempty
        obtain ⟨j, rfl⟩ : ∃ j, k = j + 1 := ⟨k - 1, by omega⟩
        have hread := lines_line last hsound hmoderate (Or.inr ⟨rfl, rfl⟩) (lines_nil j)
        rwa [List.append_nil] at hread
  | cons entry ls ih =>
      obtain ⟨line, e⟩ := entry
      intro n hn
      have hpos : 0 < e.text.length := by cases e <;> simp [Newline.text]
      rw [documentText, List.length_append, List.length_append] at hn
      obtain ⟨hsound, hmoderate⟩ := hall line (by simp)
      obtain ⟨k, rfl⟩ : ∃ k, n = k + 1 := ⟨n - 1, by omega⟩
      have hlater := ih (fun line hline => hall line (by
        rw [List.map_cons, List.cons_append]
        exact List.mem_cons_of_mem _ hline)) k (by omega)
      exact lines_line line hsound hmoderate (Or.inl ⟨e, rfl⟩) hlater

/-! ### Reading documents -/

theorem Line.stops_mark (line : Line) {rest : List Char} (hrest : Stops (· = '\ufeff') rest) :
    Stops (· = '\ufeff') (line.text ++ rest) := by
  cases line with
  | blank m =>
      rw [Line.text, Margin.text, List.append_assoc]
      refine blanks_stops m.blanks rfl rfl ?_
      cases m.comment with
      | none => exact hrest
      | some c => exact stops_cons.mpr rfl
  | pair p =>
      rw [Line.text, PairLine.text, List.append_assoc, List.append_assoc]
      exact blanks_stops p.lead rfl rfl (p.key.stops rfl _)
  | header h =>
      rw [Line.text, HeaderLine.text, List.append_assoc]
      exact blanks_stops h.lead rfl rfl (stops_cons.mpr rfl)

theorem documentText_stops_mark (ls : List (Line × Newline)) (last : Line) :
    Stops (· = '\ufeff') (documentText ls last) := by
  cases ls with
  | nil =>
      have hstops := last.stops_mark (stops_nil _)
      rwa [List.append_nil] at hstops
  | cons entry ls =>
      exact entry.1.stops_mark (AtLineEnd.stops (Or.inr ⟨entry.2, _, rfl⟩) rfl rfl)

namespace Document

/-- The reader keeps to what it can take: keys of fewer parts than the limit, values less deep, and
numbers not beyond the largest double. -/
def Moderate (d : Document) : Prop :=
  ∀ line ∈ d.allLines, line.Moderate

/-- The table that the pairs and sections of a document make up is that of its text. -/
theorem document_text (d : Document) (hsound : ∀ line ∈ d.allLines, line.Sound) (hmoderate : d.Moderate) :
    document d.text = (d.pairs.foldlM addPair []).bind fun root => d.sections.foldlM addSection root := by
  have hread := lines_text d.lines d.last (fun line hline => ⟨hsound line hline, hmoderate line hline⟩)
    ((documentText d.lines d.last).length + 1) (by omega)
  have hbody : (if d.text.toList.head? = some '\ufeff' then d.text.toList.tail else d.text.toList) =
      documentText d.lines d.last := by
    rw [text, String.toList_ofList]
    cases d.marked with
    | true => rfl
    | false =>
        have hstops := documentText_stops_mark d.lines d.last
        exact if_neg fun heq => by simpa using hstops '\ufeff' heq
  rw [document]
  simp only [hbody, hread]
  rfl

end Document

end ApiSurface.Toml
