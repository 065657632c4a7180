import ApiSurface.Proofs.TomlStrings

/-! The strings of TOML in three quotes, which may go over several lines, and with them strings of any
form: what each stands for, and that the reader agrees. -/

namespace ApiSurface.Toml

open Scan

/-! ### Strings over several lines -/

theorem takeWhile_quotes {quote : Char} (q : Nat) {cs : List Char} (hcs : Stops (· = quote) cs) :
    (List.replicate q quote ++ cs).takeWhile (· = quote) = List.replicate q quote := by
  have hall : ∀ c ∈ List.replicate q quote, decide (c = quote) = true := by simp
  exact congrArg Prod.fst (Option.some.inj (takeWhile_append hall hcs))

/-- The end of a string in three quotes, with the quotes right before it. -/
theorem closing?_end {quote : Char} (q : Fin 3) {rest : List Char} (hrest : Stops (· = quote) rest) :
    closing? quote (List.replicate (q + 3) quote ++ rest) =
      some (some (List.replicate q quote), rest) := by
  have hinside : min 2 (q.1 + 3 - 3) = q := by omega
  rw [closing?, takeWhile_quotes _ hrest, List.length_replicate, if_neg (by omega), hinside]
  change some (some (List.replicate q quote), _) = _
  rw [List.drop_left' List.length_replicate]

/-- Fewer than three quotes do not end it. -/
theorem closing?_of_stops {quote : Char} {q : Nat} (hq : q < 3) {cs : List Char}
    (hcs : Stops (· = quote) cs) :
    closing? quote (List.replicate q quote ++ cs) = some (none, List.replicate q quote ++ cs) := by
  rw [closing?, takeWhile_quotes q hcs, List.length_replicate, if_pos hq]

theorem closing?_none {quote : Char} {cs : List Char} (hcs : Stops (· = quote) cs) :
    closing? quote cs = some (none, cs) :=
  closing?_of_stops (q := 0) (by omega) hcs

/-- A reader that takes single quotes takes a few in a row. -/
theorem quotes_read {quote : Char} {body : Nat → Scan (List Char)}
    (hbody : ∀ {n : Nat} {cs xs rest : List Char},
      closing? quote (quote :: cs) = some (none, quote :: cs) → body n cs = some (xs, rest) →
        body (n + 1) (quote :: cs) = some (quote :: xs, rest))
    {n : Nat} {cs xs rest : List Char} (hcs : Stops (· = quote) cs) (h : body n cs = some (xs, rest)) :
    ∀ q < 3, body (n + q) (List.replicate q quote ++ cs) = some (List.replicate q quote ++ xs, rest) := by
  intro q
  induction q with
  | zero => exact fun _ => h
  | succ q ih =>
      intro hq
      exact hbody (closing?_of_stops hq hcs) (ih (by omega))

/-- A string in three quotes, by its pieces. Up to two quotes may stand before each piece and at the
end. -/
structure Multiline (π : Type) where
  chunks : List (Fin 3 × π)
  last : Fin 3

def chunksText {π : Type} (quote : Char) (pieceText : π → List Char) (chunks : List (Fin 3 × π)) : List Char :=
  chunks.flatMap fun chunk => List.replicate chunk.1 quote ++ pieceText chunk.2

/-- The text after the three opening quotes. -/
def Multiline.text {π : Type} (quote : Char) (pieceText : π → List Char) (s : Multiline π) : List Char :=
  chunksText quote pieceText s.chunks ++ List.replicate (s.last + 3) quote

/-! ### Strings in three double quotes -/

/-- A piece of a string in three double quotes. -/
inductive Piece where
  | mark (m : Mark)
  | newline (e : Newline)
  /-- A backslash at the end of a line. -/
  | continuation (b : Blanks) (e : Newline)

namespace Piece

def text : Piece → List Char
  | mark m => m.text
  | newline e => e.text
  | continuation b e => '\\' :: (b.1 ++ e.text)

/-- The piece is a blank or a line end. -/
def isSpace : Piece → Bool
  | mark (.plain c _) => isBlank c
  | mark (.escape _) => false
  | newline _ => true
  | continuation .. => false

/-- The blanks and line ends that follow do not count. -/
def trims : Piece → Bool
  | mark _ => false
  | newline _ => false
  | continuation .. => true

/-- What the piece stands for by itself. Every line end counts as the shorter one. -/
def chars : Piece → List Char
  | mark m => [m.char]
  | newline _ => ['\n']
  | continuation .. => []

end Piece

/-- What the pieces stand for, perhaps after blanks and line ends that do not count. -/
def characters : Bool → List (Fin 3 × Piece) → List Char
  | _, [] => []
  | trimming, (q, p) :: chunks =>
    if trimming && q = 0 && p.isSpace then
      characters true chunks
    else
      List.replicate q '"' ++ (p.chars ++ characters p.trims chunks)

/-- The text that is left of a text after which blanks and line ends count or do not. -/
def trimmed (trimming : Bool) (cs : List Char) : List Char :=
  if trimming then dropLines cs else cs

theorem dropLines_of_stops {cs : List Char} (h : Stops (fun c => isBlank c || c = '\n' || c = '\r') cs) :
    dropLines cs = cs := by
  cases cs with
  | nil => rfl
  | cons c cs =>
      have hc := stops_cons.mp h
      simp only [Bool.or_eq_false_iff, decide_eq_false_iff_not] at hc
      rw [dropLines, if_neg (by simp [hc])]
      rintro tail rfl
      exact absurd rfl hc.2

theorem dropLines_newline (e : Newline) (cs : List Char) : dropLines (e.text ++ cs) = dropLines cs := by
  cases e with
  | lf => exact if_pos rfl
  | crlf => rfl

theorem continuation_text (b : Blanks) (e : Newline) (cs : List Char) :
    continuation (b.1 ++ (e.text ++ cs)) = some (true, dropLines cs) := by
  have hend : AtLineEnd (e.text ++ cs) := Or.inr ⟨e, cs, rfl⟩
  have hread : (do blanks; newline : Scan Bool) (b.1 ++ (e.text ++ cs)) = some (true, cs) := by
    rw [bind_of_some (blanks_text b (hend.stops rfl rfl)), newline_text]
  rw [continuation, hread]

theorem Escape.exists_text_eq_cons (e : Escape) :
    ∃ c cs, e.text = c :: cs ∧ isBlank c = false ∧ c ≠ '\n' ∧ c ≠ '\r' := by
  cases e with
  | short s => cases s <;> exact ⟨_, [], rfl, rfl, by decide, by decide⟩
  | code u => exact ⟨'u', _, rfl, rfl, by decide, by decide⟩
  | longCode u => exact ⟨'U', _, rfl, rfl, by decide, by decide⟩

theorem continuation_escape (e : Escape) (cs : List Char) :
    continuation (e.text ++ cs) = some (false, e.text ++ cs) := by
  obtain ⟨c, tail, htext, hblank, hlf, hcr⟩ := e.exists_text_eq_cons
  rw [htext, List.cons_append]
  have hblanks : blanks (c :: (tail ++ cs)) = some ((), c :: (tail ++ cs)) :=
    blanks_text ⟨[], by simp⟩ (stops_cons.mpr hblank)
  have hread : (do blanks; newline : Scan Bool) (c :: (tail ++ cs)) = some (false, c :: (tail ++ cs)) := by
    rw [bind_of_some hblanks, newline_of_stops (stops_cons.mpr (by simp [hlf, hcr]))]
  rw [continuation, hread]

theorem multilineBasicBody_quote {n : Nat} {cs xs rest : List Char}
    (hopen : closing? '"' ('"' :: cs) = some (none, '"' :: cs))
    (h : multilineBasicBody n cs = some (xs, rest)) :
    multilineBasicBody (n + 1) ('"' :: cs) = some ('"' :: xs, rest) := by
  rw [multilineBasicBody, run_of_stops (stops_cons.mpr rfl), bind_of_some hopen]
  change (accept '"' >>= _) _ = _
  rw [bind_of_some (accept_self _ _), if_pos rfl, bind_of_some h]
  rfl

theorem multilineBasicBody_end (q : Fin 3) {rest : List Char} (hrest : Stops (· = '"') rest) (n : Nat) :
    multilineBasicBody (n + 1) (List.replicate (q + 3) '"' ++ rest) = some (List.replicate q '"', rest) :=
  multilineBasicBody_of_closing (closing?_end q hrest)

theorem multilineBasicBody_newline (e : Newline) {n : Nat} {cs xs rest : List Char}
    (h : multilineBasicBody n cs = some (xs, rest)) :
    multilineBasicBody (n + 1) (e.text ++ cs) = some ('\n' :: xs, rest) := by
  have hend : AtLineEnd (e.text ++ cs) := Or.inr ⟨e, cs, rfl⟩
  have hquote : Stops (· = '"') (e.text ++ cs) := hend.stops rfl rfl
  rw [multilineBasicBody, run_of_stops (hend.stops rfl rfl),
    bind_of_some (closing?_none hquote)]
  change (accept '"' >>= _) (e.text ++ cs) = _
  rw [bind_of_some (accept_of_ne fun heq => by simpa using hquote '"' heq), if_neg Bool.false_ne_true,
    bind_of_some (newline_text e cs), if_pos rfl, bind_of_some h]
  rfl

theorem multilineBasicBody_backslash (n : Nat) (cs : List Char) :
    multilineBasicBody (n + 1) ('\\' :: cs) =
      (do
        if ← continuation then multilineBasicBody n
        else return (← escaped) :: (← multilineBasicBody n) : Scan (List Char)) cs := by
  have hquote : Stops (· = '"') ('\\' :: cs) := stops_cons.mpr rfl
  rw [multilineBasicBody, run_of_stops (stops_cons.mpr rfl),
    bind_of_some (closing?_none hquote)]
  change (accept '"' >>= _) ('\\' :: cs) = _
  rw [bind_of_some (accept_of_ne (by simp)), if_neg Bool.false_ne_true,
    bind_of_some (newline_of_stops (stops_cons.mpr rfl)), if_neg Bool.false_ne_true,
    bind_of_some (expect_self _ _)]

/-- A piece is read, and then what follows it. Only a piece that stands for itself costs no round. -/
theorem multilineBasicBody_piece (p : Piece) {m : Nat} {cs xs rest : List Char}
    (h : ∀ n, m ≤ n → multilineBasicBody (n + 1) (trimmed p.trims cs) = some (xs, rest)) :
    ∀ n, p.text.length + m ≤ n → multilineBasicBody (n + 1) (p.text ++ cs) = some (p.chars ++ xs, rest) := by
  intro n hn
  match p, h, hn with
  | .mark (.plain c hc), h, hn =>
      have hread := h n (by omega)
      rw [multilineBasicBody] at hread ⊢
      exact run_cons hc hread
  | .mark (.escape e), h, hn =>
      simp only [Piece.text, Mark.text, List.length_cons] at hn
      obtain ⟨k, rfl⟩ : ∃ k, n = k + 1 := ⟨n - 1, by omega⟩
      have hread : multilineBasicBody (k + 1) cs = some (xs, rest) := h k (by omega)
      change multilineBasicBody (k + 1 + 1) ('\\' :: (e.text ++ cs)) = _
      rw [multilineBasicBody_backslash, bind_of_some (continuation_escape e cs), if_neg Bool.false_ne_true,
        bind_of_some (escaped_text e cs), bind_of_some hread]
      rfl
  | .newline e, h, hn =>
      have hpos : 0 < e.text.length := by cases e <;> simp [Newline.text]
      simp only [Piece.text] at hn
      obtain ⟨k, rfl⟩ : ∃ k, n = k + 1 := ⟨n - 1, by omega⟩
      exact multilineBasicBody_newline e (h k (by omega))
  | .continuation b e, h, hn =>
      simp only [Piece.text, List.length_cons] at hn
      obtain ⟨k, rfl⟩ : ∃ k, n = k + 1 := ⟨n - 1, by omega⟩
      have hread : multilineBasicBody (k + 1) (dropLines cs) = some (xs, rest) := h k (by omega)
      change multilineBasicBody (k + 1 + 1) ('\\' :: (b.1 ++ e.text ++ cs)) = _
      rw [List.append_assoc, multilineBasicBody_backslash, bind_of_some (continuation_text b e cs), if_pos rfl,
        hread]
      rfl

theorem Piece.stops_quote (p : Piece) (cs : List Char) : Stops (· = '"') (p.text ++ cs) := by
  match p with
  | .mark (.plain c hc) =>
      refine stops_cons.mpr (decide_eq_false ?_)
      rintro rfl
      cases hc
  | .mark (.escape e) => exact stops_cons.mpr rfl
  | .newline e => exact AtLineEnd.stops (Or.inr ⟨e, cs, rfl⟩) rfl rfl
  | .continuation b e => exact stops_cons.mpr rfl

theorem Piece.dropLines_of_isSpace {p : Piece} (h : p.isSpace = true) (cs : List Char) :
    dropLines (p.text ++ cs) = dropLines cs := by
  match p, h with
  | .mark (.plain c hc), h =>
      have hblank : c = ' ' ∨ c = '\t' := by simpa [isSpace, isBlank] using h
      rcases hblank with rfl | rfl
      · exact if_pos rfl
      · exact if_pos rfl
  | .newline e, h => exact dropLines_newline e cs

theorem Piece.dropLines_of_not_isSpace {p : Piece} (h : p.isSpace = false) (cs : List Char) :
    dropLines (p.text ++ cs) = p.text ++ cs := by
  apply dropLines_of_stops
  match p, h with
  | .mark (.plain c hc), h =>
      have hlf : c ≠ '\n' := by rintro rfl; cases hc
      have hcr : c ≠ '\r' := by rintro rfl; cases hc
      have hblank : isBlank c = false := h
      exact stops_cons.mpr (by simp [hblank, hlf, hcr])
  | .mark (.escape e), h => exact stops_cons.mpr rfl
  | .continuation b e, h => exact stops_cons.mpr rfl

theorem trimmed_quote (trimming : Bool) (cs : List Char) : trimmed trimming ('"' :: cs) = '"' :: cs := by
  cases trimming with
  | false => rfl
  | true => exact dropLines_of_stops (stops_cons.mpr rfl)

/-- Blanks and line ends do not count where the pieces stand for nothing. -/
theorem trimmed_chunk (trimming : Bool) (q : Fin 3) (p : Piece) (cs : List Char) :
    trimmed trimming (List.replicate q '"' ++ (p.text ++ cs)) =
      if trimming && q = 0 && p.isSpace then dropLines cs else List.replicate q '"' ++ (p.text ++ cs) := by
  cases trimming with
  | false => rfl
  | true =>
      by_cases hq : q = 0
      · subst hq
        cases hspace : p.isSpace with
        | true => exact p.dropLines_of_isSpace hspace cs
        | false => exact p.dropLines_of_not_isSpace hspace cs
      · obtain ⟨k, hk⟩ : ∃ k, q.1 = k + 1 := ⟨q.1 - 1, by omega⟩
        rw [hk, List.replicate_succ, List.cons_append, trimmed_quote, if_neg (by simp [hq])]

theorem multilineBasicBody_chunks (last : Fin 3) {rest : List Char} (hrest : Stops (· = '"') rest)
    (chunks : List (Fin 3 × Piece)) :
    ∀ trimming n, (chunksText '"' Piece.text chunks).length ≤ n →
      multilineBasicBody (n + 1)
          (trimmed trimming
            (chunksText '"' Piece.text chunks ++ (List.replicate (last + 3) '"' ++ rest))) =
        some (characters trimming chunks ++ List.replicate last '"', rest) := by
  induction chunks with
  | nil =>
      intro trimming n _
      exact (congrArg _ (trimmed_quote trimming _)).trans (multilineBasicBody_end last hrest n)
  | cons chunk chunks ih =>
      obtain ⟨q, p⟩ := chunk
      intro trimming n hn
      have htext : chunksText '"' Piece.text ((q, p) :: chunks) =
          List.replicate q '"' ++ (p.text ++ chunksText '"' Piece.text chunks) := by
        simp [chunksText]
      rw [htext, List.length_append, List.length_append, List.length_replicate] at hn
      rw [htext, List.append_assoc, List.append_assoc, trimmed_chunk, characters]
      split
      · exact ih true n (by omega)
      · obtain ⟨k, rfl⟩ : ∃ k, n = k + q := ⟨n - q, by omega⟩
        have hpiece := multilineBasicBody_piece p (ih p.trims) k (by omega)
        have hquotes := quotes_read multilineBasicBody_quote (p.stops_quote _) hpiece q q.isLt
        rw [show k + q + 1 = k + 1 + q by omega, hquotes]
        simp

/-! ### Strings in three single quotes -/

/-- A piece of a string in three single quotes. -/
inductive LiteralPiece where
  | plain (c : Char) (hc : isLiteralChar c = true)
  | newline (e : Newline)

namespace LiteralPiece

def text : LiteralPiece → List Char
  | plain c _ => [c]
  | newline e => e.text

def char : LiteralPiece → Char
  | plain c _ => c
  | newline _ => '\n'

end LiteralPiece

def literalCharacters (chunks : List (Fin 3 × LiteralPiece)) : List Char :=
  chunks.flatMap fun chunk => List.replicate chunk.1 '\'' ++ [chunk.2.char]

theorem multilineLiteralBody_quote {n : Nat} {cs xs rest : List Char}
    (hopen : closing? '\'' ('\'' :: cs) = some (none, '\'' :: cs))
    (h : multilineLiteralBody n cs = some (xs, rest)) :
    multilineLiteralBody (n + 1) ('\'' :: cs) = some ('\'' :: xs, rest) := by
  rw [multilineLiteralBody, run_of_stops (stops_cons.mpr rfl), bind_of_some hopen]
  change (accept '\'' >>= _) _ = _
  rw [bind_of_some (accept_self _ _), if_pos rfl, bind_of_some h]
  rfl

theorem multilineLiteralBody_end (q : Fin 3) {rest : List Char} (hrest : Stops (· = '\'') rest) (n : Nat) :
    multilineLiteralBody (n + 1) (List.replicate (q + 3) '\'' ++ rest) =
      some (List.replicate q '\'', rest) :=
  multilineLiteralBody_of_closing (closing?_end q hrest)

theorem multilineLiteralBody_piece (p : LiteralPiece) {m : Nat} {cs xs rest : List Char}
    (h : ∀ n, m ≤ n → multilineLiteralBody (n + 1) cs = some (xs, rest)) :
    ∀ n, p.text.length + m ≤ n →
      multilineLiteralBody (n + 1) (p.text ++ cs) = some (p.char :: xs, rest) := by
  intro n hn
  cases p with
  | plain c hc =>
      have hread := h n (by omega)
      rw [multilineLiteralBody] at hread ⊢
      exact run_cons hc hread
  | newline e =>
      have hpos : 0 < e.text.length := by cases e <;> simp [Newline.text]
      have hend : AtLineEnd (e.text ++ cs) := Or.inr ⟨e, cs, rfl⟩
      have hquote : Stops (· = '\'') (e.text ++ cs) := hend.stops rfl rfl
      simp only [LiteralPiece.text] at hn
      obtain ⟨k, rfl⟩ : ∃ k, n = k + 1 := ⟨n - 1, by omega⟩
      change multilineLiteralBody (k + 1 + 1) (e.text ++ cs) = _
      rw [multilineLiteralBody, run_of_stops (hend.stops rfl rfl), bind_of_some (closing?_none hquote)]
      change (accept '\'' >>= _) (e.text ++ cs) = _
      rw [bind_of_some (accept_of_ne fun heq => by simpa using hquote '\'' heq), if_neg Bool.false_ne_true,
        bind_of_some (newline_text e cs), if_pos rfl, bind_of_some (h k (by omega))]
      rfl

theorem LiteralPiece.stops_quote (p : LiteralPiece) (cs : List Char) : Stops (· = '\'') (p.text ++ cs) := by
  cases p with
  | plain c hc =>
      refine stops_cons.mpr (decide_eq_false ?_)
      rintro rfl
      cases hc
  | newline e => exact AtLineEnd.stops (Or.inr ⟨e, cs, rfl⟩) rfl rfl

theorem multilineLiteralBody_chunks (last : Fin 3) {rest : List Char} (hrest : Stops (· = '\'') rest)
    (chunks : List (Fin 3 × LiteralPiece)) :
    ∀ n, (chunksText '\'' LiteralPiece.text chunks).length ≤ n →
      multilineLiteralBody (n + 1)
          (chunksText '\'' LiteralPiece.text chunks ++ (List.replicate (last + 3) '\'' ++ rest)) =
        some (literalCharacters chunks ++ List.replicate last '\'', rest) := by
  induction chunks with
  | nil => exact fun n _ => multilineLiteralBody_end last hrest n
  | cons chunk chunks ih =>
      obtain ⟨q, p⟩ := chunk
      intro n hn
      have htext : chunksText '\'' LiteralPiece.text ((q, p) :: chunks) =
          List.replicate q '\'' ++ (p.text ++ chunksText '\'' LiteralPiece.text chunks) := by
        simp [chunksText]
      rw [htext, List.length_append, List.length_append, List.length_replicate] at hn
      obtain ⟨k, rfl⟩ : ∃ k, n = k + q := ⟨n - q, by omega⟩
      have hpiece := multilineLiteralBody_piece p ih k (by omega)
      have hquotes := quotes_read multilineLiteralBody_quote (p.stops_quote _) hpiece q q.isLt
      rw [htext, List.append_assoc, List.append_assoc, show k + q + 1 = k + 1 + q by omega, hquotes]
      simp [literalCharacters]

/-! ### Strings of any form -/

/-- The pieces that count: a line end right after the opening quotes does not. -/
def counted {π : Type} (isLineEnd : π → Bool) : List (Fin 3 × π) → List (Fin 3 × π)
  | [] => []
  | (q, p) :: chunks => if q = 0 && isLineEnd p then chunks else (q, p) :: chunks

def Piece.isLineEnd : Piece → Bool
  | newline _ => true
  | _ => false

def LiteralPiece.isLineEnd : LiteralPiece → Bool
  | newline _ => true
  | _ => false

/-- A string, with its quotes. -/
inductive Quotation where
  | line (s : LineString)
  | multilineBasic (s : Multiline Piece)
  | multilineLiteral (s : Multiline LiteralPiece)

namespace Quotation

def text : Quotation → List Char
  | line s => s.text
  | multilineBasic s => List.replicate 3 '"' ++ s.text '"' Piece.text
  | multilineLiteral s => List.replicate 3 '\'' ++ s.text '\'' LiteralPiece.text

/-- What the string stands for. -/
def value : Quotation → String
  | line s => s.value
  | multilineBasic s =>
    String.ofList (characters false (counted Piece.isLineEnd s.chunks) ++ List.replicate s.last '"')
  | multilineLiteral s =>
    String.ofList
      (literalCharacters (counted LiteralPiece.isLineEnd s.chunks) ++ List.replicate s.last '\'')

end Quotation

theorem newline_quote {quote : Char} (hquote : quote ≠ '\n' ∧ quote ≠ '\r') (cs : List Char) :
    newline (quote :: cs) = some (false, quote :: cs) :=
  newline_of_stops (stops_cons.mpr (by simp [hquote]))

theorem newline_chunks {π : Type} (quote : Char) {pieceText : π → List Char} {isLineEnd : π → Bool}
    (hquote : quote ≠ '\n' ∧ quote ≠ '\r')
    (hpiece : ∀ p cs, newline (pieceText p ++ cs) =
      some (isLineEnd p, if isLineEnd p then cs else pieceText p ++ cs))
    (chunks : List (Fin 3 × π)) (cs : List Char) :
    ∃ found, newline (chunksText quote pieceText chunks ++ quote :: cs) =
      some (found, chunksText quote pieceText (counted isLineEnd chunks) ++ quote :: cs) := by
  cases chunks with
  | nil => exact ⟨false, newline_quote hquote cs⟩
  | cons chunk chunks =>
      obtain ⟨q, p⟩ := chunk
      have htext : chunksText quote pieceText ((q, p) :: chunks) ++ quote :: cs =
          List.replicate q quote ++ (pieceText p ++ (chunksText quote pieceText chunks ++ quote :: cs)) := by
        simp [chunksText]
      by_cases hq : q = 0
      · subst hq
        refine ⟨isLineEnd p, ?_⟩
        rw [htext, counted]
        refine (hpiece p _).trans ?_
        cases hend : isLineEnd p with
        | true => simp
        | false => simp [chunksText]
      · obtain ⟨k, hk⟩ : ∃ k, q.1 = k + 1 := ⟨q.1 - 1, by omega⟩
        refine ⟨false, ?_⟩
        rw [counted, if_neg (by simp [hq]), htext, hk, List.replicate_succ, List.cons_append]
        exact newline_quote hquote _

theorem Piece.newline_text (p : Piece) (cs : List Char) :
    Toml.newline (p.text ++ cs) = some (p.isLineEnd, if p.isLineEnd then cs else p.text ++ cs) := by
  match p with
  | .mark (.plain c hc) =>
      have hlf : c ≠ '\n' := by rintro rfl; cases hc
      have hcr : c ≠ '\r' := by rintro rfl; cases hc
      exact newline_quote ⟨hlf, hcr⟩ cs
  | .mark (.escape e) => exact newline_quote (by decide) _
  | .newline e => exact Toml.newline_text e cs
  | .continuation b e => exact newline_quote (by decide) _

theorem LiteralPiece.newline_text (p : LiteralPiece) (cs : List Char) :
    Toml.newline (p.text ++ cs) = some (p.isLineEnd, if p.isLineEnd then cs else p.text ++ cs) := by
  cases p with
  | plain c hc =>
      have hlf : c ≠ '\n' := by rintro rfl; cases hc
      have hcr : c ≠ '\r' := by rintro rfl; cases hc
      exact newline_quote ⟨hlf, hcr⟩ cs
  | newline e => exact Toml.newline_text e cs

/-- A string on one line does not begin like one over several lines. -/
theorem LineString.not_three_quotes (s : LineString) {rest : List Char}
    (hrest : Stops (fun c => c = '"' || c = '\'') rest) :
    ¬['"', '"', '"'] <+: s.text ++ rest ∧ ¬['\'', '\'', '\''] <+: s.text ++ rest := by
  have hquote : rest.head? ≠ some '"' := fun heq => by simpa using hrest '"' heq
  have hapostrophe : rest.head? ≠ some '\'' := fun heq => by simpa using hrest '\'' heq
  constructor
  · rintro ⟨tail, heq⟩
    match s with
    | .literal l => cases heq
    | .basic [] => exact hquote (by cases heq; rfl)
    | .basic (.plain c hc :: marks) =>
        obtain ⟨rfl, -⟩ := List.cons.inj (List.cons.inj heq).2
        cases hc
    | .basic (.escape e :: marks) => cases heq
  · rintro ⟨tail, heq⟩
    match s with
    | .basic marks => cases heq
    | .literal ⟨[], _⟩ => exact hapostrophe (by cases heq; rfl)
    | .literal ⟨c :: cs, hcs⟩ =>
        obtain ⟨rfl, -⟩ := List.cons.inj (List.cons.inj heq).2
        cases hcs _ List.mem_cons_self

/-- Every string is read as what it stands for, if no quote follows it. -/
theorem scanString_text (s : Quotation) {rest : List Char}
    (hrest : Stops (fun c => c = '"' || c = '\'') rest) :
    scanString (s.text ++ rest) = some (s.value, rest) := by
  cases s with
  | line s =>
      have hquotes : ¬"\"\"\"".toList <+: s.text ++ rest := (s.not_three_quotes hrest).1
      have hapostrophes : ¬"'''".toList <+: s.text ++ rest := (s.not_three_quotes hrest).2
      change scanString (s.text ++ rest) = _
      rw [scanString, bind_of_some (acceptText_of_not hquotes), if_neg Bool.false_ne_true,
        bind_of_some (acceptText_of_not hapostrophes), if_neg Bool.false_ne_true]
      exact lineString_text s rest
  | multilineBasic s =>
      have hquote : Stops (· = '"') rest := hrest.imp fun c hc => by simpa using Or.inl hc
      have htext : (Quotation.multilineBasic s).text ++ rest = "\"\"\"".toList ++
          (chunksText '"' Piece.text s.chunks ++ '"' :: (List.replicate (s.last + 2) '"' ++ rest)) := by
        simp [Quotation.text, Multiline.text, List.replicate_succ]
      obtain ⟨found, hnewline⟩ := newline_chunks '"' (by decide) Piece.newline_text s.chunks
        (List.replicate (s.last + 2) '"' ++ rest)
      have hbody := multilineBasicBody_chunks s.last hquote (counted Piece.isLineEnd s.chunks) false
      rw [htext, scanString, bind_of_some (acceptText_append _ _), if_pos rfl, bind_of_some hnewline, get_bind]
      exact bind_of_some (hbody _ (by simp)) _
  | multilineLiteral s =>
      have hquote : Stops (· = '\'') rest := hrest.imp fun c hc => by simpa using Or.inr hc
      have htext : (Quotation.multilineLiteral s).text ++ rest = "'''".toList ++
          (chunksText '\'' LiteralPiece.text s.chunks ++
            '\'' :: (List.replicate (s.last + 2) '\'' ++ rest)) := by
        simp [Quotation.text, Multiline.text, List.replicate_succ]
      obtain ⟨found, hnewline⟩ := newline_chunks '\'' (by decide) LiteralPiece.newline_text s.chunks
        (List.replicate (s.last + 2) '\'' ++ rest)
      have hbody := multilineLiteralBody_chunks s.last hquote (counted LiteralPiece.isLineEnd s.chunks)
      rw [htext, scanString, bind_of_some (acceptText_of_not (by rintro ⟨tail, heq⟩; cases heq)),
        if_neg Bool.false_ne_true, bind_of_some (acceptText_append _ _), if_pos rfl, bind_of_some hnewline,
        get_bind]
      exact bind_of_some (hbody _ (by simp)) _

end ApiSurface.Toml
