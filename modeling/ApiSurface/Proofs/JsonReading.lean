import Mathlib.Tactic.IntervalCases
import ApiSurface.Json.Value
import ApiSurface.Json.Read
import ApiSurface.Proofs.Names

/-! What the readers of JSON make of a text. A reader takes a text if it reads exactly that text,
whatever follows it, and this composes: objects and arrays are taken part by part. The parts may be
laid out with any white space between them, and how a name is spelled does not matter as long as it is
taken, so that nothing here depends on who wrote the text. -/

namespace ApiSurface.Json

/-- The reader reads exactly this text, whatever follows it. -/
def Takes {α : Type} (r : Scan α) (text : List Char) (a : α) : Prop :=
  ∀ rest, r (text ++ rest) = .ok (a, rest)

theorem bind_of_ok {α β : Type} {r : Scan α} {cs ds : List Char} {a : α} (h : r cs = .ok (a, ds))
    (k : α → Scan β) : (r >>= k) cs = k a ds := by
  change Except.bind (r cs) _ = _
  rw [h]
  rfl

theorem bind_of_eq {α β : Type} {r : Scan α} {cs ds : List Char} (h : r cs = r ds)
    (k : α → Scan β) : (r >>= k) cs = (r >>= k) ds := by
  change Except.bind (r cs) _ = Except.bind (r ds) _
  rw [h]

theorem get_bind {α : Type} (k : List Char → Scan α) (cs : List Char) :
    ((get : Scan (List Char)) >>= k) cs = k cs cs := rfl

theorem advance_bind {α : Type} (k : Unit → Scan α) (c : Char) (cs : List Char) :
    (advance >>= k) (c :: cs) = k () cs := rfl

theorem Takes.bind {α β : Type} {r : Scan α} {k : α → Scan β} {cs ds : List Char} {a : α} {b : β}
    (hr : Takes r cs a) (hk : Takes (k a) ds b) : Takes (r >>= k) (cs ++ ds) b := by
  intro rest
  rw [List.append_assoc, bind_of_ok (hr (ds ++ rest)), hk]

theorem takes_pure {α : Type} (a : α) : Takes (pure a) [] a :=
  fun _ => rfl

theorem Takes.map {α β : Type} {r : Scan α} {cs : List Char} {a : α} (hr : Takes r cs a)
    (f : α → β) : Takes (do return f (← r)) cs (f a) := by
  have h := hr.bind (k := fun a => pure (f a)) (takes_pure (f a))
  rwa [List.append_nil] at h

/-! ### White space -/

/-- White space between tokens. -/
def IsBlank (c : Char) : Prop :=
  c = ' ' ∨ c = '\n' ∨ c = '\t' ∨ c = '\r'

instance (c : Char) : Decidable (IsBlank c) :=
  inferInstanceAs (Decidable (_ ∨ _ ∨ _ ∨ _))

/-- A text of white space only. -/
def Blank (cs : List Char) : Prop :=
  ∀ c ∈ cs, IsBlank c

theorem blank_nil : Blank [] := by
  intro c hc
  cases hc

theorem skipBlank_append {b : List Char} (hb : Blank b) (cs : List Char) :
    skipBlank (b ++ cs) = skipBlank cs := by
  induction b with
  | nil => rfl
  | cons c b ih =>
      have hc : IsBlank c := hb c List.mem_cons_self
      rw [List.cons_append, skipBlank, List.dropWhile_cons_of_pos]
      · exact ih fun d hd => hb d (List.mem_cons_of_mem c hd)
      · simpa [IsBlank, or_assoc] using hc

theorem skipBlank_cons {c : Char} (hc : ¬IsBlank c) (cs : List Char) :
    skipBlank (c :: cs) = c :: cs := by
  rw [skipBlank, List.dropWhile_cons_of_neg]
  simpa [IsBlank, or_assoc] using hc

theorem peek_append {b : List Char} (hb : Blank b) {c : Char} (hc : ¬IsBlank c) (cs : List Char) :
    peek (b ++ c :: cs) = .ok (some c, c :: cs) := by
  simp only [peek, skipBlank_append hb, skipBlank_cons hc, List.head?_cons]

theorem peekValue_append {b : List Char} (hb : Blank b) {c : Char} (hc : ¬IsBlank c)
    (cs : List Char) : peekValue (b ++ c :: cs) = .ok (c, c :: cs) := by
  rw [peekValue, bind_of_ok (peek_append hb hc cs)]
  rfl

theorem peek_blank {b : List Char} (hb : Blank b) : peek b = .ok (none, []) := by
  have hskip := skipBlank_append hb []
  rw [List.append_nil] at hskip
  simp only [peek, hskip]
  rfl

/-- White space before a value is passed over. -/
theorem peekValue_bind_append {α : Type} {b : List Char} (hb : Blank b) (k : Char → Scan α)
    (cs : List Char) : (peekValue >>= k) (b ++ cs) = (peekValue >>= k) cs := by
  have hpeek : peek (b ++ cs) = peek cs := by simp only [peek, skipBlank_append hb]
  exact bind_of_eq (bind_of_eq hpeek _) k

theorem Takes.blank {α : Type} {k : Char → Scan α} {text b : List Char} {a : α}
    (h : Takes (peekValue >>= k) text a) (hb : Blank b) : Takes (peekValue >>= k) (b ++ text) a := by
  intro rest
  rw [List.append_assoc, peekValue_bind_append hb, h]

/-! ### Strings -/

theorem hexValue?_hexDigit {n : Nat} (h : n < 16) : hexValue? (hexDigit n) = some n := by
  interval_cases n <;> rfl

theorem byteLength_four (a b c d : Char) (cs : List Char) :
    ¬byteLength (a :: b :: c :: d :: cs) < 4 := by
  have ha := a.utf8Size_pos
  have hb := b.utf8Size_pos
  have hc := c.utf8Size_pos
  have hd := d.utf8Size_pos
  simp only [byteLength]
  omega

/-- A control character is spelled by its code. -/
theorem codeEscape_control {c : Char} (hc : c.toNat < 0x20) (cs : List Char) :
    codeEscape ('0' :: '0' :: hexDigit (c.toNat / 16) :: hexDigit (c.toNat % 16) :: cs) =
      .ok (c, cs) := by
  have hzero : hexValue? '0' = some 0 := rfl
  have hcode : ((0 * 16 + 0) * 16 + c.toNat / 16) * 16 + c.toNat % 16 = c.toNat := by omega
  have hhex : hexEscape ('0' :: '0' :: hexDigit (c.toNat / 16) :: hexDigit (c.toNat % 16) :: cs) =
      .ok (c.toNat, cs) := by
    rw [hexEscape, if_neg (byteLength_four _ _ _ _ _)]
    simp only [hzero, hexValue?_hexDigit (by omega : c.toNat / 16 < 16),
      hexValue?_hexDigit (by omega : c.toNat % 16 < 16), hcode]
  have hlow : (decide (0xDC00 ≤ c.toNat) && decide (c.toNat ≤ 0xDFFF)) = false := by
    simp; omega
  have hhigh : (decide (0xD800 ≤ c.toNat) && decide (c.toNat ≤ 0xDBFF)) = false := by
    simp; omega
  rw [codeEscape, bind_of_ok hhex]
  simp only [hlow, hhigh, Bool.false_eq_true, if_false]
  rw [Char.ofNat_toNat]
  rfl

theorem escaped_simple {c value : Char} (h : simpleEscape? c = some value) (cs : List Char) :
    escaped (c :: cs) = .ok (value, cs) := by
  have hne : c ≠ 'u' := by
    rintro rfl
    cases h
  rw [escaped]
  · rw [h]
  · exact hne

theorem stringBody_backslash (n : Nat) {cs ds : List Char} {c : Char}
    (hescaped : escaped cs = .ok (c, ds)) :
    stringBody (n + 1) ('\\' :: cs) = (do return c :: (← stringBody n) : Scan (List Char)) ds := by
  rw [stringBody, if_neg (by decide), if_pos rfl, bind_of_ok hescaped]

theorem stringBody_plain (n : Nat) {c : Char} (hquote : c ≠ '"') (hback : c ≠ '\\')
    (hcontrol : ¬c.toNat < 0x20) (cs : List Char) :
    stringBody (n + 1) (c :: cs) = (do return c :: (← stringBody n) : Scan (List Char)) cs := by
  rw [stringBody, if_neg hquote, if_neg hback, if_neg hcontrol]

/-- Reading a string undoes the escape of one character. -/
theorem stringBody_escape (n : Nat) (c : Char) (cs : List Char) :
    stringBody (n + 1) (escape c ++ cs) = (do return c :: (← stringBody n) : Scan (List Char)) cs := by
  have hsimple : ∀ d value, simpleEscape? d = some value →
      stringBody (n + 1) (['\\', d] ++ cs) =
        (do return value :: (← stringBody n) : Scan (List Char)) cs :=
    fun d value hd => stringBody_backslash n (escaped_simple hd cs)
  rw [escape]
  split_ifs with hquote hback hnewline hreturn htab hbackspace hfeed hcontrol
  · rw [hsimple '"' '"' rfl, hquote]
  · rw [hsimple '\\' '\\' rfl, hback]
  · rw [hsimple 'n' '\n' rfl, hnewline]
  · rw [hsimple 'r' '\r' rfl, hreturn]
  · rw [hsimple 't' '\t' rfl, htab]
  · rw [hsimple 'b' '\x08' rfl, hbackspace]
  · rw [hsimple 'f' '\x0c' rfl, hfeed]
  · exact stringBody_backslash n (codeEscape_control hcontrol cs)
  · exact stringBody_plain n hquote hback hcontrol cs

theorem stringBody_flatMap_escape (values rest : List Char) {n : Nat} (hn : values.length < n) :
    stringBody n (values.flatMap escape ++ '"' :: rest) = .ok (values, rest) := by
  induction values generalizing n with
  | nil =>
      obtain ⟨m, rfl⟩ : ∃ m, n = m + 1 := ⟨n - 1, by omega⟩
      rw [List.flatMap_nil, List.nil_append, stringBody_quote]
  | cons c values ih =>
      obtain ⟨m, rfl⟩ : ∃ m, n = m + 1 := ⟨n - 1, by omega⟩
      rw [List.flatMap_cons, List.append_assoc, stringBody_escape, bind_of_ok (ih (by simpa using hn))]
      rfl

theorem length_le_flatMap_escape (values : List Char) :
    values.length ≤ (values.flatMap escape).length := by
  induction values with
  | nil => exact Nat.le_refl 0
  | cons c values ih =>
      have hpos : 0 < (escape c).length := by
        rw [escape]
        split_ifs <;> exact Nat.succ_pos _
      rw [List.flatMap_cons, List.length_append, List.length_cons]
      omega

/-- A string that was written is taken, whatever characters it is made of. -/
theorem takes_scanString (text : String) :
    Takes scanString (text.toList.flatMap escape ++ ['"']) text := by
  intro rest
  have hlength := length_le_flatMap_escape text.toList
  rw [List.append_assoc, List.singleton_append]
  have hfuel : text.toList.length < (text.toList.flatMap escape ++ '"' :: rest).length + 1 := by
    rw [List.length_append]
    omega
  have hbody := stringBody_flatMap_escape text.toList rest hfuel
  rw [scanString, get_bind, bind_of_ok hbody, String.ofList_toList]
  rfl

theorem takes_text {body : List Char} {name : String} (h : Takes scanString body name) :
    Takes text ('"' :: body) name := by
  intro rest
  have hpeek := peekValue_append blank_nil (show ¬IsBlank '"' by decide) (body ++ rest)
  rw [text, List.cons_append]
  exact (bind_of_ok hpeek _).trans (h rest)

/-! ### Loops

What stands before a part of an object or array: white space, and from the second part on a comma in
it. -/

/-- What stands before a part. -/
inductive Lead : Bool → List Char → Prop
  | first {b : List Char} (hb : Blank b) : Lead true b
  | next {b b' : List Char} (hb : Blank b) (hb' : Blank b') : Lead false (b ++ ',' :: b')

theorem nextItem_lead {first : Bool} {lead : List Char} (h : Lead first lead) {c : Char}
    (hc : ¬IsBlank c) (hend : c ≠ ']') (cs : List Char) :
    nextItem first (lead ++ c :: cs) = .ok (true, c :: cs) := by
  cases h with
  | first hb =>
      rw [nextItem, bind_of_ok (peek_append hb hc cs)]
      simp only [if_true]
      rfl
  | next hb hb' =>
      rw [nextItem, List.append_assoc, List.cons_append,
        bind_of_ok (peek_append hb (show ¬IsBlank ',' by decide) _)]
      change (advance >>= fun _ => peekValue >>= _) (',' :: _) = _
      rw [advance_bind, bind_of_ok (peekValue_append hb' hc cs)]
      split
      · exact absurd rfl hend
      · rfl

theorem nextItem_end {b : List Char} (hb : Blank b) (first : Bool) (cs : List Char) :
    nextItem first (b ++ ']' :: cs) = .ok (false, ']' :: cs) := by
  rw [nextItem, bind_of_ok (peek_append hb (show ¬IsBlank ']' by decide) cs)]
  rfl

theorem nextField_lead {first : Bool} {lead : List Char} (h : Lead first lead) (cs : List Char) :
    nextField first (lead ++ '"' :: cs) = .ok (true, '"' :: cs) := by
  have hquote : ¬IsBlank '"' := by decide
  cases h with
  | first hb =>
      rw [nextField, bind_of_ok (peek_append hb hquote cs)]
      rfl
  | next hb hb' =>
      rw [nextField, List.append_assoc, List.cons_append,
        bind_of_ok (peek_append hb (show ¬IsBlank ',' by decide) _)]
      change (advance >>= fun _ => peekValue >>= _) (',' :: _) = _
      rw [advance_bind, bind_of_ok (peekValue_append hb' hquote cs)]
      rfl

theorem nextField_end {b : List Char} (hb : Blank b) (first : Bool) (cs : List Char) :
    nextField first (b ++ '\x7d' :: cs) = .ok (false, '\x7d' :: cs) := by
  rw [nextField, bind_of_ok (peek_append hb (show ¬IsBlank '\x7d' by decide) cs)]
  rfl

theorem takes_colon : Takes colon [':'] () := by
  intro rest
  rw [colon]
  exact bind_of_ok (peek_append blank_nil (show ¬IsBlank ':' by decide) rest) _

/-- The rest of an array, up to its end, by which the reader of its items takes one state to
another. -/
inductive ItemsText {σ : Type} (item : σ → Scan σ) : Bool → σ → List Char → σ → Prop
  | done {first : Bool} {s : σ} {b : List Char} (hb : Blank b) :
      ItemsText item first s (b ++ [']']) s
  | more {first : Bool} {s s' t : σ} {lead body tail : List Char} {c : Char}
      (hlead : Lead first lead) (hc : ¬IsBlank c) (hend : c ≠ ']')
      (hitem : Takes (item s) (c :: body) s') (htail : ItemsText item false s' tail t) :
      ItemsText item first s (lead ++ c :: (body ++ tail)) t

/-- The rest of an object, up to its end, by which the reader of its fields takes one state to
another. -/
inductive FieldsText {σ : Type} (field : σ → String → Scan σ) : Bool → σ → List Char → σ → Prop
  | done {first : Bool} {s : σ} {b : List Char} (hb : Blank b) :
      FieldsText field first s (b ++ ['\x7d']) s
  | more {first : Bool} {s s' t : σ} {lead body value tail : List Char} {name : String}
      (hlead : Lead first lead) (hbody : Takes scanString body name)
      (hvalue : Takes (field s name) value s') (htail : FieldsText field false s' tail t) :
      FieldsText field first s (lead ++ '"' :: (body ++ (value ++ tail))) t

/-- One round of the loop reads one item, and the length of the text bounds the rounds. -/
theorem ItemsText.takes {σ : Type} {item : σ → Scan σ} {first : Bool} {s t : σ} {cs : List Char}
    (h : ItemsText item first s cs t) {n : Nat} (hn : cs.length < n) :
    Takes (items item n first s) cs t := by
  induction h generalizing n with
  | @done first s b hb =>
      intro rest
      obtain ⟨m, rfl⟩ : ∃ m, n = m + 1 := ⟨n - 1, by omega⟩
      rw [List.append_assoc, List.singleton_append]
      exact items_of_end (nextItem_end hb first rest)
  | @more first s s' t lead body tail c hlead hc hend hitem _ ih =>
      intro rest
      obtain ⟨m, rfl⟩ : ∃ m, n = m + 1 := ⟨n - 1, by omega⟩
      have hshort : tail.length < m := by
        simp only [List.length_append, List.length_cons] at hn
        omega
      rw [items, List.append_assoc, List.cons_append, bind_of_ok (nextItem_lead hlead hc hend _)]
      simp only [if_true]
      rw [List.append_assoc, ← List.cons_append, bind_of_ok (hitem (tail ++ rest))]
      exact ih hshort rest

theorem FieldsText.takes {σ : Type} {field : σ → String → Scan σ} {first : Bool} {s t : σ}
    {cs : List Char} (h : FieldsText field first s cs t) {n : Nat} (hn : cs.length < n) :
    Takes (fields field n first s) cs t := by
  induction h generalizing n with
  | @done first s b hb =>
      intro rest
      obtain ⟨m, rfl⟩ : ∃ m, n = m + 1 := ⟨n - 1, by omega⟩
      rw [List.append_assoc, List.singleton_append]
      exact fields_of_end (nextField_end hb first rest)
  | @more first s s' t lead body value tail name hlead hbody hvalue _ ih =>
      intro rest
      obtain ⟨m, rfl⟩ : ∃ m, n = m + 1 := ⟨n - 1, by omega⟩
      have hshort : tail.length < m := by
        simp only [List.length_append, List.length_cons] at hn
        omega
      rw [fields, List.append_assoc, List.cons_append, bind_of_ok (nextField_lead hlead _)]
      simp only [if_true]
      rw [advance_bind, List.append_assoc, bind_of_ok (hbody _), List.append_assoc,
        bind_of_ok (hvalue _)]
      exact ih hshort rest

/-! ### Whole values -/

/-- The loop over the items of an array takes it from its opening bracket on. -/
theorem ItemsText.takes_opened {σ : Type} {item : σ → Scan σ} {s t : σ} {cs : List Char}
    (h : ItemsText item true s cs t) :
    Takes (do advance; items item ((← get).length + 1) true s) ('[' :: cs) t := by
  intro rest
  have hlength : cs.length < (cs ++ rest).length + 1 := by
    rw [List.length_append]
    omega
  exact h.takes hlength rest

/-- The loop over the fields of an object takes it from its opening brace on. -/
theorem FieldsText.takes_opened {σ : Type} {field : σ → String → Scan σ} {s t : σ} {cs : List Char}
    (h : FieldsText field true s cs t) :
    Takes (do advance; fields field ((← get).length + 1) true s) ('\x7b' :: cs) t := by
  intro rest
  have hlength : cs.length < (cs ++ rest).length + 1 := by
    rw [List.length_append]
    omega
  exact h.takes hlength rest

theorem peekValue_brace {α : Type} (k : Char → Scan α) (cs : List Char) :
    (peekValue >>= k) ('\x7b' :: cs) = k '\x7b' ('\x7b' :: cs) :=
  bind_of_ok (peekValue_append blank_nil (show ¬IsBlank '\x7b' by decide) cs) k

theorem peekValue_bracket {α : Type} (k : Char → Scan α) (cs : List Char) :
    (peekValue >>= k) ('[' :: cs) = k '[' ('[' :: cs) :=
  bind_of_ok (peekValue_append blank_nil (show ¬IsBlank '[' by decide) cs) k

theorem takes_names {cs : List Char} {s : NameSet}
    (h : ItemsText (fun s => return s.insert (← text)) true ∅ cs s) : Takes names ('[' :: cs) s :=
  fun rest => (peekValue_bracket _ _).trans (h.takes_opened rest)

theorem takes_map {α : Type} {value : Scan α} {cs : List Char} {m : NameMap α}
    (h : FieldsText (fun m name => do colon; return m.insert name (← value)) true ∅ cs m) :
    Takes (map value) ('\x7b' :: cs) m :=
  fun rest => (peekValue_brace _ _).trans (h.takes_opened rest)

/-- A text that a reader takes, with nothing after it but white space, is read as a whole. -/
theorem readText_of_takes {α : Type} {value : Scan α} {cs b : List Char} {a : α}
    (h : Takes value cs a) (hb : Blank b) : readText value (String.ofList (cs ++ b)) = .ok a := by
  rw [readText, String.toList_ofList]
  rw [bind_of_ok (h b), bind_of_ok (peek_blank hb)]
  rfl

end ApiSurface.Json
