import ApiSurface.Proofs.JsonSpelling

/-! Any JSON value is passed over as a whole, whatever it is made of and however deep. Numbers have no
end of their own, so what follows a value matters, and the rounds are bounded by the length of the
text. -/

namespace ApiSurface.Json

/-! ### Numbers -/

/-- What may follow a value: white space, the end of what holds it or a comma there, or nothing. -/
def Ends : List Char → Prop
  | [] => True
  | c :: _ => IsBlank c ∨ c = ',' ∨ c = ']' ∨ c = '\x7d'

/-- No number goes on here. -/
def Stops (cs : List Char) : Prop :=
  ∀ c ∈ cs.head?, c.isDigit = false ∧ c ≠ '.' ∧ c ≠ 'e' ∧ c ≠ 'E'

theorem Ends.stops {cs : List Char} (h : Ends cs) : Stops cs := by
  cases cs with
  | nil => simp [Stops]
  | cons c cs =>
      intro d hd
      cases hd
      rcases h with (rfl | rfl | rfl | rfl) | rfl | rfl | rfl <;> decide

theorem ne_of_isDigit {c d : Char} (hc : c.isDigit = true) (hd : d.isDigit = false) : c ≠ d := by
  rintro rfl
  rw [hc] at hd
  cases hd

theorem Digits.dropWhile_append (d : Digits) {cs : List Char}
    (h : ∀ c ∈ cs.head?, c.isDigit = false) : (d.text ++ cs).dropWhile Char.isDigit = cs := by
  rw [List.dropWhile_append_of_pos (List.all_eq_true.mp d.isDigit)]
  cases cs with
  | nil => rfl
  | cons c cs => rw [List.dropWhile_cons_of_neg (by simp [h c rfl])]

theorem Digits.takeWhile_append (d : Digits) {cs : List Char}
    (h : ∀ c ∈ cs.head?, c.isDigit = false) : (d.text ++ cs).takeWhile Char.isDigit = d.text := by
  rw [List.takeWhile_append_of_pos (List.all_eq_true.mp d.isDigit)]
  cases cs with
  | nil => rw [List.takeWhile_nil, List.append_nil]
  | cons c cs => rw [List.takeWhile_cons_of_neg (by simp [h c rfl]), List.append_nil]

theorem Digits.exists_cons (d : Digits) : ∃ c cs, d.text = c :: cs ∧ c.isDigit = true := by
  cases htext : d.text with
  | nil => exact absurd htext d.ne_nil
  | cons c cs =>
      have hc : c ∈ d.text := by
        rw [htext]
        exact List.mem_cons_self
      exact ⟨c, cs, rfl, List.all_eq_true.mp d.isDigit c hc⟩

theorem skipExponent_size (e : Exponent) {rest : List Char} (h : Stops rest) :
    skipExponent (e.size ++ rest) = .ok ((), rest) := by
  obtain ⟨c, cs, htext, hc⟩ := e.digits.exists_cons
  have hdrop := e.digits.dropWhile_append fun d hd => (h d hd).1
  rw [htext, List.cons_append] at hdrop
  have hplus : c ≠ '+' := ne_of_isDigit hc (by decide)
  have hminus : c ≠ '-' := ne_of_isDigit hc (by decide)
  rw [Exponent.size, htext]
  split <;> simp [skipExponent, hc, hdrop, hplus, hminus]

theorem Exponent.head_text (e : Exponent) (rest : List Char) :
    ∀ c ∈ (e.text ++ rest).head?, c.isDigit = false := by
  intro c hc
  rw [Exponent.text] at hc
  cases hc
  split <;> decide

theorem skipAfterWhole_tail (n : Numeral) {rest : List Char} (h : Stops rest) :
    skipAfterWhole (n.tail ++ rest) = .ok ((), rest) := by
  have hrest : ∀ c ∈ rest.head?, c.isDigit = false := fun d hd => (h d hd).1
  have hpoint : rest.head? ≠ some '.' := fun hhead => (h _ hhead).2.1 rfl
  have hsmall : rest.head? ≠ some 'e' := fun hhead => (h _ hhead).2.2.1 rfl
  have hlarge : rest.head? ≠ some 'E' := fun hhead => (h _ hhead).2.2.2 rfl
  rw [Numeral.tail]
  cases n.fraction with
  | none =>
      cases n.exponent with
      | none =>
          change skipAfterWhole rest = _
          rw [skipAfterWhole]
          · rintro cs rfl
            exact hpoint rfl
          · rintro cs rfl
            exact hsmall rfl
          · rintro cs rfl
            exact hlarge rfl
      | some e =>
          change skipAfterWhole (e.text ++ rest) = _
          rw [Exponent.text]
          cases e.upper <;> exact skipExponent_size e h
  | some d =>
      cases n.exponent with
      | none =>
          change skipAfterWhole ('.' :: (d.text ++ [] ++ rest)) = _
          rw [List.append_nil, skipAfterWhole, d.takeWhile_append hrest, d.dropWhile_append hrest]
          split
          · exact absurd ‹_› d.ne_nil
          · exact absurd rfl hsmall
          · exact absurd rfl hlarge
          · rfl
      | some e =>
          change skipAfterWhole ('.' :: (d.text ++ e.text ++ rest)) = _
          rw [List.append_assoc, skipAfterWhole, d.takeWhile_append (e.head_text rest),
            d.dropWhile_append (e.head_text rest), Exponent.text]
          obtain ⟨c, cs, hd, -⟩ := d.exists_cons
          rw [hd]
          cases e.upper <;> exact skipExponent_size e h

theorem Numeral.head_tail (n : Numeral) {rest : List Char} (h : Stops rest) :
    ∀ c ∈ (n.tail ++ rest).head?, c.isDigit = false := by
  intro c hc
  rw [Numeral.tail] at hc
  cases hfraction : n.fraction with
  | none =>
      cases hexponent : n.exponent with
      | none =>
          rw [hfraction, hexponent] at hc
          exact (h c hc).1
      | some e =>
          rw [hfraction, hexponent] at hc
          exact e.head_text rest c hc
  | some d =>
      rw [hfraction] at hc
      cases hc
      rfl

theorem skipNumber_unsigned (n : Numeral) {rest : List Char} (h : Stops rest) :
    skipNumber (n.unsigned ++ rest) = .ok ((), rest) := by
  have hhead := n.head_tail h
  obtain ⟨c, cs, htext, hc⟩ := n.whole.exists_cons
  rw [Numeral.unsigned, List.append_assoc]
  by_cases hzero : c = '0'
  · have hwhole : n.whole.text = ['0'] := n.leading (by rw [htext, hzero]; rfl)
    have hnext : ¬(((n.tail ++ rest).head?.map Char.isDigit).getD false) = true := by
      cases hnext : (n.tail ++ rest).head? with
      | none => simp
      | some d => simp [hhead d hnext]
    rw [hwhole, List.singleton_append, skipNumber, if_neg hnext]
    exact skipAfterWhole_tail n h
  · have hdrop := n.whole.dropWhile_append hhead
    rw [htext, List.cons_append, List.dropWhile_cons_of_pos hc] at hdrop
    rw [htext, List.cons_append, skipNumber, if_pos hc, hdrop]
    · exact skipAfterWhole_tail n h
    · exact hzero

/-! ### Values that are passed over -/

theorem Blank.append {b b' : List Char} (hb : Blank b) (hb' : Blank b') : Blank (b ++ b') := by
  intro c hc
  rcases List.mem_append.mp hc with hc | hc
  · exact hb c hc
  · exact hb' c hc

theorem Ends.append {b cs : List Char} (hb : Blank b) (h : Ends cs) : Ends (b ++ cs) := by
  cases b with
  | nil => exact h
  | cons c b => exact Or.inl (hb c List.mem_cons_self)

theorem Blank.ends {b : List Char} (hb : Blank b) : Ends b := by
  have h : Ends (b ++ []) := Ends.append hb trivial
  rwa [List.append_nil] at h

theorem colon_append {b : List Char} (hb : Blank b) (cs : List Char) :
    colon (b ++ ':' :: cs) = .ok ((), cs) :=
  bind_of_ok (peek_append hb (show ¬IsBlank ':' by decide) cs) _

theorem Numeral.text_eq_cons (n : Numeral) :
    ∃ c cs, n.text = c :: cs ∧ ∀ d, d ≠ '-' → d.isDigit = false → c ≠ d := by
  obtain ⟨c, cs, htext, hc⟩ := n.whole.exists_cons
  rw [Numeral.text, Numeral.unsigned, htext]
  split
  · exact ⟨'-', _, rfl, fun d hd _ => hd.symm⟩
  · exact ⟨c, _, rfl, fun d _ hd => ne_of_isDigit hc hd⟩

/-- The first character of a value tells strings, arrays and objects from the others. -/
theorem Spelling.text_eq_cons (v : Spelling) :
    ∃ c cs, v.text = c :: cs ∧ ¬IsBlank c ∧ c ≠ ']' ∧
      (c = '"' ↔ ∃ marks, v = .string marks) ∧
      (c = '[' ↔ ∃ items gap, v = .array items gap) ∧
      (c = '\x7b' ↔ ∃ fields gap, v = .object fields gap) := by
  cases v with
  | null => exact ⟨'n', _, by rw [Spelling.text], by decide, by decide, by simp, by simp, by simp⟩
  | boolean value =>
      cases value with
      | false => exact ⟨'f', _, by rw [Spelling.text], by decide, by decide, by simp, by simp, by simp⟩
      | true => exact ⟨'t', _, by rw [Spelling.text], by decide, by decide, by simp, by simp, by simp⟩
  | number n =>
      obtain ⟨c, cs, htext, hc⟩ := n.text_eq_cons
      refine ⟨c, cs, by rw [Spelling.text, htext], ?_, hc _ (by decide) (by decide), ?_, ?_, ?_⟩
      · rintro (h | h | h | h)
        · exact hc _ (by decide) (by decide) h
        · exact hc _ (by decide) (by decide) h
        · exact hc _ (by decide) (by decide) h
        · exact hc _ (by decide) (by decide) h
      · exact iff_of_false (hc _ (by decide) (by decide)) (by simp)
      · exact iff_of_false (hc _ (by decide) (by decide)) (by simp)
      · exact iff_of_false (hc _ (by decide) (by decide)) (by simp)
  | string marks =>
      exact ⟨'"', _, by rw [Spelling.text, quoted], by decide, by decide, by simp, by simp, by simp⟩
  | array items gap =>
      exact ⟨'[', _, by rw [Spelling.text], by decide, by decide, by simp, by simp, by simp⟩
  | object fields gap =>
      exact ⟨'\x7b', _, by rw [Spelling.text], by decide, by decide, by simp, by simp, by simp⟩

/-- Passing over a value takes no more rounds than it has characters. -/
def SkipsValue (n : Nat) : Prop :=
  ∀ (v : Spelling) {b rest : List Char}, Blank b → Ends rest → v.text.length ≤ n →
    skipValue n (b ++ (v.text ++ rest)) = .ok ((), rest)

def SkipsItems (n : Nat) : Prop :=
  ∀ (v : Spelling) (after : Gap) (items : List Item) (gap : Gap) {b : List Char}
    (rest : List Char), Blank b → v.text.length + (itemsText false items).length < n →
    skipItems n (b ++ (v.text ++ (after.1 ++ (itemsText false items ++ (gap.1 ++ ']' :: rest))))) =
      .ok ((), rest)

def SkipsFields (n : Nat) : Prop :=
  ∀ (name : Padded (List Mark)) (value : Padded Spelling)
    (fields : List Field) (gap : Gap) {b : List Char}
    (rest : List Char), Blank b →
    (spacedText value).length + (fieldsText false fields).length < n →
    skipFields n (b ++ (quoted name.body ++ (name.after.1 ++ (':' :: (spacedText value ++
      (fieldsText false fields ++ (gap.1 ++ '\x7d' :: rest))))))) = .ok ((), rest)

theorem array_text (items : List Item) (gap : Gap) (rest : List Char) :
    (Spelling.array items gap).text ++ rest =
      '[' :: (itemsText true items ++ (gap.1 ++ ']' :: rest)) := by
  simp [Spelling.text]

theorem object_text (fields : List Field) (gap : Gap) (rest : List Char) :
    (Spelling.object fields gap).text ++ rest =
      '\x7b' :: (fieldsText true fields ++ (gap.1 ++ '\x7d' :: rest)) := by
  simp [Spelling.text]

theorem array_text_cons (before : Gap) (v : Spelling) (after : Gap) (items : List Item)
    (gap : Gap) (rest : List Char) :
    (Spelling.array (⟨before, v, after⟩ :: items) gap).text ++ rest =
      '[' :: (before.1 ++ (v.text ++
        (after.1 ++ (itemsText false items ++ (gap.1 ++ ']' :: rest))))) := by
  simp [array_text, itemsText, spacedText, separator]

theorem object_text_cons (name : Padded (List Mark)) (value : Padded Spelling)
    (fields : List Field) (gap : Gap) (rest : List Char) :
    (Spelling.object ((name, value) :: fields) gap).text ++ rest =
      '\x7b' :: (name.before.1 ++ (quoted name.body ++ (name.after.1 ++ ':' :: (spacedText value ++
        (fieldsText false fields ++ (gap.1 ++ '\x7d' :: rest)))))) := by
  simp [object_text, fieldsText, fieldText, separator]

theorem skipValue_number (k : Nat) (n : Numeral) {rest : List Char} (h : Ends rest) :
    skipValue (k + 1) (n.text ++ rest) = .ok ((), rest) := by
  have hskip := skipNumber_unsigned n h.stops
  rw [Numeral.text]
  cases n.negative with
  | true => exact hskip
  | false =>
      obtain ⟨c, cs, htext, hc⟩ := n.whole.exists_cons
      have hcons : n.unsigned ++ rest = c :: (cs ++ (n.tail ++ rest)) := by
        rw [Numeral.unsigned, htext, List.append_assoc, List.cons_append]
      have hblank : ¬IsBlank c := by
        rintro (rfl | rfl | rfl | rfl) <;> exact absurd hc (by decide)
      have hpeek := peekValue_append blank_nil hblank (cs ++ (n.tail ++ rest))
      change skipValue (k + 1) (n.unsigned ++ rest) = _
      rw [hcons] at hskip ⊢
      rw [skipValue]
      refine (bind_of_ok hpeek _).trans ?_
      -- A digit is none of the characters by which the other values begin.
      split
      case h_8 => rw [if_pos hc, hskip]
      all_goals exact absurd hc (by decide)

theorem skipValue_blank (n : Nat) {b : List Char} (hb : Blank b) (cs : List Char) :
    skipValue (n + 1) (b ++ cs) = skipValue (n + 1) cs := by
  simp only [skipValue]
  exact peekValue_bind_append hb _ cs

theorem skipValue_array {n : Nat} (hitems : SkipsItems n) (items : List Item) (gap : Gap)
    (rest : List Char) (hn : (itemsText true items).length < n) :
    skipValue (n + 1) ((Spelling.array items gap).text ++ rest) = .ok ((), rest) := by
  cases items with
  | nil =>
      have hpeek := peek_append gap.2 (show ¬IsBlank ']' by decide) rest
      rw [array_text, itemsText, List.nil_append, skipValue, peekValue_bracket]
      change (advance >>= fun _ => peek >>= _) ('[' :: _) = _
      rw [advance_bind, bind_of_ok hpeek]
      rfl
  | cons item items =>
      obtain ⟨before, v, after⟩ := item
      obtain ⟨c, cs, hv, hc, hend, -⟩ := v.text_eq_cons
      have hn' : v.text.length + (itemsText false items).length < n := by
        simp [itemsText, spacedText, separator] at hn
        omega
      have hskip := hitems v after items gap rest blank_nil hn'
      rw [hv, List.nil_append, List.cons_append] at hskip
      rw [array_text_cons, hv, List.cons_append, skipValue, peekValue_bracket]
      change (advance >>= fun _ => peek >>= _) ('[' :: _) = _
      rw [advance_bind, bind_of_ok (peek_append before.2 hc _)]
      generalize hnext : some c = next
      split
      · exact absurd (Option.some.inj hnext) hend
      · cases hnext
      · exact hskip

theorem skipValue_object {n : Nat} (hfields : SkipsFields n)
    (fields : List Field) (gap : Gap) (rest : List Char)
    (hn : (fieldsText true fields).length < n) :
    skipValue (n + 1) ((Spelling.object fields gap).text ++ rest) = .ok ((), rest) := by
  cases fields with
  | nil =>
      have hpeek := peek_append gap.2 (show ¬IsBlank '\x7d' by decide) rest
      rw [object_text, fieldsText, List.nil_append, skipValue, peekValue_brace]
      change (advance >>= fun _ => peek >>= _) ('\x7b' :: _) = _
      rw [advance_bind, bind_of_ok hpeek]
      rfl
  | cons field fields =>
      obtain ⟨name, value⟩ := field
      have hn' : (spacedText value).length + (fieldsText false fields).length < n := by
        simp [fieldsText, fieldText, separator] at hn
        omega
      have hskip := hfields name value fields gap rest blank_nil hn'
      rw [object_text_cons, skipValue, peekValue_brace]
      change (advance >>= fun _ => peek >>= _) ('\x7b' :: _) = _
      rw [advance_bind]
      exact (bind_of_ok (peek_append name.before.2 (show ¬IsBlank '"' by decide) _) _).trans hskip

theorem skipValue_step {n : Nat} (hitems : SkipsItems n) (hfields : SkipsFields n) :
    SkipsValue (n + 1) := by
  intro v b rest hb hrest hn
  rw [skipValue_blank n hb]
  cases v with
  | null => rfl
  | boolean value =>
      cases value with
      | false => rfl
      | true => rfl
  | number m =>
      rw [Spelling.text]
      exact skipValue_number n m hrest
  | string marks =>
      rw [string_text, skipValue_quote]
      exact skipString_length marks rest
  | array items gap =>
      refine skipValue_array hitems items gap rest ?_
      simp [Spelling.text] at hn
      omega
  | object fields gap =>
      refine skipValue_object hfields fields gap rest ?_
      simp [Spelling.text] at hn
      omega

theorem ends_itemsText (items : List Item) (gap : Gap) (rest : List Char) :
    Ends (itemsText false items ++ (gap.1 ++ ']' :: rest)) := by
  cases items with
  | nil =>
      rw [itemsText, List.nil_append]
      exact Ends.append gap.2 (Or.inr (Or.inr (Or.inl rfl)))
  | cons item items => exact Or.inr (Or.inl rfl)

theorem ends_fieldsText (fields : List Field) (gap : Gap)
    (rest : List Char) : Ends (fieldsText false fields ++ (gap.1 ++ '\x7d' :: rest)) := by
  cases fields with
  | nil =>
      rw [fieldsText, List.nil_append]
      exact Ends.append gap.2 (Or.inr (Or.inr (Or.inr rfl)))
  | cons field fields => exact Or.inr (Or.inl rfl)

theorem skipItems_step {n : Nat} (hvalue : SkipsValue n) (hitems : SkipsItems n) :
    SkipsItems (n + 1) := by
  intro v after items gap b rest hb hn
  have hends := Ends.append after.2 (ends_itemsText items gap rest)
  rw [skipItems, bind_of_ok (hvalue v hb hends (by omega))]
  cases items with
  | nil =>
      have hpeek := peek_append (after.2.append gap.2) (show ¬IsBlank ']' by decide) rest
      rw [List.append_assoc] at hpeek
      exact (bind_of_ok hpeek _).trans rfl
  | cons item items =>
      obtain ⟨before, w, after'⟩ := item
      have hn' : w.text.length + (itemsText false items).length < n := by
        simp [itemsText, spacedText, separator] at hn
        omega
      have hskip := hitems w after' items gap rest before.2 hn'
      have htext : itemsText false (⟨before, w, after'⟩ :: items) ++ (gap.1 ++ ']' :: rest) =
          ',' :: (before.1 ++ (w.text ++
            (after'.1 ++ (itemsText false items ++ (gap.1 ++ ']' :: rest))))) := by
        simp [itemsText, spacedText, separator]
      rw [htext]
      exact (bind_of_ok (peek_append after.2 (show ¬IsBlank ',' by decide) _) _).trans hskip

theorem skipFields_step {n : Nat} (hvalue : SkipsValue n) (hfields : SkipsFields n) :
    SkipsFields (n + 1) := by
  intro name value fields gap b rest hb hn
  obtain ⟨before, v, after⟩ := value
  have hends := Ends.append after.2 (ends_fieldsText fields gap rest)
  have hv : v.text.length ≤ n := by
    simp [spacedText] at hn
    omega
  simp only [spacedText, quoted, List.cons_append, List.append_assoc, List.nil_append]
  rw [skipFields, bind_of_ok (peek_append hb (show ¬IsBlank '"' by decide) _)]
  change (advance >>= fun _ => get >>= _) ('"' :: _) = _
  rw [advance_bind, get_bind, bind_of_ok (skipString_length name.body _)]
  beta_reduce
  rw [bind_of_ok (colon_append name.after.2 _), bind_of_ok (hvalue v before.2 hends hv)]
  cases fields with
  | nil =>
      have hpeek := peek_append (after.2.append gap.2) (show ¬IsBlank '\x7d' by decide) rest
      rw [List.append_assoc] at hpeek
      exact (bind_of_ok hpeek _).trans rfl
  | cons field fields =>
      obtain ⟨name', value'⟩ := field
      have hn' : (spacedText value').length + (fieldsText false fields).length < n := by
        simp [fieldsText, fieldText, spacedText, separator] at hn
        omega
      have hskip := hfields name' value' fields gap rest name'.before.2 hn'
      have htext : fieldsText false ((name', value') :: fields) ++ (gap.1 ++ '\x7d' :: rest) =
          ',' :: (name'.before.1 ++ (quoted name'.body ++ (name'.after.1 ++ (':' :: (spacedText value' ++
            (fieldsText false fields ++ (gap.1 ++ '\x7d' :: rest))))))) := by
        simp [fieldsText, fieldText, separator]
      rw [htext]
      exact (bind_of_ok (peek_append after.2 (show ¬IsBlank ',' by decide) _) _).trans hskip

theorem skips (n : Nat) : SkipsValue n ∧ SkipsItems n ∧ SkipsFields n := by
  induction n with
  | zero =>
      refine ⟨?_, ?_, ?_⟩
      · intro v b rest _ _ hn
        obtain ⟨c, cs, hv, -⟩ := v.text_eq_cons
        rw [hv] at hn
        cases hn
      · intro v after items gap b rest _ hn
        cases hn
      · intro name value fields gap b rest _ hn
        cases hn
  | succ n ih =>
      obtain ⟨hvalue, hitems, hfields⟩ := ih
      exact ⟨skipValue_step hitems hfields, skipItems_step hvalue hitems,
        skipFields_step hvalue hfields⟩

/-- **Any value is passed over**, however deep, up to where it ends. -/
theorem skip_text (v : Spelling) {b rest : List Char} (hb : Blank b) (hrest : Ends rest) :
    skip (b ++ (v.text ++ rest)) = .ok ((), rest) := by
  rw [skip, get_bind]
  refine (skips _).1 v hb hrest ?_
  simp only [List.length_append]
  omega

end ApiSurface.Json
