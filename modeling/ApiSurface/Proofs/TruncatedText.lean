import ApiSurface.Proofs.SnapshotText

/-! A snapshot that was cut off is never taken for a smaller one. Wherever its text is cut, even within
an escape or between the white space, the reader is in the middle of something and notices that the
text has ended, and it says nothing else about it. The readers are shown to need a text to its end part
by part, as they were shown to take it. -/

namespace ApiSurface

namespace Json

/-- A part of a text from its beginning on that is not all of it. -/
def Cut (cut text : List Char) : Prop :=
  cut <+: text ∧ cut ≠ text

/-- Reading failed because the text ended. -/
def EndsEarly {α : Type} (result : Except Fault α) : Prop :=
  ∃ fault, result = .error fault ∧ fault.cause.category = .truncated

/-- The reader needs the text to its end. -/
def NeedsAll {α : Type} (r : Scan α) (text : List Char) : Prop :=
  ∀ cut, Cut cut text → EndsEarly (r cut)

theorem isPrefix_append_cons {cut cs ds : List Char} {c : Char} (h : cut <+: cs ++ c :: ds) :
    cut <+: cs ∨ ∃ rest, cut = cs ++ c :: rest ∧ rest <+: ds := by
  induction cs generalizing cut with
  | nil =>
      cases cut with
      | nil => exact Or.inl List.nil_prefix
      | cons d rest =>
          obtain ⟨rfl, hrest⟩ := List.cons_prefix_cons.mp h
          exact Or.inr ⟨rest, rfl, hrest⟩
  | cons d cs ih =>
      cases cut with
      | nil => exact Or.inl List.nil_prefix
      | cons e cut =>
          obtain ⟨rfl, hcut⟩ := List.cons_prefix_cons.mp h
          rcases ih hcut with hcut | ⟨rest, rfl, hrest⟩
          · exact Or.inl (List.cons_prefix_cons.mpr ⟨rfl, hcut⟩)
          · exact Or.inr ⟨rest, rfl, hrest⟩

theorem Cut.not_nil {cut : List Char} : ¬Cut cut [] :=
  fun h => h.2 (List.prefix_nil.mp h.1)

/-- A text is cut before one of its characters or after it. -/
theorem Cut.append_cons {cut cs ds : List Char} {c : Char} (h : Cut cut (cs ++ c :: ds)) :
    cut <+: cs ∨ ∃ rest, cut = cs ++ c :: rest ∧ Cut rest ds := by
  rcases isPrefix_append_cons h.1 with hcut | ⟨rest, rfl, hrest⟩
  · exact Or.inl hcut
  · exact Or.inr ⟨rest, rfl, hrest, fun heq => h.2 (by rw [heq])⟩

theorem Cut.cons {cut cs : List Char} {c : Char} (h : Cut cut (c :: cs)) :
    cut = [] ∨ ∃ rest, cut = c :: rest ∧ Cut rest cs := by
  have hsplit : Cut cut ([] ++ c :: cs) := h
  rcases hsplit.append_cons with hcut | hrest
  · exact Or.inl (List.prefix_nil.mp hcut)
  · exact Or.inr hrest

theorem Cut.cons_cons {cut cs : List Char} (h : Cut cut cs) (c : Char) : Cut (c :: cut) (c :: cs) :=
  ⟨List.cons_prefix_cons.mpr ⟨rfl, h.1⟩, fun heq => h.2 (List.cons.inj heq).2⟩

theorem Cut.eq_nil {cut : List Char} {c : Char} (h : Cut cut [c]) : cut = [] := by
  rcases h.cons with rfl | ⟨rest, -, hrest⟩
  · rfl
  · exact absurd hrest Cut.not_nil

theorem Cut.append {cut cs ds : List Char} (h : Cut cut (cs ++ ds)) :
    Cut cut cs ∨ ∃ rest, cut = cs ++ rest ∧ Cut rest ds := by
  by_cases hcut : Cut cut cs
  · exact Or.inl hcut
  · obtain ⟨rest, rfl⟩ : cs <+: cut := by
      rcases List.prefix_or_prefix_of_prefix h.1 (List.prefix_append cs ds) with hle | hle
      · have heq : cut = cs := by_contra fun hne => hcut ⟨hle, hne⟩
        exact heq ▸ List.prefix_refl cut
      · exact hle
    refine Or.inr ⟨rest, rfl, (List.prefix_append_right_inj cs).mp h.1, fun heq => h.2 (by rw [heq])⟩

section Readers

variable {α β : Type} {r : Scan α} {k : α → Scan β} {cs ds b : List Char} {a : α}

theorem bind_of_error {fault : Fault} (h : r cs = .error fault) (k : α → Scan β) :
    (r >>= k) cs = .error fault := by
  change Except.bind (r cs) _ = _
  rw [h]
  rfl

theorem EndsEarly.bind (h : EndsEarly (r cs)) (k : α → Scan β) : EndsEarly ((r >>= k) cs) := by
  obtain ⟨fault, hfault, hcategory⟩ := h
  exact ⟨fault, bind_of_error hfault k, hcategory⟩

theorem NeedsAll.bind (h : NeedsAll r cs) (htakes : Takes r cs a) (hk : NeedsAll (k a) ds) :
    NeedsAll (r >>= k) (cs ++ ds) := by
  intro cut hcut
  rcases hcut.append with hcut | ⟨rest, rfl, hrest⟩
  · exact (h cut hcut).bind k
  · rw [bind_of_ok (htakes rest)]
    exact hk rest hrest

theorem NeedsAll.map (h : NeedsAll r cs) (f : α → β) : NeedsAll (do return f (← r)) cs :=
  fun cut hcut => (h cut hcut).bind _

/-! ### White space -/

theorem Blank.of_prefix {cut : List Char} (hb : Blank b) (h : cut <+: b) : Blank cut :=
  fun c hc => hb c (h.subset hc)

theorem endsEarly_peekValue (hb : Blank b) : EndsEarly (peekValue b) := by
  refine ⟨⟨.endOfValue, [], 0⟩, ?_, rfl⟩
  rw [peekValue, bind_of_ok (peek_blank hb)]
  rfl

theorem NeedsAll.blank {k : Char → Scan α} (h : NeedsAll (peekValue >>= k) cs) (hb : Blank b) :
    NeedsAll (peekValue >>= k) (b ++ cs) := by
  intro cut hcut
  rcases hcut.append with hcut | ⟨rest, rfl, hrest⟩
  · exact (endsEarly_peekValue (hb.of_prefix hcut.1)).bind k
  · rw [peekValue_bind_append hb]
    exact h rest hrest

/-- A value is needed from its first character on. -/
theorem needsAll_peekValue_cons {k : Char → Scan α} {c : Char} (hc : ¬IsBlank c)
    (h : ∀ cut, Cut cut cs → EndsEarly (k c (c :: cut))) : NeedsAll (peekValue >>= k) (c :: cs) := by
  intro cut hcut
  rcases hcut.cons with rfl | ⟨rest, rfl, hrest⟩
  · exact (endsEarly_peekValue blank_nil).bind k
  · have hpeek : peekValue (c :: rest) = .ok (c, c :: rest) := peekValue_append blank_nil hc rest
    rw [bind_of_ok hpeek]
    exact h rest hrest

end Readers

/-! ### Strings -/

theorem endsEarly_stringBody_nil (n : Nat) : EndsEarly (stringBody n []) := by
  cases n <;> exact ⟨_, rfl, rfl⟩

theorem utf8Size_hexDigit {n : Nat} (h : n < 16) : (hexDigit n).utf8Size = 1 := by
  interval_cases n <;> rfl

theorem Cut.byteLength_lt {cut cs : List Char} (h : Cut cut cs) : byteLength cut < byteLength cs := by
  induction cs generalizing cut with
  | nil => exact absurd h Cut.not_nil
  | cons c cs ih =>
      have hpos := c.utf8Size_pos
      rcases h.cons with rfl | ⟨rest, rfl, hrest⟩
      · simp only [byteLength]
        omega
      · have hlt := ih hrest
        simp only [byteLength]
        omega

theorem needsAll_hexEscape {c : Char} (hc : c.toNat < 0x20) :
    NeedsAll hexEscape ['0', '0', hexDigit (c.toNat / 16), hexDigit (c.toNat % 16)] := by
  intro cut hcut
  have hzero : '0'.utf8Size = 1 := rfl
  have hshort : byteLength cut < 4 := by
    have hlt := hcut.byteLength_lt
    simp only [byteLength, hzero, utf8Size_hexDigit (show c.toNat / 16 < 16 by omega),
      utf8Size_hexDigit (show c.toNat % 16 < 16 by omega)] at hlt
    omega
  refine ⟨⟨.endOfString, [], 0⟩, ?_, rfl⟩
  unfold hexEscape
  rw [if_pos hshort]
  rfl

theorem needsAll_escaped_simple (c : Char) : NeedsAll escaped [c] := by
  intro cut hcut
  rw [hcut.eq_nil]
  exact ⟨_, rfl, rfl⟩

theorem needsAll_escaped_control {c : Char} (hc : c.toNat < 0x20) :
    NeedsAll escaped ['u', '0', '0', hexDigit (c.toNat / 16), hexDigit (c.toNat % 16)] := by
  intro cut hcut
  rcases hcut.cons with rfl | ⟨rest, rfl, hrest⟩
  · exact ⟨_, rfl, rfl⟩
  · exact (needsAll_hexEscape hc rest hrest).bind _

theorem endsEarly_stringBody_backslash {cs cut : List Char} (h : NeedsAll escaped cs) (n : Nat)
    (hcut : Cut cut ('\\' :: cs)) : EndsEarly (stringBody n cut) := by
  rcases hcut.cons with rfl | ⟨rest, rfl, hrest⟩
  · exact endsEarly_stringBody_nil n
  · cases n with
    | zero => exact ⟨_, rfl, rfl⟩
    | succ n =>
        rw [stringBody, if_neg (by decide), if_pos rfl]
        exact (h rest hrest).bind _

/-- A string that is cut within the spelling of a character ends early. -/
theorem endsEarly_stringBody_escape {c : Char} {cut : List Char} (n : Nat) (hcut : Cut cut (escape c)) :
    EndsEarly (stringBody n cut) := by
  have hsimple : ∀ d, Cut cut ['\\', d] → EndsEarly (stringBody n cut) :=
    fun d hcut => endsEarly_stringBody_backslash (needsAll_escaped_simple d) n hcut
  rw [escape] at hcut
  split_ifs at hcut with hquote hback hnewline hreturn htab hbackspace hfeed hcontrol
  · exact hsimple '"' hcut
  · exact hsimple '\\' hcut
  · exact hsimple 'n' hcut
  · exact hsimple 'r' hcut
  · exact hsimple 't' hcut
  · exact hsimple 'b' hcut
  · exact hsimple 'f' hcut
  · exact endsEarly_stringBody_backslash (needsAll_escaped_control hcontrol) n hcut
  · rw [hcut.eq_nil]
    exact endsEarly_stringBody_nil n

theorem needsAll_stringBody (values : List Char) (n : Nat) :
    NeedsAll (stringBody n) (values.flatMap escape ++ ['"']) := by
  induction values generalizing n with
  | nil =>
      intro cut hcut
      rw [Cut.eq_nil hcut]
      exact endsEarly_stringBody_nil n
  | cons c values ih =>
      intro cut hcut
      rw [List.flatMap_cons, List.append_assoc] at hcut
      rcases hcut.append with hcut | ⟨rest, rfl, hrest⟩
      · exact endsEarly_stringBody_escape n hcut
      · cases n with
        | zero => exact ⟨_, rfl, rfl⟩
        | succ n =>
            rw [stringBody_escape]
            exact (ih n rest hrest).bind _

theorem needsAll_scanString (text : String) :
    NeedsAll scanString (text.toList.flatMap escape ++ ['"']) := by
  intro cut hcut
  rw [scanString, get_bind]
  exact (needsAll_stringBody text.toList (cut.length + 1) cut hcut).bind _

theorem needsAll_text (name : String) : NeedsAll text (quote name) := by
  rw [quote, text]
  exact needsAll_peekValue_cons (by decide) fun cut hcut => needsAll_scanString name cut hcut

/-! ### Loops

A text can be cut before a part, in the white space or after the comma, or within the part. -/

variable {σ : Type} {item : σ → Scan σ} {field : σ → String → Scan σ} {first : Bool} {s s' : σ}
  {lead b tail : List Char}

theorem endsEarly_nextItem_blank (hb : Blank b) (first : Bool) : EndsEarly (nextItem first b) := by
  refine ⟨⟨.endOfList, [], 0⟩, ?_, rfl⟩
  rw [nextItem, bind_of_ok (peek_blank hb)]
  rfl

theorem endsEarly_nextItem (hlead : Lead first lead) {cut : List Char} (hcut : cut <+: lead) :
    EndsEarly (nextItem first cut) := by
  cases hlead with
  | first hb => exact endsEarly_nextItem_blank (hb.of_prefix hcut) true
  | next hb hb' =>
      rcases isPrefix_append_cons hcut with hcut | ⟨rest, rfl, hrest⟩
      · exact endsEarly_nextItem_blank (hb.of_prefix hcut) false
      · rw [nextItem, bind_of_ok (peek_append hb (show ¬IsBlank ',' by decide) rest)]
        change EndsEarly ((advance >>= fun _ => peekValue >>= _) (',' :: rest))
        rw [advance_bind]
        exact (endsEarly_peekValue (hb'.of_prefix hrest)).bind _

theorem endsEarly_nextField_blank (hb : Blank b) (first : Bool) : EndsEarly (nextField first b) := by
  refine ⟨⟨.endOfObject, [], 0⟩, ?_, rfl⟩
  rw [nextField, bind_of_ok (peek_blank hb)]
  rfl

theorem endsEarly_nextField (hlead : Lead first lead) {cut : List Char} (hcut : cut <+: lead) :
    EndsEarly (nextField first cut) := by
  cases hlead with
  | first hb => exact endsEarly_nextField_blank (hb.of_prefix hcut) true
  | next hb hb' =>
      rcases isPrefix_append_cons hcut with hcut | ⟨rest, rfl, hrest⟩
      · exact endsEarly_nextField_blank (hb.of_prefix hcut) false
      · rw [nextField, bind_of_ok (peek_append hb (show ¬IsBlank ',' by decide) rest)]
        change EndsEarly ((advance >>= fun _ => peekValue >>= _) (',' :: rest))
        rw [advance_bind]
        exact (endsEarly_peekValue (hb'.of_prefix hrest)).bind _

theorem needsAll_items_done (hb : Blank b) (n : Nat) (first : Bool) (s : σ) :
    NeedsAll (items item n first s) (b ++ [']']) := by
  intro cut hcut
  cases n with
  | zero => exact ⟨_, rfl, rfl⟩
  | succ n =>
      rcases hcut.append_cons with hcut | ⟨rest, -, hrest⟩
      · rw [items]
        exact (endsEarly_nextItem_blank (hb.of_prefix hcut) first).bind _
      · exact absurd hrest Cut.not_nil

theorem needsAll_items_more (hlead : Lead first lead) {c : Char} {body : List Char}
    (hc : ¬IsBlank c) (hend : c ≠ ']') (htakes : Takes (item s) (c :: body) s')
    (hneeds : NeedsAll (item s) (c :: body)) (htail : ∀ n, NeedsAll (items item n false s') tail)
    (n : Nat) : NeedsAll (items item n first s) (lead ++ c :: (body ++ tail)) := by
  intro cut hcut
  cases n with
  | zero => exact ⟨_, rfl, rfl⟩
  | succ n =>
      rw [items]
      rcases hcut.append_cons with hcut | ⟨rest, rfl, hrest⟩
      · exact (endsEarly_nextItem hlead hcut).bind _
      · rw [bind_of_ok (nextItem_lead hlead hc hend rest)]
        simp only [if_true]
        exact hneeds.bind htakes (htail n) (c :: rest) (hrest.cons_cons c)

theorem needsAll_fields_done (hb : Blank b) (n : Nat) (first : Bool) (s : σ) :
    NeedsAll (fields field n first s) (b ++ ['\x7d']) := by
  intro cut hcut
  cases n with
  | zero => exact ⟨_, rfl, rfl⟩
  | succ n =>
      rcases hcut.append_cons with hcut | ⟨rest, -, hrest⟩
      · rw [fields]
        exact (endsEarly_nextField_blank (hb.of_prefix hcut) first).bind _
      · exact absurd hrest Cut.not_nil

theorem needsAll_fields_more (hlead : Lead first lead) {name : String} {value : List Char}
    (htakes : Takes (field s name) value s') (hneeds : NeedsAll (field s name) value)
    (htail : ∀ n, NeedsAll (fields field n false s') tail) (n : Nat) :
    NeedsAll (fields field n first s) (lead ++ (quote name ++ (value ++ tail))) := by
  intro cut hcut
  rw [quote, List.cons_append] at hcut
  cases n with
  | zero => exact ⟨_, rfl, rfl⟩
  | succ n =>
      rw [fields]
      rcases hcut.append_cons with hcut | ⟨rest, rfl, hrest⟩
      · exact (endsEarly_nextField hlead hcut).bind _
      · rw [bind_of_ok (nextField_lead hlead rest)]
        simp only [if_true]
        rw [advance_bind]
        exact (needsAll_scanString name).bind (takes_scanString name)
          (hneeds.bind htakes (htail n)) rest hrest

/-! ### Written values -/

variable {style : Style}

theorem needsAll_items_names (hstyle : style.Lawful) (depth depth' : Nat) (names : List String)
    (s : NameSet) (n : Nat) :
    NeedsAll (items (fun s => return s.insert (← text)) n false s)
      (writeItems style depth (names.map .string) ++ (style.lineBreak depth' ++ [']'])) := by
  induction names generalizing s n with
  | nil => exact needsAll_items_done (hstyle.lineBreak depth') n false s
  | cons name names ih =>
      have hmore := needsAll_items_more (Lead.next blank_nil (hstyle.lineBreak depth)) (by decide)
        (by decide) ((takes_text (takes_scanString name)).map s.insert) ((needsAll_text name).map _)
        (fun n => ih (s.insert name) n) n
      simpa [writeItems, write, quote] using hmore

theorem needsAll_names {cs : List Char}
    (h : ∀ n, NeedsAll (items (fun s : NameSet => return s.insert (← text)) n true ∅) cs) :
    NeedsAll names ('[' :: cs) :=
  needsAll_peekValue_cons (by decide) fun cut hcut => h (cut.length + 1) cut hcut

theorem needsAll_names_write (hstyle : style.Lawful) (s : NameSet) (depth : Nat) :
    NeedsAll names (s.toJson.write style depth) := by
  rw [NameSet.toJson]
  cases s.toList with
  | nil =>
      rw [List.map_nil, write]
      exact needsAll_names fun n => needsAll_items_done blank_nil n true ∅
  | cons name names =>
      rw [List.map_cons, write]
      apply needsAll_names
      intro n
      have hmore := needsAll_items_more (Lead.first (hstyle.lineBreak (depth + 1))) (by decide)
        (by decide) ((takes_text (takes_scanString name)).map (∅ : NameSet).insert)
        ((needsAll_text name).map _)
        (fun n => needsAll_items_names hstyle (depth + 1) depth names (NameSet.insert ∅ name) n) n
      simpa [write, quote] using hmore

theorem needsAll_colon : NeedsAll colon [':'] := by
  intro cut hcut
  rw [hcut.eq_nil]
  exact ⟨_, rfl, rfl⟩

theorem needsAll_after_colon {α β : Type} {value : Scan α} {text : List Char} (hstyle : style.Lawful)
    (hvalue : ∀ b, Blank b → NeedsAll value (b ++ text)) (f : α → β) :
    NeedsAll (do colon; return f (← value)) (style.colon ++ text) := by
  obtain ⟨b, hb, hcolon⟩ := hstyle.colon
  rw [hcolon]
  exact needsAll_colon.bind takes_colon ((hvalue b hb).map f)

/-- The reader of fields takes the written fields one by one, and needs each of them to its end. -/
inductive FieldsNeeded {σ : Type} (field : σ → String → Scan σ) (style : Style) (depth : Nat) :
    σ → List (String × Json) → Prop
  | nil (s : σ) : FieldsNeeded field style depth s []
  | cons {s s' : σ} {e : String × Json} {es : List (String × Json)}
      (htakes : Takes (field s e.1) (style.colon ++ e.2.write style depth) s')
      (hneeds : NeedsAll (field s e.1) (style.colon ++ e.2.write style depth))
      (htail : FieldsNeeded field style depth s' es) : FieldsNeeded field style depth s (e :: es)

variable {depth : Nat} {es : List (String × Json)}

theorem FieldsNeeded.needsAll_writeFields (hstyle : style.Lawful)
    (h : FieldsNeeded field style depth s es) (depth' n : Nat) :
    NeedsAll (fields field n false s)
      (writeFields style depth es ++ (style.lineBreak depth' ++ ['\x7d'])) := by
  induction h generalizing n with
  | nil s => exact needsAll_fields_done (hstyle.lineBreak depth') n false s
  | @cons s s' e es htakes hneeds _ ih =>
      obtain ⟨name, value⟩ := e
      have hmore := needsAll_fields_more (Lead.next blank_nil (hstyle.lineBreak depth)) htakes hneeds
        ih n
      simpa [writeFields, writeField] using hmore

theorem FieldsNeeded.write_object (hstyle : style.Lawful)
    (h : FieldsNeeded field style (depth + 1) s es) :
    ∃ cs, write style depth (.object es) = '\x7b' :: cs ∧ ∀ n, NeedsAll (fields field n true s) cs := by
  cases h with
  | nil => exact ⟨['\x7d'], by rw [write], fun n => needsAll_fields_done blank_nil n true s⟩
  | @cons _ s' e es htakes hneeds htail =>
      obtain ⟨name, value⟩ := e
      refine ⟨_, ?_, needsAll_fields_more (Lead.first (hstyle.lineBreak (depth + 1))) htakes hneeds
        (htail.needsAll_writeFields hstyle depth)⟩
      simp [write, writeField]

theorem needsAll_map {α : Type} {value : Scan α} {cs : List Char}
    (h : ∀ n, NeedsAll
      (fields (fun (m : NameMap α) name => do colon; return m.insert name (← value)) n true ∅) cs) :
    NeedsAll (map value) ('\x7b' :: cs) :=
  needsAll_peekValue_cons (by decide) fun cut hcut => h (cut.length + 1) cut hcut

variable {α : Type} {value : Scan α} {toJson : α → Json}

theorem fieldsNeeded_entries (hstyle : style.Lawful) (depth : Nat)
    (htakes : ∀ b, Blank b → ∀ a, Takes value (b ++ (toJson a).write style depth) a)
    (hneeds : ∀ b, Blank b → ∀ a, NeedsAll value (b ++ (toJson a).write style depth))
    (entries : List (String × α)) (m : NameMap α) :
    FieldsNeeded (fun m name => do colon; return m.insert name (← value)) style depth m
      (entries.map fun e => (e.1, toJson e.2)) := by
  induction entries generalizing m with
  | nil => exact FieldsNeeded.nil m
  | cons e entries ih =>
      exact FieldsNeeded.cons
        (takes_after_colon hstyle (fun b hb => htakes b hb e.2) (m.insert e.1))
        (needsAll_after_colon hstyle (fun b hb => hneeds b hb e.2) (m.insert e.1)) (ih _)

theorem needsAll_map_write (hstyle : style.Lawful) (m : NameMap α) (depth : Nat)
    (htakes : ∀ b, Blank b → ∀ a, Takes value (b ++ (toJson a).write style (depth + 1)) a)
    (hneeds : ∀ b, Blank b → ∀ a, NeedsAll value (b ++ (toJson a).write style (depth + 1))) :
    NeedsAll (map value) ((m.toJson toJson).write style depth) := by
  obtain ⟨cs, hcs, hfields⟩ :=
    (fieldsNeeded_entries hstyle (depth + 1) htakes hneeds m.toList ∅).write_object hstyle
  rw [NameMap.toJson, hcs]
  exact needsAll_map hfields

/-- A text that a reader needs to its end is not read as a whole when it is cut. -/
theorem readText_of_needsAll {cs : List Char} (h : NeedsAll value cs) {cut : String}
    (hcut : Cut cut.toList cs) :
    ∃ e, readText value cut = .error e ∧ e.cause.category = .truncated := by
  obtain ⟨fault, hfault, hcategory⟩ := h _ hcut
  refine ⟨fault.locate cut.toList, ?_, hcategory⟩
  rw [readText, bind_of_error hfault]

end Json

open Json

variable {style : Style}

namespace Symbols

theorem needsAll_readClass (hstyle : style.Lawful) (methods : NameSet) (depth : Nat) :
    NeedsAll readClass ((classJson methods).write style depth) := by
  have htakes : Takes (classField none "methods")
      (style.colon ++ methods.toJson.write style (depth + 1)) (some methods) :=
    takes_after_colon hstyle (fun _ => Takes.blank (takes_names_write hstyle methods _)) some
  have hneeds : NeedsAll (classField none "methods")
      (style.colon ++ methods.toJson.write style (depth + 1)) :=
    needsAll_after_colon hstyle (fun _ => NeedsAll.blank (needsAll_names_write hstyle methods _)) some
  obtain ⟨cs, hcs, hfields⟩ := (FieldsNeeded.cons (e := ("methods", methods.toJson)) htakes hneeds
    (.nil _)).write_object hstyle
  rw [classJson, hcs]
  refine needsAll_peekValue_cons (by decide) fun cut hcut => ?_
  simp only [advance_bind, get_bind]
  exact (hfields (cut.length + 1) cut hcut).bind _

theorem needsAll_read (hstyle : style.Lawful) (s : Symbols) (depth : Nat) :
    NeedsAll read (s.toJson.write style depth) := by
  have hclasses : ∀ b, Blank b → ∀ methods,
      Takes readClass (b ++ (classJson methods).write style (depth + 1 + 1)) methods :=
    fun b hb methods => Takes.blank (takes_readClass hstyle methods _) hb
  have hfirst : Takes (field {} "classes")
      (style.colon ++ (s.classes.toJson classJson).write style (depth + 1))
      (Fields.mk (some s.classes) none) :=
    takes_after_colon hstyle (fun _ => Takes.blank (takes_map_write hstyle s.classes _ hclasses))
      fun classes => Fields.mk (some classes) none
  have hfirst' : NeedsAll (field {} "classes")
      (style.colon ++ (s.classes.toJson classJson).write style (depth + 1)) :=
    needsAll_after_colon hstyle (fun _ => NeedsAll.blank (needsAll_map_write hstyle s.classes _ hclasses
      fun b hb methods => NeedsAll.blank (needsAll_readClass hstyle methods _) hb))
      fun classes => Fields.mk (some classes) none
  have hsecond : Takes (field (Fields.mk (some s.classes) none) "functions")
      (style.colon ++ s.functions.toJson.write style (depth + 1))
      (Fields.mk (some s.classes) (some s.functions)) :=
    takes_after_colon hstyle (fun _ => Takes.blank (takes_names_write hstyle s.functions _))
      fun functions => Fields.mk (some s.classes) (some functions)
  have hsecond' : NeedsAll (field (Fields.mk (some s.classes) none) "functions")
      (style.colon ++ s.functions.toJson.write style (depth + 1)) :=
    needsAll_after_colon hstyle (fun _ => NeedsAll.blank (needsAll_names_write hstyle s.functions _))
      fun functions => Fields.mk (some s.classes) (some functions)
  obtain ⟨cs, hcs, hfields⟩ := (FieldsNeeded.cons (e := ("classes", s.classes.toJson classJson)) hfirst
    hfirst' (.cons (e := ("functions", s.functions.toJson)) hsecond hsecond' (.nil _))).write_object
    hstyle
  rw [toJson, hcs]
  refine needsAll_peekValue_cons (by decide) fun cut hcut => ?_
  simp only [advance_bind, get_bind]
  exact (hfields (cut.length + 1) cut hcut).bind _

end Symbols

namespace Snapshot

/-- **A snapshot that was cut off is not read.** Whatever part of its text is left, from the empty one to
all but the last character, reading it fails, and the error says that the text ends too early. -/
theorem ofJson_truncated (s : Snapshot) (cut : String) (hcut : cut.toList <+: s.toJson.toList)
    (hne : cut ≠ s.toJson) : ∃ e, ofJson cut = .error e ∧ e.cause.category = .truncated := by
  have hmap : NeedsAll (map Symbols.read) ((s.modules.toJson Symbols.toJson).write pretty 0) :=
    needsAll_map_write lawful_pretty s.modules 0
      (fun b hb symbols => Takes.blank (Symbols.takes_read lawful_pretty symbols _) hb)
      fun b hb symbols => NeedsAll.blank (Symbols.needsAll_read lawful_pretty symbols _) hb
  rw [toJson, render, String.toList_ofList] at hcut
  refine readText_of_needsAll (hmap.map Snapshot.mk) ⟨hcut, fun heq => hne ?_⟩
  rw [toJson, render, ← heq, String.ofList_toList]

/-- The text of a snapshot with odd names is cut within the code of a character. -/
theorem ofJson_truncated_oddNames :
    "\x7b\n  \"a\\\"\\\\\\u00".toList <+: oddNames.toJson.toList ∧
    "\x7b\n  \"a\\\"\\\\\\u00" ≠ oddNames.toJson ∧
    ∃ e, ofJson "\x7b\n  \"a\\\"\\\\\\u00" = .error e ∧ e.cause.category = .truncated := by
  have hcut : "\x7b\n  \"a\\\"\\\\\\u00".toList <+: oddNames.toJson.toList := by decide +kernel
  have hne : "\x7b\n  \"a\\\"\\\\\\u00" ≠ oddNames.toJson := by decide +kernel
  exact ⟨hcut, hne, ofJson_truncated oddNames _ hcut hne⟩

end Snapshot

end ApiSurface
