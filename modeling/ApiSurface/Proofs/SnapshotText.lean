import ApiSurface.Snapshot.Json
import ApiSurface.Proofs.JsonReading

/-! The text of a snapshot stands for the snapshot: it is read back as what was written, so two
snapshots have one text only if they are the same. What is written is taken part by part, from names
up to modules, in every layout that breaks lines with white space only. -/

namespace ApiSurface

namespace Json

/-- A layout that adds nothing but white space. -/
structure Style.Lawful (style : Style) : Prop where
  lineBreak : ∀ depth, Blank (style.lineBreak depth)
  colon : ∃ b, Blank b ∧ style.colon = ':' :: b

theorem lawful_pretty : pretty.Lawful where
  lineBreak depth := by
    intro c hc
    rcases List.mem_cons.mp hc with rfl | hc
    · exact Or.inr (Or.inl rfl)
    · exact Or.inl (List.eq_of_mem_replicate hc)
  colon := ⟨[' '], fun c hc => Or.inl (List.mem_singleton.mp hc), rfl⟩

variable {style : Style}

/-! ### Written arrays -/

/-- A written value begins with a character that is neither blank nor the end of an array. -/
theorem write_eq_cons (style : Style) (depth : Nat) (v : Json) :
    ∃ c cs, v.write style depth = c :: cs ∧ ¬IsBlank c ∧ c ≠ ']' := by
  cases v with
  | string text => exact ⟨'"', _, by rw [write, quote], by decide, by decide⟩
  | array items =>
      cases items with
      | nil => exact ⟨'[', _, by rw [write], by decide, by decide⟩
      | cons item items => exact ⟨'[', _, by rw [write], by decide, by decide⟩
  | object fields =>
      cases fields with
      | nil => exact ⟨'\x7b', _, by rw [write], by decide, by decide⟩
      | cons field fields => exact ⟨'\x7b', _, by rw [write], by decide, by decide⟩

/-- The reader of items takes the written items one by one. -/
inductive ItemsTaken {σ : Type} (item : σ → Scan σ) (style : Style) (depth : Nat) :
    σ → List Json → σ → Prop
  | nil (s : σ) : ItemsTaken item style depth s [] s
  | cons {s s' t : σ} {v : Json} {vs : List Json} (hvalue : Takes (item s) (v.write style depth) s')
      (htail : ItemsTaken item style depth s' vs t) : ItemsTaken item style depth s (v :: vs) t

section Items

variable {σ : Type} {item : σ → Scan σ} {depth : Nat} {s t : σ} {vs : List Json}

theorem ItemsTaken.writeItems (hstyle : style.Lawful) (h : ItemsTaken item style depth s vs t)
    (depth' : Nat) :
    ItemsText item false s (writeItems style depth vs ++ (style.lineBreak depth' ++ [']'])) t := by
  induction h with
  | nil s => exact ItemsText.done (hstyle.lineBreak depth')
  | @cons s s' t v vs hvalue _ ih =>
      obtain ⟨c, cs, hwrite, hc, hend⟩ := write_eq_cons style depth v
      rw [hwrite] at hvalue
      have hmore := ItemsText.more (Lead.next blank_nil (hstyle.lineBreak depth)) hc hend hvalue ih
      simpa [Json.writeItems, hwrite] using hmore

theorem ItemsTaken.write_array (hstyle : style.Lawful)
    (h : ItemsTaken item style (depth + 1) s vs t) :
    ∃ cs, write style depth (.array vs) = '[' :: cs ∧ ItemsText item true s cs t := by
  cases h with
  | nil => exact ⟨[']'], by rw [write], ItemsText.done blank_nil⟩
  | @cons _ s' _ v vs hvalue htail =>
      obtain ⟨c, cs, hwrite, hc, hend⟩ := write_eq_cons style (depth + 1) v
      rw [hwrite] at hvalue
      have hmore := ItemsText.more (Lead.first (hstyle.lineBreak (depth + 1))) hc hend hvalue
        (htail.writeItems hstyle depth)
      refine ⟨_, ?_, hmore⟩
      simp [write, hwrite]

end Items

theorem itemsTaken_names (depth : Nat) (names : List String) (s : NameSet) :
    ItemsTaken (fun s => return s.insert (← text)) style depth s (names.map .string)
      (names.foldl NameSet.insert s) := by
  induction names generalizing s with
  | nil => exact ItemsTaken.nil s
  | cons name names ih =>
      have htext : Takes text ((string name).write style depth) name := by
        rw [write, quote]
        exact takes_text (takes_scanString name)
      exact ItemsTaken.cons (htext.map s.insert) (ih (s.insert name))

theorem takes_names_write (hstyle : style.Lawful) (s : NameSet) (depth : Nat) :
    Takes names (s.toJson.write style depth) s := by
  have hitems : ItemsTaken (fun s => return s.insert (← text)) style (depth + 1) ∅
      (s.toList.map .string) (NameSet.ofList s.toList) := itemsTaken_names (depth + 1) s.toList ∅
  obtain ⟨cs, hcs, htext⟩ := hitems.write_array hstyle
  rw [NameSet.ofList_toList] at htext
  rw [NameSet.toJson, hcs]
  exact takes_names htext

/-! ### Written objects -/

/-- After a name, the colon of the layout and the value are taken together. -/
theorem takes_after_colon {α β : Type} {value : Scan α} {text : List Char} {a : α}
    (hstyle : style.Lawful) (hvalue : ∀ b, Blank b → Takes value (b ++ text) a) (f : α → β) :
    Takes (do colon; return f (← value)) (style.colon ++ text) (f a) := by
  obtain ⟨b, hb, hcolon⟩ := hstyle.colon
  rw [hcolon]
  exact takes_colon.bind (k := fun _ => do return f (← value)) ((hvalue b hb).map f)

/-- The reader of fields takes the written fields one by one. -/
inductive FieldsTaken {σ : Type} (field : σ → String → Scan σ) (style : Style) (depth : Nat) :
    σ → List (String × Json) → σ → Prop
  | nil (s : σ) : FieldsTaken field style depth s [] s
  | cons {s s' t : σ} {e : String × Json} {es : List (String × Json)}
      (hvalue : Takes (field s e.1) (style.colon ++ e.2.write style depth) s')
      (htail : FieldsTaken field style depth s' es t) : FieldsTaken field style depth s (e :: es) t

variable {σ : Type} {field : σ → String → Scan σ} {depth : Nat} {s t : σ}
  {es : List (String × Json)}

theorem FieldsTaken.writeFields (hstyle : style.Lawful) (h : FieldsTaken field style depth s es t)
    (depth' : Nat) :
    FieldsText field false s
      (writeFields style depth es ++ (style.lineBreak depth' ++ ['\x7d'])) t := by
  induction h with
  | nil s => exact FieldsText.done (hstyle.lineBreak depth')
  | @cons s s' t e es hvalue _ ih =>
      obtain ⟨name, value⟩ := e
      have hmore := FieldsText.more (Lead.next blank_nil (hstyle.lineBreak depth))
        (takes_scanString name) hvalue ih
      simpa [Json.writeFields, writeField, quote] using hmore

theorem FieldsTaken.write_object (hstyle : style.Lawful)
    (h : FieldsTaken field style (depth + 1) s es t) :
    ∃ cs, write style depth (.object es) = '\x7b' :: cs ∧ FieldsText field true s cs t := by
  cases h with
  | nil => exact ⟨['\x7d'], by rw [write], FieldsText.done blank_nil⟩
  | @cons _ s' _ e es hvalue htail =>
      obtain ⟨name, value⟩ := e
      have hmore := FieldsText.more (Lead.first (hstyle.lineBreak (depth + 1)))
        (takes_scanString name) hvalue (htail.writeFields hstyle depth)
      refine ⟨_, ?_, hmore⟩
      simp [write, writeField, quote]

variable {α β : Type} {value : Scan β} {toJson : α → Json} {meaning : α → β}

theorem fieldsTaken_entries (hstyle : style.Lawful) (depth : Nat)
    (hvalue : ∀ b, Blank b → ∀ a, Takes value (b ++ (toJson a).write style depth) (meaning a))
    (entries : List (String × α)) (m : NameMap β) :
    FieldsTaken (fun m name => do colon; return m.insert name (← value)) style depth m
      (entries.map fun e => (e.1, toJson e.2))
      ((entries.map fun e => (e.1, meaning e.2)).foldl (fun m e => m.insert e.1 e.2) m) := by
  induction entries generalizing m with
  | nil => exact FieldsTaken.nil m
  | cons e entries ih =>
      have htaken := takes_after_colon hstyle (fun b hb => hvalue b hb e.2) (m.insert e.1)
      exact FieldsTaken.cons htaken (ih (m.insert e.1 (meaning e.2)))

/-- A written map is taken if its values are, with white space before them. -/
theorem takes_map_write_map (hstyle : style.Lawful) (m : NameMap α) (depth : Nat)
    (hvalue : ∀ b, Blank b → ∀ a,
      Takes value (b ++ (toJson a).write style (depth + 1)) (meaning a)) :
    Takes (map value) ((m.toJson toJson).write style depth) (m.map meaning) := by
  have hfields := fieldsTaken_entries hstyle (depth + 1) hvalue m.toList ∅
  obtain ⟨cs, hcs, htext⟩ := hfields.write_object hstyle
  rw [NameMap.toJson, hcs, ← NameMap.ofList_map]
  exact takes_map htext

theorem takes_map_write {value : Scan α} (hstyle : style.Lawful) (m : NameMap α) (depth : Nat)
    (hvalue : ∀ b, Blank b → ∀ a, Takes value (b ++ (toJson a).write style (depth + 1)) a) :
    Takes (map value) ((m.toJson toJson).write style depth) m := by
  have hmap : Takes (map value) ((m.toJson toJson).write style depth) (m.map id) :=
    takes_map_write_map hstyle m depth hvalue
  rwa [NameMap.map_id] at hmap

end Json

open Json

variable {style : Style}

/-! ### Written records -/

namespace Symbols

theorem takes_readClass (hstyle : style.Lawful) (methods : NameSet) (depth : Nat) :
    Takes readClass ((classJson methods).write style depth) methods := by
  have hmethods : Takes (classField none "methods")
      (style.colon ++ methods.toJson.write style (depth + 1)) (some methods) :=
    takes_after_colon hstyle (fun _ => Takes.blank (takes_names_write hstyle methods _)) some
  obtain ⟨cs, hcs, htext⟩ :=
    (FieldsTaken.cons (e := ("methods", methods.toJson)) hmethods (.nil _)).write_object hstyle
  rw [classJson, hcs]
  exact fun rest => (peekValue_brace _ _).trans (htext.takes_opened.map (·.getD ∅) rest)

/-- A record of a module is taken if what stands for its classes is. -/
theorem takes_read_record (hstyle : style.Lawful) {classesJson : Json} {classes : NameMap NameSet}
    (functions : NameSet) (depth : Nat)
    (hclasses : ∀ b, Blank b →
      Takes (map readClass) (b ++ classesJson.write style (depth + 1)) classes) :
    Takes read
      ((Json.object [("classes", classesJson), ("functions", functions.toJson)]).write style depth)
      { classes, functions } := by
  have hfirst : Takes (field {} "classes") (style.colon ++ classesJson.write style (depth + 1))
      (Fields.mk (some classes) none) :=
    takes_after_colon hstyle hclasses fun classes => Fields.mk (some classes) none
  have hsecond : Takes (field (Fields.mk (some classes) none) "functions")
      (style.colon ++ functions.toJson.write style (depth + 1))
      (Fields.mk (some classes) (some functions)) :=
    takes_after_colon hstyle (fun _ => Takes.blank (takes_names_write hstyle functions _))
      fun functions => Fields.mk (some classes) (some functions)
  have hfields := FieldsTaken.cons (e := ("classes", classesJson)) hfirst
    (.cons (e := ("functions", functions.toJson)) hsecond (.nil _))
  obtain ⟨cs, hcs, htext⟩ := hfields.write_object hstyle
  rw [hcs]
  exact fun rest => (peekValue_brace _ _).trans
    (htext.takes_opened.map (fun t => Symbols.mk (t.classes.getD ∅) (t.functions.getD ∅)) rest)

theorem takes_read (hstyle : style.Lawful) (s : Symbols) (depth : Nat) :
    Takes read (s.toJson.write style depth) s :=
  takes_read_record hstyle s.functions depth fun _ => Takes.blank
    (takes_map_write hstyle s.classes _ fun _ hb methods =>
      Takes.blank (takes_readClass hstyle methods _) hb)

end Symbols

/-! ### Written snapshots -/

namespace Snapshot

/-- Blank text after a written snapshot does not matter. -/
theorem ofJson_toJson_append (s : Snapshot) {blanks : String} (h : Blank blanks.toList) :
    ofJson (s.toJson ++ blanks) = .ok s := by
  have hmap := takes_map_write lawful_pretty s.modules 0 fun b hb symbols =>
    Takes.blank (Symbols.takes_read lawful_pretty symbols _) hb
  have hread := readText_of_takes (hmap.map Snapshot.mk) h
  rw [String.ofList_append, String.ofList_toList] at hread
  exact hread

theorem ofJson_toJson (s : Snapshot) : ofJson s.toJson = .ok s := by
  have hread := ofJson_toJson_append s (show Blank "".toList from blank_nil)
  rwa [String.append_empty] at hread

theorem toJson_injective {s t : Snapshot} (h : s.toJson = t.toJson) : s = t := by
  have hread : ofJson s.toJson = ofJson t.toJson := congrArg ofJson h
  rw [ofJson_toJson, ofJson_toJson] at hread
  exact Except.ok.inj hread

theorem ext_get? {s t : Snapshot} (h : ∀ path, s.get? path = t.get? path) : s = t :=
  congrArg Snapshot.mk (NameMap.ext_get? h)

theorem foldl_insert (modules : List (String × Symbols)) (m : NameMap Symbols) :
    modules.foldl (fun s e => s.insert e.1 e.2) (Snapshot.mk m) =
      ⟨modules.foldl (fun m e => m.insert e.1 e.2) m⟩ :=
  List.foldl_hom Snapshot.mk fun _ _ => rfl

/-- **Reading undoes writing, and the text is that of no other snapshot.** Whatever text a snapshot
was read from, writing it and reading it again changes nothing. Two snapshots have one text exactly if
they agree on every module, so the order in which modules are set does not show. -/
theorem toJson_exact :
    (∀ s : Snapshot, ofJson s.toJson = .ok s) ∧
    (∀ (text : String) (s : Snapshot), ofJson text = .ok s →
      ofJson s.toJson = .ok s ∧ (ofJson s.toJson).map toJson = .ok s.toJson) ∧
    (∀ s t : Snapshot, s.toJson = t.toJson ↔ ∀ path, s.get? path = t.get? path) ∧
    ∀ (s : Snapshot) (es fs : List (String × Symbols)), es.Perm fs → (es.map Prod.fst).Nodup →
      (es.foldl (fun s e => s.insert e.1 e.2) s).toJson =
        (fs.foldl (fun s e => s.insert e.1 e.2) s).toJson := by
  refine ⟨ofJson_toJson, ?_, ?_, ?_⟩
  · intro text s _
    rw [ofJson_toJson]
    exact ⟨rfl, rfl⟩
  · intro s t
    constructor
    · intro h path
      rw [toJson_injective h]
    · intro h
      rw [ext_get? h]
  · intro s es fs hperm hkeys
    rw [foldl_insert, foldl_insert, NameMap.foldl_insert_eq_of_perm hperm hkeys]

/-- A snapshot with names that have to be escaped, or are empty. -/
def oddNames : Snapshot :=
  Snapshot.insert {} "a\"\\\u0001/é" { classes := NameMap.insert ∅ "" (.ofList ["\n", ""]) }

/-- Another text of it: the records are arrays, and the names are repeated and out of order. -/
def oddText : String :=
  " \x7b\"a\\\"\\\\\\u0001\\/é\" :[\x7b\"\":[[\"\\u000a\",\"\",\"\\n\"]]\x7d ]\x7d\n"

theorem toJson_exact_oddText :
    ofJson oddText = .ok oddNames ∧ oddText ≠ oddNames.toJson ∧
      (ofJson oddNames.toJson).map toJson = .ok oddNames.toJson ∧
      ((oddNames.insert "b" {}).insert "a" {}).toJson =
        ((oddNames.insert "a" {}).insert "b" {}).toJson := by
  have hread : ofJson oddText = .ok oddNames := by decide +kernel
  have horder := toJson_exact.2.2.2 oddNames [("b", {}), ("a", {})] [("a", {}), ("b", {})]
    (List.Perm.swap _ _ _) (by decide)
  exact ⟨hread, by decide +kernel, (toJson_exact.2.1 oddText oddNames hread).2, horder⟩

end Snapshot

end ApiSurface
