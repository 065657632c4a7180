import Mathlib.Data.List.Lex
import Mathlib.Data.List.Infix
import ApiSurface.Crawl.Scan
import ApiSurface.Proofs.PathFollowing

/-! The source files below a root. The walk leaves out a directory together with all that lies below
it, testing one directory after the other on the way down. As the path of a directory begins with the
paths of those above it, a text in one of them is a text in the last one, and so the last one alone
decides. -/

namespace ApiSurface

namespace Entry

variable {skip : List String → Bool}

/-! ### The names that a walk lists -/

mutual

theorem isPrefix_of_mem_walk (skip : List String → Bool) (path : List String) :
    ∀ (e : Entry) {names : List String}, names ∈ walk skip path e → path <+: names
  | file _, names, h => by
      rw [walk, List.mem_singleton] at h
      exact h ▸ List.prefix_refl path
  | link _, names, h => by
      rw [walk, List.mem_singleton] at h
      exact h ▸ List.prefix_refl path
  | directory es, names, h => by
      rw [walk] at h
      split at h
      · cases h
      · obtain ⟨d, _, hnames⟩ := isPrefix_of_mem_walkAll skip path es h
        exact (List.prefix_append path [d.1]).trans hnames

theorem isPrefix_of_mem_walkAll (skip : List String → Bool) (above : List String) :
    ∀ (es : List (String × Entry)) {names : List String}, names ∈ walkAll skip above es →
      ∃ d ∈ es, above ++ [d.1] <+: names
  | [], names, h => by
      rw [walkAll] at h
      cases h
  | (name, e) :: es, names, h => by
      rw [walkAll, List.mem_append] at h
      rcases h with h | h
      · exact ⟨(name, e), List.mem_cons_self, isPrefix_of_mem_walk skip (above ++ [name]) e h⟩
      · obtain ⟨d, hd, hnames⟩ := isPrefix_of_mem_walkAll skip above es h
        exact ⟨d, List.mem_cons_of_mem _ hd, hnames⟩

end

theorem mem_walkAll {above names : List String} {es : List (String × Entry)} :
    names ∈ walkAll skip above es ↔ ∃ d ∈ es, names ∈ walk skip (above ++ [d.1]) d.2 := by
  induction es with
  | nil =>
      rw [walkAll]
      simp
  | cons d es ih =>
      obtain ⟨name, e⟩ := d
      rw [walkAll, List.mem_append, ih]
      simp

/-- A walk lists an entry itself, or what it lists below it if it is a directory that is entered. -/
theorem append_mem_walk {path below : List String} {e : Entry} :
    path ++ below ∈ walk skip path e ↔
      below = [] ∧ e.isDirectory = false ∨
        ∃ es, e = directory es ∧ skip path = false ∧ path ++ below ∈ walkAll skip path es := by
  cases e with
  | file content =>
      rw [walk]
      simp [isDirectory]
  | link target =>
      rw [walk]
      simp [isDirectory]
  | directory es =>
      rw [walk]
      cases hskip : skip path <;> simp [isDirectory]

theorem not_mem_walkAll_self (skip : List String → Bool) (above : List String)
    (es : List (String × Entry)) : above ∉ walkAll skip above es := by
  intro h
  obtain ⟨d, _, hnames⟩ := isPrefix_of_mem_walkAll skip above es h
  have hlength := hnames.length_le
  rw [List.length_append, List.length_singleton] at hlength
  omega

theorem cons_mem_walkAll {above : List String} {es : List (String × Entry)}
    (hes : es.Pairwise (·.1 < ·.1)) {name : String} {below : List String} :
    above ++ name :: below ∈ walkAll skip above es ↔
      ∃ e, es.lookup name = some e ∧ (above ++ [name]) ++ below ∈ walk skip (above ++ [name]) e := by
  rw [mem_walkAll, List.append_cons above name below]
  constructor
  · rintro ⟨d, hd, hnames⟩
    have hprefix := isPrefix_of_mem_walk skip _ d.2 hnames
    rw [List.append_assoc, List.prefix_append_right_inj, List.singleton_append] at hprefix
    have hname : d.1 = name := (List.cons_prefix_cons.mp hprefix).1
    subst hname
    exact ⟨d.2, (NameMap.lookup_eq_some_iff_mem hes).mpr hd, hnames⟩
  · rintro ⟨e, he, hnames⟩
    exact ⟨(name, e), (NameMap.lookup_eq_some_iff_mem hes).mp he, hnames⟩

/-- No directory strictly between two ends of a way is left out. -/
def Open (skip : List String → Bool) (above below : List String) : Prop :=
  ∀ between, between ≠ [] → between ≠ below → between <+: below → skip (above ++ between) = false

theorem open_singleton (skip : List String → Bool) (above : List String) (name : String) :
    Open skip above [name] := by
  intro between hnil hne hprefix
  cases between with
  | nil => exact absurd rfl hnil
  | cons first rest =>
      obtain ⟨rfl, hrest⟩ := List.cons_prefix_cons.mp hprefix
      rw [List.prefix_nil.mp hrest] at hne
      exact absurd rfl hne

theorem open_cons_iff {above below : List String} (name : String) (hbelow : below ≠ []) :
    Open skip above (name :: below) ↔
      skip (above ++ [name]) = false ∧ Open skip (above ++ [name]) below := by
  constructor
  · intro h
    refine ⟨h [name] (List.cons_ne_nil _ _) ?_ ?_, ?_⟩
    · intro heq
      cases heq
      exact hbelow rfl
    · exact List.cons_prefix_cons.mpr ⟨rfl, List.nil_prefix⟩
    · intro between _ hne hprefix
      rw [List.append_assoc, List.singleton_append]
      refine h (name :: between) (List.cons_ne_nil _ _) ?_ (List.cons_prefix_cons.mpr ⟨rfl, hprefix⟩)
      intro heq
      cases heq
      exact hne rfl
  · rintro ⟨hname, h⟩ between hnil hne hprefix
    cases between with
    | nil => exact absurd rfl hnil
    | cons first rest =>
        obtain ⟨rfl, hrest⟩ := List.cons_prefix_cons.mp hprefix
        by_cases hlast : rest = []
        · rw [hlast]
          exact hname
        · rw [List.append_cons]
          refine h rest hlast ?_ hrest
          rintro rfl
          exact hne rfl

/-- What a walk lists: the files and links to which no directory on the way is left out. -/
theorem append_mem_walkAll {above below : List String} {es : List (String × Entry)}
    (h : Sound (directory es)) :
    above ++ below ∈ walkAll skip above es ↔
      (∃ e, find? es below = some e ∧ e.isDirectory = false) ∧ Open skip above below := by
  induction below generalizing above es with
  | nil =>
      rw [List.append_nil]
      refine iff_of_false (not_mem_walkAll_self skip above es) ?_
      rintro ⟨⟨e, he, -⟩, -⟩
      cases he
  | cons name below ih =>
      cases h with
      | directory _ ordered named sound =>
          rw [cons_mem_walkAll ordered]
          simp only [append_mem_walk]
          by_cases hlast : below = []
          · subst hlast
            -- a directory in this place does not list itself, so the entry is a file or a link
            have hself : ∀ inner, (above ++ [name]) ++ [] ∉ walkAll skip (above ++ [name]) inner := by
              intro inner
              rw [List.append_nil]
              exact not_mem_walkAll_self skip _ inner
            simp only [hself, and_false, exists_false, or_false, true_and, open_singleton, and_true]
            exact Iff.rfl
          · rw [open_cons_iff name hlast]
            constructor
            · rintro ⟨e, hlookup, ⟨hnil, -⟩ | ⟨inner, rfl, hskip, hmem⟩⟩
              · exact absurd hnil hlast
              · rw [ih (sound _ (mem_of_lookup hlookup))] at hmem
                rw [find?_cons_directory hlookup hlast]
                exact ⟨hmem.1, hskip, hmem.2⟩
            · rintro ⟨⟨e, he, hfile⟩, hskip, hopen⟩
              obtain ⟨inner, hlookup, hfind⟩ := exists_lookup_of_find?_cons hlast he
              refine ⟨directory inner, hlookup, Or.inr ⟨inner, rfl, hskip, ?_⟩⟩
              exact (ih (sound _ (mem_of_lookup hlookup))).mpr ⟨⟨e, hfind, hfile⟩, hopen⟩

/-! ### The order of a walk -/

theorem lt_of_isPrefix {above xs ys : List String} {a b : String} (hab : a < b)
    (hxs : above ++ [a] <+: xs) (hys : above ++ [b] <+: ys) : xs < ys := by
  obtain ⟨x, rfl⟩ := hxs
  obtain ⟨y, rfl⟩ := hys
  rw [List.append_assoc, List.append_assoc]
  exact List.append_left_lt (List.cons_lt_cons_iff.mpr (Or.inl hab))

mutual

theorem pairwise_walk (skip : List String → Bool) (path : List String) :
    ∀ e : Entry, e.Sound → (walk skip path e).Pairwise (· < ·)
  | file _, _ => by
      rw [walk]
      exact List.pairwise_singleton _ _
  | link _, _ => by
      rw [walk]
      exact List.pairwise_singleton _ _
  | directory es, h => by
      rw [walk]
      split
      · exact List.Pairwise.nil
      · cases h with
        | directory _ ordered named sound => exact pairwise_walkAll skip path es ordered sound

theorem pairwise_walkAll (skip : List String → Bool) (above : List String) :
    ∀ es : List (String × Entry), es.Pairwise (·.1 < ·.1) → (∀ d ∈ es, d.2.Sound) →
      (walkAll skip above es).Pairwise (· < ·)
  | [], _, _ => by
      rw [walkAll]
      exact List.Pairwise.nil
  | (name, e) :: es, ordered, sound => by
      obtain ⟨hfirst, hes⟩ := List.pairwise_cons.mp ordered
      rw [walkAll]
      refine List.pairwise_append.mpr ⟨pairwise_walk skip _ e (sound _ List.mem_cons_self),
        pairwise_walkAll skip above es hes fun d hd => sound d (List.mem_cons_of_mem _ hd), ?_⟩
      intro xs hxs ys hys
      obtain ⟨d, hd, hprefix⟩ := isPrefix_of_mem_walkAll skip above es hys
      exact lt_of_isPrefix (hfirst d hd) (isPrefix_of_mem_walk skip _ e hxs) hprefix

end

theorem isFileName_of_find? {es : List (String × Entry)} {names : List String} {e : Entry}
    (h : Sound (directory es)) (hfind : find? es names = some e) :
    ∀ name ∈ names, isFileName name = true := by
  induction names generalizing es with
  | nil => cases hfind
  | cons name names ih =>
      cases h with
      | directory _ ordered named sound =>
          by_cases hlast : names = []
          · subst hlast
            simpa using named _ (mem_of_lookup hfind)
          · obtain ⟨inner, hlookup, hbelow⟩ := exists_lookup_of_find?_cons hlast hfind
            have hmem := mem_of_lookup hlookup
            exact List.forall_mem_cons.mpr ⟨named _ hmem, ih (sound _ hmem) hbelow⟩

end Entry

/-! ### Texts in paths -/

theorem containsText_iff {part cs : List Char} : containsText part cs = true ↔ part <:+: cs := by
  induction cs with
  | nil => rw [containsText, List.isEmpty_iff, List.infix_nil]
  | cons c cs ih =>
      rw [containsText, Bool.or_eq_true, List.isPrefixOf_iff_prefix, ih, List.infix_cons_iff]

theorem slashed_append {names more : List String} (hnames : names ≠ []) (hmore : more ≠ []) :
    slashed (names ++ more) = slashed names ++ "/" ++ slashed more :=
  String.intercalate_append_of_ne_nil hnames hmore

theorem components_slashed {names : List String} (hnil : names ≠ [])
    (hnames : ∀ name ∈ names, '/' ∉ name.toList) : Path.components (slashed names) = names := by
  have hnot : ∀ cs ∈ names.map String.toList, '/' ∉ cs := by
    intro cs hcs
    obtain ⟨name, hname, rfl⟩ := List.mem_map.mp hcs
    exact hnames name hname
  have htext : (slashed names).toList = ['/'].intercalate (names.map String.toList) :=
    String.toList_intercalate
  rw [Path.components, htext, List.splitOn_intercalate '/' hnot (by simpa using hnil), List.map_map]
  simp [Function.comp_def]

theorem slashed_injective {names names' : List String} (hnil : names ≠ []) (hnil' : names' ≠ [])
    (hnames : ∀ name ∈ names, '/' ∉ name.toList) (hnames' : ∀ name ∈ names', '/' ∉ name.toList)
    (h : slashed names = slashed names') : names = names' := by
  rw [← components_slashed hnil hnames, h, components_slashed hnil' hnames']

namespace Config

theorem leavesOut_iff {c : Config} {names : List String} :
    c.leavesOut names = true ↔ ∃ part ∈ c.exclude, part.toList <:+: (slashed names).toList := by
  rw [leavesOut, List.any_eq_true]
  simp only [containsText_iff]

/-- What is below a directory that is left out would be left out for its own path too. -/
theorem leavesOut_append {c : Config} {names : List String} (hnames : names ≠ [])
    (h : c.leavesOut names = true) (more : List String) : c.leavesOut (names ++ more) = true := by
  by_cases hmore : more = []
  · rw [hmore, List.append_nil]
    exact h
  · obtain ⟨part, hpart, hinfix⟩ := leavesOut_iff.mp h
    refine leavesOut_iff.mpr ⟨part, hpart, hinfix.trans ?_⟩
    rw [slashed_append hnames hmore, String.toList_append, String.toList_append, List.append_assoc]
    exact (List.prefix_append _ _).isInfix

/-- The last directory of a way decides for all of them. -/
theorem open_leavesOut_iff {c : Config} {names : List String} (hnames : names ≠ []) :
    Entry.Open c.leavesOut [] names ↔
      names.dropLast = [] ∨ c.leavesOut names.dropLast = false := by
  have hsplit : names.dropLast ++ [names.getLast hnames] = names := List.dropLast_append_getLast hnames
  constructor
  · intro h
    by_cases hparent : names.dropLast = []
    · exact Or.inl hparent
    · refine Or.inr (h names.dropLast hparent ?_ (List.dropLast_prefix names))
      intro heq
      have hlength := congrArg List.length heq
      have hpos := List.length_pos_iff.mpr hnames
      rw [List.length_dropLast] at hlength
      omega
  · intro h between hnil hne hprefix
    rw [← hsplit] at hprefix hne
    have hbetween : between <+: names.dropLast :=
      (List.prefix_concat_iff.mp hprefix).resolve_left hne
    obtain ⟨more, hmore⟩ := hbetween
    rw [List.nil_append]
    rcases h with h | h
    · rw [h] at hmore
      exact absurd (List.append_eq_nil_iff.mp hmore).1 hnil
    · by_contra hskip
      have hout := leavesOut_append hnil (Bool.not_eq_false _ ▸ hskip) more
      rw [hmore, h] at hout
      cases hout

theorem accepts_iff {c : Config} {name : String} :
    c.accepts name = true ↔
      '.' :: c.extension.toList <:+ name.toList ∧ name.toList.head? ≠ some '_' := by
  rw [accepts, Bool.and_eq_true, List.isSuffixOf_iff_suffix, bne_iff_ne]

/-- A source in a directory, by the names on the way to it: a file or link with the configured ending
and no underscore in front, reached through directories only, whose own directory is the root or has a
path below the root that contains none of the configured texts. -/
structure Selects (c : Config) (entries : List (String × Entry)) (names : List String) : Prop where
  entry : ∃ e, Entry.find? entries names = some e ∧ e.isDirectory = false
  name : ∃ name, names.getLast? = some name ∧ '.' :: c.extension.toList <:+ name.toList ∧
    name.toList.head? ≠ some '_'
  parent : names.dropLast = [] ∨
    ∀ part ∈ c.exclude, ¬part.toList <:+: (slashed names.dropLast).toList

/-- The names of the sources in a directory, in the order of the walk. -/
def selected (c : Config) (entries : List (String × Entry)) : List (List String) :=
  (Entry.walkAll c.leavesOut [] entries).filter fun names => (names.getLast?.map c.accepts).getD false

variable {c : Config} {entries : List (String × Entry)}

theorem mem_selected (h : Entry.Sound (.directory entries)) {names : List String} :
    names ∈ c.selected entries ↔ c.Selects entries names := by
  have hwalk : [] ++ names ∈ Entry.walkAll c.leavesOut [] entries ↔
      (∃ e, Entry.find? entries names = some e ∧ e.isDirectory = false) ∧
        Entry.Open c.leavesOut [] names :=
    Entry.append_mem_walkAll h
  have haccepts : (names.getLast?.map c.accepts).getD false = true ↔
      ∃ name, names.getLast? = some name ∧ '.' :: c.extension.toList <:+ name.toList ∧
        name.toList.head? ≠ some '_' := by
    simp only [← accepts_iff]
    cases names.getLast? <;> simp
  rw [List.nil_append] at hwalk
  rw [selected, List.mem_filter, hwalk, haccepts]
  have hparent : ∀ {e : Entry}, Entry.find? entries names = some e →
      (Entry.Open c.leavesOut [] names ↔ names.dropLast = [] ∨
        ∀ part ∈ c.exclude, ¬part.toList <:+: (slashed names.dropLast).toList) := by
    intro e he
    have hnil : names ≠ [] := by
      rintro rfl
      cases he
    rw [open_leavesOut_iff hnil, ← Bool.not_eq_true, leavesOut_iff]
    push Not
    rfl
  constructor
  · rintro ⟨⟨⟨e, he, hfile⟩, hopen⟩, hname⟩
    exact ⟨⟨e, he, hfile⟩, hname, (hparent he).mp hopen⟩
  · rintro ⟨⟨e, he, hfile⟩, hname, hout⟩
    exact ⟨⟨⟨e, he, hfile⟩, (hparent he).mpr hout⟩, hname⟩

theorem pairwise_selected (h : Entry.Sound (.directory entries)) :
    (c.selected entries).Pairwise (· < ·) := by
  cases h with
  | directory _ ordered named sound =>
      exact (Entry.pairwise_walkAll c.leavesOut [] entries ordered sound).filter _

/-- The keys of a root begin in one way and go on with the names below it. -/
theorem exists_key_eq (c : Config) (root : String) :
    ∃ start, ∀ names, names ≠ [] → c.key root names = start ++ slashed names := by
  by_cases hroot : (if c.keepRootName then (Path.fileName? root).toList else []) = []
  · refine ⟨"", fun names _ => ?_⟩
    rw [key, hroot, List.nil_append, String.empty_append]
  · refine ⟨slashed (if c.keepRootName then (Path.fileName? root).toList else []) ++ "/", ?_⟩
    intro names hnames
    rw [key, slashed_append hroot hnames]

theorem key_injective (c : Config) (root : String) {names names' : List String} (hnil : names ≠ [])
    (hnil' : names' ≠ []) (hnames : ∀ name ∈ names, isFileName name = true)
    (hnames' : ∀ name ∈ names', isFileName name = true)
    (h : c.key root names = c.key root names') : names = names' := by
  obtain ⟨start, hstart⟩ := exists_key_eq c root
  rw [hstart names hnil, hstart names' hnil'] at h
  have hslashed : slashed names = slashed names' := by
    apply String.toList_inj.mp
    have htext := congrArg String.toList h
    rw [String.toList_append, String.toList_append] at htext
    exact List.append_cancel_left htext
  exact slashed_injective hnil hnil'
    (fun name hname => FileTree.not_mem_slash_of_isFileName (hnames name hname))
    (fun name hname => FileTree.not_mem_slash_of_isFileName (hnames' name hname)) hslashed

end Config

namespace FileTree

/-- What a path leads to is sound, as the whole tree is. -/
theorem sound_of_find? {t : FileTree} {path : List String} {e : Entry} (h : t.find? path = some e) :
    e.Sound := by
  have hbelow : ∀ (path : List String) (es : List (String × Entry)),
      Entry.Sound (.directory es) → Entry.find? es path = some e → e.Sound := by
    intro path
    induction path with
    | nil => intro es _ hfind; cases hfind
    | cons name path ih =>
        intro es hes hfind
        cases hes with
        | directory _ ordered named sound =>
            by_cases hlast : path = []
            · subst hlast
              exact sound _ (Entry.mem_of_lookup hfind)
            · obtain ⟨inner, hlookup, hinner⟩ := Entry.exists_lookup_of_find?_cons hlast hfind
              exact ih inner (sound _ (Entry.mem_of_lookup hlookup)) hinner
  cases path with
  | nil =>
      cases h
      exact t.sound
  | cons name path => exact hbelow (name :: path) t.entries t.sound h

theorem sound_of_entry {t : FileTree} {last : Bool} {path : String} {e : Entry}
    (h : t.entry last path = .ok e) : e.Sound := by
  obtain ⟨place, htarget⟩ := entry_eq_ok_iff.mp h
  rw [target_of_ne_empty t (ne_empty_of_target htarget)] at htarget
  exact sound_of_find? (find?_of_follow_present htarget)

end FileTree

namespace Config

/-- **What a scan lists.** It lists every source below the root once and nothing else, each with a path
that leads to it. The configured texts are looked for in the path of its directory below the root
only: neither its own name nor the root's name or place matters. -/
theorem scan_exact (c : Config) (t : FileTree) (root : String) (entries : List (String × Entry))
    (h : t.entry false root = .ok (.directory entries)) :
    ∃ sources : List (List String),
      c.scan t root = sources.map (c.sourceFile root) ∧
      (∀ names, names ∈ sources ↔ c.Selects entries names) ∧
      sources.Nodup ∧ (c.scan t root).Nodup ∧
      ∀ names e, names ∈ sources → Entry.find? entries names = some e →
        t.entry false (c.sourceFile root names).path = .ok e := by
  have hsound := FileTree.sound_of_entry h
  have hscan : c.scan t root = (c.selected entries).map (c.sourceFile root) := by
    rw [scan, h]
    rfl
  have hnodup : (c.selected entries).Nodup :=
    (pairwise_selected hsound).imp fun hlt => ne_of_lt hlt
  have hfound : ∀ names ∈ c.selected entries,
      names ≠ [] ∧ ∀ name ∈ names, isFileName name = true := by
    intro names hnames
    obtain ⟨e, he, -⟩ := ((mem_selected hsound).mp hnames).entry
    refine ⟨?_, Entry.isFileName_of_find? hsound he⟩
    rintro rfl
    cases he
  refine ⟨c.selected entries, hscan, fun names => mem_selected hsound, hnodup, ?_, ?_⟩
  · rw [hscan]
    refine hnodup.map_on fun names hnames names' hnames' heq => ?_
    obtain ⟨hnil, hnamed⟩ := hfound names hnames
    obtain ⟨hnil', hnamed'⟩ := hfound names' hnames'
    exact key_injective c root hnil hnil' hnamed hnamed' (congrArg SourceFile.key heq)
  · intro names e hnames he
    exact FileTree.entry_join h (hfound names hnames).2 he fun _ _ => rfl

/-- A package with a nested directory whose path below the package contains a text that spans two
names, and with a link. -/
def packageEntries : List (String × Entry) :=
  [("_a.py", .file .empty), ("b.py", .link "nowhere"),
    ("sub", .directory [("c.py", .file .empty), ("deep", .directory [("d.py", .file .empty)])])]

/-- The tree that holds the package, under a name that contains the text too. -/
def packageTree : FileTree where
  entries := [("sub", .directory [("deep", .directory packageEntries)])]
  sound := by
    have hfile : Entry.Sound (.file .empty) := .file _
    have hdeep : Entry.Sound (.directory [("d.py", .file .empty)]) :=
      .directory _ (List.pairwise_singleton _ _) (by decide +kernel) (by simp [hfile])
    have hsub : Entry.Sound (.directory
        [("c.py", .file .empty), ("deep", .directory [("d.py", .file .empty)])]) :=
      .directory _ (by decide +kernel) (by decide +kernel) (by simp [hfile, hdeep])
    have hpackage : Entry.Sound (.directory packageEntries) :=
      .directory _ (by decide +kernel) (by decide +kernel)
        (by simp [packageEntries, hfile, hsub, Entry.Sound.link])
    have hinner : Entry.Sound (.directory [("deep", .directory packageEntries)]) :=
      .directory _ (List.pairwise_singleton _ _) (by decide +kernel) (by simp [hpackage])
    exact .directory _ (List.pairwise_singleton _ _) (by decide +kernel) (by simp [hinner])

/-- The file two directories down is left out for the text that spans both their names; the place of
the package, which contains the text, does not matter. -/
theorem scan_packageTree :
    packageTree.entry false "sub/deep" = .ok (.directory packageEntries) ∧
      ({ exclude := ["b/de"] } : Config).scan packageTree "sub/deep" =
        [⟨"sub/deep/b.py", "b.py"⟩, ⟨"sub/deep/sub/c.py", "sub/c.py"⟩] ∧
      ({ exclude := ["b/de"] } : Config).Selects packageEntries ["sub", "c.py"] ∧
      packageTree.entry false "sub/deep/sub/c.py" = .ok (.file .empty) := by
  have hentry : packageTree.entry false "sub/deep" = .ok (.directory packageEntries) := rfl
  have hscan : ({ exclude := ["b/de"] } : Config).scan packageTree "sub/deep" =
      [⟨"sub/deep/b.py", "b.py"⟩, ⟨"sub/deep/sub/c.py", "sub/c.py"⟩] := by decide +kernel
  have hselects : ({ exclude := ["b/de"] } : Config).Selects packageEntries ["sub", "c.py"] :=
    ⟨⟨.file .empty, rfl, rfl⟩, ⟨"c.py", rfl, by decide +kernel, by decide +kernel⟩,
      Or.inr (by decide +kernel)⟩
  obtain ⟨sources, -, hsources, -, -, hpath⟩ := scan_exact { exclude := ["b/de"] } _ _ _ hentry
  exact ⟨hentry, hscan, hselects, hpath _ _ ((hsources _).mpr hselects) rfl⟩

end Config

end ApiSurface
