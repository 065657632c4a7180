import ApiSurface.Proofs.PathFollowing

/-! Writing a file that was not there before. The new file is found under its own name; every directory
above it has one more entry, and everything else is as before. A path that led somewhere therefore
leads there still, and only what a path to one of those directories finds has changed. -/

namespace ApiSurface

/-! ### Looking up names after an entry was put -/

namespace Entry

variable {new : Entry} {es inner : List (String × Entry)} {name : String} {path names : List String}

theorem put_cons_directory (hlookup : es.lookup name = some (directory inner)) (hpath : path ≠ []) :
    put new (name :: path) es = NameMap.insertList name (directory (put new path inner)) es := by
  cases path with
  | nil => exact absurd rfl hpath
  | cons next path =>
      rw [put]
      · rw [hlookup]
      · intro hnil
        cases hnil

theorem put_cons_of_not_directory (hlookup : ∀ inner, es.lookup name ≠ some (directory inner))
    (hpath : path ≠ []) : put new (name :: path) es = es := by
  cases path with
  | nil => exact absurd rfl hpath
  | cons next path =>
      rw [put]
      · split
        · rename_i inner hinner
          exact absurd hinner (hlookup inner)
        · rfl
      · intro hnil
        cases hnil

theorem find?_congr {fs : List (String × Entry)} (h : es.lookup name = fs.lookup name)
    (names : List String) : find? es (name :: names) = find? fs (name :: names) := by
  cases names with
  | nil => exact h
  | cons next names => simp only [find?, h]

theorem find?_insertList_of_ne {other : String} (h : other ≠ name) (names : List String) :
    find? (NameMap.insertList name new es) (other :: names) = find? es (other :: names) := by
  apply find?_congr
  rw [NameMap.lookup_insertList, if_neg h]

/-- Nothing stands below what is not a directory. -/
theorem find?_cons_eq_none (hlookup : ∀ inner, es.lookup name ≠ some (directory inner))
    (hnames : names ≠ []) : find? es (name :: names) = none := by
  apply Option.eq_none_iff_forall_ne_some.mpr
  intro e he
  obtain ⟨inner, hinner, -⟩ := exists_lookup_of_find?_cons hnames he
  exact hlookup inner hinner

/-- A new name that is no directory is found itself, and nothing below it. -/
theorem find?_insertList_of_absent (hnew : new.isDirectory = false) (habsent : es.lookup name = none)
    {other : String} (hnames : ¬other :: names <+: [name]) :
    find? (NameMap.insertList name new es) (other :: names) = find? es (other :: names) := by
  by_cases hother : other = name
  · subst hother
    have hmore : names ≠ [] := by
      rintro rfl
      exact hnames (List.prefix_refl _)
    have hbefore : ∀ inner, es.lookup other ≠ some (directory inner) := by
      intro inner hinner
      rw [habsent] at hinner
      cases hinner
    have hafter : ∀ inner,
        (NameMap.insertList other new es).lookup other ≠ some (directory inner) := by
      intro inner hinner
      rw [NameMap.lookup_insertList_self] at hinner
      cases hinner
      cases hnew
    rw [find?_cons_eq_none hbefore hmore, find?_cons_eq_none hafter hmore]
  · exact find?_insertList_of_ne hother names

/-- Where nothing stood, a new entry that is no directory changes nothing but its own place and the
directories above it. -/
theorem find?_put_of_not_isPrefix (hnew : new.isDirectory = false) (habsent : find? es path = none)
    (hnames : ¬names <+: path) : find? (put new path es) names = find? es names := by
  induction path generalizing es names with
  | nil => rw [put]
  | cons name path ih =>
      cases names with
      | nil => exact absurd List.nil_prefix hnames
      | cons other names =>
          by_cases hpath : path = []
          · subst hpath
            rw [put]
            split
            · exact find?_insertList_of_absent hnew habsent hnames
            · rfl
          by_cases hdirectory : ∃ inner, es.lookup name = some (directory inner)
          · obtain ⟨inner, hinner⟩ := hdirectory
            rw [put_cons_directory hinner hpath]
            by_cases hother : other = name
            · subst hother
              rw [List.cons_prefix_cons, not_and] at hnames
              have hbelow : ¬names <+: path := hnames rfl
              have hmore : names ≠ [] := by
                rintro rfl
                exact hbelow List.nil_prefix
              rw [find?_cons_directory hinner hpath] at habsent
              rw [find?_cons_directory (NameMap.lookup_insertList_self _ _ _) hmore,
                find?_cons_directory hinner hmore]
              exact ih habsent hbelow
            · exact find?_insertList_of_ne hother names
          · rw [put_cons_of_not_directory (fun inner hinner => hdirectory ⟨inner, hinner⟩) hpath]

/-- A directory above the new entry has it put into its own entries. -/
theorem find?_put_append (hfind : find? es path = some (directory inner)) (hnames : names ≠ []) :
    find? (put new (path ++ names) es) path = some (directory (put new names inner)) := by
  induction path generalizing es with
  | nil => cases hfind
  | cons name path ih =>
      have hmore : path ++ names ≠ [] := List.append_ne_nil_of_right_ne_nil path hnames
      by_cases hpath : path = []
      · subst hpath
        rw [List.cons_append, put_cons_directory hfind hmore, List.nil_append]
        exact NameMap.lookup_insertList_self _ _ _
      · obtain ⟨middle, hlookup, hbelow⟩ := exists_lookup_of_find?_cons hpath hfind
        rw [List.cons_append, put_cons_directory hlookup hmore,
          find?_cons_directory (NameMap.lookup_insertList_self _ _ _) hpath]
        exact ih hbelow

end Entry

namespace FileTree

variable {t : FileTree} {place path names : List String} {new : Entry} {hnew : new.Sound}

theorem find?_put_append {es : List (String × Entry)} (hfind : t.find? path = some (.directory es))
    (hnames : names ≠ []) :
    (t.put (path ++ names) new hnew).find? path = some (.directory (new.put names es)) := by
  cases path with
  | nil =>
      cases hfind
      rfl
  | cons name path => exact Entry.find?_put_append hfind hnames

theorem find?_put_of_not_isPrefix (hfile : new.isDirectory = false) (habsent : t.find? place = none)
    (hpath : ¬path <+: place) : (t.put place new hnew).find? path = t.find? path := by
  have hplace : place ≠ [] := by
    rintro rfl
    cases habsent
  have hnil : path ≠ [] := by
    rintro rfl
    exact hpath List.nil_prefix
  rw [find?_of_ne_nil _ hnil, find?_of_ne_nil _ hnil]
  rw [find?_of_ne_nil _ hplace] at habsent
  exact Entry.find?_put_of_not_isPrefix hfile habsent hpath

/-- A free place: a name that a directory does not have yet. -/
structure Free (t : FileTree) (place : List String) : Prop where
  absent : t.find? place = none
  parent : ∃ dir name es, place = dir ++ [name] ∧ isFileName name = true ∧
    t.find? dir = some (.directory es)

theorem Free.find?_put_self (h : t.Free place) : (t.put place new hnew).find? place = some new := by
  obtain ⟨dir, name, es, rfl, hname, hdir⟩ := h.parent
  have hparent : (t.put (dir ++ [name]) new hnew).find? dir = some (.directory (new.put [name] es)) :=
    find?_put_append hdir (List.cons_ne_nil name [])
  rw [find?_append hparent (List.cons_ne_nil name []), Entry.put, if_pos hname]
  exact NameMap.lookup_insertList_self _ _ _

/-- Only directories stand above a free place. -/
theorem Free.exists_directory (h : t.Free place) {e : Entry} (habove : path <+: place)
    (hfind : t.find? path = some e) :
    ∃ more es, place = path ++ more ∧ more ≠ [] ∧ e = .directory es := by
  obtain ⟨more, rfl⟩ := habove
  have hmore : more ≠ [] := by
    rintro rfl
    have habsent := h.absent
    rw [List.append_nil, hfind] at habsent
    cases habsent
  obtain ⟨dir, name, es, hplace, -, hdir⟩ := h.parent
  have hdirectory : ∃ fs, t.find? path = some (.directory fs) := by
    obtain ⟨front, last, rfl⟩ : ∃ front last, more = front ++ [last] :=
      ⟨more.dropLast, more.getLast hmore, (List.dropLast_append_getLast hmore).symm⟩
    rw [← List.append_assoc] at hplace
    have hfront : path ++ front = dir := (List.append_inj' hplace rfl).1
    by_cases hnil : front = []
    · rw [hnil, List.append_nil] at hfront
      exact ⟨es, hfront ▸ hdir⟩
    · rw [← hfront] at hdir
      exact exists_directory_of_find?_append hnil hdir
  obtain ⟨fs, hfs⟩ := hdirectory
  rw [hfind] at hfs
  exact ⟨more, fs, rfl, hmore, Option.some.inj hfs⟩

theorem Free.find?_put_of_directory (h : t.Free place) (hnew : new.Sound)
    (hfile : new.isDirectory = false) {es : List (String × Entry)}
    (hfind : t.find? path = some (.directory es)) :
    ∃ fs, (t.put place new hnew).find? path = some (.directory fs) := by
  by_cases habove : path <+: place
  · obtain ⟨more, _, rfl, hmore, -⟩ := h.exists_directory habove hfind
    exact ⟨new.put more es, find?_put_append hfind hmore⟩
  · exact ⟨es, (find?_put_of_not_isPrefix hfile h.absent habove).trans hfind⟩

theorem Free.find?_put_of_file (h : t.Free place) (hfile : new.isDirectory = false) {e : Entry}
    (hfind : t.find? path = some e) (he : e.isDirectory = false) :
    (t.put place new hnew).find? path = some e := by
  have habove : ¬path <+: place := by
    intro habove
    obtain ⟨_, es, -, -, rfl⟩ := h.exists_directory habove hfind
    cases he
  exact (find?_put_of_not_isPrefix hfile h.absent habove).trans hfind

/-! ### Following paths after a file was put -/

variable {last : Bool} {n : Nat} {here parts : List String}

/-- A path that led somewhere leads there still. -/
theorem Free.follow_put (h : t.Free place) (hnew : new.Sound) (hfile : new.isDirectory = false)
    {e : Entry}
    (hfollow : t.follow last n here parts = .ok (.present path e)) :
    ∃ e', (t.put place new hnew).follow last n here parts = .ok (.present path e') := by
  induction n, here, parts using follow_induction t with
  | nil n here =>
      obtain ⟨rfl, hfind⟩ := present_of_follow_nil hfollow
      cases e with
      | directory es =>
          obtain ⟨fs, hfs⟩ := h.find?_put_of_directory hnew hfile hfind
          exact ⟨_, follow_nil hfs⟩
      | file content => exact ⟨_, follow_nil (h.find?_put_of_file hfile hfind rfl)⟩
      | link target => exact ⟨_, follow_nil (h.find?_put_of_file hfile hfind rfl)⟩
  | stay n here part parts hpart ih =>
      rw [follow_stay hpart] at hfollow ⊢
      exact ih hfollow
  | up n here parts ih =>
      rw [follow_up] at hfollow ⊢
      exact ih hfollow
  | missing n here part parts hpart hfind =>
      rw [follow_missing hpart hfind] at hfollow
      split_ifs at hfollow <;> cases hfollow
  | directory n here part parts es hpart hfind ih =>
      obtain ⟨fs, hfs⟩ := h.find?_put_of_directory hnew hfile hfind
      rw [follow_directory hpart hfind] at hfollow
      rw [follow_directory hpart hfs]
      exact ih hfollow
  | file n here part parts content hpart hfind =>
      rw [follow_file hpart hfind] at hfollow
      rw [follow_file hpart (h.find?_put_of_file hfile hfind rfl)]
      split_ifs at hfollow with hend
      cases hfollow
      exact ⟨_, if_pos hend⟩
  | link n here part parts target hpart hfind ih =>
      rw [follow_link hpart hfind] at hfollow
      rw [follow_link hpart (h.find?_put_of_file hfile hfind rfl)]
      split_ifs at hfollow ⊢ with hend
      · cases hfollow
        exact ⟨_, rfl⟩
      · cases n with
        | zero => cases hfollow
        | succ m => exact ih m rfl hfollow

/-- A path that led to the free place leads to what was put there. -/
theorem Free.follow_put_self {content : ByteArray} {hnew : (Entry.file content).Sound}
    (h : t.Free place) (hfollow : t.follow last n here parts = .ok (.absent place false)) :
    (t.put place (.file content) hnew).follow last n here parts =
      .ok (.present place (.file content)) := by
  have hfile : (Entry.file content).isDirectory = false := rfl
  induction n, here, parts using follow_induction t with
  | nil n here => exact absurd hfollow follow_nil_ne_absent
  | stay n here part parts hpart ih =>
      rw [follow_stay hpart] at hfollow ⊢
      exact ih hfollow
  | up n here parts ih =>
      rw [follow_up] at hfollow ⊢
      exact ih hfollow
  | missing n here part parts hpart hfind =>
      rw [follow_missing hpart hfind] at hfollow
      split_ifs at hfollow with hend
      · cases hfollow
        rw [follow_file hpart h.find?_put_self, if_pos hend]
      · cases hfollow
  | directory n here part parts es hpart hfind ih =>
      obtain ⟨fs, hfs⟩ := h.find?_put_of_directory hnew hfile hfind
      rw [follow_directory hpart hfind] at hfollow
      rw [follow_directory hpart hfs]
      exact ih hfollow
  | file n here part parts content' hpart hfind =>
      rw [follow_file hpart hfind] at hfollow
      split_ifs at hfollow
      cases hfollow
  | link n here part parts target hpart hfind ih =>
      rw [follow_link hpart hfind] at hfollow
      rw [follow_link hpart (h.find?_put_of_file hfile hfind rfl)]
      split_ifs at hfollow ⊢ with hend
      · cases hfollow
      · cases n with
        | zero => cases hfollow
        | succ m => exact ih m rfl hfollow

/-! ### Free places are where paths end -/

theorem not_mem_of_mem_splitOn {cs piece : List Char} (h : piece ∈ cs.splitOn '/') :
    '/' ∉ piece := by
  induction cs generalizing piece with
  | nil =>
      rw [List.splitOn_nil, List.mem_singleton] at h
      rw [h]
      exact List.not_mem_nil
  | cons c cs ih =>
      obtain ⟨first, rest, hsplit⟩ := List.exists_cons_of_ne_nil (List.splitOn_ne_nil '/' cs)
      rw [List.splitOn_cons_eq_if_modifyHead] at h
      split_ifs at h with hc
      · rcases List.mem_cons.mp h with rfl | h
        · exact List.not_mem_nil
        · exact ih h
      · rw [hsplit, List.modifyHead_cons] at h
        rcases List.mem_cons.mp h with rfl | h
        · have hfirst := ih (hsplit ▸ List.mem_cons_self)
          rw [List.mem_cons, not_or]
          exact ⟨fun heq => hc (by simp [← heq]), hfirst⟩
        · exact ih (hsplit ▸ List.mem_cons_of_mem first h)

theorem not_mem_slash_of_mem_components {path part : String} (h : part ∈ Path.components path) :
    '/' ∉ part.toList := by
  obtain ⟨piece, hpiece, rfl⟩ := List.mem_map.mp h
  rw [String.toList_ofList]
  exact not_mem_of_mem_splitOn hpiece

theorem isFileName_of_isStep {part : String} (hpart : IsStep part) (hslash : '/' ∉ part.toList) :
    isFileName part = true := by
  simp [isFileName, hpart.ne_empty, hpart.ne_here, hpart.ne_above, hslash]

theorem free_of_follow_absent {slash : Bool} (hhere : ∃ es, t.find? here = some (.directory es))
    (hparts : ∀ part ∈ parts, '/' ∉ part.toList)
    (hfollow : t.follow last n here parts = .ok (.absent place slash)) : t.Free place := by
  induction n, here, parts using follow_induction t with
  | nil n here => exact absurd hfollow follow_nil_ne_absent
  | stay n here part parts hpart ih =>
      rw [follow_stay hpart] at hfollow
      exact ih hhere (fun part hmem => hparts part (List.mem_cons_of_mem _ hmem)) hfollow
  | up n here parts ih =>
      rw [follow_up] at hfollow
      obtain ⟨es, hes⟩ := hhere
      exact ih (exists_directory_dropLast hes)
        (fun part hmem => hparts part (List.mem_cons_of_mem _ hmem)) hfollow
  | missing n here part parts hpart hfind =>
      have hplace : here ++ [part] = place := by
        rw [follow_missing hpart hfind] at hfollow
        split_ifs at hfollow <;> cases hfollow <;> rfl
      obtain ⟨es, hes⟩ := hhere
      subst hplace
      exact ⟨hfind, here, part, es, rfl,
        isFileName_of_isStep hpart (hparts part List.mem_cons_self), hes⟩
  | directory n here part parts es hpart hfind ih =>
      rw [follow_directory hpart hfind] at hfollow
      exact ih ⟨es, hfind⟩ (fun part hmem => hparts part (List.mem_cons_of_mem _ hmem)) hfollow
  | file n here part parts content hpart hfind =>
      rw [follow_file hpart hfind] at hfollow
      split_ifs at hfollow
      cases hfollow
  | link n here part parts target hpart hfind ih =>
      rw [follow_link hpart hfind] at hfollow
      split_ifs at hfollow
      · cases hfollow
      · cases n with
        | zero => cases hfollow
        | succ m =>
            refine ih m rfl ?_ ?_ hfollow
            · rw [linkStart]
              split
              · exact ⟨t.entries, rfl⟩
              · exact hhere
            · intro part hmem
              rcases List.mem_append.mp hmem with hmem | hmem
              · exact not_mem_slash_of_mem_components hmem
              · exact hparts part (List.mem_cons_of_mem _ hmem)

theorem free_of_target_absent {path : String} {slash : Bool}
    (h : t.target last path = .ok (.absent place slash)) : t.Free place := by
  rw [target_of_ne_empty t (ne_empty_of_target h)] at h
  exact free_of_follow_absent ⟨t.entries, rfl⟩
    (fun part hpart => not_mem_slash_of_mem_components hpart) h

/-! ### Files and directories by their paths -/

/-- If a path leads to a directory, then the place is not in it. -/
def Outside (t : FileTree) (place : List String) (text : String) : Prop :=
  ∀ home es, t.target true text = .ok (.present home (.directory es)) → ¬home <+: place

/-- What a path led to is there still, unless it is a directory above the new file. -/
theorem Free.target_put (h : t.Free place) (hfile : new.isDirectory = false) {text : String}
    {e : Entry} (htarget : t.target last text = .ok (.present path e))
    (houtside : e.isDirectory = false ∨ ¬path <+: place) :
    (t.put place new hnew).target last text = .ok (.present path e) := by
  have htext := ne_empty_of_target htarget
  rw [target_of_ne_empty t htext] at htarget
  have hfind := find?_of_follow_present htarget
  obtain ⟨e', hfollow⟩ := h.follow_put hnew hfile htarget
  have hsame : some e' = some e := by
    rw [← find?_of_follow_present hfollow]
    rcases houtside with he | habove
    · exact h.find?_put_of_file hfile hfind he
    · exact (find?_put_of_not_isPrefix hfile h.absent habove).trans hfind
  rw [target_of_ne_empty _ htext, hfollow, Option.some.inj hsame]

theorem Free.target_put_self {content : ByteArray} {hnew : (Entry.file content).Sound}
    (h : t.Free place) {text : String} (htarget : t.target last text = .ok (.absent place false)) :
    (t.put place (.file content) hnew).target last text = .ok (.present place (.file content)) := by
  have htext := ne_empty_of_target htarget
  rw [target_of_ne_empty t htext] at htarget
  rw [target_of_ne_empty _ htext]
  exact h.follow_put_self htarget

theorem Free.read_put (h : t.Free place) (hfile : new.isDirectory = false) {text content : String}
    (hread : t.read text = .ok content) : (t.put place new hnew).read text = .ok content := by
  obtain ⟨path, bytes, htarget, hbytes⟩ := read_eq_ok_iff.mp hread
  exact read_eq_ok_iff.mpr ⟨path, bytes, h.target_put hfile htarget (Or.inl rfl), hbytes⟩

theorem Free.isDirectory_put (h : t.Free place) (hfile : new.isDirectory = false) {text : String}
    (hdirectory : t.isDirectory text = true) (houtside : t.Outside place text) :
    (t.put place new hnew).isDirectory text = true := by
  obtain ⟨home, es, htarget⟩ := isDirectory_iff.mp hdirectory
  exact isDirectory_iff.mpr
    ⟨home, es, h.target_put hfile htarget (Or.inr (houtside home es htarget))⟩

end FileTree

end ApiSurface
