import ApiSurface.FileTree.Access
import ApiSurface.Proofs.Names

/-! Where paths lead. Following a path takes one part at a time, and what it does then depends on the
part and on what stands under it; all inductions on the way of a path go over these cases. A path that
goes on below a directory leads where its remainder leads from that directory, although fewer links
may be left to be followed. -/

namespace ApiSurface

/-! ### Looking up names -/

namespace Entry

variable {es inner : List (String × Entry)} {name : String} {path names : List String} {e : Entry}

theorem find?_cons_directory (hlookup : es.lookup name = some (directory inner))
    (hnames : names ≠ []) : find? es (name :: names) = find? inner names := by
  cases names with
  | nil => exact absurd rfl hnames
  | cons next names =>
      rw [find?]
      · rw [hlookup]
      · intro hnil
        cases hnil

/-- Only a directory has something below it. -/
theorem exists_lookup_of_find?_cons (hnames : names ≠ []) (h : find? es (name :: names) = some e) :
    ∃ inner, es.lookup name = some (directory inner) ∧ find? inner names = some e := by
  cases names with
  | nil => exact absurd rfl hnames
  | cons next names =>
      rw [find?] at h
      · split at h
        · rename_i inner hlookup
          exact ⟨inner, hlookup, h⟩
        · cases h
      · intro hnil
        cases hnil

theorem find?_append (h : find? es path = some (directory inner)) (hnames : names ≠ []) :
    find? es (path ++ names) = find? inner names := by
  induction path generalizing es with
  | nil => cases h
  | cons name path ih =>
      by_cases hpath : path = []
      · subst hpath
        exact find?_cons_directory h hnames
      · obtain ⟨middle, hlookup, hfind⟩ := exists_lookup_of_find?_cons hpath h
        rw [List.cons_append,
          find?_cons_directory hlookup (List.append_ne_nil_of_right_ne_nil path hnames), ih hfind]

theorem exists_directory_of_find?_append (hpath : path ≠ []) (hnames : names ≠ [])
    (h : find? es (path ++ names) = some e) : ∃ inner, find? es path = some (directory inner) := by
  induction path generalizing es with
  | nil => exact absurd rfl hpath
  | cons name path ih =>
      obtain ⟨middle, hlookup, hfind⟩ :=
        exists_lookup_of_find?_cons (List.append_ne_nil_of_right_ne_nil path hnames) h
      by_cases hnil : path = []
      · subst hnil
        exact ⟨middle, hlookup⟩
      · rw [find?_cons_directory hlookup hnil]
        exact ih hnil hfind

end Entry

namespace FileTree

variable {t : FileTree}

theorem find?_of_ne_nil (t : FileTree) {path : List String} (h : path ≠ []) :
    t.find? path = Entry.find? t.entries path := by
  cases path with
  | nil => exact absurd rfl h
  | cons name path => rfl

theorem find?_append {path names : List String} {es : List (String × Entry)}
    (h : t.find? path = some (.directory es)) (hnames : names ≠ []) :
    t.find? (path ++ names) = Entry.find? es names := by
  cases path with
  | nil =>
      cases h
      exact t.find?_of_ne_nil hnames
  | cons name path => exact Entry.find?_append h hnames

theorem exists_directory_of_find?_append {path names : List String} {e : Entry}
    (hnames : names ≠ []) (h : t.find? (path ++ names) = some e) :
    ∃ es, t.find? path = some (.directory es) := by
  cases path with
  | nil => exact ⟨t.entries, rfl⟩
  | cons name path =>
      exact Entry.exists_directory_of_find?_append (List.cons_ne_nil _ _) hnames h

theorem exists_directory_dropLast {path : List String} {es : List (String × Entry)}
    (h : t.find? path = some (.directory es)) : ∃ fs, t.find? path.dropLast = some (.directory fs) := by
  rcases List.eq_nil_or_concat path with rfl | ⟨dir, name, rfl⟩
  · exact ⟨t.entries, rfl⟩
  · rw [List.concat_eq_append] at h ⊢
    rw [List.dropLast_concat]
    exact exists_directory_of_find?_append (List.cons_ne_nil name []) h

/-! ### The cases of following a path -/

/-- A part of a path that is looked up, and not one that stays or goes up. -/
structure IsStep (part : String) : Prop where
  ne_empty : part ≠ ""
  ne_here : part ≠ "."
  ne_above : part ≠ ".."

/-- Where a path goes on at a link when so many links may be followed yet. -/
def onLink (t : FileTree) (last : Bool) :
    Nat → List String → List String → Except IoError Target
  | 0 => fun _ _ => .error .tooManyLinks
  | n + 1 => t.follow last n

/-- The directory that the target of a link is taken from, for a link in the given directory. -/
def linkStart (here : List String) (target : String) : List String :=
  if target.toList.head? = some '/' then [] else here

variable {last : Bool} {n : Nat} {here parts : List String} {part : String}

theorem follow_eq_step (t : FileTree) (last : Bool) (n : Nat) :
    t.follow last n = t.step last (t.onLink last n) := by
  cases n <;> rfl

theorem follow_nil {e : Entry} (h : t.find? here = some e) :
    t.follow last n here [] = .ok (.present here e) := by
  rw [follow_eq_step, step_nil h]

theorem present_of_follow_nil {path : List String} {e : Entry}
    (h : t.follow last n here [] = .ok (.present path e)) : path = here ∧ t.find? here = some e := by
  rw [follow_eq_step, step] at h
  split at h
  · rename_i hfind
    cases h
    exact ⟨rfl, hfind⟩
  · cases h

theorem follow_nil_ne_absent {place : List String} {slash : Bool} :
    t.follow last n here [] ≠ .ok (.absent place slash) := by
  intro h
  rw [follow_eq_step, step] at h
  split at h <;> cases h

theorem follow_stay (h : part = "" ∨ part = ".") :
    t.follow last n here (part :: parts) = t.follow last n here parts := by
  rw [follow_eq_step, step, if_pos (by simpa using h)]

theorem follow_up : t.follow last n here (".." :: parts) = t.follow last n here.dropLast parts := by
  rw [follow_eq_step, step, if_neg (by decide), if_pos rfl]

/-- A part that is looked up is neither passed over nor does it go up. -/
theorem IsStep.not_stay (h : IsStep part) : ¬(decide (part = "") || decide (part = ".")) = true := by
  simp [h.ne_empty, h.ne_here]

theorem follow_missing (hpart : IsStep part) (h : t.find? (here ++ [part]) = none) :
    t.follow last n here (part :: parts) =
      if parts.isEmpty then .ok (.absent (here ++ [part]) false)
      else if parts.all (· = "") then .ok (.absent (here ++ [part]) true)
      else .error .notFound := by
  rw [follow_eq_step, step, if_neg hpart.not_stay, if_neg hpart.ne_above]
  simp only [h]

theorem follow_directory (hpart : IsStep part) {es : List (String × Entry)}
    (h : t.find? (here ++ [part]) = some (.directory es)) :
    t.follow last n here (part :: parts) = t.follow last n (here ++ [part]) parts := by
  rw [follow_eq_step, step, if_neg hpart.not_stay, if_neg hpart.ne_above]
  simp only [h]

theorem follow_file (hpart : IsStep part) {content : ByteArray}
    (h : t.find? (here ++ [part]) = some (.file content)) :
    t.follow last n here (part :: parts) =
      if parts.isEmpty then .ok (.present (here ++ [part]) (.file content))
      else .error .notDirectory := by
  rw [follow_eq_step, step, if_neg hpart.not_stay, if_neg hpart.ne_above]
  simp only [h]

theorem follow_link (hpart : IsStep part) {target : String}
    (h : t.find? (here ++ [part]) = some (.link target)) :
    t.follow last n here (part :: parts) =
      if parts.isEmpty && !last then .ok (.present (here ++ [part]) (.link target))
      else t.onLink last n (linkStart here target) (Path.components target ++ parts) := by
  rw [follow_eq_step, step, if_neg hpart.not_stay, if_neg hpart.ne_above]
  simp only [h]
  rfl

/-- Induction along the way of a path: over its parts, and at a link over the links that may still be
followed. -/
theorem follow_induction (t : FileTree) {motive : Nat → List String → List String → Prop}
    (nil : ∀ n here, motive n here [])
    (stay : ∀ n here part parts, part = "" ∨ part = "." → motive n here parts →
      motive n here (part :: parts))
    (up : ∀ n here parts, motive n here.dropLast parts → motive n here (".." :: parts))
    (missing : ∀ n here part parts, IsStep part → t.find? (here ++ [part]) = none →
      motive n here (part :: parts))
    (directory : ∀ n here part parts es, IsStep part →
      t.find? (here ++ [part]) = some (.directory es) → motive n (here ++ [part]) parts →
      motive n here (part :: parts))
    (file : ∀ n here part parts content, IsStep part →
      t.find? (here ++ [part]) = some (.file content) → motive n here (part :: parts))
    (link : ∀ n here part parts target, IsStep part →
      t.find? (here ++ [part]) = some (.link target) →
      (∀ m, n = m + 1 → motive m (linkStart here target) (Path.components target ++ parts)) →
      motive n here (part :: parts))
    (n : Nat) (here parts : List String) : motive n here parts := by
  induction n using Nat.strong_induction_on generalizing here parts with
  | _ n ihn =>
      induction parts generalizing here with
      | nil => exact nil n here
      | cons part parts ih =>
          by_cases hstay : part = "" ∨ part = "."
          · exact stay n here part parts hstay (ih here)
          by_cases hup : part = ".."
          · subst hup
            exact up n here parts (ih here.dropLast)
          rw [not_or] at hstay
          have hpart : IsStep part := ⟨hstay.1, hstay.2, hup⟩
          cases hfind : t.find? (here ++ [part]) with
          | none => exact missing n here part parts hpart hfind
          | some e =>
              cases e with
              | directory es => exact directory n here part parts es hpart hfind (ih _)
              | file content => exact file n here part parts content hpart hfind
              | link target =>
                  refine link n here part parts target hpart hfind fun m hm => ?_
                  exact ihn m (by omega) _ _

/-! ### What is found at the end -/

theorem find?_of_follow_present {path : List String} {e : Entry}
    (h : t.follow last n here parts = .ok (.present path e)) : t.find? path = some e := by
  induction n, here, parts using follow_induction t with
  | nil n here =>
      obtain ⟨rfl, hfind⟩ := present_of_follow_nil h
      exact hfind
  | stay n here part parts hpart ih => exact ih (follow_stay hpart ▸ h)
  | up n here parts ih => exact ih (follow_up ▸ h)
  | missing n here part parts hpart hfind =>
      rw [follow_missing hpart hfind] at h
      split_ifs at h <;> cases h
  | directory n here part parts es hpart hfind ih => exact ih (follow_directory hpart hfind ▸ h)
  | file n here part parts content hpart hfind =>
      rw [follow_file hpart hfind] at h
      split_ifs at h
      cases h
      exact hfind
  | link n here part parts target hpart hfind ih =>
      rw [follow_link hpart hfind] at h
      split_ifs at h
      · cases h
        exact hfind
      · cases n with
        | zero => cases h
        | succ m => exact ih m rfl h

/-- Slashes at the end of a path lead nowhere else. -/
theorem follow_slashes {tail : List String} (h : ∀ part ∈ tail, part = "") :
    t.follow last n here tail = t.follow last n here [] := by
  induction tail with
  | nil => rfl
  | cons part tail ih =>
      rw [follow_stay (Or.inl (h part List.mem_cons_self))]
      exact ih fun part hpart => h part (List.mem_cons_of_mem _ hpart)

/-- A path that leads to a directory and goes on leads where the remainder leads from there. The path
may end in slashes, which count for nothing once it goes on. -/
theorem follow_append {tail names path : List String} {es : List (String × Entry)}
    (htail : ∀ part ∈ tail, part = "") (hnames : names ≠ [])
    (h : t.follow last n here (parts ++ tail) = .ok (.present path (.directory es))) :
    ∃ m ≤ n, t.follow last n here (parts ++ names) = t.follow last m path names := by
  have hmore : ∀ parts : List String, (parts ++ names).isEmpty = false := by
    intro parts
    exact List.isEmpty_eq_false_iff.mpr (List.append_ne_nil_of_right_ne_nil parts hnames)
  induction n, here, parts using follow_induction t with
  | nil n here =>
      rw [List.nil_append, follow_slashes htail] at h
      obtain ⟨rfl, -⟩ := present_of_follow_nil h
      exact ⟨n, Nat.le_refl n, by rw [List.nil_append]⟩
  | stay n here part parts hpart ih =>
      rw [List.cons_append, follow_stay hpart] at h ⊢
      exact ih h
  | up n here parts ih =>
      rw [List.cons_append, follow_up] at h ⊢
      exact ih h
  | missing n here part parts hpart hfind =>
      rw [List.cons_append, follow_missing hpart hfind] at h
      split_ifs at h <;> cases h
  | directory n here part parts es hpart hfind ih =>
      rw [List.cons_append, follow_directory hpart hfind] at h ⊢
      exact ih h
  | file n here part parts content hpart hfind =>
      rw [List.cons_append, follow_file hpart hfind] at h
      split_ifs at h
      cases h
  | link n here part parts target hpart hfind ih =>
      rw [List.cons_append, follow_link hpart hfind] at h
      split_ifs at h
      · cases h
      · cases n with
        | zero => cases h
        | succ m =>
            rw [← List.append_assoc] at h
            obtain ⟨k, hk, hfollow⟩ := ih m rfl h
            refine ⟨k, by omega, ?_⟩
            rw [List.cons_append, follow_link hpart hfind, hmore, Bool.false_and,
              if_neg Bool.false_ne_true, ← List.append_assoc]
            exact hfollow

/-- Below a directory, names lead to what stands under them. -/
theorem follow_names {names : List String} {es : List (String × Entry)} {e : Entry}
    (hnames : ∀ name ∈ names, IsStep name) (hhere : t.find? here = some (.directory es))
    (hfind : Entry.find? es names = some e) (hlink : ∀ target, e = .link target → last = false) :
    t.follow last n here names = .ok (.present (here ++ names) e) := by
  induction names generalizing here es with
  | nil => cases hfind
  | cons name names ih =>
      have hname : IsStep name := hnames name List.mem_cons_self
      have hlookup : t.find? (here ++ [name]) = es.lookup name :=
        find?_append hhere (List.cons_ne_nil name [])
      by_cases hlast : names = []
      · subst hlast
        have he : t.find? (here ++ [name]) = some e := hlookup.trans hfind
        cases e with
        | directory inner => rw [follow_directory hname he, follow_nil he]
        | file content =>
            rw [follow_file hname he]
            rfl
        | link target =>
            rw [follow_link hname he, hlink target rfl]
            rfl
      · obtain ⟨inner, hinner, hbelow⟩ := Entry.exists_lookup_of_find?_cons hlast hfind
        have hdirectory : t.find? (here ++ [name]) = some (.directory inner) := by
          rw [hlookup, hinner]
        rw [follow_directory hname hdirectory,
          ih (fun name hname => hnames name (List.mem_cons_of_mem _ hname)) hdirectory hbelow,
          List.append_assoc, List.singleton_append]

/-- A path that is not followed through a link at its end leads to that link, or to the same entry. -/
theorem follow_false {path : List String} {e : Entry}
    (h : t.follow true n here parts = .ok (.present path e)) :
    t.follow false n here parts = .ok (.present path e) ∨
      ∃ place target, t.follow false n here parts = .ok (.present place (.link target)) := by
  induction n, here, parts using follow_induction t with
  | nil n here =>
      rw [follow_eq_step, step] at h ⊢
      exact Or.inl h
  | stay n here part parts hpart ih =>
      rw [follow_stay hpart] at h ⊢
      exact ih h
  | up n here parts ih =>
      rw [follow_up] at h ⊢
      exact ih h
  | missing n here part parts hpart hfind =>
      rw [follow_missing hpart hfind] at h
      split_ifs at h <;> cases h
  | directory n here part parts es hpart hfind ih =>
      rw [follow_directory hpart hfind] at h ⊢
      exact ih h
  | file n here part parts content hpart hfind =>
      rw [follow_file hpart hfind] at h ⊢
      exact Or.inl h
  | link n here part parts target hpart hfind ih =>
      rw [follow_link hpart hfind] at h ⊢
      rw [if_neg (by simp)] at h
      split_ifs
      · exact Or.inr ⟨_, _, rfl⟩
      · cases n with
        | zero => cases h
        | succ m => exact ih m rfl h

/-- A path that leads to a file or directory without following a link at its end leads there anyway. -/
theorem follow_true {path : List String} {e : Entry}
    (h : t.follow false n here parts = .ok (.present path e)) (he : ∀ target, e ≠ .link target) :
    t.follow true n here parts = .ok (.present path e) := by
  induction n, here, parts using follow_induction t with
  | nil n here =>
      rw [follow_eq_step, step] at h ⊢
      exact h
  | stay n here part parts hpart ih =>
      rw [follow_stay hpart] at h ⊢
      exact ih h
  | up n here parts ih =>
      rw [follow_up] at h ⊢
      exact ih h
  | missing n here part parts hpart hfind =>
      rw [follow_missing hpart hfind] at h
      split_ifs at h <;> cases h
  | directory n here part parts es hpart hfind ih =>
      rw [follow_directory hpart hfind] at h ⊢
      exact ih h
  | file n here part parts content hpart hfind =>
      rw [follow_file hpart hfind] at h ⊢
      exact h
  | link n here part parts target hpart hfind ih =>
      rw [follow_link hpart hfind] at h ⊢
      rw [if_neg (by simp)]
      split_ifs at h
      · cases h
        exact absurd rfl (he target)
      · cases n with
        | zero => cases h
        | succ m => exact ih m rfl h

/-! ### Paths as texts -/

theorem entry_eq_ok_iff {path : String} {e : Entry} :
    t.entry last path = .ok e ↔ ∃ place, t.target last path = .ok (.present place e) := by
  cases htarget : t.target last path with
  | error cause =>
      rw [entry, htarget]
      simp [bind, Except.bind]
  | ok target =>
      rw [entry, htarget]
      cases target with
      | present place e' => simp [bind, Except.bind, pure, Except.pure]
      | absent place slash => simp [bind, Except.bind, throw, throwThe, MonadExceptOf.throw]

theorem entry_of_target {path : String} {place : List String} {e : Entry}
    (h : t.target last path = .ok (.present place e)) : t.entry last path = .ok e := by
  rw [entry_eq_ok_iff]
  exact ⟨place, h⟩

theorem target_of_ne_empty (t : FileTree) {path : String} (h : path ≠ "") :
    t.target last path = t.follow last 40 [] (Path.components path) := by
  rw [target, if_neg (by simpa using h)]

theorem ne_empty_of_target {path : String} {target : Target} (h : t.target last path = .ok target) :
    path ≠ "" := by
  rintro rfl
  cases h

theorem isDirectory_iff {path : String} :
    t.isDirectory path = true ↔
      ∃ place es, t.target true path = .ok (.present place (.directory es)) := by
  constructor
  · intro h
    rw [isDirectory] at h
    split at h
    · rename_i e he
      rw [entry_eq_ok_iff] at he
      obtain ⟨place, htarget⟩ := he
      cases e with
      | directory es => exact ⟨place, es, htarget⟩
      | file content => cases h
      | link target => cases h
    · cases h
  · rintro ⟨place, es, htarget⟩
    rw [isDirectory, entry_of_target htarget]
    rfl

theorem entry_true_of_directory {path : String} {es : List (String × Entry)}
    (h : t.entry false path = .ok (.directory es)) : t.entry true path = .ok (.directory es) := by
  rw [entry_eq_ok_iff] at h ⊢
  obtain ⟨place, htarget⟩ := h
  have htext := ne_empty_of_target htarget
  rw [target_of_ne_empty t htext] at htarget
  refine ⟨place, ?_⟩
  rw [target_of_ne_empty t htext]
  exact follow_true htarget (by simp)

theorem isDirectory_of_entry_true {path : String} {es : List (String × Entry)}
    (h : t.entry true path = .ok (.directory es)) : t.isDirectory path = true := by
  rw [isDirectory, h]
  rfl

theorem isDirectory_of_entry {path : String} {es : List (String × Entry)}
    (h : t.entry false path = .ok (.directory es)) : t.isDirectory path = true :=
  isDirectory_of_entry_true (entry_true_of_directory h)

theorem read_eq_ok_iff {path text : String} :
    t.read path = .ok text ↔ ∃ place content,
      t.target true path = .ok (.present place (.file content)) ∧
        String.fromUTF8? content = some text := by
  constructor
  · intro h
    cases hentry : t.entry true path with
    | error cause =>
        rw [read, hentry] at h
        cases h
    | ok e =>
        rw [read, hentry] at h
        rw [entry_eq_ok_iff] at hentry
        obtain ⟨place, htarget⟩ := hentry
        cases e with
        | directory es => cases h
        | link target => cases h
        | file content =>
            refine ⟨place, content, htarget, ?_⟩
            simp only [bind, Except.bind] at h
            split at h
            · rename_i text' htext
              cases h
              exact htext
            · cases h
  · rintro ⟨place, content, htarget, htext⟩
    rw [read, entry_of_target htarget]
    simp only [bind, Except.bind, htext]
    rfl

theorem isStep_of_isFileName {name : String} (h : isFileName name = true) : IsStep name := by
  simp only [isFileName, Bool.and_eq_true, bne_iff_ne] at h
  exact ⟨h.1.1.1, h.1.1.2, h.1.2⟩

theorem not_mem_slash_of_isFileName {name : String} (h : isFileName name = true) :
    '/' ∉ name.toList := by
  simp only [isFileName, Bool.and_eq_true, Bool.not_eq_true', List.contains_eq_mem,
    decide_eq_false_iff_not] at h
  exact h.2

end FileTree

namespace Path

theorem components_of_not_mem {name : String} (h : '/' ∉ name.toList) : components name = [name] := by
  rw [components, List.splitOn_eq_singleton h, List.map_singleton, String.ofList_toList]

theorem components_append_slash (path : String) {name : String} (h : '/' ∉ name.toList) :
    components (path ++ "/" ++ name) = components path ++ [name] := by
  have hname := components_of_not_mem h
  have htext : (path ++ "/" ++ name).toList = path.toList ++ '/' :: name.toList := by simp
  rw [components] at hname ⊢
  rw [htext, List.splitOn_append_cons_self, List.map_append, hname]
  rfl

/-- A name below a path becomes its last part; of the path itself only an empty part at its end can be
lost, which a slash leaves there. -/
theorem components_child (path : String) {name : String} (h : '/' ∉ name.toList) :
    ∃ parts tail, (∀ part ∈ tail, part = "") ∧ components path = parts ++ tail ∧
      components (child path name) = parts ++ [name] := by
  have hslash : components "" = [""] := rfl
  rw [child]
  split
  · rename_i hlast
    have hempty : path = "" := by simpa using hlast
    subst hempty
    refine ⟨[], [""], by simp, hslash, ?_⟩
    rw [String.empty_append, components_of_not_mem h, List.nil_append]
  · rename_i hlast
    obtain ⟨cs, hcs⟩ := List.getLast?_eq_some_iff.mp hlast
    have hpath : path = String.ofList cs ++ "/" ++ "" := by
      apply String.toList_inj.mp
      simp [hcs]
    have hchild : path ++ name = String.ofList cs ++ "/" ++ name := by
      rw [hpath, String.append_empty]
    refine ⟨components (String.ofList cs), [""], by simp, ?_, ?_⟩
    · rw [hpath, components_append_slash _ (by simp)]
    · rw [hchild, components_append_slash _ h]
  · exact ⟨components path, [], by simp, (List.append_nil _).symm, components_append_slash path h⟩

theorem child_ne_empty (path : String) {name : String} (h : name ≠ "") : child path name ≠ "" := by
  rw [child]
  split <;> simp [h]

end Path

namespace FileTree

variable {t : FileTree} {last : Bool}

theorem entry_child {path name : String} {es : List (String × Entry)} {e : Entry}
    (hpath : t.entry last path = .ok (.directory es)) (hname : isFileName name = true)
    (hlookup : es.lookup name = some e) (hlink : ∀ target, e = .link target → last = false) :
    t.entry last (Path.child path name) = .ok e := by
  obtain ⟨place, htarget⟩ := entry_eq_ok_iff.mp hpath
  obtain ⟨parts, tail, htail, hparts, hchild⟩ :=
    Path.components_child path (not_mem_slash_of_isFileName hname)
  have hstep : IsStep name := isStep_of_isFileName hname
  rw [target_of_ne_empty t (ne_empty_of_target htarget), hparts] at htarget
  obtain ⟨m, -, hfollow⟩ := follow_append htail (List.cons_ne_nil name []) htarget
  apply entry_eq_ok_iff.mpr
  refine ⟨place ++ [name], ?_⟩
  rw [target_of_ne_empty t (Path.child_ne_empty path hstep.ne_empty), hchild, hfollow]
  exact follow_names (by simpa using hstep) (find?_of_follow_present htarget) hlookup hlink

/-- Names below the path of a directory lead to what stands under them. -/
theorem entry_join {path : String} {names : List String} {es : List (String × Entry)} {e : Entry}
    (hpath : t.entry last path = .ok (.directory es)) (hnames : ∀ name ∈ names, isFileName name = true)
    (hfind : Entry.find? es names = some e) (hlink : ∀ target, e = .link target → last = false) :
    t.entry last (Path.join path names) = .ok e := by
  induction names generalizing path es with
  | nil => cases hfind
  | cons name names ih =>
      have hname := hnames name List.mem_cons_self
      by_cases hlast : names = []
      · subst hlast
        exact entry_child hpath hname hfind hlink
      · obtain ⟨inner, hinner, hbelow⟩ := Entry.exists_lookup_of_find?_cons hlast hfind
        have hchild : t.entry last (Path.child path name) = .ok (.directory inner) :=
          entry_child hpath hname hinner (by simp)
        exact ih hchild (fun name hname => hnames name (List.mem_cons_of_mem _ hname)) hbelow

end FileTree

end ApiSurface
