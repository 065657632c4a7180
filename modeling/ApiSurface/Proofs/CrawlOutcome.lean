import ApiSurface.Crawl.Build
import ApiSurface.Proofs.FreshFile
import ApiSurface.Proofs.SourceScan

/-! What a crawl comes to. The sources are listed in the order of their keys, compared name by name, and
no two have one key, so every source that is read adds a module and none replaces another. The first
source that is not in order ends the crawl with an error of its own, whatever comes after it. -/

namespace ApiSurface

/-! ### Keys in order -/

namespace Config

variable {c : Config} {t : FileTree} {root : String} {entries : List (String × Entry)}
  {names : List String}

theorem scan_of_directory (h : t.entry false root = .ok (.directory entries)) :
    c.scan t root = (c.selected entries).map (c.sourceFile root) := by
  rw [scan, h]
  rfl

theorem ne_nil_of_mem_selected (h : Entry.Sound (.directory entries))
    (hnames : names ∈ c.selected entries) : names ≠ [] := by
  obtain ⟨e, he, -⟩ := ((mem_selected h).mp hnames).entry
  rintro rfl
  cases he

theorem isFileName_of_mem_selected (h : Entry.Sound (.directory entries))
    (hnames : names ∈ c.selected entries) : ∀ name ∈ names, isFileName name = true := by
  obtain ⟨e, he, -⟩ := ((mem_selected h).mp hnames).entry
  exact Entry.isFileName_of_find? h he

end Config

/-! ### One source -/

namespace SourceFile

variable {t : FileTree} {f : SourceFile} {symbols : Symbols} {e : Error}

/-- The source can be read, and holds these public names. -/
def Holds (t : FileTree) (f : SourceFile) (symbols : Symbols) : Prop :=
  ∃ text, t.read f.path = .ok text ∧ Python.surface text = .ok symbols

/-- The source ends a crawl with this error: it cannot be read, or what is read is not in order. -/
inductive Fails (t : FileTree) (f : SourceFile) : Error → Prop
  | unread {cause : IoError} (h : t.read f.path = .error cause) : Fails t f (.io f.path cause)
  | refused {text : String} {cause : Python.SyntaxError} (h : t.read f.path = .ok text)
      (hsource : Python.surface text = .error cause) : Fails t f (.source f.path cause)

theorem symbols_eq_ok_iff : f.symbols t = .ok symbols ↔ f.Holds t symbols := by
  rw [SourceFile.symbols, Holds]
  cases t.read f.path with
  | error cause => simp
  | ok text => cases hsource : Python.surface text <;> simp [hsource]

theorem symbols_eq_error_iff : f.symbols t = .error e ↔ f.Fails t e := by
  constructor
  · intro h
    rw [SourceFile.symbols] at h
    split at h
    · rename_i cause hread
      cases h
      exact Fails.unread hread
    · rename_i text hread
      split at h
      · rename_i cause hsource
        cases h
        exact Fails.refused hread hsource
      · cases h
  · intro h
    cases h with
    | unread hread => rw [SourceFile.symbols, hread]
    | refused hread hsource =>
        rw [SourceFile.symbols, hread]
        simp only [hsource]

end SourceFile

/-! ### One source after the other -/

theorem NameMap.length_insertList {α : Type} {es : List (String × α)} {k : String} (v : α)
    (h : es.lookup k = none) : (insertList k v es).length = es.length + 1 := by
  induction es with
  | nil => rfl
  | cons e es ih =>
      rw [lookup_cons_pair] at h
      split at h
      · cases h
      · rename_i hne
        rw [insertList]
        split
        · rfl
        · rw [List.length_cons, ih h, List.length_cons]

namespace Snapshot

variable {t : FileTree} {files read : List SourceFile} {f : SourceFile} {s s' : Snapshot}
  {symbols : Symbols} {e : Error}

/-- The snapshot has one module for each of the files, with the names that the file holds. -/
structure Covers (t : FileTree) (files : List SourceFile) (s : Snapshot) : Prop where
  size : s.modules.size = files.length
  modules : ∀ m symbols, s.get? m = some symbols ↔ ∃ f ∈ files, f.key = m ∧ f.Holds t symbols

theorem Covers.get?_eq_none (h : Covers t files s) (hkey : f.key ∉ files.map SourceFile.key) :
    s.get? f.key = none := by
  apply Option.eq_none_iff_forall_ne_some.mpr
  intro symbols hsymbols
  obtain ⟨g, hg, hsame, -⟩ := (h.modules _ _).mp hsymbols
  exact hkey (hsame ▸ List.mem_map_of_mem hg)

/-- One more source with a key of its own adds one module. -/
theorem Covers.insert (h : Covers t files s) (hkey : f.key ∉ files.map SourceFile.key)
    (hholds : f.Holds t symbols) : Covers t (files ++ [f]) (s.insert f.key symbols) where
  size := by
    rw [List.length_append, ← h.size]
    exact NameMap.length_insertList symbols (h.get?_eq_none hkey)
  modules m symbols' := by
    have hget : (s.insert f.key symbols).get? m = if m = f.key then some symbols else s.get? m :=
      NameMap.get?_insert _ _ _ _
    rw [hget]
    by_cases hm : m = f.key
    · subst hm
      rw [if_pos rfl, Option.some.injEq]
      constructor
      · rintro rfl
        exact ⟨f, List.mem_append_right _ List.mem_cons_self, rfl, hholds⟩
      · rintro ⟨g, hg, hsame, hother⟩
        rcases List.mem_append.mp hg with hg | hg
        · exact absurd (hsame ▸ List.mem_map_of_mem hg) hkey
        · rw [List.mem_singleton.mp hg] at hother
          have hok := SourceFile.symbols_eq_ok_iff.mpr hother
          rw [SourceFile.symbols_eq_ok_iff.mpr hholds] at hok
          exact Except.ok.inj hok
    · rw [if_neg hm, h.modules]
      constructor
      · rintro ⟨g, hg, hsame⟩
        exact ⟨g, List.mem_append_left _ hg, hsame⟩
      · rintro ⟨g, hg, hsame⟩
        rcases List.mem_append.mp hg with hg | hg
        · exact ⟨g, hg, hsame⟩
        · rw [List.mem_singleton.mp hg] at hsame
          exact absurd hsame.1.symm hm

theorem addFile_eq_ok_iff :
    s.addFile t f = .ok s' ↔ ∃ symbols, f.Holds t symbols ∧ s' = s.insert f.key symbols := by
  simp only [← SourceFile.symbols_eq_ok_iff, addFile]
  cases f.symbols t <;> simp [bind, Except.bind, pure, Except.pure, eq_comm]

theorem addFile_eq_error_iff : s.addFile t f = .error e ↔ f.Fails t e := by
  simp only [← SourceFile.symbols_eq_error_iff, addFile]
  cases f.symbols t <;> simp [bind, Except.bind, pure, Except.pure]

theorem foldlM_addFile_cons (files : List SourceFile) (s : Snapshot) (f : SourceFile) :
    (f :: files).foldlM (addFile t) s =
      match s.addFile t f with
      | .ok next => files.foldlM (addFile t) next
      | .error e => .error e := by
  rw [List.foldlM_cons]
  cases s.addFile t f <;> rfl

/-- What a run over sources leaves covers those that came before and those of the run. -/
theorem Covers.foldlM_addFile (h : Covers t read s)
    (hkeys : ((read ++ files).map SourceFile.key).Nodup)
    (hrun : files.foldlM (addFile t) s = .ok s') : Covers t (read ++ files) s' := by
  induction files generalizing read s with
  | nil =>
      cases hrun
      rwa [List.append_nil]
  | cons f files ih =>
      rw [foldlM_addFile_cons] at hrun
      split at hrun
      · rename_i next hnext
        obtain ⟨symbols, hholds, rfl⟩ := addFile_eq_ok_iff.mp hnext
        have hkey : f.key ∉ read.map SourceFile.key := by
          rw [List.map_append, List.map_cons] at hkeys
          exact fun hmem => (List.disjoint_of_nodup_append hkeys) hmem List.mem_cons_self
        rw [List.append_cons] at hkeys ⊢
        exact ih (h.insert hkey hholds) hkeys hrun
      · cases hrun

theorem foldlM_addFile_eq_error_iff :
    files.foldlM (addFile t) s = .error e ↔
      ∃ before f after, files = before ++ f :: after ∧ (∀ g ∈ before, ∃ symbols, g.Holds t symbols) ∧
        f.Fails t e := by
  induction files generalizing s with
  | nil => simp [pure, Except.pure]
  | cons f files ih =>
      rw [foldlM_addFile_cons]
      cases hadd : s.addFile t f with
      | error e' =>
          have hfails := addFile_eq_error_iff.mp hadd
          constructor
          · intro he
            cases he
            exact ⟨[], f, files, rfl, by simp, hfails⟩
          · rintro ⟨before, g, after, hsplit, hbefore, hg⟩
            rcases List.cons_eq_append_iff.mp hsplit with ⟨rfl, hcons⟩ | ⟨before', rfl, -⟩
            · cases hcons
              rw [← addFile_eq_error_iff (s := s), hadd] at hg
              exact hg
            · obtain ⟨symbols, hholds⟩ := hbefore f List.mem_cons_self
              rw [addFile_eq_ok_iff.mpr ⟨symbols, hholds, rfl⟩] at hadd
              cases hadd
      | ok next =>
          obtain ⟨symbols, hholds, -⟩ := addFile_eq_ok_iff.mp hadd
          simp only [ih]
          constructor
          · rintro ⟨before, g, after, rfl, hbefore, hg⟩
            exact ⟨f :: before, g, after, rfl, List.forall_mem_cons.mpr ⟨⟨symbols, hholds⟩, hbefore⟩, hg⟩
          · rintro ⟨before, g, after, hsplit, hbefore, hg⟩
            rcases List.cons_eq_append_iff.mp hsplit with ⟨rfl, hcons⟩ | ⟨before', rfl, hrest⟩
            · cases hcons
              rw [← addFile_eq_error_iff (s := s), hadd] at hg
              cases hg
            · exact ⟨before', g, after, hrest, (List.forall_mem_cons.mp hbefore).2, hg⟩

/-- The snapshot of a directory is what adding its sources one by one comes to. -/
theorem crawl_of_directory {c : Config} {root : String} {entries : List (String × Entry)}
    (h : t.entry false root = .ok (.directory entries)) :
    crawl c t root = (c.scan t root).foldlM (addFile t) {} := by
  rw [crawl, if_pos (FileTree.isDirectory_of_entry h)]

end Snapshot

end ApiSurface
