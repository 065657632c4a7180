import Mathlib.Data.List.Forall2
import ApiSurface.Proofs.CrawlOutcome
import ApiSurface.Proofs.ModuleKeys
import ApiSurface.Proofs.RemovalGate

/-! Crawling equal subtrees. The keys of sources come from the names below the root, and the text of a
source is what stands under those names, as long as no link is on the way. Where a directory lies, and
how the path to it is written, therefore cannot be seen in a snapshot; only errors tell the path. -/

namespace ApiSurface

namespace Entry

/-- No link stands in the entry, at any depth. -/
inductive LinkFree : Entry → Prop
  | file (content : ByteArray) : LinkFree (.file content)
  | directory (entries : List (String × Entry)) (below : ∀ e ∈ entries, LinkFree e.2) :
      LinkFree (.directory entries)

theorem LinkFree.of_find? {es : List (String × Entry)} {names : List String} {e : Entry}
    (h : (Entry.directory es).LinkFree) (hfind : find? es names = some e) : e.LinkFree := by
  induction names generalizing es with
  | nil => cases hfind
  | cons name names ih =>
      cases h with
      | directory _ below =>
          by_cases hlast : names = []
          · subst hlast
            exact below _ (mem_of_lookup hfind)
          · obtain ⟨inner, hlookup, hinner⟩ := exists_lookup_of_find?_cons hlast hfind
            exact ih (below _ (mem_of_lookup hlookup)) hinner

end Entry

namespace FileTree

variable {t : FileTree} {path : String} {es : List (String × Entry)}

/-- The text of a file below a directory is what stands under its names, whatever path leads to the
directory. -/
theorem read_join_eq_ok_iff (h : t.entry true path = .ok (.directory es)) {names : List String}
    {content : ByteArray} (hnames : ∀ name ∈ names, isFileName name = true)
    (hfind : Entry.find? es names = some (.file content)) {text : String} :
    t.read (Path.join path names) = .ok text ↔ String.fromUTF8? content = some text := by
  have hentry : t.entry true (Path.join path names) = .ok (.file content) :=
    entry_join h hnames hfind (by simp)
  obtain ⟨place, htarget⟩ := entry_eq_ok_iff.mp hentry
  rw [read_eq_ok_iff, htarget]
  constructor
  · rintro ⟨place', content', hsame, htext⟩
    cases hsame
    exact htext
  · intro htext
    exact ⟨place, content, rfl, htext⟩

end FileTree

/-! ### Sources that hold the same -/

/-- Two sources have one key and hold the same public names. -/
structure SourceFile.Alike (t t' : FileTree) (f f' : SourceFile) : Prop where
  key : f.key = f'.key
  holds : ∀ symbols, f.Holds t symbols ↔ f'.Holds t' symbols

namespace Snapshot

variable {t t' : FileTree} {c : Config} {root root' : String} {es : List (String × Entry)}

theorem addFile_eq_ok_iff_of_alike {s s' : Snapshot} {f f' : SourceFile} (h : f.Alike t t' f') :
    s.addFile t f = .ok s' ↔ s.addFile t' f' = .ok s' := by
  simp only [addFile_eq_ok_iff, h.key, h.holds]

theorem foldlM_addFile_cons_eq_ok_iff {files : List SourceFile} {s s' : Snapshot} {f : SourceFile} :
    (f :: files).foldlM (addFile t) s = .ok s' ↔
      ∃ next, s.addFile t f = .ok next ∧ files.foldlM (addFile t) next = .ok s' := by
  rw [foldlM_addFile_cons]
  cases s.addFile t f <;> simp

/-- Runs over sources that hold the same end in the same snapshot. -/
theorem foldlM_addFile_eq_ok_iff_of_alike {files files' : List SourceFile}
    (h : List.Forall₂ (SourceFile.Alike t t') files files') (s s' : Snapshot) :
    files.foldlM (addFile t) s = .ok s' ↔ files'.foldlM (addFile t') s = .ok s' := by
  induction h generalizing s with
  | nil => exact Iff.rfl
  | cons hfile _ ih => simp only [foldlM_addFile_cons_eq_ok_iff, addFile_eq_ok_iff_of_alike hfile, ih]

theorem alike_sourceFile (hroot : t.entry true root = .ok (.directory es))
    (hroot' : t'.entry true root' = .ok (.directory es)) (hlinks : (Entry.directory es).LinkFree)
    (hkeep : c.keepRootName = false) {names : List String} (hnames : names ∈ c.selected es) :
    (c.sourceFile root names).Alike t t' (c.sourceFile root' names) := by
  have hsound := FileTree.sound_of_entry hroot
  obtain ⟨e, hfind, hplain⟩ := ((Config.mem_selected hsound).mp hnames).entry
  have hnamed := Entry.isFileName_of_find? hsound hfind
  obtain ⟨content, rfl⟩ : ∃ content, e = .file content := by
    cases e with
    | file content => exact ⟨content, rfl⟩
    | directory inner => cases hplain
    | link target => cases hlinks.of_find? hfind
  constructor
  · simp [Config.sourceFile, Config.key, hkeep]
  · intro symbols
    unfold SourceFile.Holds Config.sourceFile
    simp only [FileTree.read_join_eq_ok_iff hroot hnamed hfind,
      FileTree.read_join_eq_ok_iff hroot' hnamed hfind]

theorem forall₂_alike (hroot : t.entry true root = .ok (.directory es))
    (hroot' : t'.entry true root' = .ok (.directory es)) (hlinks : (Entry.directory es).LinkFree)
    (hkeep : c.keepRootName = false) :
    List.Forall₂ (SourceFile.Alike t t') (c.sourcesIn root es) (c.sourcesIn root' es) := by
  show List.Forall₂ _ ((c.selected es).map (c.sourceFile root))
    ((c.selected es).map (c.sourceFile root'))
  rw [List.forall₂_map_left_iff, List.forall₂_map_right_iff]
  exact List.forall₂_same.mpr fun names hnames =>
    alike_sourceFile hroot hroot' hlinks hkeep hnames

/-- A crawl of a directory without links gives what the entries of the directory determine. -/
theorem crawl_eq_ok_iff_of_equal (hroot : t.entry false root = .ok (.directory es))
    (hroot' : t'.entry false root' = .ok (.directory es)) (hlinks : (Entry.directory es).LinkFree)
    (hkeep : c.keepRootName = false) (s : Snapshot) :
    crawl c t root = .ok s ↔ crawl c t' root' = .ok s := by
  rw [crawl_of_directory hroot, crawl_of_directory hroot', Config.scan, Config.scan, hroot, hroot']
  exact foldlM_addFile_eq_ok_iff_of_alike
    (forall₂_alike (FileTree.entry_true_of_directory hroot) (FileTree.entry_true_of_directory hroot')
      hlinks hkeep) {} s

end Snapshot

/-! ### Comparing a snapshot with itself -/

theorem Snapshot.sameNames_self (s : Snapshot) : s.SameNames s where
  paths _ := Iff.rfl
  symbols p x y hx hy := by
    obtain rfl : x = y := Option.some.inj (hx.symm.trans hy)
    refine ⟨rfl, fun _ => Iff.rfl, fun k a b ha hb => Or.inl ?_⟩
    exact Option.some.inj (ha.symm.trans hb)

theorem Report.isEmpty_between_self (s : Snapshot) : (between s s).isEmpty = true :=
  isEmpty_between_iff.mpr s.sameNames_self

namespace Config

/-- **Keys depend on the subtree alone.** Two directories with the same entries have the same keys,
wherever they are and however the paths to them are written; if they hold no links, a comparison of the
two fails on the first or finds no difference. With the name of the root kept, the same files are
selected in the same order, and the name stands in front of each key, if the root has a name; the
directories that are left out are the same. Keys and tests are what the text of a path says below the
root or the directory above it. -/
theorem scan_keys_exact :
    (∀ (c : Config) (t t' : FileTree) (root root' : String) (entries : List (String × Entry)),
      c.keepRootName = false → t.entry false root = .ok (.directory entries) →
      t'.entry false root' = .ok (.directory entries) →
        (c.scan t root).map SourceFile.key = (c.scan t' root').map SourceFile.key) ∧
    (∀ (c : Config) (t : FileTree) (root root' : String) (entries : List (String × Entry)),
      c.keepRootName = false → t.entry false root = .ok (.directory entries) →
      t.entry false root' = .ok (.directory entries) → (Entry.directory entries).LinkFree →
        (∃ e, Snapshot.crawl c t root = .error e ∧ Report.ofTrees c t root root' = .error e) ∨
        ∃ report, Report.ofTrees c t root root' = .ok report ∧ report.isEmpty = true) ∧
    ∀ (c : Config) (t : FileTree) (root : String) (entries : List (String × Entry)),
      t.entry false root = .ok (.directory entries) →
        scan { c with keepRootName := true } t root =
          (scan { c with keepRootName := false } t root).map
            (fun f => { f with key := nest root f.key }) ∧
        (∀ names, leavesOut { c with keepRootName := true } names =
          leavesOut { c with keepRootName := false } names) ∧
        (∀ f ∈ c.scan t root,
          f.key = slashed (Path.relativeTo (c.keyBase root) (Path.parts f.path))) ∧
        ∀ names inner, Entry.find? entries names = some (.directory inner) →
          (c.leavesOut names = true ↔ ∃ part ∈ c.exclude, part.toList <:+:
            (slashed (Path.relativeTo (Path.parts root) (Path.parts (Path.join root names)))).toList) := by
  refine ⟨?_, ?_, ?_⟩
  · intro c t t' root root' entries hkeep hroot hroot'
    rw [scan_of_directory hroot, scan_of_directory hroot', List.map_map, List.map_map]
    apply List.map_congr_left
    intro names _
    simp [sourceFile, key, hkeep]
  · intro c t root root' entries hkeep hroot hroot' hlinks
    cases hcrawl : Snapshot.crawl c t root with
    | error e => exact Or.inl ⟨e, rfl, by rw [Report.ofTrees, hcrawl]; rfl⟩
    | ok s =>
        have hcrawl' : Snapshot.crawl c t root' = .ok s :=
          (Snapshot.crawl_eq_ok_iff_of_equal hroot hroot' hlinks hkeep s).mp hcrawl
        refine Or.inr ⟨.between s s, ?_, Report.isEmpty_between_self s⟩
        rw [Report.ofTrees, hcrawl, hcrawl']
        rfl
  · intro c t root entries hroot
    have hsound := FileTree.sound_of_entry hroot
    refine ⟨?_, fun _ => rfl, ?_, ?_⟩
    · rw [scan_of_directory hroot, scan_of_directory hroot, List.map_map]
      -- The names are tested in the same way, whatever keys begin with.
      have hsame : selected { c with keepRootName := true } entries =
          selected { c with keepRootName := false } entries := rfl
      rw [hsame]
      apply List.map_congr_left
      intro names hnames
      simp [sourceFile, key_keepRootName c root (ne_nil_of_mem_selected hsound hnames)]
    · intro f hf
      rw [scan_of_directory hroot] at hf
      obtain ⟨names, hnames, rfl⟩ := List.mem_map.mp hf
      exact key_eq_relativeTo c root (isFileName_of_mem_selected hsound hnames)
    · intro names inner hfind
      exact leavesOut_iff_relativeTo (Entry.isFileName_of_find? hsound hfind)

/-- The entries of a directory that is there twice. -/
def twinEntries : List (String × Entry) :=
  [("m.py", .file "def f():\n    pass\n".toUTF8), ("sub", .directory [("n.py", .file .empty)])]

/-- Two releases with the same sources. -/
def twinTree : FileTree where
  entries := [("new", .directory [("lib", .directory twinEntries)]),
    ("old", .directory [("lib", .directory twinEntries)])]
  sound := by
    have hsub : Entry.Sound (.directory [("n.py", .file .empty)]) :=
      .directory _ (List.pairwise_singleton _ _) (by decide +kernel) (by simp [Entry.Sound.file])
    have hlib : Entry.Sound (.directory twinEntries) :=
      .directory _ (by decide +kernel) (by decide +kernel)
        (by simp [twinEntries, Entry.Sound.file, hsub])
    have hrelease : Entry.Sound (.directory [("lib", .directory twinEntries)]) :=
      .directory _ (List.pairwise_singleton _ _) (by decide +kernel) (by simp [hlib])
    exact .directory _ (by decide +kernel) (by decide +kernel) (by simp [hrelease])

/-- The two directories are written in different ways, and compare as equal; the name of the second is
found behind the point at its end. -/
theorem scan_keys_twinTree :
    twinTree.entry false "./old//lib/" = .ok (.directory twinEntries) ∧
    twinTree.entry false "old/../new/lib/." = .ok (.directory twinEntries) ∧
    (Entry.directory twinEntries).LinkFree ∧
    (scan {} twinTree "old/../new/lib/.").map SourceFile.key = ["m.py", "sub/n.py"] ∧
    (∃ report, Report.ofTrees {} twinTree "./old//lib/" "old/../new/lib/." = .ok report ∧
      report.isEmpty = true) ∧
    scan { keepRootName := true } twinTree "old/../new/lib/." =
      [⟨"old/../new/lib/./m.py", "lib/m.py"⟩, ⟨"old/../new/lib/./sub/n.py", "lib/sub/n.py"⟩] := by
  have hold : twinTree.entry false "./old//lib/" = .ok (.directory twinEntries) := rfl
  have hnew : twinTree.entry false "old/../new/lib/." = .ok (.directory twinEntries) := rfl
  have hlinks : (Entry.directory twinEntries).LinkFree := by
    have hsub : (Entry.directory [("n.py", .file .empty)]).LinkFree :=
      .directory _ (by simp [Entry.LinkFree.file])
    exact .directory _ (by simp [twinEntries, Entry.LinkFree.file, hsub])
  have hscan : scan {} twinTree "./old//lib/" =
      [⟨"./old//lib/m.py", "m.py"⟩, ⟨"./old//lib/sub/n.py", "sub/n.py"⟩] := by decide +kernel
  have hscan' : scan {} twinTree "old/../new/lib/." =
      [⟨"old/../new/lib/./m.py", "m.py"⟩, ⟨"old/../new/lib/./sub/n.py", "sub/n.py"⟩] := by
    decide +kernel
  have hcrawl : Snapshot.crawl {} twinTree "./old//lib/" =
      .ok ⟨.ofList [("m.py", { functions := .ofList ["f"] }), ("sub/n.py", {})]⟩ := by decide +kernel
  obtain ⟨hkeys, hreport, hroot⟩ := scan_keys_exact
  refine ⟨hold, hnew, hlinks, ?_, ?_, ?_⟩
  · rw [← hkeys {} twinTree twinTree _ _ _ rfl hold hnew, hscan]
    rfl
  · refine (hreport {} twinTree _ _ _ rfl hold hnew hlinks).resolve_left ?_
    rintro ⟨e, he, -⟩
    rw [hcrawl] at he
    cases he
  · rw [(hroot {} twinTree _ _ hnew).1, hscan']
    decide +kernel

end Config

end ApiSurface
