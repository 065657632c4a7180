import ApiSurface.Proofs.FreshFile
import ApiSurface.Proofs.RemovalGate
import ApiSurface.Proofs.SnapshotText

/-! Saved snapshots stand for the directories they were taken of. Writing the snapshot to a new file
outside the directory leaves what was crawled as it is, and reading the file gives the snapshot back;
a comparison then cannot tell the file from the directory, on either side. -/

namespace ApiSurface

theorem fromUTF8?_toUTF8 (text : String) : String.fromUTF8? text.toUTF8 = some text := by
  rw [String.toUTF8_eq_toByteArray, String.fromUTF8?, dif_pos text.isValidUTF8]
  rfl

/-! ### What is read stays as it is -/

namespace FileTree

/-- What can be read in a tree can be read in another, with the same text. -/
def KeptIn (t t' : FileTree) : Prop :=
  ∀ path text, t.read path = .ok text → t'.read path = .ok text

variable {t t' : FileTree}

theorem KeptIn.read_eq (h : t.KeptIn t') {path : String}
    (hread : ∀ cause, t.read path ≠ .error cause) : t'.read path = t.read path := by
  cases hpath : t.read path with
  | error cause => exact absurd hpath (hread cause)
  | ok text => exact h path text hpath

theorem KeptIn.configLoad (h : t.KeptIn t') {path : String} {c : Config}
    (hload : Config.load t path = .ok c) : Config.load t' path = .ok c := by
  have hread : ∀ cause, t.read path ≠ .error cause := by
    intro cause hcause
    rw [Config.load, hcause] at hload
    cases hload
  rw [Config.load, h.read_eq hread]
  exact hload

theorem KeptIn.optionsLoad (h : t.KeptIn t') {crawl : Command.CrawlOptions} {c : Config}
    (hload : crawl.load t = .ok c) : crawl.load t' = .ok c := by
  rw [Command.CrawlOptions.load] at hload ⊢
  cases hconfig : crawl.config with
  | none =>
      rw [hconfig] at hload
      exact hload
  | some path =>
      rw [hconfig] at hload
      cases hfile : Config.load t path with
      | error cause =>
          simp only [hfile] at hload
          cases hload
      | ok file =>
          simp only [hfile] at hload
          simp only [h.configLoad hfile]
          exact hload

theorem KeptIn.snapshotLoad (h : t.KeptIn t') {path : String} {s : Snapshot}
    (hload : Snapshot.load t path = .ok s) : Snapshot.load t' path = .ok s := by
  have hread : ∀ cause, t.read path ≠ .error cause := by
    intro cause hcause
    rw [Snapshot.load, hcause] at hload
    cases hload
  rw [Snapshot.load, h.read_eq hread]
  exact hload

theorem KeptIn.symbols (h : t.KeptIn t') {f : SourceFile} {symbols : Symbols}
    (hsymbols : f.symbols t = .ok symbols) : f.symbols t' = .ok symbols := by
  have hread : ∀ cause, t.read f.path ≠ .error cause := by
    intro cause hcause
    rw [SourceFile.symbols, hcause] at hsymbols
    cases hsymbols
  rw [SourceFile.symbols, h.read_eq hread]
  exact hsymbols

theorem KeptIn.addFile (h : t.KeptIn t') {s s' : Snapshot} {f : SourceFile}
    (hadd : s.addFile t f = .ok s') : s.addFile t' f = .ok s' := by
  rw [Snapshot.addFile] at hadd ⊢
  cases hsymbols : f.symbols t with
  | error cause =>
      rw [hsymbols] at hadd
      cases hadd
  | ok symbols =>
      rw [hsymbols] at hadd
      rw [h.symbols hsymbols]
      exact hadd

theorem KeptIn.foldlM_addFile (h : t.KeptIn t') (files : List SourceFile) {s s' : Snapshot}
    (hadd : files.foldlM (Snapshot.addFile t) s = .ok s') :
    files.foldlM (Snapshot.addFile t') s = .ok s' := by
  induction files generalizing s with
  | nil => exact hadd
  | cons f files ih =>
      rw [List.foldlM_cons] at hadd ⊢
      cases hfile : s.addFile t f with
      | error cause =>
          rw [hfile] at hadd
          cases hadd
      | ok next =>
          rw [hfile] at hadd
          rw [h.addFile hfile]
          exact ih hadd

/-! ### The directory beside a new file -/

variable {place : List String} {new : Entry} {hnew : new.Sound} {c : Config} {path : String}

theorem Free.keptIn_put (h : t.Free place) (hfile : new.isDirectory = false) :
    t.KeptIn (t.put place new hnew) :=
  fun _ _ hread => h.read_put hfile hread

theorem Free.scan_put (h : t.Free place) (hfile : new.isDirectory = false)
    (hdirectory : t.isDirectory path = true) (houtside : t.Outside place path) :
    c.scan (t.put place new hnew) path = c.scan t path := by
  obtain ⟨home, es, htarget⟩ := isDirectory_iff.mp hdirectory
  have htarget' : (t.put place new hnew).target true path = .ok (.present home (.directory es)) :=
    h.target_put hfile htarget (Or.inr (houtside home es htarget))
  have hentry := entry_of_target htarget
  have hentry' := entry_of_target htarget'
  have hsame : t.target false path = .ok (.present home (.directory es)) ∨
      ∃ place target, t.target false path = .ok (.present place (.link target)) := by
    have htext := ne_empty_of_target htarget
    rw [target_of_ne_empty t htext] at htarget ⊢
    exact follow_false htarget
  rcases hsame with hfalse | ⟨link, target, hfalse⟩
  · have hfalse' : (t.put place new hnew).target false path = .ok (.present home (.directory es)) :=
      h.target_put hfile hfalse (Or.inr (houtside home es htarget))
    rw [Config.scan, Config.scan, entry_of_target hfalse, entry_of_target hfalse']
  · have hfalse' : (t.put place new hnew).target false path = .ok (.present link (.link target)) :=
      h.target_put hfile hfalse (Or.inl rfl)
    rw [Config.scan, Config.scan, entry_of_target hfalse, entry_of_target hfalse', hentry, hentry']

theorem Free.crawl_put (h : t.Free place) (hfile : new.isDirectory = false)
    (houtside : t.Outside place path) {s : Snapshot} (hcrawl : Snapshot.crawl c t path = .ok s) :
    Snapshot.crawl c (t.put place new hnew) path = .ok s := by
  rw [Snapshot.crawl] at hcrawl ⊢
  split_ifs at hcrawl with hdirectory
  rw [if_pos (h.isDirectory_put hfile hdirectory houtside), h.scan_put hfile hdirectory houtside]
  exact (h.keptIn_put hfile).foldlM_addFile _ hcrawl

end FileTree

namespace Command

variable {t : FileTree} {place : List String} {new : Entry} {hnew : new.Sound} {c : Config}
  {path dir file : String} {crawl : CrawlOptions} {s : Snapshot}

theorem operand_of_load (hload : Snapshot.load t path = .ok s) : operand c t path = .ok s := by
  have hdirectory : t.isDirectory path = false := by
    rw [Bool.eq_false_iff]
    intro hdirectory
    obtain ⟨home, es, htarget⟩ := FileTree.isDirectory_iff.mp hdirectory
    rw [Snapshot.load, FileTree.read, FileTree.entry_of_target htarget] at hload
    cases hload
  rw [operand, hdirectory, if_neg Bool.false_ne_true, hload]
  rfl

theorem operand_of_crawl (hcrawl : Snapshot.crawl c t path = .ok s) : operand c t path = .ok s := by
  have hdirectory : t.isDirectory path = true := by
    rw [Snapshot.crawl] at hcrawl
    split_ifs at hcrawl with hdirectory
    exact hdirectory
  rw [operand, if_pos hdirectory, hcrawl]

/-- An operand gives a snapshot if it is a directory that can be crawled or a file that can be
loaded. -/
theorem operand_eq_ok_iff :
    operand c t path = .ok s ↔ Snapshot.crawl c t path = .ok s ∨ Snapshot.load t path = .ok s := by
  constructor
  · intro hoperand
    rw [operand] at hoperand
    split_ifs at hoperand
    · cases hcrawl : Snapshot.crawl c t path with
      | error cause =>
          rw [hcrawl] at hoperand
          cases hoperand
      | ok s' =>
          rw [hcrawl] at hoperand
          cases hoperand
          exact Or.inl rfl
    · cases hload : Snapshot.load t path with
      | error cause =>
          rw [hload] at hoperand
          cases hoperand
      | ok s' =>
          rw [hload] at hoperand
          cases hoperand
          exact Or.inr rfl
  · rintro (hcrawl | hload)
    · exact operand_of_crawl hcrawl
    · exact operand_of_load hload

theorem operand_put (h : t.Free place) (hfile : new.isDirectory = false)
    (houtside : t.Outside place path) (hoperand : operand c t path = .ok s) :
    operand c (t.put place new hnew) path = .ok s := by
  rcases operand_eq_ok_iff.mp hoperand with hcrawl | hload
  · exact operand_of_crawl (h.crawl_put hfile houtside hcrawl)
  · exact operand_of_load ((h.keptIn_put hfile).snapshotLoad hload)

theorem read_put_self {text : String} (hnew : (Entry.file text.toUTF8).Sound)
    (htarget : t.target true file = .ok (.absent place false)) :
    (t.put place (.file text.toUTF8) hnew).read file = .ok text := by
  have hfree := FileTree.free_of_target_absent htarget
  exact FileTree.read_eq_ok_iff.mpr
    ⟨place, text.toUTF8, hfree.target_put_self htarget, fromUTF8?_toUTF8 text⟩

theorem operand_put_self {text : String} {hnew : (Entry.file text.toUTF8).Sound}
    (htarget : t.target true file = .ok (.absent place false)) (htext : Snapshot.ofJson text = .ok s) :
    operand c (t.put place (.file text.toUTF8) hnew) file = .ok s := by
  apply operand_of_load
  rw [Snapshot.load, read_put_self hnew htarget]
  simp only [htext]

/-! ### Comparing with the file and with the directory -/

/-- A directory can be crawled: the configuration loads, there is a language for its sources, and the
crawl gives a snapshot. -/
def Crawls (t : FileTree) (crawl : CrawlOptions) (dir : String) (s : Snapshot) : Prop :=
  ∃ c name, crawl.load t = .ok c ∧ language c.extension = .ok name ∧ Snapshot.crawl c t dir = .ok s

/-- In a tree with one more file, that file stands for a directory: comparisons with the one and with
the other end alike, on either side and whatever the other operand is. Comparisons that did not fail
before end as they did, so long as the file is not below their operands. -/
structure StandsFor (t t' : FileTree) (place : List String) (crawl : CrawlOptions)
    (file dir : String) : Prop where
  former : ∀ other only format gate args args',
    parse args = .ok (.diff file other only format gate crawl) →
    parse args' = .ok (.diff dir other only format gate crawl) → run t' args = run t' args'
  latter : ∀ other only format gate args args',
    parse args = .ok (.diff other file only format gate crawl) →
    parse args' = .ok (.diff other dir only format gate crawl) → run t' args = run t' args'
  before : ∀ former latter only format gate args,
    t.Outside place former → t.Outside place latter →
    parse args = .ok (.diff former latter only format gate crawl) →
    (run t args).failure = none → run t' args = { run t args with tree := t' }

theorem run_of_perform {request : Request} {outcome : Outcome} {args : List String}
    (hargs : parse args = .ok request) (hperform : perform t request = .ok outcome) :
    run t args = outcome := by
  simp only [run, hargs, hperform]

theorem exists_outcome {request : Request} {args : List String} (hargs : parse args = .ok request)
    (hrun : (run t args).failure = none) : ∃ outcome, perform t request = .ok outcome := by
  cases hperform : perform t request with
  | ok outcome => exact ⟨outcome, rfl⟩
  | error failure =>
      simp only [run, hargs, hperform] at hrun
      cases hrun

theorem stage_eq_ok_iff {α : Type} {result : Except Error α} {a : α} :
    stage result = .ok a ↔ result = .ok a := by
  cases result <;> simp [stage, Except.mapError]

theorem exists_of_bind_eq_ok {α β : Type} {x : Stage α} {f : α → Stage β} {b : β}
    (h : x >>= f = .ok b) : ∃ a, x = .ok a ∧ f a = .ok b := by
  cases x with
  | error failure => cases h
  | ok a => exact ⟨a, rfl, h⟩

/-- A comparison that does not fail had both operands. -/
theorem exists_reads {former latter : String} {args : List String} {only : Option Direction}
    {format : Format} {gate : Bool}
    (hargs : parse args = .ok (.diff former latter only format gate crawl))
    (hrun : (run t args).failure = none) :
    ∃ before after, Reads t crawl former latter before after := by
  obtain ⟨outcome, hperform⟩ := exists_outcome hargs hrun
  obtain ⟨c, hload, hperform⟩ := exists_of_bind_eq_ok hperform
  obtain ⟨name, hlanguage, hperform⟩ := exists_of_bind_eq_ok hperform
  obtain ⟨before, hbefore, hperform⟩ := exists_of_bind_eq_ok hperform
  obtain ⟨after, hafter, -⟩ := exists_of_bind_eq_ok hperform
  exact ⟨before, after, c, name, stage_eq_ok_iff.mp hload, stage_eq_ok_iff.mp hlanguage, hbefore,
    hafter⟩

theorem run_diff_congr {former former' latter latter' : String} (hload : crawl.load t = .ok c)
    (hformer : operand c t former = operand c t former')
    (hlatter : operand c t latter = operand c t latter') {args args' : List String}
    {only : Option Direction} {format : Format} {gate : Bool}
    (hargs : parse args = .ok (.diff former latter only format gate crawl))
    (hargs' : parse args' = .ok (.diff former' latter' only format gate crawl)) :
    run t args = run t args' := by
  have hperform : perform t (.diff former latter only format gate crawl) =
      perform t (.diff former' latter' only format gate crawl) := by
    simp only [perform, hload, stage, Except.mapError, bind, Except.bind, hformer, hlatter]
  simp only [run, hargs, hargs', hperform]

theorem run_diff_put (h : t.Free place) (hplain : new.isDirectory = false) {former latter : String}
    (hformer : t.Outside place former) (hlatter : t.Outside place latter) {args : List String}
    {only : Option Direction} {format : Format} {gate : Bool}
    (hargs : parse args = .ok (.diff former latter only format gate crawl))
    (hrun : (run t args).failure = none) :
    run (t.put place new hnew) args = { run t args with tree := t.put place new hnew } := by
  obtain ⟨before, after, hreads⟩ := exists_reads hargs hrun
  have hreads' : Reads (t.put place new hnew) crawl former latter before after := by
    obtain ⟨c, name, hload, hlanguage, hbefore, hafter⟩ := hreads
    exact ⟨c, name, (h.keptIn_put hplain).optionsLoad hload, hlanguage,
      operand_put h hplain hformer hbefore, operand_put h hplain hlatter hafter⟩
  rw [run_diff hreads hargs, run_diff hreads' hargs]

/-- A text of the snapshot, written to a free place outside the directory, stands for it. -/
theorem standsFor_put {text : String} (hnew : (Entry.file text.toUTF8).Sound)
    (hcrawls : Crawls t crawl dir s) (htarget : t.target true file = .ok (.absent place false))
    (houtside : t.Outside place dir) (htext : Snapshot.ofJson text = .ok s) :
    StandsFor t (t.put place (.file text.toUTF8) hnew) place crawl file dir := by
  have hfree := FileTree.free_of_target_absent htarget
  have hplain : (Entry.file text.toUTF8).isDirectory = false := rfl
  obtain ⟨c, name, hload, hlanguage, hcrawl⟩ := hcrawls
  have hload' : crawl.load (t.put place (.file text.toUTF8) hnew) = .ok c :=
    (hfree.keptIn_put hplain).optionsLoad hload
  have hsame : operand c (t.put place (.file text.toUTF8) hnew) file =
      operand c (t.put place (.file text.toUTF8) hnew) dir := by
    rw [operand_put_self htarget htext, operand_of_crawl (hfree.crawl_put hplain houtside hcrawl)]
  refine ⟨?_, ?_, ?_⟩
  · intro other only format gate args args' hargs hargs'
    exact run_diff_congr hload' hsame rfl hargs hargs'
  · intro other only format gate args args' hargs hargs'
    exact run_diff_congr hload' rfl hsame hargs hargs'
  · intro former latter only format gate args hformer hlatter hargs hrun
    exact run_diff_put hfree hplain hformer hlatter hargs hrun

theorem write_of_target {content : ByteArray}
    (htarget : t.target true file = .ok (.absent place false)) :
    t.write file content = .ok (t.put place (.file content) (.file content)) := by
  rw [FileTree.write, htarget]
  rfl

theorem run_snapshot_save (hcrawls : Crawls t crawl dir s)
    (htarget : t.target true file = .ok (.absent place false)) {args : List String}
    (hargs : parse args = .ok (.snapshot dir (some file) crawl)) :
    run t args = { status := 0, output := "",
                   tree := t.put place (.file s.toJson.toUTF8) (.file _) } := by
  obtain ⟨c, name, hload, hlanguage, hcrawl⟩ := hcrawls
  apply run_of_perform hargs
  simp only [perform, hload, stage, Except.mapError, bind, Except.bind, hlanguage, hcrawl,
    FileTree.save, write_of_target htarget, pure, Except.pure]

theorem run_snapshot_print (hcrawls : Crawls t crawl dir s) {args : List String}
    (hargs : parse args = .ok (.snapshot dir none crawl)) :
    run t args = { status := 0, output := s.toJson ++ "\n", tree := t } := by
  obtain ⟨c, name, hload, hlanguage, hcrawl⟩ := hcrawls
  apply run_of_perform hargs
  simp only [perform, hload, stage, Except.mapError, bind, Except.bind, hlanguage, hcrawl, pure,
    Except.pure]

/-- **Saved snapshots stand for trees.** Let a directory be crawled, and let a path lead to a free name
outside it. Then the snapshot can be saved under that path, and the file stands for the directory. So
does a file to which the printed snapshot is written. -/
theorem standsFor_exact (t : FileTree) (crawl : CrawlOptions) (dir file : String) (s : Snapshot)
    (place : List String) (hcrawls : Crawls t crawl dir s)
    (htarget : t.target true file = .ok (.absent place false)) (houtside : t.Outside place dir) :
    (∀ args, parse args = .ok (.snapshot dir (some file) crawl) →
      (run t args).status = 0 ∧ (run t args).failure = none ∧
        (run t args).tree.read file = .ok s.toJson ∧
        StandsFor t (run t args).tree place crawl file dir) ∧
    ∀ args, parse args = .ok (.snapshot dir none crawl) →
      (run t args).status = 0 ∧ (run t args).failure = none ∧
        ∃ t', t.write file (run t args).output.toUTF8 = .ok t' ∧
          StandsFor t t' place crawl file dir := by
  constructor
  · intro args hargs
    rw [run_snapshot_save hcrawls htarget hargs]
    refine ⟨rfl, rfl, read_put_self (.file _) htarget, ?_⟩
    exact standsFor_put (.file _) hcrawls htarget houtside (Snapshot.ofJson_toJson s)
  · intro args hargs
    have hblank : Json.Blank "\n".toList := by simp [Json.Blank, Json.IsBlank]
    rw [run_snapshot_print hcrawls hargs]
    refine ⟨rfl, rfl, _, write_of_target htarget, ?_⟩
    exact standsFor_put (.file _) hcrawls htarget houtside (Snapshot.ofJson_toJson_append s hblank)

/-- A directory with a module, beside the snapshot of an earlier release. -/
def checkout : FileTree :=
  let former := Entry.file (release ["g"]).toJson.toUTF8
  let source := Entry.file "def f():\n    pass\n".toUTF8
  (((∅ : FileTree).put ["old.json"] former (.file _)).put ["lib"] FileTree.emptyDirectory
    FileTree.sound_emptyDirectory).put ["lib", "m.py"] source (.file _)

/-- The saved snapshot and the directory compare alike with the earlier release. -/
theorem standsFor_checkout :
    Crawls checkout {} "lib" (release ["f"]) ∧
    (run checkout ["snapshot", "lib", "-o", "new.json"]).failure = none ∧
    run (run checkout ["snapshot", "lib", "-o", "new.json"]).tree
        ["diff", "old.json", "new.json", "--fail-on-removed"] =
      run (run checkout ["snapshot", "lib", "-o", "new.json"]).tree
        ["diff", "old.json", "lib", "--fail-on-removed"] := by
  have hcrawls : Crawls checkout {} "lib" (release ["f"]) :=
    ⟨{}, "python", by decide +kernel, by decide +kernel, by decide +kernel⟩
  have houtside : checkout.Outside ["new.json"] "lib" := by
    intro home es htarget
    have hhome : checkout.target true "lib" = .ok (.present ["lib"] (.directory _)) := rfl
    rw [hhome] at htarget
    cases htarget
    decide
  have hsaved := (standsFor_exact checkout {} "lib" "new.json" (release ["f"]) ["new.json"] hcrawls rfl
    houtside).1 ["snapshot", "lib", "-o", "new.json"] (by decide +kernel)
  exact ⟨hcrawls, hsaved.2.1, hsaved.2.2.2.latter "old.json" none .text true
    ["diff", "old.json", "new.json", "--fail-on-removed"]
    ["diff", "old.json", "lib", "--fail-on-removed"] (by decide +kernel) (by decide +kernel)⟩

end Command

end ApiSurface
