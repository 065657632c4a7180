import ApiSurface.Proofs.DottedNames
import ApiSurface.Proofs.FailedRun
import ApiSurface.Proofs.ReportLines

/-! The text of a report. A report file is made by joining the lines and ending the whole with a line
end, unless it is empty; a comparison prints line by line. Both give the same text, since no line is
empty; and unless a name has a line end in it, the lines can be told apart again. -/

namespace ApiSurface

/-! ### Lines and their text -/

namespace Report

/-- Joining lines and ending the whole is the same as ending each. -/
theorem intercalate_append_newline {lines : List (List Char)} (h : lines ≠ []) :
    ['\n'].intercalate lines ++ ['\n'] = lines.flatMap (· ++ ['\n']) := by
  induction lines with
  | nil => exact absurd rfl h
  | cons line lines ih =>
      by_cases hlines : lines = []
      · simp [hlines]
      · rw [List.intercalate_cons_of_ne_nil hlines, List.append_assoc, ih hlines, List.flatMap_cons]

theorem toList_printed (lines : List String) :
    (Command.printed lines).toList = (lines.map String.toList).flatMap (· ++ ['\n']) := by
  simp [Command.printed, String.toList_join, List.flatMap_map]

/-- The text of a report file is that of its lines, unless one of them is empty. -/
theorem fileText_eq_printed {lines : List String} (h : "" ∉ lines) :
    fileText lines = Command.printed lines := by
  cases lines with
  | nil => rfl
  | cons line lines =>
      have hline : line ≠ "" := fun hempty => h (hempty ▸ List.mem_cons_self)
      have hne : ("\n".intercalate (line :: lines)).isEmpty = false := by
        cases lines with
        | nil => simpa [String.intercalate_singleton] using hline
        | cons next lines => simp [String.intercalate_cons_cons, hline]
      rw [fileText, if_neg (by simp [hne]), ← String.toList_inj, String.toList_append,
        String.toList_intercalate, toList_printed]
      exact intercalate_append_newline (by simp)

/-- Lines without line ends are what lies between those of their text. -/
theorem splitOn_printed {lines : List String} (h : ∀ line ∈ lines, '\n' ∉ line.toList) :
    (Command.printed lines).toList.splitOn '\n' = lines.map String.toList ++ [[]] := by
  rw [toList_printed]
  induction lines with
  | nil => rfl
  | cons line lines ih =>
      rw [List.forall_mem_cons] at h
      have hline : ∀ c ∈ line.toList, (c == '\n') = false := by
        intro c hc
        rw [beq_eq_false_iff_ne]
        exact fun heq => h.1 (heq ▸ hc)
      rw [List.map_cons, List.flatMap_cons, List.append_assoc, List.singleton_append, List.splitOn,
        List.splitOnP_append_cons_of_forall_mem hline _ rfl, ← List.splitOn, ih h.2, List.cons_append]

end Report

/-! ### Names without line ends -/

/-- All names of a snapshot: those of its modules, their functions, classes and methods. -/
def Snapshot.names (s : Snapshot) : List String :=
  s.modules.toList.flatMap fun e =>
    e.1 :: (e.2.functions.toList ++ e.2.classes.toList.flatMap fun k => k.1 :: k.2.toList)

namespace Snapshot

variable {s : Snapshot} {path : String} {x : Symbols}

theorem path_mem_names (h : s.get? path = some x) : path ∈ s.names :=
  List.mem_flatMap.mpr ⟨(path, x), NameMap.get?_eq_some_iff.mp h, List.mem_cons_self⟩

theorem function_mem_names (h : s.get? path = some x) {name : String} (hname : name ∈ x.functions) :
    name ∈ s.names :=
  List.mem_flatMap.mpr ⟨(path, x), NameMap.get?_eq_some_iff.mp h,
    List.mem_cons_of_mem _ (List.mem_append_left _ hname)⟩

theorem class_mem_names (h : s.get? path = some x) {owner : String} {ms : NameSet}
    (howner : x.classes.get? owner = some ms) {name : String} (hname : name = owner ∨ name ∈ ms) :
    name ∈ s.names := by
  refine List.mem_flatMap.mpr ⟨(path, x), NameMap.get?_eq_some_iff.mp h,
    List.mem_cons_of_mem _ (List.mem_append_right _ ?_)⟩
  exact List.mem_flatMap.mpr ⟨(owner, ms), NameMap.get?_eq_some_iff.mp howner, List.mem_cons.mpr hname⟩

end Snapshot

/-- What one snapshot lacks of another is named by points and the names of that other. -/
theorem Lack.newline_not_mem_name {here there : Snapshot} {l : Lack} (h : here.Lacks there l)
    (hnames : ∀ name ∈ here.names, '\n' ∉ name.toList) : '\n' ∉ l.name.toList := by
  have hdotted : ∀ path x, here.get? path = some x → '\n' ∉ (ModulePath.dotted path).toList := by
    intro path x hx hmem
    rcases ModulePath.mem_dotted hmem with hpoint | hpath
    · cases hpoint
    · exact hnames path (Snapshot.path_mem_names hx) hpath
  cases l with
  | wholeModule path =>
      obtain ⟨x, hx⟩ := Diff.mem_paths.mp h.1
      exact hdotted path x hx
  | wholeClass path name =>
      obtain ⟨x, y, hx, -, hname, -⟩ := h
      obtain ⟨ms, hms⟩ := NameMap.mem_keys.mp hname
      have hname := hnames name (Snapshot.class_mem_names hx hms (Or.inl rfl))
      simp [Lack.name, hdotted path x hx, hname]
  | method path owner name =>
      obtain ⟨x, y, a, b, hx, -, ha, -, -, -, hname, -⟩ := h
      have howner := hnames owner (Snapshot.class_mem_names hx ha (Or.inl rfl))
      have hname := hnames name (Snapshot.class_mem_names hx ha (Or.inr hname))
      simp [Lack.name, hdotted path x hx, howner, hname]
  | function path name =>
      obtain ⟨x, y, hx, -, hname, -⟩ := h
      have hname := hnames name (Snapshot.function_mem_names hx hname)
      simp [Lack.name, hdotted path x hx, hname]

namespace Diff

theorem mem_lines_between {former latter : Snapshot} {d : Direction} {text : String} :
    text ∈ (between former latter d).lines ↔
      ∃ l, (d.source former latter).Lacks (d.target former latter) l ∧ line d l.name = text := by
  rw [lines_between_eq, List.mem_map]
  simp only [Lack.mem_between_iff]

theorem line_ne_empty (d : Direction) (name : String) : line d name ≠ "" := by
  cases d <;> simp [line, Direction.label]

theorem newline_not_mem_line (d : Direction) {name : String} (h : '\n' ∉ name.toList) :
    '\n' ∉ (line d name).toList := by
  cases d <;> simp [line, Direction.label, h]

end Diff

namespace Report

theorem mem_lines_between {former latter : Snapshot} {text : String} :
    text ∈ (between former latter).lines ↔
      ∃ d l, (Direction.source d former latter).Lacks (d.target former latter) l ∧
        Diff.line d l.name = text := by
  rw [lines, List.mem_append, between, Diff.mem_lines_between, Diff.mem_lines_between]
  constructor
  · rintro (h | h)
    · exact ⟨.removed, h⟩
    · exact ⟨.added, h⟩
  · rintro ⟨d, h⟩
    cases d with
    | removed => exact Or.inl h
    | added => exact Or.inr h

theorem printed_between_eq_empty_iff {former latter : Snapshot} :
    Command.printed (between former latter).lines = "" ↔ former.SameNames latter := by
  have hlines : (between former latter).lines = [] ↔ (between former latter).isEmpty = true := by
    rw [lines, isEmpty, List.append_eq_nil_iff, Bool.and_eq_true, List.isEmpty_iff, List.isEmpty_iff]
  rw [← isEmpty_between_iff, ← hlines]
  constructor
  · exact fun hempty => not_not.mp (mt Command.printed_ne_empty (not_not.mpr hempty))
  · intro hnil
    rw [hnil]
    rfl

theorem fileText_between (former latter : Snapshot) :
    fileText (between former latter).lines = Command.printed (between former latter).lines := by
  apply fileText_eq_printed
  intro hmem
  obtain ⟨d, l, -, hempty⟩ := mem_lines_between.mp hmem
  exact Diff.line_ne_empty d l.name hempty

/-- **The report file and the printed report agree.** The text of the file is what a comparison prints:
every line followed by a line end, and so nothing if there is no change. If no name has a line end in it,
the text has the lines of the report between its line ends, and nothing after the last one. -/
theorem fileText_exact (former latter : Snapshot) :
    (∀ t crawl before after args gate, Command.Reads t crawl before after former latter →
      Command.parse args = .ok (.diff before after none .text gate crawl) →
      (Command.run t args).output = fileText (between former latter).lines) ∧
    fileText (between former latter).lines =
      String.join ((between former latter).lines.map (· ++ "\n")) ∧
    (fileText (between former latter).lines = "" ↔ former.SameNames latter) ∧
    ((∀ name ∈ former.names ++ latter.names, '\n' ∉ name.toList) →
      (fileText (between former latter).lines).toList.splitOn '\n' =
        (between former latter).lines.map String.toList ++ [[]]) := by
  rw [fileText_between]
  refine ⟨?_, rfl, printed_between_eq_empty_iff, ?_⟩
  · intro t crawl before after args gate hreads hargs
    rw [Command.run_diff hreads hargs]
    rfl
  · intro hnames
    apply splitOn_printed
    intro text htext
    obtain ⟨d, l, hlacks, rfl⟩ := mem_lines_between.mp htext
    refine Diff.newline_not_mem_line d (Lack.newline_not_mem_name hlacks fun name hname => hnames name ?_)
    cases d with
    | removed => exact List.mem_append_left _ hname
    | added => exact List.mem_append_right _ hname

/-- Two saved snapshots are compared; the one line of the report is printed as the file has it. -/
theorem fileText_exact_savedReleases :
    (Command.run Command.savedReleases ["diff", "a.json", "b.json"]).output =
      fileText (between (Command.release ["f", "g"]) (Command.release ["f"])).lines ∧
    (fileText (between (Command.release ["f", "g"]) (Command.release ["f"])).lines).toList.splitOn '\n' =
      ["DELETED m.g".toList, []] := by
  have hreads : Command.Reads Command.savedReleases {} "a.json" "b.json" (Command.release ["f", "g"])
      (Command.release ["f"]) :=
    ⟨{}, "python", by decide +kernel, by decide +kernel, by decide +kernel, by decide +kernel⟩
  have hexact := fileText_exact (Command.release ["f", "g"]) (Command.release ["f"])
  refine ⟨hexact.1 _ _ _ _ _ false hreads (by decide +kernel), ?_⟩
  rw [hexact.2.2.2 (by decide +kernel)]
  decide +kernel

end Report

end ApiSurface
