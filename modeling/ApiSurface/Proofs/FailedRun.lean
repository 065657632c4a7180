import ApiSurface.Proofs.SavedSnapshot

/-! Runs that fail. The stages of a run come in one order, and the first that fails ends it before
anything is printed or written; so its failure alone is told, and the files are as before. A run that
does not fail writes to one place at most. The exit status 1 stands for two things, a failure and
removals under the gate, but they cannot be mixed up: where there are removals, something is printed. -/

namespace ApiSurface

/-! ### Writing to one place -/

namespace Entry

variable {new : Entry} {es : List (String × Entry)} {path names : List String}

/-- The entry without what lies below it. -/
def bare : Entry → Entry
  | directory _ => directory []
  | e => e

theorem find?_put_cons_of_ne {name other : String} (h : other ≠ name) (path names : List String) :
    find? (put new (name :: path) es) (other :: names) = find? es (other :: names) := by
  by_cases hlast : path = []
  · subst hlast
    rw [put]
    split_ifs
    · exact find?_insertList_of_ne h names
    · rfl
  · by_cases hlookup : ∃ inner, es.lookup name = some (directory inner)
    · obtain ⟨inner, hinner⟩ := hlookup
      rw [put_cons_directory hinner hlast, find?_insertList_of_ne h]
    · rw [put_cons_of_not_directory (not_exists.mp hlookup) hlast]

/-- Putting a file in the place of a file, or where nothing was, changes nothing in other places. -/
theorem bare_find?_put (hnew : new.isDirectory = false)
    (hold : ∀ inner, find? es path ≠ some (directory inner)) (hnames : names ≠ path) :
    (find? (put new path es) names).map bare = (find? es names).map bare := by
  induction path generalizing es names with
  | nil => rw [put]
  | cons name path ih =>
      cases names with
      | nil => rfl
      | cons other names =>
          by_cases hother : other = name
          · subst hother
            have hbelow : names ≠ path := fun heq => hnames (by rw [heq])
            by_cases hlast : path = []
            · -- what is put has nothing below it, and neither had what was there before
              subst hlast
              rw [put]
              split_ifs
              · have hbefore : find? es (other :: names) = none := find?_cons_eq_none hold hbelow
                rw [hbefore, find?_cons_eq_none ?_ hbelow]
                intro inner hinner
                rw [NameMap.lookup_insertList_self] at hinner
                cases hinner
                cases hnew
              · rfl
            · by_cases hlookup : ∃ inner, es.lookup other = some (directory inner)
              · obtain ⟨inner, hinner⟩ := hlookup
                rw [put_cons_directory hinner hlast]
                by_cases hnil : names = []
                · subst hnil
                  rw [find?, find?, NameMap.lookup_insertList_self, hinner]
                  rfl
                · rw [find?_cons_directory hinner hlast] at hold
                  rw [find?_cons_directory (NameMap.lookup_insertList_self _ _ _) hnil,
                    find?_cons_directory hinner hnil, ih hold hbelow]
              · rw [put_cons_of_not_directory (not_exists.mp hlookup) hlast]
          · rw [find?_put_cons_of_ne hother]

end Entry

namespace FileTree

variable {t t' : FileTree} {place : List String} {new : Entry} {hnew : new.Sound}

/-- The path leads to a file, or to a free name for one. -/
def LeadsToFile (t : FileTree) (path : String) (place : List String) : Prop :=
  (∃ content, t.target true path = .ok (.present place (.file content))) ∨
    t.target true path = .ok (.absent place false)

/-- The trees differ in one place at most: every other file and link is the same in both, and every
other directory is in both. -/
def AgreeBeyond (place : List String) (t t' : FileTree) : Prop :=
  ∀ names, names ≠ place → (t'.find? names).map Entry.bare = (t.find? names).map Entry.bare

theorem agreeBeyond_put (hfile : new.isDirectory = false)
    (hold : ∀ inner, t.find? place ≠ some (.directory inner)) :
    AgreeBeyond place t (t.put place new hnew) := by
  intro names hnames
  cases place with
  | nil => exact absurd rfl (hold t.entries)
  | cons name place =>
      cases names with
      | nil => rfl
      | cons other names => exact Entry.bare_find?_put hfile hold hnames

theorem save_eq_ok {path text : String} (h : t.save path text = .ok t') :
    ∃ place, t.LeadsToFile path place ∧ AgreeBeyond place t t' := by
  rw [FileTree.save] at h
  split at h
  · rename_i t'' hwrite
    cases h
    rw [write] at hwrite
    cases htarget : t.target true path with
    | error cause =>
        rw [htarget] at hwrite
        cases hwrite
    | ok target =>
        rw [htarget] at hwrite
        cases target with
        | present place e =>
            cases e with
            | file content =>
                cases hwrite
                refine ⟨place, Or.inl ⟨content, htarget⟩, agreeBeyond_put rfl fun inner hinner => ?_⟩
                rw [target_of_ne_empty t (ne_empty_of_target htarget)] at htarget
                rw [find?_of_follow_present htarget] at hinner
                cases hinner
            | directory es => cases hwrite
            | link target => cases hwrite
        | absent place slash =>
            cases slash with
            | true => cases hwrite
            | false =>
                cases hwrite
                refine ⟨place, Or.inr htarget, agreeBeyond_put rfl fun inner hinner => ?_⟩
                rw [(free_of_target_absent htarget).absent] at hinner
                cases hinner
  · cases h

end FileTree

namespace Command

variable {t : FileTree} {args : List String} {request : Request}

/-! ### The first stage that fails -/

/-- The failure of a stage, if it fails. -/
def fault? {α : Type} : Stage α → Option Failure
  | .ok _ => none
  | .error failure => some failure

/-- What the request says about crawling. -/
def Request.crawl : Request → CrawlOptions
  | .snapshot _ _ crawl => crawl
  | .diff _ _ _ _ _ crawl => crawl

/-- The failures of the stages that come after the configuration and the language, each taken by itself.
Whether a file can be opened does not depend on what is to be written. -/
def Request.operandFaults (t : FileTree) (c : Config) : Request → List (Option Failure)
  | .snapshot input output _ =>
    [fault? (stage (Snapshot.crawl c t input)), output.bind fun path => fault? (stage (t.save path ""))]
  | .diff former latter _ _ _ _ => [fault? (operand c t former), fault? (operand c t latter)]

/-- The failures of all stages in their order: the configuration file, the language of the sources, the
operands from left to right, the output file. -/
def Request.faults (t : FileTree) (c : Config) (request : Request) : List (Option Failure) :=
  fault? (stage (request.crawl.load t)) :: fault? (stage (language c.extension)) ::
    request.operandFaults t c

theorem fault?_bind {α β : Type} (x : Stage α) (f : α → Stage β) {rest : Option Failure}
    (h : ∀ a, x = .ok a → fault? (f a) = rest) : fault? (x >>= f) = (fault? x).or rest := by
  cases x with
  | error failure => rfl
  | ok a => exact h a rfl

theorem fault?_save (t : FileTree) (path text : String) :
    fault? (stage (t.save path text)) = fault? (stage (t.save path "")) := by
  simp only [FileTree.save, FileTree.write]
  cases t.target true path with
  | error cause => rfl
  | ok target =>
      cases target with
      | present place e => cases e <;> rfl
      | absent place slash => cases slash <;> rfl

theorem findSome?_id_cons (fault : Option Failure) (faults : List (Option Failure)) :
    (fault :: faults).findSome? id = fault.or (faults.findSome? id) := by
  cases fault <;> rfl

/-- A request fails with the failure of the first stage that fails by itself. If there is no
configuration, it does not matter for which one the later stages are taken. -/
theorem fault?_perform (t : FileTree) (c : Config) (request : Request)
    (hc : ∀ c', request.crawl.load t = .ok c' → c' = c) :
    fault? (perform t request) = (request.faults t c).findSome? id := by
  cases request with
  | snapshot input output crawl =>
      simp only [Request.faults, Request.operandFaults, findSome?_id_cons, List.findSome?_nil]
      refine fault?_bind _ _ fun c' hload => ?_
      cases hc c' (stage_eq_ok_iff.mp hload)
      refine fault?_bind _ _ fun _ _ => ?_
      refine fault?_bind _ _ fun s _ => ?_
      cases output with
      | none => rfl
      | some path =>
          rw [Option.bind_some, ← fault?_save t path s.toJson]
          exact fault?_bind _ _ fun _ _ => rfl
  | diff former latter only format gate crawl =>
      simp only [Request.faults, Request.operandFaults, findSome?_id_cons, List.findSome?_nil]
      refine fault?_bind _ _ fun c' hload => ?_
      cases hc c' (stage_eq_ok_iff.mp hload)
      refine fault?_bind _ _ fun _ _ => ?_
      refine fault?_bind _ _ fun _ _ => ?_
      exact fault?_bind _ _ fun _ _ => rfl

/-! ### What a run leaves behind -/

theorem perform_diff_eq_ok {former latter : String} {only : Option Direction} {format : Format}
    {gate : Bool} {crawl : CrawlOptions} {outcome : Outcome}
    (h : perform t (.diff former latter only format gate crawl) = .ok outcome) :
    ∃ before after, outcome =
      { status := if gate && (compared before after only format).2 then 1 else 0
        output := (compared before after only format).1, tree := t } := by
  obtain ⟨c, -, h⟩ := exists_of_bind_eq_ok h
  obtain ⟨_, -, h⟩ := exists_of_bind_eq_ok h
  obtain ⟨before, -, h⟩ := exists_of_bind_eq_ok h
  obtain ⟨after, -, h⟩ := exists_of_bind_eq_ok h
  exact ⟨before, after, (Except.ok.inj h).symm⟩

theorem perform_snapshot_eq_ok {input : String} {output : Option String} {crawl : CrawlOptions}
    {outcome : Outcome} (h : perform t (.snapshot input output crawl) = .ok outcome) :
    ∃ s : Snapshot,
      (output = none ∧ outcome = { status := 0, output := s.toJson ++ "\n", tree := t }) ∨
      ∃ path t', output = some path ∧ t.save path s.toJson = .ok t' ∧
        outcome = { status := 0, output := "", tree := t' } := by
  obtain ⟨c, -, h⟩ := exists_of_bind_eq_ok h
  obtain ⟨_, -, h⟩ := exists_of_bind_eq_ok h
  obtain ⟨s, -, h⟩ := exists_of_bind_eq_ok h
  cases output with
  | none => exact ⟨s, Or.inl ⟨rfl, (Except.ok.inj h).symm⟩⟩
  | some path =>
      obtain ⟨t', hsave, h⟩ := exists_of_bind_eq_ok h
      exact ⟨s, Or.inr ⟨path, t', rfl, stage_eq_ok_iff.mp hsave, (Except.ok.inj h).symm⟩⟩

theorem failure_of_perform {outcome : Outcome} (h : perform t request = .ok outcome) :
    outcome.failure = none := by
  cases request with
  | snapshot input output crawl =>
      obtain ⟨s, ⟨-, rfl⟩ | ⟨path, t', -, -, rfl⟩⟩ := perform_snapshot_eq_ok h <;> rfl
  | diff former latter only format gate crawl =>
      obtain ⟨before, after, rfl⟩ := perform_diff_eq_ok h
      rfl

theorem run_of_error (hargs : parse args = .ok request) {failure : Failure}
    (h : perform t request = .error failure) :
    run t args = { status := 1, output := "", failure := some failure.text, tree := t } := by
  simp only [run, hargs, h]

theorem failure_run (hargs : parse args = .ok request) :
    (run t args).failure = (fault? (perform t request)).map Failure.text := by
  cases hperform : perform t request with
  | ok outcome =>
      rw [run_of_perform hargs hperform]
      exact failure_of_perform hperform
  | error failure =>
      rw [run_of_error hargs hperform]
      rfl

/-- A run that fails has the status 1, prints nothing and leaves the files as they are. -/
theorem run_of_failure (hargs : parse args = .ok request) (h : (run t args).failure ≠ none) :
    (run t args).status = 1 ∧ (run t args).output = "" ∧ (run t args).tree = t := by
  cases hperform : perform t request with
  | ok outcome =>
      rw [run_of_perform hargs hperform] at h
      exact absurd (failure_of_perform hperform) h
  | error failure =>
      rw [run_of_error hargs hperform]
      exact ⟨rfl, rfl, rfl⟩

theorem printed_ne_empty {lines : List String} (h : lines ≠ []) : printed lines ≠ "" := by
  cases lines with
  | nil => exact absurd rfl h
  | cons line lines =>
      rw [printed, List.map_cons, String.join_cons]
      simp

/-- Where something was removed, something is printed, in either format. -/
theorem compared_ne_empty {before after : Snapshot} {only : Option Direction} {format : Format}
    (h : (compared before after only format).2 = true) : (compared before after only format).1 ≠ "" := by
  cases format with
  | json => cases only <;> simp [compared]
  | text =>
      cases only with
      | none =>
          have hlines : (Report.between before after).removed.lines ≠ [] := by
            simpa [compared, Report.hasRemovals] using h
          apply printed_ne_empty
          exact List.append_ne_nil_of_left_ne_nil hlines _
      | some d =>
          have hdiff : (Diff.between before after d).isEmpty = false := by
            simp only [compared, Bool.and_eq_true, Bool.not_eq_true'] at h
            exact h.2
          apply printed_ne_empty
          rw [← List.isEmpty_eq_false_iff, Diff.isEmpty_lines_between, hdiff]

theorem run_diff_tree {former latter : String} {only : Option Direction} {format : Format} {gate : Bool}
    {crawl : CrawlOptions} (hargs : parse args = .ok (.diff former latter only format gate crawl)) :
    (run t args).tree = t := by
  by_cases hrun : (run t args).failure = none
  · obtain ⟨outcome, hperform⟩ := exists_outcome hargs hrun
    rw [run_of_perform hargs hperform]
    obtain ⟨before, after, rfl⟩ := perform_diff_eq_ok hperform
    rfl
  · exact (run_of_failure hargs hrun).2.2

theorem run_diff_output_eq_empty_iff {former latter : String} {only : Option Direction}
    {format : Format} {gate : Bool} {crawl : CrawlOptions}
    (hargs : parse args = .ok (.diff former latter only format gate crawl))
    (hstatus : (run t args).status = 1) :
    (run t args).output = "" ↔ (run t args).failure ≠ none := by
  refine ⟨fun hempty hrun => ?_, fun hrun => (run_of_failure hargs hrun).2.1⟩
  obtain ⟨outcome, hperform⟩ := exists_outcome hargs hrun
  rw [run_of_perform hargs hperform] at hstatus hempty
  obtain ⟨before, after, rfl⟩ := perform_diff_eq_ok hperform
  -- the status is 1 without a failure, so the gate found removals
  have hgate : (gate && (compared before after only format).2) = true := by
    by_contra hoff
    rw [if_neg hoff] at hstatus
    cases hstatus
  exact compared_ne_empty (Bool.and_eq_true_iff.mp hgate).2 hempty

theorem run_snapshot_tree {input : String} {output : Option String} {crawl : CrawlOptions}
    (hargs : parse args = .ok (.snapshot input output crawl)) (hrun : (run t args).failure = none) :
    (output = none → (run t args).tree = t) ∧
    ∀ path, output = some path →
      ∃ place, t.LeadsToFile path place ∧ FileTree.AgreeBeyond place t (run t args).tree := by
  obtain ⟨outcome, hperform⟩ := exists_outcome hargs hrun
  rw [run_of_perform hargs hperform]
  obtain ⟨s, ⟨rfl, rfl⟩ | ⟨path, t', rfl, hsave, rfl⟩⟩ := perform_snapshot_eq_ok hperform
  · exact ⟨fun _ => rfl, fun path hpath => by cases hpath⟩
  · refine ⟨fun hnone => (by cases hnone), fun path' hpath => ?_⟩
    cases hpath
    exact FileTree.save_eq_ok hsave

/-- **A failed run leaves no trace.** A run that fails prints nothing and leaves the files as they are,
and it tells the failure of the first stage that fails, whatever the later ones would have come to. A
comparison never changes the files; a snapshot changes at most the file that its output leads to. A
comparison with the exit status 1 failed exactly if it printed nothing. -/
theorem run_failure_exact (t : FileTree) (args : List String) (request : Request)
    (hargs : parse args = .ok request) :
    ((run t args).failure ≠ none →
      (run t args).status = 1 ∧ (run t args).output = "" ∧ (run t args).tree = t) ∧
    (∀ c, (∀ c', request.crawl.load t = .ok c' → c' = c) →
      (run t args).failure = ((request.faults t c).findSome? id).map Failure.text) ∧
    (∀ former latter only format gate crawl,
      request = .diff former latter only format gate crawl →
        (run t args).tree = t ∧
        ((run t args).status = 1 → ((run t args).output = "" ↔ (run t args).failure ≠ none))) ∧
    ∀ input output crawl, request = .snapshot input output crawl → (run t args).failure = none →
      (output = none → (run t args).tree = t) ∧
      ∀ path, output = some path →
        ∃ place, t.LeadsToFile path place ∧ FileTree.AgreeBeyond place t (run t args).tree := by
  refine ⟨run_of_failure hargs, ?_, ?_, ?_⟩
  · intro c hc
    rw [failure_run hargs, fault?_perform t c request hc]
  · rintro former latter only format gate crawl rfl
    exact ⟨run_diff_tree hargs, run_diff_output_eq_empty_iff hargs⟩
  · rintro input output crawl rfl hrun
    exact run_snapshot_tree hargs hrun

/-- Two saved snapshots, of which the latter lacks the module of the former. -/
def bareReleases : FileTree :=
  ((∅ : FileTree).put ["a.json"] (.file "\x7b\"m.py\":[]\x7d".toUTF8) (.file _)).put ["b.json"]
    (.file "\x7b\x7d".toUTF8) (.file _)

/-- Of two operands that are missing the first is told. With both there, the gate ends with the same
status, but with a line printed; a snapshot written over one of them leaves the other. -/
theorem run_failure_exact_releases :
    parse ["diff", "x.json", "y.json", "--fail-on-removed"] =
      .ok (.diff "x.json" "y.json" none .text true {}) ∧
    (run bareReleases ["diff", "x.json", "y.json", "--fail-on-removed"]).failure =
      some (Failure.ofError (.io "x.json" .notFound)).text ∧
    (run bareReleases ["diff", "x.json", "y.json", "--fail-on-removed"]).output = "" ∧
    parse ["diff", "a.json", "b.json", "--fail-on-removed"] =
      .ok (.diff "a.json" "b.json" none .text true {}) ∧
    (run bareReleases ["diff", "a.json", "b.json", "--fail-on-removed"]).output ≠ "" ∧
    parse ["snapshot", ".", "-o", "a.json"] = .ok (.snapshot "." (some "a.json") {}) ∧
    ((run bareReleases ["snapshot", ".", "-o", "a.json"]).tree.find? ["b.json"]).map Entry.bare =
      (bareReleases.find? ["b.json"]).map Entry.bare := by
  have hload : ∀ c, ({} : CrawlOptions).load bareReleases = .ok c → c = {} := by
    have hdefault : ({} : CrawlOptions).load bareReleases = .ok {} := by decide +kernel
    intro c hc
    rw [hdefault] at hc
    exact (Except.ok.inj hc).symm
  have hmissing : parse ["diff", "x.json", "y.json", "--fail-on-removed"] =
      .ok (.diff "x.json" "y.json" none .text true {}) := by decide +kernel
  have hpresent : parse ["diff", "a.json", "b.json", "--fail-on-removed"] =
      .ok (.diff "a.json" "b.json" none .text true {}) := by decide +kernel
  have hsave : parse ["snapshot", ".", "-o", "a.json"] =
      .ok (.snapshot "." (some "a.json") {}) := by decide +kernel
  obtain ⟨hempty, hfirst, -, -⟩ := run_failure_exact bareReleases _ _ hmissing
  obtain ⟨-, -, hdiff, -⟩ := run_failure_exact bareReleases _ _ hpresent
  obtain ⟨-, -, -, hsnapshot⟩ := run_failure_exact bareReleases _ _ hsave
  have hfailure : (run bareReleases ["diff", "x.json", "y.json", "--fail-on-removed"]).failure =
      some (Failure.ofError (.io "x.json" .notFound)).text :=
    (hfirst {} hload).trans (by decide +kernel)
  have hgate := (hdiff _ _ _ _ _ _ rfl).2 (by decide +kernel)
  obtain ⟨-, hwritten⟩ := hsnapshot _ _ _ rfl (by decide +kernel)
  obtain ⟨place, hplace, hbeyond⟩ := hwritten "a.json" rfl
  have htarget : bareReleases.target true "a.json" =
      .ok (.present ["a.json"] (.file "\x7b\"m.py\":[]\x7d".toUTF8)) := rfl
  refine ⟨hmissing, hfailure, (hempty (by rw [hfailure]; simp)).2.1, hpresent, ?_, hsave,
    hbeyond ["b.json"] ?_⟩
  · rw [Ne, hgate]
    decide +kernel
  · rintro rfl
    rw [FileTree.LeadsToFile, htarget] at hplace
    simp at hplace

end Command

end ApiSurface
