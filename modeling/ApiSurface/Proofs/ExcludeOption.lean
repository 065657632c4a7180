import Mathlib.Data.List.DropRight
import ApiSurface.Proofs.ArgumentReading
import ApiSurface.Proofs.SavedSnapshot
import ApiSurface.Proofs.SourceScan

/-! Texts to leave out, given on the command line. A value of the option is a list with commas, and the
option may be given often; of all that, a crawl sees a set of texts. So two ways of giving the same
set, in any order and with any padding, make every run end alike, whatever the configured list says.

The values reach the crawl in three steps. The reading of the other arguments does not look at them
(`Given.Alike.collect`), the configured list is replaced by their trimmed pieces (`load_of_pieces`),
and a scan asks for nothing but membership in that list (`Config.Alike.scan`). -/

namespace ApiSurface

/-! ### Trimmed texts -/

namespace Text

/-- A text is another with white space around it; the inner one has none at its ends. -/
def Trimmed (text part : List Char) : Prop :=
  ∃ left right, text = left ++ part ++ right ∧ (∀ c ∈ left, isSpace c = true) ∧
    (∀ c ∈ right, isSpace c = true) ∧ (∀ c ∈ part.head?, isSpace c = false) ∧
    ∀ c ∈ part.getLast?, isSpace c = false

theorem toList_trim (text : String) :
    (trim text).toList = (text.toList.dropWhile isSpace).rdropWhile isSpace := by
  rw [trim, String.toList_ofList, List.rdropWhile]

theorem trimmed_trim (text : String) : Trimmed text.toList (trim text).toList := by
  rw [toList_trim]
  refine ⟨text.toList.takeWhile isSpace, (text.toList.dropWhile isSpace).rtakeWhile isSpace,
    ?_, ?_, ?_, ?_, ?_⟩
  · rw [List.append_assoc, List.rdropWhile_append_rtakeWhile, List.takeWhile_append_dropWhile]
  · intro c hc
    exact List.mem_takeWhile_imp hc
  · intro c hc
    exact List.mem_rtakeWhile_imp hc
  · intro c hc
    -- what is taken away at the right end leaves the first character alone
    obtain ⟨right, hright⟩ := List.rdropWhile_prefix isSpace (text.toList.dropWhile isSpace)
    have hhead : c ∈ (text.toList.dropWhile isSpace).head? := by
      rw [← hright, List.head?_append, hc]
      rfl
    have hnot := List.head?_dropWhile_not isSpace text.toList
    rw [hhead] at hnot
    exact hnot
  · intro c hc
    obtain ⟨hne, rfl⟩ := List.mem_getLast?_eq_getLast hc
    exact Bool.not_eq_true _ ▸ List.rdropWhile_last_not isSpace _ hne

theorem dropWhile_spaces {left cs : List Char} (hleft : ∀ c ∈ left, isSpace c = true)
    (hcs : ∀ c ∈ cs.head?, isSpace c = false) : (left ++ cs).dropWhile isSpace = cs := by
  rw [List.dropWhile_append_of_pos hleft]
  cases cs with
  | nil => rfl
  | cons c cs => rw [List.dropWhile_cons_of_neg (by simp [hcs c rfl])]

theorem trim_eq_iff {text part : String} :
    trim text = part ↔ Trimmed text.toList part.toList := by
  constructor
  · intro h
    rw [← h]
    exact trimmed_trim text
  · rintro ⟨left, right, htext, hleft, hright, hhead, hlast⟩
    have hright' : ∀ c ∈ right.reverse, isSpace c = true := fun c hc =>
      hright c (List.mem_reverse.mp hc)
    have hlast' : ∀ c ∈ part.toList.reverse.head?, isSpace c = false := by
      rw [List.head?_reverse]
      exact hlast
    rw [← String.toList_inj, toList_trim, htext]
    by_cases hpart : part.toList = []
    · -- nothing but white space: it all goes from the left
      have hspaces : ∀ c ∈ left ++ right, isSpace c = true := by
        intro c hc
        exact (List.mem_append.mp hc).elim (hleft c) (hright c)
      rw [hpart, List.append_nil, List.dropWhile_eq_nil_iff.mpr hspaces, List.rdropWhile_nil]
    · have hhead' : ∀ c ∈ (part.toList ++ right).head?, isSpace c = false := by
        rw [List.head?_append_of_ne_nil _ hpart]
        exact hhead
      rw [List.append_assoc, dropWhile_spaces hleft hhead', List.rdropWhile, List.reverse_append,
        dropWhile_spaces hright' hlast', List.reverse_reverse]

end Text

/-! ### What a scan asks of its configuration -/

namespace Config

variable {c c' : Config}

/-- Two configurations that differ at most in how they list what is left out. -/
structure Alike (c c' : Config) : Prop where
  extension : c'.extension = c.extension
  keepRootName : c'.keepRootName = c.keepRootName
  exclude : ∀ part, part ∈ c'.exclude ↔ part ∈ c.exclude

theorem Alike.leavesOut (h : c.Alike c') : c'.leavesOut = c.leavesOut := by
  funext names
  apply Bool.eq_iff_iff.mpr
  rw [leavesOut_iff, leavesOut_iff]
  simp only [h.exclude]

theorem Alike.accepts (h : c.Alike c') : c'.accepts = c.accepts := by
  funext name
  rw [Config.accepts, Config.accepts, h.extension]

theorem Alike.sourceFile (h : c.Alike c') (root : String) :
    c'.sourceFile root = c.sourceFile root := by
  funext names
  rw [Config.sourceFile, Config.sourceFile, key, key, h.keepRootName]

/-- The sources are the same, with the same keys and in the same order. -/
theorem Alike.scan (h : c.Alike c') (t : FileTree) (root : String) :
    c'.scan t root = c.scan t root := by
  have hin : c'.sourcesIn root = c.sourcesIn root := by
    funext es
    rw [sourcesIn, sourcesIn, h.leavesOut, h.accepts, h.sourceFile]
  have hat : c'.sourceAt root = c.sourceAt root := by
    rw [sourceAt, sourceAt, h.accepts, h.sourceFile]
  rw [Config.scan, Config.scan, hin, hat]

theorem Alike.crawl (h : c.Alike c') (t : FileTree) (root : String) :
    Snapshot.crawl c' t root = Snapshot.crawl c t root := by
  rw [Snapshot.crawl, Snapshot.crawl, h.scan]

theorem Alike.operand (h : c.Alike c') (t : FileTree) (path : String) :
    Command.operand c' t path = Command.operand c t path := by
  rw [Command.operand, Command.operand, h.crawl]

/-- An empty text is in every path. -/
theorem leavesOut_of_empty (h : "" ∈ c.exclude) (names : List String) : c.leavesOut names = true :=
  leavesOut_iff.mpr ⟨"", h, List.nil_infix⟩

end Config

namespace Command

/-! ### Fragments -/

/-- The texts that values of the option stand for: what is between commas, without the white space
around it, if something is left. -/
def Fragment (values : List String) (part : String) : Prop :=
  part ≠ "" ∧ ∃ value ∈ values, ∃ piece ∈ value.toList.splitOn ',', Text.Trimmed piece part.toList

/-- The configuration leaves out what the values say, and nothing else. -/
structure LeavesOutOnly (c : Config) (values : List String) : Prop where
  leavesOut : ∀ names, c.leavesOut names = true ↔
    ∃ part, Fragment values part ∧ part.toList <:+: (slashed names).toList
  nothing : (∀ part, ¬ Fragment values part) → ∀ names, c.leavesOut names = false
  nonempty : "" ∉ c.exclude

/-- The pieces of values, as they were written. -/
def pieces (values : List String) : List String :=
  values.flatMap fun value => (value.toList.splitOn ',').map String.ofList

theorem mem_fragments_iff {values : List String} {part : String} :
    part ∈ CrawlOptions.fragments (pieces values) ↔ Fragment values part := by
  rw [CrawlOptions.fragments, List.mem_filter, bne_iff_ne, and_comm]
  apply and_congr_right
  intro _
  simp only [pieces, List.mem_map, List.mem_flatMap]
  constructor
  · rintro ⟨_, ⟨value, hvalue, piece, hpiece, rfl⟩, htrim⟩
    refine ⟨value, hvalue, piece, hpiece, ?_⟩
    rw [Text.trim_eq_iff, String.toList_ofList] at htrim
    exact htrim
  · rintro ⟨value, hvalue, piece, hpiece, htrimmed⟩
    refine ⟨String.ofList piece, ⟨value, hvalue, piece, hpiece, rfl⟩, ?_⟩
    rw [Text.trim_eq_iff, String.toList_ofList]
    exact htrimmed

theorem leavesOutOnly_of_exclude {c : Config} {values : List String}
    (h : c.exclude = CrawlOptions.fragments (pieces values)) : LeavesOutOnly c values where
  leavesOut names := by
    rw [Config.leavesOut_iff, h]
    simp only [mem_fragments_iff]
  nothing hnone names := by
    apply Bool.eq_false_iff.mpr
    intro hleaves
    rw [Config.leavesOut_iff, h] at hleaves
    obtain ⟨part, hpart, _⟩ := hleaves
    exact hnone part (mem_fragments_iff.mp hpart)
  nonempty hempty := by
    rw [h, mem_fragments_iff] at hempty
    exact hempty.1 rfl

/-- The option replaces what is configured, and changes nothing else. -/
theorem load_of_pieces (o : CrawlOptions) (texts : List String) (t : FileTree) :
    ({ o with exclude := some texts } : CrawlOptions).load t =
      (fun c : Config => { c with exclude := CrawlOptions.fragments texts }) <$>
        ({ o with exclude := none } : CrawlOptions).load t := by
  cases o.config with
  | none => simp only [CrawlOptions.load, CrawlOptions.override, pure_bind, map_pure]
  | some path => simp only [CrawlOptions.load, CrawlOptions.override, map_bind, map_pure]

/-! ### What the other arguments see of the option -/

/-- Two readings that are refused for one reason, or have related results. -/
inductive Agree {α : Type} (R : α → α → Prop) : Except Refusal α → Except Refusal α → Prop
  | refused (r : Refusal) : Agree R (.error r) (.error r)
  | read {a a' : α} (h : R a a') : Agree R (.ok a) (.ok a')

theorem Agree.bind {α β : Type} {R : α → α → Prop} {S : β → β → Prop} {x x' : Except Refusal α}
    {f f' : α → Except Refusal β} (h : Agree R x x') (hf : ∀ a a', R a a' → Agree S (f a) (f' a')) :
    Agree S (x >>= f) (x' >>= f') := by
  cases h with
  | refused r => exact .refused r
  | read h => exact hf _ _ h

theorem Agree.refl {α : Type} (x : Except Refusal α) : Agree Eq x x := by
  cases x with
  | error r => exact .refused r
  | ok a => exact .read rfl

theorem fragment_append {values more : List String} {part : String} :
    Fragment (values ++ more) part ↔ Fragment values part ∨ Fragment more part := by
  simp only [Fragment, List.mem_append, or_and_right, exists_or, and_or_left]

namespace Given

variable {g g' : Given} {s : Setting}

/-- All settings but the option. -/
def others (g : Given) : List (Setting × String) :=
  g.settings.filter fun e => e.1 ≠ .exclude

/-- What was read differs at most in how the option was given; given it was. -/
structure Alike (g g' : Given) : Prop where
  operands : g'.operands = g.operands
  others : g'.others = g.others
  given : g.values .exclude ≠ []
  given' : g'.values .exclude ≠ []
  fragment : ∀ part, Fragment (g'.values .exclude) part ↔ Fragment (g.values .exclude) part

theorem has_eq_any_others (hs : s ≠ .exclude) :
    g.has s = g.others.any fun e => e.1 = s := by
  rw [has, others, List.any_filter]
  congr 1
  funext e
  by_cases he : e.1 = s
  · simp [he, hs]
  · simp [he]

theorem value?_eq_find?_others (hs : s ≠ .exclude) :
    g.value? s = (g.others.find? fun e => e.1 = s).map Prod.snd := by
  rw [value?, others, List.find?_filter]
  congr 2
  funext e
  by_cases he : e.1 = s
  · simp [he, hs]
  · simp [he]

theorem Alike.has (h : g.Alike g') (hs : s ≠ .exclude) : g'.has s = g.has s := by
  rw [has_eq_any_others hs, has_eq_any_others hs, h.others]

theorem Alike.value? (h : g.Alike g') (hs : s ≠ .exclude) : g'.value? s = g.value? s := by
  rw [value?_eq_find?_others hs, value?_eq_find?_others hs, h.others]

theorem Alike.append (h : g.Alike g') (more : List (Setting × String)) :
    Alike { g with settings := g.settings ++ more } { g' with settings := g'.settings ++ more } where
  operands := h.operands
  others := by
    rw [Given.others, Given.others, List.filter_append, List.filter_append]
    exact congrArg (· ++ _) h.others
  given := by
    rw [values_append]
    exact List.append_ne_nil_of_left_ne_nil h.given _
  given' := by
    rw [values_append]
    exact List.append_ne_nil_of_left_ne_nil h.given' _
  fragment part := by
    rw [values_append, values_append, fragment_append, fragment_append, h.fragment]

theorem Alike.addSetting (h : g.Alike g') (s : Setting) (value : String) :
    Agree Alike (g.addSetting s value) (g'.addSetting s value) := by
  have hgiven : (s != .exclude && g'.has s) = (s != .exclude && g.has s) := by
    by_cases hs : s = .exclude
    · rw [hs]
      rfl
    · rw [h.has hs]
  rw [Given.addSetting, Given.addSetting, hgiven]
  split
  · exact .refused .usage
  · exact .read (h.append [(s, value)])

theorem Alike.addOperand (h : g.Alike g') (limit : Nat) (operand : String) :
    Agree Alike (g.addOperand limit operand) (g'.addOperand limit operand) := by
  rw [Given.addOperand, Given.addOperand, h.operands]
  split
  · exact .refused .usage
  · exact .read { h with operands := rfl }

theorem Alike.foldlM_addOperand (h : g.Alike g') (limit : Nat) (args : List String) :
    Agree Alike (args.foldlM (Given.addOperand limit) g)
      (args.foldlM (Given.addOperand limit) g') := by
  induction args generalizing g g' with
  | nil => exact .read h
  | cons arg args ih =>
      rw [List.foldlM_cons, List.foldlM_cons]
      exact (h.addOperand limit arg).bind fun _ _ h => ih h

end Given

open Given

/-- What one argument leaves: readings that agree, and the same option that waits. -/
def Waiting (r r' : Given × Option Setting) : Prop :=
  r.1.Alike r'.1 ∧ r'.2 = r.2

variable {allowed : List Setting} {limit : Nat} {g g' : Given}

theorem Given.Alike.setting (h : g.Alike g') (s : Setting) (value : String) :
    Agree Waiting (do return (← g.addSetting s value, none))
      (do return (← g'.addSetting s value, none)) :=
  (h.addSetting s value).bind fun _ _ h => .read ⟨h, rfl⟩

theorem Given.Alike.cluster (h : g.Alike g') (cs : List Char) :
    Agree Waiting (Command.cluster allowed cs g) (Command.cluster allowed cs g') := by
  induction cs generalizing g g' with
  | nil => exact .read ⟨h, rfl⟩
  | cons c cs ih =>
      rw [Command.cluster, Command.cluster]
      split_ifs
      · exact .refused .help
      · split
        · exact .refused .usage
        · rename_i s _
          split_ifs
          · split
            · exact .read ⟨h, rfl⟩
            · exact h.setting s _
            · exact h.setting s _
          · exact (h.addSetting s "").bind fun _ _ h => ih h

theorem Given.Alike.word (h : g.Alike g') (arg : String) :
    Agree Waiting (Command.word allowed limit arg g) (Command.word allowed limit arg g') := by
  rw [Command.word, Command.word]
  split
  · split
    · exact .refused .help
    · split
      · exact .refused .usage
      · split_ifs
        · exact h.setting _ _
        · exact .refused .usage
      · split_ifs
        · exact .read ⟨h, rfl⟩
        · exact h.setting _ _
  · exact h.cluster _
  · exact (h.addOperand limit arg).bind fun _ _ h => .read ⟨h, rfl⟩

/-- **The other arguments are read alike, however the option was given before.** -/
theorem Given.Alike.collect (h : g.Alike g') (args : List String) :
    Agree Alike (Command.collect allowed limit args g) (Command.collect allowed limit args g') := by
  induction hlength : args.length using Nat.strongRecOn generalizing args g g' with
  | _ length ih =>
  cases args with
  | nil => exact .read h
  | cons arg args =>
      rw [List.length_cons] at hlength
      by_cases harg : arg = "--"
      · rw [harg, collect_hyphens, collect_hyphens]
        exact h.foldlM_addOperand limit args
      · rw [collect_cons harg, collect_cons harg]
        refine (h.word arg).bind ?_
        rintro ⟨g, s⟩ ⟨g', s'⟩ ⟨h, hs⟩
        obtain rfl : s' = s := hs
        cases s' with
        | none => exact ih args.length (by omega) h args rfl
        | some s =>
            cases args with
            | nil => exact .refused .usage
            | cons value args =>
                rw [List.length_cons] at hlength
                simp only [resume]
                split_ifs
                · exact .refused .usage
                · refine (h.addSetting s value).bind fun g g' h => ?_
                  exact ih args.length (by omega) h args rfl

theorem Given.alike_adding {values values' : List String} (hvalues : values ≠ [])
    (hvalues' : values' ≠ []) (h : ∀ part, Fragment values part ↔ Fragment values' part)
    (g : Given) : (g.adding values).Alike (g.adding values') where
  operands := rfl
  others := by
    have hnone (values : List String) :
        (values.map (Setting.exclude, ·)).filter (fun e => e.1 ≠ .exclude) = [] := by
      simp [List.filter_eq_nil_iff]
    rw [others, others, adding, adding, List.filter_append, List.filter_append, hnone, hnone]
  given := by
    rw [values_adding]
    exact List.append_ne_nil_of_right_ne_nil _ hvalues
  given' := by
    rw [values_adding]
    exact List.append_ne_nil_of_right_ne_nil _ hvalues'
  fragment part := by
    rw [values_adding, values_adding, fragment_append, fragment_append, h part]

/-! ### Runs -/

theorem Given.exclude_crawl (h : g.values .exclude ≠ []) :
    g.crawl.exclude = some (pieces (g.values .exclude)) := by
  have hhas : g.has .exclude = true := by
    obtain ⟨value, hvalue⟩ := List.exists_mem_of_ne_nil _ h
    obtain ⟨e, he, -⟩ := List.mem_map.mp hvalue
    exact List.any_eq_true.mpr ⟨e, List.mem_filter.mp he⟩
  rw [crawl, if_pos hhas, pieces]

/-- The configuration of a run before the option is heeded: that of the file, or the usual one. -/
def Configured (g : Given) (t : FileTree) (base : Config) : Prop :=
  ({ g.crawl with exclude := none } : CrawlOptions).load t = .ok base

theorem load_crawl (h : g.values .exclude ≠ []) (t : FileTree) :
    g.crawl.load t =
      (fun c : Config => { c with exclude := CrawlOptions.fragments (pieces (g.values .exclude)) }) <$>
        ({ g.crawl with exclude := none } : CrawlOptions).load t := by
  rw [← load_of_pieces, ← exclude_crawl h]

theorem Configured.load {t : FileTree} {base : Config} (h : Configured g t base)
    (hvalues : g.values .exclude ≠ []) :
    g.crawl.load t =
      .ok { base with exclude := CrawlOptions.fragments (pieces (g.values .exclude)) } := by
  rw [load_crawl hvalues, h]
  rfl

theorem Given.Alike.crawl (h : g.Alike g') :
    ({ g'.crawl with exclude := none } : CrawlOptions) = { g.crawl with exclude := none } := by
  simp only [Given.crawl, h.value? (s := .config) (by decide),
    h.has (s := .keepRootName) (by decide)]

theorem stage_map {α β : Type} (f : α → β) (result : Except Error α) :
    stage (f <$> result) = f <$> stage result := by
  cases result <;> rfl

theorem Given.Alike.config (h : g.Alike g') (c : Config) :
    Config.Alike { c with exclude := CrawlOptions.fragments (pieces (g.values .exclude)) }
      { c with exclude := CrawlOptions.fragments (pieces (g'.values .exclude)) } where
  extension := rfl
  keepRootName := rfl
  exclude part := by
    rw [mem_fragments_iff, mem_fragments_iff]
    exact h.fragment part

theorem Given.Alike.perform_snapshot (h : g.Alike g') (t : FileTree) (input : String)
    (output : Option String) :
    perform t (.snapshot input output g'.crawl) = perform t (.snapshot input output g.crawl) := by
  simp only [perform, load_crawl h.given, load_crawl h.given', h.crawl, stage_map, bind_map_left]
  apply bind_congr
  intro c
  rw [(h.config c).crawl]

theorem Given.Alike.perform_diff (h : g.Alike g') (t : FileTree) (former latter : String)
    (only : Option Direction) (format : Format) (gate : Bool) :
    perform t (.diff former latter only format gate g'.crawl) =
      perform t (.diff former latter only format gate g.crawl) := by
  simp only [perform, load_crawl h.given, load_crawl h.given', h.crawl, stage_map, bind_map_left]
  apply bind_congr
  intro c
  rw [(h.config c).operand, (h.config c).operand]

/-- Two requests of which no tree of files can tell which it was. -/
def Same (request request' : Request) : Prop :=
  ∀ t, perform t request' = perform t request

theorem run_eq_of_agree {args args' : List String} (h : Agree Same (parse args) (parse args'))
    (t : FileTree) : run t args' = run t args := by
  rw [run, run]
  generalize parse args = request at h
  generalize parse args' = request' at h
  cases h with
  | refused r => rfl
  | read h => simp only [h t]

theorem agree_snapshotRequest {args args' : List String}
    (h : ∀ allowed, Offers allowed →
      Agree Alike (collect allowed 1 args {}) (collect allowed 1 args' {})) :
    Agree Same (snapshotRequest args) (snapshotRequest args') := by
  rw [snapshotRequest, snapshotRequest]
  refine (h _ ⟨by decide, by decide⟩).bind ?_
  intro g g' h
  rw [h.operands, h.value? (by decide)]
  split
  · exact .read fun t => h.perform_snapshot t _ _
  · exact .refused .usage

theorem agree_diffRequest {args args' : List String}
    (h : ∀ allowed, Offers allowed →
      Agree Alike (collect allowed 2 args {}) (collect allowed 2 args' {})) :
    Agree Same (diffRequest args) (diffRequest args') := by
  rw [diffRequest, diffRequest]
  refine (h _ ⟨by decide, by decide⟩).bind ?_
  intro g g' h
  rw [h.operands, h.value? (by decide), h.value? (by decide), h.has (by decide)]
  split
  · exact .read fun t => h.perform_diff t _ _ _ _ _
  · exact .refused .usage

/-- **What the option leaves out is a set of texts.** Two ways of giving it that stand for the same
set cannot be told apart by any run, whatever the other arguments are. Where a configuration loads,
the crawl selects the same files with the same keys in the same order in both ways, even if two
different lists were configured; it leaves out what the set says and nothing else, and no empty text
reaches it, which would leave out everything. -/
theorem run_exclude_exact (former latter : List Occurrence) (hformer : former ≠ [])
    (hlatter : latter ≠ [])
    (hsame : ∀ part, Fragment (Occurrence.values former) part ↔
      Fragment (Occurrence.values latter) part) :
    (∀ (t : FileTree) (command : String) (front rest : List String),
      command = "snapshot" ∨ command = "diff" → "--" ∉ front →
        run t (command :: (front ++ (Occurrence.line former ++ rest))) =
          run t (command :: (front ++ (Occurrence.line latter ++ rest)))) ∧
    (∀ (g g' : Given) (t t' : FileTree) (base base' : Config),
      g.values .exclude = Occurrence.values former →
      g'.values .exclude = Occurrence.values latter →
      Configured g t base → Configured g' t' base' →
      base'.extension = base.extension → base'.keepRootName = base.keepRootName →
        ∃ c c', g.crawl.load t = .ok c ∧ g'.crawl.load t' = .ok c' ∧
          (∀ (crawled : FileTree) (root : String), c'.scan crawled root = c.scan crawled root) ∧
          LeavesOutOnly c (Occurrence.values former) ∧
          LeavesOutOnly c' (Occurrence.values latter) ∧
          c.extension = base.extension ∧ c.keepRootName = base.keepRootName) ∧
    ∀ (c : Config) (names : List String), "" ∈ c.exclude → c.leavesOut names = true := by
  have hvalues := Occurrence.values_ne_nil hformer
  have hvalues' := Occurrence.values_ne_nil hlatter
  refine ⟨?_, ?_, fun c names hempty => Config.leavesOut_of_empty hempty names⟩
  · intro t command front rest hcommand hfront
    have hcollect : ∀ limit allowed, Offers allowed →
        Agree Alike (collect allowed limit (front ++ (Occurrence.line latter ++ rest)) {})
          (collect allowed limit (front ++ (Occurrence.line former ++ rest)) {}) := by
      intro limit allowed h
      rw [collect_between h hfront hformer, collect_between h hfront hlatter]
      refine (Agree.refl _).bind ?_
      rintro g _ rfl
      exact (alike_adding hvalues' hvalues (fun part => (hsame part).symm) g).collect rest
    apply run_eq_of_agree
    rcases hcommand with rfl | rfl
    · exact agree_snapshotRequest (hcollect 1)
    · exact agree_diffRequest (hcollect 2)
  · intro g g' t t' base base' hg hg' hbase hbase' hextension hname
    rw [← hg] at hvalues hsame ⊢
    rw [← hg'] at hvalues' hsame ⊢
    refine ⟨_, _, hbase.load hvalues, hbase'.load hvalues', Config.Alike.scan ?_,
      leavesOutOnly_of_exclude rfl, leavesOutOnly_of_exclude rfl, rfl, rfl⟩
    refine ⟨hextension, hname, fun part => ?_⟩
    rw [mem_fragments_iff, mem_fragments_iff, hsame]

/-- The option given twice, with white space and with pieces that are empty. -/
def padded : List Occurrence :=
  [⟨" docs ,,tests", .shortNext, rfl⟩, ⟨",", .longEquals, trivial⟩]

/-- The option given once, with a text that is there twice. -/
def plain : List Occurrence :=
  [⟨"tests,docs,tests", .shortJoined, 't', "ests,docs,tests".toList, by simp, by decide⟩]

/-- A file that configures another list. -/
def configTree : FileTree where
  entries := [("c.toml", .file "exclude = [\"lib\"]".toUTF8)]
  sound := .directory _ (List.pairwise_singleton _ _) (by decide +kernel) (by simp [Entry.Sound.file])

/-- The padded texts beside a configured list, and the plain ones beside the usual list. -/
theorem run_exclude_padded :
    (∀ part, Fragment (Occurrence.values padded) part ↔ Fragment (Occurrence.values plain) part) ∧
    run configTree ["snapshot", "lib", "-e", " docs ,,tests", "--exclude=,", "-v"] =
      run configTree ["snapshot", "lib", "-etests,docs,tests", "-v"] ∧
    ∃ (g g' : Given) (c c' : Config), g.values .exclude = [" docs ,,tests", ","] ∧
      g'.values .exclude = ["tests,docs,tests"] ∧
      Configured g configTree { exclude := ["lib"] } ∧ Configured g' configTree {} ∧
      g.crawl.load configTree = .ok c ∧ g'.crawl.load configTree = .ok c' ∧
      (∀ (crawled : FileTree) (root : String), c'.scan crawled root = c.scan crawled root) ∧
      c.leavesOut ["lib", "docs"] = true ∧ c.leavesOut ["lib"] = false := by
  have hpadded : CrawlOptions.fragments (pieces (Occurrence.values padded)) = ["docs", "tests"] := by
    decide +kernel
  have hplain : CrawlOptions.fragments (pieces (Occurrence.values plain)) =
      ["tests", "docs", "tests"] := by
    decide +kernel
  have hsame : ∀ part,
      Fragment (Occurrence.values padded) part ↔ Fragment (Occurrence.values plain) part := by
    intro part
    rw [← mem_fragments_iff, ← mem_fragments_iff, hpadded, hplain]
    simp only [List.mem_cons, List.not_mem_nil]
    tauto
  have hexact := run_exclude_exact padded plain (List.cons_ne_nil _ _) (List.cons_ne_nil _ _) hsame
  have hbase : Configured
      { settings := [(.config, "c.toml"), (.exclude, " docs ,,tests"), (.exclude, ",")] } configTree
      { exclude := ["lib"] } := by
    rw [Configured]
    decide +kernel
  have hbase' : Configured { settings := [(.exclude, "tests,docs,tests")] } configTree {} := rfl
  obtain ⟨c, c', hload, hload', hscan, -⟩ := hexact.2.1 _ _ _ _ _ _ rfl rfl hbase hbase' rfl rfl
  have hc : c = { exclude := ["docs", "tests"] } :=
    Except.ok.inj (hload.symm.trans (by decide +kernel))
  refine ⟨hsame, hexact.1 configTree "snapshot" ["lib"] ["-v"] (Or.inl rfl) (by decide), _, _, c, c',
    rfl, rfl, hbase, hbase', hload, hload', hscan, ?_, ?_⟩
  · rw [hc]
    decide +kernel
  · rw [hc]
    decide +kernel

end Command

end ApiSurface
