import ApiSurface.Proofs.EqualSubtrees

/-! Crawling through a link. A root that is a link to a directory is admitted as that directory and is
walked like it, but the walk also meets the link itself, as an entry that is no directory. The name of
the link then decides: one that no source can have is passed over, and the crawl gives what the
directory gives; any other makes the link a source of its own, which cannot be read. -/

namespace ApiSurface

/-! ### The name of a link -/

namespace FileTree

variable {t : FileTree} {path : String} {place above : List String} {name target : String}

/-- A path that is not followed through a link at its end has the name of that link as its last part. -/
theorem getLast?_of_follow_link {n : Nat} {here parts : List String}
    (hhere : ∃ es, t.find? here = some (.directory es))
    (h : t.follow false n here parts = .ok (.present place (.link target))) :
    ∃ above name, place = above ++ [name] ∧ IsStep name ∧ parts.getLast? = some name := by
  induction n, here, parts using follow_induction t with
  | nil n here =>
      obtain ⟨es, hes⟩ := hhere
      obtain ⟨-, hfind⟩ := present_of_follow_nil h
      rw [hes] at hfind
      cases hfind
  | stay n here part parts hpart ih =>
      rw [follow_stay hpart] at h
      obtain ⟨above, name, hplace, hname, hlast⟩ := ih hhere h
      exact ⟨above, name, hplace, hname, by simp [List.getLast?_cons, hlast]⟩
  | up n here parts ih =>
      rw [follow_up] at h
      obtain ⟨es, hes⟩ := hhere
      obtain ⟨above, name, hplace, hname, hlast⟩ := ih (exists_directory_dropLast hes) h
      exact ⟨above, name, hplace, hname, by simp [List.getLast?_cons, hlast]⟩
  | missing n here part parts hpart hfind =>
      rw [follow_missing hpart hfind] at h
      split_ifs at h <;> cases h
  | directory n here part parts es hpart hfind ih =>
      rw [follow_directory hpart hfind] at h
      obtain ⟨above, name, hplace, hname, hlast⟩ := ih ⟨es, hfind⟩ h
      exact ⟨above, name, hplace, hname, by simp [List.getLast?_cons, hlast]⟩
  | file n here part parts content hpart hfind =>
      rw [follow_file hpart hfind] at h
      split_ifs at h
      cases h
  | link n here part parts through hpart hfind ih =>
      rw [follow_link hpart hfind] at h
      split_ifs at h with hend
      · have hnil : parts = [] := by simpa using hend
        cases h
        exact ⟨here, part, rfl, hpart, by simp [hnil]⟩
      · -- The target of a link on the way is put in front of the parts that are left.
        cases n with
        | zero => cases h
        | succ m =>
            have hstart : ∃ es, t.find? (linkStart here through) = some (.directory es) := by
              unfold linkStart
              split
              · exact ⟨t.entries, rfl⟩
              · exact hhere
            have hparts : parts ≠ [] := by simpa using hend
            obtain ⟨above, name, hplace, hname, hlast⟩ := ih m rfl hstart h
            rw [List.getLast?_append_of_ne_nil _ hparts] at hlast
            exact ⟨above, name, hplace, hname, by simp [List.getLast?_cons, hlast]⟩

theorem fileName?_of_target_link
    (h : t.target false path = .ok (.present (above ++ [name]) (.link target))) :
    Path.fileName? path = some name := by
  rw [target_of_ne_empty t (ne_empty_of_target h)] at h
  obtain ⟨above', name', hplace, hname, hlast⟩ := getLast?_of_follow_link ⟨t.entries, rfl⟩ h
  obtain ⟨-, hsame⟩ := List.append_inj' hplace rfl
  obtain rfl : name = name' := List.singleton_inj.mp hsame
  obtain ⟨before, hbefore⟩ := List.getLast?_eq_some_iff.mp hlast
  have hfilter : ((Path.components path).filter fun part => part != "" && part != ".").getLast? =
      some name := by
    rw [hbefore, List.filter_append]
    simp [hname.ne_empty, hname.ne_here]
  unfold Path.fileName?
  rw [hfilter]
  split
  · rename_i habove
    exact absurd (Option.some.inj habove) hname.ne_above
  · rfl

theorem read_of_directory {es : List (String × Entry)} (h : t.entry true path = .ok (.directory es)) :
    t.read path = .error .isDirectory := by
  rw [read, h]
  rfl

end FileTree

/-! ### The link as a source -/

namespace Snapshot

variable {t : FileTree} {c : Config} {link dir : String} {above : List String} {name target : String}
  {es : List (String × Entry)}

theorem scan_of_link (hlink : t.entry false link = .ok (.link target))
    (hresolves : t.entry true link = .ok (.directory es)) :
    c.scan t link = c.sourceAt link ++ c.sourcesIn link es := by
  rw [Config.scan, hlink]
  simp only [hresolves]

/-- A link that is a source by its name ends the crawl at once. -/
theorem crawl_of_accepted_link
    (hlink : t.target false link = .ok (.present (above ++ [name]) (.link target)))
    (hresolves : t.entry true link = .ok (.directory es)) (hname : c.accepts name = true) :
    crawl c t link = .error (.io link .isDirectory) := by
  have hself : c.sourceAt link = [c.sourceFile link []] := by
    unfold Config.sourceAt
    rw [FileTree.fileName?_of_target_link hlink, Option.getD_some, if_pos hname]
  have hfails : (c.sourceFile link []).Fails t (.io link .isDirectory) :=
    .unread (FileTree.read_of_directory hresolves)
  rw [crawl, if_pos (FileTree.isDirectory_of_entry_true hresolves),
    scan_of_link (FileTree.entry_of_target hlink) hresolves, hself]
  exact foldlM_addFile_eq_error_iff.mpr ⟨[], _, _, rfl, by simp, hfails⟩

/-- A link that is no source by its name is crawled like the directory. -/
theorem crawl_of_refused_link (hkeep : c.keepRootName = false)
    (hdir : t.entry false dir = .ok (.directory es)) (hlinks : (Entry.directory es).LinkFree)
    (hlink : t.target false link = .ok (.present (above ++ [name]) (.link target)))
    (hresolves : t.entry true link = .ok (.directory es)) (hname : c.accepts name = false)
    (s : Snapshot) : crawl c t link = .ok s ↔ crawl c t dir = .ok s := by
  have hself : c.sourceAt link = [] := by
    unfold Config.sourceAt
    rw [FileTree.fileName?_of_target_link hlink, Option.getD_some, hname,
      if_neg Bool.false_ne_true]
  rw [crawl, if_pos (FileTree.isDirectory_of_entry_true hresolves),
    scan_of_link (FileTree.entry_of_target hlink) hresolves, hself, List.nil_append,
    crawl_of_directory hdir, Config.scan, hdir]
  exact foldlM_addFile_eq_ok_iff_of_alike
    (forall₂_alike hresolves (FileTree.entry_true_of_directory hdir) hlinks hkeep) {} s

/-- **When a link to a directory crawls like the directory.** The link gives the snapshots that the
directory gives exactly if its own name is not that of a source, with the configured ending and no
underscore in front. With such a name the crawl always fails, as it reads the link as a source. -/
theorem crawl_link_exact (c : Config) (t : FileTree) (link dir : String) (place above : List String)
    (name target : String) (entries : List (String × Entry)) (hkeep : c.keepRootName = false)
    (hdir : t.target false dir = .ok (.present place (.directory entries)))
    (hlinks : (Entry.directory entries).LinkFree)
    (hlink : t.target false link = .ok (.present (above ++ [name]) (.link target)))
    (hresolves : t.target true link = .ok (.present place (.directory entries))) :
    (∀ s, crawl c t link = .ok s ↔ crawl c t dir = .ok s ∧
      ¬('.' :: c.extension.toList <:+ name.toList ∧ name.toList.head? ≠ some '_')) ∧
    ('.' :: c.extension.toList <:+ name.toList ∧ name.toList.head? ≠ some '_' →
      crawl c t link = .error (.io link .isDirectory)) := by
  have hentry : t.entry true link = .ok (.directory entries) :=
    FileTree.entry_of_target hresolves
  rw [← Config.accepts_iff]
  cases hname : c.accepts name with
  | true =>
      have hfails := crawl_of_accepted_link hlink hentry hname
      simp [hfails]
  | false =>
      have hsame := crawl_of_refused_link hkeep (FileTree.entry_of_target hdir) hlinks
        hlink hentry hname
      simp [hsame]

/-- The entries of a directory that links lead to. -/
def linkedEntries : List (String × Entry) :=
  [("a.py", .file "def f():\n    pass\n".toUTF8)]

theorem linkFree_linkedEntries : (Entry.directory linkedEntries).LinkFree :=
  .directory _ (by simp [linkedEntries, Entry.LinkFree.file])

/-- A directory and two links to it, one of them with the name of a source. -/
def linkingEntries : List (String × Entry) :=
  [("d", .directory linkedEntries), ("l", .link "d"), ("l.py", .link "d")]

theorem sound_linkingEntries : (Entry.directory linkingEntries).Sound := by
  have hdir : Entry.Sound (.directory linkedEntries) :=
    .directory _ (List.pairwise_singleton _ _) (by decide +kernel)
      (by simp [linkedEntries, Entry.Sound.file])
  exact .directory _ (by decide +kernel) (by decide +kernel)
    (by simp [linkingEntries, hdir, Entry.Sound.link])

def linkTree : FileTree where
  entries := linkingEntries
  sound := sound_linkingEntries

/-- A link whose name no source can have gives the snapshot of the directory. -/
theorem crawl_link_plainName :
    linkTree.target false "l" = .ok (.present ["l"] (.link "d")) ∧
    linkTree.target true "l" = .ok (.present ["d"] (.directory linkedEntries)) ∧
    crawl {} linkTree "l" = .ok ⟨.ofList [("a.py", { functions := .ofList ["f"] })]⟩ := by
  have hdir : crawl {} linkTree "d" = .ok ⟨.ofList [("a.py", { functions := .ofList ["f"] })]⟩ := by
    decide +kernel
  have hexact := crawl_link_exact {} linkTree "l" "d" ["d"] [] "l" "d" linkedEntries rfl rfl
    linkFree_linkedEntries rfl rfl
  exact ⟨rfl, rfl, (hexact.1 _).mpr ⟨hdir, by decide⟩⟩

/-- A link with the name of a source does not give the snapshot of the directory. -/
theorem crawl_link_sourceName :
    linkTree.target false "d" = .ok (.present ["d"] (.directory linkedEntries)) ∧
    (Entry.directory linkedEntries).LinkFree ∧
    linkTree.target false "l.py" = .ok (.present ["l.py"] (.link "d")) ∧
    linkTree.target true "l.py" = .ok (.present ["d"] (.directory linkedEntries)) ∧
    ¬∀ s, crawl {} linkTree "l.py" = .ok s ↔ crawl {} linkTree "d" = .ok s := by
  refine ⟨rfl, linkFree_linkedEntries, rfl, rfl, fun hsame => ?_⟩
  have hdir : crawl {} linkTree "d" = .ok ⟨.ofList [("a.py", { functions := .ofList ["f"] })]⟩ := by
    decide +kernel
  have hlink : crawl {} linkTree "l.py" = .error (.io "l.py" .isDirectory) := by decide +kernel
  rw [(hsame _).mpr hdir] at hlink
  cases hlink

end Snapshot

end ApiSurface
