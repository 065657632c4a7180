import ApiSurface.Proofs.SourceScan

/-! Keys as what is left of paths. The scan knows the names on the way from the root to a source, and
puts the key together from them. The same key is found in the text of the path alone: its parts, less
those of the root or of the directory above the root. For this the root may be written in any way, with
slashes or points that do not count, as whatever is passed over in the root is passed over in the path
too. -/

namespace ApiSurface

namespace Path

/-- The part counts wherever it stands. -/
def counts (part : String) : Bool :=
  part != "" && part != "."

/-- What a path begins with besides its names: a slash, or a point that stands for where it is taken
from. -/
def lead (path : String) : List String :=
  if path.toList.head? = some '/' then ["/"]
  else if (components path).head? = some "." then ["."]
  else []

/-- The parts of a path by which it is compared with others. A point counts only as the first part, and
further slashes do not count. -/
def parts (path : String) : List String :=
  lead path ++ (components path).filter counts

/-- What is left of the parts of a path below a base; if they do not begin with the base, all of them
are. -/
def relativeTo (base path : List String) : List String :=
  if base.isPrefixOf path then path.drop base.length else path

theorem relativeTo_append (base names : List String) : relativeTo base (base ++ names) = names := by
  rw [relativeTo, if_pos (List.isPrefixOf_iff_prefix.mpr (List.prefix_append base names)),
    List.drop_left]

theorem counts_of_isFileName {name : String} (h : isFileName name = true) : counts name = true := by
  have hstep := FileTree.isStep_of_isFileName h
  simp [counts, hstep.ne_empty, hstep.ne_here]

theorem components_ne_nil (path : String) : components path ≠ [] := by
  simp [components, List.splitOn_ne_nil]

theorem lead_of_isFileName {name : String} (h : isFileName name = true) : lead name = [] := by
  have hslash := FileTree.not_mem_slash_of_isFileName h
  have hhead : name.toList.head? ≠ some '/' := fun heq => hslash (List.mem_of_mem_head? heq)
  rw [lead, if_neg hhead, components_of_not_mem hslash, if_neg]
  intro heq
  exact (FileTree.isStep_of_isFileName h).ne_here (Option.some.inj heq)

/-- A slash and a name behind a path change nothing in front of it. -/
theorem lead_append_slash (path : String) {name : String} (h : '/' ∉ name.toList) :
    lead (path ++ "/" ++ name) = if path = "" then ["/"] else lead path := by
  by_cases hpath : path = ""
  · simp [hpath, lead]
  · obtain ⟨c, cs, hcs⟩ := List.exists_cons_of_ne_nil (mt String.toList_eq_nil_iff.mp hpath)
    obtain ⟨first, rest, hfirst⟩ := List.exists_cons_of_ne_nil (components_ne_nil path)
    unfold lead
    rw [components_append_slash path h, hfirst]
    simp [hcs, hpath]

theorem filter_components_append_slash (path : String) {name : String} (h : isFileName name = true) :
    (components (path ++ "/" ++ name)).filter counts = (components path).filter counts ++ [name] := by
  rw [components_append_slash path (FileTree.not_mem_slash_of_isFileName h), List.filter_append]
  simp [counts_of_isFileName h]

/-- A name below a path is one more part. -/
theorem parts_child (path : String) {name : String} (h : isFileName name = true) :
    parts (child path name) = parts path ++ [name] := by
  have hslash := FileTree.not_mem_slash_of_isFileName h
  unfold child parts
  split
  · rename_i hlast
    obtain rfl : path = "" := by simpa using hlast
    have hempty : lead "" ++ (components "").filter counts = [] := by decide
    rw [String.empty_append, hempty, lead_of_isFileName h, components_of_not_mem hslash]
    simp [counts_of_isFileName h]
  · -- The slash is there already, and the empty part behind it does not count.
    rename_i hlast
    obtain ⟨cs, hcs⟩ := List.getLast?_eq_some_iff.mp hlast
    obtain rfl : path = String.ofList cs ++ "/" ++ "" := by
      apply String.toList_inj.mp
      simp [hcs]
    have hname : String.ofList cs ++ "/" ++ "" ++ name = String.ofList cs ++ "/" ++ name := by
      rw [String.append_empty]
    have hnone : '/' ∉ "".toList := by simp
    rw [hname, lead_append_slash _ hslash, lead_append_slash _ hnone,
      filter_components_append_slash _ h, components_append_slash _ hnone, List.filter_append]
    simp [counts]
  · rename_i hlast
    have hpath : path ≠ "" := by
      rintro rfl
      simp at hlast
    rw [lead_append_slash path hslash, if_neg hpath, filter_components_append_slash path h,
      List.append_assoc]

theorem parts_join (path : String) {names : List String}
    (h : ∀ name ∈ names, isFileName name = true) : parts (join path names) = parts path ++ names := by
  unfold join
  induction names generalizing path with
  | nil => simp
  | cons name names ih =>
      rw [List.foldl_cons, ih _ fun next hnext => h next (List.mem_cons_of_mem _ hnext),
        parts_child path (h name List.mem_cons_self), List.append_assoc, List.singleton_append]

/-- The name at the end of a path is the last of its parts. -/
theorem parts_of_fileName? {path name : String} (h : fileName? path = some name) :
    parts path = (parts path).dropLast ++ [name] := by
  have hlast : ((components path).filter counts).getLast? = some name := by
    unfold fileName? at h
    split at h
    · cases h
    · exact h
  obtain ⟨before, hbefore⟩ := List.getLast?_eq_some_iff.mp hlast
  rw [parts, hbefore, ← List.append_assoc, List.dropLast_concat]

end Path

namespace Config

variable {c : Config} {root : String} {names : List String}

/-- The parts that are taken off a path to get the key of its module: those of the root, or of the
directory above it if keys begin with the name of the root and it has one. -/
def keyBase (c : Config) (root : String) : List String :=
  if c.keepRootName && (Path.fileName? root).isSome then (Path.parts root).dropLast
  else Path.parts root

/-- The root is the base of keys and the names that they begin with. -/
theorem parts_eq_keyBase_append (c : Config) (root : String) :
    Path.parts root = c.keyBase root ++
      (if c.keepRootName then (Path.fileName? root).toList else []) := by
  unfold keyBase
  cases hkeep : c.keepRootName with
  | false => simp
  | true =>
      cases hname : Path.fileName? root with
      | none => simp
      | some name => simpa using Path.parts_of_fileName? hname

/-- **The key of a source is its path less the parts of the base**, in whatever way the root is
written. -/
theorem key_eq_relativeTo (c : Config) (root : String)
    (h : ∀ name ∈ names, isFileName name = true) :
    c.key root names =
      slashed (Path.relativeTo (c.keyBase root) (Path.parts (c.sourceFile root names).path)) := by
  unfold key sourceFile
  rw [Path.parts_join root h, parts_eq_keyBase_append c root, List.append_assoc,
    Path.relativeTo_append]

/-- A directory is left out for its path less the parts of the root, whatever keys begin with. -/
theorem leavesOut_iff_relativeTo (h : ∀ name ∈ names, isFileName name = true) :
    c.leavesOut names = true ↔ ∃ part ∈ c.exclude, part.toList <:+:
      (slashed (Path.relativeTo (Path.parts root) (Path.parts (Path.join root names)))).toList := by
  rw [Path.parts_join root h, Path.relativeTo_append, leavesOut_iff]

/-- The key with the name of the root in front, if the root has one. -/
def nest (root : String) (key : String) : String :=
  match Path.fileName? root with
  | some name => name ++ "/" ++ key
  | none => key

theorem key_keepRootName (c : Config) (root : String) (h : names ≠ []) :
    key { c with keepRootName := true } root names =
      nest root (key { c with keepRootName := false } root names) := by
  unfold key nest
  cases hname : Path.fileName? root with
  | none => rfl
  | some name =>
      show slashed ([name] ++ names) = _
      rw [slashed_append (List.cons_ne_nil name []) h]
      rfl

end Config

end ApiSurface
