import ApiSurface.NameMap

/-!
Trees of files. A directory lists its entries in increasing order of their names, and names are such
that a path can be written with slashes between them.
-/

namespace ApiSurface

/-- A name that can stand in a directory. -/
def isFileName (name : String) : Bool :=
  name != "" && name != "." && name != ".." && !name.toList.contains '/'

/-- What stands under a name in a directory. -/
inductive Entry where
  | file (content : ByteArray)
  | directory (entries : List (String × Entry))
  /-- A symbolic link with its target, which is taken from the directory of the link. -/
  | link (target : String)

namespace Entry

/-- The entry is a directory. -/
def isDirectory : Entry → Bool
  | directory _ => true
  | _ => false

/-- All directories in the entry are in order and have names as they should be. -/
inductive Sound : Entry → Prop
  | file (content : ByteArray) : Sound (.file content)
  | link (target : String) : Sound (.link target)
  | directory (entries : List (String × Entry)) (ordered : entries.Pairwise (·.1 < ·.1))
      (named : ∀ e ∈ entries, isFileName e.1 = true) (below : ∀ e ∈ entries, Sound e.2) :
      Sound (.directory entries)

/-- What stands at the end of a path of names. -/
def find? : List (String × Entry) → List String → Option Entry
  | _, [] => none
  | es, [name] => es.lookup name
  | es, name :: names => match es.lookup name with
    | some (directory inner) => find? inner names
    | _ => none

/-- The entries with one put at the end of a path of names, if that lies in a directory. -/
def put (new : Entry) : List String → List (String × Entry) → List (String × Entry)
  | [], es => es
  | [name], es => if isFileName name then NameMap.insertList name new es else es
  | name :: names, es => match es.lookup name with
    | some (directory inner) => NameMap.insertList name (directory (put new names inner)) es
    | _ => es

theorem mem_of_lookup {es : List (String × Entry)} {name : String} {e : Entry}
    (h : es.lookup name = some e) : (name, e) ∈ es := by
  induction es with
  | nil => simp at h
  | cons d ds ih =>
    rw [List.lookup_cons] at h
    split at h
    · rename_i heq
      rw [← Option.some.inj h, eq_of_beq heq]
      exact List.mem_cons_self
    · exact List.mem_cons_of_mem _ (ih h)

theorem mem_insertList {k : String} {v : Entry} {es : List (String × Entry)} {e : String × Entry}
    (h : e ∈ NameMap.insertList k v es) : e = (k, v) ∨ e ∈ es := by
  induction es with
  | nil => exact .inl (by simpa [NameMap.insertList] using h)
  | cons d ds ih =>
    rw [NameMap.insertList] at h
    split at h
    · exact List.mem_cons.1 h
    · split at h
      · exact (List.mem_cons.1 h).imp id (List.mem_cons_of_mem _)
      · rcases List.mem_cons.1 h with rfl | h
        · exact .inr List.mem_cons_self
        · exact (ih h).imp id (List.mem_cons_of_mem _)

/-- A sound entry under a good name keeps a directory sound. -/
theorem Sound.insert {es : List (String × Entry)} {name : String} {e : Entry}
    (h : Sound (.directory es)) (hname : isFileName name = true) (he : Sound e) :
    Sound (.directory (NameMap.insertList name e es)) := by
  cases h with
  | directory _ ordered named below =>
    refine .directory _ (NameMap.pairwise_insertList ordered) (fun d hd => ?_) (fun d hd => ?_)
    · rcases mem_insertList hd with rfl | hd
      · exact hname
      · exact named d hd
    · rcases mem_insertList hd with rfl | hd
      · exact he
      · exact below d hd

/-- Putting a sound entry somewhere keeps a directory sound. -/
theorem Sound.put {new : Entry} (hnew : Sound new) {path : List String}
    {es : List (String × Entry)} (h : Sound (.directory es)) :
    Sound (.directory (Entry.put new path es)) := by
  induction path generalizing es with
  | nil => exact h
  | cons name names ih =>
    cases names with
    | nil =>
      rw [Entry.put]
      split
      · rename_i hname
        exact h.insert hname hnew
      · exact h
    | cons next rest =>
      rw [Entry.put]
      · split
        · rename_i inner hlookup
          have hmem := mem_of_lookup hlookup
          cases h with
          | directory _ ordered named below =>
            exact (Sound.directory es ordered named below).insert (named _ hmem)
              (ih (below _ hmem))
        · exact h
      · simp

end Entry

/-- A tree of files, seen from the working directory. -/
structure FileTree where
  entries : List (String × Entry)
  sound : Entry.Sound (.directory entries)

namespace FileTree

/-- The tree without files. -/
def empty : FileTree :=
  ⟨[], .directory [] .nil (by simp) (by simp)⟩

instance : EmptyCollection FileTree := ⟨empty⟩

instance : Inhabited FileTree := ⟨∅⟩

/-- What stands at the end of a path of names; the empty path leads to the working directory. -/
def find? (t : FileTree) : List String → Option Entry
  | [] => some (.directory t.entries)
  | path => Entry.find? t.entries path

/-- The tree with an entry put at the end of a path of names. -/
def put (t : FileTree) (path : List String) (new : Entry) (h : new.Sound) : FileTree :=
  ⟨new.put path t.entries, h.put t.sound⟩

end FileTree

end ApiSurface
