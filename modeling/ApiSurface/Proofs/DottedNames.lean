import Mathlib.Data.List.TakeWhile
import ApiSurface.ModulePath

/-! Dotted names. They are found by byte offsets in the path with one kind of slash: that of the last
slash, and that of the last point after it. Said of the components of a path, the name is these with
points between them, the last one without its ending; no offset can miss a character. -/

namespace ApiSurface

/-! ### Offsets that are places -/

namespace Text

theorem byteLength_append (xs ys : List Char) :
    byteLength (xs ++ ys) = byteLength xs + byteLength ys := by
  induction xs with
  | nil => simp [byteLength]
  | cons c xs ih => simp [byteLength, ih, Nat.add_assoc]

theorem byteLength_eq_zero {xs : List Char} : byteLength xs = 0 ↔ xs = [] := by
  cases xs with
  | nil => simp [byteLength]
  | cons c xs =>
      have hpos := c.utf8Size_pos
      simp [byteLength]
      omega

theorem cut?_append (xs ys : List Char) : cut? (byteLength xs) (xs ++ ys) = some (xs, ys) := by
  induction xs with
  | nil =>
      rw [byteLength, List.nil_append]
      cases ys <;> rfl
  | cons c xs ih =>
      have hpos := c.utf8Size_pos
      obtain ⟨n, hn⟩ : ∃ n, c.utf8Size + byteLength xs = n + 1 :=
        ⟨c.utf8Size + byteLength xs - 1, by omega⟩
      have hrest : n + 1 - c.utf8Size = byteLength xs := by omega
      rw [byteLength, hn, List.cons_append, cut?, hrest, ih, if_pos (by omega)]
      rfl

theorem from?_append (xs ys : List Char) : from? (byteLength xs) (xs ++ ys) = some ys := by
  rw [from?, cut?_append]
  rfl

theorem upTo?_append (xs ys : List Char) : upTo? (byteLength xs) (xs ++ ys) = some xs := by
  rw [upTo?, cut?_append]
  rfl

theorem eq_append_of_cut? {n : Nat} {cs before after : List Char}
    (h : cut? n cs = some (before, after)) : cs = before ++ after := by
  fun_induction cut? n cs generalizing before with
  | case1 cs =>
      cases h
      rfl
  | case2 => cases h
  | case3 n c cs hsize ih =>
      obtain ⟨⟨before', after'⟩, hcut, heq⟩ := Option.map_eq_some_iff.mp h
      cases heq
      rw [ih hcut, List.cons_append]
  | case4 => cases h

theorem lastOffset?_of_forall {p : Char → Bool} {xs : List Char} (h : ∀ c ∈ xs, p c = false) :
    lastOffset? p xs = none := by
  induction xs with
  | nil => rfl
  | cons c xs ih =>
      rw [List.forall_mem_cons] at h
      simp [lastOffset?, ih h.2, h.1]

theorem lastOffset?_append {p : Char → Bool} {c : Char} {ys : List Char} (xs : List Char)
    (hc : p c = true) (hys : ∀ d ∈ ys, p d = false) :
    lastOffset? p (xs ++ c :: ys) = some (byteLength xs) := by
  induction xs with
  | nil => simp [lastOffset?, lastOffset?_of_forall hys, hc, byteLength]
  | cons d xs ih => simp [lastOffset?, ih, byteLength]

/-- A text has a last character of a class, or none. -/
theorem last_cases (p : Char → Bool) (xs : List Char) :
    (∀ c ∈ xs, p c = false) ∨
      ∃ before c after, xs = before ++ c :: after ∧ p c = true ∧ ∀ d ∈ after, p d = false := by
  induction xs with
  | nil => exact Or.inl (List.forall_mem_nil _)
  | cons d xs ih =>
      rcases ih with hnone | ⟨before, c, after, rfl, hc, hafter⟩
      · cases hd : p d with
        | false => exact Or.inl (List.forall_mem_cons.mpr ⟨hd, hnone⟩)
        | true => exact Or.inr ⟨[], d, xs, rfl, hd, hnone⟩
      · exact Or.inr ⟨d :: before, c, after, rfl, hc, hafter⟩

end Text

namespace ModulePath

/-! ### Components -/

/-- A slash of either kind. -/
def isSlash (c : Char) : Bool := c = '/' || c = '\\'

/-- The components of a path: the texts between its slashes, those at its start apart. -/
def components (path : String) : List (List Char) :=
  (path.toList.dropWhile isSlash).splitOnP isSlash

/-- A component without its part from its last point on; a point at its start does not count. -/
def stem (component : List Char) : List Char :=
  match component.reverse.dropWhile (· ≠ '.') with
  | _ :: rest => if rest.isEmpty then component else rest.reverse
  | [] => component

/-- The components with the ending of the last one cut off. -/
def withoutEnding : List (List Char) → List (List Char)
  | [] => []
  | [last] => [stem last]
  | directory :: components => directory :: withoutEnding components

theorem stem_of_forall {component : List Char} (h : ∀ c ∈ component, c ≠ '.') :
    stem component = component := by
  have hnone : component.reverse.dropWhile (· ≠ '.') = [] := by
    simpa [List.dropWhile_eq_nil_iff] using h
  rw [stem, hnone]

theorem stem_append (before : List Char) {after : List Char} (h : ∀ c ∈ after, c ≠ '.') :
    stem (before ++ '.' :: after) = if before = [] then '.' :: after else before := by
  have hlast : (before ++ '.' :: after).reverse.dropWhile (· ≠ '.') = '.' :: before.reverse := by
    rw [List.reverse_append, List.reverse_cons, List.append_assoc, List.dropWhile_append_of_pos]
    · simp
    · simpa using h
  rw [stem, hlast]
  by_cases hbefore : before = []
  · simp [hbefore]
  · simp [hbefore]

/-- A component has an ending to be cut off, or none. -/
theorem stem_cases (component : List Char) :
    (stem component = component ∧ stemLength component = Text.byteLength component) ∨
      ∃ before after, component = before ++ '.' :: after ∧ stem component = before ∧
        stemLength component = Text.byteLength before := by
  rcases Text.last_cases (· = '.') component with hnone | ⟨before, c, after, rfl, hc, hafter⟩
  · refine Or.inl ⟨stem_of_forall (by simpa using hnone), ?_⟩
    rw [stemLength, Text.lastOffset?_of_forall hnone]
    rfl
  · obtain rfl : c = '.' := by simpa using hc
    have hpoint : ∀ d ∈ after, d ≠ '.' := by simpa using hafter
    rw [stemLength, Text.lastOffset?_append before rfl hafter, stem_append before hpoint]
    by_cases hbefore : before = []
    · subst hbefore
      exact Or.inl ⟨if_pos rfl, rfl⟩
    · have hpos : 0 < Text.byteLength before :=
        Nat.pos_of_ne_zero fun hzero => hbefore (Text.byteLength_eq_zero.mp hzero)
      rw [Option.filter_some_pos (by simpa using hpos)]
      exact Or.inr ⟨before, after, rfl, if_neg hbefore, rfl⟩

theorem mem_of_mem_stem {component : List Char} {c : Char} (h : c ∈ stem component) :
    c ∈ component := by
  rcases stem_cases component with ⟨hstem, -⟩ | ⟨before, after, rfl, hstem, -⟩
  · rwa [hstem] at h
  · rw [hstem] at h
    exact List.mem_append_left _ h

theorem withoutEnding_append (directories : List (List Char)) (last : List Char) :
    withoutEnding (directories ++ [last]) = directories ++ [stem last] := by
  induction directories with
  | nil => rfl
  | cons directory directories ih =>
      rw [List.cons_append, withoutEnding, ih, List.cons_append]
      simp

theorem intercalate_append_singleton {xss : List (List Char)} (h : xss ≠ []) (ys : List Char) :
    ['.'].intercalate (xss ++ [ys]) = ['.'].intercalate xss ++ '.' :: ys := by
  induction xss with
  | nil => exact absurd rfl h
  | cons xs xss ih =>
      by_cases hxss : xss = []
      · simp [hxss]
      · rw [List.cons_append, List.intercalate_cons_of_ne_nil (by simp), ih hxss,
          List.intercalate_cons_of_ne_nil hxss]
        simp

/-- A text with a point for each slash. -/
def pointed (cs : List Char) : List Char :=
  cs.map fun c => if isSlash c then '.' else c

/-- Splitting at slashes and joining with points replaces each slash by a point. -/
theorem intercalate_splitOnP (cs : List Char) :
    ['.'].intercalate (cs.splitOnP isSlash) = pointed cs := by
  induction cs with
  | nil => rw [List.splitOnP_nil, List.intercalate_singleton, pointed, List.map_nil]
  | cons c cs ih =>
      have hne := List.splitOnP_ne_nil isSlash cs
      rw [List.splitOnP_cons_eq_if_modifyHead, pointed, List.map_cons, ← pointed, ← ih]
      cases isSlash c with
      | true =>
          rw [if_pos rfl, if_pos rfl, List.intercalate_cons_of_ne_nil hne]
          rfl
      | false =>
          rw [if_neg Bool.false_ne_true, if_neg Bool.false_ne_true]
          match cs.splitOnP isSlash, hne with
          | [x], _ => simp
          | x :: y :: xs, _ => simp [List.intercalate_cons_cons]

/-! ### The name -/

/-- The offset at which a name ends is a place in the path. -/
theorem upTo?_stemLength (directory last : List Char) :
    Text.upTo? (Text.byteLength directory + stemLength last) (directory ++ last) =
      some (directory ++ stem last) := by
  rcases stem_cases last with ⟨hstem, hlength⟩ | ⟨before, after, rfl, hstem, hlength⟩
  · rw [hstem, hlength, ← Text.byteLength_append]
    simpa using Text.upTo?_append (directory ++ last) []
  · rw [hstem, hlength, ← Text.byteLength_append, ← List.append_assoc]
    exact Text.upTo?_append _ _

theorem dotted?_of_uniform {path : String} {directory last : List Char}
    (htext : uniform path = directory ++ last)
    (hstart : lastStart (directory ++ last) = Text.byteLength directory) :
    dotted? path =
      some (String.ofList ((directory ++ stem last).map fun c => if c = '/' then '.' else c)) := by
  simp only [dotted?, htext, hstart, Text.from?_append, upTo?_stemLength, bind, Option.bind, pure]

theorem uniform_eq (path : String) :
    uniform path = (path.toList.dropWhile isSlash).map fun c => if c = '\\' then '/' else c := by
  rw [uniform, List.dropWhile_map]
  congr 2
  funext c
  by_cases hc : c = '\\' <;> simp [isSlash, hc]

/-- Making slashes uniform and then points is the same as making either kind points. -/
theorem map_uniform (cs : List Char) :
    ((cs.map fun c => if c = '\\' then '/' else c).map fun c => if c = '/' then '.' else c) =
      pointed cs := by
  rw [List.map_map, pointed]
  refine List.map_congr_left fun c _ => ?_
  by_cases hc : c = '\\' <;> simp [isSlash, hc]

/-- A text without slashes stays as it is. -/
theorem map_slash_of_forall {cs : List Char} (h : ∀ c ∈ cs, isSlash c = false) :
    (cs.map fun c => if c = '\\' then '/' else c) = cs ∧
      (cs.map fun c => if c = '/' then '.' else c) = cs := by
  have hneither : ∀ c ∈ cs, c ≠ '/' ∧ c ≠ '\\' := by simpa [isSlash] using h
  constructor
  · exact (List.map_congr_left fun c hc => if_neg (hneither c hc).2).trans (List.map_id _)
  · exact (List.map_congr_left fun c hc => if_neg (hneither c hc).1).trans (List.map_id _)

theorem lastOffset?_slash_of_forall {cs : List Char} (h : ∀ c ∈ cs, isSlash c = false) :
    Text.lastOffset? (· = '/') cs = none :=
  Text.lastOffset?_of_forall fun c hc => (Bool.or_eq_false_iff.mp (h c hc)).1

theorem dotted?_eq (path : String) :
    dotted? path = some (String.ofList (['.'].intercalate (withoutEnding (components path)))) := by
  have huniform := uniform_eq path
  rw [components]
  rcases Text.last_cases isSlash (path.toList.dropWhile isSlash) with
    hnone | ⟨before, c, last, hpath, hc, hlast⟩
  · -- The path is a single component.
    generalize path.toList.dropWhile isSlash = last at *
    have hstart : lastStart ([] ++ last) = Text.byteLength [] := by
      rw [List.nil_append, lastStart, lastOffset?_slash_of_forall hnone]
      rfl
    have hstem := map_slash_of_forall fun c hc => hnone c (mem_of_mem_stem hc)
    rw [(map_slash_of_forall hnone).1] at huniform
    rw [dotted?_of_uniform (huniform.trans (List.nil_append _).symm) hstart, List.nil_append, hstem.2,
      List.splitOnP_eq_singleton hnone, withoutEnding, List.intercalate_singleton]
  · -- The last component follows a slash, which is one byte.
    have htext : uniform path =
        ((before.map fun c => if c = '\\' then '/' else c) ++ ['/']) ++ last := by
      rcases Bool.or_eq_true_iff.mp hc with hslash | hslash <;>
        simp [huniform, hpath, (map_slash_of_forall hlast).1, of_decide_eq_true hslash]
    have hstart : lastStart (((before.map fun c => if c = '\\' then '/' else c) ++ ['/']) ++ last) =
        Text.byteLength ((before.map fun c => if c = '\\' then '/' else c) ++ ['/']) := by
      have hoffset := Text.lastOffset?_append (p := fun c => decide (c = '/')) (c := '/')
        (before.map fun c => if c = '\\' then '/' else c) rfl
        fun d hd => (Bool.or_eq_false_iff.mp (hlast d hd)).1
      rw [List.append_assoc, List.singleton_append, lastStart, hoffset, Text.byteLength_append]
      rfl
    have hstem := map_slash_of_forall fun c hc => hlast c (mem_of_mem_stem hc)
    have hne := List.splitOnP_ne_nil isSlash before
    rw [dotted?_of_uniform htext hstart, hpath, List.splitOnP_append_cons _ _ hc,
      List.splitOnP_eq_singleton hlast, withoutEnding_append, intercalate_append_singleton hne,
      intercalate_splitOnP, List.map_append, List.map_append, map_uniform, hstem.2]
    simp

theorem dotted_eq (path : String) :
    dotted path = String.ofList (['.'].intercalate (withoutEnding (components path))) := by
  rw [dotted, dotted?_eq]
  rfl

theorem dotted?_eq_some (path : String) : dotted? path = some (dotted path) := by
  rw [dotted?_eq, dotted_eq]

theorem mem_uniform {path : String} {c : Char} (h : c ∈ uniform path) : c = '/' ∨ c ∈ path.toList := by
  obtain ⟨d, hd, rfl⟩ := List.mem_map.mp ((List.dropWhile_sublist _).subset h)
  split
  · exact Or.inl rfl
  · exact Or.inr hd

/-- A name holds nothing but points and what the path holds. -/
theorem mem_dotted {path : String} {c : Char} (h : c ∈ (dotted path).toList) :
    c = '.' ∨ c ∈ path.toList := by
  have hsome := dotted?_eq_some path
  simp only [dotted?, bind, Option.bind_eq_some_iff, pure, Option.some.injEq] at hsome
  obtain ⟨last, -, name, hname, heq⟩ := hsome
  obtain ⟨⟨before, after⟩, hcut, rfl⟩ := Option.map_eq_some_iff.mp hname
  rw [← heq, String.toList_ofList] at h
  obtain ⟨d, hd, rfl⟩ := List.mem_map.mp h
  have hmem : d ∈ uniform path := Text.eq_append_of_cut? hcut ▸ List.mem_append_left after hd
  split
  · exact Or.inl rfl
  · rename_i hslash
    exact Or.inr ((mem_uniform hmem).resolve_left hslash)

/-- **The dotted name of a path, by its components.** The offsets at which the path is cut are always
places in it. The name is the components of the path with points between them, where the directories are
whole and the last component has lost its ending; which kind of slash is used where makes no
difference. -/
theorem dotted_exact (path : String) :
    dotted? path = some (dotted path) ∧
    dotted path = String.ofList (['.'].intercalate (withoutEnding (components path))) ∧
    (∃ directories last, components path = directories ++ [last] ∧
      dotted path = String.ofList (['.'].intercalate (directories ++ [stem last]))) ∧
    ∀ other : String,
      (other.toList.map fun c => if isSlash c then '/' else c) =
        (path.toList.map fun c => if isSlash c then '/' else c) →
      dotted other = dotted path := by
  refine ⟨dotted?_eq_some path, dotted_eq path, ?_, ?_⟩
  · obtain ⟨directories, last, hcomponents⟩ : ∃ directories last, components path = directories ++ [last] :=
      ⟨_, _, (List.dropLast_concat_getLast (List.splitOnP_ne_nil _ _)).symm⟩
    refine ⟨directories, last, hcomponents, ?_⟩
    rw [dotted_eq, hcomponents, withoutEnding_append]
  · intro other h
    have hslash : (fun c => if isSlash c then '/' else c) = fun c => if c = '\\' then '/' else c := by
      funext c
      by_cases hc : c = '/' <;> simp [isSlash, hc]
    rw [hslash] at h
    rw [dotted, dotted, dotted?, dotted?, uniform, uniform, h]

/-- A path with points in a directory and both kinds of slashes. -/
theorem dotted_exact_mixedSlashes :
    ("/v1.2\\é.py".toList.map fun c => if isSlash c then '/' else c) =
      ("\\v1.2/é.py".toList.map fun c => if isSlash c then '/' else c) ∧
    dotted "/v1.2\\é.py" = dotted "\\v1.2/é.py" ∧ dotted "\\v1.2/é.py" = "v1.2.é" :=
  ⟨by decide +kernel, (dotted_exact _).2.2.2 _ (by decide +kernel), by decide +kernel⟩

end ModulePath

end ApiSurface
