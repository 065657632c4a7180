import Mathlib.Data.List.Induction
import ApiSurface.Proofs.Names
import ApiSurface.Proofs.LevelOrder

/-! What belongs to the public surface of a syntax tree. Functions are those of the statement list
itself. Classes are those of the whole tree, and as nodes are visited in level order, of several
classes with one name the deepest counts, and among the deepest the last. -/

namespace ApiSurface.Python

/-- A public name: not empty, and with an underscore in front only if it is that of the
initializer. -/
def IsPublicName (name : String) : Prop :=
  name ≠ "" ∧ (name.toList.head? = some '_' → name = "__init__")

instance (name : String) : Decidable (IsPublicName name) :=
  inferInstanceAs (Decidable (_ ∧ _))

namespace Node

/-! ### Functions -/

theorem publicName?_eq_some_iff {name result : String} :
    publicName? name = some result ↔ IsPublicName name ∧ name = result := by
  have hpublic : (!name.isEmpty && isPublic name) = true ↔ IsPublicName name := by
    rw [IsPublicName, isPublic]
    simp [imp_iff_not_or]
  rw [publicName?, Option.ite_none_right_eq_some, Option.some.injEq, hpublic]

theorem function?_eq_some_iff {n : Node} {name : String} :
    n.function? = some name ↔ n.kind = .function name false ∧ IsPublicName name := by
  unfold function?
  split
  · rename_i other hkind
    rw [hkind, publicName?_eq_some_iff]
    constructor
    · rintro ⟨hpublic, rfl⟩
      exact ⟨rfl, hpublic⟩
    · rintro ⟨hsame, hpublic⟩
      cases hsame
      exact ⟨hpublic, rfl⟩
  · rename_i hkind
    constructor
    · intro h
      cases h
    · rintro ⟨hsame, _⟩
      exact absurd hsame (hkind name)

/-- The statement is a function that is not asynchronous, or such a function under decorators. -/
def Defines (statement : Node) (name : String) : Prop :=
  statement.kind = .function name false ∨
    statement.kind = .decorated ∧
      ∃ definition, statement.definition? = some definition ∧
        definition.kind = .function name false

theorem undecorated_function?_eq_some_iff {n : Node} {name : String} :
    n.undecorated.function? = some name ↔ n.Defines name ∧ IsPublicName name := by
  rw [function?_eq_some_iff]
  apply and_congr_left
  intro _
  unfold undecorated Defines
  by_cases hkind : n.kind = .decorated
  · cases hdefinition : n.definition? <;> simp [hkind]
  · simp [hkind]

theorem mem_functionsOf {statements : List Node} {name : String} :
    name ∈ functionsOf statements ↔
      IsPublicName name ∧ ∃ statement ∈ statements, statement.Defines name := by
  rw [functionsOf, NameSet.mem_ofList, List.mem_filterMap]
  simp only [undecorated_function?_eq_some_iff]
  constructor
  · rintro ⟨statement, hmem, hdefines, hpublic⟩
    exact ⟨hpublic, statement, hmem, hdefines⟩
  · rintro ⟨hpublic, statement, hmem, hdefines⟩
    exact ⟨statement, hmem, hdefines, hpublic⟩

theorem mem_methods {n : Node} {name : String} :
    name ∈ n.methods ↔
      IsPublicName name ∧
        ∃ body, n.body? = some body ∧ ∃ statement ∈ body.children, statement.Defines name := by
  unfold methods
  cases n.body? with
  | none => simp
  | some body => simp [mem_functionsOf]

/-! ### Classes -/

theorem class?_eq_some_iff {n : Node} {name : String} {ms : NameSet} :
    n.class? = some (name, ms) ↔
      n.kind = .classDefinition name ∧ IsPublicName name ∧ n.methods = ms := by
  unfold class?
  split
  · rename_i other hkind
    rw [hkind, Option.map_eq_some_iff]
    simp only [publicName?_eq_some_iff, Prod.mk.injEq, Kind.classDefinition.injEq]
    constructor
    · rintro ⟨_, ⟨hpublic, rfl⟩, rfl, hmethods⟩
      exact ⟨rfl, hpublic, hmethods⟩
    · rintro ⟨rfl, hpublic, hmethods⟩
      exact ⟨other, ⟨hpublic, rfl⟩, rfl, hmethods⟩
  · rename_i hkind
    constructor
    · intro h
      cases h
    · rintro ⟨hsame, _⟩
      exact absurd hsame (hkind name)

theorem get?_addClass (classes : NameMap NameSet) (n : Node) (name : String) :
    (addClass classes n).get? name =
      if n.kind = .classDefinition name ∧ IsPublicName name then some n.methods
      else classes.get? name := by
  unfold addClass
  split
  · rename_i other ms hclass
    obtain ⟨hkind, hpublic, rfl⟩ := class?_eq_some_iff.mp hclass
    rw [NameMap.get?_insert, hkind]
    by_cases hname : name = other
    · subst hname
      simp [hpublic]
    · simp [hname, Ne.symm hname]
  · rename_i hclass
    rw [if_neg]
    rintro ⟨hkind, hpublic⟩
    have hsome := class?_eq_some_iff.mpr ⟨hkind, hpublic, rfl⟩
    rw [hclass] at hsome
    cases hsome

/-- The last class of a name in a list of nodes is the one that counts. -/
theorem get?_foldl_addClass (xs : List Placed) (name : String) :
    (xs.foldl (fun classes x => addClass classes x.node) ∅).get? name =
      if IsPublicName name then
        (xs.filter (·.node.kind = .classDefinition name)).getLast?.map (·.node.methods)
      else none := by
  -- from the end of the list: its last node decides, unless it is no class of this name
  induction xs using List.reverseRecOn with
  | nil => simp [NameMap.get?_empty]
  | append_singleton xs x ih =>
      rw [List.foldl_append, List.foldl_cons, List.foldl_nil, get?_addClass, ih,
        List.filter_append]
      by_cases hpublic : IsPublicName name
      · by_cases hkind : x.node.kind = .classDefinition name <;> simp [hpublic, hkind]
      · simp [hpublic]

end Node

/-- In an ordered list, the last entry is the one that all others come before. -/
theorem getLast?_eq_some_iff_of_pairwise {xs : List Placed}
    (h : xs.Pairwise fun x y => Before x.address y.address) {x : Placed} :
    xs.getLast? = some x ↔ x ∈ xs ∧ ∀ y ∈ xs, y = x ∨ Before y.address x.address := by
  have hlast : ∀ {z}, xs.getLast? = some z →
      z ∈ xs ∧ ∀ y ∈ xs, y = z ∨ Before y.address z.address := by
    intro z hz
    obtain ⟨ys, rfl⟩ := List.getLast?_eq_some_iff.mp hz
    refine ⟨by simp, fun y hy => ?_⟩
    rcases List.mem_append.mp hy with hy | hy
    · exact Or.inr ((List.pairwise_append.mp h).2.2 y hy z List.mem_cons_self)
    · exact Or.inl (List.mem_singleton.mp hy)
  constructor
  · exact hlast
  · rintro ⟨hx, hall⟩
    obtain ⟨z, hz⟩ : ∃ z, xs.getLast? = some z :=
      Option.ne_none_iff_exists'.mp (mt List.getLast?_eq_none_iff.mp (List.ne_nil_of_mem hx))
    obtain ⟨hmem, hbefore⟩ := hlast hz
    rcases hbefore x hx with rfl | hxz
    · exact hz
    · rcases hall z hmem with rfl | hzx
      · exact hz
      · exact (hxz.asymm hzx).elim

namespace Node

/-- A class with this name stands at the address. -/
def ClassAt (n : Node) (name : String) (path : Address) (c : Node) : Prop :=
  n.at? path = some c ∧ c.kind = .classDefinition name

/-- The class with this name that every other one comes before: no other is deeper, and of those as
deep none is later. -/
def LastClassAt (n : Node) (name : String) (path : Address) (c : Node) : Prop :=
  n.ClassAt name path c ∧
    ∀ path' c', n.ClassAt name path' c' → path' = path ∨ Before path' path

/-- The classes with a name, in the order of the visit. -/
def classesNamed (n : Node) (name : String) : List Placed :=
  n.levelOrder.filter (·.node.kind = .classDefinition name)

theorem mem_classesNamed {n : Node} {name : String} {x : Placed} :
    x ∈ n.classesNamed name ↔ n.ClassAt name x.address x.node := by
  rw [classesNamed, List.mem_filter, mem_levelOrder, decide_eq_true_iff]
  rfl

theorem getLast?_classesNamed {n : Node} {name : String} {x : Placed} :
    (n.classesNamed name).getLast? = some x ↔ n.LastClassAt name x.address x.node := by
  have hpairwise := (pairwise_levelOrder n).filter (·.node.kind = .classDefinition name)
  rw [classesNamed, getLast?_eq_some_iff_of_pairwise hpairwise]
  change x ∈ n.classesNamed name ∧ (∀ y ∈ n.classesNamed name, _) ↔ _
  rw [mem_classesNamed]
  apply and_congr_right
  intro hx
  constructor
  · intro h path' c' hclass
    rcases h ⟨path', c'⟩ (mem_classesNamed.mpr hclass) with rfl | hbefore
    · exact Or.inl rfl
    · exact Or.inr hbefore
  · intro h y hy
    have hclass := mem_classesNamed.mp hy
    rcases h y.address y.node hclass with haddress | hbefore
    · have hnode : some y.node = some x.node := by
        rw [← hclass.1, ← hx.1, haddress]
      exact Or.inl (Placed.ext haddress (Option.some.inj hnode))
    · exact Or.inr hbefore

theorem get?_classes (n : Node) (name : String) :
    n.symbols.classes.get? name =
      if IsPublicName name then (n.classesNamed name).getLast?.map (·.node.methods) else none := by
  change (visit ∅ [n]).get? name = _
  rw [visit_root, get?_foldl_addClass, classesNamed]

theorem get?_classes_eq_some_iff {n : Node} {name : String} {ms : NameSet} :
    n.symbols.classes.get? name = some ms ↔
      IsPublicName name ∧ ∃ path c, n.LastClassAt name path c ∧ c.methods = ms := by
  rw [get?_classes]
  by_cases hpublic : IsPublicName name
  · rw [if_pos hpublic, Option.map_eq_some_iff]
    simp only [getLast?_classesNamed, hpublic, true_and]
    exact ⟨fun ⟨x, hlast, hms⟩ => ⟨x.address, x.node, hlast, hms⟩,
      fun ⟨path, c, hlast, hms⟩ => ⟨⟨path, c⟩, hlast, hms⟩⟩
  · simp [hpublic]

theorem mem_keySet_classes {n : Node} {name : String} :
    name ∈ n.symbols.classes.keySet ↔ IsPublicName name ∧ ∃ path c, n.ClassAt name path c := by
  rw [NameMap.mem_keySet]
  constructor
  · rintro ⟨ms, hms⟩
    obtain ⟨hpublic, path, c, hlast, _⟩ := get?_classes_eq_some_iff.mp hms
    exact ⟨hpublic, path, c, hlast.1⟩
  · rintro ⟨hpublic, path, c, hclass⟩
    have hmem : ⟨path, c⟩ ∈ n.classesNamed name := mem_classesNamed.mpr hclass
    obtain ⟨x, hx⟩ : ∃ x, (n.classesNamed name).getLast? = some x :=
      Option.ne_none_iff_exists'.mp (mt List.getLast?_eq_none_iff.mp (List.ne_nil_of_mem hmem))
    refine ⟨x.node.methods, ?_⟩
    rw [get?_classes, if_pos hpublic, hx]
    rfl

/-! ### Trees without faults -/

/-- No node of the tree is a fault. -/
def Faultless (n : Node) : Prop :=
  ∀ path m, n.at? path = some m → m.kind.isFault = false

theorem faultless_iff (n : Node) :
    n.Faultless ↔ ∀ x ∈ n.levelOrder, x.node.kind.isFault = false := by
  constructor
  · intro h x hx
    exact h x.address x.node (mem_levelOrder.mp hx)
  · intro h path m hm
    exact h ⟨path, m⟩ (mem_levelOrder.mpr hm)

instance (n : Node) : Decidable n.Faultless :=
  decidable_of_iff _ n.faultless_iff.symm

theorem Faultless.of_mem_children {n child : Node} (h : n.Faultless) (hchild : child ∈ n.children) :
    child.Faultless := by
  intro path m hm
  obtain ⟨i, hi⟩ := List.mem_iff_getElem?.mp hchild
  refine h (i :: path) m ?_
  rw [at?, hi]
  exact hm

mutual

theorem firstFault?_of_faultless : ∀ n : Node, n.Faultless → n.firstFault? = none
  | mk kind start faulty children, h => by
      have hkind : kind.isFault = false := h [] _ rfl
      have hchildren := firstFaultIn?_of_faultless children fun _ hchild => h.of_mem_children hchild
      simp [firstFault?, hkind, hchildren]

theorem firstFaultIn?_of_faultless :
    ∀ ns : List Node, (∀ n ∈ ns, n.Faultless) → firstFaultIn? ns = none
  | [], _ => rfl
  | n :: ns, h => by
      have hfirst := firstFault?_of_faultless n (h n List.mem_cons_self)
      have hrest := firstFaultIn?_of_faultless ns fun m hm => h m (List.mem_cons_of_mem n hm)
      simp [firstFaultIn?, hfirst, hrest]

end

/-- **The surface of a tree without faults.** It always exists. Its classes are exactly those of the
tree that have a public name, wherever they stand; the methods of a name are those of the deepest such
class, and among the deepest of the last one: the public functions in its body, decorated or not, that
are not asynchronous. The functions are those of the statements of the root. -/
theorem surface_exact (n : Node) (h : n.Faultless) :
    ∃ s, n.surface = .ok s ∧
      (∀ name, name ∈ s.classes.keySet ↔ IsPublicName name ∧ ∃ path c, n.ClassAt name path c) ∧
      (∀ name ms, s.classes.get? name = some ms ↔
        IsPublicName name ∧ ∃ path c, n.LastClassAt name path c ∧
          ∀ method, method ∈ ms ↔ IsPublicName method ∧
            ∃ body, c.body? = some body ∧ ∃ statement ∈ body.children, statement.Defines method) ∧
      ∀ name, name ∈ s.functions ↔
        IsPublicName name ∧ ∃ statement ∈ n.children, statement.Defines name := by
  refine ⟨n.symbols, ?_, fun name => mem_keySet_classes, fun name ms => ?_, fun name => mem_functionsOf⟩
  · rw [surface, firstFault?_of_faultless n h]
  · rw [get?_classes_eq_some_iff]
    simp only [← mem_methods]
    constructor
    · rintro ⟨hpublic, path, c, hlast, rfl⟩
      exact ⟨hpublic, path, c, hlast, fun method => Iff.rfl⟩
    · rintro ⟨hpublic, path, c, hlast, hms⟩
      exact ⟨hpublic, path, c, hlast, NameSet.ext_mem fun method => (hms method).symm⟩

/-- A class with some statements in its body. -/
def classOf (name : String) (statements : List Node) : Node :=
  ofChildren (.classDefinition name) ⟨0, 0⟩ [ofChildren .block ⟨0, 0⟩ statements]

/-- A function without statements. -/
def functionOf (name : String) (isAsync : Bool) : Node :=
  ofChildren (.function name isAsync) ⟨0, 0⟩ [leaf .block ⟨0, 0⟩]

/-- Four classes of one name: at the top, under decorators, in a private class, and in a compound
statement. The last two are the deepest. -/
def nestedClasses : Node :=
  ofChildren .module ⟨0, 0⟩ [
    classOf "A" [functionOf "f" false],
    ofChildren .decorated ⟨0, 0⟩ [classOf "A" [functionOf "g" false]],
    classOf "_B" [classOf "A" [functionOf "h" false]],
    ofChildren .compound ⟨0, 0⟩ [ofChildren .block ⟨0, 0⟩ [
      classOf "A" [ofChildren .decorated ⟨0, 0⟩ [functionOf "__init__" false], functionOf "k" true]]],
    functionOf "main" false]

/-- The class in the compound statement counts. -/
theorem surface_nestedClasses :
    nestedClasses.Faultless ∧
      nestedClasses.surface = .ok ⟨.insert ∅ "A" (.ofList ["__init__"]), .ofList ["main"]⟩ ∧
      ∃ path c, nestedClasses.LastClassAt "A" path c ∧
        ∃ body, c.body? = some body ∧ ∃ statement ∈ body.children, statement.Defines "__init__" := by
  have hfaultless : nestedClasses.Faultless := by decide +kernel
  have hsurface : nestedClasses.surface =
      .ok ⟨.insert ∅ "A" (.ofList ["__init__"]), .ofList ["main"]⟩ := by decide +kernel
  obtain ⟨s, hs, _, hclasses, _⟩ := surface_exact nestedClasses hfaultless
  obtain rfl := Except.ok.inj (hs.symm.trans hsurface)
  obtain ⟨_, path, c, hlast, hmethods⟩ := (hclasses "A" _).mp (NameMap.get?_insert_self _ _ _)
  have hinit := (hmethods "__init__").mp (NameSet.mem_ofList.mpr List.mem_cons_self)
  exact ⟨hfaultless, hsurface, path, c, hlast, hinit.2⟩

end Node

end ApiSurface.Python
