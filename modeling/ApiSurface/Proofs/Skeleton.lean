import ApiSurface.Proofs.DocumentOrder
import ApiSurface.Proofs.TokenReading

/-! Definition skeletons: sources that consist of functions, classes and conditions with bodies, and of
statements that do nothing. They are printed one header to a line, each body indented by the same
width. The syntax tree of a skeleton is given, up to places in the text, and the surface of that tree is
read off the skeleton. -/

namespace ApiSurface.Python

/-! ### Skeletons and their text -/

/-- A name: a word that is no keyword where an operand may begin. -/
structure Identifier where
  text : String
  isWord : Reader.IsWord text
  notKeyword : text ∉ operandKeywords

theorem Identifier.ne_keyword (name : Identifier) {word : String} (h : word ∈ operandKeywords) :
    name.text ≠ word := by
  rintro rfl
  exact name.notKeyword h

inductive Form where
  | function
  | asyncFunction
  | classDefinition
deriving DecidableEq

/-- What stands on a line. -/
inductive Header where
  | pass
  | decorator (name : Identifier)
  | definition (form : Form) (name : Identifier)
  | conditional (condition : Identifier)

/-- What stands before the name of a definition. -/
def Form.opening : Form → String
  | function => "def "
  | asyncFunction => "async def "
  | classDefinition => "class "

/-- What stands after the name of a definition. -/
def Form.closing : Form → String
  | function | asyncFunction => "():"
  | classDefinition => ":"

def Header.text : Header → String
  | pass => "pass"
  | decorator name => "@" ++ name.text
  | definition form name => form.opening ++ name.text ++ form.closing
  | conditional condition => "if " ++ condition.text ++ ":"

theorem conditional_text_append (condition : Identifier) (cs : List Char) :
    (Header.conditional condition).text.toList ++ cs =
      "if".toList ++ ' ' :: (condition.text.toList ++ ':' :: cs) := by
  simp [Header.text]

theorem decorator_text_append (name : Identifier) (cs : List Char) :
    (Header.decorator name).text.toList ++ cs = '@' :: (name.text.toList ++ cs) := by
  simp [Header.text]

/-- A line: how far it is indented, and what stands on it. -/
structure Line where
  indent : Nat
  header : Header

def Line.text (l : Line) : String :=
  String.ofList (List.replicate l.indent ' ') ++ l.header.text ++ "\n"

/-- A statement of a skeleton. Bodies are not empty. -/
inductive Skeleton where
  | pass
  | definition (decorators : List Identifier) (form : Form) (name : Identifier) (first : Skeleton)
      (others : List Skeleton)
  | conditional (condition : Identifier) (first : Skeleton) (others : List Skeleton)

namespace Skeleton

mutual

/-- The lines of a statement that is indented so far. -/
def lines (width indent : Nat) : Skeleton → List Line
  | pass => [⟨indent, .pass⟩]
  | definition decorators form name first others =>
    decorators.map (⟨indent, .decorator ·⟩) ++ ⟨indent, .definition form name⟩ ::
      (first.lines width (indent + width) ++ linesOf width (indent + width) others)
  | conditional condition first others =>
    ⟨indent, .conditional condition⟩ ::
      (first.lines width (indent + width) ++ linesOf width (indent + width) others)

def linesOf (width indent : Nat) : List Skeleton → List Line
  | [] => []
  | s :: ss => s.lines width indent ++ linesOf width indent ss

end

theorem linesOf_cons (width indent : Nat) (s : Skeleton) (ss : List Skeleton) :
    linesOf width indent (s :: ss) = s.lines width indent ++ linesOf width indent ss := by
  rw [linesOf]

/-- A statement begins with a line that is indented as far as it. -/
theorem exists_lines_cons {width : Nat} (s : Skeleton) (indent : Nat) :
    ∃ header ls, s.lines width indent = ⟨indent, header⟩ :: ls := by
  cases s with
  | pass => exact ⟨_, _, lines.eq_1 width indent⟩
  | conditional condition first others => exact ⟨_, _, by rw [lines]⟩
  | definition decorators form name first others =>
      rw [lines]
      cases decorators with
      | nil => exact ⟨_, _, List.nil_append _⟩
      | cons decorator decorators => exact ⟨_, _, by rw [List.map_cons, List.cons_append]⟩

/-- The text of statements, with each body indented further by the width. -/
def text (width : Nat) (statements : List Skeleton) : String :=
  String.join ((linesOf width 0 statements).map Line.text)

/-! ### What a skeleton declares -/

/-- The name of a function that is not asynchronous. -/
def function? : Skeleton → Option String
  | definition _ .function name _ _ => some name.text
  | _ => none

end Skeleton

/-- A class of a skeleton: how deep it stands, its name, and its body. -/
structure ClassSite where
  depth : Nat
  name : String
  body : List Skeleton

namespace Skeleton

mutual

/-- The classes of a statement at some depth, in document order. A body counts two levels, and
decorators one. -/
def classes (depth : Nat) : Skeleton → List ClassSite
  | pass => []
  | definition decorators form name first others =>
    let own := if decorators.isEmpty then depth else depth + 1
    let inner := first.classes (own + 2) ++ classesOf (own + 2) others
    if form = .classDefinition then ⟨own, name.text, first :: others⟩ :: inner else inner
  | conditional _ first others => first.classes (depth + 2) ++ classesOf (depth + 2) others

def classesOf (depth : Nat) : List Skeleton → List ClassSite
  | [] => []
  | s :: ss => s.classes depth ++ classesOf depth ss

end

end Skeleton

/-! ### The syntax tree of a skeleton -/

def Form.kind (name : String) : Form → Kind
  | function => .function name false
  | asyncFunction => .function name true
  | classDefinition => .classDefinition name

/-- A node with a body of statements, at no particular place. -/
def Node.bodied (kind : Kind) (statements : List Node) : Node :=
  ofChildren kind ⟨0, 0⟩ [ofChildren .block ⟨0, 0⟩ statements]

namespace Skeleton

mutual

/-- The syntax tree of a statement. -/
def node : Skeleton → Node
  | pass => Node.leaf .simple ⟨0, 0⟩
  | definition decorators form name first others =>
    let definition := Node.bodied (form.kind name.text) (first.node :: nodes others)
    if decorators.isEmpty then definition else Node.ofChildren .decorated ⟨0, 0⟩ [definition]
  | conditional _ first others => Node.bodied .compound (first.node :: nodes others)

def nodes : List Skeleton → List Node
  | [] => []
  | s :: ss => s.node :: nodes ss

end

/-- The syntax tree of a text. -/
def tree (statements : List Skeleton) : Node :=
  Node.ofChildren .module ⟨0, 0⟩ (nodes statements)

theorem nodes_cons (s : Skeleton) (ss : List Skeleton) : nodes (s :: ss) = s.node :: nodes ss := by
  rw [nodes]

theorem nodes_eq_map (ss : List Skeleton) : nodes ss = ss.map node := by
  induction ss with
  | nil => rw [nodes, List.map_nil]
  | cons s ss ih => rw [nodes, ih, List.map_cons]

end Skeleton

/-! ### The tree has no faults -/

theorem Node.faulty_ofChildren {kind : Kind} {start : Position} {children : List Node}
    (hkind : kind.isFault = false) (h : ∀ n ∈ children, n.faulty = false) :
    (ofChildren kind start children).faulty = false := by
  simpa [ofChildren, faulty, hkind] using h

theorem Node.faulty_bodied {kind : Kind} {statements : List Node} (hkind : kind.isFault = false)
    (h : ∀ n ∈ statements, n.faulty = false) : (bodied kind statements).faulty = false := by
  have hblock : (ofChildren .block ⟨0, 0⟩ statements).faulty = false := faulty_ofChildren rfl h
  exact faulty_ofChildren hkind (by simpa using hblock)

namespace Skeleton

mutual

theorem faulty_node : ∀ s : Skeleton, s.node.faulty = false
  | pass => by
      rw [node]
      rfl
  | definition decorators form name first others => by
      have hbody : (Node.bodied (form.kind name.text) (first.node :: nodes others)).faulty = false :=
        Node.faulty_bodied (by cases form <;> rfl)
          (List.forall_mem_cons.mpr ⟨faulty_node first, faulty_nodes others⟩)
      rw [node]
      split
      · exact hbody
      · exact Node.faulty_ofChildren rfl (by simpa using hbody)
  | conditional condition first others => by
      rw [node]
      exact Node.faulty_bodied rfl
        (List.forall_mem_cons.mpr ⟨faulty_node first, faulty_nodes others⟩)

theorem faulty_nodes : ∀ ss : List Skeleton, ∀ n ∈ nodes ss, n.faulty = false
  | [] => by
      rw [nodes]
      simp
  | s :: ss => by
      rw [nodes]
      exact List.forall_mem_cons.mpr ⟨faulty_node s, faulty_nodes ss⟩

end

/-! ### What the tree defines -/

theorem defines_node_iff {s : Skeleton} {name : String} :
    s.node.Defines name ↔ s.function? = some name := by
  cases s with
  | pass => simp [node, Node.Defines, Node.leaf, Node.ofChildren, Node.kind, function?]
  | conditional condition first others =>
      simp [node, Node.Defines, Node.bodied, Node.ofChildren, Node.kind, function?]
  | definition decorators form identifier first others =>
      rw [node]
      split <;> cases form <;>
        simp [Node.Defines, Node.bodied, Node.ofChildren, Node.kind, Node.definition?, Node.children,
          Form.kind, function?]

theorem mem_functions_tree {statements : List Skeleton} {name : String} :
    name ∈ (tree statements).symbols.functions ↔
      IsPublicName name ∧ ∃ s ∈ statements, s.function? = some name := by
  change name ∈ Node.functionsOf (nodes statements) ↔ _
  rw [Node.mem_functionsOf, nodes_eq_map]
  simp only [List.mem_map, exists_exists_and_eq_and, defines_node_iff]

end Skeleton

def ClassSite.node (c : ClassSite) : Node :=
  .bodied (.classDefinition c.name) (Skeleton.nodes c.body)

theorem ClassSite.mem_methods_node {c : ClassSite} {name : String} :
    name ∈ c.node.methods ↔ IsPublicName name ∧ ∃ s ∈ c.body, s.function? = some name := by
  have hbody : c.node.body? = some (Node.ofChildren .block ⟨0, 0⟩ (Skeleton.nodes c.body)) := rfl
  rw [Node.mem_methods, hbody]
  simp [Node.ofChildren, Node.children, Skeleton.nodes_eq_map, Skeleton.defines_node_iff]

namespace Skeleton

/-! ### The classes of the tree -/

/-- Of nodes in document order, the classes with a name: how deep they stand, and the nodes. -/
def levelled (name : String) (xs : List Placed) : List (Nat × Node) :=
  (xs.filter (·.node.kind = .classDefinition name)).map fun x => (x.address.length, x.node)

def sites (name : String) (cs : List ClassSite) : List (Nat × Node) :=
  (cs.filter (·.name = name)).map fun c => (c.depth, c.node)

theorem levelled_append (name : String) (xs ys : List Placed) :
    levelled name (xs ++ ys) = levelled name xs ++ levelled name ys := by
  simp [levelled]

theorem sites_append (name : String) (cs ds : List ClassSite) :
    sites name (cs ++ ds) = sites name cs ++ sites name ds := by
  simp [sites]

theorem sites_cons (name : String) (c : ClassSite) (cs : List ClassSite) :
    sites name (c :: cs) = sites name [c] ++ sites name cs :=
  sites_append name [c] cs

theorem levelled_cons_of_ne {name : String} {x : Placed} (h : x.node.kind ≠ .classDefinition name)
    (xs : List Placed) : levelled name (x :: xs) = levelled name xs := by
  simp [levelled, h]

theorem levelled_bodied (name : String) (kind : Kind) (statements : List Node) (address : Address) :
    levelled name ((Node.bodied kind statements).documentOrder address) =
      levelled name [⟨address, Node.bodied kind statements⟩] ++
        levelled name (Node.documentOrderFrom (address ++ [0]) 0 statements) := by
  have hblock : (Node.ofChildren .block ⟨0, 0⟩ statements).kind ≠ .classDefinition name := by
    intro h
    cases h
  rw [← List.singleton_append, Node.documentOrder_eq, ← List.singleton_append, levelled_append]
  congr 1
  rw [Node.bodied, Node.ofChildren, Node.children, Node.documentOrderFrom, Node.documentOrderFrom,
    List.append_nil, Node.documentOrder_eq, levelled_cons_of_ne hblock]
  rfl

theorem levelled_decorated (name : String) (definition : Node) (address : Address) :
    levelled name ((Node.ofChildren .decorated ⟨0, 0⟩ [definition]).documentOrder address) =
      levelled name (definition.documentOrder (address ++ [0])) := by
  have hdecorated : (Node.ofChildren .decorated ⟨0, 0⟩ [definition]).kind ≠ .classDefinition name := by
    intro h
    cases h
  rw [Node.documentOrder_eq, levelled_cons_of_ne hdecorated, Node.ofChildren, Node.children,
    Node.documentOrderFrom, Node.documentOrderFrom, List.append_nil]

theorem levelled_definition {name : String} {form : Form} {own : String} {body : List Skeleton}
    {address : Address} {inner : List ClassSite}
    (hbody : levelled name (Node.documentOrderFrom (address ++ [0]) 0 (nodes body)) =
      sites name inner) :
    levelled name ((Node.bodied (form.kind own) (nodes body)).documentOrder address) =
      sites name (if form = .classDefinition then ⟨address.length, own, body⟩ :: inner else inner) := by
  rw [levelled_bodied, hbody]
  cases form with
  | function => rfl
  | asyncFunction => rfl
  | classDefinition =>
      rw [if_pos rfl, sites_cons]
      congr 1
      by_cases hname : own = name <;>
        simp [levelled, sites, Node.bodied, Node.ofChildren, Node.kind, Form.kind, ClassSite.node, hname]

theorem levelled_body {name : String} {first : Skeleton} {others : List Skeleton}
    (hfirst : ∀ address : Address, levelled name (first.node.documentOrder address) =
      sites name (first.classes address.length))
    (hothers : ∀ (address : Address) (index : Nat),
      levelled name (Node.documentOrderFrom address index (nodes others)) =
        sites name (classesOf (address.length + 1) others)) (address : Address) :
    levelled name (Node.documentOrderFrom (address ++ [0]) 0 (nodes (first :: others))) =
      sites name (first.classes (address.length + 2) ++ classesOf (address.length + 2) others) := by
  have hlength : (address ++ [0]).length = address.length + 1 := by simp
  have hlength' : (address ++ [0] ++ [0]).length = address.length + 2 := by simp
  rw [nodes, Node.documentOrderFrom, levelled_append, sites_append, hfirst, hothers, hlength, hlength']

mutual

theorem levelled_node (name : String) : ∀ (s : Skeleton) (address : Address),
    levelled name (s.node.documentOrder address) = sites name (s.classes address.length)
  | pass, address => by
      rw [node, classes]
      rfl
  | conditional condition first others, address => by
      have hbody := levelled_body (fun address => levelled_node name first address)
        (fun address index => levelled_nodes name others address index) address
      rw [nodes] at hbody
      rw [node, classes, levelled_bodied, hbody]
      rfl
  | definition decorators form identifier first others, address => by
      have hbody := levelled_body (fun address => levelled_node name first address)
        (fun address index => levelled_nodes name others address index)
      rw [node, classes, ← nodes_cons]
      by_cases hplain : decorators.isEmpty = true
      · simp only [hplain, if_true]
        exact levelled_definition (hbody address)
      · have hlength : (address ++ [0]).length = address.length + 1 := by simp
        simp only [hplain, Bool.false_eq_true, if_false]
        rw [levelled_decorated, levelled_definition (hbody (address ++ [0])), hlength]

theorem levelled_nodes (name : String) : ∀ (ss : List Skeleton) (address : Address) (index : Nat),
    levelled name (Node.documentOrderFrom address index (nodes ss)) =
      sites name (classesOf (address.length + 1) ss)
  | [], address, index => by
      rw [nodes, classesOf]
      rfl
  | s :: ss, address, index => by
      have hlength : (address ++ [index]).length = address.length + 1 := by simp
      rw [nodes, classesOf, Node.documentOrderFrom, levelled_append, sites_append,
        levelled_node name s, levelled_nodes name ss, hlength]

end

theorem levelled_tree (name : String) (statements : List Skeleton) :
    ((tree statements).classesInOrder name).map (fun x => (x.address.length, x.node)) =
      sites name (classesOf 1 statements) := by
  have htree : (tree statements).kind ≠ .classDefinition name := by
    intro h
    cases h
  have hnodes : (tree statements).children = nodes statements := rfl
  change levelled name ((tree statements).documentOrder []) = _
  rw [Node.documentOrder_eq, levelled_cons_of_ne htree, hnodes, levelled_nodes]
  rfl

/-- The class of a name that counts: of greatest depth, and among those the last. -/
def Counts (statements : List Skeleton) (name : String) (c : ClassSite) : Prop :=
  LastDeepest ClassSite.depth ((classesOf 1 statements).filter (·.name = name)) c

theorem mem_classes_tree {statements : List Skeleton} {name : String} :
    name ∈ (tree statements).symbols.classes.keySet ↔
      IsPublicName name ∧ ∃ c ∈ classesOf 1 statements, c.name = name := by
  have hsites : ((tree statements).classesInOrder name).isEmpty =
      ((classesOf 1 statements).filter (·.name = name)).isEmpty := by
    have hmap := congrArg List.isEmpty (levelled_tree name statements)
    rwa [sites, List.isEmpty_map, List.isEmpty_map] at hmap
  rw [Node.mem_keySet_classes]
  apply and_congr_right
  intro _
  calc (∃ path c, (tree statements).ClassAt name path c)
      ↔ ∃ x, x ∈ (tree statements).classesInOrder name :=
        ⟨fun ⟨path, c, hclass⟩ => ⟨⟨path, c⟩, Node.mem_classesInOrder.mpr hclass⟩,
          fun ⟨x, hx⟩ => ⟨x.address, x.node, Node.mem_classesInOrder.mp hx⟩⟩
    _ ↔ ∃ c, c ∈ (classesOf 1 statements).filter (·.name = name) := by
        rw [← List.isEmpty_eq_false_iff_exists_mem, hsites, List.isEmpty_eq_false_iff_exists_mem]
    _ ↔ ∃ c ∈ classesOf 1 statements, c.name = name := by simp

theorem get?_classes_tree {statements : List Skeleton} {name : String} {ms : NameSet} :
    (tree statements).symbols.classes.get? name = some ms ↔
      IsPublicName name ∧ ∃ c, Counts statements name c ∧
        ∀ m, m ∈ ms ↔ IsPublicName m ∧ ∃ s ∈ c.body, s.function? = some m := by
  have hmethods : ∀ c : ClassSite, c.node.methods = ms ↔
      ∀ m, m ∈ ms ↔ IsPublicName m ∧ ∃ s ∈ c.body, s.function? = some m := by
    intro c
    simp only [← ClassSite.mem_methods_node]
    exact ⟨fun h m => h ▸ Iff.rfl, fun h => NameSet.ext_mem fun m => (h m).symm⟩
  rw [Node.get?_classes_eq_some_iff]
  apply and_congr_right
  intro _
  calc (∃ path c, (tree statements).LastClassAt name path c ∧ c.methods = ms)
      ↔ ∃ x, LastDeepest (·.address.length) ((tree statements).classesInOrder name) x ∧
          x.node.methods = ms := by
        simp only [← Node.lastClassAt_iff]
        exact ⟨fun ⟨path, c, h⟩ => ⟨⟨path, c⟩, h⟩, fun ⟨x, h⟩ => ⟨x.address, x.node, h⟩⟩
    _ ↔ ∃ p, LastDeepest Prod.fst (sites name (classesOf 1 statements)) p ∧ p.2.methods = ms := by
        rw [← levelled_tree]
        simp only [lastDeepest_map]
        exact ⟨fun ⟨x, hx, hms⟩ => ⟨_, ⟨x, rfl, hx⟩, hms⟩,
          fun ⟨_, ⟨x, hp, hx⟩, hms⟩ => ⟨x, hx, by rwa [← hp] at hms⟩⟩
    _ ↔ ∃ c, Counts statements name c ∧ c.node.methods = ms := by
        simp only [sites, lastDeepest_map]
        exact ⟨fun ⟨_, ⟨c, hp, hc⟩, hms⟩ => ⟨c, hc, by rwa [← hp] at hms⟩,
          fun ⟨c, hc, hms⟩ => ⟨_, ⟨c, rfl, hc⟩, hms⟩⟩
    _ ↔ ∃ c, Counts statements name c ∧
          ∀ m, m ∈ ms ↔ IsPublicName m ∧ ∃ s ∈ c.body, s.function? = some m := by
        simp only [hmethods]

end Skeleton

/-! ### Places do not matter -/

namespace Node

mutual

/-- The tree without the places in the text. -/
def unplaced : Node → Node
  | mk kind _ faulty children => mk kind ⟨0, 0⟩ faulty (unplacedAll children)

def unplacedAll : List Node → List Node
  | [] => []
  | n :: ns => n.unplaced :: unplacedAll ns

end

theorem unplacedAll_eq_map (ns : List Node) : unplacedAll ns = ns.map unplaced := by
  induction ns with
  | nil => rw [unplacedAll, List.map_nil]
  | cons n ns ih => rw [unplacedAll, ih, List.map_cons]

@[simp]
theorem kind_unplaced (n : Node) : n.unplaced.kind = n.kind := by
  cases n
  rw [unplaced, kind, kind]

@[simp]
theorem faulty_unplaced (n : Node) : n.unplaced.faulty = n.faulty := by
  cases n
  rw [unplaced, faulty, faulty]

@[simp]
theorem children_unplaced (n : Node) : n.unplaced.children = n.children.map unplaced := by
  cases n
  rw [unplaced, children, children, unplacedAll_eq_map]

@[simp]
theorem unplaced_ofChildren (kind : Kind) (start : Position) (ns : List Node) :
    (ofChildren kind start ns).unplaced = ofChildren kind ⟨0, 0⟩ (ns.map unplaced) := by
  have hfaulty : (ns.map unplaced).any faulty = ns.any faulty := by
    rw [List.any_map]
    congr 1
    funext n
    exact faulty_unplaced n
  rw [ofChildren, ofChildren, unplaced, unplacedAll_eq_map, hfaulty]

theorem definition?_unplaced (n : Node) : n.unplaced.definition? = n.definition?.map unplaced := by
  rw [definition?, definition?, children_unplaced, List.find?_map]
  congr 2
  funext c
  simp only [Function.comp, kind_unplaced]

theorem body?_unplaced (n : Node) : n.unplaced.body? = n.body?.map unplaced := by
  rw [body?, body?, children_unplaced, List.find?_map]
  congr 2
  funext c
  simp only [Function.comp, kind_unplaced]

theorem function?_unplaced (n : Node) : n.unplaced.function? = n.function? := by
  rw [function?, function?, kind_unplaced]

theorem undecorated_unplaced (n : Node) : n.unplaced.undecorated = n.undecorated.unplaced := by
  rw [undecorated, undecorated, kind_unplaced, definition?_unplaced]
  split
  · cases n.definition? <;> rfl
  · rfl

theorem functionsOf_unplaced (ns : List Node) : functionsOf (ns.map unplaced) = functionsOf ns := by
  rw [functionsOf, functionsOf, List.filterMap_map]
  congr 2
  funext n
  simp only [Function.comp, undecorated_unplaced, function?_unplaced]

theorem methods_unplaced (n : Node) : n.unplaced.methods = n.methods := by
  rw [methods, methods, body?_unplaced]
  cases n.body? with
  | none => rfl
  | some body => exact (congrArg functionsOf (children_unplaced body)).trans (functionsOf_unplaced _)

theorem addClass_unplaced (classes : NameMap NameSet) (n : Node) :
    addClass classes n.unplaced = addClass classes n := by
  rw [addClass, addClass, class?, class?, kind_unplaced, methods_unplaced]

theorem visit_unplaced (classes : NameMap NameSet) (queue : List Node) :
    visit classes (queue.map unplaced) = visit classes queue := by
  induction classes, queue using visit.induct with
  | case1 classes => rw [List.map_nil]
  | case2 classes n queue ih =>
      rw [List.map_cons, visit, visit, addClass_unplaced, children_unplaced, ← List.map_append, ih]

theorem symbols_unplaced (n : Node) : n.unplaced.symbols = n.symbols := by
  have hvisit := visit_unplaced ∅ [n]
  rw [List.map_singleton] at hvisit
  rw [symbols, symbols, hvisit, children_unplaced, functionsOf_unplaced]

end Node

/-- Every tree that is that of a skeleton, up to places, has its surface. -/
theorem Skeleton.surface_of_unplaced {n : Node} {statements : List Skeleton}
    (h : n.unplaced = tree statements) : n.surface = .ok (tree statements).symbols := by
  have hfaulty : n.faulty = false := by
    rw [← Node.faulty_unplaced, h]
    exact Node.faulty_ofChildren rfl (faulty_nodes statements)
  have hkind : n.kind.isFault = false := by
    rw [← Node.kind_unplaced, h]
    rfl
  have hfault : n.firstFault? = none := by
    cases n
    simp only [Node.kind, Node.faulty] at hkind hfaulty
    simp [Node.firstFault?, hkind, hfaulty]
  rw [Node.surface, hfault, ← h, Node.symbols_unplaced]

end ApiSurface.Python
