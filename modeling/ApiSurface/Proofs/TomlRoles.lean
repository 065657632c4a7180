import Mathlib.Data.List.Infix
import ApiSurface.Proofs.TomlTopLevel

/-! The rules by which the parts of a TOML document make up one table, said of paths: what stands at each
path, what a pair or a header finds there, and what it leaves there. A document that keeps to the rules is
put together. -/

namespace ApiSurface.Toml

/-! ### What stands at a path -/

/-- What a path leads to. -/
inductive Role where
  | value
  /-- A table with a header of its own. -/
  | headed
  /-- A table on the way to one with a header. -/
  | implied
  /-- A table made by a dotted key. -/
  | dotted
  /-- Tables in an array; a path goes on into the last of them. -/
  | tables
deriving DecidableEq

/-- What stands at each path below a table. -/
abbrev View : Type := List String → Option Role

namespace View

/-- What stands below a path. -/
def below (σ : View) (base : List String) : View := fun r =>
  if r = [] then none else σ (base ++ r)

/-- The view with that below a path exchanged. -/
def graft (σ : View) (base : List String) (τ : View) : View := fun r =>
  if base <+: r ∧ r ≠ base then τ (r.drop base.length) else σ r

/-- Whether a key may be given a value. A dotted key neither leads through a value or a table with a
header, nor adds to a table that no dotted key has made; and nothing is given twice. -/
structure AllowsPair (σ : View) (path : List String) (key : String) : Prop where
  through : ∀ q, q ≠ [] → q <+: path → q ≠ path → σ q ≠ some .value ∧ σ q ≠ some .headed
  table : path ≠ [] → σ path = none ∨ σ path = some .dotted
  free : σ (path ++ [key]) = none

/-- The view with a value, and the tables that its key makes. -/
def withPair (σ : View) (path : List String) (key : String) : View := fun r =>
  if r = path ++ [key] then some .value
  else if r ≠ [] ∧ r <+: path then some ((σ r).getD .dotted)
  else σ r

/-- Whether a header may stand. It does not lead through a value. A table gets a header only once, and
none if a dotted key has made it; doubled headers make the tables of one array. -/
structure AllowsHeader (σ : View) (path : List String) (key : String) (doubled : Bool) : Prop where
  through : ∀ q, q ≠ [] → q <+: path → σ q ≠ some .value
  free : σ (path ++ [key]) = none ∨ σ (path ++ [key]) = some (if doubled then .tables else .implied)

/-- The view with a header, and the tables that it implies. After a doubled header a new table begins. -/
def withHeader (σ : View) (path : List String) (key : String) (doubled : Bool) : View := fun r =>
  if r = path ++ [key] then some (if doubled then .tables else .headed)
  else if doubled ∧ path ++ [key] <+: r then none
  else if r ≠ [] ∧ r <+: path then some ((σ r).getD .implied)
  else σ r

/-- Whether pairs may stand in a table, one after the other. -/
def AllowsPairs : View → List Pair → Prop
  | _, [] => True
  | σ, p :: pairs =>
    σ.AllowsPair (p.path.map Key.name) p.key.name ∧
      (σ.withPair (p.path.map Key.name) p.key.name).AllowsPairs pairs

def withPairs (σ : View) (pairs : List Pair) : View :=
  pairs.foldl (fun σ p => σ.withPair (p.path.map Key.name) p.key.name) σ

/-- The view with the header of a section. -/
def withHeaderOf (σ : View) (s : Section) : View :=
  σ.withHeader (s.header.path.map Key.name) s.header.key.name s.header.doubled

end View

/-- The path of the table of a section. -/
def Section.base (s : Section) : List String :=
  s.header.path.map Key.name ++ [s.header.key.name]

namespace View

/-- Whether a part of a document may come next. The pairs of a section stand in its own table. -/
def Allows (σ : View) : Part → Prop
  | .pair p => σ.AllowsPair (p.path.map Key.name) p.key.name
  | .block s =>
    σ.AllowsHeader (s.header.path.map Key.name) s.header.key.name s.header.doubled ∧
      ((σ.withHeaderOf s).below s.base).AllowsPairs s.pairs

def add (σ : View) : Part → View
  | .pair p => σ.withPair (p.path.map Key.name) p.key.name
  | .block s => (σ.withHeaderOf s).graft s.base (((σ.withHeaderOf s).below s.base).withPairs s.pairs)

/-- Whether all parts may stand, one after the other. -/
def AllowsAll : View → List Part → Prop
  | _, [] => True
  | σ, p :: parts => σ.Allows p ∧ (σ.add p).AllowsAll parts

/-! The rules can be checked, since a path has only so many beginnings. -/

instance (σ : View) (path : List String) (key : String) : Decidable (σ.AllowsPair path key) :=
  decidable_of_iff
    ((∀ q ∈ path.inits, q ≠ [] → q ≠ path → σ q ≠ some .value ∧ σ q ≠ some .headed) ∧
      (path ≠ [] → σ path = none ∨ σ path = some .dotted) ∧ σ (path ++ [key]) = none)
    ⟨fun h => ⟨fun q hq hpath hne => h.1 q ((List.mem_inits _ _).mpr hpath) hq hne, h.2.1, h.2.2⟩,
      fun h => ⟨fun q hpath hq hne => h.through q hq ((List.mem_inits _ _).mp hpath) hne, h.table, h.free⟩⟩

instance (σ : View) (path : List String) (key : String) (doubled : Bool) :
    Decidable (σ.AllowsHeader path key doubled) :=
  decidable_of_iff
    ((∀ q ∈ path.inits, q ≠ [] → σ q ≠ some .value) ∧
      (σ (path ++ [key]) = none ∨ σ (path ++ [key]) = some (if doubled then .tables else .implied)))
    ⟨fun h => ⟨fun q hq hpath => h.1 q ((List.mem_inits _ _).mpr hpath) hq, h.2⟩,
      fun h => ⟨fun q hpath hq => h.through q hq ((List.mem_inits _ _).mp hpath), h.free⟩⟩

instance decidableAllowsPairs : (σ : View) → (pairs : List Pair) → Decidable (σ.AllowsPairs pairs)
  | _, [] => inferInstanceAs (Decidable True)
  | σ, p :: pairs =>
    have := decidableAllowsPairs (σ.withPair (p.path.map Key.name) p.key.name) pairs
    inferInstanceAs (Decidable (_ ∧ _))

instance (σ : View) : (part : Part) → Decidable (σ.Allows part)
  | .pair _ => inferInstanceAs (Decidable (AllowsPair ..))
  | .block _ => inferInstanceAs (Decidable (_ ∧ _))

instance decidableAllowsAll : (σ : View) → (parts : List Part) → Decidable (σ.AllowsAll parts)
  | _, [] => inferInstanceAs (Decidable True)
  | σ, part :: parts =>
    have := decidableAllowsAll (σ.add part) parts
    inferInstanceAs (Decidable (_ ∧ _))

end View

/-! ### Tables as views -/

namespace Item

def role : Item → Role
  | value .. => .value
  | table .explicit _ _ => .headed
  | table .implied _ _ => .implied
  | table .dotted _ _ => .dotted
  | tables .. => .tables

/-- The entries that a path goes on into. -/
def inner : Item → Entries
  | value .. => []
  | table _ _ es => es
  | tables _ last => last.2

/-- The item with other entries. -/
def withInner (es : Entries) : Item → Item
  | value v span => .value v span
  | table kind span _ => .table kind span es
  | tables earlier last => .tables earlier (last.1, es)

theorem role_withInner (item : Item) (es : Entries) : (item.withInner es).role = item.role := by
  cases item with
  | value v span => rfl
  | table kind span _ => cases kind <;> rfl
  | tables earlier last => rfl

theorem inner_withInner {item : Item} (h : item.role ≠ .value) (es : Entries) :
    (item.withInner es).inner = es := by
  cases item with
  | value v span => exact absurd rfl h
  | table kind span _ => rfl
  | tables earlier last => rfl

theorem exists_of_role_implied {item : Item} (h : item.role = .implied) :
    ∃ span es, item = .table .implied span es := by
  cases item with
  | value v span => cases h
  | table kind span es =>
      cases kind with
      | explicit => cases h
      | implied => exact ⟨span, es, rfl⟩
      | dotted => cases h
  | tables earlier last => cases h

theorem exists_of_role_tables {item : Item} (h : item.role = .tables) :
    ∃ earlier last, item = .tables earlier last := by
  cases item with
  | value v span => cases h
  | table kind span es => cases kind <;> cases h
  | tables earlier last => exact ⟨earlier, last, rfl⟩

end Item

/-- What stands at a path below a table. -/
def roleAt (es : Entries) : View
  | [] => none
  | k :: ks => (lookup k es).bind fun item => if ks = [] then some item.role else roleAt item.inner ks

theorem roleAt_cons_of_none {es : Entries} {k : String} (h : lookup k es = none) (ks : List String) :
    roleAt es (k :: ks) = none := by
  rw [roleAt, h]
  rfl

theorem roleAt_cons_of_some {es : Entries} {k : String} {item : Item} (h : lookup k es = some item)
    (ks : List String) :
    roleAt es (k :: ks) = if ks = [] then some item.role else roleAt item.inner ks := by
  rw [roleAt, h]
  rfl

theorem roleAt_cons_of_ne_nil {es : Entries} {k : String} {item : Item} (h : lookup k es = some item)
    {ks : List String} (hks : ks ≠ []) : roleAt es (k :: ks) = roleAt item.inner ks := by
  rw [roleAt_cons_of_some h, if_neg hks]

theorem roleAt_empty (r : List String) : roleAt [] r = none := by
  cases r with
  | nil => rfl
  | cons k ks => exact roleAt_cons_of_none rfl ks

theorem lookup_append (k : String) (es : Entries) (e : Key × Item) :
    lookup k (es ++ [e]) = (lookup k es).or (if e.1.name = k then some e.2 else none) := by
  rw [lookup, List.find?_append, lookup]
  cases es.find? (fun e => e.1.name == k) with
  | some found => rfl
  | none => by_cases h : e.1.name = k <;> simp [h]

theorem lookup_cons (k : String) (e : Key × Item) (es : Entries) :
    lookup k (e :: es) = if e.1.name = k then some e.2 else lookup k es := by
  by_cases h : e.1.name = k <;> simp [lookup, h]

theorem lookup_replace (k name : String) (item : Item) (es : Entries) :
    lookup k (replace name item es) = if k = name then (lookup name es).map fun _ => item else lookup k es := by
  induction es with
  | nil => simp [lookup, replace]
  | cons e es ih =>
      have hcons : replace name item (e :: es) =
          (if e.1.name == name then (e.1, item) else e) :: replace name item es := rfl
      rw [hcons, lookup_cons, ih, lookup_cons, lookup_cons]
      by_cases hname : e.1.name = name
      · by_cases hk : k = name
        · simp [hname, hk]
        · have hne : ¬name = k := fun heq => hk heq.symm
          simp [hname, hk, hne]
      · by_cases hk : k = name
        · simp [hname, hk]
        · simp [hname, hk]

theorem lookup_erase (k name : String) (es : Entries) :
    lookup k (erase name es) = if k = name then none else lookup k es := by
  induction es with
  | nil => simp [lookup, erase]
  | cons e es ih =>
      by_cases hname : e.1.name = name
      · have herase : erase name (e :: es) = erase name es := by simp [erase, hname]
        by_cases hk : k = name
        · rw [herase, ih, if_pos hk, if_pos hk]
        · have hne : ¬name = k := fun heq => hk heq.symm
          rw [herase, ih, if_neg hk, if_neg hk, lookup_cons, hname, if_neg hne]
      · have herase : erase name (e :: es) = e :: erase name es := by simp [erase, hname]
        rw [herase, lookup_cons, ih, lookup_cons]
        by_cases hk : k = name
        · simp [hk, hname]
        · simp [hk]

/-! ### Going down a path -/

namespace Item

/-- How the table came about that a path goes on into. -/
def kind : Item → TableKind
  | table kind _ _ => kind
  | _ => .explicit

end Item

/-- The table that a path makes where there is none. -/
def madeKind (dotted : Bool) : TableKind :=
  if dotted then .dotted else .implied

def madeRole (dotted : Bool) : Role :=
  if dotted then .dotted else .implied

theorem role_made (dotted : Bool) (es : Entries) :
    (Item.table (madeKind dotted) none es).role = madeRole dotted := by
  cases dotted <;> rfl

theorem descend_cons_of_none {dotted : Bool} {change : TableKind → Entries → Option Entries} {k : Key}
    {ks : List Key} {kind : TableKind} {es : Entries} (h : lookup k.name es = none) :
    descend dotted change (k :: ks) kind es =
      (descend dotted change ks (madeKind dotted) []).map fun inner =>
        es ++ [(k, .table (madeKind dotted) none inner)] := by
  rw [descend, h]
  cases hinner : descend dotted change ks (madeKind dotted) [] with
  | none => exact congrArg (Option.bind · _) hinner
  | some inner => exact congrArg (Option.bind · _) hinner

theorem descend_cons_of_some {dotted : Bool} {change : TableKind → Entries → Option Entries} {k : Key}
    {ks : List Key} {kind : TableKind} {es : Entries} {item : Item} (h : lookup k.name es = some item)
    (hvalue : item.role ≠ .value) (hheaded : dotted = true → item.role ≠ .headed) :
    descend dotted change (k :: ks) kind es =
      (descend dotted change ks item.kind item.inner).map fun inner =>
        replace k.name (item.withInner inner) es := by
  rw [descend, h]
  cases item with
  | value v span => exact absurd rfl hvalue
  | table kind span before =>
      have hopen : (dotted && decide (kind = .explicit)) = false := by
        apply Bool.eq_false_iff.mpr
        intro htrue
        rw [Bool.and_eq_true, decide_eq_true_eq] at htrue
        obtain ⟨hdotted, rfl⟩ := htrue
        exact hheaded hdotted rfl
      change (if (dotted && decide (kind = .explicit)) = true then none else _) = _
      rw [hopen, if_neg Bool.false_ne_true]
      change (descend dotted change ks kind before).bind _ = (descend dotted change ks kind before).map _
      cases descend dotted change ks kind before <;> rfl
  | tables earlier last =>
      obtain ⟨span, before⟩ := last
      change (descend dotted change ks .explicit before).bind _ =
        (descend dotted change ks .explicit before).map _
      cases descend dotted change ks .explicit before <;> rfl

def Role.kind : Role → TableKind
  | implied => .implied
  | dotted => .dotted
  | _ => .explicit

theorem Item.kind_eq (item : Item) : item.kind = item.role.kind := by
  cases item with
  | value v span => rfl
  | table kind span es => cases kind <;> rfl
  | tables earlier last => rfl

/-- A path leads from a table to another one, of the kind `found` with the entries `inner`, and `put` takes
what is made of these back to the whole. -/
structure Descends (dotted : Bool) (path : List Key) (kind : TableKind) (es : Entries) (found : TableKind)
    (inner : Entries) (put : Entries → Entries) : Prop where
  descend_eq : ∀ change, descend dotted change path kind es = (change found inner).map put
  found_nil : path = [] → found = kind
  found_eq : path ≠ [] →
    found = ((roleAt es (path.map Key.name)).map Role.kind).getD (madeKind dotted)
  roleAt_inner : ∀ t, t ≠ [] → roleAt inner t = roleAt es (path.map Key.name ++ t)
  roleAt_put : ∀ made r, roleAt (put made) r =
    if r ≠ [] ∧ r <+: path.map Key.name then some ((roleAt es r).getD (madeRole dotted))
    else if path.map Key.name <+: r then roleAt made (r.drop path.length)
    else roleAt es r

theorem descends_nil (dotted : Bool) (kind : TableKind) (es : Entries) : Descends dotted [] kind es kind es id where
  descend_eq change := by rw [descend, Option.map_id]; rfl
  found_nil _ := rfl
  found_eq h := absurd rfl h
  roleAt_inner _ _ := rfl
  roleAt_put made r := by
    rw [if_neg (fun h => h.1 (List.prefix_nil.mp h.2)), List.map_nil, if_pos List.nil_prefix]
    rfl

/-- One step down a path: `below` are the entries under its first key, and `whole` puts others there. -/
theorem Descends.cons {dotted : Bool} {key : Key} {ks : List Key} {kind kind' found : TableKind}
    {es below inner : Entries} {put whole : Entries → Entries}
    (h : Descends dotted ks kind' below found inner put)
    (hdescend : ∀ change, descend dotted change (key :: ks) kind es =
      (descend dotted change ks kind' below).map whole)
    (hkind : kind' = ((roleAt es [key.name]).map Role.kind).getD (madeKind dotted))
    (hbelow : ∀ q, q ≠ [] → roleAt below q = roleAt es (key.name :: q))
    (hwhole : ∀ made k r, roleAt (whole made) (k :: r) =
      if k = key.name then
        if r = [] then some ((roleAt es [key.name]).getD (madeRole dotted)) else roleAt made r
      else roleAt es (k :: r)) :
    Descends dotted (key :: ks) kind es found inner (whole ∘ put) where
  descend_eq change := by rw [hdescend, h.descend_eq, Option.map_map]
  found_nil hnil := by cases hnil
  found_eq _ := by
    by_cases hks : ks = []
    · rw [h.found_nil hks, hkind, hks]
      rfl
    · rw [h.found_eq hks, hbelow _ (by simpa using hks)]
      rfl
  roleAt_inner t ht := by
    rw [h.roleAt_inner t ht, hbelow _ (by simp [ht])]
    rfl
  roleAt_put made r := by
    cases r with
    | nil =>
        rw [if_neg (fun hr => hr.1 rfl), if_neg (by simp)]
        rfl
    | cons k r =>
        rw [Function.comp, hwhole, List.map_cons]
        by_cases hk : k = key.name
        · subst hk
          simp only [List.cons_prefix_cons, true_and, ne_eq, reduceCtorEq, not_false_eq_true, if_true,
            List.length_cons, List.drop_succ_cons]
          by_cases hr : r = []
          · subst hr
            simp
          · rw [if_neg hr, h.roleAt_put, hbelow r hr]
            simp only [ne_eq, hr, not_false_eq_true, true_and]
        · rw [if_neg hk, if_neg (by simp [hk]), if_neg (by simp [Ne.symm hk])]

/-- What stands in a table after an item has come under a key. -/
abbrev Sets (key : String) (item : Item) (before after : Entries) : Prop :=
  ∀ k t, roleAt after (k :: t) =
    if k = key then if t = [] then some item.role else roleAt item.inner t else roleAt before (k :: t)

theorem roleAt_append {key : Key} {item : Item} {es : Entries} (h : lookup key.name es = none) :
    Sets key.name item es (es ++ [(key, item)]) := by
  intro k r
  by_cases hk : k = key.name
  · subst hk
    have hlookup : lookup key.name (es ++ [(key, item)]) = some item := by rw [lookup_append, h]; simp
    rw [if_pos rfl, roleAt_cons_of_some hlookup]
  · rw [if_neg hk, roleAt, lookup_append, if_neg (fun heq => hk heq.symm), Option.or_none]
    rfl

theorem roleAt_replace {name : String} {item before : Item} {es : Entries} (h : lookup name es = some before) :
    Sets name item es (replace name item es) := by
  intro k r
  by_cases hk : k = name
  · subst hk
    have hlookup : lookup k (replace k item es) = some item := by rw [lookup_replace, if_pos rfl, h]; rfl
    rw [if_pos rfl, roleAt_cons_of_some hlookup]
  · rw [if_neg hk, roleAt, lookup_replace, if_neg hk]
    rfl

theorem roleAt_erase_append {key : Key} {item : Item} {es : Entries} :
    Sets key.name item es (erase key.name es ++ [(key, item)]) := by
  intro k r
  rw [roleAt_append (by rw [lookup_erase, if_pos rfl])]
  by_cases hk : k = key.name
  · rw [if_pos hk, if_pos hk]
  · have hlookup : lookup k (erase key.name es) = lookup k es := by rw [lookup_erase, if_neg hk]
    rw [if_neg hk, if_neg hk, roleAt, roleAt, hlookup]

/-- A path can be gone down that leads through nothing it must not lead through: by induction over the
path. -/
theorem exists_descends (dotted : Bool) (path : List Key) (kind : TableKind) (es : Entries)
    (hthrough : ∀ q, q ≠ [] → q <+: path.map Key.name →
      roleAt es q ≠ some .value ∧ (dotted = true → roleAt es q ≠ some .headed)) :
    ∃ found inner put, Descends dotted path kind es found inner put := by
  induction path generalizing kind es with
  | nil => exact ⟨kind, es, id, descends_nil dotted kind es⟩
  | cons key ks ih =>
      cases hlookup : lookup key.name es with
      | none =>
          obtain ⟨found, inner, put, h⟩ := ih (madeKind dotted) [] fun q _ _ => by simp [roleAt_empty]
          have hnone : roleAt es [key.name] = none := roleAt_cons_of_none hlookup []
          refine ⟨found, inner, _, h.cons (fun change => descend_cons_of_none hlookup) ?_ (fun q _ => ?_)
            fun made k r => ?_⟩
          · rw [hnone]
            rfl
          · rw [roleAt_empty, roleAt_cons_of_none hlookup]
          · rw [roleAt_append hlookup, hnone, role_made]
            rfl
      | some item =>
          have hrole : roleAt es [key.name] = some item.role := roleAt_cons_of_some hlookup []
          obtain ⟨hvalue, hheaded⟩ := hthrough [key.name] (by simp) (by simp)
          rw [hrole, ne_eq, Option.some.injEq] at hvalue
          have hopen : dotted = true → item.role ≠ .headed := fun hdotted heq =>
            hheaded hdotted (by rw [hrole, heq])
          have hbelow : ∀ q, q ≠ [] → roleAt item.inner q = roleAt es (key.name :: q) := fun q hq =>
            (roleAt_cons_of_ne_nil hlookup hq).symm
          obtain ⟨found, inner, put, h⟩ := ih item.kind item.inner fun q hq hks => by
            rw [hbelow q hq]
            exact hthrough (key.name :: q) (by simp) (by simpa using hks)
          refine ⟨found, inner, _, h.cons (fun change => descend_cons_of_some hlookup hvalue hopen) ?_ hbelow
            fun made k r => ?_⟩
          · rw [hrole, item.kind_eq]
            rfl
          · rw [roleAt_replace hlookup, hrole, item.role_withInner, Item.inner_withInner hvalue]
            rfl

/-! ### Keeping to the rules -/

theorem lookup_of_roleAt_eq_none {es : Entries} {k : String} (h : roleAt es [k] = none) :
    lookup k es = none := by
  cases hlookup : lookup k es with
  | none => rfl
  | some item =>
      rw [roleAt_cons_of_some hlookup] at h
      cases h

theorem not_append_singleton_prefix {path : List String} {key : String} {r : List String} (h : r <+: path) :
    ¬path ++ [key] <+: r := by
  intro hlong
  have hlength := (hlong.trans h).length_le
  rw [List.length_append, List.length_singleton] at hlength
  omega

/-- What stands where, after an item has come under a key of the table that a path leads to. -/
theorem Descends.roleAt_put_item {dotted : Bool} {path : List Key} {kind found : TableKind}
    {es inner made : Entries} {put : Entries → Entries} (hd : Descends dotted path kind es found inner put)
    {key : String} {item : Item} (hmade : Sets key item inner made) (r : List String) :
    roleAt (put made) r =
      if r = path.map Key.name ++ [key] then some item.role
      else if path.map Key.name ++ [key] <+: r then roleAt item.inner (r.drop (path.length + 1))
      else if r ≠ [] ∧ r <+: path.map Key.name then some ((roleAt es r).getD (madeRole dotted))
      else roleAt es r := by
  rw [hd.roleAt_put]
  by_cases hon : r ≠ [] ∧ r <+: path.map Key.name
  · have hshort : ¬path.map Key.name ++ [key] <+: r := not_append_singleton_prefix hon.2
    have hne : r ≠ path.map Key.name ++ [key] := fun heq => hshort (heq ▸ List.prefix_rfl)
    rw [if_pos hon, if_neg hne, if_neg hshort, if_pos hon]
  · rw [if_neg hon, if_neg hon]
    by_cases hbelow : path.map Key.name <+: r
    · obtain ⟨t, rfl⟩ := hbelow
      have hdrop : (path.map Key.name ++ t).drop path.length = t := List.drop_left' (by simp)
      rw [if_pos (List.prefix_append _ _), hdrop]
      cases t with
      | nil =>
          have hnil : path.map Key.name = [] := by simpa using hon
          rw [hnil, if_neg (by simp), if_neg (by simp)]
          rfl
      | cons k t =>
          rw [hmade]
          by_cases hk : k = key
          · subst hk
            have hdrop' : (path.map Key.name ++ k :: t).drop (path.length + 1) = t := by
              rw [← List.drop_drop, hdrop]
              rfl
            simp [hdrop']
          · have hshort : ¬path.map Key.name ++ [key] <+: path.map Key.name ++ k :: t := by
              simp [List.prefix_append_right_inj, Ne.symm hk]
            have hne : path.map Key.name ++ k :: t ≠ path.map Key.name ++ [key] := by simp [hk]
            rw [if_neg hk, if_neg hne, if_neg hshort, hd.roleAt_inner _ (List.cons_ne_nil _ _)]
    · have hshort : ¬path.map Key.name ++ [key] <+: r := fun h => hbelow ((List.prefix_append _ _).trans h)
      have hne : r ≠ path.map Key.name ++ [key] := fun heq => hshort (heq ▸ List.prefix_rfl)
      rw [if_neg hbelow, if_neg hne, if_neg hshort]

/-- A pair that keeps to the rules is put into the table. -/
theorem addPair_of_allows {es : Entries} {p : Pair}
    (h : (roleAt es).AllowsPair (p.path.map Key.name) p.key.name) :
    ∃ es', addPair es p = some es' ∧ roleAt es' = (roleAt es).withPair (p.path.map Key.name) p.key.name := by
  obtain ⟨found, inner, put, hd⟩ := exists_descends true p.path .explicit es fun q hq hpath => by
    by_cases heq : q = p.path.map Key.name
    · rcases h.table (heq ▸ hq) with hnone | hdotted
      · simp [heq, hnone]
      · simp [heq, hdotted]
    · have hthrough := h.through q hq hpath heq
      exact ⟨hthrough.1, fun _ => hthrough.2⟩
  have hlookup : lookup p.key.name inner = none := by
    apply lookup_of_roleAt_eq_none
    rw [hd.roleAt_inner _ (List.cons_ne_nil _ _), h.free]
  have hfound : (decide (found = .dotted) == p.path.isEmpty) = false := by
    by_cases hnil : p.path = []
    · rw [hd.found_nil hnil, hnil]
      rfl
    · have hdotted : found = .dotted := by
        rw [hd.found_eq hnil]
        rcases h.table (by simpa using hnil) with hnone | hdotted
        · rw [hnone]
          rfl
        · rw [hdotted]
          rfl
      simp [hdotted, hnil]
  have hadd : addPair es p = some (put (inner ++ [(p.key, .value p.value p.span)])) := by
    rw [addPair, hd.descend_eq, Pair.addTo, hfound, if_neg Bool.false_ne_true, hlookup]
    rfl
  refine ⟨_, hadd, ?_⟩
  funext r
  rw [hd.roleAt_put_item (roleAt_append hlookup), View.withPair]
  by_cases hkey : r = p.path.map Key.name ++ [p.key.name]
  · rw [if_pos hkey, if_pos hkey]
    rfl
  · rw [if_neg hkey, if_neg hkey]
    by_cases hbelow : p.path.map Key.name ++ [p.key.name] <+: r
    · -- Nothing stands below a value, and nothing stood there before it.
      have hon : ¬(r ≠ [] ∧ r <+: p.path.map Key.name) := fun hon => not_append_singleton_prefix hon.2 hbelow
      obtain ⟨t, rfl⟩ := hbelow
      have hnone : roleAt inner (p.key.name :: t) = none := roleAt_cons_of_none hlookup t
      rw [hd.roleAt_inner _ (List.cons_ne_nil _ _)] at hnone
      rw [if_pos (List.prefix_append _ _), if_neg hon, List.append_assoc]
      exact (roleAt_empty _).trans hnone.symm
    · rw [if_neg hbelow]
      rfl

/-- So are pairs, one after the other. -/
theorem foldlM_addPair_of_allows {es : Entries} {pairs : List Pair} (h : (roleAt es).AllowsPairs pairs) :
    ∃ es', pairs.foldlM addPair es = some es' ∧ roleAt es' = (roleAt es).withPairs pairs := by
  induction pairs generalizing es with
  | nil => exact ⟨es, rfl, rfl⟩
  | cons p pairs ih =>
      obtain ⟨next, hnext, hview⟩ := addPair_of_allows h.1
      have hlater := h.2
      rw [← hview] at hlater
      obtain ⟨es', hes', hview'⟩ := ih hlater
      refine ⟨es', ?_, ?_⟩
      · rw [List.foldlM_cons, hnext]
        exact hes'
      · rw [hview', hview]
        rfl

/-- A section that finds no table of its name, or one that it may go on with, starts from the entries
`before`; with what its pairs make of them, it comes under its name. -/
theorem Section.addTo_of_role {s : Section} {parent : Entries}
    (h : roleAt parent [s.header.key.name] = none ∨
      roleAt parent [s.header.key.name] = some (if s.header.doubled then .tables else .implied)) :
    ∃ before : Entries,
      (∀ t, t ≠ [] → roleAt before t =
        if s.header.doubled then none else roleAt parent (s.header.key.name :: t)) ∧
      ∀ es, s.pairs.foldlM addPair before = some es → ∃ (made : Entries) (item : Item),
        s.addTo parent = some made ∧ item.role = (if s.header.doubled then .tables else .headed) ∧
        item.inner = es ∧ Sets s.header.key.name item parent made := by
  cases hlookup : lookup s.header.key.name parent with
  | none =>
      refine ⟨[], fun t _ => ?_, fun es hes => ?_⟩
      · rw [roleAt_empty, roleAt_cons_of_none hlookup, ite_self]
      · cases hdoubled : s.header.doubled with
        | false =>
            refine ⟨_, .table .explicit (some s.span) es, ?_, rfl, rfl, roleAt_append hlookup⟩
            rw [Section.addTo, hlookup, hdoubled]
            exact congrArg (Option.bind · _) hes
        | true =>
            refine ⟨_, .tables [] (s.span, es), ?_, rfl, rfl, roleAt_append hlookup⟩
            rw [Section.addTo, hlookup, hdoubled]
            exact congrArg (Option.bind · _) hes
  | some item =>
      rw [roleAt_cons_of_some hlookup, if_pos rfl] at h
      have hrole : item.role = if s.header.doubled then .tables else .implied := by simpa using h
      cases hdoubled : s.header.doubled with
      | false =>
          rw [hdoubled, if_neg Bool.false_ne_true] at hrole
          obtain ⟨span, before, rfl⟩ := Item.exists_of_role_implied hrole
          refine ⟨before, fun t ht => (roleAt_cons_of_ne_nil hlookup ht).symm, fun es hes => ?_⟩
          refine ⟨_, .table .explicit (some s.span) es, ?_, rfl, rfl, roleAt_erase_append⟩
          rw [Section.addTo, hlookup, hdoubled]
          exact congrArg (Option.bind · _) hes
      | true =>
          rw [hdoubled, if_pos rfl] at hrole
          obtain ⟨earlier, last, rfl⟩ := Item.exists_of_role_tables hrole
          refine ⟨[], fun t _ => roleAt_empty t, fun es hes => ?_⟩
          refine ⟨_, .tables (earlier ++ [last]) (s.span, es), ?_, rfl, rfl, roleAt_replace hlookup⟩
          rw [Section.addTo, hlookup, hdoubled]
          exact congrArg (Option.bind · _) hes

theorem View.withHeaderOf_apply (σ : View) (s : Section) (r : List String) :
    σ.withHeaderOf s r =
      if r = s.base then some (if s.header.doubled then .tables else .headed)
      else if s.header.doubled ∧ s.base <+: r then none
      else if r ≠ [] ∧ r <+: s.header.path.map Key.name then some ((σ r).getD .implied)
      else σ r :=
  rfl

/-- A section whose header and pairs keep to the rules is put into the table. -/
theorem addSection_of_allows {es : Entries} {s : Section} (h : (roleAt es).Allows (.block s)) :
    ∃ es', addSection es s = some es' ∧ roleAt es' = (roleAt es).add (.block s) := by
  obtain ⟨hheader, hpairs⟩ := h
  obtain ⟨found, inner, put, hd⟩ := exists_descends false s.header.path .explicit es fun q hq hpath =>
    ⟨hheader.through q hq hpath, fun hdotted => absurd hdotted Bool.false_ne_true⟩
  have hinner : ∀ t, roleAt inner (s.header.key.name :: t) = roleAt es (s.base ++ t) := by
    intro t
    rw [hd.roleAt_inner _ (List.cons_ne_nil _ _), Section.base, List.append_assoc]
    rfl
  have hfree : roleAt inner [s.header.key.name] = none ∨
      roleAt inner [s.header.key.name] = some (if s.header.doubled then .tables else .implied) := by
    rw [hinner, List.append_nil]
    exact hheader.free
  obtain ⟨before, hbefore, hadd⟩ := Section.addTo_of_role hfree
  -- The pairs of the section find what stands below its header.
  have hview : roleAt before = ((roleAt es).withHeaderOf s).below s.base := by
    funext t
    rw [View.below]
    by_cases ht : t = []
    · rw [if_pos ht, ht]
      rfl
    · have hne : s.base ++ t ≠ s.base := by simpa using ht
      have hon : ¬(s.base ++ t ≠ [] ∧ s.base ++ t <+: s.header.path.map Key.name) := fun hon =>
        not_append_singleton_prefix hon.2 (List.prefix_append _ _)
      rw [hbefore t ht, hinner, if_neg ht, View.withHeaderOf_apply, if_neg hne, if_neg hon]
      cases hdoubled : s.header.doubled with
      | false => simp
      | true => rw [if_pos rfl, if_pos ⟨rfl, List.prefix_append _ _⟩]
  rw [← hview] at hpairs
  obtain ⟨table, htable, hroles⟩ := foldlM_addPair_of_allows hpairs
  obtain ⟨made, item, hmade, hrole, hitem, hsets⟩ := hadd table htable
  refine ⟨put made, by rw [addSection, hd.descend_eq, hmade]; rfl, ?_⟩
  have hbase : s.header.path.map Key.name ++ [s.header.key.name] = s.base := rfl
  have hlength : s.header.path.length + 1 = s.base.length := by simp [Section.base]
  funext r
  rw [hd.roleAt_put_item hsets, hbase, hrole, hitem, hroles, hview, hlength, View.add, View.graft,
    View.withHeaderOf_apply]
  by_cases hkey : r = s.base
  · have hat : ¬(s.base <+: r ∧ r ≠ s.base) := fun h => h.2 hkey
    rw [if_pos hkey, if_neg hat, if_pos hkey]
  · by_cases hbelow : s.base <+: r
    · rw [if_neg hkey, if_pos hbelow, if_pos ⟨hbelow, hkey⟩]
    · have hnot : ¬(s.base <+: r ∧ r ≠ s.base) := fun h => hbelow h.1
      have hkept : ¬(s.header.doubled = true ∧ s.base <+: r) := fun h => hbelow h.2
      rw [if_neg hkey, if_neg hbelow, if_neg hnot, if_neg hkey, if_neg hkept]
      rfl

/-- Parts that keep to the rules are put together to one table. -/
theorem foldlM_addPart_of_allows {es : Entries} {parts : List Part} (h : (roleAt es).AllowsAll parts) :
    ∃ es', parts.foldlM addPart es = some es' := by
  induction parts generalizing es with
  | nil => exact ⟨es, rfl⟩
  | cons part parts ih =>
      obtain ⟨next, hnext, hview⟩ :
          ∃ next, addPart es part = some next ∧ roleAt next = (roleAt es).add part := by
        cases part with
        | pair p => exact addPair_of_allows h.1
        | block s => exact addSection_of_allows h.1
      have hlater := h.2
      rw [← hview] at hlater
      obtain ⟨es', hes'⟩ := ih hlater
      refine ⟨es', ?_⟩
      rw [List.foldlM_cons, hnext]
      exact hes'

end ApiSurface.Toml
