/-
# What a document spells out

A document spells out a package if it has just the parts that the package has, one by one:
`Spells` compares the two in both directions, so that no member of an object goes unnoticed.
Null for a default literal is no literal.

`FloatAt` says that a whole floating-point number stands at the end of some of the paths where
integers belong; `documentNumbers` are the paths to the tags, reserved tags and values of labels.
-/
import Mathlib.Data.List.Forall2
import SchemaRpc.Package.Shape
import SchemaRpc.Package.Written
import SchemaRpc.Proofs.Json.Shape

namespace SchemaRpc

/-! ## Numbers in a document -/

namespace Json

/-- A step into a value: to a member of an object, or to any item of an array. -/
inductive Step where
  | member (name : String)
  | item

/-- The values that a step leads to. -/
def step : Step → Json → List Json
  | .member name, v => (v.member? name).toList
  | .item, v => v.elements

/-- The values that a path leads to. -/
def reach : (path : List Step) → Json → List Json
  | [], v => [v]
  | s :: path, v => (v.step s).flatMap (reach path)

/-- A floating-point number that is whole. -/
def IsWholeFloat (v : Json) : Prop := ∃ x n, v = .float x ∧ x.toInt? = some n

/-- Some of the paths lead to a whole floating-point number. -/
def FloatAt (paths : List (List Step)) (v : Json) : Prop :=
  ∃ path ∈ paths, ∃ x ∈ v.reach path, x.IsWholeFloat

/-- Paths behind a number of steps. -/
def under (steps : List Step) (paths : List (List Step)) : List (List Step) :=
  paths.map (steps ++ ·)

section

variable {v : Json} {paths paths' : List (List Step)}

lemma floatAt_append : FloatAt (paths ++ paths') v ↔ FloatAt paths v ∨ FloatAt paths' v := by
  simp only [FloatAt, List.mem_append, or_and_right, exists_or]

lemma reach_append (steps path : List Step) :
    v.reach (steps ++ path) = (v.reach steps).flatMap (reach path) := by
  induction steps generalizing v with
  | nil => simp [reach]
  | cons s steps ih =>
    rw [List.cons_append, reach, reach, List.flatMap_assoc]
    exact List.flatMap_congr fun x _ => ih

lemma mem_reach_items {name : String} {x : Json} :
    x ∈ v.reach [.member name, .item] ↔ ∃ y ∈ v.member? name, x ∈ y.elements := by
  simp [reach, step]

lemma floatAt_under {steps : List Step} :
    FloatAt (under steps paths) v ↔ ∃ x ∈ v.reach steps, FloatAt paths x := by
  simp only [FloatAt, under, List.mem_map, exists_exists_and_eq_and, reach_append,
    List.mem_flatMap]
  constructor
  · rintro ⟨path, hpath, x, ⟨y, hy, hx⟩, hwhole⟩
    exact ⟨y, hy, path, hpath, x, hx, hwhole⟩
  · rintro ⟨y, hy, path, hpath, x, hx, hwhole⟩
    exact ⟨path, hpath, x, ⟨y, hy, hx⟩, hwhole⟩

lemma floatAt_member {name : String} :
    FloatAt [[.member name]] v ↔ ∃ x ∈ v.member? name, x.IsWholeFloat := by
  simp [FloatAt, reach, step]

lemma floatAt_member_item {name : String} :
    FloatAt [[.member name, .item]] v ↔
      ∃ x ∈ v.member? name, ∃ y ∈ x.elements, y.IsWholeFloat := by
  simp only [FloatAt, List.mem_singleton, exists_eq_left, mem_reach_items]
  grind

lemma floatAt_under_items {name : String} :
    FloatAt (under [.member name, .item] paths) v ↔
      ∃ x ∈ v.member? name, ∃ y ∈ x.elements, FloatAt paths y := by
  simp only [floatAt_under, mem_reach_items]
  grind

end

end Json

namespace Package

open Json (FloatAt HasShape Step under)

/-- The way to the tag of a field. -/
def fieldNumbers : List (List Step) := [[.member "tag"]]

/-- The ways to the tags of a method and its parameters. -/
def methodNumbers : List (List Step) :=
  [[.member "tag"]] ++ under [.member "in", .item] fieldNumbers
    ++ under [.member "out", .item] fieldNumbers ++ under [.member "throw", .item] fieldNumbers

/-- The ways to the tags, reserved tags and values of labels of a declaration. -/
def declarationNumbers : List (List Step) :=
  under [.member "values", .item] [[.member "value"]]
    ++ under [.member "variants", .item] [[.member "tag"]] ++ [[.member "reserved", .item]]
    ++ under [.member "fields", .item] fieldNumbers
    ++ under [.member "methods", .item] methodNumbers
    ++ under [.member "members", .item] [[.member "tag"]]

/-- The ways to the tags, reserved tags and values of labels of a document. -/
def documentNumbers : List (List Step) :=
  under [.member "declarations", .item] declarationNumbers

/-! ## What a document spells out -/

/-- An object with members of these names only. -/
structure IsObjectOf (names : List String) (v : Json) : Prop where
  object : Json.Kind.object.admits v
  only : ∀ n ∈ v.names, n ∈ names

/-- A literal, of which null is none. -/
def literal? : Json → Option Json
  | .null => none
  | v => some v

/-- A value spells out a type expression: a name, or an object that has the member `array`. -/
inductive SpellsType : Json → TypeExpr → Prop where
  | named (name : String) : SpellsType (.string name) (.named name)
  | array {v item : Json} {e : TypeExpr} (object : IsObjectOf ["array"] v)
    (h : v.member? "array" = some item) (he : SpellsType item e) : SpellsType v (.array e)

/-- An array spells out a list, item by item. -/
def SpellsList {α : Type} (spells : Json → α → Prop) (v : Json) (l : List α) : Prop :=
  ∃ items, v = .array items ∧ List.Forall₂ spells items l

/-- A value spells out a label of an enum. -/
structure SpellsLabel (v : Json) (l : Label) : Prop where
  object : IsObjectOf ["label", "value"] v
  name : v.member? "label" = some (.string l.name)
  value : v.member? "value" = l.value.map fun n => .int n.val

/-- A value spells out a variant of a union. -/
structure SpellsVariant (v : Json) (u : Variant) : Prop where
  object : IsObjectOf ["name", "type", "tag"] v
  name : v.member? "name" = some (.string u.name)
  type : ∃ x, v.member? "type" = some x ∧ SpellsType x u.type
  tag : v.member? "tag" = u.tag.map tagJson

/-- A value spells out a field. -/
structure SpellsField (v : Json) (f : Field) : Prop where
  object : IsObjectOf ["name", "type", "optional", "tag", "default"] v
  name : v.member? "name" = some (.string f.name)
  type : ∃ x, v.member? "type" = some x ∧ SpellsType x f.type
  optional : (v.member? "optional").getD (.bool false) = .bool f.optional
  tag : v.member? "tag" = f.tag.map tagJson
  literal : (v.member? "default").bind literal? = f.literal

/-- A value spells out a method of an interface. -/
structure SpellsMethod (v : Json) (m : Method) : Prop where
  object : IsObjectOf ["name", "tag", "in", "out", "throw"] v
  name : v.member? "name" = some (.string m.name)
  tag : v.member? "tag" = m.tag.map tagJson
  input : SpellsList SpellsField ((v.member? "in").getD (.array [])) m.input
  output : Option.Rel (SpellsList SpellsField) (v.member? "out") m.output
  failure : Option.Rel (SpellsList SpellsField) (v.member? "throw") m.failure

/-- A value spells out a member of a module. -/
structure SpellsMember (v : Json) (m : Member) : Prop where
  object : IsObjectOf ["name", "interface", "tag"] v
  name : v.member? "name" = some (.string m.name)
  interface : v.member? "interface" = some (.string m.interface)
  tag : v.member? "tag" = m.tag.map tagJson

/-- A value spells out what a declaration contains. -/
inductive SpellsContents (v : Json) : Declaration → Prop where
  | enum {name : String} {labels : List Label} (object : IsObjectOf ["kind", "name", "values"] v)
    (h : ∃ x, v.member? "values" = some x ∧ SpellsList SpellsLabel x labels) :
    SpellsContents v (.enum name labels)
  | union {name : String} {variants : List Variant} {reserved : List Tag}
    (object : IsObjectOf ["kind", "name", "reserved", "variants"] v)
    (h : ∃ x, v.member? "variants" = some x ∧ SpellsList SpellsVariant x variants)
    (hr : (v.member? "reserved").getD (.array []) = .array (reserved.map tagJson)) :
    SpellsContents v (.union name variants reserved)
  | struct {name : String} {fields : List Field} {reserved : List Tag}
    (object : IsObjectOf ["kind", "name", "reserved", "fields"] v)
    (h : SpellsList SpellsField ((v.member? "fields").getD (.array [])) fields)
    (hr : (v.member? "reserved").getD (.array []) = .array (reserved.map tagJson)) :
    SpellsContents v (.struct name fields reserved)
  | interface {name : String} {methods : List Method}
    (object : IsObjectOf ["kind", "name", "methods"] v)
    (h : ∃ x, v.member? "methods" = some x ∧ SpellsList SpellsMethod x methods) :
    SpellsContents v (.interface name methods)
  | module {name : String} {members : List Member}
    (object : IsObjectOf ["kind", "name", "members"] v)
    (h : ∃ x, v.member? "members" = some x ∧ SpellsList SpellsMember x members) :
    SpellsContents v (.module name members)

/-- A value spells out a declaration. -/
structure SpellsDeclaration (v : Json) (d : Declaration) : Prop where
  kind : v.member? "kind" = some (.string d.kindName)
  name : v.member? "name" = some (.string d.name)
  contents : SpellsContents v d

/-- A document spells out a package: it has just the parts that the package has, one by one. -/
structure Spells (v : Json) (p : Package) : Prop where
  object : IsObjectOf ["package", "declarations"] v
  name : v.member? "package" = some (.string p.name)
  declarations : SpellsList SpellsDeclaration ((v.member? "declarations").getD (.array []))
    p.declarations

/-! ### Lists and types -/

lemma spellsList_nil {α : Type} (spells : Json → α → Prop) : SpellsList spells (.array []) [] :=
  ⟨[], rfl, .nil⟩

lemma SpellsList.of_rel {α : Type} {spells : Json → α → Prop} {c : Option Json}
    {o : Option (List α)} (h : Option.Rel (SpellsList spells) c o) :
    SpellsList spells (c.getD (.array [])) (o.getD []) := by
  cases h with
  | none => exact spellsList_nil spells
  | some h => exact h

lemma SpellsList.forall_mem {α : Type} {spells : Json → α → Prop} {x : Json} {l : List α}
    (h : SpellsList spells x l) {Q : Json → Prop} {P : α → Prop} (hQ : ∀ y ∈ x.elements, Q y)
    (hP : ∀ y a, Q y → spells y a → P a) : ∀ a ∈ l, P a := by
  obtain ⟨items, rfl, hitems⟩ := h
  change ∀ y ∈ items, Q y at hQ
  induction hitems with
  | nil => simp
  | cons hspells _ ih =>
    rw [List.forall_mem_cons] at hQ ⊢
    exact ⟨hP _ _ hQ.1 hspells, ih hQ.2⟩

/-- The members of an object that stands for an array: just `array`, with a type expression. -/
lemma isArrayOf_iff : {floor : Option String} → (members : Ascending String Json floor) →
    (Shape.isArrayOf members ↔ (∀ n ∈ members.keys, n ∈ ["array"]) ∧
      ∃ item, members.find? "array" = some item ∧ Shape.isTypeExpr item)
  | _, .nil => by simp [Shape.isArrayOf]
  | _, .cons name _ item .nil => by
    simp only [Shape.isArrayOf, Bool.and_eq_true, decide_eq_true_eq, Ascending.keys,
      Ascending.toList, List.map_cons, List.map_nil, List.mem_singleton, Ascending.find?_cons,
      Ascending.find?_nil]
    grind
  | _, .cons name _ item (.cons next above _ _) => by
    have hkeys (h : name = "array" ∧ next = "array") : False :=
      (above name rfl).ne (h.1.trans h.2.symm)
    simp only [Shape.isArrayOf, Ascending.keys, Ascending.toList, List.map_cons,
      List.forall_mem_cons, List.mem_singleton]
    grind

/-- The shape of an object that stands for an array. -/
def arrayShape : List Json.Rule := [
  .type .object,
  .required ["array"],
  .closed ["array"],
  .property "array" [.ref Shape.typeExpr]]

/-- The shape of a type expression is exactly one of two shapes. -/
theorem hasShape_typeExpr_iff {v : Json} :
    HasShape Shape.typeExpr v ↔ Xor (HasShape Shape.identifier v) (HasShape arrayShape v) := by
  simp only [Shape.typeExpr, Shape.identifier, arrayShape, HasShape, Json.Rule.Holds, and_true]
  cases v with
  | object members =>
    rw [Shape.isTypeExpr, isArrayOf_iff]
    simp only [Json.Kind.admits, Json.names, Json.member?, List.mem_singleton, forall_eq]
    cases members.find? "array" <;> simp [Xor]
  | _ => simp [Json.Kind.admits, Shape.isTypeExpr, Xor]

/-- The name at the bottom of a type expression. -/
def TypeExpr.base : TypeExpr → String
  | .named name => name
  | .array item => item.base

lemma SpellsType.isTypeExpr_iff {x : Json} {e : TypeExpr} (h : SpellsType x e) :
    Shape.isTypeExpr x ↔ Shape.isIdentifier e.base := by
  induction h with
  | named name => rfl
  | @array v item e object h he ih =>
    cases v with
    | object members =>
      rw [Shape.isTypeExpr, isArrayOf_iff, show members.find? "array" = _ from h,
        and_iff_right (show ∀ n ∈ members.keys, _ from object.only)]
      simpa [TypeExpr.base] using ih
    | _ => cases object.object

mutual

theorem exists_spellsType : (x : Json) → Shape.isTypeExpr x → ∃ e, SpellsType x e
  | .string name, _ => ⟨.named name, .named name⟩
  | .object members, h => by
    rw [Shape.isTypeExpr] at h
    obtain ⟨item, e, hitem, he⟩ := exists_spellsItem members h
    exact ⟨.array e, .array ⟨rfl, ((isArrayOf_iff members).mp h).1⟩ hitem he⟩
  | .null, h | .bool _, h | .int _, h | .float _, h | .array _, h => nomatch h

theorem exists_spellsItem : {floor : Option String} → (members : Ascending String Json floor) →
    Shape.isArrayOf members → ∃ item e, members.find? "array" = some item ∧ SpellsType item e
  | _, .cons name above item .nil, h => by
    rw [Shape.isArrayOf, Bool.and_eq_true, decide_eq_true_eq] at h
    obtain ⟨rfl, h⟩ := h
    obtain ⟨e, he⟩ := exists_spellsType item h
    exact ⟨item, e, rfl, he⟩
  | _, .nil, h => nomatch h
  | _, .cons _ _ _ (.cons ..), h => nomatch h

end

end Package

end SchemaRpc
