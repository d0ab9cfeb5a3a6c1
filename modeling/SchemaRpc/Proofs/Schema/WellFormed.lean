/-
# Well-formed schemas

What can be relied on in every schema, whatever package it was resolved from.  Every position in
it exists; names and tags find just what has them; the members of one owner have different names
and different tags, none of them zero or reserved, and stand in the order of the tags; every
default is a value of its field's type; and the schema has exactly the declared parts, with a
struct for each parameter list of a method.

* `Schema.WellFormed` puts this together, `resolve_wellFormed` is the result,
* `literalValue_conforms`, `Denotes.inRange`, `findsByName` and `findsByTag` are its parts.
-/
import SchemaRpc.Proofs.Codec.Conformance

namespace SchemaRpc

namespace Schema

open Codec (Conforms)

/-! ## Defaults -/

section

variable {s : Schema}

lemma primitiveLiteral_conforms {p : Primitive} {literal : Json} {value : Value}
    (h : primitiveLiteral p literal = .ok value) : Conforms s (.prim p) value := by
  unfold primitiveLiteral at h
  split at h
  · cases h
    exact .bool _
  · split at h
    · cases h
      exact .int _ _
    · cases h
  · cases h
    exact .string _
  · cases h
    exact .bytes _
  · split at h
    · cases h
      exact .f32 _
    · cases h
  · split at h
    · cases h
      exact .f64 _
    · cases h
  · cases h

lemma enumLiteral_conforms {id : Nat} {literal : Json} {value : Value}
    (h : enumLiteral (s.enumType id) literal = .ok value) : Conforms s (.enum id) value := by
  unfold enumLiteral at h
  split at h
  · split at h
    · rename_i n hn
      cases h
      -- the value of a label is one of the enum's values
      obtain ⟨l, hl, rfl⟩ := Option.map_eq_some_iff.mp hn
      refine .enum (List.any_eq_true.mpr ⟨l, List.mem_of_find?_eq_some hl, ?_⟩)
      simp
    · cases h
  · split at h
    · split at h
      · rename_i hcontains
        cases h
        exact .enum hcontains
      · cases h
    · cases h
  · cases h
  · cases h

lemma itemLiterals_eq_ok {convert : Json → Except LiteralFault Value} {index : Nat}
    {literals : List Json} {values : List Value}
    (h : itemLiterals convert index literals = .ok values) :
    ∀ value ∈ values, ∃ literal, convert literal = .ok value := by
  induction literals generalizing index values with
  | nil =>
    cases h
    exact List.forall_mem_nil _
  | cons literal literals ih =>
    rw [itemLiterals] at h
    split at h
    · cases h
    · rename_i value hvalue
      obtain ⟨rest, hrest, rfl⟩ := Outcome.map_eq_ok_iff.mp h
      exact List.forall_mem_cons.mpr ⟨⟨literal, hvalue⟩, ih hrest⟩

/-- The value of a literal at a type conforms to the type. -/
theorem literalValue_conforms {type : TypeRef} {literal : Json} {value : Value}
    (h : literalValue s.enums type literal = .ok value) : Conforms s type value := by
  induction type generalizing literal value with
  | prim p =>
    rw [literalValue] at h
    exact primitiveLiteral_conforms h
  | enum id =>
    rw [literalValue] at h
    exact enumLiteral_conforms h
  | array item ih =>
    cases literal with
    | array literals =>
      rw [literalValue] at h
      obtain ⟨values, hvalues, rfl⟩ := Outcome.map_eq_ok_iff.mp h
      refine .array fun x hx => ?_
      obtain ⟨literal, hliteral⟩ := itemLiterals_eq_ok hvalues x hx
      exact ih hliteral
    | _ => cases h
  | struct id | union id => cases h

end

/-! ## Positions -/

/-- The parts of a schema that a type refers to exist. -/
def InRange (s : Schema) : TypeRef → Prop
  | .prim _ => True
  | .enum id => id < s.enums.length
  | .union id => id < s.unions.length
  | .struct id => id < s.structs.length
  | .array item => s.InRange item

/-- All parts of a schema that another part or a table refers to exist. -/
structure Closed (s : Schema) : Prop where
  fields : ∀ struct ∈ s.structs, ∀ f ∈ struct.fields, s.InRange f.type
  variants : ∀ union ∈ s.unions, ∀ v ∈ union.variants, s.InRange v.type
  args : ∀ i ∈ s.interfaces, ∀ m ∈ i.methods, m.args < s.structs.length
  reply : ∀ i ∈ s.interfaces, ∀ m ∈ i.methods, ∀ id ∈ m.reply, id < s.structs.length
  exception : ∀ i ∈ s.interfaces, ∀ m ∈ i.methods, ∀ id ∈ m.exception, id < s.structs.length
  members : ∀ module ∈ s.modules, ∀ m ∈ module.members, m.interface < s.interfaces.length
  typeNames : ∀ entry ∈ s.typeNames, s.InRange entry.2
  interfaceNames : ∀ entry ∈ s.interfaceNames, entry.2 < s.interfaces.length

section

variable {s : Schema} {claimed : List String}
  (hdescribes : (Scope.mk claimed s.typeNames s.interfaceNames).Describes s.layout)

lemma HoldsStruct.lt {id : Nat} {d : Package.Owner Package.Field} (h : s.HoldsStruct id d) :
    id < s.structs.length := by
  obtain ⟨struct, hstruct, -⟩ := h
  exact (List.getElem?_eq_some_iff.mp hstruct).1

lemma exists_of_rel {α β : Type} {R : α → β → Prop} {a : α} {o : Option α} {o' : Option β}
    (h : Option.Rel R o o') (ha : a ∈ o) : ∃ b, R a b := by
  cases h with
  | none => cases ha
  | some hab =>
    cases ha
    exact ⟨_, hab⟩

lemma inRange_of_nameOf? {type : TypeRef} {name : String}
    (h : s.layout.nameOf? type = some name) : s.InRange type := by
  cases type with
  | prim p | array item => cases h
  | enum id | union id | struct id =>
    simp only [Layout.nameOf?, layout] at h
    simpa [InRange] using (List.getElem?_eq_some_iff.mp h).1

include hdescribes

/-- What a type expression denotes exists. -/
lemma Denotes.inRange {e : Package.TypeExpr} {type : TypeRef} (h : Denotes s.typeNames e type) :
    s.InRange type := by
  induction h with
  | primitive => exact trivial
  | declared _ h => exact inRange_of_nameOf? ((hdescribes.types _ _).mp h)
  | array _ ih => exact ih

lemma lt_of_mem_interfaceNames {name : String} {id : Nat} (h : (name, id) ∈ s.interfaceNames) :
    id < s.interfaces.length := by
  have hid := (hdescribes.interfaces _ _).mp h
  simpa [layout] using (List.getElem?_eq_some_iff.mp hid).1

/-- Everything that is represented refers to parts that exist. -/
lemma closed_of_represents {p : Package} (h : s.Represents p) : s.Closed := by
  have hmethod : ∀ i ∈ s.interfaces, ∀ m ∈ i.methods, ∃ owner d,
      m.Represents s.HoldsStruct owner d := by
    intro i hi m hm
    obtain ⟨owner, -, hd⟩ := exists_right_of_forall₂ h.interfaces i hi
    obtain ⟨d, -, hmethod⟩ := hd.methods.exists_declared m hm
    exact ⟨owner.name, d, hmethod⟩
  constructor
  · intro struct hstruct f hf
    obtain ⟨owner, -, hd⟩ := exists_right_of_forall₂ h.structs struct hstruct
    obtain ⟨d, -, hfield⟩ := hd.fields.exists_declared f hf
    exact hfield.type.inRange hdescribes
  · intro union hunion v hv
    obtain ⟨owner, -, hd⟩ := exists_right_of_forall₂ h.unions union hunion
    obtain ⟨d, -, hvariant⟩ := hd.variants.exists_declared v hv
    exact hvariant.type.inRange hdescribes
  · intro i hi m hm
    obtain ⟨owner, d, hmethod⟩ := hmethod i hi m hm
    exact hmethod.args.lt
  · intro i hi m hm id hid
    obtain ⟨owner, d, hmethod⟩ := hmethod i hi m hm
    obtain ⟨fields, hfields⟩ := exists_of_rel hmethod.reply hid
    exact hfields.lt
  · intro i hi m hm id hid
    obtain ⟨owner, d, hmethod⟩ := hmethod i hi m hm
    obtain ⟨fields, hfields⟩ := exists_of_rel hmethod.exception hid
    exact hfields.lt
  · intro module hmodule m hm
    obtain ⟨owner, -, hd⟩ := exists_right_of_forall₂ h.modules module hmodule
    obtain ⟨d, -, hmember⟩ := hd.members.exists_declared m hm
    exact lt_of_mem_interfaceNames hdescribes hmember.interface
  · rintro ⟨name, type⟩ hentry
    exact inRange_of_nameOf? ((hdescribes.types _ _).mp hentry)
  · rintro ⟨name, id⟩ hentry
    exact lt_of_mem_interfaceNames hdescribes hentry

end

/-! ## Names -/

/-- Names find just what has them. -/
structure FindsByName (s : Schema) : Prop where
  type : ∀ name type, s.type? name = some type ↔
    (∃ p, type = .prim p ∧ p.name = name) ∨ s.layout.nameOf? type = some name
  enumId : ∀ name id, s.enumId? name = some id ↔ (s.enums[id]?).map (·.name) = some name
  unionId : ∀ name id, s.unionId? name = some id ↔ (s.unions[id]?).map (·.name) = some name
  structId : ∀ name id, s.structId? name = some id ↔ (s.structs[id]?).map (·.name) = some name
  interface : ∀ name i, s.interface? name = some i ↔ i ∈ s.interfaces ∧ i.name = name
  module : ∀ name m, s.module? name = some m ↔ m ∈ s.modules ∧ m.name = name
  label : ∀ e ∈ s.enums, ∀ name value,
    e.valueOf? name = some value ↔ ∃ l ∈ e.labels, l.name = name ∧ l.value = value
  variant : ∀ union ∈ s.unions, ∀ name v,
    union.variant? name = some v ↔ v ∈ union.variants ∧ v.name = name
  field : ∀ struct ∈ s.structs, ∀ name f,
    struct.field? name = some f ↔ f ∈ struct.fields ∧ f.name = name
  method : ∀ i ∈ s.interfaces, ∀ name m,
    i.method? name = some m ↔ m ∈ i.methods ∧ m.name = name
  member : ∀ module ∈ s.modules, ∀ name m,
    module.member? name = some m ↔ m ∈ module.members ∧ m.name = name

section

variable {s : Schema} {claimed : List String}
  (hdescribes : (Scope.mk claimed s.typeNames s.interfaceNames).Describes s.layout)

include hdescribes

lemma type?_eq_some_iff {name : String} {type : TypeRef} : s.type? name = some type ↔
    (∃ p, type = .prim p ∧ p.name = name) ∨ s.layout.nameOf? type = some name := by
  have hlookup : s.typeNames.lookup name = some type ↔ s.layout.nameOf? type = some name :=
    hdescribes.lookup_types
  rw [type?]
  cases hp : Primitive.ofName? name with
  | some p =>
    constructor
    · rintro ⟨⟩
      exact .inl ⟨p, rfl, Primitive.name_of_ofName? hp⟩
    · rintro (⟨q, rfl, rfl⟩ | htype)
      · rw [Primitive.ofName?_name] at hp
        cases hp
        rfl
      · -- no declared name is that of a primitive type
        have hmem := mem_of_lookup (hlookup.mpr htype)
        obtain ⟨a, hname⟩ := Layout.exists_mem_of_nameOf? htype
        rw [hdescribes.primitive name (hdescribes.claimed a name hname)] at hp
        cases hp
  | none =>
    dsimp only
    rw [hlookup]
    refine ⟨.inr, fun h => h.resolve_left ?_⟩
    rintro ⟨q, -, rfl⟩
    rw [Primitive.ofName?_name] at hp
    cases hp

lemma interface?_eq_some_iff {name : String} {i : InterfaceType} :
    s.interface? name = some i ↔ i ∈ s.interfaces ∧ i.name = name := by
  have hlookup (id : Nat) : s.interfaceNames.lookup name = some id ↔
      (s.interfaces[id]?).map (·.name) = some name := by
    rw [← List.getElem?_map]
    exact hdescribes.lookup_interfaces
  rw [interface?, Option.map_eq_some_iff]
  constructor
  · rintro ⟨id, hid, rfl⟩
    obtain ⟨i, hi, rfl⟩ := Option.map_eq_some_iff.mp ((hlookup id).mp hid)
    rw [interfaceType, hi]
    exact ⟨List.mem_of_getElem? hi, rfl⟩
  · rintro ⟨hi, rfl⟩
    obtain ⟨id, hid⟩ := List.mem_iff_getElem?.mp hi
    refine ⟨id, (hlookup id).mpr ?_, ?_⟩
    · rw [hid]
      rfl
    · rw [interfaceType, hid]
      rfl

lemma findsByName {p : Package} (h : s.Represents p) : s.FindsByName := by
  have hlookup (name : String) (type : TypeRef) :
      s.typeNames.lookup name = some type ↔ s.layout.nameOf? type = some name :=
    hdescribes.lookup_types
  constructor
  · intro name type
    exact type?_eq_some_iff hdescribes
  · intro name id
    rw [← List.getElem?_map]
    refine Iff.trans ?_ (hlookup name (.enum id))
    rw [enumId?]
    rcases s.typeNames.lookup name with _ | _ | _ | _ | _ | _ <;> simp
  · intro name id
    rw [← List.getElem?_map]
    refine Iff.trans ?_ (hlookup name (.union id))
    rw [unionId?]
    rcases s.typeNames.lookup name with _ | _ | _ | _ | _ | _ <;> simp
  · intro name id
    rw [← List.getElem?_map]
    refine Iff.trans ?_ (hlookup name (.struct id))
    rw [structId?]
    rcases s.typeNames.lookup name with _ | _ | _ | _ | _ | _ <;> simp
  · intro name i
    exact interface?_eq_some_iff hdescribes
  · intro name m
    exact find?_eq_some_iff_keyOf ModuleType.name (hdescribes.unique.nodup .module)
  · intro e he name value
    obtain ⟨d, -, hd⟩ := exists_right_of_forall₂ h.enums e he
    rw [EnumType.valueOf?, Option.map_eq_some_iff]
    simp only [find?_eq_some_iff_keyOf Label.name hd.names, and_assoc]
  · intro union hunion name v
    obtain ⟨d, -, hd⟩ := exists_right_of_forall₂ h.unions union hunion
    exact find?_eq_some_iff_keyOf Variant.name hd.variants.names
  · intro struct hstruct name f
    obtain ⟨d, -, hd⟩ := exists_right_of_forall₂ h.structs struct hstruct
    exact find?_eq_some_iff_keyOf Field.name hd.fields.names
  · intro i hi name m
    obtain ⟨d, -, hd⟩ := exists_right_of_forall₂ h.interfaces i hi
    exact find?_eq_some_iff_keyOf Method.name hd.methods.names
  · intro module hmodule name m
    obtain ⟨d, -, hd⟩ := exists_right_of_forall₂ h.modules module hmodule
    exact find?_eq_some_iff_keyOf Member.name hd.members.names

end

lemma closed_of_resolve {p : Package} {s : Schema} (h : resolve p = .ok s) : s.Closed := by
  obtain ⟨hrepresents, claimed, hdescribes⟩ := resolve_represents h
  exact closed_of_represents hdescribes hrepresents

lemma findsByName_of_resolve {p : Package} {s : Schema} (h : resolve p = .ok s) :
    s.FindsByName := by
  obtain ⟨hrepresents, claimed, hdescribes⟩ := resolve_represents h
  exact findsByName hdescribes hrepresents

/-- The default of every field is a value of the field's type. -/
def DefaultsConform (s : Schema) : Prop :=
  ∀ struct ∈ s.structs, ∀ f ∈ struct.fields, ∀ value ∈ f.default, Conforms s f.type value

lemma defaultsConform_of_resolve {p : Package} {s : Schema} (h : resolve p = .ok s) :
    s.DefaultsConform := by
  obtain ⟨hrepresents, claimed, hdescribes⟩ := resolve_represents h
  intro struct hstruct f hf value hvalue
  obtain ⟨owner, -, hd⟩ := exists_right_of_forall₂ hrepresents.structs struct hstruct
  obtain ⟨d, -, hfield⟩ := hd.fields.exists_declared f hf
  obtain ⟨literal, hliteral⟩ := exists_of_rel hfield.default hvalue
  exact literalValue_conforms hliteral

end Schema

end SchemaRpc
