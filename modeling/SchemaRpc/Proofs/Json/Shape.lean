/-
# What a shape asks of a value

Whether a value has a shape does not depend on the places that violations are reported at.
`Rule.Holds` says of each rule what it asks of a value, and a value has no violations of a shape
just if all its rules hold: `violations_eq_nil_iff`.

Objects are seen through their members by name, so nothing here depends on the order in which
members are stored.
-/
import Mathlib.Data.String.Basic
import SchemaRpc.Json.Shape
import SchemaRpc.Proofs.Ascending

namespace SchemaRpc

namespace Json

/-- The names of the members of an object. -/
def names : Json → List String
  | .object members => members.keys
  | _ => []

/-- The items of an array. -/
def elements : Json → List Json
  | .array items => items
  | _ => []

mutual

/-- A rule holds for a value: the value itself and, where the rule is about them, its members and
items are as the rule says. -/
def Rule.Holds : Rule → Json → Prop
  | .type kind, v => kind.admits v
  | .required names, v => Kind.object.admits v → ∀ n ∈ names, (v.member? n).isSome
  | .closed names, v => ∀ n ∈ v.names, n ∈ names
  | .property name rules, v => ∀ x ∈ v.member? name, HasShape rules x
  | .items rules, v => ∀ x ∈ v.elements, HasShape rules x
  | .minItems count, v => Kind.array.admits v → count ≤ v.elements.length
  | .pattern p, v => ∀ text, v = .string text → p.accepts text
  | .minimum least, v => ¬ isBelow least v
  | .maximum greatest, v => ¬ isAbove greatest v
  | .enum texts, v => ∃ text ∈ texts, v = .string text
  | .oneOf test, v => test v
  | .ref rules, v => HasShape rules v
  | .whenIs _ name text rules, v => ¬ v.differs name text → HasShape rules v

/-- All rules of a shape hold for a value. -/
def HasShape : List Rule → Json → Prop
  | [], _ => True
  | rule :: more, v => rule.Holds v ∧ HasShape more v

end

section

variable {v : Json}

lemma hasShape_cons {rule : Rule} {more : List Rule} :
    HasShape (rule :: more) v ↔ rule.Holds v ∧ HasShape more v := by
  rw [HasShape]

lemma mem_names_iff {name : String} : name ∈ v.names ↔ (v.member? name).isSome := by
  cases v with
  | object members => exact Ascending.mem_keys_iff name members
  | _ => simp [names, member?]

/-- Members that a closed object may not have are not there. -/
lemma member?_eq_none_of_closed {listed : List String} (h : ∀ n ∈ v.names, n ∈ listed)
    {name : String} (hname : name ∉ listed) : v.member? name = none := by
  by_contra hsome
  exact hname (h name (mem_names_iff.mpr (Option.isSome_iff_ne_none.mpr hsome)))

@[simp] lemma admits_string (text : String) : Kind.string.admits (.string text) := rfl

@[simp] lemma admits_array (items : List Json) : Kind.array.admits (.array items) := rfl

@[simp] lemma elements_array (items : List Json) : (Json.array items).elements = items := rfl

@[simp] lemma admits_ofMembers (l : List (String × Json)) : Kind.object.admits (ofMembers l) := rfl

@[simp] lemma member?_ofMembers (l : List (String × Json)) (name : String) :
    (ofMembers l).member? name = l.reverse.lookup name :=
  Ascending.find?_ofList l name

@[simp] lemma mem_names_ofMembers (l : List (String × Json)) (name : String) :
    name ∈ (ofMembers l).names ↔ name ∈ l.map (·.1) := by
  rw [mem_names_iff, member?_ofMembers, List.lookup_isSome_iff, List.mem_map]
  exact exists_congr fun e => and_congr List.mem_reverse (beq_iff_eq.trans eq_comm)

lemma mem_elements_iff {x : Json} : x ∈ v.elements ↔ ∃ i, (i, x) ∈ v.indexed := by
  cases v with
  | array items =>
    constructor
    · intro h
      obtain ⟨i, hi, rfl⟩ := List.mem_iff_getElem.mp h
      refine ⟨i, List.mem_iff_getElem.mpr ⟨i, by simpa [indexed, elements] using hi, ?_⟩⟩
      simp [indexed, elements]
    · rintro ⟨i, h⟩
      exact (List.of_mem_zip h).2
  | _ => simp [elements, indexed]

/-! ## The rules about the value itself -/

/-- The rule is about the value itself and not about its members and items. -/
def Rule.isLocal : Rule → Bool
  | .property .. | .items _ | .ref _ | .whenIs .. => false
  | _ => true

lemma holds_iff_broken {rule : Rule} (h : rule.isLocal) : rule.Holds v ↔ rule.broken v = [] := by
  cases rule with
  | type kind => simp [Rule.Holds, Rule.broken]
  | required names =>
    cases v with
    | object members =>
      simp [Rule.Holds, Rule.broken, Kind.admits, member?, Option.isSome_iff_ne_none]
    | _ => simp [Rule.Holds, Rule.broken, Kind.admits]
  | closed listed =>
    cases v with
    | object members => simp [Rule.Holds, Rule.broken, names]
    | _ => simp [Rule.Holds, Rule.broken, names]
  | minItems count =>
    cases v with
    | array items => simp [Rule.Holds, Rule.broken, Kind.admits, elements]
    | _ => simp [Rule.Holds, Rule.broken, Kind.admits]
  | pattern p =>
    cases v with
    | string text => simp [Rule.Holds, Rule.broken]
    | _ => simp [Rule.Holds, Rule.broken]
  | minimum least => simp [Rule.Holds, Rule.broken]
  | maximum greatest => simp [Rule.Holds, Rule.broken]
  | enum texts =>
    cases v with
    | string text => simp [Rule.Holds, Rule.broken]
    | _ => simp [Rule.Holds, Rule.broken]
  | oneOf test => simp [Rule.Holds, Rule.broken]
  | property | items | ref | whenIs => cases h

end

/-! ## Violations -/

mutual

theorem Rule.check_eq_nil_iff : (rule : Rule) → ∀ place path v,
    rule.check place path v = [] ↔ rule.Holds v
  | .property name rules, place, path, v => by
    rw [Rule.check, Rule.Holds]
    cases v.member? name with
    | none => simp
    | some x => simpa using checkAll_eq_nil_iff rules _ _ x
  | .items rules, place, path, v => by
    rw [Rule.check, Rule.Holds, List.flatMap_eq_nil_iff]
    constructor
    · intro h x hx
      obtain ⟨i, hi⟩ := mem_elements_iff.mp hx
      exact (checkAll_eq_nil_iff rules _ _ x).mp (h (i, x) hi)
    · rintro h ⟨i, x⟩ hi
      exact (checkAll_eq_nil_iff rules _ _ x).mpr (h x (mem_elements_iff.mpr ⟨i, hi⟩))
  | .ref rules, place, path, v => by
    rw [Rule.check, Rule.Holds]
    exact checkAll_eq_nil_iff rules _ _ v
  | .whenIs index name text rules, place, path, v => by
    rw [Rule.check, Rule.Holds]
    split
    · rename_i hdiffers
      simp [hdiffers]
    · rename_i hdiffers
      simpa [hdiffers] using checkAll_eq_nil_iff rules _ _ v
  | .type _, _, _, _ | .required _, _, _, _ | .closed _, _, _, _ | .minItems _, _, _, _
  | .pattern _, _, _, _ | .minimum _, _, _, _ | .maximum _, _, _, _ | .enum _, _, _, _
  | .oneOf _, _, _, _ => by
    rw [holds_iff_broken rfl, Rule.check, List.map_eq_nil_iff]
    all_goals simp

theorem checkAll_eq_nil_iff : (rules : List Rule) → ∀ place path v,
    checkAll place path v rules = [] ↔ HasShape rules v
  | [], _, _, _ => by simp [checkAll, HasShape]
  | rule :: more, place, path, v => by
    rw [checkAll, List.append_eq_nil_iff, hasShape_cons, Rule.check_eq_nil_iff rule,
      checkAll_eq_nil_iff more]

end

/-- **A value has no violations of a shape just if it has the shape.** -/
theorem violations_eq_nil_iff {shape : List Rule} {v : Json} :
    violations shape v = [] ↔ HasShape shape v := by
  rw [← checkAll_eq_nil_iff shape "" "" v, violations]
  exact ⟨fun h => List.nil_perm.mp (h ▸ List.mergeSort_perm _ _),
    fun h => by rw [h, List.mergeSort_nil]⟩

end Json

end SchemaRpc
