/-
# Names and positions

Declarations are kept in one list for each kind, and two tables tell the position of a type or
an interface from its name.  A declaration claims its name first, and a name that is in use or
that of a primitive type is refused.  So the tables always describe the lists: they have an entry
for each position and no others, and no name stands at two positions.

* `Layout` gives the names in each list, `Scope.Describes` says that a scope describes them,
* `declare_describes` follows declarations, one after the other,
* `Scope.Describes.lookup_types` and `Scope.Describes.lookup_interfaces` say what a name finds.
-/
import Mathlib.Logic.Function.Basic
import SchemaRpc.Proofs.Schema.Members

namespace SchemaRpc

namespace Schema

/-- The lists in which a schema keeps what is declared. -/
inductive Arena where
  | enum
  | union
  | struct
  | interface
  | module
deriving DecidableEq

/-- The list in which a declaration is kept. -/
def arenaOf : Package.Declaration → Arena
  | .enum .. => .enum
  | .union .. => .union
  | .struct .. => .struct
  | .interface .. => .interface
  | .module .. => .module

/-- The names in each list, by position. -/
abbrev Layout := Arena → List String

/-- The names of declarations. -/
def declaredNames (ds : List Package.Declaration) : Layout := fun a =>
  (ds.filter (arenaOf · = a)).map (·.name)

namespace Layout

variable {names : Layout}

/-- The layout with a name added at the end of a list. -/
def add (names : Layout) (a : Arena) (name : String) : Layout :=
  Function.update names a (names a ++ [name])

/-- The name of a type that is kept in a list. -/
def nameOf? (names : Layout) : TypeRef → Option String
  | .enum id => (names .enum)[id]?
  | .union id => (names .union)[id]?
  | .struct id => (names .struct)[id]?
  | .prim _ | .array _ => none

/-- How many names there are. -/
def counts (names : Layout) : Counts :=
  ⟨(names .enum).length, (names .union).length, (names .struct).length,
    (names .interface).length⟩

/-- No name stands at two positions. -/
def Unique (names : Layout) : Prop :=
  ∀ (a b : Arena) (i j : Nat) (name : String),
    (names a)[i]? = some name → (names b)[j]? = some name → a = b ∧ i = j

lemma getElem?_add {a b : Arena} {name other : String} {i : Nat} :
    (names.add a name b)[i]? = some other ↔
      (names b)[i]? = some other ∨ b = a ∧ i = (names a).length ∧ other = name := by
  by_cases hb : b = a
  · subst hb
    rw [add, Function.update_self, List.getElem?_append]
    split
    · rename_i hi
      simp [hi.ne]
    · rename_i hi
      rw [List.getElem?_eq_none (not_lt.mp hi), List.getElem?_singleton]
      rcases Nat.eq_or_lt_of_le (not_lt.mp hi) with rfl | hlt
      · simp [eq_comm]
      · simp [Nat.sub_eq_zero_iff_le, hlt, hlt.ne']
  · rw [add, Function.update_of_ne hb]
    simp [hb]

lemma nameOf?_add_type {a : Arena} {name other : String} {type : TypeRef} :
    (names.add a name).nameOf? type = some other ↔ names.nameOf? type = some other ∨
      other = name ∧ ((a = .enum ∧ type = .enum (names .enum).length) ∨
        (a = .union ∧ type = .union (names .union).length) ∨
        (a = .struct ∧ type = .struct (names .struct).length)) := by
  cases type with
  | prim p | array item => simp [nameOf?]
  | enum id | union id | struct id =>
    simp only [nameOf?, getElem?_add]
    cases a <;> simp [and_comm]

lemma Unique.add (h : names.Unique) {a : Arena} {name : String} (hfresh : ∀ b, name ∉ names b) :
    (names.add a name).Unique := by
  intro b c i j other hi hj
  rw [getElem?_add] at hi hj
  rcases hi with hi | ⟨rfl, rfl, rfl⟩ <;> rcases hj with hj | ⟨rfl, rfl, hother⟩
  · exact h _ _ _ _ _ hi hj
  · exact absurd (hother ▸ List.mem_of_getElem? hi) (hfresh b)
  · exact absurd (List.mem_of_getElem? hj) (hfresh c)
  · exact ⟨rfl, rfl⟩

lemma exists_mem_of_nameOf? {type : TypeRef} {name : String}
    (h : names.nameOf? type = some name) : ∃ a, name ∈ names a := by
  cases type with
  | prim p | array item => cases h
  | enum id | union id | struct id => exact ⟨_, List.mem_of_getElem? h⟩

lemma Unique.nodup (h : names.Unique) (a : Arena) : (names a).Nodup := by
  rw [List.nodup_iff_getElem?_ne_getElem?]
  intro i j hlt hj heq
  have hname := List.getElem?_eq_getElem hj
  exact hlt.ne (h a a i j _ (heq.trans hname) hname).2

/-- A name is that of one type. -/
lemma Unique.type_eq (h : names.Unique) {type type' : TypeRef} {name : String}
    (htype : names.nameOf? type = some name) (htype' : names.nameOf? type' = some name) :
    type = type' := by
  cases type <;> cases type' <;> simp only [nameOf?, reduceCtorEq] at htype htype' <;>
    simpa using h _ _ _ _ _ htype htype'

end Layout

/-! ## Scopes and what they describe -/

namespace Scope

variable {s s' : Scope} {names : Layout} {name : String}

/-- The scope with a position for a name that has been claimed. -/
def add (s : Scope) (a : Arena) (name : String) (id : Nat) : Scope :=
  match a with
  | .enum => s.addType name (.enum id)
  | .union => s.addType name (.union id)
  | .struct => s.addType name (.struct id)
  | .interface => s.addInterface name id
  | .module => s

/-- The tables have an entry for each position of a type or an interface and no others; all
names are in use, none is that of a primitive type, and none stands at two positions. -/
structure Describes (s : Scope) (names : Layout) : Prop where
  types : ∀ name type, (name, type) ∈ s.types ↔ names.nameOf? type = some name
  interfaces : ∀ name id, (name, id) ∈ s.interfaces ↔ (names .interface)[id]? = some name
  claimed : ∀ a, ∀ name ∈ names a, name ∈ s.claimed
  primitive : ∀ name ∈ s.claimed, Primitive.ofName? name = none
  unique : names.Unique

lemma claim_eq_ok (h : s.claim name = .ok s') : Primitive.ofName? name = none ∧
    name ∉ s.claimed ∧ s' = ⟨name :: s.claimed, s.types, s.interfaces⟩ := by
  unfold claim at h
  split at h
  · cases h
  · rename_i hname
    rw [Bool.or_eq_true, not_or, Option.isSome_iff_ne_none, not_not] at hname
    exact ⟨hname.1, by simpa using hname.2, (Except.ok.inj h).symm⟩

/-- A name that is claimed can be given the next position. -/
lemma Describes.add (hs : s.Describes names) (h : s.claim name = .ok s') (a : Arena) :
    (s'.add a name (names a).length).Describes (names.add a name) := by
  obtain ⟨hprimitive, hfresh, rfl⟩ := claim_eq_ok h
  have hclaimed : ∀ b, ∀ other ∈ names.add a name b, other ∈ name :: s.claimed := by
    intro b other hother
    obtain ⟨i, hi⟩ := List.mem_iff_getElem?.mp hother
    rcases Layout.getElem?_add.mp hi with hi | ⟨-, -, rfl⟩
    · exact List.mem_cons_of_mem _ (hs.claimed b other (List.mem_of_getElem? hi))
    · exact List.mem_cons_self
  have hunique := hs.unique.add (a := a) fun b hmem => hfresh (hs.claimed b name hmem)
  have hnone : ∀ other ∈ name :: s.claimed, Primitive.ofName? other = none :=
    List.forall_mem_cons.mpr ⟨hprimitive, hs.primitive⟩
  cases a with
  | enum | union | struct =>
    refine ⟨fun other type => ?_, fun other id => ?_, hclaimed, hnone, hunique⟩
    · simp [Scope.add, addType, hs.types, Layout.nameOf?_add_type]
    · simp [Scope.add, addType, hs.interfaces, Layout.getElem?_add]
  | interface =>
    refine ⟨fun other type => ?_, fun other id => ?_, hclaimed, hnone, hunique⟩
    · simp [Scope.add, addInterface, hs.types, Layout.nameOf?_add_type]
    · simp [Scope.add, addInterface, hs.interfaces, Layout.getElem?_add, and_comm]
  | module =>
    refine ⟨fun other type => ?_, fun other id => ?_, hclaimed, hnone, hunique⟩
    · simp [Scope.add, hs.types, Layout.nameOf?_add_type]
    · simp [Scope.add, hs.interfaces, Layout.getElem?_add]

/-- A table in which every name has one entry finds it. -/
lemma lookup_eq_some_iff_mem {α : Type} {entries : List (String × α)}
    (h : ∀ a b, (name, a) ∈ entries → (name, b) ∈ entries → a = b) {a : α} :
    entries.lookup name = some a ↔ (name, a) ∈ entries := by
  refine ⟨mem_of_lookup, fun ha => ?_⟩
  cases hlookup : entries.lookup name with
  | none =>
    rw [List.lookup_eq_none_iff] at hlookup
    simpa using hlookup _ ha
  | some b => rw [h a b ha (mem_of_lookup hlookup)]

lemma Describes.lookup_types (hs : s.Describes names) {type : TypeRef} :
    s.types.lookup name = some type ↔ names.nameOf? type = some name := by
  rw [lookup_eq_some_iff_mem, hs.types]
  intro type type' h h'
  exact hs.unique.type_eq ((hs.types _ _).mp h) ((hs.types _ _).mp h')

lemma Describes.lookup_interfaces (hs : s.Describes names) {id : Nat} :
    s.interfaces.lookup name = some id ↔ (names .interface)[id]? = some name := by
  rw [lookup_eq_some_iff_mem, hs.interfaces]
  intro id id' h h'
  exact (hs.unique _ _ _ _ _ ((hs.interfaces _ _).mp h) ((hs.interfaces _ _).mp h')).2

end Scope

/-! ## Declarations -/

lemma declare_cons_eq_ok {s s' : Scope} {names : Layout} {d : Package.Declaration}
    {ds : List Package.Declaration} (h : declare s names.counts (d :: ds) = .ok s') :
    ∃ s₁, s.claim d.name = .ok s₁ ∧
      declare (s₁.add (arenaOf d) d.name (names (arenaOf d)).length)
        (names.add (arenaOf d) d.name).counts ds = .ok s' := by
  rw [declare] at h
  split at h
  · cases h
  · rename_i s₁ hclaim
    refine ⟨s₁, hclaim, ?_⟩
    cases d <;> simpa [Layout.counts, Layout.add, arenaOf, Scope.add, Package.Declaration.name]
      using h

/-- **Declared names.**  Declarations that follow each other extend what a scope describes by
their names. -/
theorem declare_describes {s s' : Scope} {names : Layout} {ds : List Package.Declaration}
    (hs : s.Describes names) (h : declare s names.counts ds = .ok s') :
    s'.Describes fun a => names a ++ declaredNames ds a := by
  induction ds generalizing s names with
  | nil =>
    cases h
    simpa [declaredNames] using hs
  | cons d ds ih =>
    obtain ⟨s₁, hclaim, hmore⟩ := declare_cons_eq_ok h
    have hlayout : (fun a => names.add (arenaOf d) d.name a ++ declaredNames ds a) =
        fun a => names a ++ declaredNames (d :: ds) a := by
      funext a
      by_cases ha : arenaOf d = a
      · subst ha
        simp [Layout.add, declaredNames]
      · simp [Layout.add, declaredNames, ha, Ne.symm ha]
    exact hlayout ▸ ih (hs.add hclaim (arenaOf d)) hmore

end Schema

end SchemaRpc
