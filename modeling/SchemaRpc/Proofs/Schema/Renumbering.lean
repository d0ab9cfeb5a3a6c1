/-
# Types under the same names

A type is referred to by its position in one of the lists of a schema, and another schema may have
the types of the same names at other positions.  Two types are renumbered into each other if they
are made in the same way from primitive types and from types of one kind and name.

* `Renumbered.right_unique` says that names leave no choice,
* `Denotes.renumbered` that one type expression denotes types that are renumbered,
* `literalValue_renumbered` that literals do not depend on positions.
-/
import SchemaRpc.Proofs.Schema.Resolution

namespace SchemaRpc

namespace Schema

/-- Types of two layouts that are made in the same way from primitive types and from types of one
kind and name. -/
inductive Renumbered (names names' : Layout) : TypeRef → TypeRef → Prop where
  | prim (p : Primitive) : Renumbered names names' (.prim p) (.prim p)
  | enum {i j : Nat} {name : String} (hi : (names .enum)[i]? = some name)
    (hj : (names' .enum)[j]? = some name) : Renumbered names names' (.enum i) (.enum j)
  | union {i j : Nat} {name : String} (hi : (names .union)[i]? = some name)
    (hj : (names' .union)[j]? = some name) : Renumbered names names' (.union i) (.union j)
  | struct {i j : Nat} {name : String} (hi : (names .struct)[i]? = some name)
    (hj : (names' .struct)[j]? = some name) : Renumbered names names' (.struct i) (.struct j)
  | array {a b : TypeRef} (h : Renumbered names names' a b) :
    Renumbered names names' (.array a) (.array b)

/-- The names of a layout that occur in another one too do so in the same lists. -/
def Layout.Within (names names' : Layout) : Prop := ∀ a, names a ⊆ names' a

section

variable {names names' : Layout} {a b c : TypeRef} {name : String}

lemma Renumbered.symm (h : Renumbered names names' a b) : Renumbered names' names b a := by
  induction h with
  | prim p => exact .prim p
  | enum hi hj => exact .enum hj hi
  | union hi hj => exact .union hj hi
  | struct hi hj => exact .struct hj hi
  | array _ ih => exact .array ih

/-- No type has two counterparts. -/
lemma Renumbered.right_unique (hunique : names'.Unique) (h : Renumbered names names' a b)
    (h' : Renumbered names names' a c) : b = c := by
  induction h generalizing c with
  | prim p =>
    cases h'
    rfl
  | enum hi hj | union hi hj | struct hi hj =>
    cases h'
    rename_i hj' hi'
    rw [hi] at hi'
    cases hi'
    rw [(hunique _ _ _ _ _ hj hj').2]
  | array _ ih =>
    cases h' with
    | array h' => rw [ih h']

lemma exists_renumbered (ha : names.nameOf? a = some name)
    (hwithin : ∀ arena, name ∈ names arena → name ∈ names' arena) :
    ∃ b, names'.nameOf? b = some name ∧ Renumbered names names' a b := by
  cases a with
  | prim p | array item => cases ha
  | enum i =>
    obtain ⟨j, hj⟩ := List.mem_iff_getElem?.mp (hwithin _ (List.mem_of_getElem? ha))
    exact ⟨.enum j, hj, .enum ha hj⟩
  | union i =>
    obtain ⟨j, hj⟩ := List.mem_iff_getElem?.mp (hwithin _ (List.mem_of_getElem? ha))
    exact ⟨.union j, hj, .union ha hj⟩
  | struct i =>
    obtain ⟨j, hj⟩ := List.mem_iff_getElem?.mp (hwithin _ (List.mem_of_getElem? ha))
    exact ⟨.struct j, hj, .struct ha hj⟩

/-- Types of one name are renumbered into each other. -/
lemma renumbered_of_nameOf? (hwithin : names.Within names') (hunique : names'.Unique)
    (ha : names.nameOf? a = some name) (hb : names'.nameOf? b = some name) :
    Renumbered names names' a b := by
  obtain ⟨c, hc, hac⟩ := exists_renumbered ha fun arena => @hwithin arena name
  rwa [hunique.type_eq hb hc]

section

variable {s s' : Scope} (hs : s.Describes names) (hs' : s'.Describes names')
include hs hs'

/-- A type expression denotes types that are renumbered into each other. -/
lemma Denotes.renumbered (hwithin : names.Within names') {e : Package.TypeExpr}
    (h : Denotes s.types e a) (h' : Denotes s'.types e b) : Renumbered names names' a b := by
  induction h generalizing b with
  | primitive hp =>
    cases h' with
    | primitive hp' =>
      rw [hp] at hp'
      cases hp'
      exact .prim _
    | declared hp' _ =>
      rw [hp] at hp'
      cases hp'
  | declared hp h =>
    cases h' with
    | primitive hp' =>
      rw [hp] at hp'
      cases hp'
    | declared _ h' =>
      exact renumbered_of_nameOf? hwithin hs'.unique ((hs.types _ _).mp h)
        ((hs'.types _ _).mp h')
  | array _ ih =>
    cases h' with
    | array h' => exact .array (ih h')

end

/-! ## Literals -/

section

variable {enums enums' : List EnumType}
  (henums : ∀ i j, Renumbered names names' (.enum i) (.enum j) → enums[i]? = enums'[j]?)
include henums

/-- A literal has the same value, or the same fault, at types that are renumbered into each
other. -/
lemma literalValue_renumbered (h : Renumbered names names' a b) :
    literalValue enums a = literalValue enums' b := by
  induction h with
  | prim p =>
    funext literal
    rw [literalValue, literalValue]
  | enum hi hj =>
    funext literal
    rw [literalValue, literalValue, henums _ _ (.enum hi hj)]
  | union | struct =>
    funext literal
    rw [literalValue, literalValue]
  | array _ ih =>
    funext literal
    cases literal with
    | array literals => rw [literalValue, literalValue, ih]
    | _ => rfl

end

end

end Schema

end SchemaRpc
