/-
# Routes

A route names a method by a module, a member of the module and a method of the member's
interface.  Routes are ordered by module, then member, then method.
-/
import SchemaRpc.Ascending

namespace SchemaRpc

/-- The way to a method. -/
structure Route where
  module : String
  member : String
  method : String
deriving DecidableEq

namespace Route

/-- The text of a route in messages. -/
def text (r : Route) : String := s!"{r.module}.{r.member}.{r.method}"

/-- Whether a route stands before another in the order of names. -/
def Before (a b : Route) : Prop :=
  a.module < b.module ∨
    a.module = b.module ∧ (a.member < b.member ∨ a.member = b.member ∧ a.method < b.method)

instance before (a b : Route) : Decidable (a.Before b) := by
  unfold Before
  infer_instance

instance lt : LT Route := ⟨Before⟩

instance decidableLt : DecidableLT Route := fun a b => before a b

theorem lt_iff {a b : Route} : a < b ↔
    a.module < b.module ∨
      a.module = b.module ∧ (a.member < b.member ∨ a.member = b.member ∧ a.method < b.method) :=
  Iff.rfl

theorem lt_trans {a b c : Route} (hab : a < b) (hbc : b < c) : a < c := by
  rw [lt_iff] at *
  rcases hab with h | ⟨h, h' | ⟨h', h''⟩⟩ <;> rcases hbc with k | ⟨k, k' | ⟨k', k''⟩⟩
  · exact .inl (String.lt_trans h k)
  · exact .inl (k ▸ h)
  · exact .inl (k ▸ h)
  · exact .inl (h ▸ k)
  · exact .inr ⟨h.trans k, .inl (String.lt_trans h' k')⟩
  · exact .inr ⟨h.trans k, .inl (k' ▸ h')⟩
  · exact .inl (h ▸ k)
  · exact .inr ⟨h.trans k, .inl (h' ▸ k')⟩
  · exact .inr ⟨h.trans k, .inr ⟨h'.trans k', String.lt_trans h'' k''⟩⟩

/-- Routes can be the keys of an ascending map. -/
instance ltTrans : Trans (α := Route) (· < ·) (· < ·) (· < ·) := ⟨lt_trans⟩

end Route

end SchemaRpc
