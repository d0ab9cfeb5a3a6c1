/-
# Registries as they are built

A registry is built by operations that bind handlers, with or without failures on the way.  It is
sound if the binding of each route carries the method that the schema has for the route.  Routes
are ordered by name, and a method is found under its route or something on the way is missing.
-/
import Mathlib.Data.String.Basic
import Mathlib.Order.RelClasses
import SchemaRpc.Dispatch.Registry
import SchemaRpc.Proofs.Ascending

namespace SchemaRpc

namespace Route

lemma lt_total (a b : Route) : a < b ∨ a = b ∨ b < a := by
  obtain ⟨module, member, method⟩ := a
  obtain ⟨module', member', method'⟩ := b
  simp only [lt_iff, Route.mk.injEq]
  rcases lt_trichotomy module module' with h | rfl | h
  · exact .inl (.inl h)
  · rcases lt_trichotomy member member' with h | rfl | h
    · exact .inl (.inr ⟨rfl, .inl h⟩)
    · rcases lt_trichotomy method method' with h | rfl | h
      · exact .inl (.inr ⟨rfl, .inr ⟨rfl, h⟩⟩)
      · exact .inr (.inl ⟨rfl, rfl, rfl⟩)
      · exact .inr (.inr (.inr ⟨rfl, .inr ⟨rfl, h⟩⟩))
    · exact .inr (.inr (.inr ⟨rfl, .inl h⟩))
  · exact .inr (.inr (.inl h))

instance strictTotalOrder : IsStrictTotalOrder Route (· < ·) where
  trichotomous a b hab hba := ((lt_total a b).resolve_left hab).resolve_right hba
  irrefl a h := by
    rcases lt_iff.mp h with h | ⟨-, h | ⟨-, h⟩⟩ <;> exact String.lt_irrefl _ h
  trans _ _ _ := lt_trans

instance linearOrder : LinearOrder Route := linearOrderOfSTO (· < ·)

end Route

/-! ## Methods of routes -/

namespace Schema

/-- Looking for a method finds it or says what is missing. -/
lemma findMethod_eq_ok_iff {s : Schema} {route : Route} {method : Method} :
    s.findMethod route = .ok method ↔ s.methodOf? route = some method := by
  rw [findMethod, methodOf?, route?]
  cases s.module? route.module with
  | none => simp
  | some module =>
    rw [Option.bind_eq_bind, Option.bind_some]
    dsimp only
    cases module.member? route.member with
    | none => simp
    | some member =>
      rw [Option.bind_eq_bind, Option.bind_some]
      dsimp only
      cases (s.interfaceType member.interface).method? route.method <;> simp

end Schema

/-! ## Operations on registries -/

namespace Registry

variable {H : Type} {r r' : Registry H}

/-- The operation ends with a registry, whether it succeeds or fails. -/
def Leaves {α : Type} (op : Setup H α) (r r' : Registry H) : Prop :=
  (∃ a, op r = .ok a r') ∨ ∃ e, op r = .error e r'

lemma Leaves.eq_of_ok {α : Type} {op : Setup H α} {a : α} {r₁ : Registry H} (h : Leaves op r r')
    (hrun : op r = .ok a r₁) : r' = r₁ := by
  rw [Leaves, hrun] at h
  rcases h with ⟨_, ⟨⟩⟩ | ⟨_, ⟨⟩⟩
  rfl

lemma Leaves.eq_of_error {α : Type} {op : Setup H α} {e : BindError} {r₁ : Registry H}
    (h : Leaves op r r') (hrun : op r = .error e r₁) : r' = r₁ := by
  rw [Leaves, hrun] at h
  rcases h with ⟨_, ⟨⟩⟩ | ⟨_, ⟨⟩⟩
  rfl

/-- A registry that was built: it has no handlers at first, and operations that bind handlers
change it, also where they fail. -/
inductive Built : Registry H → Prop
  | ofSchema (s : Schema) : Built (ofSchema s)
  | implement {r r' : Registry H} {route : Route} {handler : H} (h : Built r)
    (hrun : Leaves (implement route handler) r r') : Built r'
  | mount {r r' : Registry H} {module member : String} {handlers : Ascending String H none}
    (h : Built r) (hrun : Leaves (mount module member handlers) r r') : Built r'

/-- Every binding carries the method that the schema has for its route. -/
def Sound (r : Registry H) : Prop :=
  ∀ route binding, r.lookup route = some binding →
    r.schema.methodOf? route = some binding.method

end Registry

end SchemaRpc
