/-
# Results of operations that may fail

When a sequence of operations succeeds, every one of them has, each with the result that the
next one starts from; when it fails, it fails as one of them does.
-/
import Mathlib.Tactic.Common

namespace SchemaRpc

namespace Outcome

variable {ε ε' α β : Type}

lemma ok_bind {a : α} {f : α → Except ε β} : Except.ok a >>= f = f a := rfl

lemma bind_eq_ok_iff {x : Except ε α} {f : α → Except ε β} {b : β} :
    x >>= f = .ok b ↔ ∃ a, x = .ok a ∧ f a = .ok b := by
  cases x with
  | error e =>
    constructor
    · intro h
      cases h
    · rintro ⟨a, ⟨⟩, -⟩
  | ok a =>
    constructor
    · intro h
      exact ⟨a, rfl, h⟩
    · rintro ⟨_, ⟨⟩, h⟩
      exact h

lemma map_eq_ok_iff {x : Except ε α} {f : α → β} {b : β} :
    x.map f = .ok b ↔ ∃ a, x = .ok a ∧ f a = b := by
  cases x <;> simp [Except.map]

lemma mapError_eq_ok_iff {x : Except ε α} {f : ε → ε'} {a : α} :
    x.mapError f = .ok a ↔ x = .ok a := by
  cases x <;> simp [Except.mapError]

lemma toOption_eq_some_iff {x : Except ε α} {a : α} : x.toOption = some a ↔ x = .ok a := by
  cases x <;> simp [Except.toOption]

lemma pure_eq_ok_iff {a b : α} : (pure a : Except ε α) = .ok b ↔ a = b := by
  show Except.ok a = .ok b ↔ _
  rw [Except.ok.injEq]

/-! ## Failure -/

/-- Whatever error a result is, it has the property. -/
def FailsWith (P : ε → Prop) (x : Except ε α) : Prop := ∀ e, x = .error e → P e

variable {P : ε → Prop}

lemma failsWith_ok (a : α) : FailsWith P (.ok a) := by
  intro e he
  cases he

lemma failsWith_error {e : ε} (h : P e) : FailsWith P (.error e : Except ε α) := by
  rintro e' ⟨⟩
  exact h

lemma FailsWith.map {x : Except ε α} (h : FailsWith P x) (f : α → β) : FailsWith P (x.map f) := by
  cases x with
  | ok a => exact failsWith_ok (f a)
  | error e => exact failsWith_error (h e rfl)

lemma FailsWith.bind {x : Except ε α} (h : FailsWith P x) {f : α → Except ε β}
    (hf : ∀ a, x = .ok a → FailsWith P (f a)) : FailsWith P (x >>= f) := by
  cases x with
  | ok a => exact hf a rfl
  | error e => exact failsWith_error (h e rfl)

lemma failsWith_mapError {x : Except ε' α} {f : ε' → ε} (h : ∀ e, P (f e)) :
    FailsWith P (x.mapError f) := by
  cases x with
  | ok a => exact failsWith_ok a
  | error e => exact failsWith_error (h e)

end Outcome

end SchemaRpc
