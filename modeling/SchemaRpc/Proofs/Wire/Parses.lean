/-
# What reading operations accept

A reading operation is described by the bytes that it takes off the front of a range when it
succeeds, and what it makes of them: `Parses op P` says that `op` succeeds with `a` exactly by
taking bytes related to `a` by `P`, whatever follows them.  Such a description is put together
along the operation, so what an operation accepts and what it does with it are shown at once.
The relations of the operations on single members are the layouts of headers, integers,
lengths, and closed and nested blocks.
-/
import Mathlib.Tactic.Common
import SchemaRpc.Proofs.Bytes
import SchemaRpc.Wire.Reader

namespace SchemaRpc

namespace Wire

/-- The reader `after` stands behind `bytes` as seen from `r`. -/
structure Reader.Past (r : Reader) (bytes : Bytes) (after : Reader) : Prop where
  rest_eq : r.rest = bytes ++ after.rest
  offset_eq : after.offset = r.offset + bytes.length

namespace Reader.Past

variable {r r₁ r₂ after : Reader} {bytes more : Bytes}

lemma nil (r : Reader) : r.Past [] r := ⟨rfl, rfl⟩

lemma mk_append (offset : Nat) (bytes rest : Bytes) :
    Past ⟨offset, bytes ++ rest⟩ bytes ⟨offset + bytes.length, rest⟩ := ⟨rfl, rfl⟩

lemma append (h₁ : r.Past bytes r₁) (h₂ : r₁.Past more r₂) : r.Past (bytes ++ more) r₂ := by
  refine ⟨?_, ?_⟩
  · rw [h₁.rest_eq, h₂.rest_eq, List.append_assoc]
  · rw [h₂.offset_eq, h₁.offset_eq, List.length_append, Nat.add_assoc]

/-- Standing behind two strings is standing behind the second as seen from behind the first. -/
lemma exists_of_append (h : r.Past (bytes ++ more) r₂) :
    ∃ r₁, r.Past bytes r₁ ∧ r₁.Past more r₂ := by
  refine ⟨⟨r.offset + bytes.length, more ++ r₂.rest⟩, ⟨?_, rfl⟩, ⟨rfl, ?_⟩⟩
  · rw [h.rest_eq, List.append_assoc]
  · rw [h.offset_eq, List.length_append, Nat.add_assoc]

lemma eq_of_nil (h : r.Past [] after) : after = r := by
  obtain ⟨offset, rest⟩ := r
  obtain ⟨offset', rest'⟩ := after
  obtain ⟨hrest, hoffset⟩ := h
  simp only [List.nil_append, List.length_nil, Nat.add_zero] at hrest hoffset
  rw [hrest, hoffset]

lemma length_eq (h : r.Past bytes after) : r.rest.length = bytes.length + after.rest.length := by
  rw [h.rest_eq, List.length_append]

end Reader.Past

/-! ## Descriptions of operations -/

/-- The operation succeeds with `a` exactly by taking bytes that `P` relates to `a`. -/
def Parses {ε α : Type} (op : EStateM ε Reader α) (P : Bytes → α → Prop) : Prop :=
  ∀ r a after, op r = .ok a after ↔ ∃ bytes, P bytes a ∧ r.Past bytes after

section

variable {ε α β : Type} {op : EStateM ε Reader α} {P Q : Bytes → α → Prop}

lemma bind_eq_ok_iff {f : α → EStateM ε Reader β} {r after : Reader} {b : β} :
    (op >>= f) r = .ok b after ↔ ∃ a r₁, op r = .ok a r₁ ∧ f a r₁ = .ok b after := by
  simp only [bind, EStateM.bind]
  cases op r with
  | ok a r₁ =>
    constructor
    · intro h
      exact ⟨a, r₁, rfl, h⟩
    · rintro ⟨a, r₁, ⟨⟩, h⟩
      exact h
  | error e r₁ => simp

/-- After a step that succeeds, the rest of a sequence is what is left to do. -/
lemma bind_eq_of_ok {f : α → EStateM ε Reader β} {r r₁ : Reader} {a : α}
    (h : op r = .ok a r₁) : (op >>= f) r = f a r₁ := by
  simp only [bind, EStateM.bind, h]

lemma pure_eq_ok_iff {a b : α} {r after : Reader} :
    (pure a : EStateM ε Reader α) r = .ok b after ↔ b = a ∧ after = r := by
  show EStateM.Result.ok a r = .ok b after ↔ _
  constructor
  · rintro ⟨⟩
    exact ⟨rfl, rfl⟩
  · rintro ⟨rfl, rfl⟩
    rfl

namespace Parses

lemma congr (h : Parses op P) (hPQ : ∀ bytes a, P bytes a ↔ Q bytes a) : Parses op Q := by
  intro r a after
  simp only [h r a after, hPQ]

lemma pure (a : α) :
    Parses (pure a : EStateM ε Reader α) fun bytes b => bytes = [] ∧ b = a := by
  intro r b after
  rw [pure_eq_ok_iff]
  constructor
  · rintro ⟨rfl, rfl⟩
    exact ⟨[], ⟨rfl, rfl⟩, .nil after⟩
  · rintro ⟨_, ⟨rfl, rfl⟩, h⟩
    exact ⟨rfl, h.eq_of_nil⟩

lemma throw (e : ε) : Parses (throw e : EStateM ε Reader α) fun _ _ => False := by
  intro r a after
  constructor
  · intro h
    cases h
  · rintro ⟨_, ⟨⟩, _⟩

lemma bind {f : α → EStateM ε Reader β} {R : α → Bytes → β → Prop} (h : Parses op P)
    (hf : ∀ a, Parses (f a) (R a)) :
    Parses (op >>= f) fun bytes b => ∃ a front back, bytes = front ++ back ∧ P front a ∧
      R a back b := by
  intro r b after
  rw [bind_eq_ok_iff]
  constructor
  · rintro ⟨a, r₁, hop, hfa⟩
    obtain ⟨front, hfront, hpast₁⟩ := (h r a r₁).mp hop
    obtain ⟨back, hback, hpast₂⟩ := (hf a r₁ b after).mp hfa
    exact ⟨front ++ back, ⟨a, front, back, rfl, hfront, hback⟩, hpast₁.append hpast₂⟩
  · rintro ⟨_, ⟨a, front, back, rfl, hfront, hback⟩, hpast⟩
    obtain ⟨r₁, hpast₁, hpast₂⟩ := hpast.exists_of_append
    exact ⟨a, r₁, (h r a r₁).mpr ⟨front, hfront, hpast₁⟩,
      (hf a r₁ b after).mpr ⟨back, hback, hpast₂⟩⟩

/-- Continuing without taking more bytes. -/
lemma bind_of_nil {f : α → EStateM ε Reader β} {R : α → β → Prop} (h : Parses op P)
    (hf : ∀ a, Parses (f a) fun bytes b => bytes = [] ∧ R a b) :
    Parses (op >>= f) fun bytes b => ∃ a, P bytes a ∧ R a b := by
  refine (h.bind hf).congr fun bytes b => ?_
  constructor
  · rintro ⟨a, front, back, rfl, hfront, rfl, hR⟩
    exact ⟨a, by simpa using hfront, hR⟩
  · rintro ⟨a, hP, hR⟩
    exact ⟨a, bytes, [], by simp, hP, rfl, hR⟩

/-- An operation that looks where it stands only to report errors. -/
lemma get_bind {f : Reader → EStateM ε Reader α} (hf : ∀ start, Parses (f start) P) :
    Parses (get >>= f) P := fun r => hf r r

lemma ite {c : Prop} [Decidable c] {op' : EStateM ε Reader α} (h : Parses op P)
    (h' : Parses op' Q) :
    Parses (if c then op else op') fun bytes a => if c then P bytes a else Q bytes a := by
  by_cases hc : c
  · simpa only [if_pos hc] using h
  · simpa only [if_neg hc] using h'

/-- What is accepted is accepted before any other bytes. -/
lemma run (h : Parses op P) {bytes : Bytes} {a : α} (hP : P bytes a) (offset : Nat)
    (rest : Bytes) : op ⟨offset, bytes ++ rest⟩ = .ok a ⟨offset + bytes.length, rest⟩ :=
  (h _ _ _).mpr ⟨bytes, hP, .mk_append offset bytes rest⟩

end Parses

end

/-! ## Bytes, integers and headers -/

namespace Reader

lemma parses_take (n : Nat) : Parses (take n) fun bytes a => bytes.length = n ∧ a = bytes := by
  intro r a after
  have hrun : take n r = if n ≤ r.rest.length then
      .ok (r.rest.take n) ⟨r.offset + n, r.rest.drop n⟩
      else .error ⟨r.offset, .short n r.remaining⟩ r := by
    simp only [take, hasAtLeast_iff]
  rw [hrun]
  constructor
  · intro h
    split at h
    · rename_i hn
      cases h
      have hlen : (r.rest.take n).length = n := by simp [hn]
      exact ⟨r.rest.take n, ⟨hlen, rfl⟩, ⟨by simp, by rw [hlen]⟩⟩
    · cases h
  · rintro ⟨_, ⟨rfl, rfl⟩, hrest, hoffset⟩
    have hn : a.length ≤ r.rest.length := by simp [hrest]
    rw [if_pos hn, hrest, ← hoffset]
    simp

lemma parses_takeNat (n : Nat) :
    Parses (takeNat n) fun bytes a => bytes.length = n ∧ a = Bytes.toNat bytes := by
  refine ((parses_take n).bind_of_nil fun a => .pure _).congr fun bytes a => ?_
  constructor
  · rintro ⟨_, ⟨hlen, rfl⟩, rfl⟩
    exact ⟨hlen, rfl⟩
  · rintro ⟨hlen, rfl⟩
    exact ⟨bytes, ⟨hlen, rfl⟩, rfl⟩

lemma parses_takeInt (n : Nat) :
    Parses (takeInt n) fun bytes a => bytes.length = n ∧ a = Bytes.toInt bytes := by
  refine ((parses_take n).bind_of_nil fun a => .pure _).congr fun bytes a => ?_
  constructor
  · rintro ⟨_, ⟨hlen, rfl⟩, rfl⟩
    exact ⟨hlen, rfl⟩
  · rintro ⟨hlen, rfl⟩
    exact ⟨bytes, ⟨hlen, rfl⟩, rfl⟩

lemma parses_takeByte : Parses takeByte fun bytes b => bytes = [b] := by
  refine ((parses_takeNat 1).bind_of_nil fun a => .pure _).congr fun bytes b => ?_
  constructor
  · rintro ⟨_, ⟨hlen, rfl⟩, rfl⟩
    obtain ⟨c, rfl⟩ := List.length_eq_one_iff.mp hlen
    simp
  · rintro rfl
    exact ⟨_, ⟨rfl, rfl⟩, by simp⟩

end Reader

end Wire

end SchemaRpc
