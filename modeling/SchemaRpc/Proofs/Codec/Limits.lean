/-
# Wider limits

Decoding counts how deep it may still go, and so does passing over a member.  Neither count has a
say in what is read: two runs that differ in their budgets do the same, step by step, until the
smaller budget is used up and the run with it gives up.  `Narrows` says this of two operations.
It is put together along the operations, with one lemma for each of them, and for payloads it
says that limits only reject.
-/
import Mathlib.Tactic.Common
import SchemaRpc.Proofs.Codec.Versions

namespace SchemaRpc

namespace Codec

open Wire (Reader Kind)

/-! ## Runs that give up earlier -/

/-- The first operation does what the second does, unless it fails with an error of one kind. -/
def Narrows {ε α : Type} (stops : ε → Prop) (op op' : EStateM ε Reader α) : Prop :=
  ∀ r, op r = op' r ∨ ∃ e after, stops e ∧ op r = .error e after

namespace Narrows

section

variable {ε α β : Type} {stops : ε → Prop} {op op' : EStateM ε Reader α}

lemma refl (op : EStateM ε Reader α) : Narrows stops op op := fun _ => .inl rfl

lemma throw {e : ε} (he : stops e) : Narrows stops (throw e) op' := fun r => .inr ⟨e, r, he, rfl⟩

lemma bind {f g : α → EStateM ε Reader β} (h : Narrows stops op op')
    (hf : ∀ a, Narrows stops (f a) (g a)) : Narrows stops (op >>= f) (op' >>= g) := by
  intro r
  simp only [Bind.bind, EStateM.bind]
  obtain heq | ⟨e, after, he, hop⟩ := h r
  · rw [heq]
    cases op' r with
    | ok a after => exact hf a after
    | error e after => exact .inl rfl
  · exact .inr ⟨e, after, he, by rw [hop]⟩

/-- Two runs that begin with the same step. -/
lemma same_bind {f g : α → EStateM ε Reader β} (hf : ∀ a, Narrows stops (f a) (g a)) :
    Narrows stops (op >>= f) (op >>= g) := (refl op).bind hf

lemma ite {c : Prop} [Decidable c] {m m' : EStateM ε Reader α} (h : Narrows stops op op')
    (h' : Narrows stops m m') :
    Narrows stops (if c then op else m) (if c then op' else m') := by
  split
  · exact h
  · exact h'

end

end Narrows

/-! ## Passing over members -/

section

variable {budget budget' : Nat}

lemma narrows_skipItems {skipItem skipItem' : Kind → EStateM Wire.SkipError Reader Unit}
    (h : ∀ kind, Narrows (· = .tooDeep) (skipItem kind) (skipItem' kind)) (count : Nat) :
    Narrows (· = .tooDeep) (Reader.skipItems skipItem count) (Reader.skipItems skipItem' count) := by
  induction count with
  | zero => exact .refl _
  | succ count ih =>
    exact .same_bind fun start => .same_bind fun header =>
      .ite (.refl _) ((h header.kind).bind fun _ => ih)

/-- Arrays that are passed over may nest deeper, and nothing else is different. -/
lemma narrows_skip (h : budget ≤ budget') (kind : Kind) :
    Narrows (· = .tooDeep) (Reader.skip budget kind) (Reader.skip budget' kind) := by
  induction budget generalizing budget' kind with
  | zero =>
    cases kind with
    | repeated =>
      rw [Reader.skip]
      exact .throw rfl
    | _ => cases budget' <;> exact .refl _
  | succ budget ih =>
    obtain ⟨budget', rfl⟩ := Nat.exists_eq_add_one_of_ne_zero (Nat.ne_zero_of_lt h)
    cases kind with
    | repeated =>
      exact .same_bind fun count => narrows_skipItems (ih (Nat.le_of_succ_le_succ h)) count
    | _ => exact .refl _

end

/-- The error says that structs, unions or arrays are nested deeper than a limit. -/
def DecodeError.IsTooDeep (limit : Nat) (e : DecodeError) : Prop :=
  ∃ type offset, e = .tooDeep type limit offset

section

variable {s : Schema} {limit limit' budget budget' : Nat}

lemma narrows_passOver (h : budget ≤ budget') (type : TypeRef) (kind : Kind) :
    Narrows (DecodeError.IsTooDeep limit) (passOver s limit budget type kind)
      (passOver s limit' budget' type kind) := by
  intro r
  have hdeep (after : Reader) (hskip : Reader.skip budget kind r = .error .tooDeep after) :
      passOver s limit budget type kind r =
        .error (.tooDeep (s.typeName type) limit r.offset) after := by
    rw [passOver, hskip]
  obtain heq | ⟨_, after, rfl, hskip⟩ := narrows_skip h kind r
  · -- even runs that end alike may both be too deep, each by its own limit
    cases hskip : Reader.skip budget kind r with
    | ok a after =>
      rw [hskip] at heq
      rw [passOver, passOver, hskip, ← heq]
      exact .inl rfl
    | error e after =>
      rw [hskip] at heq
      cases e with
      | frame e =>
        rw [passOver, passOver, hskip, ← heq]
        exact .inl rfl
      | tooDeep => exact .inr ⟨_, after, ⟨_, _, rfl⟩, hdeep after hskip⟩
  · exact .inr ⟨_, after, ⟨_, _, rfl⟩, hdeep after hskip⟩

/-! ## Decoding -/

section

variable {member member' : MemberDecoder} (hmember : ∀ type kind,
  Narrows (DecodeError.IsTooDeep limit) (member type kind) (member' type kind))
include hmember

lemma narrows_decodeMembers (h : budget ≤ budget') (id fuel : Nat) (last : Option Tag)
    (done : Record) :
    Narrows (DecodeError.IsTooDeep limit)
      (decodeMembers s limit budget member id fuel last done)
      (decodeMembers s limit' budget' member' id fuel last done) := by
  induction fuel generalizing last done with
  | zero => exact .refl _
  | succ fuel ih =>
    rw [decodeMembers, decodeMembers]
    refine .same_bind fun start => .ite (.refl _) (.same_bind fun header => ?_)
    cases last.filter (header.tag ≤ ·) with
    | some previous => exact .refl _
    | none =>
      cases (s.structType id).fieldByTag? header.tag with
      | none => exact (narrows_passOver h _ _).bind fun _ => ih _ _
      | some f =>
        exact .same_bind fun isNull => .ite (.ite (ih _ _) (.refl _))
          ((hmember f.type header.kind).bind fun value => ih _ _)

lemma narrows_decodeRecord (h : budget ≤ budget') (id : Nat) :
    Narrows (DecodeError.IsTooDeep limit) (decodeRecord s limit budget member id)
      (decodeRecord s limit' budget' member' id) :=
  .same_bind fun start => (narrows_decodeMembers hmember h id start.remaining none .empty).bind
    fun _ => .refl _

lemma narrows_decodeVariant (id : Nat) :
    Narrows (DecodeError.IsTooDeep limit) (decodeVariant s member id)
      (decodeVariant s member' id) := by
  refine .same_bind fun start => .same_bind fun header => ?_
  cases (s.unionType id).variantByTag? header.tag with
  | none => exact .refl _
  | some v => exact (hmember v.type header.kind).bind fun payload => .refl _

lemma narrows_decodeItems (item : TypeRef) (count : Nat) (done : List Value) :
    Narrows (DecodeError.IsTooDeep limit) (decodeItems s member item count done)
      (decodeItems s member' item count done) := by
  induction count generalizing done with
  | zero => exact .refl _
  | succ count ih =>
    exact .same_bind fun start => .same_bind fun header => .ite (.refl _)
      ((hmember item header.kind).bind fun value => ih (value :: done))

end

lemma narrows_within {α : Type} {op op' : Decoding α} {stops : DecodeError → Prop}
    (h : Narrows stops op op') (block : Reader) :
    Narrows stops (within block op) (within block op') := by
  intro r
  simp only [within]
  obtain heq | ⟨e, after, he, hop⟩ := h block
  · rw [heq]
    exact .inl rfl
  · rw [hop]
    exact .inr ⟨e, r, he, rfl⟩

lemma narrows_tooDeep {α : Type} (type : TypeRef) (op : Decoding α) :
    Narrows (DecodeError.IsTooDeep limit) (tooDeep s limit type) op :=
  fun r => .inr ⟨_, r, ⟨_, _, rfl⟩, rfl⟩

/-- **Depth.**  Decoding a member with a smaller budget does the same as with a greater one, or
says that the limit was met. -/
theorem narrows_decodeMember (h : budget ≤ budget') (type : TypeRef) (kind : Kind) :
    Narrows (DecodeError.IsTooDeep limit) (decodeMember s limit budget type kind)
      (decodeMember s limit' budget' type kind) := by
  induction budget generalizing budget' type kind with
  | zero =>
    cases type with
    | prim p => cases budget' <;> exact .refl _
    | enum id => cases budget' <;> exact .refl _
    | struct id | union id | array item =>
      -- the smaller budget is used up, and the other run may do what it likes
      exact narrows_tooDeep _ _
  | succ budget ih =>
    obtain ⟨budget', rfl⟩ := Nat.exists_eq_add_one_of_ne_zero (Nat.ne_zero_of_lt h)
    have hle := Nat.le_of_succ_le_succ h
    cases type with
    | prim p => exact .refl _
    | enum id => exact .refl _
    | struct id =>
      exact .same_bind fun block =>
        (narrows_within (narrows_decodeRecord (ih hle) hle id) block).bind fun _ => .refl _
    | union id =>
      exact .same_bind fun block =>
        (narrows_within (narrows_decodeVariant (ih hle) id) block).bind fun _ => .refl _
    | array item =>
      exact .same_bind fun count =>
        (narrows_decodeItems (ih hle) item count []).bind fun _ => .refl _

end

lemma narrows_decodeTop (s : Schema) {limits limits' : Limits}
    (h : limits.maxDepth ≤ limits'.maxDepth) (type : TypeRef) :
    Narrows (DecodeError.IsTooDeep limits.maxDepth) (decodeTop s limits type)
      (decodeTop s limits' type) := by
  have hmember (type : TypeRef) (kind : Kind) : Narrows (DecodeError.IsTooDeep limits.maxDepth)
      (decodeMember s limits.maxDepth limits.maxDepth type kind)
      (decodeMember s limits'.maxDepth limits'.maxDepth type kind) := narrows_decodeMember h type kind
  cases type with
  | struct id => exact (narrows_decodeRecord hmember h id).bind fun _ => .refl _
  | union id => exact (narrows_decodeVariant hmember id).bind fun _ => .refl _
  | prim p | enum id | array item =>
    exact .same_bind fun start => .same_bind fun header => .ite (.refl _)
      ((hmember _ header.kind).bind fun value => .refl _)

/-! ## Payloads -/

/-- The error says that a limit was met: nothing may nest deeper, or the payload is too large. -/
def DecodeError.IsLimit : DecodeError → Prop
  | .tooDeep .. | .tooLarge .. => True
  | _ => False

/-- Limits are compared bound by bound. -/
instance : LE Limits where
  le x y := x.maxDepth ≤ y.maxDepth ∧ x.maxPayload ≤ y.maxPayload

/-- How the outcome within narrow limits and the outcome within wide limits are related. -/
structure OnlyRejects {α : Type} (narrow wide : Except DecodeError α) : Prop where
  ok {a : α} : narrow = .ok a → wide = .ok a
  error {e : DecodeError} : narrow = .error e → ¬ e.IsLimit → wide = .error e
  of_ok {a : α} : wide = .ok a → narrow = .ok a ∨ ∃ e, e.IsLimit ∧ narrow = .error e

lemma OnlyRejects.of_eq_or {α : Type} {narrow wide : Except DecodeError α}
    (h : narrow = wide ∨ ∃ e, e.IsLimit ∧ narrow = .error e) : OnlyRejects narrow wide := by
  obtain rfl | ⟨e, he, rfl⟩ := h
  · exact ⟨id, fun h _ => h, .inl⟩
  · refine ⟨fun h => ?_, fun h hlimit => ?_, fun _ => .inr ⟨e, he, rfl⟩⟩
    · cases h
    · cases h
      exact absurd he hlimit

/-- A payload of admissible size is decoded alike within two limits, or is too deep for the first
ones. -/
lemma Narrows.onPayload {α : Type} {limits limits' : Limits} {op op' : Decoding α}
    (h : Narrows (DecodeError.IsTooDeep limits.maxDepth) op op') {payload : Bytes}
    (hlen : payload.length ≤ limits.maxPayload) (hlen' : payload.length ≤ limits'.maxPayload) :
    onPayload limits payload op = onPayload limits' payload op' ∨
      ∃ e, e.IsTooDeep limits.maxDepth ∧ onPayload limits payload op = .error e := by
  rw [Codec.onPayload, Codec.onPayload, if_neg (Nat.not_lt.mpr hlen), if_neg (Nat.not_lt.mpr hlen')]
  obtain heq | ⟨e, after, he, hop⟩ := h (.ofBytes payload)
  · rw [heq]
    exact .inl rfl
  · rw [hop]
    exact .inr ⟨e, he, rfl⟩

lemma Narrows.onlyRejects {α : Type} {limits limits' : Limits} {op op' : Decoding α}
    (h : Narrows (DecodeError.IsTooDeep limits.maxDepth) op op') (hle : limits ≤ limits')
    (payload : Bytes) :
    OnlyRejects (Codec.onPayload limits payload op) (Codec.onPayload limits' payload op') := by
  refine .of_eq_or ?_
  by_cases hlen : payload.length ≤ limits.maxPayload
  · obtain heq | ⟨_, ⟨type, offset, rfl⟩, hop⟩ := h.onPayload hlen (hlen.trans hle.2)
    · exact .inl heq
    · exact .inr ⟨.tooDeep _ _ _, trivial, hop⟩
  · exact .inr ⟨.tooLarge _ _, trivial, if_pos (Nat.not_le.mp hlen)⟩

/-- **Limits only reject.**  What is decoded within some limits is decoded alike within wider
ones, and what is refused for another reason than the limits is refused for the same reason.  What
is decoded within wider limits is decoded alike or refused for the limits. -/
theorem limits_only_reject (s : Schema) {limits limits' : Limits} (h : limits ≤ limits')
    (payload : Bytes) :
    (∀ type, OnlyRejects (decode s limits payload type) (decode s limits' payload type)) ∧
    ∀ id, OnlyRejects (decodeStruct s limits payload id) (decodeStruct s limits' payload id) :=
  ⟨fun type => (narrows_decodeTop s h.1 type).onlyRejects h payload,
    fun id => (narrows_decodeRecord (narrows_decodeMember h.1) h.1 id).onlyRejects h payload⟩

/-- Narrow limits that are just met, and narrow limits that are not.  A parcel without its weight
is refused for that within all limits. -/
theorem limits_only_reject_parcel :
    (⟨2, 34⟩ : Limits) ≤ .default ∧ (⟨1, 34⟩ : Limits) ≤ .default ∧
    decode Schema.parcelsSchema ⟨2, 34⟩ parcelBytes (.struct 1) = .ok Schema.parcel ∧
    decode Schema.parcelsSchema .default parcelBytes (.struct 1) = .ok Schema.parcel ∧
    decode Schema.parcelsSchema ⟨1, 34⟩ [] (.struct 1) =
      .error (.missingField "Parcel" "weight" (.ofNat 1) 0) ∧
    decode Schema.parcelsSchema .default [] (.struct 1) =
      .error (.missingField "Parcel" "weight" (.ofNat 1) 0) ∧
    decode Schema.parcelsSchema ⟨1, 34⟩ parcelBytes (.struct 1) = .error (.tooDeep "Item" 1 9) := by
  have hle : (⟨2, 34⟩ : Limits) ≤ .default := ⟨by decide, by decide⟩
  have hle' : (⟨1, 34⟩ : Limits) ≤ .default := ⟨by decide, by decide⟩
  have hdecode : decode Schema.parcelsSchema ⟨2, 34⟩ parcelBytes (.struct 1) =
      .ok Schema.parcel := by rfl
  have hmissing : decode Schema.parcelsSchema ⟨1, 34⟩ [] (.struct 1) =
      .error (.missingField "Parcel" "weight" (.ofNat 1) 0) := by rfl
  exact ⟨hle, hle', hdecode, ((limits_only_reject _ hle _).1 _).ok hdecode, hmissing,
    ((limits_only_reject _ hle' _).1 _).error hmissing id, by rfl⟩

end Codec

end SchemaRpc
