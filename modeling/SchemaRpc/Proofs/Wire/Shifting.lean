/-
# Reading does not depend on where offsets are counted from

A reader that stands further on in a payload holds the same bytes and counts its offsets from an
earlier place.  It reads the same, and its errors have offsets that are larger by as much:
`Shifts` says so of two operations.  It is put together along the operations, like `Tracks`, and
there is one lemma for each of them.
-/
import SchemaRpc.Proofs.Wire.Tracking

namespace SchemaRpc

namespace Wire

/-- The reader that counts its offsets from `n` bytes earlier. -/
def Reader.shift (n : Nat) (r : Reader) : Reader := ⟨r.offset + n, r.rest⟩

/-- The error at an offset that is larger by `n`. -/
def FrameError.shift (n : Nat) (e : FrameError) : FrameError := ⟨e.offset + n, e.fault⟩

/-- The error at an offset that is larger by `n`, if it has one. -/
def SkipError.shift (n : Nat) : SkipError → SkipError
  | .frame e => .frame (e.shift n)
  | .tooDeep => .tooDeep

/-- The result of a run in which all offsets are larger by `n`, those in its error and those in its
value included. -/
def shifted {ε α : Type} (n : Nat) (onError : ε → ε) (onValue : α → α) :
    EStateM.Result ε Reader α → EStateM.Result ε Reader α
  | .ok a r => .ok (onValue a) (r.shift n)
  | .error e r => .error (onError e) (r.shift n)

/-- The first operation does at shifted readers what the second does, with all offsets shifted. -/
def Shifts {ε α : Type} (n : Nat) (onError : ε → ε) (onValue : α → α)
    (op op' : EStateM ε Reader α) : Prop :=
  ∀ r : Reader, op (r.shift n) = shifted n onError onValue (op' r)

namespace Shifts

section

variable {ε α β : Type} {n : Nat} {onError : ε → ε} {onValue : α → α} {onResult : β → β}
  {op op' : EStateM ε Reader α}

lemma pure (a : α) : Shifts n onError id (Pure.pure a) (Pure.pure a) := fun _ => rfl

lemma throw (e : ε) : Shifts n onError onValue (throw (onError e)) (throw e) := fun _ => rfl

lemma bind {f g : α → EStateM ε Reader β} (h : Shifts n onError onValue op op')
    (hf : ∀ a, Shifts n onError onResult (f (onValue a)) (g a)) :
    Shifts n onError onResult (op >>= f) (op' >>= g) := by
  intro r
  simp only [Bind.bind, EStateM.bind, h r]
  cases op' r with
  | ok a after => exact hf a after
  | error e after => rfl

/-- An operation that looks where it stands. -/
lemma get_bind {f g : Reader → EStateM ε Reader α}
    (h : ∀ start : Reader, Shifts n onError onValue (f (start.shift n)) (g start)) :
    Shifts n onError onValue (get >>= f) (get >>= g) := fun r => h r r

lemma ite {c : Prop} [Decidable c] {m m' : EStateM ε Reader α}
    (h : Shifts n onError onValue op op') (h' : Shifts n onError onValue m m') :
    Shifts n onError onValue (if c then op else m) (if c then op' else m') := by
  split
  · exact h
  · exact h'

end

end Shifts

namespace Reader

variable {n : Nat}

/-! ## Bytes, integers and headers -/

lemma shifts_failAt {α : Type} {onValue : α → α} (offset : Nat) (fault : Fault) :
    Shifts n (FrameError.shift n) onValue (failAt (offset + n) fault) (failAt offset fault) :=
  .throw (FrameError.mk offset fault)

/-- A failure where the reader stands. -/
lemma shifts_failHere {α : Type} {onValue : α → α} (fault : Fault) :
    Shifts n (FrameError.shift n) onValue (get >>= fun r => failAt r.offset fault)
      (get >>= fun r => failAt r.offset fault) :=
  .get_bind fun start => shifts_failAt start.offset fault

lemma shifts_take (length : Nat) :
    Shifts n (FrameError.shift n) id (take length) (take length) := by
  rintro ⟨offset, rest⟩
  have hrun (start : Nat) : take length ⟨start, rest⟩ = if hasAtLeast length rest then
      .ok (rest.take length) ⟨start + length, rest.drop length⟩
      else .error ⟨start, .short length rest.length⟩ ⟨start, rest⟩ := rfl
  rw [shift, hrun, hrun]
  split
  · simp only [shifted, shift, id_eq, Nat.add_right_comm]
  · rfl

lemma shifts_takeNat (width : Nat) :
    Shifts n (FrameError.shift n) id (takeNat width) (takeNat width) :=
  (shifts_take width).bind fun _ => .pure _

lemma shifts_takeInt (width : Nat) :
    Shifts n (FrameError.shift n) id (takeInt width) (takeInt width) :=
  (shifts_take width).bind fun _ => .pure _

lemma shifts_takeByte : Shifts n (FrameError.shift n) id takeByte takeByte :=
  (shifts_takeNat 1).bind fun _ => .pure _

lemma shifts_readHeader : Shifts n (FrameError.shift n) id readHeader readHeader :=
  shifts_takeByte.bind fun _ => .ite (.pure _) <|
    .ite ((shifts_takeNat 1).bind fun _ => .pure _) ((shifts_takeNat 2).bind fun _ => .pure _)

lemma shifts_takeNull (kind : Kind) :
    Shifts n (FrameError.shift n) id (takeNull kind) (takeNull kind) := by
  rintro ⟨offset, rest⟩
  cases kind with
  | block1 =>
    cases rest with
    | nil => rfl
    | cons b rest =>
      by_cases hb : b = 0
      · simp only [takeNull, shift, if_pos hb, shifted, id_eq, Nat.add_right_comm]
      · simp only [takeNull, shift, if_neg hb, shifted, id_eq]
  | _ => rfl

lemma shifts_readInt (kind : Kind) :
    Shifts n (FrameError.shift n) id (readInt kind) (readInt kind) := by
  cases kind with
  | int1 => exact shifts_takeInt 1
  | int2 => exact shifts_takeInt 2
  | int4 => exact shifts_takeInt 4
  | quad => exact shifts_takeInt 8
  | _ => exact shifts_failHere _

lemma shifts_readQuad (kind : Kind) :
    Shifts n (FrameError.shift n) id (readQuad kind) (readQuad kind) := by
  cases kind with
  | quad => exact (shifts_takeNat 8).bind fun _ => .pure _
  | _ => exact shifts_failHere _

lemma shifts_readFloat32 (kind : Kind) :
    Shifts n (FrameError.shift n) id (readFloat32 kind) (readFloat32 kind) := by
  cases kind with
  | int4 => exact (shifts_takeNat 4).bind fun _ => .pure _
  | _ => exact shifts_failHere _

lemma shifts_readFloat64 (kind : Kind) :
    Shifts n (FrameError.shift n) id (readFloat64 kind) (readFloat64 kind) :=
  (shifts_readQuad kind).bind fun _ => .pure _

/-! ## Blocks -/

lemma shifts_readLength (kind : Kind) :
    Shifts n (FrameError.shift n) id (readLength kind) (readLength kind) := by
  cases kind with
  | block1 => exact shifts_takeNat 1
  | block2 => exact shifts_takeNat 2
  | block4 | repeated => exact shifts_takeNat 4
  | _ => exact shifts_failHere _

/-- What was taken ends behind the start of the payload. -/
lemma le_offset_of_take {length : Nat} {r after : Reader} {bytes : Bytes}
    (h : take length r = .ok bytes after) : length ≤ after.offset := by
  rw [take] at h
  split at h
  · cases h
    exact Nat.le_add_left _ _
  · cases h

lemma shifts_readBytes (kind : Kind) :
    Shifts n (FrameError.shift n) id (readBytes kind) (readBytes kind) := by
  refine .get_bind fun start => (shifts_readLength kind).bind fun length => ?_
  by_cases hempty : kind = .repeated ∨ length = 0
  · simp only [id_eq, if_pos hempty]
    exact shifts_failAt start.offset .emptyBlock
  · simp only [id_eq, if_neg hempty]
    intro r
    simp only [Bind.bind, EStateM.bind, shifts_take length r]
    cases htake : take length r with
    | error e after => rfl
    | ok closed after =>
      simp only [shifted, id_eq]
      split
      · rfl
      · -- the last byte taken stands before the reader
        have hpos : 1 ≤ after.offset := by
          have hle := le_offset_of_take htake
          omega
        have hlast : after.offset + n - 1 = after.offset - 1 + n := by omega
        show EStateM.Result.error (FrameError.mk (after.offset + n - 1) .notClosed) _ = _
        rw [hlast]
        rfl

lemma shifts_readBlock (kind : Kind) :
    Shifts n (FrameError.shift n) (shift n) (readBlock kind) (readBlock kind) :=
  .ite ((shifts_readLength kind).bind fun length => .get_bind fun _ =>
    (shifts_take length).bind fun _ _ => rfl) (shifts_failHere _)

lemma shifts_readRepeat (kind : Kind) :
    Shifts n (FrameError.shift n) id (readRepeat kind) (readRepeat kind) :=
  .ite (.get_bind fun start => (shifts_readLength kind).bind fun _ => .get_bind fun _ =>
    .ite (.pure _) (shifts_failAt start.offset _)) (shifts_failHere _)

/-! ## Passing over members -/

lemma shifts_orFrame {α : Type} {onValue : α → α} {read read' : Reading α}
    (h : Shifts n (FrameError.shift n) onValue read read') :
    Shifts n (SkipError.shift n) onValue (orFrame read) (orFrame read') := by
  intro r
  rw [orFrame, orFrame, h r]
  cases read' r <;> rfl

/-- What is passed over is taken, and nothing is made of it. -/
lemma shifts_discard {α : Type} {onValue : α → α} {read : Reading α}
    (h : Shifts n (FrameError.shift n) onValue read read) :
    Shifts n (SkipError.shift n) id (do let _ ← orFrame read) (do let _ ← orFrame read) :=
  (shifts_orFrame h).bind fun _ => .pure _

lemma shifts_skipItems {skipItem : Kind → EStateM SkipError Reader Unit}
    (h : ∀ kind, Shifts n (SkipError.shift n) id (skipItem kind) (skipItem kind)) (count : Nat) :
    Shifts n (SkipError.shift n) id (skipItems skipItem count) (skipItems skipItem count) := by
  induction count with
  | zero => exact .pure ()
  | succ count ih =>
    exact .get_bind fun start => (shifts_orFrame shifts_readHeader).bind fun header =>
      .ite (.throw (SkipError.frame ⟨start.offset, .taggedItem⟩)) ((h header.kind).bind fun _ => ih)

lemma shifts_skip (depth : Nat) (kind : Kind) :
    Shifts n (SkipError.shift n) id (skip depth kind) (skip depth kind) := by
  induction depth generalizing kind with
  | zero =>
    cases kind with
    | int1 | int2 | int4 | quad => exact shifts_discard (shifts_take _)
    | block1 | block2 | block4 => exact shifts_discard (shifts_readBlock _)
    | repeated => exact .throw SkipError.tooDeep
  | succ depth ih =>
    cases kind with
    | int1 | int2 | int4 | quad => exact shifts_discard (shifts_take _)
    | block1 | block2 | block4 => exact shifts_discard (shifts_readBlock _)
    | repeated =>
      exact (shifts_orFrame (shifts_readRepeat .repeated)).bind fun count =>
        shifts_skipItems ih count

end Reader

/-! ## Ranges of a buffer -/

/-- The value or the error that a run ends with. -/
def ending {ε σ α : Type} : EStateM.Result ε σ α → Except ε α
  | .ok a _ => .ok a
  | .error e _ => .error e

/-- Where a run ends, with a value or with an error. -/
def endsAt {ε σ α : Type} : EStateM.Result ε σ α → σ
  | .ok _ s => s
  | .error _ s => s

/-- The bytes of a range. -/
def Span.bytes (s : Span) (b : Bytes) : Bytes := (b.drop s.pos).take (s.stop - s.pos)

/-- A reader in a buffer is a reader for a fresh buffer with the bytes of the range. -/
lemma Span.reader_eq_shift (s : Span) (b : Bytes) :
    s.reader b = (Reader.ofBytes (s.bytes b)).shift s.pos := by
  rw [reader, Reader.ofBytes, Reader.shift, Nat.zero_add, bytes]

lemma ending_shifted {ε α : Type} (n : Nat) (onError : ε → ε) (x : EStateM.Result ε Reader α) :
    ending (shifted n onError id x) = (ending x).mapError onError := by
  cases x <;> rfl

lemma Follows.ending_eq {ε α : Type} {b : Bytes} {bounded : ε → Prop} {s : Span}
    {x : EStateM.Result (Trap ⊕ ε) Span α} {y : EStateM.Result ε Reader α}
    (h : Follows b bounded Eq s x y) : ending x = (ending y).mapError .inr := by
  cases h with
  | ok hR =>
    subst hR
    rfl
  | error => rfl

end Wire

end SchemaRpc
