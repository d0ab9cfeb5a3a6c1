/-
# Checked reading follows reading

`Tracks` says that a checked operation on places does what an operation on readers does: it never
traps, every place that it comes to lies in the range, and every error has an offset inside the
buffer.  This is put together along the operations, and there is one lemma for each of them.
-/
import Mathlib.Data.List.Basic
import SchemaRpc.Proofs.Wire.Checked
import SchemaRpc.Proofs.Wire.Layout

namespace SchemaRpc

namespace Wire

/-! ## Places and readers -/

/-- The place lies in its range and the range in the buffer. -/
structure Span.Inside (s : Span) (b : Bytes) : Prop where
  pos_le : s.pos ≤ s.stop
  stop_le : s.stop ≤ b.length

/-- The reader that stands at a place. -/
def Span.reader (s : Span) (b : Bytes) : Reader := ⟨s.pos, (b.drop s.pos).take (s.stop - s.pos)⟩

/-- The outcome of a checked operation at a place and of an operation at the reader of this place:
they end in the same way, further on in the same range, and without a trap. -/
inductive Follows {ε α β : Type} (b : Bytes) (bounded : ε → Prop) (R : α → β → Prop) (s : Span) :
    EStateM.Result (Trap ⊕ ε) Span α → EStateM.Result ε Reader β → Prop where
  | ok {a : α} {a' : β} {s' : Span} (hR : R a a') (inside : s'.Inside b) (hpos : s.pos ≤ s'.pos)
    (hstop : s'.stop = s.stop) : Follows b bounded R s (.ok a s') (.ok a' (s'.reader b))
  | error {e : ε} {s' : Span} {r : Reader} (h : bounded e) :
    Follows b bounded R s (.error (.inr e) s') (.error e r)

/-- A checked operation does at every place what an operation on readers does at its reader. -/
def Tracks {ε α β : Type} (b : Bytes) (bounded : ε → Prop) (R : α → β → Prop) (m : Checked ε α)
    (p : EStateM ε Reader β) : Prop :=
  ∀ s : Span, s.Inside b → Follows b bounded R s (m s) (p (s.reader b))

section

variable {b : Bytes} {s : Span}

lemma Span.Inside.length_rest (h : s.Inside b) : (s.reader b).rest.length = s.stop - s.pos := by
  obtain ⟨hpos, hstop⟩ := h
  simp only [reader, List.length_take, List.length_drop]
  omega

lemma Span.Inside.pos_le_length (h : s.Inside b) : s.pos ≤ b.length :=
  Nat.le_trans h.pos_le h.stop_le

lemma Span.Inside.isEmpty_reader_iff (h : s.Inside b) : (s.reader b).isEmpty ↔ s.stop ≤ s.pos := by
  rw [Reader.isEmpty, List.isEmpty_iff_length_eq_zero, h.length_rest]
  omega

lemma Span.inside_whole (b : Bytes) : Span.Inside ⟨0, b.length⟩ b :=
  ⟨Nat.zero_le _, Nat.le_refl _⟩

/-- The whole buffer is the range that reading begins with. -/
lemma Span.reader_whole (b : Bytes) : Span.reader ⟨0, b.length⟩ b = .ofBytes b := by
  simp [reader, Reader.ofBytes]

/-- The next byte of a reader is the one at its place. -/
lemma Span.rest_eq_cons (hlt : s.pos < s.stop) (hlength : s.pos < b.length) :
    (s.reader b).rest = b[s.pos] :: (reader ⟨s.pos + 1, s.stop⟩ b).rest := by
  simp only [reader]
  rw [List.drop_eq_getElem_cons hlength, show s.stop - s.pos = s.stop - (s.pos + 1) + 1 by omega,
    List.take_succ_cons]

end

section

variable {ε α α' β β' : Type} {b : Bytes} {E : ε → Prop} {R : α → β → Prop} {Q : α' → β' → Prop}
  {m : Checked ε α} {p : EStateM ε Reader β}

/-- Going on after a step that was made at a place. -/
lemma Follows.bind {s : Span} (h : Follows b E R s (m s) (p (s.reader b)))
    {f : α → Checked ε α'} {g : β → EStateM ε Reader β'}
    (hf : ∀ a a' s', R a a' → s'.Inside b → s.pos ≤ s'.pos → s'.stop = s.stop → m s = .ok a s' →
      p (s.reader b) = .ok a' (s'.reader b) → Follows b E Q s' (f a s') (g a' (s'.reader b))) :
    Follows b E Q s ((m >>= f) s) ((p >>= g) (s.reader b)) := by
  simp only [Bind.bind, EStateM.bind]
  generalize m s = x at h hf
  generalize p (s.reader b) = y at h hf
  cases h with
  | @ok a a' s' hR inside hpos hstop =>
    have hf := hf a a' s' hR inside hpos hstop rfl rfl
    dsimp only
    generalize f a s' = x at hf
    generalize g a' (s'.reader b) = y at hf
    cases hf with
    | ok hQ inside' hpos' hstop' =>
      exact .ok hQ inside' (Nat.le_trans hpos hpos') (hstop'.trans hstop)
    | error he => exact .error he
  | error he => exact .error he

namespace Tracks

lemma pure {a : α} {a' : β} (h : R a a') :
    Tracks b E R (Pure.pure a) (Pure.pure a') := fun _ hs =>
  .ok h hs (Nat.le_refl _) rfl

lemma fail {e : ε} (h : E e) : Tracks b E R (Checked.fail e) (throw e) := fun _ _ => .error h

lemma bind {f : α → Checked ε α'} {g : β → EStateM ε Reader β'} (h : Tracks b E R m p)
    (hf : ∀ a a', R a a' → Tracks b E Q (f a) (g a')) : Tracks b E Q (m >>= f) (p >>= g) :=
  fun s hs => (h s hs).bind fun a a' s' hR inside _ _ _ _ => hf a a' hR s' inside

lemma bind_eq {p : EStateM ε Reader α} {f : α → Checked ε α'} {g : α → EStateM ε Reader β'}
    (h : Tracks b E Eq m p) (hf : ∀ a, Tracks b E Q (f a) (g a)) :
    Tracks b E Q (m >>= f) (p >>= g) :=
  h.bind fun a _ ha => ha ▸ hf a

lemma map {p : EStateM ε Reader α} (h : Tracks b E Eq m p) (f : α → α') :
    Tracks b E Eq (f <$> m) (f <$> p) := by
  rw [map_eq_pure_bind, map_eq_pure_bind]
  exact h.bind_eq fun _ => .pure rfl

lemma ite_of_iff {c c' : Prop} [Decidable c] [Decidable c'] (hcc : c ↔ c') {m' : Checked ε α}
    {p' : EStateM ε Reader β} (h : c → Tracks b E R m p) (h' : ¬ c → Tracks b E R m' p') :
    Tracks b E R (if c then m else m') (if c' then p else p') := by
  by_cases hc : c
  · simpa only [if_pos hc, if_pos (hcc.mp hc)] using h hc
  · simpa only [if_neg hc, if_neg (mt hcc.mpr hc)] using h' hc

lemma ite {c : Prop} [Decidable c] {m' : Checked ε α} {p' : EStateM ε Reader β}
    (h : c → Tracks b E R m p) (h' : ¬ c → Tracks b E R m' p') :
    Tracks b E R (if c then m else m') (if c then p else p') := ite_of_iff Iff.rfl h h'

/-- An operation that looks where it stands, only to report errors. -/
lemma get_bind {f : Span → Checked ε α'} {g : Reader → EStateM ε Reader β'}
    (hf : ∀ start : Span, start.Inside b → Tracks b E Q (f start) (g (start.reader b))) :
    Tracks b E Q (get >>= f) (get >>= g) := fun s hs => hf s hs s hs

end Tracks

/-- A checked run ends like a run, without a trap. -/
inductive Agrees (bounded : ε → Prop) (R : α → β → Prop) :
    Except (Trap ⊕ ε) α → Except ε β → Prop where
  | ok {a : α} {a' : β} (hR : R a a') : Agrees bounded R (.ok a) (.ok a')
  | error {e : ε} (h : bounded e) : Agrees bounded R (.error (.inr e)) (.error e)

namespace Agrees

lemma bind {x : Except (Trap ⊕ ε) α} {y : Except ε β} (h : Agrees E R x y)
    {f : α → Except (Trap ⊕ ε) α'} {g : β → Except ε β'}
    (hf : ∀ a a', R a a' → Agrees E Q (f a) (g a')) : Agrees E Q (x >>= f) (y >>= g) := by
  cases h with
  | ok hR => exact hf _ _ hR
  | error he => exact .error he

lemma bind_eq {x : Except (Trap ⊕ ε) α} {y : Except ε α} (h : Agrees E Eq x y)
    {f : α → Except (Trap ⊕ ε) α'} {g : α → Except ε β'} (hf : ∀ a, Agrees E Q (f a) (g a)) :
    Agrees E Q (x >>= f) (y >>= g) :=
  h.bind fun a _ ha => ha ▸ hf a

lemma eq_mapError {x : Except (Trap ⊕ ε) α} {y : Except ε α} (h : Agrees E Eq x y) :
    x = y.mapError .inr := by
  cases h with
  | ok hR => rw [hR]; rfl
  | error => rfl

lemma of_error {x : Except (Trap ⊕ ε) α} {y : Except ε β} (h : Agrees E R x y) {e : ε}
    (he : y = .error e) : E e := by
  subst he
  cases h with
  | error he => exact he

end Agrees

end

/-- The offset of an error lies in the buffer. -/
def FrameError.Within (b : Bytes) (e : FrameError) : Prop := e.offset ≤ b.length

/-- The offset of a framing error lies in the buffer. -/
def SkipError.Within (b : Bytes) : SkipError → Prop
  | .frame e => e.Within b
  | .tooDeep => True

namespace Checked

variable {b : Bytes}

section

variable {ε α β : Type} {s : Span}

lemma bind_run {m : Checked ε α} {f : α → Checked ε β} {s' : Span} {a : α} (h : m s = .ok a s') :
    (m >>= f) s = f a s' := by
  simp only [bind, EStateM.bind, h]

lemma get_bind_run (f : Span → Checked ε β) : (get >>= f) s = f s s := rfl

lemma pure_bind_run (a : α) (f : α → Checked ε β) : (pure a >>= f) s = f a s := rfl

lemma minus_eq {m n : Nat} (h : n ≤ m) : (minus m n : Checked ε Nat) = pure (m - n) := if_pos h

lemma slice_eq {bytes : Bytes} {start stop : Nat} (h : start ≤ stop)
    (hstop : stop ≤ bytes.length) :
    (slice bytes start stop : Checked ε Bytes) = pure ((bytes.drop start).take (stop - start)) :=
  if_pos ⟨h, hstop⟩

lemma index_eq {bytes : Bytes} {i : Nat} (h : i < bytes.length) :
    (index bytes i : Checked ε UInt8) = pure bytes[i] := by
  rw [index, List.getElem?_eq_getElem h]

lemma goTo_run (hs : s.Inside b) {pos : Nat} (h : pos ≤ s.stop) :
    (goTo b pos : Checked ε Unit) s = .ok () ⟨pos, s.stop⟩ := by
  rw [goTo, get_bind_run, if_pos ⟨h, hs.stop_le⟩]
  rfl

lemma remaining_run (hs : s.Inside b) : (remaining : Checked ε Nat) s = .ok (s.stop - s.pos) s := by
  rw [remaining, get_bind_run, minus_eq hs.pos_le]
  rfl

end

/-- Asking how many bytes are left does no harm. -/
lemma tracks_remaining_bind {ε α β : Type} {E : ε → Prop} {R : α → β → Prop}
    {f : Nat → Checked ε α} {p : EStateM ε Reader β} (h : ∀ n, Tracks b E R (f n) p) :
    Tracks b E R (remaining >>= f) p := by
  intro s hs
  rw [bind_run (remaining_run hs)]
  exact h _ s hs

lemma take_run {s : Span} (hs : s.Inside b) (n : Nat) :
    take b n s = if s.stop - s.pos < n then
        .error (.inr ⟨s.pos, .short n (s.stop - s.pos)⟩) s
      else .ok ((b.drop s.pos).take n) ⟨s.pos + n, s.stop⟩ := by
  have hpos := hs.pos_le
  have hstop := hs.stop_le
  rw [take, get_bind_run, bind_run (remaining_run hs)]
  split
  · rfl
  · rw [slice_eq (by omega) (by omega), pure_bind_run, bind_run (goTo_run hs (by omega)),
      Nat.add_sub_cancel_left]
    rfl

/-- What taking bytes gives, if it succeeds. -/
lemma take_ok {s s' : Span} {n : Nat} {bytes : Bytes} (hs : s.Inside b)
    (h : take b n s = .ok bytes s') : bytes = (b.drop s.pos).take n ∧ s' = ⟨s.pos + n, s.stop⟩ := by
  rw [take_run hs] at h
  split at h
  · cases h
  · cases h
    exact ⟨rfl, rfl⟩

lemma tracks_take (n : Nat) :
    Tracks b (FrameError.Within b) (fun a a' => a = a' ∧ a.length = n) (take b n)
      (Reader.take n) := by
  intro s hs
  have hplain : Reader.take n (s.reader b) = if s.stop - s.pos < n then
        .error ⟨s.pos, .short n (s.stop - s.pos)⟩ (s.reader b)
      else .ok ((b.drop s.pos).take n) (Span.reader ⟨s.pos + n, s.stop⟩ b) := by
    simp only [Reader.take, Reader.hasAtLeast_iff, hs.length_rest, Reader.remaining]
    by_cases hn : n ≤ s.stop - s.pos
    · rw [if_pos hn, if_neg (Nat.not_lt.mpr hn)]
      simp [Span.reader, List.take_take, List.drop_take, hn, Nat.sub_sub]
    · rw [if_neg hn, if_pos (Nat.not_le.mp hn)]
      rfl
  rw [take_run hs, hplain]
  have hpos := hs.pos_le
  have hstop := hs.stop_le
  split
  · exact .error hs.pos_le_length
  · refine .ok ⟨rfl, ?_⟩ ⟨?_, hstop⟩ (Nat.le_add_right _ _) rfl
    · rw [List.length_take, List.length_drop]
      omega
    · show s.pos + n ≤ s.stop
      omega

lemma tracks_takeExactly (n : Nat) :
    Tracks b (FrameError.Within b) Eq (takeExactly b n) (Reader.take n) := by
  rw [← bind_pure (Reader.take n)]
  refine (tracks_take n).bind fun bytes _ h => ?_
  obtain ⟨rfl, hlength⟩ := h
  rw [if_pos hlength]
  exact .pure rfl

lemma tracks_takeNat (n : Nat) :
    Tracks b (FrameError.Within b) Eq (takeNat b n) (Reader.takeNat n) :=
  (tracks_takeExactly n).bind_eq fun _ => .pure rfl

lemma tracks_takeInt (n : Nat) :
    Tracks b (FrameError.Within b) Eq (takeInt b n) (Reader.takeInt n) :=
  (tracks_takeExactly n).bind_eq fun _ => .pure rfl

lemma tracks_takeByte : Tracks b (FrameError.Within b) Eq (takeByte b) Reader.takeByte :=
  (tracks_takeNat 1).bind_eq fun _ => .pure rfl

/-- A range beyond the buffer is noticed by the checks. -/
example : takeByte [] ⟨0, 1⟩ = .error (.inl .outOfBounds) ⟨0, 1⟩ := rfl

lemma tracks_readHeader : Tracks b (FrameError.Within b) Eq (readHeader b) Reader.readHeader :=
  tracks_takeByte.bind_eq fun _ => .ite (fun _ => .pure rfl) fun _ =>
    .ite (fun _ => (tracks_takeNat 1).bind_eq fun _ => .pure rfl) fun _ =>
      (tracks_takeNat 2).bind_eq fun _ => .pure rfl

/-- A header takes at least one byte. -/
lemma left_lt_of_readHeader {header : Header} {place place' : Span} (hs : place.Inside b)
    (hs' : place'.Inside b)
    (h : Reader.readHeader (place.reader b) = .ok header (place'.reader b)) :
    place'.stop - place'.pos < place.stop - place.pos := by
  obtain ⟨head, hhead, hpast⟩ := (Reader.parses_readHeader _ _ _).mp h
  have hlength := hpast.length_eq
  rw [hs.length_rest, hs'.length_rest] at hlength
  have hpos := hhead.length_pos
  omega

/-- A failure where the reader stands. -/
lemma tracks_failHere {α β : Type} {R : α → β → Prop} (fault : Fault) :
    Tracks b (FrameError.Within b) R (get >>= fun s => fail ⟨s.pos, fault⟩)
      (get >>= fun r => Reader.failAt r.offset fault) :=
  .get_bind fun _ inside => .fail inside.pos_le_length

lemma tracks_readInt (kind : Kind) :
    Tracks b (FrameError.Within b) Eq (readInt b kind) (Reader.readInt kind) := by
  cases kind with
  | int1 => exact tracks_takeInt 1
  | int2 => exact tracks_takeInt 2
  | int4 => exact tracks_takeInt 4
  | quad => exact tracks_takeInt 8
  | block1 | block2 | block4 | repeated => exact tracks_failHere _

lemma tracks_readQuad (kind : Kind) :
    Tracks b (FrameError.Within b) Eq (readQuad b kind) (Reader.readQuad kind) := by
  cases kind with
  | quad => exact (tracks_takeNat 8).bind_eq fun _ => .pure rfl
  | _ => exact tracks_failHere _

lemma tracks_readFloat32 (kind : Kind) :
    Tracks b (FrameError.Within b) Eq (readFloat32 b kind) (Reader.readFloat32 kind) := by
  cases kind with
  | int4 => exact (tracks_takeNat 4).bind_eq fun _ => .pure rfl
  | _ => exact tracks_failHere _

lemma tracks_readFloat64 (kind : Kind) :
    Tracks b (FrameError.Within b) Eq (readFloat64 b kind) (Reader.readFloat64 kind) :=
  (tracks_readQuad kind).bind_eq fun _ => .pure rfl

lemma tracks_readLength (kind : Kind) :
    Tracks b (FrameError.Within b) Eq (readLength b kind) (Reader.readLength kind) := by
  cases kind with
  | block1 => exact tracks_takeNat 1
  | block2 => exact tracks_takeNat 2
  | block4 | repeated => exact tracks_takeNat 4
  | _ => exact tracks_failHere _

lemma tracks_takeNull (kind : Kind) :
    Tracks b (FrameError.Within b) Eq (takeNull b kind) (Reader.takeNull kind) := by
  intro s hs
  rw [takeNull, get_bind_run]
  by_cases hnext : kind = .block1 ∧ s.pos < s.stop
  · obtain ⟨rfl, hlt⟩ := hnext
    have hlength : s.pos < b.length := Nat.lt_of_lt_of_le hlt hs.stop_le
    have hplain : Reader.takeNull .block1 (s.reader b) =
        if b[s.pos] = 0 then .ok true (Span.reader ⟨s.pos + 1, s.stop⟩ b)
        else .ok false (s.reader b) := by
      simp only [Reader.takeNull, Span.rest_eq_cons hlt hlength]
      rfl
    rw [if_pos ⟨rfl, hlt⟩, index_eq hlength, pure_bind_run, hplain]
    split
    · rw [bind_run (goTo_run hs hlt)]
      exact .ok rfl ⟨hlt, hs.stop_le⟩ (Nat.le_succ _) rfl
    · exact .ok rfl hs (Nat.le_refl _) rfl
  · have hplain : Reader.takeNull kind (s.reader b) = .ok false (s.reader b) := by
      cases kind with
      | block1 =>
        have hempty : (s.reader b).rest = [] :=
          List.isEmpty_iff.mp (hs.isEmpty_reader_iff.mpr (by simpa using hnext))
        simp only [Reader.takeNull, hempty]
      | _ => rfl
    rw [if_neg hnext, hplain]
    exact .ok rfl hs (Nat.le_refl _) rfl

/-- The closing byte of a text or byte string. -/
lemma tracks_readBytes (kind : Kind) :
    Tracks b (FrameError.Within b) Eq (readBytes b kind) (Reader.readBytes kind) := by
  refine .get_bind fun start inside => (tracks_readLength kind).bind_eq fun length => ?_
  refine .ite (fun _ => .fail inside.pos_le_length) fun hlength => ?_
  have hpos : 0 < length := Nat.pos_of_ne_zero fun h => hlength (.inr h)
  intro s hs
  refine (tracks_take length _ hs).bind fun closed _ s' hclosed inside' _ _ hrun _ => ?_
  obtain ⟨rfl, rfl⟩ := hclosed
  obtain ⟨-, rfl⟩ := take_ok hs hrun
  have hlt : closed.length - 1 < closed.length := Nat.sub_lt hpos Nat.one_pos
  have hlast : closed.getLast? = some closed[closed.length - 1] := by
    rw [List.getLast?_eq_getElem?, List.getElem?_eq_getElem hlt]
  rw [minus_eq hpos, pure_bind_run, index_eq hlt, pure_bind_run, hlast]
  -- the bytes end with zero in both or in neither
  by_cases hzero : closed[closed.length - 1] = 0
  · rw [if_pos hzero, if_pos (congrArg some hzero), slice_eq (Nat.zero_le _) (Nat.sub_le _ _),
      List.dropLast_eq_take]
    exact .ok rfl inside' (Nat.le_refl _) rfl
  · rw [if_neg hzero, if_neg fun h => hzero (Option.some.inj h), get_bind_run,
      minus_eq (by omega : 1 ≤ s.pos + closed.length), pure_bind_run]
    have hlength : s.pos + closed.length ≤ b.length := inside'.pos_le_length
    exact .error (show s.pos + closed.length - 1 ≤ b.length by omega)

/-- The range of a nested block lies inside of the range around it. -/
lemma tracks_readBlock (kind : Kind) :
    Tracks b (FrameError.Within b) (fun inner block => inner.Inside b ∧ block = inner.reader b)
      (readBlock b kind) (Reader.readBlock kind) := by
  intro outer hs
  rw [readBlock, get_bind_run, Reader.readBlock]
  by_cases hkind : kind.isBlock
  · rw [if_pos hkind, if_pos hkind]
    refine (tracks_readLength kind _ hs).bind fun length _ start h inside hpos hstop _ _ => ?_
    subst h
    rw [get_bind_run]
    refine (tracks_take length _ inside).bind fun content _ s' h inside' _ _ hrun _ => ?_
    obtain ⟨rfl, hlength⟩ := h
    obtain ⟨hcontent, rfl⟩ := take_ok inside hrun
    have hend : start.pos + length ≤ start.stop := inside'.pos_le
    rw [nested, if_pos ⟨hpos, Nat.le_add_right _ _, hstop ▸ hend⟩]
    refine .ok ⟨⟨Nat.le_add_right _ _, Nat.le_trans hend inside.stop_le⟩, ?_⟩ inside'
      (Nat.le_refl _) rfl
    rw [hcontent]
    simp only [Span.reader, Nat.add_sub_cancel_left]
  · rw [if_neg hkind, if_neg hkind]
    exact .error hs.pos_le_length

lemma tracks_readRepeat (kind : Kind) :
    Tracks b (FrameError.Within b) Eq (readRepeat b kind) (Reader.readRepeat kind) := by
  intro start hs
  rw [readRepeat, get_bind_run, Reader.readRepeat]
  by_cases hkind : kind = .repeated
  · rw [if_pos hkind, if_pos hkind]
    refine (tracks_readLength kind _ hs).bind fun count _ after h inside _ _ _ _ => ?_
    subst h
    rw [bind_run (remaining_run inside)]
    have hcount : Reader.hasAtLeast count (after.reader b).rest ↔
        count ≤ after.stop - after.pos := by
      rw [Reader.hasAtLeast_iff, inside.length_rest]
    show Follows b _ Eq after _ ((if Reader.hasAtLeast count (after.reader b).rest then
      (pure count : Reading Nat)
      else Reader.failAt start.pos (.tooManyItems count (after.reader b).remaining)) _)
    by_cases hleft : count ≤ after.stop - after.pos
    · rw [if_neg (Nat.not_lt.mpr hleft), if_pos (hcount.mpr hleft)]
      exact .ok rfl inside (Nat.le_refl _) rfl
    · rw [if_pos (Nat.not_le.mp hleft), if_neg (mt hcount.mp hleft), Reader.remaining,
        inside.length_rest]
      exact .error hs.pos_le_length
  · rw [if_neg hkind, if_neg hkind]
    exact .error hs.pos_le_length

/-! ### Passing over members -/

section

variable {ε ε' α β : Type} {E : ε → Prop} {E' : ε' → Prop} {R : α → β → Prop} {m : Checked ε α}
  {p : EStateM ε Reader β} {p' : EStateM ε' Reader β} {f : ε → ε'}

lemma follows_mapError {s : Span} (h : Follows b E R s (m s) (p (s.reader b)))
    (hf : ∀ e, E e → E' (f e))
    (hp : p' (s.reader b) = match p (s.reader b) with
      | .ok a r => .ok a r
      | .error e r => .error (f e) r) :
    Follows b E' R s (mapError f m s) (p' (s.reader b)) := by
  rw [hp, mapError]
  generalize m s = x at h
  generalize p (s.reader b) = y at h
  cases h with
  | ok hR inside hpos hstop => exact .ok hR inside hpos hstop
  | error he => exact .error (hf _ he)

lemma tracks_mapError (h : Tracks b E R m p) (hf : ∀ e, E e → E' (f e))
    (hp : ∀ r, p' r = match p r with
      | .ok a r => .ok a r
      | .error e r => .error (f e) r) : Tracks b E' R (mapError f m) p' :=
  fun s hs => follows_mapError (h s hs) hf (hp _)

/-- Telling errors in other words, on both sides. -/
lemma tracks_adaptExcept (h : Tracks b E R m p) (hf : ∀ e, E e → E' (f e)) :
    Tracks b E' R (mapError f m) (EStateM.adaptExcept f p) :=
  tracks_mapError h hf fun r => by rw [EStateM.adaptExcept]; cases p r <;> rfl

lemma adaptExcept_eq_ok_iff {r after : Reader} {a : β} :
    EStateM.adaptExcept f p r = .ok a after ↔ p r = .ok a after := by
  rw [EStateM.adaptExcept]
  cases p r with
  | ok => exact ⟨fun h => by cases h; rfl, fun h => by cases h; rfl⟩
  | error => exact ⟨nofun, nofun⟩

end

lemma tracks_orFrame {α β : Type} {R : α → β → Prop} {m : Checked FrameError α} {p : Reading β}
    (h : Tracks b (FrameError.Within b) R m p) :
    Tracks b (SkipError.Within b) R (mapError .frame m) (Reader.orFrame p) :=
  tracks_mapError h (fun _ he => he) fun r => by rw [Reader.orFrame]; cases p r <;> rfl

lemma tracks_skipItems {skipItem : Kind → Checked SkipError Unit}
    {skipItem' : Kind → EStateM SkipError Reader Unit}
    (h : ∀ kind, Tracks b (SkipError.Within b) Eq (skipItem kind) (skipItem' kind)) (count : Nat) :
    Tracks b (SkipError.Within b) Eq (skipItems b skipItem count)
      (Reader.skipItems skipItem' count) := by
  induction count with
  | zero => exact .pure rfl
  | succ count ih =>
    exact .get_bind fun start inside => (tracks_orFrame tracks_readHeader).bind_eq fun header =>
      .ite (fun _ => .fail inside.pos_le_length) fun _ => (h header.kind).bind_eq fun _ => ih

lemma tracks_skipFixed (n : Nat) : Tracks b (SkipError.Within b) Eq
    (do let _ ← mapError .frame (take b n)) (do let _ ← Reader.orFrame (Reader.take n)) :=
  (tracks_orFrame (tracks_take n)).bind fun _ _ _ => .pure rfl

lemma tracks_skipBlock (kind : Kind) : Tracks b (SkipError.Within b) Eq
    (do let _ ← mapError .frame (readBlock b kind))
    (do let _ ← Reader.orFrame (Reader.readBlock kind)) :=
  (tracks_orFrame (tracks_readBlock kind)).bind fun _ _ _ => .pure rfl

/-- Passing over a member does not leave its range, at any depth. -/
theorem tracks_skip (depth : Nat) (kind : Kind) :
    Tracks b (SkipError.Within b) Eq (skip b depth kind) (Reader.skip depth kind) := by
  induction depth generalizing kind with
  | zero =>
    cases kind with
    | int1 | int2 | int4 | quad => exact tracks_skipFixed _
    | block1 | block2 | block4 => exact tracks_skipBlock _
    | repeated => exact .fail trivial
  | succ depth ih =>
    cases kind with
    | int1 | int2 | int4 | quad => exact tracks_skipFixed _
    | block1 | block2 | block4 => exact tracks_skipBlock _
    | repeated =>
      exact (tracks_orFrame (tracks_readRepeat _)).bind_eq fun count => tracks_skipItems ih count

end Checked

end Wire

end SchemaRpc
