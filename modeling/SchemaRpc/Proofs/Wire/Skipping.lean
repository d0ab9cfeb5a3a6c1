/-
# Members that are passed over

The kind of a member alone says where it ends.  `Skips depth kind bytes` says that `bytes` are
one member after a header of `kind`, with arrays no more than `depth` deep; passing over a
member takes exactly such bytes, whatever they mean.
-/
import SchemaRpc.Proofs.Wire.Layout

namespace SchemaRpc

namespace Wire

mutual

/-- The bytes of a member after its header, arrays nesting at most `depth` deep. -/
inductive Skips : (depth : Nat) → Kind → Bytes → Prop where
  | int {depth : Nat} {kind : Kind} {bytes : Bytes} (h : kind.intWidth? = some bytes.length) :
    Skips depth kind bytes
  | block {depth : Nat} {kind : Kind} {bytes content : Bytes} (h : IsBlock kind bytes content) :
    Skips depth kind bytes
  | repeated {depth : Nat} {front items : Bytes} (hw : front.length = 4)
    (h : SkipsItems depth (Bytes.toNat front) items) :
    Skips (depth + 1) .repeated (front ++ items)

/-- The bytes of `count` items of an array. -/
inductive SkipsItems : (depth count : Nat) → Bytes → Prop where
  | nil {depth : Nat} : SkipsItems depth 0 []
  | cons {depth count : Nat} {kind : Kind} {head body more : Bytes}
    (hh : IsHeader head ⟨kind, .zero⟩) (hb : Skips depth kind body)
    (h : SkipsItems depth count more) : SkipsItems depth (count + 1) (head ++ (body ++ more))

end

/-- Every item takes a byte. -/
lemma SkipsItems.count_le {depth count : Nat} {bytes : Bytes} :
    SkipsItems depth count bytes → count ≤ bytes.length
  | .nil => Nat.le_refl 0
  | .cons hh _ h => by
    have hpos := hh.length_pos
    have hle := SkipsItems.count_le h
    simp only [List.length_append]
    omega

/-- A null is an empty block. -/
lemma skips_null (depth : Nat) : Skips depth .block1 [0] := by
  have hblock : IsBlock .block1 ([0] ++ []) [] := .mk rfl rfl rfl
  exact .block hblock

namespace Reader

lemma parses_orFrame {α : Type} {read : Reading α} {P : Bytes → α → Prop}
    (h : Parses read P) : Parses (orFrame read) P := by
  intro r a after
  rw [← h r a after]
  unfold orFrame
  cases read r <;> simp

lemma parses_skipItems {depth : Nat} {skipItem : Kind → EStateM SkipError Reader Unit}
    (hskip : ∀ kind, Parses (skipItem kind) fun bytes _ => Skips depth kind bytes) (count : Nat) :
    Parses (skipItems skipItem count) fun bytes _ => SkipsItems depth count bytes := by
  induction count with
  | zero =>
    refine (Parses.pure ()).congr fun bytes _ => ?_
    constructor
    · rintro ⟨rfl, -⟩
      exact .nil
    · rintro ⟨⟩
      exact ⟨rfl, rfl⟩
  | succ count ih =>
    refine (Parses.get_bind fun start => (parses_orFrame parses_readHeader).bind fun header =>
      Parses.ite (c := header.tag ≠ 0) (.throw _) ((hskip header.kind).bind fun _ =>
        ih)).congr fun bytes _ => ?_
    constructor
    · rintro ⟨⟨kind, tag⟩, head, back, rfl, hh, hback⟩
      split at hback
      · exact hback.elim
      · rename_i htag
        obtain rfl : tag = 0 := not_not.mp htag
        obtain ⟨_, body, more, rfl, hb, hmore⟩ := hback
        exact .cons hh hb hmore
    · rintro @⟨⟩
      rename_i kind head body more hh hb hmore
      exact ⟨_, head, body ++ more, rfl, hh, (), body, more, rfl, hb, hmore⟩

/-- A member of fixed width is passed over as the integer that it may be. -/
lemma parses_skip_fixed (depth : Nat) {kind : Kind} {width : Nat}
    (hw : kind.intWidth? = some width) :
    Parses (do let _ ← orFrame (take width)) fun bytes _ => Skips depth kind bytes := by
  refine ((parses_orFrame (parses_take width)).bind_of_nil fun _ => .pure ()).congr
    fun bytes _ => ?_
  constructor
  · rintro ⟨_, ⟨rfl, rfl⟩, -⟩
    exact .int hw
  · rintro (h | h)
    · rw [hw] at h
      exact ⟨bytes, ⟨(Option.some.inj h).symm, rfl⟩, rfl⟩
    · revert hw
      have hblock := h.isBlock
      cases kind <;> simp_all [Kind.intWidth?, Kind.isBlock]
    · cases hw

lemma parses_skip_block (depth : Nat) {kind : Kind} (hk : kind.isBlock) :
    Parses (do let _ ← orFrame (readBlock kind)) fun bytes _ => Skips depth kind bytes := by
  intro r a after
  have hrun : (∃ block, readBlock kind r = .ok block after) ↔
      (do let _ ← orFrame (readBlock kind)) r = .ok a after := by
    rw [bind_eq_ok_iff]
    unfold orFrame
    cases readBlock kind r with
    | ok block r₁ => simp [pure_eq_ok_iff, eq_comm]
    | error e r₁ => simp
  rw [← hrun]
  constructor
  · rintro ⟨block, h⟩
    obtain ⟨bytes, hblock, hpast, -⟩ := readBlock_eq_ok_iff.mp h
    exact ⟨bytes, .block hblock, hpast⟩
  · rintro ⟨bytes, h | h, hpast⟩
    · cases kind <;> simp_all [Kind.intWidth?, Kind.isBlock]
    · rename_i content
      have hlt := h.length_lt
      -- the reader for the content is dropped, but its offset has to be named
      refine ⟨⟨after.offset - content.length, content⟩, readBlock_eq_ok_iff.mpr
        ⟨bytes, h, hpast, ?_⟩⟩
      have := hpast.offset_eq
      dsimp only
      omega
    · cases hk

/-- The announced count of items that are there is no obstacle to passing over them. -/
lemma parses_skip_repeated {depth : Nat} {skipItem : Kind → EStateM SkipError Reader Unit}
    (hskip : ∀ kind, Parses (skipItem kind) fun bytes _ => Skips depth kind bytes) :
    Parses (do let count ← orFrame (readRepeat .repeated); skipItems skipItem count)
      fun bytes _ => Skips (depth + 1) .repeated bytes := by
  have hitems := parses_skipItems hskip
  have hrun (r after : Reader) (count : Nat) : orFrame (readRepeat .repeated) r = .ok count after
      ↔ readRepeat .repeated r = .ok count after := by
    unfold orFrame
    cases readRepeat .repeated r <;> simp
  intro r a after
  rw [bind_eq_ok_iff]
  constructor
  · rintro ⟨count, r₁, hcount, hskipped⟩
    obtain ⟨-, front, hlen, rfl, hpast₁, -⟩ :=
      readRepeat_eq_ok_iff.mp ((hrun _ _ _).mp hcount)
    obtain ⟨items, hitem, hpast₂⟩ := (hitems _ _ _ _).mp hskipped
    exact ⟨front ++ items, .repeated hlen hitem, hpast₁.append hpast₂⟩
  · rintro ⟨_, h | h | @⟨_, front, items, hlen, hitem⟩, hpast⟩
    · cases h
    · exact absurd h.isBlock (by decide)
    · obtain ⟨r₁, hpast₁, hpast₂⟩ := hpast.exists_of_append
      refine ⟨_, r₁, (hrun _ _ _).mpr (readRepeat_eq_ok_iff.mpr
        ⟨rfl, front, hlen, rfl, hpast₁, ?_⟩), (hitems _ _ _ _).mpr ⟨items, hitem, hpast₂⟩⟩
      -- every item takes a byte, so the announced count is covered by the bytes left
      have hle := hitem.count_le
      rw [hpast₂.length_eq]
      omega

/-- **Passing over a member.**  What is passed over is exactly a member of the kind. -/
theorem parses_skip (depth : Nat) (kind : Kind) :
    Parses (skip depth kind) fun bytes _ => Skips depth kind bytes := by
  induction depth generalizing kind with
  | zero =>
    cases kind with
    | int1 | int2 | int4 | quad => exact parses_skip_fixed 0 rfl
    | block1 | block2 | block4 => exact parses_skip_block 0 rfl
    | repeated =>
      refine (Parses.throw _).congr fun bytes _ => ?_
      constructor
      · exact False.elim
      · rintro (h | h)
        · cases h
        · exact absurd h.isBlock (by decide)
  | succ depth ih =>
    cases kind with
    | int1 | int2 | int4 | quad => exact parses_skip_fixed (depth + 1) rfl
    | block1 | block2 | block4 => exact parses_skip_block (depth + 1) rfl
    | repeated => exact parses_skip_repeated ih

end Reader

end Wire

end SchemaRpc
