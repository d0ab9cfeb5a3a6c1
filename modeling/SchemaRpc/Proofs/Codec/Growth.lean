/-
# How much longer a value is when it is written again

The bytes that a value was read from need not be those that it is written as.  Headers, integers
and the lengths of strings only get shorter.  But a struct or a union may have been read from a
block with a length of one byte, and is written with one of four: in the worst case a header and
a length of one byte each become five bytes.  No bytes grow by more than that ratio,

  `2 * written.length ≤ 5 * read.length`,

which is the invariant of the induction on the depth.  After its header, a member keeps what
the header leaves over: `2 * body'.length ≤ 5 * body.length + 3`.
-/
import Mathlib.Algebra.GroupWithZero.Nat
import SchemaRpc.Proofs.Codec.Decoding
import SchemaRpc.Proofs.Codec.Encoding

namespace SchemaRpc

/-! ## Sums -/

/-- A sum over distinct keys is at most a sum over a list that has them all, unless they add
nothing. -/
lemma sum_map_le_sum_map {α β : Type} {key : α → β} {f : α → Nat} {g : β → Nat} {l : List α}
    {m : List β} (hnodup : (l.map key).Nodup)
    (h : ∀ a ∈ l, f a ≠ 0 → key a ∈ m ∧ f a ≤ g (key a)) : (l.map f).sum ≤ (m.map g).sum := by
  classical
  induction l generalizing m with
  | nil => simp
  | cons a l ih =>
    rw [List.map_cons, List.nodup_cons] at hnodup
    rw [List.forall_mem_cons] at h
    rw [List.map_cons, List.sum_cons]
    by_cases hzero : f a = 0
    · rw [hzero, Nat.zero_add]
      exact ih hnodup.2 h.2
    · obtain ⟨hmem, hle⟩ := h.1 hzero
      have hrest : (l.map f).sum ≤ ((m.erase (key a)).map g).sum := by
        refine ih hnodup.2 fun b hb hne => ⟨?_, (h.2 b hb hne).2⟩
        -- the key of `a` is taken, and `b` has another one
        have hkey : key b ≠ key a := fun heq => hnodup.1 (heq ▸ List.mem_map_of_mem hb)
        exact (List.mem_erase_of_ne hkey).mpr (h.2 b hb hne).1
      have hsplit := ((List.perm_cons_erase hmem).map g).sum_nat
      rw [List.map_cons, List.sum_cons] at hsplit
      omega

namespace Codec

open Wire

variable {s : Schema}

/-! ## Scalars -/

lemma length_intPiece_le_eight (n : Int) : (intPiece n).body.length ≤ 8 := by
  unfold intPiece
  split <;> [skip; split <;> [skip; split]] <;> simp

/-- Written again, a scalar takes no more bytes. -/
lemma IsScalar.length_body_le {p : Primitive} {kind : Kind} {bytes : Bytes} {v : Value} {q : Piece}
    (h : IsScalar p kind bytes v) (hq : Writes s (.prim p) v q) : q.body.length ≤ bytes.length := by
  cases h with
  | bool hw hn =>
    cases hq
    rw [← hn]
    exact length_intPiece_le hw
  | @int k _ _ n hw hn =>
    cases hq
    rw [hn, readingOf]
    split
    · rename_i hquad
      rw [hquad.2] at hw
      exact (length_intPiece_le_eight _).trans (Nat.le_of_eq (Option.some.inj hw))
    · exact length_intPiece_le hw
  | f32 hl | f64 hl =>
    cases hq
    rw [hl, Bytes.length_ofNat]
  | string hb | bytes hb =>
    cases hq
    exact length_leastBlock_le hb

/-- Written again, a label takes no more bytes. -/
lemma IsLabel.length_body_le {id : Nat} {kind : Kind} {bytes : Bytes} {v : Value} {q : Piece}
    (h : IsLabel (s.enumType id) kind bytes v) (hq : Writes s (.enum id) v q) :
    q.body.length ≤ bytes.length := by
  cases h with
  | mk hw hn hc =>
    cases hq
    rw [hn]
    exact length_intPiece_le hw

/-! ## One level of nesting -/

/-- A member grows by the ratio if what follows its header grows by no more than the header
allows. -/
lemma length_bytes_le_of_body {kind : Kind} {tag : Tag} {head body : Bytes} {q : Piece}
    (hh : IsHeader head ⟨kind, tag⟩) (hbody : 2 * q.body.length ≤ 5 * body.length + 3) :
    2 * (q.bytes tag).length ≤ 5 * (head ++ body).length := by
  have hhead := hh.length_bytes_le
  have hpos := hh.length_pos
  rw [length_bytes] at hhead
  rw [Piece.bytes, List.length_append, List.length_append, length_header]
  dsimp only at hhead
  omega

lemma length_writeNull (tag : Tag) : (writeNull tag).length = 2 + extraTagBytes tag := by
  rw [writeNull, List.length_append, length_header, List.length_singleton]
  omega

/-- The bytes that a struct sends for a tag and a state. -/
def sentLength (struct : Schema.StructType) (part : Schema.Field → Piece)
    (sent : Tag × FieldState) : Nat :=
  match struct.fieldByTag? sent.1 with
  | some f => (sentBytes f (part f) sent.2).length
  | none => 0

/-- A field that is not sent takes no bytes in any state, so filling it adds none. -/
lemma sentBytes_fill (f : Schema.Field) (part : Piece) (state : FieldState) :
    sentBytes f part (f.fill state) = sentBytes f part state := by
  cases state with
  | present | null => rfl
  | defaulted | absent =>
    cases hd : f.default <;> simp [Schema.Field.fill, FieldState.isSent, sentBytes, hd]

lemma recordBytes_filled {struct : Schema.StructType} (hascends : struct.Ascends)
    (part : Schema.Field → Piece) (r : Record) :
    recordBytes struct part (struct.filled r) = recordBytes struct part r := by
  refine List.flatMap_congr fun f hf => ?_
  rw [Schema.StructType.filled, hascends.get_recordOf _ hf, sentBytes_fill]

section

variable {skips : Kind → Bytes → Prop} {inner : TypeRef → Kind → Bytes → Value → Prop}

variable
  (hinner : ∀ {type kind body v}, inner type kind body v → ∀ {q}, Writes s type v q →
    2 * q.body.length ≤ 5 * body.length + 3)

include hinner

/-- The members of a struct grow by the ratio, those that it does not have being left out. -/
lemma Members.sum_sentLength_le {struct : Schema.StructType} {last : Option Tag} {bytes : Bytes}
    {states : List (Tag × FieldState)} (h : Members skips inner struct last bytes states)
    {part : Schema.Field → Piece} (hpart : ∀ f ∈ struct.fields, ∀ x,
      (f.tag, .present x) ∈ states → Writes s f.type x (part f)) :
    2 * (states.map (sentLength struct part)).sum ≤ 5 * bytes.length := by
  induction h with
  | nil => exact Nat.le_refl 0
  | unknown hh hlast hf hb h ih =>
    -- the bytes of a member that is left out are saved
    have hmore := ih hpart
    simp only [List.length_append]
    omega
  | @null last tag head more states f hh hlast hf ho h ih =>
    have hmore := ih fun f hf x hx => hpart f hf x (List.mem_cons_of_mem _ hx)
    obtain ⟨-, htag⟩ := Schema.StructType.mem_of_fieldByTag? hf
    have hhead := hh.length_bytes_le
    rw [length_bytes, ← htag] at hhead
    rw [List.map_cons, List.sum_cons, sentLength, hf]
    simp only [sentBytes, length_writeNull, List.length_append, List.length_singleton]
    dsimp only at hhead
    omega
  | @present last kind tag head body more states f value hh hlast hf hnull hb h ih =>
    have hmore := ih fun f hf x hx => hpart f hf x (List.mem_cons_of_mem _ hx)
    obtain ⟨hmem, rfl⟩ := Schema.StructType.mem_of_fieldByTag? hf
    have hwrites := hpart f hmem value List.mem_cons_self
    have hfirst := length_bytes_le_of_body hh (hinner hb hwrites)
    rw [List.map_cons, List.sum_cons, sentLength, hf]
    simp only [sentBytes, List.length_append] at hfirst ⊢
    omega

/-- A received record grows by the ratio. -/
lemma IsRecord.length_recordBytes_le {struct : Schema.StructType} (hascends : struct.Ascends)
    {bytes : Bytes} {r : Record} (h : IsRecord skips inner struct bytes r)
    {part : Schema.Field → Piece} (hpart : ∀ f ∈ struct.fields, ∀ x,
      r.get f.tag = .present x → Writes s f.type x (part f)) :
    2 * (recordBytes struct part r).length ≤ 5 * bytes.length := by
  obtain ⟨hm, hsuffices⟩ := h
  rename_i states
  have hmembers : 2 * (states.map (sentLength struct part)).sum ≤ 5 * bytes.length := by
    refine hm.sum_sentLength_le hinner fun f hf x hx => hpart f hf x ?_
    have hget : (struct.filled (.ofList states)).get f.tag =
        f.fill ((Record.ofList states).get f.tag) := hascends.get_recordOf _ hf
    have hstate : (Record.ofList states).get f.tag = .present x :=
      Record.get_setAll_of_mem .empty hm.nodup hx
    rw [hget, hstate]
    rfl
  have hkeys : (struct.fields.map fun f => (f.tag, (Record.ofList states).get f.tag)).Nodup := by
    refine List.Nodup.of_map (·.1) ?_
    rw [List.map_map]
    exact hascends.nodup_tags
  have hsum : (recordBytes struct part (.ofList states)).length ≤
      (states.map (sentLength struct part)).sum := by
    rw [recordBytes, List.length_flatMap]
    refine sum_map_le_sum_map hkeys fun f hf hne => ?_
    have hstate : (Record.ofList states).get f.tag = .absent ∨
        (f.tag, (Record.ofList states).get f.tag) ∈ states :=
      Record.get_setAll_eq_or_mem f.tag states .empty
    rcases hstate with habsent | hmem
    · -- a field that no member names sends nothing
      rw [habsent] at hne
      exact absurd rfl hne
    · rw [sentLength, hascends.fieldByTag?_tag hf]
      exact ⟨hmem, Nat.le_refl _⟩
  rw [recordBytes_filled hascends]
  omega

/-- The active variant of a union grows by the ratio. -/
lemma IsVariant.length_bytes_le {union : Schema.UnionType} {bytes : Bytes} {active : Tag × Value}
    (h : IsVariant inner union bytes active) {v : Schema.Variant} {q : Piece}
    (hv : union.variantByTag? active.1 = some v) (hq : Writes s v.type active.2 q) :
    2 * (q.bytes active.1).length ≤ 5 * bytes.length := by
  obtain ⟨hh, hv', hb⟩ := h
  obtain rfl := Option.some.inj (hv'.symm.trans hv)
  exact length_bytes_le_of_body hh (hinner hb hq)

/-- The items of an array grow by the ratio. -/
lemma Items.length_flatMap_le {item : TypeRef} {bytes : Bytes} {values : List Value}
    (h : Items inner item bytes values) {part : Value → Piece}
    (hpart : ∀ x ∈ values, Writes s item x (part x)) :
    2 * (values.flatMap fun x => (part x).bytes .zero).length ≤ 5 * bytes.length := by
  induction h with
  | nil => exact Nat.le_refl 0
  | @cons kind head body more value values hh hb h ih =>
    rw [List.forall_mem_cons] at hpart
    have hfirst := length_bytes_le_of_body hh (hinner hb hpart.1)
    have hmore := ih hpart.2
    rw [List.flatMap_cons]
    simp only [List.length_append] at hfirst hmore ⊢
    omega

end

/-! ## All levels -/

variable (hs : s.Ascends)

include hs

/-- **Growth of a member.**  Written again, what follows the header of a member keeps the ratio
together with the header. -/
theorem Body.length_body_le {depth : Nat} {type : TypeRef} {kind : Kind} {bytes : Bytes} {v : Value}
    {q : Piece} (h : Body s depth type kind bytes v) (hq : Writes s type v q) :
    2 * q.body.length ≤ 5 * bytes.length + 3 := by
  induction h using Body.induction generalizing q with
  | scalar h =>
    have hle := h.length_body_le hq
    omega
  | label h =>
    have hle := h.length_body_le hq
    omega
  | struct hblock hr ih =>
    cases hq with
    | struct hsendable hpart hlen =>
      -- the length takes four bytes, and it was read from at least one
      have hcontent := hr.length_recordBytes_le ih (hs.structType _) hpart
      have hlt := hblock.length_lt
      rw [length_wideBlock]
      omega
  | union hblock hactive ih =>
    cases hq with
    | union hv hpart hlen =>
      have hcontent := hactive.length_bytes_le ih hv hpart
      have hlt := hblock.length_lt
      rw [length_wideBlock]
      omega
  | array hfront hcount hitems ih =>
    cases hq with
    | array hlimit hpart =>
      have hcontent := hitems.length_flatMap_le ih hpart
      rw [List.length_append, List.length_append, Bytes.length_ofNat]
      omega

/-- **Growth of a payload.**  Written again, a payload grows by the ratio at most. -/
theorem IsPayload.length_le {depth : Nat} {type : TypeRef} {bytes bytes' : Bytes} {v : Value}
    (h : IsPayload s depth type bytes v) (hq : WritesPayload s type v bytes') :
    2 * bytes'.length ≤ 5 * bytes.length := by
  cases h with
  | struct h =>
    cases hq with
    | struct hsendable hpart =>
      exact h.length_recordBytes_le (fun h => h.length_body_le hs) (hs.structType _) hpart
    | member hstruct => exact absurd rfl (hstruct _)
  | union h =>
    cases hq with
    | union hv hpart => exact h.length_bytes_le (fun h => h.length_body_le hs) hv hpart
    | member hstruct hunion => exact absurd rfl (hunion _)
  | member hstruct hunion hh hb =>
    cases hq with
    | struct => exact absurd rfl (hstruct _)
    | union => exact absurd rfl (hunion _)
    | member _ _ hpart => exact length_bytes_le_of_body hh (hb.length_body_le hs hpart)

end Codec

end SchemaRpc
