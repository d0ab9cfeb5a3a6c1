/-
# Which values are encoded

Encoding asks two things of a value: that it can be encoded at the type, and that its lengths
and counts fit in their four bytes.  Where the lengths fit, the first is all that counts: the
encoder succeeds exactly on the values that can be encoded, and what it has against the others
is never a length.

* `Encodable.exists_writes` finds the written form of a value whose lengths fit,
* `encode_justified` says what is too large in a value that is refused for a length,
* `encodeMember_sizeFree` says that a value whose lengths fit is not.
-/
import SchemaRpc.Proofs.Codec.Encodable
import SchemaRpc.Proofs.Value.Nesting

namespace SchemaRpc

namespace Codec

open Wire

/-- The length or count that is written in front of a value in at most four bytes. Strings are
closed by a zero byte that counts; a struct or union has the length of what it writes by itself. -/
def lengthOf? (s : Schema) : TypeRef → Value → Option Nat
  | .prim .string, .string text => some ((Utf8.encode text).length + 1)
  | .prim .bytes, .bytes data => some (data.length + 1)
  | .array _, .array items => some items.length
  | .struct id, .struct r => (encodeRecord s id r).toOption.map (·.length)
  | .union id, .union active payload => (encodeUnion s id active payload).toOption.map (·.length)
  | _, _ => none

/-- The lengths of a value and of all that it contains fit. -/
def MemberFits (s : Schema) (type : TypeRef) (v : Value) : Prop :=
  ∀ type' part n, Contains s type v type' part → lengthOf? s type' part = some n →
    n < lengthLimit

/-- The lengths of all that is nested in a value fit, and those of the value itself unless it is
a struct or union, which stands by itself without a length. -/
def LengthsFit (s : Schema) (type : TypeRef) (v : Value) : Prop :=
  ∀ type' part n, Contains s type v type' part →
    (part = v → ∀ id, type' ≠ .struct id ∧ type' ≠ .union id) →
    lengthOf? s type' part = some n → n < lengthLimit

variable {s : Schema} {type : TypeRef} {v : Value}

/-! ## Lengths of the parts -/

section

variable {id : Nat}

lemma MemberFits.length_lt (h : MemberFits s type v) {n : Nat} (hn : lengthOf? s type v = some n) :
    n < lengthLimit :=
  h type v n (.self type v) hn

lemma MemberFits.record_lt {r : Record} (h : MemberFits s (.struct id) (.struct r)) {body : Bytes}
    (hbody : encodeRecord s id r = .ok body) : body.length < lengthLimit :=
  h.length_lt (by rw [lengthOf?, hbody]; rfl)

lemma MemberFits.variant_lt {active : Tag} {payload : Value}
    (h : MemberFits s (.union id) (.union active payload)) {body : Bytes}
    (hbody : encodeUnion s id active payload = .ok body) : body.length < lengthLimit :=
  h.length_lt (by rw [lengthOf?, hbody]; rfl)

lemma MemberFits.payload {active : Tag} {payload : Value} {u : Schema.Variant}
    (h : MemberFits s (.union id) (.union active payload))
    (hu : (s.unionType id).variantByTag? active = some u) : MemberFits s u.type payload := by
  obtain ⟨hmem, htag⟩ := Schema.UnionType.mem_of_variantByTag? hu
  intro type' part n hpart hn
  exact h type' part n (.payload hmem htag hpart) hn

lemma MemberFits.field {r : Record} {f : Schema.Field} {x : Value}
    (h : MemberFits s (.struct id) (.struct r)) (hf : f ∈ (s.structType id).fields)
    (hx : r.get f.tag = .present x) : MemberFits s f.type x := by
  intro type' part n hpart hn
  exact h type' part n (.field hf hx hpart) hn

lemma MemberFits.item {item : TypeRef} {items : List Value} {x : Value}
    (h : MemberFits s (.array item) (.array items)) (hx : x ∈ items) : MemberFits s item x := by
  intro type' part n hpart hn
  exact h type' part n (.item hx hpart) hn

/-- What a value contains nests no deeper than the value. -/
lemma Contains.nesting_le {type' : TypeRef} {part : Value} (h : Contains s type v type' part) :
    part.nesting ≤ v.nesting := by
  induction h with
  | self => exact Nat.le_refl _
  | payload _ _ _ ih => exact ih.trans (Value.nesting_lt_union _ _).le
  | field _ hx _ ih => exact ih.trans (Value.nesting_lt_struct hx).le
  | item hx _ ih => exact ih.trans (Value.nesting_lt_array hx).le

/-- The lengths of a part that nests less deep than the value fit. -/
lemma LengthsFit.part (h : LengthsFit s type v) {type' : TypeRef} {part : Value}
    (hlt : part.nesting < v.nesting)
    (hwithin : ∀ type₁ part₁, Contains s type' part type₁ part₁ →
      Contains s type v type₁ part₁) : MemberFits s type' part := by
  intro type₁ part₁ n hpart hn
  refine h type₁ part₁ n (hwithin type₁ part₁ hpart) ?_ hn
  rintro rfl
  exact absurd hpart.nesting_le (Nat.not_le.mpr hlt)

lemma LengthsFit.payload {active : Tag} {payload : Value} {u : Schema.Variant}
    (h : LengthsFit s (.union id) (.union active payload))
    (hu : (s.unionType id).variantByTag? active = some u) : MemberFits s u.type payload := by
  obtain ⟨hmem, htag⟩ := Schema.UnionType.mem_of_variantByTag? hu
  exact h.part (Value.nesting_lt_union active payload) fun _ _ hpart => .payload hmem htag hpart

lemma LengthsFit.field {r : Record} {f : Schema.Field} {x : Value}
    (h : LengthsFit s (.struct id) (.struct r)) (hf : f ∈ (s.structType id).fields)
    (hx : r.get f.tag = .present x) : MemberFits s f.type x :=
  h.part (Value.nesting_lt_struct hx) fun _ _ hpart => .field hf hx hpart

lemma LengthsFit.member (h : LengthsFit s type v) (hstruct : ∀ id, type ≠ .struct id)
    (hunion : ∀ id, type ≠ .union id) : MemberFits s type v := by
  intro type' part n hpart hn
  refine h type' part n hpart ?_ hn
  rintro rfl id
  cases hpart with
  | self => exact ⟨hstruct id, hunion id⟩
  | payload => exact absurd rfl (hunion _)
  | field => exact absurd rfl (hstruct _)
  | item hx hpart => exact absurd hpart.nesting_le (Nat.not_le.mpr (Value.nesting_lt_array hx))

end

/-! ## Values that can be encoded -/

/-- Members of the values that a record sends, one for each field. -/
lemma exists_parts {struct : Schema.StructType} {r : Record}
    (h : ∀ f ∈ struct.fields, ∀ x, r.get f.tag = .present x → ∃ p, Writes s f.type x p) :
    ∃ part : Schema.Field → Piece, ∀ f ∈ struct.fields, ∀ x, r.get f.tag = .present x →
      Writes s f.type x (part f) := by
  have hfield : ∀ f ∈ struct.fields, ∃ p, ∀ x, r.get f.tag = .present x →
      Writes s f.type x p := by
    intro f hf
    cases hstate : r.get f.tag with
    | present x =>
      obtain ⟨p, hp⟩ := h f hf x hstate
      exact ⟨p, fun y hy => FieldState.present.inj hy ▸ hp⟩
    | null | defaulted | absent => exact ⟨⟨.int1, []⟩, fun y hy => nomatch hy⟩
  choose! part hpart using hfield
  exact ⟨part, hpart⟩

section

variable (hs : s.Ascends)

include hs

/-- A value that can be encoded has a written form if its lengths fit. -/
lemma Encodable.exists_writes (h : Encodable s type v) (hfit : MemberFits s type v) :
    ∃ p, Writes s type v p := by
  induction h with
  | bool b => exact ⟨_, .bool b⟩
  | int k n => exact ⟨_, .int k n⟩
  | f32 x => exact ⟨_, .f32 x⟩
  | f64 x => exact ⟨_, .f64 x⟩
  | string text => exact ⟨_, .string (by simpa using hfit.length_lt rfl)⟩
  | bytes data => exact ⟨_, .bytes (by simpa using hfit.length_lt rfl)⟩
  | enum hc => exact ⟨_, .enum hc⟩
  | union hv h ih =>
    obtain ⟨part, hpart⟩ := ih (hfit.payload hv)
    have hbody := (encode_union_eq_ok_iff hs).mpr (.union hv hpart)
    exact ⟨_, .union hv hpart (hfit.variant_lt hbody)⟩
  | struct hr h ih =>
    obtain ⟨part, hpart⟩ := exists_parts fun f hf x hx => ih f hf x hx (hfit.field hf hx)
    have hbody := (encode_struct_eq_ok_iff hs).mpr (.struct hr hpart)
    exact ⟨_, .struct hr hpart (hfit.record_lt hbody)⟩
  | @array item items h ih =>
    have hitem : ∀ x ∈ items, ∃ p, Writes s item x p := fun x hx => ih x hx (hfit.item hx)
    choose! part hpart using hitem
    exact ⟨_, .array (hfit.length_lt rfl) hpart⟩

lemma Encodable.exists_writesPayload (h : Encodable s type v) (hfit : LengthsFit s type v) :
    ∃ bytes, WritesPayload s type v bytes := by
  have hmember (hstruct : ∀ id, type ≠ .struct id) (hunion : ∀ id, type ≠ .union id) :
      ∃ bytes, WritesPayload s type v bytes := by
    obtain ⟨part, hpart⟩ := h.exists_writes hs (hfit.member hstruct hunion)
    exact ⟨_, .member hstruct hunion hpart⟩
  cases h with
  | bool | int | f32 | f64 | string | bytes | enum | array => exact hmember (by simp) (by simp)
  | union hv h =>
    obtain ⟨part, hpart⟩ := h.exists_writes hs (hfit.payload hv)
    exact ⟨_, .union hv hpart⟩
  | struct hr h =>
    obtain ⟨part, hpart⟩ :=
      exists_parts fun f hf x hx => (h f hf x hx).exists_writes hs (hfit.field hf hx)
    exact ⟨_, .struct hr hpart⟩

end

/-! ## Lengths of what is written -/

section

variable (hs : s.Ascends)

include hs

/-- The lengths of what is written as a member fit. -/
lemma Writes.memberFits {p : Piece} (h : Writes s type v p) : MemberFits s type v := by
  induction h with
  | bool | int | f32 | f64 | enum =>
    intro type' part n hpart hn
    cases hpart
    cases hn
  | string hlen | bytes hlen =>
    intro type' part n hpart hn
    cases hpart
    cases hn
    simpa using hlen
  | @union id active payload u part hu h hlen ih =>
    intro type' part' n hpart hn
    cases hpart with
    | self =>
      rw [lengthOf?, (encode_union_eq_ok_iff hs).mpr (.union hu h)] at hn
      cases hn
      exact hlen
    | payload hmem htag hpart =>
      have hfind := (hs.unionType id).variantByTag?_tag hmem
      rw [htag, hu] at hfind
      cases hfind
      exact ih _ _ _ hpart hn
  | struct hr h hlen ih =>
    intro type' part' n hpart hn
    cases hpart with
    | self =>
      rw [lengthOf?, (encode_struct_eq_ok_iff hs).mpr (.struct hr h)] at hn
      cases hn
      exact hlen
    | field hf hx hpart => exact ih _ hf _ hx _ _ _ hpart hn
  | array hcount h ih =>
    intro type' part' n hpart hn
    cases hpart with
    | self =>
      cases hn
      exact hcount
    | item hx hpart => exact ih _ hx _ _ _ hpart hn

lemma WritesPayload.lengthsFit {bytes : Bytes} (h : WritesPayload s type v bytes) :
    LengthsFit s type v := by
  intro type' part' n hpart houter hn
  cases h with
  | @struct id r part hr h =>
    cases hpart with
    | self => exact absurd rfl (houter rfl id).1
    | field hf hx hpart => exact (h _ hf _ hx).memberFits hs _ _ _ hpart hn
  | @union id active payload u part hu h =>
    cases hpart with
    | self => exact absurd rfl (houter rfl id).2
    | payload hmem htag hpart =>
      have hfind := (hs.unionType id).variantByTag?_tag hmem
      rw [htag, hu] at hfind
      cases hfind
      exact h.memberFits hs _ _ _ hpart hn
  | member hstruct hunion h => exact h.memberFits hs _ _ _ hpart hn

end

/-! ## What is refused -/

/-- Every error that a result may be has the property. -/
def Refuses (P : EncodeError → Prop) (result : Encoded) : Prop := ∀ e, result = .error e → P e

/-- Every error has the property, wherever it is written. -/
def Writing.Refuses (P : EncodeError → Prop) (writing : Writing) : Prop :=
  ∀ before, Codec.Refuses P (writing before)

/-- The error is a complaint about a length. -/
def IsSize (e : EncodeError) : Prop := ∃ name length, e = .tooLarge name length

section

variable {P Q : EncodeError → Prop}

lemma refuses_ok (bytes : Bytes) : Refuses P (.ok bytes) := Outcome.failsWith_ok bytes

lemma refuses_error {e : EncodeError} (h : P e) : Refuses P (.error e) := Outcome.failsWith_error h

lemma Writing.refuses_fixed {written : Encoded} (h : Codec.Refuses P written) :
    (Writing.fixed written).Refuses P :=
  fun _ => h

lemma Writing.Refuses.imp {writing : Writing} (h : writing.Refuses P) (hPQ : ∀ e, P e → Q e) :
    writing.Refuses Q :=
  fun before e he => hPQ e (h before e he)

lemma Writing.Refuses.andThen {first second : Writing} (h : first.Refuses P)
    (h' : second.Refuses P) : (first.andThen second).Refuses P :=
  fun before => Outcome.FailsWith.bind (h before) fun _ _ => Outcome.FailsWith.map (h' _) _

/-- A block is refused as what is in it, or for its length, which is counted from further ahead. -/
lemma Writing.Refuses.block {content : Writing} (h : content.Refuses P) {tag : Tag}
    (hlength : ∀ start body length, content start = .ok body → body.length ≤ length →
      Codec.Refuses P (orTooLarge s type length (writeBlock? tag body))) :
    (block s type tag content).Refuses P :=
  fun _ => Outcome.FailsWith.bind (h _) fun _ hbody => hlength _ _ _ hbody (Nat.le_add_left _ _)

lemma refuses_joined {α : Type} {write : α → Writing} {l : List α}
    (h : ∀ a ∈ l, (write a).Refuses P) : (joined write l).Refuses P := by
  induction l with
  | nil => exact Writing.refuses_fixed (refuses_ok [])
  | cons a l ih =>
    rw [List.forall_mem_cons] at h
    rw [joined]
    exact h.1.andThen (ih h.2)

end

/-! ## Refused for a length or for something else

A property that holds of all errors but those about lengths holds of what a value is refused for if
it does so of its parts. -/

section

variable {P : EncodeError → Prop} (hP : ∀ e, ¬ IsSize e → P e)

include hP

lemma refuses_other {e : EncodeError} (he : ∀ name length, e ≠ .tooLarge name length) :
    Refuses P (.error e) := by
  refine refuses_error (hP e ?_)
  rintro ⟨name, length, rfl⟩
  exact he name length rfl

lemma refuses_mismatch (type : TypeRef) (v : Value) : Refuses P (.error (mismatch s type v)) :=
  refuses_other hP (by simp [mismatch])

lemma refuses_encodeState {struct : Schema.StructType} {f : Schema.Field} {state : FieldState}
    (h : ∀ x, state = .present x → (encodeMember s f.tag f.type x).Refuses P) :
    (encodeState s struct f state).Refuses P := by
  cases state with
  | present x => exact h x rfl
  | null =>
    rw [encodeState]
    split
    · exact Writing.refuses_fixed (refuses_ok _)
    · exact Writing.refuses_fixed (refuses_other hP (by simp))
  | defaulted d | absent =>
    rw [encodeState]
    split
    · exact Writing.refuses_fixed (refuses_other hP (by simp))
    · exact Writing.refuses_fixed (refuses_ok _)

lemma refuses_recordBody {id : Nat} (hascends : (s.structType id).Ascends) {r : Record}
    (h : ∀ f ∈ (s.structType id).fields, ∀ x, r.get f.tag = .present x →
      (encodeMember s f.tag f.type x).Refuses P) : (recordBody s id r).Refuses P := by
  rw [recordBody, structBody, assemble_eq_joined s hascends r fun f hf => hf]
  split
  · exact Writing.refuses_fixed (refuses_other hP (by simp))
  · exact refuses_joined fun f hf => refuses_encodeState hP (h f hf)

lemma refuses_unionBody {id : Nat} {active : Tag} {payload : Value}
    (h : ∀ u, (s.unionType id).variantByTag? active = some u →
      (encodeMember s u.tag u.type payload).Refuses P) :
    (unionBody s id active payload).Refuses P := by
  rw [unionBody]
  split
  · exact Writing.refuses_fixed (refuses_other hP (by simp))
  · rename_i u hu
    exact h u hu

lemma refuses_encode (hs : s.Ascends)
    (hmember : (∀ id, type ≠ .struct id) → (∀ id, type ≠ .union id) →
      (encodeMember s .zero type v).Refuses P)
    (hfield : ∀ id (r : Record), type = .struct id → v = .struct r →
      ∀ f ∈ (s.structType id).fields, ∀ x, r.get f.tag = .present x →
        (encodeMember s f.tag f.type x).Refuses P)
    (hpayload : ∀ id active payload, type = .union id → v = .union active payload → ∀ u,
      (s.unionType id).variantByTag? active = some u →
        (encodeMember s u.tag u.type payload).Refuses P) :
    Refuses P (encode s v type) := by
  cases type with
  | prim | enum | array =>
    unfold encode
    exact hmember (by simp) (by simp) 0
  | struct id =>
    cases v with
    | struct r => exact refuses_recordBody hP (hs.structType id) (hfield id r rfl rfl) 0
    | _ => exact refuses_mismatch hP _ _
  | union id =>
    cases v with
    | union active payload => exact refuses_unionBody hP (hpayload id active payload rfl rfl) 0
    | _ => exact refuses_mismatch hP _ _

end

/-! ## Lengths that do not fit -/

/-- If the error is about a length, then some part of the value has a length that does not fit. The
error names the type of this part, and what it reports is no less than the length, apart from the
zero byte behind text and bytes. -/
def Justified (s : Schema) (type : TypeRef) (v : Value) (e : EncodeError) : Prop :=
  ∀ name n, e = .tooLarge name n → ∃ type' part m, Contains s type v type' part ∧
    lengthOf? s type' part = some m ∧ lengthLimit ≤ m ∧ name = s.typeName type' ∧ m ≤ n + 1

lemma justified_of_not_isSize (e : EncodeError) (h : ¬ IsSize e) : Justified s type v e :=
  fun name n he => absurd ⟨name, n, he⟩ h

/-- What is justified by a part is justified by the whole. -/
lemma Justified.within {type' : TypeRef} {part : Value} {e : EncodeError}
    (h : Justified s type' part e) (hwithin : ∀ type₁ part₁, Contains s type' part type₁ part₁ →
      Contains s type v type₁ part₁) : Justified s type v e := by
  intro name n he
  obtain ⟨type₁, part₁, m, hpart, hm⟩ := h name n he
  exact ⟨type₁, part₁, m, hwithin type₁ part₁ hpart, hm⟩

lemma refuses_orTooLarge_justified {length m : Nat} {written : Option Bytes}
    (hm : lengthOf? s type v = some m) (hnone : written = none → lengthLimit ≤ m)
    (hle : m ≤ length + 1) : Refuses (Justified s type v) (orTooLarge s type length written) := by
  cases written with
  | some bytes => exact refuses_ok bytes
  | none =>
    refine refuses_error ?_
    intro name n he
    cases he
    exact ⟨type, v, m, .self type v, hm, hnone rfl, rfl, hle⟩

lemma le_of_writeBytes?_eq_none {tag : Tag} {data : Bytes} (h : writeBytes? tag data = none) :
    lengthLimit ≤ data.length + 1 := by
  by_contra hlt
  obtain ⟨bytes, hbytes⟩ : ∃ bytes, writeBytes? tag data = some bytes :=
    ⟨_, writeBytes?_eq_some_iff.mpr ⟨by simpa using Nat.lt_of_not_le hlt, rfl⟩⟩
  rw [h] at hbytes
  cases hbytes

lemma le_of_writeBlock?_eq_none {tag : Tag} {body : Bytes} (h : writeBlock? tag body = none) :
    lengthLimit ≤ body.length := by
  by_contra hlt
  obtain ⟨bytes, hbytes⟩ : ∃ bytes, writeBlock? tag body = some bytes :=
    ⟨_, writeBlock?_eq_some_iff.mpr ⟨Nat.lt_of_not_le hlt, rfl⟩⟩
  rw [h] at hbytes
  cases hbytes

lemma le_of_writeRepeat?_eq_none {tag : Tag} {count : Nat} (h : writeRepeat? tag count = none) :
    lengthLimit ≤ count := by
  by_contra hlt
  obtain ⟨bytes, hbytes⟩ : ∃ bytes, writeRepeat? tag count = some bytes :=
    ⟨_, writeRepeat?_eq_some_iff.mpr ⟨Nat.lt_of_not_le hlt, rfl⟩⟩
  rw [h] at hbytes
  cases hbytes

section

variable (hs : s.Ascends)

include hs

/-- **Lengths that do not fit.**  A value is refused for a length only if some part of it is too
large, wherever the value is written. -/
theorem encodeMember_justified (tag : Tag) :
    (encodeMember s tag type v).Refuses (Justified s type v) := by
  induction v generalizing type tag with
  | bool | int | f32 | f64 =>
    intro before
    unfold encodeMember
    split
    · exact refuses_ok _
    · exact refuses_mismatch justified_of_not_isSize _ _
  | string | bytes =>
    intro before
    unfold encodeMember
    split
    · exact refuses_orTooLarge_justified rfl le_of_writeBytes?_eq_none le_rfl
    · exact refuses_mismatch justified_of_not_isSize _ _
  | enum n =>
    intro before
    unfold encodeMember
    split
    · dsimp only
      split
      · exact refuses_ok _
      · exact refuses_other justified_of_not_isSize (by simp)
    · exact refuses_mismatch justified_of_not_isSize _ _
  | union active payload ih =>
    cases type with
    | union id =>
      rw [encodeMember_union]
      refine (refuses_unionBody justified_of_not_isSize fun u hu => ?_).block
        fun start body length hbody hle => ?_
      · obtain ⟨hmem, htag⟩ := Schema.UnionType.mem_of_variantByTag? hu
        exact (ih u.tag).imp fun e he => he.within fun _ _ hpart => .payload hmem htag hpart
      · -- the length of the block is the one that the union has by itself
        have hself := (yields_unionBody_payload hs id active payload).eq_ok_of_eq_ok hbody 0
        refine refuses_orTooLarge_justified ?_ le_of_writeBlock?_eq_none (Nat.le_succ_of_le hle)
        rw [lengthOf?, encodeUnion, hself]
        rfl
    | _ =>
      intro before
      unfold encodeMember
      exact refuses_mismatch justified_of_not_isSize _ _
  | struct r ih =>
    cases type with
    | struct id =>
      rw [encodeMember_struct]
      refine (refuses_recordBody justified_of_not_isSize (hs.structType id)
        fun f hf x hx => ?_).block fun start body length hbody hle => ?_
      · exact (ih f.tag x (by rw [hx]; rfl) f.tag).imp fun e he =>
          he.within fun _ _ hpart => .field hf hx hpart
      · have hself := (yields_recordBody_payload hs id r).eq_ok_of_eq_ok hbody 0
        refine refuses_orTooLarge_justified ?_ le_of_writeBlock?_eq_none (Nat.le_succ_of_le hle)
        rw [lengthOf?, encodeRecord, hself]
        rfl
    | _ =>
      intro before
      unfold encodeMember
      exact refuses_mismatch justified_of_not_isSize _ _
  | array items ih =>
    cases type with
    | array item =>
      rw [encodeMember_array]
      refine (Writing.refuses_fixed ?_).andThen (refuses_joined fun x hx => ?_)
      · exact refuses_orTooLarge_justified rfl le_of_writeRepeat?_eq_none (Nat.le_succ _)
      · exact (ih x hx .zero).imp fun e he => he.within fun _ _ hpart => .item hx hpart
    | _ =>
      intro before
      unfold encodeMember
      exact refuses_mismatch justified_of_not_isSize _ _

/-- The same of a value that stands by itself. -/
theorem encode_justified : Refuses (Justified s type v) (encode s v type) := by
  refine refuses_encode justified_of_not_isSize hs (fun _ _ => ?_) ?_ ?_
  · exact encodeMember_justified hs .zero
  · rintro id r rfl rfl f hf x hx
    exact (encodeMember_justified hs f.tag).imp fun e he =>
      he.within fun _ _ hpart => .field hf hx hpart
  · rintro id active payload rfl rfl u hu
    obtain ⟨hmem, htag⟩ := Schema.UnionType.mem_of_variantByTag? hu
    exact (encodeMember_justified hs u.tag).imp fun e he =>
      he.within fun _ _ hpart => .payload hmem htag hpart

/-- A value whose lengths fit is not refused for a length. -/
theorem encodeMember_sizeFree (hfit : MemberFits s type v) (tag : Tag) :
    (encodeMember s tag type v).Refuses (¬ IsSize ·) := by
  refine (encodeMember_justified hs tag).imp fun e he => ?_
  rintro ⟨name, n, hsize⟩
  obtain ⟨type', part, m, hpart, hm, hlarge, -⟩ := he name n hsize
  exact absurd (hfit type' part m hpart hm) (Nat.not_lt.mpr hlarge)

lemma encode_sizeFree (hfit : LengthsFit s type v) : Refuses (¬ IsSize ·) (encode s v type) := by
  refine refuses_encode (fun _ h => h) hs (fun hstruct hunion => ?_) ?_ ?_
  · exact encodeMember_sizeFree hs (hfit.member hstruct hunion) .zero
  · rintro id r rfl rfl f hf x hx
    exact encodeMember_sizeFree hs (hfit.field hf hx) f.tag
  · rintro id active payload rfl rfl u hu
    exact encodeMember_sizeFree hs (hfit.payload hu) u.tag

end

/-- **Acceptance.**  A value whose lengths fit is encoded just if it can be encoded at the type,
and if not, it is refused for another reason than a length. -/
theorem encode_accepts {p : Package} (hp : Schema.resolve p = .ok s)
    (hfit : LengthsFit s type v) :
    ((∃ bytes, encode s v type = .ok bytes) ↔ Encodable s type v) ∧
      (¬ Encodable s type v → ∃ e, encode s v type = .error e ∧
        ∀ name length, e ≠ .tooLarge name length) := by
  have hs := Schema.ascends_of_resolve hp
  have haccept : (∃ bytes, encode s v type = .ok bytes) ↔ Encodable s type v := by
    constructor
    · rintro ⟨bytes, h⟩
      exact ((encode_eq_ok_iff hs).mp h).encodable
    · intro h
      obtain ⟨bytes, hbytes⟩ := h.exists_writesPayload hs hfit
      exact ⟨bytes, (encode_eq_ok_iff hs).mpr hbytes⟩
  refine ⟨haccept, fun hnot => ?_⟩
  have hfree := encode_sizeFree hs hfit
  cases hresult : encode s v type with
  | ok bytes => exact absurd (haccept.mp ⟨bytes, hresult⟩) hnot
  | error e => exact ⟨e, rfl, fun name length he => hfree e hresult ⟨name, length, he⟩⟩

/-- An item of two pieces with a name in some state. -/
def namedItem (name : FieldState) : Value :=
  .struct (Record.ofList [(.ofNat 1, name), (.ofNat 2, .present (.int .u8 ⟨2, by decide⟩))])

lemma lengthsFit_namedItem {name : FieldState}
    (hname : name = .null ∨ name = .present (.string "a")) :
    LengthsFit Schema.parcelsSchema (.struct 0) (namedItem name) := by
  intro type part n hpart houter hn
  cases hpart with
  | self => exact absurd rfl (houter rfl 0).1
  | field hf hx hpart =>
    obtain rfl | rfl : _ = _ ∨ _ = _ := by
      simpa [Schema.parcelsSchema, Schema.structType] using hf
    · -- the name is sent just if it is not null
      rcases hname with rfl | rfl
      · cases hx
      · obtain rfl := FieldState.present.inj (hx.symm.trans rfl)
        cases hpart
        obtain rfl := Option.some.inj hn
        decide
    · obtain rfl : Value.int .u8 ⟨2, by decide⟩ = _ :=
        FieldState.present.inj (Eq.trans (by rcases hname with rfl | rfl <;> rfl) hx)
      cases hpart
      cases hn

/-- An item with a name is encoded; one whose name is null is refused, but not for a length. -/
theorem encode_accepts_item :
    (LengthsFit Schema.parcelsSchema (.struct 0) (namedItem (.present (.string "a"))) ∧
      Encodable Schema.parcelsSchema (.struct 0) (namedItem (.present (.string "a")))) ∧
    LengthsFit Schema.parcelsSchema (.struct 0) (namedItem .null) ∧
      ¬ Encodable Schema.parcelsSchema (.struct 0) (namedItem .null) ∧
      ∃ e, encode Schema.parcelsSchema (namedItem .null) (.struct 0) = .error e ∧
        ∀ name length, e ≠ .tooLarge name length := by
  have hnamed := lengthsFit_namedItem (.inr rfl)
  have hnull := lengthsFit_namedItem (.inl rfl)
  have hrefused : ¬ Encodable Schema.parcelsSchema (.struct 0) (namedItem .null) := by
    intro h
    obtain ⟨bytes, hbytes⟩ := (encode_accepts Schema.resolve_parcels hnull).1.mpr h
    cases hbytes
  exact ⟨⟨hnamed, (encode_accepts Schema.resolve_parcels hnamed).1.mp ⟨_, rfl⟩⟩, hnull, hrefused,
    (encode_accepts Schema.resolve_parcels hnull).2 hrefused⟩

end Codec

end SchemaRpc
