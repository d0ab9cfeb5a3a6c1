/-
# Nested decoding is local

Decoding in a range of a buffer gives what decoding a fresh buffer with only the bytes of the range
gives, with every offset counted from where the range starts.  For readers this is `Shifts`, put
together along the decoder with one lemma for each of its operations; for places in a buffer it
follows, as the checked decoder does what the decoder does.
-/
import SchemaRpc.Proofs.Codec.Tracking
import SchemaRpc.Proofs.Codec.Versions
import SchemaRpc.Proofs.Wire.Shifting

namespace SchemaRpc

namespace Codec

open Wire

/-- The error at an offset that is larger by `n`, if it has one. -/
def DecodeError.shift (n : Nat) : DecodeError → DecodeError
  | .missingField type field tag offset => .missingField type field tag (offset + n)
  | .unknownVariant type tag offset => .unknownVariant type tag (offset + n)
  | .unknownEnumValue type value offset => .unknownEnumValue type value (offset + n)
  | .malformed type offset reason => .malformed type (offset + n) reason
  | .tooDeep type limit offset => .tooDeep type limit (offset + n)
  | .tooLarge length limit => .tooLarge length limit

/-! ## Shifted readers -/

section

variable {s : Schema} {n : Nat}

lemma shifts_malformed {α : Type} {onValue : α → α} (type : TypeRef) (offset : Nat)
    (reason : Malformation) :
    Shifts n (DecodeError.shift n) onValue (malformed s type (offset + n) reason)
      (malformed s type offset reason) :=
  .throw (DecodeError.malformed _ offset reason)

lemma shifts_framed {α : Type} {onValue : α → α} (type : TypeRef) {read : Reading α}
    (h : Shifts n (FrameError.shift n) onValue read read) :
    Shifts n (DecodeError.shift n) onValue (framed s type read) (framed s type read) := by
  intro r
  rw [framed, framed, h r]
  cases read r <;> rfl

lemma shifts_passOver (limit budget : Nat) (type : TypeRef) (kind : Kind) :
    Shifts n (DecodeError.shift n) id (passOver s limit budget type kind)
      (passOver s limit budget type kind) := by
  intro r
  rw [passOver, passOver, Reader.shifts_skip budget kind r]
  cases Reader.skip budget kind r with
  | ok _ after => rfl
  | error e after => cases e <;> rfl

lemma shifts_readRanged (k : IntKind) (kind : Kind) :
    Shifts n (FrameError.shift n) id (readRanged k kind) (readRanged k kind) :=
  .ite ((Reader.shifts_readQuad kind).bind fun _ => .pure _) (Reader.shifts_readInt kind)

lemma shifts_decodePrimitive (p : Primitive) (kind : Kind) :
    Shifts n (DecodeError.shift n) id (decodePrimitive s p kind) (decodePrimitive s p kind) := by
  refine .get_bind fun start => ?_
  cases p with
  | bool =>
    exact (shifts_framed _ (Reader.shifts_readInt kind)).bind fun _ =>
      .ite (.pure _) (.ite (.pure _) (shifts_malformed _ _ _))
  | int k =>
    refine (shifts_framed _ (shifts_readRanged k kind)).bind fun value => ?_
    rw [id_eq]
    cases k.ofInt? value with
    | some _ => exact .pure _
    | none => exact shifts_malformed _ _ _
  | f32 => exact (shifts_framed _ (Reader.shifts_readFloat32 kind)).bind fun _ => .pure _
  | f64 => exact (shifts_framed _ (Reader.shifts_readFloat64 kind)).bind fun _ => .pure _
  | string =>
    refine (shifts_framed _ (Reader.shifts_readBytes kind)).bind fun content => ?_
    rw [id_eq]
    cases Utf8.decode content with
    | ok _ => exact .pure _
    | error _ => exact shifts_malformed _ _ _
  | bytes => exact (shifts_framed _ (Reader.shifts_readBytes kind)).bind fun _ => .pure _

lemma shifts_decodeEnum (i : Nat) (kind : Kind) :
    Shifts n (DecodeError.shift n) id (decodeEnum s i kind) (decodeEnum s i kind) := by
  refine .get_bind fun start => (shifts_framed _ (Reader.shifts_readInt kind)).bind fun value => ?_
  rw [id_eq]
  cases IntKind.i32.ofInt? value with
  | some _ => exact .ite (.pure _) (.throw (DecodeError.unknownEnumValue _ _ start.offset))
  | none => exact .throw (DecodeError.unknownEnumValue _ _ start.offset)

section

variable {member : MemberDecoder}
  (hmember : ∀ type kind, Shifts n (DecodeError.shift n) id (member type kind) (member type kind))
include hmember

lemma shifts_decodeMembers (limit budget i fuel : Nat) (last : Option Tag) (done : Record) :
    Shifts n (DecodeError.shift n) id (decodeMembers s limit budget member i fuel last done)
      (decodeMembers s limit budget member i fuel last done) := by
  induction fuel generalizing last done with
  | zero => exact .pure done
  | succ fuel ih =>
    rw [decodeMembers]
    -- where the member starts is kept for errors, so it is shifted on one side only
    refine .get_bind fun start => .ite (.pure done)
      ((shifts_framed _ Reader.shifts_readHeader).bind fun header => ?_)
    rw [id_eq]
    cases last.filter (header.tag ≤ ·) with
    | some previous => exact shifts_malformed _ start.offset _
    | none =>
      cases (s.structType i).fieldByTag? header.tag with
      | none => exact (shifts_passOver _ _ _ _).bind fun _ => ih _ _
      | some f =>
        exact (shifts_framed _ (Reader.shifts_takeNull header.kind)).bind fun isNull =>
          .ite (.ite (ih _ _) (shifts_malformed _ start.offset _))
            ((hmember f.type header.kind).bind fun value => ih _ _)

omit hmember in
lemma shifts_fillIn (struct : Schema.StructType) (fields : List Schema.Field) (done : Record) :
    Shifts n (DecodeError.shift n) id (fillIn struct fields done) (fillIn struct fields done) := by
  induction fields generalizing done with
  | nil => exact .pure done
  | cons f more ih =>
    refine .ite (ih done) ?_
    cases f.default with
    | some value => exact ih _
    | none =>
      exact .ite (ih done) (.get_bind fun r => .throw (DecodeError.missingField _ _ _ r.offset))

lemma shifts_decodeRecord (limit budget i : Nat) :
    Shifts n (DecodeError.shift n) id (decodeRecord s limit budget member i)
      (decodeRecord s limit budget member i) :=
  .get_bind fun start =>
    (shifts_decodeMembers hmember limit budget i start.remaining none .empty).bind fun sent =>
      shifts_fillIn _ _ sent

lemma shifts_decodeVariant (i : Nat) :
    Shifts n (DecodeError.shift n) id (decodeVariant s member i) (decodeVariant s member i) := by
  refine .get_bind fun start => (shifts_framed _ Reader.shifts_readHeader).bind fun header => ?_
  rw [id_eq]
  cases (s.unionType i).variantByTag? header.tag with
  | none => exact .throw (DecodeError.unknownVariant _ _ start.offset)
  | some v =>
    exact (hmember v.type header.kind).bind fun payload => .get_bind fun after =>
      .ite (.pure _) (shifts_malformed _ after.offset _)

lemma shifts_decodeItems (item : TypeRef) (count : Nat) (done : List Value) :
    Shifts n (DecodeError.shift n) id (decodeItems s member item count done)
      (decodeItems s member item count done) := by
  induction count generalizing done with
  | zero => exact .pure _
  | succ count ih =>
    exact .get_bind fun start => (shifts_framed _ Reader.shifts_readHeader).bind fun header =>
      .ite (shifts_malformed _ start.offset _)
        ((hmember item header.kind).bind fun value => ih (value :: done))

end

/-- A block is inside of what is shifted, so it is shifted as well. -/
lemma shifts_within {α : Type} {onValue : α → α} {op : Decoding α}
    (h : Shifts n (DecodeError.shift n) onValue op op) (block : Reader) :
    Shifts n (DecodeError.shift n) onValue (within (block.shift n) op) (within block op) := by
  intro r
  rw [within, within, h block]
  cases op block <;> rfl

lemma shifts_tooDeep {α : Type} {onValue : α → α} (limit : Nat) (type : TypeRef) :
    Shifts n (DecodeError.shift n) onValue (tooDeep s limit type) (tooDeep s limit type) :=
  .get_bind fun r => .throw (DecodeError.tooDeep _ limit r.offset)

/-- **Shifted members.**  A member is decoded alike wherever its range stands. -/
theorem shifts_decodeMember (limit budget : Nat) (type : TypeRef) (kind : Kind) :
    Shifts n (DecodeError.shift n) id (decodeMember s limit budget type kind)
      (decodeMember s limit budget type kind) := by
  induction budget generalizing type kind with
  | zero =>
    cases type with
    | prim p => exact shifts_decodePrimitive p kind
    | enum i => exact shifts_decodeEnum i kind
    | struct i | union i | array item => exact shifts_tooDeep limit _
  | succ budget ih =>
    cases type with
    | prim p => exact shifts_decodePrimitive p kind
    | enum i => exact shifts_decodeEnum i kind
    | struct i =>
      exact (shifts_framed _ (Reader.shifts_readBlock kind)).bind fun block =>
        (shifts_within (shifts_decodeRecord ih limit budget i) block).bind fun _ => .pure _
    | union i =>
      exact (shifts_framed _ (Reader.shifts_readBlock kind)).bind fun block =>
        (shifts_within (shifts_decodeVariant ih i) block).bind fun _ => .pure _
    | array item =>
      exact (shifts_framed _ (Reader.shifts_readRepeat kind)).bind fun count =>
        (shifts_decodeItems ih item count []).bind fun _ => .pure _

end

/-! ## Ranges of a buffer -/

/-- Decoding in a range of a buffer depends on the bytes of the range only: it is decoding these
bytes by themselves, with all offsets counted from where the range starts. -/
structure IsLocal {α : Type} (b : Bytes) (place : Span) (checked : Bytes → Checked DecodeError α)
    (op : Decoding α) : Prop where
  /-- A reader for the range does what a reader for a fresh buffer does. -/
  reader : op (place.reader b) =
    shifted place.pos (.shift place.pos) id (op (.ofBytes (place.bytes b)))
  /-- A run on the whole buffer ends like a run on a fresh buffer. -/
  buffer : ending (checked b place) =
    (ending (checked (place.bytes b) ⟨0, (place.bytes b).length⟩)).mapError
      (Sum.map id (.shift place.pos))
  /-- Other bytes outside of the range make no difference. -/
  outside : ∀ b', place.Inside b' → place.bytes b' = place.bytes b →
    ending (checked b' place) = ending (checked b place)

lemma isLocal {α : Type} {checked : Bytes → Checked DecodeError α} {op : Decoding α}
    (hshifts : ∀ n, Shifts n (DecodeError.shift n) id op op)
    (htracks : ∀ b, Tracks b (DecodeError.Within b) Eq (checked b) op) {b : Bytes} {place : Span}
    (h : place.Inside b) : IsLocal b place checked op := by
  have hreader (b : Bytes) : op (place.reader b) =
      shifted place.pos (.shift place.pos) id (op (.ofBytes (place.bytes b))) := by
    rw [place.reader_eq_shift, hshifts]
  have hrange {b : Bytes} (h : place.Inside b) : ending (checked b place) =
      ((ending (op (.ofBytes (place.bytes b)))).mapError (.shift place.pos)).mapError .inr := by
    rw [(htracks b place h).ending_eq, hreader, ending_shifted]
  have hfresh (b : Bytes) : ending (checked b ⟨0, b.length⟩) =
      (ending (op (.ofBytes b))).mapError .inr := by
    rw [(htracks b _ (Span.inside_whole b)).ending_eq, Span.reader_whole]
  refine ⟨hreader b, ?_, fun b' h' hbytes => ?_⟩
  · rw [hrange h, hfresh]
    cases ending (op (.ofBytes (place.bytes b))) <;> rfl
  · rw [hrange h', hrange h, hbytes]

/-! ## Behind a block -/

section

variable {s : Schema} {α : Type} {type : TypeRef} {kind : Kind}

/-- Whatever becomes of the inside of a block, the reader stands behind the block. -/
lemma endsAt_nested (g : α → Value) (op : Decoding α) {r block after : Reader}
    (h : Reader.readBlock kind r = .ok block after) :
    endsAt ((do
      let block ← framed s type (Reader.readBlock kind)
      return g (← within block op) : Decoding Value) r) = after := by
  rw [bind_eq_of_ok ((framed_eq_ok_iff s type).mpr h)]
  simp only [bind, EStateM.bind, within]
  cases op block <;> rfl

lemma Checked.endsAt_nested (g : α → Value) (m : Checked DecodeError α) {b : Bytes}
    {place inner after : Span} (h : Checked.readBlock b kind place = .ok inner after) :
    endsAt ((do
      let inner ← Checked.framed s type (Checked.readBlock b kind)
      return g (← Checked.within inner m) : Checked DecodeError Value) place) = after := by
  have hframed : Checked.framed s type (Checked.readBlock b kind) place = .ok inner after := by
    rw [Checked.framed, Checked.mapError, h]
  rw [Checked.bind_run hframed]
  simp only [bind, EStateM.bind, Checked.within]
  cases m inner <;> rfl

/-- A block that was found ends where the reader behind it stands. -/
lemma offset_eq_of_readBlock {r block after : Reader}
    (h : Reader.readBlock kind r = .ok block after) :
    after.offset = block.offset + block.rest.length := by
  obtain ⟨_, _, _, hend⟩ := Reader.readBlock_eq_ok_iff.mp h
  exact hend.symm

lemma Checked.eq_of_readBlock {b : Bytes} {place inner after : Span} (hplace : place.Inside b)
    (h : Checked.readBlock b kind place = .ok inner after) : after = ⟨inner.stop, place.stop⟩ := by
  have hfollows := Checked.tracks_readBlock kind place hplace
  rw [h] at hfollows
  generalize hrun : Reader.readBlock kind (place.reader b) = y at hfollows
  cases hfollows with
  | @ok _ block _ hblock _ _ hstop =>
    obtain ⟨hinner, rfl⟩ := hblock
    obtain ⟨_, _, _, hend⟩ := Reader.readBlock_eq_ok_iff.mp hrun
    rw [hinner.length_rest] at hend
    have hpos : inner.stop = after.pos := by
      have hle := hinner.pos_le
      simp only [Span.reader] at hend
      omega
    rw [hpos, ← hstop]

end

/-- When a struct or union member has found its block, it ends behind the block, with a value or
with an error. -/
structure EndsBehindBlock (s : Schema) (b : Bytes) (place : Span) (limit budget : Nat)
    (type : TypeRef) (kind : Kind) : Prop where
  reader : ∀ block after, Reader.readBlock kind (place.reader b) = .ok block after →
    after.offset = block.offset + block.rest.length ∧
      endsAt (decodeMember s limit (budget + 1) type kind (place.reader b)) = after
  buffer : ∀ inner after, Checked.readBlock b kind place = .ok inner after →
    after = ⟨inner.stop, place.stop⟩ ∧
      endsAt (Checked.decodeMember s b limit (budget + 1) type kind place) = after

section

variable {s : Schema} {b : Bytes} {place : Span} (h : place.Inside b) {limit budget i : Nat}
  {kind : Kind}
include h

lemma endsBehindBlock_struct : EndsBehindBlock s b place limit budget (.struct i) kind :=
  ⟨fun _ _ hrun => ⟨offset_eq_of_readBlock hrun, endsAt_nested .struct _ hrun⟩,
    fun _ _ hrun => ⟨Checked.eq_of_readBlock h hrun, Checked.endsAt_nested .struct _ hrun⟩⟩

lemma endsBehindBlock_union : EndsBehindBlock s b place limit budget (.union i) kind :=
  ⟨fun _ _ hrun => ⟨offset_eq_of_readBlock hrun,
      endsAt_nested (fun active : Tag × Value => .union active.1 active.2) _ hrun⟩,
    fun _ _ hrun => ⟨Checked.eq_of_readBlock h hrun,
      Checked.endsAt_nested (fun active : Tag × Value => .union active.1 active.2) _ hrun⟩⟩

end

/-- **Locality.**  Decoding the inside of a struct or of a union, or a member, in a range of a
buffer is decoding the bytes of the range by themselves, with the offsets of errors counted from
where the range starts.  A struct or union member ends behind its block, whatever is inside. -/
theorem nested_decoding_is_local (s : Schema) {b : Bytes} {place : Span} (h : place.Inside b)
    (limit budget : Nat) :
    (∀ id, IsLocal b place
      (fun b => Checked.decodeRecord s b limit budget (Checked.decodeMember s b limit budget) id)
      (decodeRecord s limit budget (decodeMember s limit budget) id)) ∧
    (∀ id, IsLocal b place
      (fun b => Checked.decodeVariant s b (Checked.decodeMember s b limit budget) id)
      (decodeVariant s (decodeMember s limit budget) id)) ∧
    (∀ type kind, IsLocal b place (fun b => Checked.decodeMember s b limit budget type kind)
      (decodeMember s limit budget type kind)) ∧
    ∀ id kind, EndsBehindBlock s b place limit budget (.struct id) kind ∧
      EndsBehindBlock s b place limit budget (.union id) kind := by
  have hmember (n : Nat) (type : TypeRef) (kind : Kind) :
      Shifts n (DecodeError.shift n) id (decodeMember s limit budget type kind)
        (decodeMember s limit budget type kind) := shifts_decodeMember limit budget type kind
  have htracks (b : Bytes) (type : TypeRef) (kind : Kind) :=
    Checked.tracks_decodeMember (s := s) (b := b) limit budget type kind
  refine ⟨fun i => ?_, fun i => ?_, fun type kind => ?_, fun i kind =>
    ⟨endsBehindBlock_struct h, endsBehindBlock_union h⟩⟩
  · exact isLocal (fun n => shifts_decodeRecord (hmember n) limit budget i)
      (fun b => Checked.tracks_decodeRecord (htracks b) limit budget i) h
  · exact isLocal (fun n => shifts_decodeVariant (hmember n) i)
      (fun b => Checked.tracks_decodeVariant (htracks b) i) h
  · exact isLocal (fun n => hmember n type kind) (fun b => htracks b type kind) h

/-- The inside of the item at the place of a parcel, in a range that is a byte too short, and the
place as a member, within a depth that suffices and within one that does not. -/
theorem nested_decoding_is_local_parcel :
    Span.Inside ⟨13, 16⟩ parcelBytes ∧ Span.bytes ⟨13, 16⟩ parcelBytes = [1, 2, 97] ∧
    ending (Checked.decodeRecord Schema.parcelsSchema parcelBytes 2 0
      (Checked.decodeMember Schema.parcelsSchema parcelBytes 2 0) 0 ⟨13, 16⟩) =
        (ending (Checked.decodeRecord Schema.parcelsSchema [1, 2, 97] 2 0
          (Checked.decodeMember Schema.parcelsSchema [1, 2, 97] 2 0) 0 ⟨0, 3⟩)).mapError
            (Sum.map id (.shift 13)) ∧
    ending (Checked.decodeRecord Schema.parcelsSchema [1, 2, 97] 2 0
      (Checked.decodeMember Schema.parcelsSchema [1, 2, 97] 2 0) 0 ⟨0, 3⟩) =
        .error (.inr (.malformed "string" 2 (.frame (.short 2 1)))) ∧
    Wire.Checked.readBlock parcelBytes .block4 ⟨4, 34⟩ = .ok ⟨8, 17⟩ ⟨17, 34⟩ ∧
    endsAt (Checked.decodeMember Schema.parcelsSchema parcelBytes 2 2 (.union 0) .block4
      ⟨4, 34⟩) = ⟨17, 34⟩ ∧
    endsAt (Checked.decodeMember Schema.parcelsSchema parcelBytes 2 1 (.union 0) .block4
      ⟨4, 34⟩) = ⟨17, 34⟩ := by
  have hitem : Span.Inside ⟨13, 16⟩ parcelBytes := ⟨by decide, by decide⟩
  have hmember : Span.Inside ⟨4, 34⟩ parcelBytes := ⟨by decide, by decide⟩
  have hblock : Wire.Checked.readBlock parcelBytes .block4 ⟨4, 34⟩ = .ok ⟨8, 17⟩ ⟨17, 34⟩ := by
    rfl
  obtain ⟨hrecord, -⟩ := nested_decoding_is_local Schema.parcelsSchema hitem 2 0
  have hends (budget : Nat) :=
    (nested_decoding_is_local Schema.parcelsSchema hmember 2 budget).2.2.2 0 .block4
  exact ⟨hitem, by decide, (hrecord 0).buffer, by rfl, hblock,
    ((hends 1).2.buffer _ _ hblock).2, ((hends 0).2.buffer _ _ hblock).2⟩

end Codec

end SchemaRpc
