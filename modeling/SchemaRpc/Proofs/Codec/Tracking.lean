/-
# Checked decoding follows decoding

No check of the checked decoder ever fails: it does on every payload what the decoder does, and
every error but that of a payload that is too large has an offset inside the payload.  The loop
over the members of a struct ends within its turns because every header takes at least a byte.
-/
import SchemaRpc.Proofs.Codec.Checked
import SchemaRpc.Proofs.Codec.Scalars
import SchemaRpc.Proofs.Wire.Tracking

namespace SchemaRpc

namespace Codec

open Wire

/-- An error has an offset, and it lies in the buffer. -/
def DecodeError.Within (b : Bytes) (e : DecodeError) : Prop :=
  ∃ offset, e.offset? = some offset ∧ offset ≤ b.length

namespace Checked

open Wire.Checked

variable {s : Schema} {b : Bytes}

section

variable {α β : Type} {R : α → β → Prop}

lemma tracks_malformed {offset : Nat} (h : offset ≤ b.length) (type : TypeRef)
    (reason : Malformation) :
    Tracks b (DecodeError.Within b) R (malformed s type offset reason)
      (Codec.malformed s type offset reason) :=
  .fail ⟨offset, rfl, h⟩

lemma tracks_framed (type : TypeRef) {m : Checked FrameError α} {p : Reading β}
    (h : Tracks b (FrameError.Within b) R m p) :
    Tracks b (DecodeError.Within b) R (framed s type m) (Codec.framed s type p) :=
  tracks_mapError h (fun e he => ⟨e.offset, rfl, he⟩) fun r => by
    rw [Codec.framed]; cases p r <;> rfl

lemma tracks_passOver (limit budget : Nat) (type : TypeRef) (kind : Kind) :
    Tracks b (DecodeError.Within b) Eq (passOver s b limit budget type kind)
      (Codec.passOver s limit budget type kind) := by
  intro start hs
  rw [passOver, get_bind_run]
  refine follows_mapError (tracks_skip budget kind start hs) ?_ ?_
  · rintro (e | _) he
    · exact ⟨e.offset, rfl, he⟩
    · exact ⟨start.pos, rfl, hs.pos_le_length⟩
  · rw [Codec.passOver]
    cases Reader.skip budget kind (start.reader b) with
    | ok _ after => rfl
    | error e after => cases e <;> rfl

end

lemma tracks_readRanged (k : IntKind) (kind : Kind) :
    Tracks b (FrameError.Within b) Eq (readRanged b k kind) (Codec.readRanged k kind) :=
  .ite (fun _ => (tracks_readQuad kind).map _) fun _ =>
    tracks_readInt kind

lemma tracks_decodePrimitive (p : Primitive) (kind : Kind) :
    Tracks b (DecodeError.Within b) Eq (decodePrimitive s b p kind)
      (Codec.decodePrimitive s p kind) := by
  refine .get_bind fun start inside => ?_
  have hstart := inside.pos_le_length
  cases p with
  | bool =>
    exact (tracks_framed _ (tracks_readInt kind)).bind_eq fun n => .ite (fun _ => .pure rfl)
      fun _ => .ite (fun _ => .pure rfl) fun _ => tracks_malformed hstart _ _
  | int k =>
    refine (tracks_framed _ (tracks_readRanged k kind)).bind_eq fun n => ?_
    cases k.ofInt? n with
    | some n => exact .pure rfl
    | none => exact tracks_malformed hstart _ _
  | f32 => exact (tracks_framed _ (tracks_readFloat32 kind)).bind_eq fun _ => .pure rfl
  | f64 => exact (tracks_framed _ (tracks_readFloat64 kind)).bind_eq fun _ => .pure rfl
  | string =>
    refine (tracks_framed _ (tracks_readBytes kind)).bind_eq fun bytes => ?_
    cases Utf8.decode bytes with
    | ok text => exact .pure rfl
    | error fault => exact tracks_malformed hstart _ _
  | bytes => exact (tracks_framed _ (tracks_readBytes kind)).bind_eq fun _ => .pure rfl

lemma tracks_decodeEnum (id : Nat) (kind : Kind) :
    Tracks b (DecodeError.Within b) Eq (decodeEnum s b id kind) (Codec.decodeEnum s id kind) := by
  refine .get_bind fun start inside => (tracks_framed _ (tracks_readInt kind)).bind_eq fun n => ?_
  cases IntKind.i32.ofInt? n with
  | some value =>
    exact .ite (fun _ => .pure rfl) fun _ => .fail ⟨start.pos, rfl, inside.pos_le_length⟩
  | none => exact .fail ⟨start.pos, rfl, inside.pos_le_length⟩

/-! ## Structs, unions and arrays -/

section

variable {member : MemberDecoder} {member' : Codec.MemberDecoder}
  (hmember : ∀ type kind,
    Tracks b (DecodeError.Within b) Eq (member type kind) (member' type kind))

lemma decodeMembers_of_isEmpty {r : Reader} (h : r.isEmpty) (limit budget id fuel : Nat)
    (last : Option Tag) (done : Record) :
    Codec.decodeMembers s limit budget member' id fuel last done r = .ok done r := by
  cases fuel with
  | zero => rfl
  | succ fuel =>
    rw [Codec.decodeMembers]
    change (if r.isEmpty then (pure done : Decoding Record) else _) r = _
    rw [if_pos h]
    rfl

/-- At the end of a range there are no more members. -/
lemma follows_decodeMembers_ended {place : Span} (hs : place.Inside b)
    (hend : place.stop ≤ place.pos) (limit budget id turns fuel : Nat) (last : Option Tag)
    (done : Record) :
    Follows b (DecodeError.Within b) Eq place
      (decodeMembers s b limit budget member id turns last done place)
      (Codec.decodeMembers s limit budget member' id fuel last done (place.reader b)) := by
  rw [decodeMembers_of_isEmpty (hs.isEmpty_reader_iff.mpr hend)]
  cases turns <;> rw [decodeMembers, get_bind_run, if_pos hend] <;>
    exact .ok rfl hs (Nat.le_refl _) rfl

include hmember

/-- The loop over the members of a struct ends within as many turns as bytes are left. -/
lemma follows_decodeMembers (limit budget id : Nat) {turns fuel : Nat} {place : Span}
    (hs : place.Inside b) (hturns : place.stop - place.pos ≤ turns)
    (hfuel : place.stop - place.pos ≤ fuel) (last : Option Tag) (done : Record) :
    Follows b (DecodeError.Within b) Eq place
      (decodeMembers s b limit budget member id turns last done place)
      (Codec.decodeMembers s limit budget member' id fuel last done (place.reader b)) := by
  induction turns generalizing fuel place last done with
  | zero => exact follows_decodeMembers_ended hs (by omega) _ _ _ _ _ _ _
  | succ turns ih =>
    by_cases hend : place.stop ≤ place.pos
    · exact follows_decodeMembers_ended hs hend _ _ _ _ _ _ _
    · obtain ⟨fuel, rfl⟩ : ∃ n, fuel = n + 1 := ⟨fuel - 1, by omega⟩
      rw [decodeMembers, get_bind_run, if_neg hend, Codec.decodeMembers]
      change Follows b _ Eq place _
        ((if (place.reader b).isEmpty then pure done else _ : Decoding Record) _)
      rw [if_neg (mt hs.isEmpty_reader_iff.mp hend)]
      refine (tracks_framed (.struct id) tracks_readHeader place hs).bind
        fun header _ place' h hs' _ _ _ hrun => ?_
      subst h
      have hless := left_lt_of_readHeader hs hs' ((framed_eq_ok_iff s _).mp hrun)
      -- wherever the loop goes on, it does so behind the header, with fewer bytes left
      cases last.filter (header.tag ≤ ·) with
      | some previous => exact tracks_malformed hs.pos_le_length _ _ place' hs'
      | none =>
        dsimp only
        cases (s.structType id).fieldByTag? header.tag with
        | none =>
          refine (tracks_passOver limit budget (.struct id) header.kind place' hs').bind
            fun _ _ place'' _ hs'' _ hstop _ _ => ?_
          exact ih hs'' (by omega) (by omega) _ _
        | some f =>
          refine (tracks_framed (.struct id) (tracks_takeNull header.kind) place' hs').bind
            fun isNull _ place'' h hs'' _ hstop _ _ => ?_
          subst h
          cases isNull with
          | true =>
            rw [if_pos rfl, if_pos rfl]
            cases f.optional with
            | true => exact ih hs'' (by omega) (by omega) _ _
            | false => exact tracks_malformed hs.pos_le_length _ _ place'' hs''
          | false =>
            refine (hmember f.type header.kind place'' hs'').bind
              fun value _ place₃ h hs₃ _ hstop₃ _ _ => ?_
            subst h
            exact ih hs₃ (by omega) (by omega) _ _

omit hmember in
lemma tracks_fillIn (struct : Schema.StructType) (fields : List Schema.Field) (done : Record) :
    Tracks b (DecodeError.Within b) Eq (fillIn struct fields done)
      (Codec.fillIn struct fields done) := by
  induction fields generalizing done with
  | nil => exact .pure rfl
  | cons f more ih =>
    refine .ite (fun _ => ih done) fun _ => ?_
    cases f.default with
    | some value => exact ih _
    | none =>
      exact .ite (fun _ => ih done) fun _ => .get_bind fun place inside =>
        .fail ⟨place.pos, rfl, inside.pos_le_length⟩

lemma tracks_decodeRecord (limit budget id : Nat) :
    Tracks b (DecodeError.Within b) Eq (decodeRecord s b limit budget member id)
      (Codec.decodeRecord s limit budget member' id) := by
  intro place hs
  have hstop := hs.stop_le
  have hleft : place.stop - place.pos ≤ (place.reader b).remaining :=
    Nat.le_of_eq hs.length_rest.symm
  refine (follows_decodeMembers hmember limit budget id hs (by omega) hleft none Record.empty).bind
    fun sent _ place' h hs' _ _ _ _ => ?_
  subst h
  exact tracks_fillIn _ _ sent place' hs'

lemma tracks_decodeVariant (id : Nat) :
    Tracks b (DecodeError.Within b) Eq (decodeVariant s b member id)
      (Codec.decodeVariant s member' id) := by
  refine .get_bind fun start inside => (tracks_framed _ tracks_readHeader).bind_eq fun header => ?_
  cases (s.unionType id).variantByTag? header.tag with
  | none => exact .fail ⟨start.pos, rfl, inside.pos_le_length⟩
  | some v =>
    exact (hmember v.type header.kind).bind_eq fun payload => .get_bind fun after inside =>
      .ite_of_iff inside.isEmpty_reader_iff.symm (fun _ => .pure rfl) fun _ =>
        tracks_malformed inside.pos_le_length _ _

lemma tracks_decodeItems (item : TypeRef) (count : Nat) (done : List Value) :
    Tracks b (DecodeError.Within b) Eq (decodeItems s b member item count done)
      (Codec.decodeItems s member' item count done) := by
  induction count generalizing done with
  | zero => exact .pure rfl
  | succ count ih =>
    exact .get_bind fun start inside => (tracks_framed _ tracks_readHeader).bind_eq fun header =>
      .ite (fun _ => tracks_malformed inside.pos_le_length _ _) fun _ =>
        (hmember item header.kind).bind_eq fun value => ih (value :: done)

end

/-- A nested block is decoded in its own range. -/
lemma tracks_within {α : Type} {m : Checked DecodeError α} {p : Decoding α} {inner : Span}
    {block : Reader} (h : Tracks b (DecodeError.Within b) Eq m p)
    (hblock : inner.Inside b ∧ block = inner.reader b) :
    Tracks b (DecodeError.Within b) Eq (within inner m) (Codec.within block p) := by
  obtain ⟨hinner, rfl⟩ := hblock
  intro outer hs
  have h := h inner hinner
  rw [within, Codec.within]
  generalize m inner = x at h
  generalize p (inner.reader b) = y at h
  cases h with
  | ok hR => exact .ok hR hs (Nat.le_refl _) rfl
  | error he => exact .error he

lemma tracks_tooDeep (limit : Nat) (type : TypeRef) :
    Tracks b (DecodeError.Within b) Eq (tooDeep s limit type : Checked DecodeError Value)
      (Codec.tooDeep s limit type) :=
  .get_bind fun place inside => .fail ⟨place.pos, rfl, inside.pos_le_length⟩

/-- Decoding a member does not leave its range, at any depth. -/
theorem tracks_decodeMember (limit budget : Nat) (type : TypeRef) (kind : Kind) :
    Tracks b (DecodeError.Within b) Eq (decodeMember s b limit budget type kind)
      (Codec.decodeMember s limit budget type kind) := by
  induction budget generalizing type kind with
  | zero =>
    cases type with
    | prim p => exact tracks_decodePrimitive p kind
    | enum id => exact tracks_decodeEnum id kind
    | struct | union | array => exact tracks_tooDeep limit _
  | succ budget ih =>
    cases type with
    | prim p => exact tracks_decodePrimitive p kind
    | enum id => exact tracks_decodeEnum id kind
    | struct id =>
      exact (tracks_framed _ (tracks_readBlock kind)).bind fun inner block hblock =>
        (tracks_within (tracks_decodeRecord ih limit budget id) hblock).bind_eq fun _ => .pure rfl
    | union id =>
      exact (tracks_framed _ (tracks_readBlock kind)).bind fun inner block hblock =>
        (tracks_within (tracks_decodeVariant ih id) hblock).bind_eq fun _ => .pure rfl
    | array item =>
      exact (tracks_framed _ (tracks_readRepeat kind)).bind_eq fun count =>
        tracks_remaining_bind fun _ =>
          (tracks_decodeItems ih item count []).bind_eq fun _ => .pure rfl

theorem tracks_decodeTop (limits : Limits) (type : TypeRef) :
    Tracks b (DecodeError.Within b) Eq (decodeTop s b limits type)
      (Codec.decodeTop s limits type) := by
  have hmember (type : TypeRef) (kind : Kind) :=
    tracks_decodeMember (s := s) (b := b) limits.maxDepth limits.maxDepth type kind
  cases type with
  | struct id => exact (tracks_decodeRecord hmember _ _ id).bind_eq fun _ => .pure rfl
  | union id => exact (tracks_decodeVariant hmember id).bind_eq fun _ => .pure rfl
  | prim | enum | array =>
    exact .get_bind fun start inside => (tracks_framed _ tracks_readHeader).bind_eq fun header =>
      .ite (fun _ => tracks_malformed inside.pos_le_length _ _) fun _ =>
        (hmember _ header.kind).bind_eq fun value => .get_bind fun after inside =>
          .ite_of_iff inside.isEmpty_reader_iff.symm (fun _ => .pure rfl) fun _ =>
            tracks_malformed inside.pos_le_length _ _

/-! ## Payloads -/

/-- A run on a whole payload ends without a trap, and with an offset in the payload if it fails for
another reason than the size of the payload. -/
lemma agrees_onPayload {α : Type} {limits : Limits} {m : Checked DecodeError α} {p : Decoding α}
    (h : Tracks b (DecodeError.Within b) Eq m p) :
    Agrees (fun e => (∃ n k, e = .tooLarge n k) ∨ e.Within b) Eq (onPayload b limits m)
      (Codec.onPayload limits b p) := by
  have h := h ⟨0, b.length⟩ (Span.inside_whole b)
  rw [Span.reader_whole] at h
  rw [onPayload, Codec.onPayload]
  split
  · exact .error (.inl ⟨_, _, rfl⟩)
  · generalize m ⟨0, b.length⟩ = x at h
    generalize p (.ofBytes b) = y at h
    cases h with
    | ok hR => exact .ok hR
    | error he => exact .error (.inr he)

variable (s : Schema) (limits : Limits) (payload : Bytes)

theorem agrees_decode (type : TypeRef) :
    Agrees (fun e => (∃ n k, e = .tooLarge n k) ∨ e.Within payload) Eq
      (decode s limits payload type) (Codec.decode s limits payload type) :=
  agrees_onPayload (tracks_decodeTop limits type)

theorem agrees_decodeStruct (id : Nat) :
    Agrees (fun e => (∃ n k, e = .tooLarge n k) ∨ e.Within payload) Eq
      (decodeStruct s limits payload id) (Codec.decodeStruct s limits payload id) :=
  agrees_onPayload (tracks_decodeRecord (tracks_decodeMember _ _) _ _ id)

end Checked

end Codec

end SchemaRpc
