/-
# Hostile bytes

Walking through frames with all bounds checked, and what the checks are for: whatever the bytes
are, decoding a value, a struct, a request or a response ends, no check fails on the way, and an
error has an offset inside of the bytes.  This is `decoding_never_traps`.
-/
import Mathlib.Data.List.Forall2
import SchemaRpc.Envelope.Request
import SchemaRpc.Envelope.Response
import SchemaRpc.Proofs.Codec.Tracking

namespace SchemaRpc

namespace Envelope

open Wire

namespace Checked

open Wire.Checked

/-- A member of a frame: its header and the place after it. -/
abbrev Member := Header × Span

/-- The members up to the end, after those already walked through, in reverse. -/
def membersFrom (type : String) (b : Bytes) :
    (turns : Nat) → (last : Option Tag) → (done : List Member) →
      Checked FrameError (List Member)
  | 0, _, done => do
    let start ← get
    if start.stop ≤ start.pos then return done.reverse else trap .endless
  | turns + 1, last, done => do
    let start ← get
    if start.stop ≤ start.pos then return done.reverse
    else
      let header ← mapError (fun e => .malformed type e.offset (.frame e.fault)) (readHeader b)
      if last.any (header.tag ≤ ·) then fail (.malformed type start.pos (.tagOrder header.tag))
      else
        let payload ← get
        mapError (fun
          | .frame e => .malformed type e.offset (.frame e.fault)
          | .tooDeep => .malformed type payload.pos .nestedArray) (skip b 0 header.kind)
        membersFrom type b turns (some header.tag) ((header, payload) :: done)

/-- A frame that has been walked through. -/
structure Frame where
  type : String
  members : List Member
  length : Nat

/-- Operations that may refuse a frame or fail a check. -/
abbrev Decoded := Except (Trap ⊕ FrameError)

namespace Frame

/-- Walk through the members of a frame. -/
def ofBytes (type : String) (bytes : Bytes) : Decoded Frame :=
  match membersFrom type bytes bytes.length none [] ⟨0, bytes.length⟩ with
  | .ok members _ => .ok ⟨type, members, bytes.length⟩
  | .error e _ => .error e

/-- The member of a tag, by its position. -/
def member (f : Frame) (tag : Tag) (name : String) : Decoded Member :=
  match f.members.findIdx? (·.1.tag = tag) with
  | some i =>
    match f.members[i]? with
    | some m => .ok m
    | none => .error (.inl .outOfBounds)
  | none => .error (.inr (.missing f.type name tag f.length))

/-- Read the payload of a member. -/
def read {α : Type} (f : Frame) (m : Member) (read : Kind → Checked Wire.FrameError α) :
    Decoded α :=
  match read m.1.kind m.2 with
  | .ok a _ => .ok a
  | .error (.inl t) _ => .error (.inl t)
  | .error (.inr e) _ => .error (.inr (.malformed f.type e.offset (.frame e.fault)))

variable (b : Bytes)

/-- The bytes of the member of a tag. -/
def bytes (f : Frame) (tag : Tag) (name : String) : Decoded Bytes := do
  f.read (← f.member tag name) (readBytes b)

/-- The text of the member of a tag. -/
def text (f : Frame) (tag : Tag) (name : String) : Decoded String := do
  let m ← f.member tag name
  match Utf8.decode (← f.read m (readBytes b)) with
  | .ok text => return text
  | .error fault => throw (.inr (.malformed f.type m.2.pos (.notUtf8 name fault)))

/-- The status of a frame. -/
def status (f : Frame) : Decoded Status := do
  let m ← f.member Response.statusTag "status"
  let code ← f.read m (readInt b)
  match Status.ofCode? code with
  | some status => return status
  | none => throw (.inr (.malformed f.type m.2.pos (.unknownStatus code)))

end Frame

/-- The request of a frame. -/
def request (frame : Bytes) : Decoded Request := do
  let f ← Frame.ofBytes Request.typeName frame
  let module ← f.text frame Request.moduleTag "module"
  let member ← f.text frame Request.memberTag "member"
  let method ← f.text frame Request.methodTag "method"
  let payload ← f.bytes frame Request.payloadTag "payload"
  return ⟨module, member, method, payload⟩

/-- The response of a frame. -/
def response (frame : Bytes) : Decoded Response := do
  let f ← Frame.ofBytes Response.typeName frame
  let status ← f.status frame
  let payload ← f.bytes frame Response.payloadTag "payload"
  return ⟨status, payload⟩

/-! ## Checked walking follows walking -/

/-- The member of a checked walk stands where the member of the walk stands. -/
structure MemberAt (b : Bytes) (m : Member) (m' : FrameMember) : Prop where
  header : m'.header = m.1
  inside : m.2.Inside b
  payload : m'.payload = m.2.reader b

/-- The offset of an error lies in the frame. -/
def Within (b : Bytes) (e : FrameError) : Prop := e.offset ≤ b.length

variable {b : Bytes} {type : String}

lemma membersFrom_of_isEmpty {r : Reader} (h : r.isEmpty) (fuel : Nat) (last : Option Tag)
    (done : List FrameMember) :
    Envelope.membersFrom type fuel last done r = .ok done.reverse r := by
  cases fuel with
  | zero => rfl
  | succ fuel => simp only [Envelope.membersFrom, if_pos h]

/-- One turn of the walk. -/
lemma membersFrom_of_not_isEmpty {r : Reader} (h : ¬ r.isEmpty) (fuel : Nat) (last : Option Tag)
    (done : List FrameMember) :
    Envelope.membersFrom type (fuel + 1) last done r = (do
      let header ← EStateM.adaptExcept (fun e => .malformed type e.offset (.frame e.fault))
        Reader.readHeader
      if last.any (header.tag ≤ ·) then throw (.malformed type r.offset (.tagOrder header.tag))
      else
        let payload ← get
        EStateM.adaptExcept (fun
          | .frame e => .malformed type e.offset (.frame e.fault)
          | .tooDeep => .malformed type payload.offset .nestedArray) (Reader.skip 0 header.kind)
        Envelope.membersFrom type fuel (some header.tag) (⟨header, payload⟩ :: done) :
      EStateM FrameError Reader (List FrameMember)) r := by
  simp only [Envelope.membersFrom, if_neg h, bind, EStateM.bind, EStateM.adaptExcept]
  cases Reader.readHeader r with
  | error e after => rfl
  | ok header payload =>
    dsimp only
    split
    · rfl
    · show _ = EStateM.bind (EStateM.adaptExcept _ (Reader.skip 0 header.kind)) _ payload
      simp only [EStateM.bind, EStateM.adaptExcept]
      cases Reader.skip 0 header.kind payload with
      | ok _ after => rfl
      | error e after => cases e <;> rfl

lemma tracks_framed {α β : Type} {R : α → β → Prop} {m : Checked Wire.FrameError α}
    {p : Reading β} (h : Tracks b (Wire.FrameError.Within b) R m p) :
    Tracks b (Within b) R
      (mapError (fun e => FrameError.malformed type e.offset (.frame e.fault)) m)
      (EStateM.adaptExcept (fun e => FrameError.malformed type e.offset (.frame e.fault)) p) :=
  tracks_adaptExcept h fun _ he => he

/-- At the end of the frame there are no more members. -/
lemma follows_membersFrom_ended {place : Span} (hs : place.Inside b)
    (hend : place.stop ≤ place.pos) (turns fuel : Nat) (last : Option Tag) {done : List Member}
    {done' : List FrameMember} (hdone : List.Forall₂ (MemberAt b) done done') :
    Follows b (Within b) (List.Forall₂ (MemberAt b)) place
      (membersFrom type b turns last done place)
      (Envelope.membersFrom type fuel last done' (place.reader b)) := by
  rw [membersFrom_of_isEmpty (hs.isEmpty_reader_iff.mpr hend)]
  cases turns <;> rw [membersFrom, get_bind_run, if_pos hend] <;>
    exact .ok (List.rel_reverse hdone) hs (Nat.le_refl _) rfl

/-- The walk ends within as many turns as bytes are left. -/
lemma follows_membersFrom {turns fuel : Nat} {place : Span} (hs : place.Inside b)
    (hturns : place.stop - place.pos ≤ turns) (hfuel : place.stop - place.pos ≤ fuel)
    (last : Option Tag) {done : List Member} {done' : List FrameMember}
    (hdone : List.Forall₂ (MemberAt b) done done') :
    Follows b (Within b) (List.Forall₂ (MemberAt b)) place
      (membersFrom type b turns last done place)
      (Envelope.membersFrom type fuel last done' (place.reader b)) := by
  induction turns generalizing fuel place last done done' with
  | zero => exact follows_membersFrom_ended hs (by omega) _ _ _ hdone
  | succ turns ih =>
    by_cases hend : place.stop ≤ place.pos
    · exact follows_membersFrom_ended hs hend _ _ _ hdone
    · obtain ⟨fuel, rfl⟩ : ∃ n, fuel = n + 1 := ⟨fuel - 1, by omega⟩
      rw [membersFrom, get_bind_run, if_neg hend,
        membersFrom_of_not_isEmpty (mt hs.isEmpty_reader_iff.mp hend)]
      refine (tracks_framed tracks_readHeader place hs).bind
        fun header _ place' h hs' _ _ _ hrun => ?_
      subst h
      have hless := left_lt_of_readHeader hs hs' (adaptExcept_eq_ok_iff.mp hrun)
      by_cases hascends : last.any (header.tag ≤ ·)
      · rw [if_pos hascends, if_pos hascends]
        exact .error hs.pos_le_length
      · rw [if_neg hascends, if_neg hascends, get_bind_run]
        refine (tracks_adaptExcept (tracks_skip 0 header.kind) ?_ place' hs').bind
          fun _ _ after _ inside _ hstop _ _ => ?_
        · rintro (e | _) he
          · exact he
          · exact hs'.pos_le_length
        · exact ih inside (by omega) (by omega) _ (.cons ⟨rfl, hs', rfl⟩ hdone)

/-- The frame of a checked walk is the frame of the walk. -/
structure FrameAt (b : Bytes) (f : Frame) (f' : Envelope.Frame) : Prop where
  type : f'.type = f.type
  members : List.Forall₂ (MemberAt b) f.members f'.members
  length : f'.length = f.length
  length_eq : f.length = b.length

lemma agrees_ofBytes (type : String) (b : Bytes) :
    Agrees (Within b) (FrameAt b) (Frame.ofBytes type b) (Envelope.Frame.ofBytes type b) := by
  have h : Follows b (Within b) (List.Forall₂ (MemberAt b)) ⟨0, b.length⟩
      (membersFrom type b b.length none [] ⟨0, b.length⟩)
      (Envelope.membersFrom type b.length none [] (Span.reader ⟨0, b.length⟩ b)) :=
    follows_membersFrom (Span.inside_whole b) (Nat.le_refl _) (Nat.le_refl _) none .nil
  rw [Span.reader_whole] at h
  rw [Frame.ofBytes, Envelope.Frame.ofBytes]
  generalize membersFrom type b b.length none [] ⟨0, b.length⟩ = x at h
  generalize Envelope.membersFrom type b.length none [] (.ofBytes b) = y at h
  cases h with
  | ok hmembers => exact .ok ⟨rfl, hmembers, rfl, rfl⟩
  | error he => exact .error he

/-! ### Members of a frame -/

section

variable {f : Frame} {f' : Envelope.Frame}

/-- The position at which a member is found is one of the list. -/
lemma Frame.member_eq (f : Frame) (tag : Tag) (name : String) :
    f.member tag name = match f.members.find? (·.1.tag = tag) with
      | some m => .ok m
      | none => .error (.inr (.missing f.type name tag f.length)) := by
  rw [Frame.member, List.find?_eq_bind_findIdx?_getElem?]
  cases h : f.members.findIdx? (·.1.tag = tag) with
  | none => rfl
  | some i =>
    obtain ⟨hi, -⟩ := List.findIdx?_eq_some_iff_getElem.mp h
    simp only [Option.bind_some, List.getElem?_eq_getElem hi]

lemma rel_find? {members : List Member} {members' : List FrameMember}
    (h : List.Forall₂ (MemberAt b) members members') (tag : Tag) :
    Option.Rel (MemberAt b) (members.find? (·.1.tag = tag))
      (members'.find? (·.header.tag = tag)) := by
  induction h with
  | nil => exact .none
  | @cons m m' _ _ hm _ ih =>
    rw [List.find?_cons, List.find?_cons, hm.header]
    cases decide (m.1.tag = tag) with
    | true => exact .some hm
    | false => exact ih

lemma agrees_member (hf : FrameAt b f f') (tag : Tag) (name : String) :
    Agrees (Within b) (MemberAt b) (f.member tag name) (f'.member tag name) := by
  have h := rel_find? hf.members tag
  rw [Frame.member_eq, Envelope.Frame.member, hf.type, hf.length]
  generalize f.members.find? (·.1.tag = tag) = x at h
  generalize f'.members.find? (·.header.tag = tag) = y at h
  cases h with
  | some hm => exact .ok hm
  | none => exact .error (Nat.le_of_eq hf.length_eq)

lemma agrees_read (hf : FrameAt b f f') {m : Member} {m' : FrameMember} (hm : MemberAt b m m')
    {α : Type} {read : Kind → Checked Wire.FrameError α} {read' : Kind → Reading α}
    (h : ∀ kind, Tracks b (Wire.FrameError.Within b) Eq (read kind) (read' kind)) :
    Agrees (Within b) Eq (f.read m read) (f'.read m' read') := by
  have h := h m.1.kind m.2 hm.inside
  rw [Frame.read, Envelope.Frame.read, hm.header, hm.payload, hf.type]
  generalize read m.1.kind m.2 = x at h
  generalize read' m.1.kind (m.2.reader b) = y at h
  cases h with
  | ok ha => exact .ok ha
  | error he => exact .error he

/-- A refusal at the place of a member. -/
lemma agrees_malformed (hf : FrameAt b f f') {m : Member} {m' : FrameMember}
    (hm : MemberAt b m m') {α : Type} (reason : Fault) :
    Agrees (R := (Eq : α → α → Prop)) (Within b)
      (throw (.inr (.malformed f.type m.2.pos reason)))
      (throw (.malformed f'.type m'.payload.offset reason)) := by
  rw [hf.type, hm.payload]
  exact .error hm.inside.pos_le_length

lemma agrees_bytes (hf : FrameAt b f f') (tag : Tag) (name : String) :
    Agrees (Within b) Eq (f.bytes b tag name) (f'.bytes tag name) :=
  (agrees_member hf tag name).bind fun _ _ hm => agrees_read hf hm tracks_readBytes

lemma agrees_text (hf : FrameAt b f f') (tag : Tag) (name : String) :
    Agrees (Within b) Eq (f.text b tag name) (f'.text tag name) := by
  refine (agrees_member hf tag name).bind fun m m' hm =>
    (agrees_read hf hm tracks_readBytes).bind_eq fun bytes => ?_
  cases Utf8.decode bytes with
  | ok text => exact .ok rfl
  | error fault => exact agrees_malformed hf hm _

lemma agrees_status (hf : FrameAt b f f') :
    Agrees (Within b) Eq (f.status b) (Response.decodeStatus f') := by
  refine (agrees_member hf _ _).bind fun m m' hm =>
    (agrees_read hf hm tracks_readInt).bind_eq fun code => ?_
  cases Status.ofCode? code with
  | some status => exact .ok rfl
  | none => exact agrees_malformed hf hm _

end

theorem agrees_request (b : Bytes) : Agrees (Within b) Eq (request b) (Request.decode b) :=
  (agrees_ofBytes _ b).bind fun _ _ hf => (agrees_text hf _ _).bind_eq fun _ =>
    (agrees_text hf _ _).bind_eq fun _ => (agrees_text hf _ _).bind_eq fun _ =>
      (agrees_bytes hf _ _).bind_eq fun _ => .ok rfl

theorem agrees_response (b : Bytes) : Agrees (Within b) Eq (response b) (Response.decode b) :=
  (agrees_ofBytes _ b).bind fun _ _ hf => (agrees_status hf).bind_eq fun _ =>
    (agrees_bytes hf _ _).bind_eq fun _ => .ok rfl

end Checked

end Envelope

/-- Decoding is safe on hostile bytes: it ends, no bound is broken on the way, and every error but
that of a payload that is too large has an offset in the bytes. -/
theorem decoding_never_traps (s : Schema) (limits : Codec.Limits) (b : Bytes) :
    (∀ type, Codec.Checked.decode s limits b type = (Codec.decode s limits b type).mapError .inr ∧
      ∀ e, Codec.decode s limits b type = .error e →
        (∃ length limit, e = .tooLarge length limit) ∨ e.Within b) ∧
    (∀ id, Codec.Checked.decodeStruct s limits b id =
        (Codec.decodeStruct s limits b id).mapError .inr ∧
      ∀ e, Codec.decodeStruct s limits b id = .error e →
        (∃ length limit, e = .tooLarge length limit) ∨ e.Within b) ∧
    (Envelope.Checked.request b = (Request.decode b).mapError .inr ∧
      ∀ e, Request.decode b = .error e → e.offset ≤ b.length) ∧
    (Envelope.Checked.response b = (Response.decode b).mapError .inr ∧
      ∀ e, Response.decode b = .error e → e.offset ≤ b.length) := by
  refine ⟨fun type => ?_, fun id => ?_, ?_, ?_⟩
  · have h := Codec.Checked.agrees_decode s limits b type
    exact ⟨h.eq_mapError, fun _ he => h.of_error he⟩
  · have h := Codec.Checked.agrees_decodeStruct s limits b id
    exact ⟨h.eq_mapError, fun _ he => h.of_error he⟩
  · have h := Envelope.Checked.agrees_request b
    exact ⟨h.eq_mapError, fun _ he => h.of_error he⟩
  · have h := Envelope.Checked.agrees_response b
    exact ⟨h.eq_mapError, fun _ he => h.of_error he⟩

end SchemaRpc
