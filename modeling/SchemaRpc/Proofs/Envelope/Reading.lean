/-
# What frames hold

A frame that is walked through is a row of members, none of them an array, with strictly ascending
tags; and every row of this kind is walked through.  A member is then found by its tag, and what is
read of it depends on its own bytes only, wherever it stands and whatever follows.  So decoding is
described by the row:

* `Frame.ofBytes_eq_ok_iff`: the frames that are walked through,
* `Request.decode_eq_ok_iff` and `Response.decode_eq_ok_iff`: those that decode, and to what.
-/
import SchemaRpc.Envelope.Request
import SchemaRpc.Envelope.Response
import SchemaRpc.Proofs.Outcome
import SchemaRpc.Proofs.Tagged
import SchemaRpc.Proofs.Utf8
import SchemaRpc.Proofs.Wire.Framing
import SchemaRpc.Proofs.Wire.Pieces

namespace SchemaRpc

namespace Envelope

open Wire

/-! ## Rows of members -/

/-- Members one after the other, each with its tag in a header of any length. -/
inductive Row : Bytes → List (Tag × Piece) → Prop where
  | nil : Row [] []
  | cons {kind : Kind} {tag : Tag} {head body more : Bytes} {parts : List (Tag × Piece)}
    (hh : IsHeader head ⟨kind, tag⟩) (hb : Skips 0 kind body) (h : Row more parts) :
    Row (head ++ (body ++ more)) ((tag, ⟨kind, body⟩) :: parts)

namespace Row

variable {depth : Nat} {tags : List Tag} {bytes before after : Bytes}
  {parts parts' : List (Tag × Piece)}

lemma isSequence (h : Row bytes parts) : IsSequence 0 (parts.map (·.1)) bytes := by
  induction h with
  | nil => exact .nil
  | cons hh hb h ih => exact .cons_header hh hb ih

lemma skips (h : Row bytes parts) : ∀ p ∈ parts, Skips 0 p.2.kind p.2.body := by
  induction h with
  | nil => exact List.forall_mem_nil _
  | cons hh hb h ih => exact List.forall_mem_cons.mpr ⟨hb, ih⟩

lemma append (h : Row before parts) (h' : Row after parts') :
    Row (before ++ after) (parts ++ parts') := by
  induction h with
  | nil => exact h'
  | cons hh hb h ih =>
    rw [List.append_assoc, List.append_assoc]
    exact .cons hh hb ih

/-- Where a row begins with whole members, these are a row and what follows is another one. -/
lemma of_append (hseq : IsSequence depth tags before) (h : Row (before ++ after) parts) :
    ∃ front back, parts = front ++ back ∧ front.map (·.1) = tags ∧ Row before front ∧
      Row after back := by
  induction hseq generalizing parts with
  | nil => exact ⟨[], parts, rfl, rfl, .nil, h⟩
  | @cons tag tags member more hm hseq ih =>
    rw [List.append_assoc] at h
    generalize hbytes : member ++ (more ++ after) = whole at h
    cases h with
    | nil => exact absurd (List.append_eq_nil_iff.mp hbytes).1 hm.ne_nil
    | @cons kind' tag' head body more' parts hh hb h =>
      have hmember : member ++ (more ++ after) = head ++ body ++ more' := by
        rw [hbytes, List.append_assoc]
      obtain ⟨rfl, rfl, rfl⟩ := hm.unique (.mk hh hb) hmember
      obtain ⟨front, back, rfl, rfl, hfront, hback⟩ := ih h
      rw [List.append_assoc]
      exact ⟨_, back, rfl, rfl, .cons hh hb hfront, hback⟩

end Row

/-- The bytes are a frame of the members. -/
structure IsFrame (bytes : Bytes) (parts : List (Tag × Piece)) : Prop where
  row : Row bytes parts
  ascends : parts.Pairwise (·.1 < ·.1)

/-! ## Walking through a frame -/

/-- The member was found where the part of the frame stands. -/
structure Matches (m : FrameMember) (p : Tag × Piece) : Prop where
  header : m.header = ⟨p.2.kind, p.1⟩
  payload : ∃ offset rest, m.payload = ⟨offset, p.2.body ++ rest⟩

section

variable (type : String)

/-- One member is walked over. -/
lemma membersFrom_cons (fuel : Nat) {last : Option Tag} (done : List FrameMember) (offset : Nat)
    {kind : Kind} {tag : Tag} {head body : Bytes} (hh : IsHeader head ⟨kind, tag⟩)
    (hlast : ∀ t ∈ last, t < tag) (hb : Skips 0 kind body) (rest : Bytes) :
    membersFrom type (fuel + 1) last done ⟨offset, head ++ (body ++ rest)⟩ =
      membersFrom type fuel (some tag)
        (⟨⟨kind, tag⟩, ⟨offset + head.length, body ++ rest⟩⟩ :: done)
        ⟨offset + head.length + body.length, rest⟩ := by
  have hheader := Reader.parses_readHeader.run hh offset (body ++ rest)
  have hskip := (Reader.parses_skip 0 kind).run (a := ()) hb (offset + head.length) rest
  have hempty : ¬ Reader.isEmpty ⟨offset, head ++ (body ++ rest)⟩ := by
    simp [Reader.isEmpty, hh.ne_nil]
  have hascends : ¬ last.any (tag ≤ ·) := by
    cases last with
    | none => simp
    | some t => simpa using hlast t rfl
  rw [membersFrom]
  simp only [if_neg hempty, hheader, if_neg hascends, hskip]

/-- A row with ascending tags is walked through. -/
lemma membersFrom_of_row {bytes : Bytes} {parts : List (Tag × Piece)} (h : Row bytes parts)
    (hascends : parts.Pairwise (·.1 < ·.1)) {last : Option Tag}
    (hlast : ∀ p ∈ parts, ∀ t ∈ last, t < p.1) {fuel : Nat} (hfuel : bytes.length ≤ fuel)
    (done : List FrameMember) (offset : Nat) :
    ∃ members after, membersFrom type fuel last done ⟨offset, bytes⟩ =
        .ok (done.reverse ++ members) after ∧ List.Forall₂ Matches members parts := by
  induction h generalizing last fuel done offset with
  | nil =>
    refine ⟨[], ⟨offset, []⟩, ?_, .nil⟩
    rw [List.append_nil]
    cases fuel <;> rfl
  | @cons kind tag head body more parts hh hb h ih =>
    have hmore := List.pairwise_cons.mp hascends
    rw [List.forall_mem_cons] at hlast
    have hpos := hh.length_pos
    rw [List.length_append, List.length_append] at hfuel
    obtain ⟨fuel, rfl⟩ : ∃ n, fuel = n + 1 := ⟨fuel - 1, by omega⟩
    have hnext : ∀ p ∈ parts, ∀ t ∈ some tag, t < p.1 := fun p hp t ht =>
      Option.mem_some_iff.mp ht ▸ hmore.1 p hp
    have hrest : more.length ≤ fuel := by omega
    obtain ⟨members, after, hwalk, hmembers⟩ := ih hmore.2 hnext hrest
      (⟨⟨kind, tag⟩, ⟨offset + head.length, body ++ more⟩⟩ :: done)
      (offset + head.length + body.length)
    have hmatches : Matches ⟨⟨kind, tag⟩, ⟨offset + head.length, body ++ more⟩⟩
        (tag, ⟨kind, body⟩) := ⟨rfl, offset + head.length, more, rfl⟩
    refine ⟨_, after, ?_, .cons hmatches hmembers⟩
    rw [membersFrom_cons type fuel done offset hh hlast.1 hb more, hwalk, List.reverse_cons,
      List.append_assoc]
    rfl

/-- What is walked through is a row with ascending tags. -/
lemma row_of_membersFrom {fuel : Nat} {last : Option Tag} {done members : List FrameMember}
    {offset : Nat} {bytes : Bytes} {after : Reader} (hfuel : bytes.length ≤ fuel)
    (h : membersFrom type fuel last done ⟨offset, bytes⟩ = .ok members after) :
    ∃ found parts, members = done.reverse ++ found ∧ Row bytes parts ∧
      parts.Pairwise (·.1 < ·.1) ∧ (∀ p ∈ parts, ∀ t ∈ last, t < p.1) ∧
      List.Forall₂ Matches found parts := by
  induction fuel generalizing last done offset bytes with
  | zero =>
    obtain rfl : bytes = [] := List.length_eq_zero_iff.mp (Nat.le_zero.mp hfuel)
    cases h
    exact ⟨[], [], (List.append_nil _).symm, .nil, .nil, List.forall_mem_nil _, .nil⟩
  | succ fuel ih =>
    rw [membersFrom] at h
    dsimp only at h
    split at h
    · rename_i hempty
      obtain rfl : bytes = [] := List.isEmpty_iff.mp hempty
      cases h
      exact ⟨[], [], (List.append_nil _).symm, .nil, .nil, List.forall_mem_nil _, .nil⟩
    · split at h
      · cases h
      · rename_i header payload hheader
        split at h
        · cases h
        · rename_i hnot
          split at h
          · cases h
          · cases h
          · rename_i rest hskip
            obtain ⟨head, hh, hpast⟩ := (Reader.parses_readHeader _ _ _).mp hheader
            obtain ⟨body, hb, hpast'⟩ := (Reader.parses_skip 0 header.kind _ () _).mp hskip
            obtain rfl : bytes = head ++ (body ++ rest.rest) := by
              rw [← hpast'.rest_eq, ← hpast.rest_eq]
            have hpos := hh.length_pos
            rw [List.length_append, List.length_append] at hfuel
            obtain ⟨found, parts, rfl, hrow, hascends, habove, hmatches⟩ := ih (by omega) h
            have hlast : ∀ t ∈ last, t < header.tag := by
              rintro t rfl
              simpa using hnot
            have hhead : ∀ p ∈ parts, header.tag < p.1 := fun p hp => habove p hp _ rfl
            refine ⟨⟨header, payload⟩ :: found, (header.tag, ⟨header.kind, body⟩) :: parts, ?_,
              .cons hh hb hrow, .cons hhead hascends, List.forall_mem_cons.mpr ⟨hlast, ?_⟩,
              .cons ⟨rfl, payload.offset, rest.rest, ?_⟩ hmatches⟩
            · rw [List.reverse_cons, List.append_assoc]
              rfl
            · exact fun p hp t ht => Fin.lt_trans (hlast t ht) (hhead p hp)
            · show payload = _
              rw [← hpast'.rest_eq]

end

/-! ## Members of a frame -/

/-- The members of a frame that has been walked through are the parts. -/
structure Frame.Lists (f : Frame) (parts : List (Tag × Piece)) : Prop where
  members : List.Forall₂ Matches f.members parts
  ascends : parts.Pairwise (·.1 < ·.1)
  skips : ∀ p ∈ parts, Skips 0 p.2.kind p.2.body

/-- Frames are walked through. -/
lemma Frame.ofBytes_of_isFrame (type : String) {bytes : Bytes} {parts : List (Tag × Piece)}
    (h : IsFrame bytes parts) : ∃ f, Frame.ofBytes type bytes = .ok f ∧ f.Lists parts := by
  have hlast : ∀ p ∈ parts, ∀ t ∈ (none : Option Tag), t < p.1 := fun _ _ _ ht => nomatch ht
  obtain ⟨members, after, hwalk, hmembers⟩ :=
    membersFrom_of_row type h.row h.ascends hlast (Nat.le_refl _) [] 0
  refine ⟨⟨type, members, bytes.length⟩, ?_, hmembers, h.ascends, h.row.skips⟩
  rw [Frame.ofBytes, Reader.ofBytes, hwalk]
  rfl

/-- Only frames are walked through. -/
lemma Frame.isFrame_of_ofBytes {type : String} {bytes : Bytes} {f : Frame}
    (h : Frame.ofBytes type bytes = .ok f) : ∃ parts, IsFrame bytes parts ∧ f.Lists parts := by
  rw [Frame.ofBytes] at h
  split at h
  · rename_i members after hwalk
    cases h
    obtain ⟨found, parts, rfl, hrow, hascends, -, hmatches⟩ :=
      row_of_membersFrom type (Nat.le_refl _) hwalk
    exact ⟨parts, ⟨hrow, hascends⟩, hmatches, hascends, hrow.skips⟩
  · cases h

/-- Reading takes what `P` relates to the result, and this is all that there is of a member. -/
structure ReadsAs {α : Type} (op : Kind → Reading α) (P : Kind → Bytes → α → Prop) : Prop where
  parses : ∀ kind, Parses (op kind) (P kind)
  skips : ∀ kind bytes a, P kind bytes a → Skips 0 kind bytes

lemma readsAs_readBytes :
    ReadsAs Reader.readBytes fun kind bytes data => IsBlock kind bytes (data ++ [0]) :=
  ⟨Reader.parses_readBytes, fun _ _ _ h => .block h⟩

lemma readsAs_readInt : ReadsAs Reader.readInt fun kind bytes n =>
    kind.intWidth? = some bytes.length ∧ n = Bytes.toInt bytes :=
  ⟨Reader.parses_readInt, fun _ _ _ h => .int h.1⟩

section

variable {f : Frame} {parts : List (Tag × Piece)} {α : Type} {op : Kind → Reading α}
  {P : Kind → Bytes → α → Prop} (hop : ReadsAs op P)

include hop

/-- What is read of a member depends on its own bytes only. -/
lemma Matches.read_eq_ok_iff {m : FrameMember} {p : Tag × Piece} (hm : Matches m p)
    (hskips : Skips 0 p.2.kind p.2.body) {a : α} :
    f.read m op = .ok a ↔ P p.2.kind p.2.body a := by
  obtain ⟨hheader, offset, rest, hpayload⟩ := hm
  rw [Frame.read, hheader, hpayload]
  dsimp only
  constructor
  · intro h
    split at h
    · rename_i b after hread
      cases h
      obtain ⟨bytes, hbytes, hpast⟩ := (hop.parses p.2.kind _ _ _).mp hread
      -- both strings are passed over for the kind, so they end at the same place
      obtain ⟨hbody, -, -⟩ := (Reader.parses_skip 0 p.2.kind).unique (a := ()) (b := ()) hskips
        (hop.skips _ _ _ hbytes) hpast.rest_eq
      rwa [hbody]
    · cases h
  · intro h
    rw [(hop.parses p.2.kind).run h offset rest]

omit hop in
/-- Tags find the members that stand where the parts with these tags stand. -/
lemma rel_find? {members : List FrameMember} (h : List.Forall₂ Matches members parts) (tag : Tag) :
    Option.Rel Matches (members.find? (·.header.tag = tag)) (parts.find? (·.1 = tag)) := by
  induction h with
  | nil => exact .none
  | @cons m p members parts hm _ ih =>
    rw [List.find?_cons, List.find?_cons, hm.header]
    cases decide (p.1 = tag) with
    | true => exact .some hm
    | false => exact ih

/-- What is read of the member of a tag is what the part with the tag holds. -/
lemma Frame.Lists.read_iff (h : f.Lists parts) {tag : Tag} {name : String} {a : α} :
    (∃ m, f.member tag name = .ok m ∧ f.read m op = .ok a) ↔
      ∃ piece, (tag, piece) ∈ parts ∧ P piece.kind piece.body a := by
  have hfind {p : Tag × Piece} : parts.find? (·.1 = tag) = some p ↔ p ∈ parts ∧ p.1 = tag :=
    find?_eq_some_iff_keyOf Prod.fst
      (List.pairwise_map.mpr (h.ascends.imp fun hlt => Fin.ne_of_lt hlt))
  have hrel := rel_find? h.members tag
  rw [Frame.member]
  generalize f.members.find? (·.header.tag = tag) = found at hrel
  generalize hpart : parts.find? (·.1 = tag) = part at hrel
  cases hrel with
  | none =>
    constructor
    · rintro ⟨m, ⟨⟩, -⟩
    · rintro ⟨piece, hpiece, -⟩
      rw [hfind.mpr ⟨hpiece, rfl⟩] at hpart
      cases hpart
  | @some m p hm =>
    obtain ⟨tag', own⟩ := p
    obtain ⟨hp, rfl⟩ := hfind.mp hpart
    have hread := hm.read_eq_ok_iff hop (f := f) (a := a) (h.skips _ hp)
    constructor
    · rintro ⟨m, ⟨⟩, ha⟩
      exact ⟨own, hp, hread.mp ha⟩
    · rintro ⟨piece, hpiece, ha⟩
      rw [hfind.mpr ⟨hpiece, rfl⟩] at hpart
      cases hpart
      exact ⟨m, rfl, hread.mpr ha⟩

end

/-- The part with a tag is a block of the data and a zero byte. -/
def Carries (parts : List (Tag × Piece)) (tag : Tag) (data : Bytes) : Prop :=
  ∃ piece, (tag, piece) ∈ parts ∧ IsBlock piece.kind piece.body (data ++ [0])

/-- The part with a tag is an integer. -/
def CarriesInt (parts : List (Tag × Piece)) (tag : Tag) (n : Int) : Prop :=
  ∃ piece, (tag, piece) ∈ parts ∧ piece.kind.intWidth? = some piece.body.length ∧
    n = Bytes.toInt piece.body

namespace Frame.Lists

variable {f : Frame} {parts : List (Tag × Piece)} (h : f.Lists parts) {tag : Tag} {name : String}

include h

lemma bytes_eq_ok_iff {data : Bytes} : f.bytes tag name = .ok data ↔ Carries parts tag data := by
  rw [Frame.bytes, Outcome.bind_eq_ok_iff]
  exact h.read_iff readsAs_readBytes

lemma text_eq_ok_iff {text : String} :
    f.text tag name = .ok text ↔ Carries parts tag (Utf8.encode text) := by
  rw [Carries, ← h.read_iff readsAs_readBytes, Frame.text, Outcome.bind_eq_ok_iff]
  refine exists_congr fun m => and_congr_right fun _ => ?_
  rw [Outcome.bind_eq_ok_iff]
  constructor
  · rintro ⟨data, hread, htext⟩
    cases hdecode : Utf8.decode data with
    | error fault =>
      rw [hdecode] at htext
      cases htext
    | ok text' =>
      rw [hdecode] at htext
      cases htext
      rwa [← Utf8.decode_eq_ok_iff.mp hdecode]
  · intro hread
    refine ⟨_, hread, ?_⟩
    rw [Utf8.decode_eq_ok_iff.mpr rfl]
    rfl

lemma decodeStatus_eq_ok_iff {status : Status} :
    Response.decodeStatus f = .ok status ↔ CarriesInt parts Response.statusTag status.code := by
  rw [CarriesInt, ← h.read_iff readsAs_readInt, Response.decodeStatus, Outcome.bind_eq_ok_iff]
  refine exists_congr fun m => and_congr_right fun _ => ?_
  rw [Outcome.bind_eq_ok_iff]
  constructor
  · rintro ⟨code, hread, hstatus⟩
    cases hcode : Status.ofCode? code with
    | none =>
      rw [hcode] at hstatus
      cases hstatus
    | some status' =>
      rw [hcode] at hstatus
      cases hstatus
      rwa [← Status.ofCode?_eq_some_iff.mp hcode]
  · intro hread
    refine ⟨_, hread, ?_⟩
    rw [Status.ofCode?_code]
    rfl

end Frame.Lists

end Envelope

open Envelope

/-- **The frames that are requests.** -/
theorem Request.decode_eq_ok_iff {frame : Bytes} {r : Request} : Request.decode frame = .ok r ↔
    ∃ parts, IsFrame frame parts ∧ Carries parts moduleTag (Utf8.encode r.module) ∧
      Carries parts memberTag (Utf8.encode r.member) ∧
      Carries parts methodTag (Utf8.encode r.method) ∧ Carries parts payloadTag r.payload := by
  rw [Request.decode, Outcome.bind_eq_ok_iff]
  constructor
  · rintro ⟨f, hf, h⟩
    obtain ⟨parts, hframe, hlists⟩ := Frame.isFrame_of_ofBytes hf
    obtain ⟨module, hmodule, h⟩ := Outcome.bind_eq_ok_iff.mp h
    obtain ⟨member, hmember, h⟩ := Outcome.bind_eq_ok_iff.mp h
    obtain ⟨method, hmethod, h⟩ := Outcome.bind_eq_ok_iff.mp h
    obtain ⟨payload, hpayload, h⟩ := Outcome.bind_eq_ok_iff.mp h
    cases h
    exact ⟨parts, hframe, hlists.text_eq_ok_iff.mp hmodule, hlists.text_eq_ok_iff.mp hmember,
      hlists.text_eq_ok_iff.mp hmethod, hlists.bytes_eq_ok_iff.mp hpayload⟩
  · rintro ⟨parts, hframe, hmodule, hmember, hmethod, hpayload⟩
    obtain ⟨f, hf, hlists⟩ := Frame.ofBytes_of_isFrame Request.typeName hframe
    refine ⟨f, hf, ?_⟩
    refine Outcome.bind_eq_ok_iff.mpr ⟨_, hlists.text_eq_ok_iff.mpr hmodule, ?_⟩
    refine Outcome.bind_eq_ok_iff.mpr ⟨_, hlists.text_eq_ok_iff.mpr hmember, ?_⟩
    refine Outcome.bind_eq_ok_iff.mpr ⟨_, hlists.text_eq_ok_iff.mpr hmethod, ?_⟩
    exact Outcome.bind_eq_ok_iff.mpr ⟨_, hlists.bytes_eq_ok_iff.mpr hpayload, rfl⟩

/-- **The frames that are responses.** -/
theorem Response.decode_eq_ok_iff {frame : Bytes} {r : Response} : Response.decode frame = .ok r ↔
    ∃ parts, IsFrame frame parts ∧ CarriesInt parts statusTag r.status.code ∧
      Carries parts payloadTag r.payload := by
  rw [Response.decode, Outcome.bind_eq_ok_iff]
  constructor
  · rintro ⟨f, hf, h⟩
    obtain ⟨parts, hframe, hlists⟩ := Frame.isFrame_of_ofBytes hf
    obtain ⟨status, hstatus, h⟩ := Outcome.bind_eq_ok_iff.mp h
    obtain ⟨payload, hpayload, h⟩ := Outcome.bind_eq_ok_iff.mp h
    cases h
    exact ⟨parts, hframe, hlists.decodeStatus_eq_ok_iff.mp hstatus,
      hlists.bytes_eq_ok_iff.mp hpayload⟩
  · rintro ⟨parts, hframe, hstatus, hpayload⟩
    obtain ⟨f, hf, hlists⟩ := Frame.ofBytes_of_isFrame Response.typeName hframe
    refine ⟨f, hf, ?_⟩
    refine Outcome.bind_eq_ok_iff.mpr ⟨_, hlists.decodeStatus_eq_ok_iff.mpr hstatus, ?_⟩
    exact Outcome.bind_eq_ok_iff.mpr ⟨_, hlists.bytes_eq_ok_iff.mpr hpayload, rfl⟩

end SchemaRpc
