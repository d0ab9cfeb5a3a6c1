/-
# Written frames

A request and a response are written as members in ascending order of their tags, none of them an
array.  So their frames are such as are walked through, and they are read back from them.
-/
import SchemaRpc.Proofs.Codec.Written
import SchemaRpc.Proofs.Envelope.Reading

namespace SchemaRpc

namespace Envelope

open Wire

/-- The bytes fit a member, behind a length of four bytes and with a zero byte at their end. -/
def Fits (data : Bytes) : Prop := data.length + 1 < lengthLimit

instance decidableFits (data : Bytes) : Decidable (Fits data) :=
  inferInstanceAs (Decidable (_ < _))

lemma Fits.length_lt {data : Bytes} (h : Fits data) : (data ++ [0]).length < lengthLimit := by
  rwa [List.length_append]

/-! ## Members one after the other -/

/-- Members one after the other, each with its tag. -/
def partsBytes (parts : List (Tag × Piece)) : Bytes := parts.flatMap fun p => p.2.bytes p.1

/-- Written members that are no arrays are a row. -/
lemma row_partsBytes {parts : List (Tag × Piece)} (h : ∀ p ∈ parts, Skips 0 p.2.kind p.2.body) :
    Row (partsBytes parts) parts := by
  induction parts with
  | nil => exact .nil
  | cons p parts ih =>
    rw [List.forall_mem_cons] at h
    rw [partsBytes, List.flatMap_cons, Piece.bytes, List.append_assoc]
    exact .cons (isHeader_header p.2.kind p.1) h.1 (ih h.2)

lemma carries_of_mem {parts : List (Tag × Piece)} {tag : Tag} {data : Bytes} (hfits : Fits data)
    (h : (tag, leastBlock (data ++ [0])) ∈ parts) : Carries parts tag data :=
  ⟨_, h, isBlock_leastBlock hfits.length_lt⟩

lemma Fits.skips {data : Bytes} (h : Fits data) :
    Skips 0 (leastBlock (data ++ [0])).kind (leastBlock (data ++ [0])).body :=
  .block (isBlock_leastBlock h.length_lt)

lemma writeBytes_eq_ok_iff {type : String} {tag : Tag} {data bytes : Bytes} :
    writeBytes type tag data = .ok bytes ↔
      Fits data ∧ bytes = (leastBlock (data ++ [0])).bytes tag := by
  have hlen : (data ++ [0]).length < lengthLimit ↔ Fits data := by
    rw [List.length_append, Fits, List.length_singleton]
  rw [← hlen, ← writeBytes?_eq_some_iff, writeBytes]
  cases writeBytes? tag data <;> simp

end Envelope

open Envelope Wire

/-! ## Requests -/

namespace Request

/-- The members of a request. -/
def parts (r : Request) : List (Tag × Piece) :=
  [(moduleTag, leastBlock (Utf8.encode r.module ++ [0])),
    (memberTag, leastBlock (Utf8.encode r.member ++ [0])),
    (methodTag, leastBlock (Utf8.encode r.method ++ [0])),
    (payloadTag, leastBlock (r.payload ++ [0]))]

/-- All members of a request fit. -/
structure Fits (r : Request) : Prop where
  module : Envelope.Fits (Utf8.encode r.module)
  member : Envelope.Fits (Utf8.encode r.member)
  method : Envelope.Fits (Utf8.encode r.method)
  payload : Envelope.Fits r.payload

variable {r : Request} {frame : Bytes}

theorem encode_eq_ok_iff : r.encode = .ok frame ↔ r.Fits ∧ frame = partsBytes r.parts := by
  have hparts : partsBytes r.parts = (leastBlock (Utf8.encode r.module ++ [0])).bytes moduleTag ++
      ((leastBlock (Utf8.encode r.member ++ [0])).bytes memberTag ++
        ((leastBlock (Utf8.encode r.method ++ [0])).bytes methodTag ++
          (leastBlock (r.payload ++ [0])).bytes payloadTag)) := by
    simp [partsBytes, parts]
  rw [hparts]
  constructor
  · intro h
    obtain ⟨_, wmodule, h⟩ := Outcome.bind_eq_ok_iff.mp h
    obtain ⟨_, wmember, h⟩ := Outcome.bind_eq_ok_iff.mp h
    obtain ⟨_, wmethod, h⟩ := Outcome.bind_eq_ok_iff.mp h
    obtain ⟨_, wpayload, h⟩ := Outcome.bind_eq_ok_iff.mp h
    obtain ⟨hmodule, rfl⟩ := writeBytes_eq_ok_iff.mp wmodule
    obtain ⟨hmember, rfl⟩ := writeBytes_eq_ok_iff.mp wmember
    obtain ⟨hmethod, rfl⟩ := writeBytes_eq_ok_iff.mp wmethod
    obtain ⟨hpayload, rfl⟩ := writeBytes_eq_ok_iff.mp wpayload
    exact ⟨⟨hmodule, hmember, hmethod, hpayload⟩, (Outcome.pure_eq_ok_iff.mp h).symm⟩
  · rintro ⟨⟨hmodule, hmember, hmethod, hpayload⟩, rfl⟩
    refine Outcome.bind_eq_ok_iff.mpr ⟨_, writeBytes_eq_ok_iff.mpr ⟨hmodule, rfl⟩, ?_⟩
    refine Outcome.bind_eq_ok_iff.mpr ⟨_, writeBytes_eq_ok_iff.mpr ⟨hmember, rfl⟩, ?_⟩
    refine Outcome.bind_eq_ok_iff.mpr ⟨_, writeBytes_eq_ok_iff.mpr ⟨hmethod, rfl⟩, ?_⟩
    exact Outcome.bind_eq_ok_iff.mpr ⟨_, writeBytes_eq_ok_iff.mpr ⟨hpayload, rfl⟩, rfl⟩

/-- **A request is read back from its frame.** -/
theorem decode_of_encode (h : r.encode = .ok frame) : decode frame = .ok r := by
  obtain ⟨hfits, rfl⟩ := encode_eq_ok_iff.mp h
  have hascends : r.parts.Pairwise (·.1 < ·.1) := by
    simp only [parts, List.pairwise_cons, List.forall_mem_cons]
    decide
  have hskips : ∀ p ∈ r.parts, Skips 0 p.2.kind p.2.body := by
    simp only [parts, List.forall_mem_cons]
    exact ⟨hfits.module.skips, hfits.member.skips, hfits.method.skips, hfits.payload.skips,
      List.forall_mem_nil _⟩
  refine decode_eq_ok_iff.mpr ⟨r.parts, ⟨row_partsBytes hskips, hascends⟩, ?_, ?_, ?_, ?_⟩
  · exact carries_of_mem hfits.module (by simp [parts])
  · exact carries_of_mem hfits.member (by simp [parts])
  · exact carries_of_mem hfits.method (by simp [parts])
  · exact carries_of_mem hfits.payload (by simp [parts])

end Request

/-! ## Responses -/

namespace Response

/-- The members of a response. -/
def parts (r : Response) : List (Tag × Piece) :=
  [(statusTag, intPiece r.status.code), (payloadTag, leastBlock (r.payload ++ [0]))]

variable {r : Response} {frame : Bytes}

theorem encode_eq_ok_iff :
    r.encode = .ok frame ↔ Envelope.Fits r.payload ∧ frame = partsBytes r.parts := by
  have hparts : partsBytes r.parts = writeInt statusTag r.status.code ++
      (leastBlock (r.payload ++ [0])).bytes payloadTag := by
    simp [partsBytes, parts, writeInt_eq]
  rw [encode, Outcome.map_eq_ok_iff, hparts]
  constructor
  · rintro ⟨_, hpayload, rfl⟩
    obtain ⟨hfits, rfl⟩ := writeBytes_eq_ok_iff.mp hpayload
    exact ⟨hfits, rfl⟩
  · rintro ⟨hfits, rfl⟩
    exact ⟨_, writeBytes_eq_ok_iff.mpr ⟨hfits, rfl⟩, rfl⟩

/-- **A response is read back from its frame.** -/
theorem decode_of_encode (h : r.encode = .ok frame) : decode frame = .ok r := by
  obtain ⟨hfits, rfl⟩ := encode_eq_ok_iff.mp h
  have hascends : r.parts.Pairwise (·.1 < ·.1) := by
    simp only [parts, List.pairwise_cons, List.forall_mem_cons]
    decide
  have hskips : ∀ p ∈ r.parts, Skips 0 p.2.kind p.2.body := by
    simp only [parts, List.forall_mem_cons]
    exact ⟨.int (intPiece_width _), hfits.skips, List.forall_mem_nil _⟩
  have hcode : IntKind.i64.Holds (r.status.code : Int) := by
    rcases r.status with _ | _ | _ | _ <;> decide
  refine decode_eq_ok_iff.mpr ⟨r.parts, ⟨row_partsBytes hskips, hascends⟩, ?_, ?_⟩
  · exact ⟨_, .head _, intPiece_width _, (toInt_intPiece hcode).symm⟩
  · exact carries_of_mem hfits (by simp [parts])

end Response

end SchemaRpc
