/-
# Reading with another version of a schema

What one schema writes, another one reads, if their types correspond and the integer types of the
reader hold all integers of those of the writer.  It is the simulation in which the reader refuses
no integer: each keeps its number.
-/
import SchemaRpc.Proofs.Codec.Simulation

namespace SchemaRpc

namespace Codec

open Wire

section

variable {w r : Schema} {rel : TypeRef → TypeRef → Prop}

/-- An integer keeps its number at a type that holds it. -/
lemma retype_int {j k : IntKind} (n : j.Ranged) (h : k.Holds n.val) :
    Value.retype (.prim (.int k)) (.int j n) = .int k ⟨n.val, h⟩ := by
  have hofInt : k.ofInt? n.val = some ⟨n.val, h⟩ := IntKind.ofInt?_eq_some_iff.mpr rfl
  simp only [Value.retype, hofInt]

lemma retype_of_ne (type : TypeRef) {v : Value} (h : ∀ j n, v ≠ .int j n) :
    Value.retype type v = v := by
  unfold Value.retype
  split
  · exact absurd rfl (h _ _)
  · rfl

/-- Types that fit are simulated without refusing an integer. -/
lemma simulates_of_fits (hw : w.Ascends) (hr : r.Ascends)
    (hfits : ∀ a b, rel a b → Fits w r rel a b) :
    Simulates w r rel Value.retype fun _ _ => False := by
  refine ⟨hw, hr, fun a b hab => .fits (hfits a b hab), fun j k n hrel _ => ?_,
    fun type v hv => retype_of_ne type hv⟩
  have hread (hholds : k.Holds n.val) : IsScalar (.int k) (intPiece n.val).kind
      (intPiece n.val).body (Value.retype (.prim (.int k)) (.int j n)) := by
    rw [retype_int n hholds]
    exact isScalar_int ⟨n.val, hholds⟩
  cases hfits _ _ hrel with
  | prim => exact hread n.holds
  | int hlow hhigh => exact hread ⟨hlow.trans n.holds.1, n.holds.2.trans hhigh⟩

lemma not_misfit {b : TypeRef} {v : Value} : ¬ Misfit r (fun _ _ => False) b v := by
  intro h
  induction h with
  | int h => exact h
  | item _ _ ih | payload _ _ ih | field _ _ _ ih => exact ih

/-- What is written as a payload is at every related type a payload of the value on arrival. -/
theorem WritesPayload.isPayload (hw : w.Ascends) (hr : r.Ascends)
    (hfits : ∀ a b, rel a b → Fits w r rel a b) {a : TypeRef} {v : Value} {bytes : Bytes}
    (h : WritesPayload w a v bytes) {b : TypeRef} (hab : rel a b) {depth : Nat}
    (hdepth : v.nestingAt a ≤ depth) : IsPayload r depth b bytes (v.project r b) :=
  h.isPayload_arrive (simulates_of_fits hw hr hfits) hab hdepth not_misfit

end

/-- **Version compatibility.**  What one schema encodes at a type, another schema decodes at every
type related to it, as what it makes of the value. -/
theorem decode_project {pw pr : Package} {w r : Schema} (hpw : Schema.resolve pw = .ok w)
    (hpr : Schema.resolve pr = .ok r) {rel : TypeRef → TypeRef → Prop}
    (hfits : ∀ a b, rel a b → Fits w r rel a b) {a b : TypeRef} (hab : rel a b) {v : Value}
    {bytes : Bytes} (h : encode w v a = .ok bytes) {limits : Limits}
    (hlen : bytes.length ≤ limits.maxPayload) (hdepth : v.nestingAt a ≤ limits.maxDepth) :
    decode r limits bytes b = .ok (v.project r b) := by
  have hw := Schema.ascends_of_resolve hpw
  have hr := Schema.ascends_of_resolve hpr
  have hwritten := (encode_eq_ok_iff hw).mp h
  exact (decode_eq_ok_iff hr).mpr ⟨hlen, hwritten.isPayload hw hr hfits hab hdepth⟩

/-- A later package of parcels: numbers are wider, places are gone, and items may have a note. -/
def laterParcels : Package := ⟨"parcels", [
  .struct "Parcel" [⟨"weight", .named "u32", false, none, none⟩,
    ⟨"items", .array (.named "Item"), true, some (.ofNat 5), none⟩,
    ⟨"urgent", .named "bool", false, none, some (.bool false)⟩] [],
  .struct "Item" [⟨"name", .named "string", false, none, none⟩,
    ⟨"count", .named "i16", false, none, some (.int 1)⟩,
    ⟨"note", .named "string", true, none, none⟩] []]⟩

/-- The schema of the later package. -/
def laterSchema : Schema where
  package := "parcels"
  fingerprint := Schema.fingerprintOf laterParcels
  enums := []
  unions := []
  structs := [
    ⟨"Parcel", [⟨"weight", .ofNat 1, .prim (.int .u32), false, none⟩,
      ⟨"items", .ofNat 5, .array (.struct 1), true, none⟩,
      ⟨"urgent", .ofNat 6, .prim .bool, false, some (.bool false)⟩]⟩,
    ⟨"Item", [⟨"name", .ofNat 1, .prim .string, false, none⟩,
      ⟨"count", .ofNat 2, .prim (.int .i16), false, some (.int .i16 ⟨1, by decide⟩)⟩,
      ⟨"note", .ofNat 3, .prim .string, true, none⟩]⟩]
  interfaces := []
  modules := []
  typeNames := [("Parcel", .struct 0), ("Item", .struct 1)]
  interfaceNames := []

/-- How the types of the package of parcels correspond to those of the later one. -/
def parcelTypes : List (TypeRef × TypeRef) :=
  [(.struct 1, .struct 0), (.struct 0, .struct 1), (.array (.struct 0), .array (.struct 1)),
    (.prim (.int .u16), .prim (.int .u32)), (.prim (.int .u8), .prim (.int .i16)),
    (.prim .string, .prim .string)]

lemma fits_parcelTypes (a b : TypeRef) (h : (a, b) ∈ parcelTypes) :
    Fits Schema.parcelsSchema laterSchema (fun a b => (a, b) ∈ parcelTypes) a b := by
  simp only [parcelTypes, List.mem_cons, Prod.mk.injEq, List.not_mem_nil, or_false] at h
  rcases h with ⟨rfl, rfl⟩ | ⟨rfl, rfl⟩ | ⟨rfl, rfl⟩ | ⟨rfl, rfl⟩ | ⟨rfl, rfl⟩ | ⟨rfl, rfl⟩
  · exact .struct ⟨by decide, by decide, by decide⟩
  · exact .struct ⟨by decide, by decide, by decide⟩
  · exact .array (by decide)
  · exact .int (by decide) (by decide)
  · exact .int (by decide) (by decide)
  · exact .prim .string

lemma resolve_laterParcels : Schema.resolve laterParcels = .ok laterSchema := by rfl

/-- The bytes of a parcel. -/
def parcelBytes : Bytes :=
  [161, 44, 1, 66, 9, 0, 0, 0, 66, 4, 0, 0, 0, 1, 2, 97, 0, 229, 1, 0, 0, 0,
    64, 7, 0, 0, 0, 1, 2, 98, 0, 162, 200, 0]

/-- A parcel in the eyes of a reader of the later package. -/
theorem decode_project_parcel :
    encode Schema.parcelsSchema Schema.parcel (.struct 1) = .ok parcelBytes ∧
      decode laterSchema .default parcelBytes (.struct 0) =
        .ok (Schema.parcel.project laterSchema (.struct 0)) := by
  have hencode : encode Schema.parcelsSchema Schema.parcel (.struct 1) = .ok parcelBytes := by rfl
  exact ⟨hencode, decode_project Schema.resolve_parcels resolve_laterParcels fits_parcelTypes
    (by decide) hencode (by decide) (by decide)⟩

end Codec

end SchemaRpc
