/-
# Frames that grow

Either side may add members to a frame that the other one does not know.  A member with a tag of
its own, that is no array and stands where the tags go on ascending, changes neither whether a frame
decodes nor what it decodes to, however many such members there already are.  Where the tags do not
ascend, or an array stands among the members, nothing is decoded.

* `Grows` puts a member between the members of a frame,
* `OutOfPlace` says that a frame has a member that must not stand where it stands,
* `decode_of_grows` says what becomes of requests and responses.
-/
import SchemaRpc.Proofs.Envelope.Frame

namespace SchemaRpc

namespace Envelope

open Wire

/-- The second frame is the first one with a member of the tag, which is no array, put between
whole members: all tags in front of it are smaller, and the next one, if there is one, is larger. -/
inductive Grows (tag : Tag) : Bytes → Bytes → Prop where
  | mk {depth : Nat} {tags : List Tag} {before after head body : Bytes} {kind : Kind}
    (hbefore : IsSequence depth tags before) (hfront : ∀ t ∈ tags, t < tag)
    (hh : IsHeader head ⟨kind, tag⟩) (hkind : kind ≠ .repeated) (hb : Skips depth kind body)
    (hback : ∀ next rest, Reader.readHeader (.ofBytes after) = .ok next rest → tag < next.tag) :
    Grows tag (before ++ after) (before ++ (head ++ (body ++ after)))

/-- Behind whole members stands the header of an array, or one with a tag that is not larger than
all the tags in front of it. -/
inductive OutOfPlace : Bytes → Prop where
  | mk {depth : Nat} {tags : List Tag} {before head : Bytes} {kind : Kind} {tag : Tag}
    (hbefore : IsSequence depth tags before) (hh : IsHeader head ⟨kind, tag⟩)
    (h : kind = .repeated ∨ ∃ t ∈ tags, tag ≤ t) (more : Bytes) :
    OutOfPlace (before ++ (head ++ more))

/-! ## Rows that grow -/

section

variable {tag : Tag} {frame frame' : Bytes} {parts front back : List (Tag × Piece)}

/-- Only arrays need depth. -/
lemma skips_zero {depth : Nat} {kind : Kind} {body : Bytes} (h : Skips depth kind body)
    (hkind : kind ≠ .repeated) : Skips 0 kind body := by
  cases h with
  | int h => exact .int h
  | block h => exact .block h
  | repeated => exact absurd rfl hkind

/-- A smaller tag than the next one is smaller than all that follow in a row. -/
lemma Row.lt_of_next {after : Bytes} (h : Row after back) (hascends : back.Pairwise (·.1 < ·.1))
    (hback : ∀ next rest, Reader.readHeader (.ofBytes after) = .ok next rest → tag < next.tag) :
    ∀ p ∈ back, tag < p.1 := by
  cases h with
  | nil => exact List.forall_mem_nil _
  | cons hh hb h =>
    have hnext := hback _ _ (Reader.parses_readHeader.run hh 0 _)
    have hmore := (List.pairwise_cons.mp hascends).1
    exact List.forall_mem_cons.mpr ⟨hnext, fun p hp => Fin.lt_trans hnext (hmore p hp)⟩

/-- A frame that grows stays a frame, with one more part. -/
lemma Grows.isFrame (h : Grows tag frame frame') (hframe : IsFrame frame parts) :
    ∃ front back piece, parts = front ++ back ∧
      IsFrame frame' (front ++ (tag, piece) :: back) := by
  obtain @⟨_, tags, before, after, head, body, kind, hbefore, hfront, hh, hkind, hb, hback⟩ := h
  obtain ⟨front, back, rfl, rfl, hrow, hrow'⟩ := hframe.row.of_append hbefore
  obtain ⟨hascends, hascends', hacross⟩ := List.pairwise_append.mp hframe.ascends
  have hlarger := hrow'.lt_of_next hascends' hback
  have hsmaller : ∀ p ∈ front, p.1 < tag := fun p hp => hfront p.1 (List.mem_map_of_mem hp)
  refine ⟨front, back, ⟨kind, body⟩, rfl, hrow.append (.cons hh (skips_zero hb hkind) hrow'),
    List.pairwise_append.mpr ⟨hascends, .cons hlarger hascends', fun p hp => ?_⟩⟩
  exact List.forall_mem_cons.mpr ⟨hsmaller p hp, hacross p hp⟩

/-- A frame that has grown was a frame without the part. -/
lemma Grows.isFrame_of (h : Grows tag frame frame') (hframe : IsFrame frame' parts) :
    ∃ front back piece, parts = front ++ (tag, piece) :: back ∧ IsFrame frame (front ++ back) := by
  obtain @⟨_, tags, before, after, head, body, kind, hbefore, hfront, hh, hkind, hb, hback⟩ := h
  obtain ⟨front, rest, rfl, -, hrow, hrest⟩ := hframe.row.of_append hbefore
  rw [← List.append_assoc] at hrest
  obtain ⟨own, back, rfl, hown, -, hrow'⟩ := hrest.of_append (IsMember.mk hh hb).isSequence
  obtain ⟨⟨tag', piece⟩, rfl, rfl⟩ := List.map_eq_singleton_iff.mp hown
  have hsublist : (front ++ back).Sublist (front ++ ([(tag', piece)] ++ back)) :=
    (List.sublist_append_right _ back).append_left front
  exact ⟨front, back, piece, rfl, hrow.append hrow', hframe.ascends.sublist hsublist⟩

/-- A part with another tag is no more found than before. -/
lemma mem_grown_iff {t : Tag} {piece own : Piece} (hne : t ≠ tag) :
    (t, piece) ∈ front ++ (tag, own) :: back ↔ (t, piece) ∈ front ++ back := by
  simp [hne]

lemma carries_grown_iff {t : Tag} {own : Piece} {data : Bytes} (hne : t ≠ tag) :
    Carries (front ++ (tag, own) :: back) t data ↔ Carries (front ++ back) t data := by
  simp only [Carries, mem_grown_iff hne]

lemma carriesInt_grown_iff {t : Tag} {own : Piece} {n : Int} (hne : t ≠ tag) :
    CarriesInt (front ++ (tag, own) :: back) t n ↔ CarriesInt (front ++ back) t n := by
  simp only [CarriesInt, mem_grown_iff hne]

/-- A property of parts that does not look at the tag holds of a frame just if it holds of the
frame that has grown. -/
lemma Grows.exists_isFrame_iff (h : Grows tag frame frame') {P : List (Tag × Piece) → Prop}
    (hP : ∀ front back piece, P (front ++ (tag, piece) :: back) ↔ P (front ++ back)) :
    (∃ parts, IsFrame frame' parts ∧ P parts) ↔ ∃ parts, IsFrame frame parts ∧ P parts := by
  constructor
  · rintro ⟨parts, hframe, hparts⟩
    obtain ⟨front, back, piece, rfl, hwithout⟩ := h.isFrame_of hframe
    exact ⟨_, hwithout, (hP front back piece).mp hparts⟩
  · rintro ⟨parts, hframe, hparts⟩
    obtain ⟨front, back, piece, rfl, hwith⟩ := h.isFrame hframe
    exact ⟨_, hwith, (hP front back piece).mpr hparts⟩

/-- With a member out of its place bytes are no frame. -/
lemma OutOfPlace.not_isFrame (h : OutOfPlace frame) : ¬ IsFrame frame parts := by
  rintro ⟨hrow, hascends⟩
  obtain @⟨_, tags, before, head, kind, tag, hbefore, hh, h, more⟩ := h
  obtain ⟨front, back, rfl, rfl, -, hback⟩ := hrow.of_append hbefore
  generalize hbytes : head ++ more = bytes at hback
  cases hback with
  | nil => exact absurd (List.append_eq_nil_iff.mp hbytes).1 hh.ne_nil
  | cons hh' hb hmore =>
    obtain ⟨-, hheader, -⟩ := Reader.parses_readHeader.unique hh hh' hbytes
    cases hheader
    rcases h with rfl | ⟨t, ht, hle⟩
    · -- nothing of the kind of an array is passed over without depth
      cases hb with
      | int h => cases h
      | block h => exact absurd h.isBlock (by decide)
    · obtain ⟨p, hp, rfl⟩ := List.mem_map.mp ht
      have hlt := (List.pairwise_append.mp hascends).2.2 p hp _ List.mem_cons_self
      exact absurd hlt (Fin.not_lt.mpr hle)

end

end Envelope

open Envelope

namespace Request

/-- The tags that a request knows. -/
def tags : List Tag := [moduleTag, memberTag, methodTag, payloadTag]

lemma decode_grown_iff {tag : Tag} {frame frame' : Bytes} (h : Grows tag frame frame')
    (htag : tag ∉ tags) {r : Request} : decode frame' = .ok r ↔ decode frame = .ok r := by
  simp only [tags, List.mem_cons, List.not_mem_nil, or_false, not_or] at htag
  obtain ⟨hmodule, hmember, hmethod, hpayload⟩ := htag
  rw [decode_eq_ok_iff, decode_eq_ok_iff]
  refine h.exists_isFrame_iff fun front back piece => ?_
  rw [carries_grown_iff (Ne.symm hmodule), carries_grown_iff (Ne.symm hmember),
    carries_grown_iff (Ne.symm hmethod), carries_grown_iff (Ne.symm hpayload)]

end Request

namespace Response

/-- The tags that a response knows. -/
def tags : List Tag := [statusTag, payloadTag]

lemma decode_grown_iff {tag : Tag} {frame frame' : Bytes} (h : Grows tag frame frame')
    (htag : tag ∉ tags) {r : Response} : decode frame' = .ok r ↔ decode frame = .ok r := by
  simp only [tags, List.mem_cons, List.not_mem_nil, or_false, not_or] at htag
  obtain ⟨hstatus, hpayload⟩ := htag
  rw [decode_eq_ok_iff, decode_eq_ok_iff]
  refine h.exists_isFrame_iff fun front back piece => ?_
  rw [carriesInt_grown_iff (Ne.symm hstatus), carries_grown_iff (Ne.symm hpayload)]

end Response

namespace Envelope

/-- **Envelope growth.**  A member that the envelope does not know makes no difference where it may
stand; a frame with a member out of its place is refused; and what is written is read back. -/
theorem decode_of_grows :
    (∀ (tag : Tag) (frame frame' : Bytes), Grows tag frame frame' →
      (tag ∉ Request.tags → ∀ r, Request.decode frame' = .ok r ↔ Request.decode frame = .ok r) ∧
      (tag ∉ Response.tags →
        ∀ r, Response.decode frame' = .ok r ↔ Response.decode frame = .ok r)) ∧
    (∀ frame, OutOfPlace frame →
      (∀ r, Request.decode frame ≠ .ok r) ∧ ∀ r, Response.decode frame ≠ .ok r) ∧
    (∀ r : Request, r.Fits → ∃ frame, r.encode = .ok frame ∧ Request.decode frame = .ok r) ∧
    ∀ r : Response, Fits r.payload →
      ∃ frame, r.encode = .ok frame ∧ Response.decode frame = .ok r := by
  refine ⟨fun tag frame frame' h => ⟨fun htag r => Request.decode_grown_iff h htag,
    fun htag r => Response.decode_grown_iff h htag⟩, fun frame h => ⟨fun r hr => ?_,
    fun r hr => ?_⟩, fun r hfits => ?_, fun r hfits => ?_⟩
  · obtain ⟨parts, hframe, -⟩ := Request.decode_eq_ok_iff.mp hr
    exact h.not_isFrame hframe
  · obtain ⟨parts, hframe, -⟩ := Response.decode_eq_ok_iff.mp hr
    exact h.not_isFrame hframe
  · have hencode := Request.encode_eq_ok_iff.mpr ⟨hfits, rfl⟩
    exact ⟨_, hencode, Request.decode_of_encode hencode⟩
  · have hencode := Response.encode_eq_ok_iff.mpr ⟨hfits, rfl⟩
    exact ⟨_, hencode, Response.decode_of_encode hencode⟩

/-- A frame of a request without arguments. -/
def pingFrame : Bytes := [1, 2, 77, 0, 2, 2, 109, 0, 3, 2, 102, 0, 4, 1, 0]

lemma pingFrame_grows : Grows .zero pingFrame ([128] ++ ([9] ++ pingFrame)) := by
  have hnil : Wire.IsSequence 0 [] [] := .nil
  have hh : Wire.IsHeader [128] ⟨.int1, .zero⟩ := Wire.isHeader_header .int1 .zero
  refine .mk hnil (List.forall_mem_nil _) hh (by decide) (.int rfl) ?_
  rintro next rest ⟨⟩
  decide

lemma outOfPlace_repeated (more : Bytes) : OutOfPlace ([224] ++ more) := by
  have hnil : Wire.IsSequence 0 [] [] := .nil
  exact .mk hnil (Wire.isHeader_header .repeated .zero) (.inl rfl) more

/-- With an integer in front of its members a request is the same; with an array there it is none. -/
theorem decode_of_grows_ping :
    Request.decode ([128] ++ ([9] ++ pingFrame)) = .ok ⟨"M", "m", "f", []⟩ ∧
      (∀ r, Request.decode ([224] ++ pingFrame) ≠ .ok r) ∧
      ∃ frame, Request.encode ⟨"M", "m", "f", []⟩ = .ok frame ∧
        Request.decode frame = .ok ⟨"M", "m", "f", []⟩ := by
  obtain ⟨hgrows, hrefused, hread, -⟩ := decode_of_grows
  exact ⟨((hgrows _ _ _ pingFrame_grows).1 (by decide) _).mpr rfl,
    (hrefused _ (outOfPlace_repeated _)).1,
    hread ⟨"M", "m", "f", []⟩ ⟨by decide, by decide, by decide, by decide⟩⟩

end Envelope

end SchemaRpc
