/-
# Payloads of a struct with a member put in or taken out

What the members of a struct send is put together member by member, and all that ties a member to
those around it is the order of the tags.  So a payload may be taken apart between two of its
members: `members_append_iff` says what both parts send.

* A member with a tag that the struct does not have sends nothing, and may be put in or taken out
  wherever the order allows it.
* A member with the tag of a field sends the state of this field and no other.  Without it the
  payload tells everything else as before, and the field is filled in, or found missing.

These hold of all bytes that are whole members, not of written ones only.
-/
import SchemaRpc.Proofs.Codec.Framing

namespace SchemaRpc

namespace Codec

open Wire

lemma notNull_append_iff {kind : Kind} {bytes more : Bytes} (h : bytes ≠ []) :
    NotNull kind (bytes ++ more) ↔ NotNull kind bytes := by
  rw [NotNull, NotNull, List.head?_append_of_ne_nil _ h]

/-! ## Members one by one -/

/-- A whole member and the states that it sends: none if the struct does not have its tag. -/
inductive Sends (skips : Kind → Bytes → Prop) (inner : TypeRef → Kind → Bytes → Value → Prop)
    (struct : Schema.StructType) (tag : Tag) : Bytes → List (Tag × FieldState) → Prop where
  | unknown {kind : Kind} {head body : Bytes} (hh : IsHeader head ⟨kind, tag⟩)
    (hf : struct.fieldByTag? tag = none) (hb : skips kind body) :
    Sends skips inner struct tag (head ++ body) []
  | null {head : Bytes} {f : Schema.Field} (hh : IsHeader head ⟨.block1, tag⟩)
    (hf : struct.fieldByTag? tag = some f) (ho : f.optional) :
    Sends skips inner struct tag (head ++ [0]) [(tag, .null)]
  | present {kind : Kind} {head body : Bytes} {f : Schema.Field} {value : Value}
    (hh : IsHeader head ⟨kind, tag⟩) (hf : struct.fieldByTag? tag = some f)
    (hnull : NotNull kind body) (hb : inner f.type kind body value) :
    Sends skips inner struct tag (head ++ body) [(tag, .present value)]

section

variable {skips : Kind → Bytes → Prop} {inner : TypeRef → Kind → Bytes → Value → Prop}
  {struct : Schema.StructType} {tag : Tag} {member : Bytes} {sent : List (Tag × FieldState)}

/-- A member sends states for its tag only. -/
lemma Sends.eq_tag (h : Sends skips inner struct tag member sent) :
    ∀ state ∈ sent, state.1 = tag := by
  cases h <;> simp

/-- The member of a field sends one state. -/
lemma Sends.exists_state {f : Schema.Field} (h : Sends skips inner struct tag member sent)
    (hf : struct.fieldByTag? tag = some f) : ∃ state : FieldState,
      sent = [(tag, state)] ∧ state.isSent := by
  cases h with
  | unknown hh hnone hb =>
    rw [hf] at hnone
    cases hnone
  | null | present => exact ⟨_, rfl, rfl⟩

/-- Any other member sends nothing, whatever it is. -/
lemma sends_iff_of_none {depth : Nat} (hm : IsMember depth tag member)
    (hf : struct.fieldByTag? tag = none) :
    Sends (Skips depth) inner struct tag member sent ↔ sent = [] := by
  constructor
  · intro h
    cases h with
    | unknown => rfl
    | null hh hsome | present hh hsome =>
      rw [hf] at hsome
      cases hsome
  · rintro rfl
    cases hm with
    | mk hh hb => exact .unknown hh hf hb

lemma members_nil_iff {last : Option Tag} {states : List (Tag × FieldState)} :
    Members skips inner struct last [] states ↔ states = [] := by
  constructor
  · intro h
    generalize hbytes : [] = bytes at h
    cases h with
    | nil => rfl
    | unknown hh | null hh | present hh =>
      exact absurd (List.append_eq_nil_iff.mp hbytes.symm).1 hh.ne_nil
  · rintro rfl
    exact .nil

end

section

variable {depth : Nat} {inner : TypeRef → Kind → Bytes → Value → Prop}
  (hinner : ∀ {type kind body v}, inner type kind body v → Skips depth kind body)
  {struct : Schema.StructType} {last : Option Tag} {states : List (Tag × FieldState)}

include hinner

/-- The member at the front sends its states, and those after it theirs. -/
lemma members_cons_iff {d : Nat} {tag : Tag} {member more : Bytes} (hm : IsMember d tag member) :
    Members (Skips depth) inner struct last (member ++ more) states ↔ (∀ t ∈ last, t < tag) ∧
      ∃ sent rest, states = sent ++ rest ∧ Sends (Skips depth) inner struct tag member sent ∧
        Members (Skips depth) inner struct (some tag) more rest := by
  constructor
  · intro h
    generalize hbytes : member ++ more = bytes at h
    -- the header that was read is that of the member, so both end at the same place
    cases h with
    | nil => exact absurd (List.append_eq_nil_iff.mp hbytes).1 hm.ne_nil
    | unknown hh hlast hf hb h =>
      rw [← List.append_assoc] at hbytes
      obtain ⟨rfl, rfl, rfl⟩ := hm.unique (.mk hh hb) hbytes
      exact ⟨hlast, [], _, rfl, .unknown hh hf hb, h⟩
    | null hh hlast hf ho h =>
      rw [← List.append_assoc] at hbytes
      obtain ⟨rfl, rfl, rfl⟩ := hm.unique (.mk hh (skips_null depth)) hbytes
      exact ⟨hlast, [_], _, rfl, .null hh hf ho, h⟩
    | present hh hlast hf hnull hb h =>
      rw [← List.append_assoc] at hbytes
      obtain ⟨rfl, rfl, rfl⟩ := hm.unique (.mk hh (hinner hb)) hbytes
      have hne := List.ne_nil_of_length_pos (hinner hb).length_pos
      exact ⟨hlast, [_], _, rfl, .present hh hf ((notNull_append_iff hne).mp hnull) hb, h⟩
  · rintro ⟨hlast, sent, rest, rfl, hs, h⟩
    cases hs with
    | unknown hh hf hb =>
      rw [List.append_assoc]
      exact .unknown hh hlast hf hb h
    | null hh hf ho =>
      rw [List.append_assoc]
      exact .null hh hlast hf ho h
    | present hh hf hnull hb =>
      have hne := List.ne_nil_of_length_pos (hinner hb).length_pos
      rw [List.append_assoc]
      exact .present hh hlast hf ((notNull_append_iff hne).mpr hnull) hb h

/-! ## Members in a row -/

/-- The tag before matters only in that the tags after it are above it. -/
lemma members_last_iff {d : Nat} {tags : List Tag} {bytes : Bytes} (h : IsSequence d tags bytes) :
    Members (Skips depth) inner struct last bytes states ↔
      (∀ t ∈ last, ∀ t' ∈ tags, t < t') ∧ Members (Skips depth) inner struct none bytes states := by
  induction h generalizing last states with
  | nil => simp [members_nil_iff]
  | @cons tag tags member more hm h ih =>
    rw [members_cons_iff hinner hm, members_cons_iff hinner hm]
    constructor
    · rintro ⟨hlast, sent, rest, rfl, hs, hrest⟩
      refine ⟨fun t ht => ?_, nofun, sent, rest, rfl, hs, hrest⟩
      rw [List.forall_mem_cons]
      exact ⟨hlast t ht, fun t' ht' => (hlast t ht).trans ((ih.mp hrest).1 tag rfl t' ht')⟩
    · rintro ⟨hlast, -, hsent⟩
      exact ⟨fun t ht => hlast t ht tag List.mem_cons_self, hsent⟩

/-- No two members of a struct have the same tag. -/
lemma Members.nodup_tags {d : Nat} {tags : List Tag} {bytes : Bytes}
    (h : Members (Skips depth) inner struct last bytes states) (hseq : IsSequence d tags bytes) :
    tags.Nodup := by
  induction hseq generalizing last states with
  | nil => exact .nil
  | @cons tag tags member more hm hseq ih =>
    obtain ⟨-, sent, rest, -, -, hrest⟩ := (members_cons_iff hinner hm).mp h
    have habove := ((members_last_iff hinner hseq).mp hrest).1 tag rfl
    exact List.nodup_cons.mpr ⟨fun htag => lt_irrefl tag (habove tag htag), ih hrest⟩

/-- **Taking a payload apart.**  Between two members, what both sides send is sent one after the
other, and the tags on one side are below those on the other. -/
theorem members_append_iff {d d' : Nat} {tags tags' : List Tag} {before after : Bytes}
    (hb : IsSequence d tags before) (ha : IsSequence d' tags' after) :
    Members (Skips depth) inner struct last (before ++ after) states ↔
      (∀ t ∈ tags, ∀ t' ∈ tags', t < t') ∧ ∃ sent rest, states = sent ++ rest ∧
        Members (Skips depth) inner struct last before sent ∧
        Members (Skips depth) inner struct last after rest := by
  induction hb generalizing last states with
  | nil => simp [members_nil_iff]
  | @cons tag tags member more hm hb ih =>
    rw [List.append_assoc, members_cons_iff hinner hm]
    constructor
    · rintro ⟨hlast, first, _, rfl, hs, h⟩
      obtain ⟨hacross, sent, rest, rfl, hsent, hrest⟩ := ih.mp h
      obtain ⟨habove, hrest⟩ := (members_last_iff hinner ha).mp hrest
      refine ⟨List.forall_mem_cons.mpr ⟨habove tag rfl, hacross⟩, first ++ sent, rest,
        (List.append_assoc ..).symm, ?_, ?_⟩
      · exact (members_cons_iff hinner hm).mpr ⟨hlast, first, sent, rfl, hs, hsent⟩
      · exact (members_last_iff hinner ha).mpr
          ⟨fun t ht t' ht' => (hlast t ht).trans (habove tag rfl t' ht'), hrest⟩
    · rintro ⟨hacross, _, rest, rfl, hfront, hrest⟩
      obtain ⟨hlast, first, sent, rfl, hs, hsent⟩ := (members_cons_iff hinner hm).mp hfront
      obtain ⟨habove, hacross⟩ := List.forall_mem_cons.mp hacross
      refine ⟨hlast, first, sent ++ rest, List.append_assoc .., hs, ih.mpr
        ⟨hacross, sent, rest, rfl, hsent, ?_⟩⟩
      refine (members_last_iff hinner ha).mpr ⟨?_, ((members_last_iff hinner ha).mp hrest).2⟩
      rintro t ⟨⟩
      exact habove

/-- States are sent by members only. -/
lemma Members.mem_tags {d : Nat} {tags : List Tag} {bytes : Bytes}
    (h : Members (Skips depth) inner struct last bytes states) (hseq : IsSequence d tags bytes) :
    ∀ state ∈ states, state.1 ∈ tags := by
  induction hseq generalizing last states with
  | nil => simp [members_nil_iff.mp h]
  | @cons tag tags member more hm hseq ih =>
    obtain ⟨-, sent, rest, rfl, hs, hrest⟩ := (members_cons_iff hinner hm).mp h
    intro state hstate
    rcases List.mem_append.mp hstate with hstate | hstate
    · rw [hs.eq_tag state hstate]
      exact List.mem_cons_self
    · exact List.mem_cons_of_mem _ (ih hrest state hstate)

/-- A member that the struct does not have goes unnoticed where the order of the tags allows it. -/
lemma members_insert_iff {d d' : Nat} {tag : Tag} {tags tags' : List Tag}
    {before member after : Bytes} (hb : IsSequence d tags before) (hm : IsMember depth tag member)
    (ha : IsSequence d' tags' after) (hf : struct.fieldByTag? tag = none)
    (hbefore : ∀ t ∈ tags, t < tag) (hafter : ∀ t ∈ tags', tag < t) :
    Members (Skips depth) inner struct none (before ++ (member ++ after)) states ↔
      Members (Skips depth) inner struct none (before ++ after) states := by
  have hacross : ∀ t ∈ tags, ∀ t' ∈ tags', t < t' :=
    fun t ht t' ht' => (hbefore t ht).trans (hafter t' ht')
  have hmore : IsSequence (max depth d') (tag :: tags') (member ++ after) :=
    .cons (hm.mono (Nat.le_max_left ..)) (ha.mono (Nat.le_max_right ..))
  -- at the front of what follows, the member sends nothing and its tag is below the others
  have hskip (rest : List (Tag × FieldState)) :
      Members (Skips depth) inner struct none (member ++ after) rest ↔
        Members (Skips depth) inner struct none after rest := by
    rw [members_cons_iff hinner hm]
    constructor
    · rintro ⟨-, sent, rest, rfl, hs, h⟩
      obtain rfl := (sends_iff_of_none hm hf).mp hs
      exact ((members_last_iff hinner ha).mp h).2
    · intro h
      refine ⟨nofun, [], rest, rfl, (sends_iff_of_none hm hf).mpr rfl, ?_⟩
      refine (members_last_iff hinner ha).mpr ⟨?_, h⟩
      rintro t ⟨⟩
      exact hafter
  rw [members_append_iff hinner hb hmore, members_append_iff hinner hb ha]
  simp only [hskip]
  rw [and_iff_right hacross, and_iff_right]
  exact fun t ht => List.forall_mem_cons.mpr ⟨hbefore t ht, hacross t ht⟩

/-- Without the member of a field, everything but the state of this field is sent as before. -/
lemma Members.exists_of_isCut {d : Nat} {f : Schema.Field} {bytes rest : Bytes} {tag : Tag}
    (h : Members (Skips depth) inner struct none bytes states) (hcut : IsCut d tag bytes rest)
    (hf : struct.fieldByTag? tag = some f) : ((Record.ofList states).get tag).isSent ∧
      ∃ others, Members (Skips depth) inner struct none rest others ∧
        Record.ofList others = (Record.ofList states).set tag .absent := by
  have hnodup := h.nodup
  obtain ⟨hb, hm, ha⟩ := hcut
  obtain ⟨hacross, front, _, rfl, hfront, hmore⟩ :=
    (members_append_iff hinner hb (.cons hm ha)).mp h
  obtain ⟨-, sent, back, rfl, hs, hback⟩ := (members_cons_iff hinner hm).mp hmore
  obtain ⟨state, rfl, hsent⟩ := hs.exists_state hf
  have hget : (Record.ofList (front ++ ([(tag, state)] ++ back))).get tag = state :=
    Record.get_setAll_of_mem .empty hnodup (by simp)
  refine ⟨by rwa [hget], front ++ back, ?_, Record.ofList_append_of_cons hnodup⟩
  refine (members_append_iff hinner hb ha).mpr ⟨fun t ht t' ht' => ?_, front, back, rfl, hfront, ?_⟩
  · exact hacross t ht t' (List.mem_cons_of_mem _ ht')
  · exact ((members_last_iff hinner ha).mp hback).2

/-- A field is sent exactly if there is a member with its tag. -/
lemma Members.isSent_iff {d : Nat} {tags : List Tag} {f : Schema.Field} {bytes : Bytes} {tag : Tag}
    (h : Members (Skips depth) inner struct none bytes states) (hseq : IsSequence d tags bytes)
    (hf : struct.fieldByTag? tag = some f) :
    ((Record.ofList states).get tag).isSent ↔ tag ∈ tags := by
  constructor
  · intro hsent
    have hstate : (Record.ofList states).get tag = .absent ∨
        (tag, (Record.ofList states).get tag) ∈ states :=
      Record.get_setAll_eq_or_mem tag states .empty
    rcases hstate with habsent | hmem
    · rw [habsent] at hsent
      cases hsent
    · exact h.mem_tags hinner hseq _ hmem
  · intro htag
    obtain ⟨rest, hcut⟩ := hseq.exists_isCut htag
    exact (h.exists_of_isCut hinner hcut hf).1

end

/-! ## Payloads of a struct -/

section

variable {s : Schema} (hs : s.Ascends) {limits : Limits} {id : Nat}

include hs

/-- A record is decoded from members that send all that has to be sent. -/
lemma decodeStruct_eq_ok_iff_members {payload : Bytes} {r : Record} :
    decodeStruct s limits payload id = .ok r ↔ payload.length ≤ limits.maxPayload ∧
      ∃ states, Members (Skips limits.maxDepth) (Body s limits.maxDepth) (s.structType id) none
          payload states ∧ (s.structType id).Suffices (.ofList states) ∧
        r = (s.structType id).filled (.ofList states) := by
  rw [decodeStruct_eq_ok_iff hs, isPayload_struct_iff]
  constructor
  · rintro ⟨hlen, _, ⟨hm, hsuffices⟩, ⟨⟩⟩
    exact ⟨hlen, _, hm, hsuffices, rfl⟩
  · rintro ⟨hlen, states, hm, hsuffices, rfl⟩
    exact ⟨hlen, _, .mk hm hsuffices, rfl⟩

/-- A payload in which one field that has to be sent is not is refused at its end. -/
lemma decodeStruct_of_missing {payload : Bytes} (hlen : payload.length ≤ limits.maxPayload)
    {states : List (Tag × FieldState)}
    (hm : Members (Skips limits.maxDepth) (Body s limits.maxDepth) (s.structType id) none payload
      states) {f : Schema.Field} (hmem : f ∈ (s.structType id).fields) (hf : f.isMandatory)
    (hmissing : ¬ ((Record.ofList states).get f.tag).isSent)
    (hothers : ∀ g ∈ (s.structType id).fields, g.tag ≠ f.tag → g.isMandatory →
      ((Record.ofList states).get g.tag).isSent) :
    decodeStruct s limits payload id =
      .error (.missingField (s.structType id).name f.name f.tag payload.length) := by
  have hmember := parses_decodeMember hs limits.maxDepth limits.maxDepth
  have hrun : decodeRecord s limits.maxDepth limits.maxDepth
      (decodeMember s limits.maxDepth limits.maxDepth) id (.ofBytes payload) =
        .error (.missingField (s.structType id).name f.name f.tag (0 + payload.length))
          ⟨0 + payload.length, []⟩ :=
    decodeRecord_of_missing hmember (hs.structType id) hm hmem hf hmissing hothers
  rw [Nat.zero_add] at hrun
  exact onPayload_of_error hlen hrun

/-- A payload that leaves out one field of a sufficient record is refused at its end, or it decodes
to the record with this field filled in. -/
lemma decodeStruct_of_set_absent {payload : Bytes} (hlen : payload.length ≤ limits.maxPayload)
    {states : List (Tag × FieldState)}
    (hm : Members (Skips limits.maxDepth) (Body s limits.maxDepth) (s.structType id) none payload
      states) {sent : Record} (hsuffices : (s.structType id).Suffices sent) {f : Schema.Field}
    (hf : f ∈ (s.structType id).fields) (hstates : .ofList states = sent.set f.tag .absent) :
    (f.isMandatory → decodeStruct s limits payload id =
      .error (.missingField (s.structType id).name f.name f.tag payload.length)) ∧
    (¬ f.isMandatory → decodeStruct s limits payload id =
      .ok (((s.structType id).filled sent).set f.tag (f.fill .absent))) := by
  have hascends := hs.structType id
  have hothers : ∀ g ∈ (s.structType id).fields, g.tag ≠ f.tag → g.isMandatory →
      ((Record.ofList states).get g.tag).isSent := by
    intro g hg hne hmandatory
    rw [hstates, Record.get_set, if_neg hne]
    exact hsuffices g hg hmandatory
  constructor
  · intro hmandatory
    refine decodeStruct_of_missing hs hlen hm hf hmandatory ?_ hothers
    rw [hstates, Record.get_set, if_pos rfl]
    exact Bool.false_ne_true
  · intro hfree
    refine (decodeStruct_eq_ok_iff_members hs).mpr ⟨hlen, states, hm, fun g hg hg' => ?_, ?_⟩
    · refine hothers g hg (fun htag => hfree ?_) hg'
      rwa [← hascends.eq_of_tag_eq hg hf htag]
    · rw [hstates, hascends.filled_set _ hf]

omit hs

/-- **Unknown members are invisible.**  A whole member of any kind whose tag the struct does not
have may stand between any others of a payload, wherever its tag falls: with it the payload
decodes to a record exactly if it does without it. -/
theorem decodeStruct_insert_iff {p : Package} (hp : Schema.resolve p = .ok s) {d d' : Nat}
    {tag : Tag} {tags tags' : List Tag} {before member after : Bytes}
    (hb : IsSequence d tags before) (hm : IsMember limits.maxDepth tag member)
    (ha : IsSequence d' tags' after) (hf : ∀ f ∈ (s.structType id).fields, f.tag ≠ tag)
    (hbefore : ∀ t ∈ tags, t < tag) (hafter : ∀ t ∈ tags', tag < t)
    (hlen : (before ++ (member ++ after)).length ≤ limits.maxPayload) (r : Record) :
    decodeStruct s limits (before ++ (member ++ after)) id = .ok r ↔
      decodeStruct s limits (before ++ after) id = .ok r := by
  have hs := Schema.ascends_of_resolve hp
  have hnone := (hs.structType id).fieldByTag?_eq_none_iff.mpr hf
  have hless : (before ++ after).length ≤ limits.maxPayload := by
    simp only [List.length_append] at hlen ⊢
    omega
  simp only [decodeStruct_eq_ok_iff_members hs, hlen, hless,
    members_insert_iff Body.skips hb hm ha hnone hbefore hafter]

/-- An array that parcels do not have, between the weight of a parcel and its items. -/
theorem decodeStruct_insert_iff_parcel :
    decodeStruct Schema.parcelsSchema .default
        [161, 44, 1, 227, 1, 0, 0, 0, 128, 9, 229, 1, 0, 0, 0, 0, 4, 1, 2, 97, 0] 1 =
      decodeStruct Schema.parcelsSchema .default
        [161, 44, 1, 229, 1, 0, 0, 0, 0, 4, 1, 2, 97, 0] 1 := by
  have hweight : IsMember 64 (.ofNat 1) [161, 44, 1] := isMember_iff.mpr ⟨_, _, by rfl, by rfl⟩
  have hother : IsMember 64 (.ofNat 3) [227, 1, 0, 0, 0, 128, 9] :=
    isMember_iff.mpr ⟨_, _, by rfl, by rfl⟩
  have hitems : IsMember 64 (.ofNat 5) [229, 1, 0, 0, 0, 0, 4, 1, 2, 97, 0] :=
    isMember_iff.mpr ⟨_, _, by rfl, by rfl⟩
  have hparcel : decodeStruct Schema.parcelsSchema .default
      [161, 44, 1, 229, 1, 0, 0, 0, 0, 4, 1, 2, 97, 0] 1 = .ok (.ofList
        [(.ofNat 1, .present (.int .u16 ⟨300, by decide⟩)), (.ofNat 5, .present (.array
          [Schema.parcelItem "a" (.defaulted (.int .u8 ⟨1, by decide⟩))]))]) := by rfl
  rw [hparcel]
  exact (decodeStruct_insert_iff Schema.resolve_parcels hweight.isSequence hother
    hitems.isSequence (by decide) (List.forall_mem_singleton.mpr (by decide))
    (List.forall_mem_singleton.mpr (by decide)) (by decide) _).mpr hparcel

/-- **Required fields by deletion.**  A field of a decoded record was sent exactly if there is a
member to take out of the payload, and then there is one way to do so.  Without it the payload is
refused at its end if the field has to be sent; otherwise it decodes to the same record, but with
the field by its default or absent. -/
theorem decodeStruct_cut {p : Package} (hp : Schema.resolve p = .ok s) {payload : Bytes}
    {r : Record} (h : decodeStruct s limits payload id = .ok r) {f : Schema.Field}
    (hf : f ∈ (s.structType id).fields) :
    (f.isMandatory → (r.get f.tag).isSent) ∧
    ((r.get f.tag).isSent ↔ ∃! rest, IsCut limits.maxDepth f.tag payload rest) ∧
    ∀ rest, IsCut limits.maxDepth f.tag payload rest →
      (f.isMandatory → decodeStruct s limits rest id =
        .error (.missingField (s.structType id).name f.name f.tag rest.length)) ∧
      (∀ value, f.default = some value →
        decodeStruct s limits rest id = .ok (r.set f.tag (.defaulted value))) ∧
      (f.optional → f.default = none →
        decodeStruct s limits rest id = .ok (r.set f.tag .absent)) := by
  have hs := Schema.ascends_of_resolve hp
  have hascends := hs.structType id
  have hfind := hascends.fieldByTag?_tag hf
  obtain ⟨hlen, states, hm, hsuffices, rfl⟩ := (decodeStruct_eq_ok_iff_members hs).mp h
  obtain ⟨tags, hseq⟩ := hm.exists_isSequence Body.skips
  have hsent : (((s.structType id).filled (.ofList states)).get f.tag).isSent =
      ((Record.ofList states).get f.tag).isSent := by
    rw [Schema.StructType.filled, hascends.get_recordOf _ hf, Schema.Field.isSent_fill]
  rw [hsent]
  refine ⟨hsuffices f hf, ?_, fun rest hcut => ?_⟩
  · rw [hm.isSent_iff Body.skips hseq hfind]
    exact hseq.mem_tags_iff (hm.nodup_tags Body.skips hseq)
  · obtain ⟨-, others, hmore, hothers⟩ := hm.exists_of_isCut Body.skips hcut hfind
    obtain ⟨hmissing, hrefill⟩ :=
      decodeStruct_of_set_absent hs (hcut.length_le.trans hlen) hmore hsuffices hf hothers
    refine ⟨hmissing, fun value hd => ?_, fun ho hd => ?_⟩
    · rw [hrefill (by simp [Schema.Field.isMandatory, hd]), Schema.Field.fill, hd]
      rfl
    · rw [hrefill (by simp [Schema.Field.isMandatory, ho]), Schema.Field.fill, hd]
      rfl

/-- An item without its name, and without its count. -/
theorem decodeStruct_cut_item :
    decodeStruct Schema.parcelsSchema .default [1, 2, 97, 0, 130, 5] 0 = .ok (.ofList
        [(.ofNat 1, .present (.string "a")), (.ofNat 2, .present (.int .u8 ⟨5, by decide⟩))]) ∧
      decodeStruct Schema.parcelsSchema .default [130, 5] 0 =
        .error (.missingField "Item" "name" (.ofNat 1) 2) ∧
      decodeStruct Schema.parcelsSchema .default [1, 2, 97, 0] 0 = .ok (.ofList
        [(.ofNat 1, .present (.string "a")), (.ofNat 2, .defaulted (.int .u8 ⟨1, by decide⟩))]) := by
  have hname : IsMember 64 (.ofNat 1) [1, 2, 97, 0] := isMember_iff.mpr ⟨_, _, by rfl, by rfl⟩
  have hcount : IsMember 64 (.ofNat 2) [130, 5] := isMember_iff.mpr ⟨_, _, by rfl, by rfl⟩
  have hnil : IsSequence 64 [] [] := .nil
  have hnameless : IsCut 64 (.ofNat 1) [1, 2, 97, 0, 130, 5] [130, 5] :=
    .mk hnil hname hcount.isSequence
  have hcountless : IsCut 64 (.ofNat 2) [1, 2, 97, 0, 130, 5] [1, 2, 97, 0] :=
    .mk hname.isSequence hcount hnil
  have hitem : decodeStruct Schema.parcelsSchema .default [1, 2, 97, 0, 130, 5] 0 = .ok (.ofList
      [(.ofNat 1, .present (.string "a")), (.ofNat 2, .present (.int .u8 ⟨5, by decide⟩))]) := by
    rfl
  refine ⟨hitem, ?_, ?_⟩
  · exact ((decodeStruct_cut Schema.resolve_parcels hitem (.head _)).2.2 _ hnameless).1 rfl
  · exact ((decodeStruct_cut Schema.resolve_parcels hitem (.tail _ (.head _))).2.2 _
      hcountless).2.1 _ rfl

end

end Codec

end SchemaRpc
