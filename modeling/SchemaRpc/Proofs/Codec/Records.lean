/-
# Decoding records

The members of a struct are read in a loop, which adds a state to a record in each turn, and
then the fields that were not sent are filled in.

* `decodeMembers_succ_eq_ok_iff` describes one turn of the loop, and with it the loop as a whole
  is described by `Members`, by induction on the fuel and on the members.
* `covers_decodeRecord` describes both steps together by `IsRecord`.
* `decodeRecord_of_missing` tells where a record is refused for the one field that it lacks.
* `IsRecord.get_eq` tells the states of the fields of a record that was read.
-/
import SchemaRpc.Proofs.Codec.Scalars
import SchemaRpc.Proofs.Schema.Resolution

namespace SchemaRpc

namespace Codec

open Wire

/-- The operation succeeds with `a` exactly on the ranges that `P` relates to `a`. -/
def Covers {ε α : Type} (op : EStateM ε Reader α) (P : Bytes → α → Prop) : Prop :=
  ∀ r a, (∃ after, op r = .ok a after) ↔ P r.rest a

/-! ## The members of a struct -/

section

variable {skips : Kind → Bytes → Prop} {inner : TypeRef → Kind → Bytes → Value → Prop}
  {struct : Schema.StructType}

/-- A record to which the states of members have been added. -/
def Adds (skips : Kind → Bytes → Prop) (inner : TypeRef → Kind → Bytes → Value → Prop)
    (struct : Schema.StructType) (last : Option Tag) (done : Record) (bytes : Bytes)
    (out : Record) : Prop :=
  ∃ states, Members skips inner struct last bytes states ∧ out = done.setAll states

end

section

variable {s : Schema} {limit budget id : Nat} {member : MemberDecoder}
  {inner : TypeRef → Kind → Bytes → Value → Prop}

lemma filter_le_eq_none_iff {last : Option Tag} {tag : Tag} :
    last.filter (tag ≤ ·) = none ↔ ∀ t ∈ last, t < tag := by
  simp [Option.filter_eq_none_iff]

/-- The rest of a turn of the loop, once the header of a member has been read. -/
def decodeNamed (s : Schema) (limit budget : Nat) (member : MemberDecoder) (id fuel offset : Nat)
    (done : Record) (h : Header) : Decoding Record :=
  match (s.structType id).fieldByTag? h.tag with
  | none => do
    passOver s limit budget (.struct id) h.kind
    decodeMembers s limit budget member id fuel (some h.tag) done
  | some f => do
    if ← framed s (.struct id) (Reader.takeNull h.kind) then
      if f.optional then
        decodeMembers s limit budget member id fuel (some h.tag) (done.withNull f.tag)
      else malformed s (.struct id) offset (.nullField f.name)
    else
      let value ← member f.type h.kind
      decodeMembers s limit budget member id fuel (some h.tag) (done.withValue f.tag value)

/-- One turn of the loop: it ends with its range, or it reads the header of a member. -/
lemma decodeMembers_succ_eq_ok_iff {fuel : Nat} {last : Option Tag} {done out : Record}
    {r after : Reader} :
    decodeMembers s limit budget member id (fuel + 1) last done r = .ok out after ↔
      r.rest = [] ∧ out = done ∧ after = r ∨ ∃ head h r₁, IsHeader head h ∧ r.Past head r₁ ∧
        (∀ t ∈ last, t < h.tag) ∧
        decodeNamed s limit budget member id fuel r.offset done h r₁ = .ok out after := by
  constructor
  · intro h
    obtain ⟨_, _, ⟨⟩, h⟩ := bind_eq_ok_iff.mp h
    split at h
    · rename_i hempty
      obtain ⟨rfl, rfl⟩ := pure_eq_ok_iff.mp h
      exact .inl ⟨List.isEmpty_iff.mp hempty, rfl, rfl⟩
    · obtain ⟨header, r₁, hheader, h⟩ := bind_eq_ok_iff.mp h
      obtain ⟨head, hh, hpast⟩ := (parses_framed s _ Reader.parses_readHeader _ _ _).mp hheader
      cases hfilter : last.filter (header.tag ≤ ·) with
      | some previous =>
        simp only [hfilter] at h
        cases h
      | none =>
        simp only [hfilter] at h
        exact .inr ⟨head, header, r₁, hh, hpast, filter_le_eq_none_iff.mp hfilter, h⟩
  · rintro (⟨hempty, rfl, rfl⟩ | ⟨head, header, r₁, hh, hpast, hlast, h⟩)
    · have hempty : after.isEmpty := List.isEmpty_iff.mpr hempty
      refine bind_eq_ok_iff.mpr ⟨after, after, rfl, ?_⟩
      rw [if_pos hempty]
      exact pure_eq_ok_iff.mpr ⟨rfl, rfl⟩
    · have hempty : ¬ r.isEmpty := by
        intro hempty
        have hnil := hpast.rest_eq.symm.trans (List.isEmpty_iff.mp hempty)
        exact hh.ne_nil (List.append_eq_nil_iff.mp hnil).1
      have hheader := (parses_framed s (.struct id) Reader.parses_readHeader r _ r₁).mpr
        ⟨head, hh, hpast⟩
      refine bind_eq_ok_iff.mpr ⟨r, r, rfl, ?_⟩
      rw [if_neg hempty]
      refine bind_eq_ok_iff.mpr ⟨header, r₁, hheader, ?_⟩
      simp only [filter_le_eq_none_iff.mpr hlast]
      exact h

lemma adds_of_decodeMembers (hmember : ∀ type kind, Parses (member type kind) (inner type kind))
    {fuel : Nat} {last : Option Tag} {done out : Record} {r after : Reader}
    (hfuel : r.rest.length ≤ fuel)
    (h : decodeMembers s limit budget member id fuel last done r = .ok out after) :
    Adds (Skips budget) inner (s.structType id) last done r.rest out := by
  induction fuel generalizing last done r with
  | zero =>
    obtain ⟨rfl, -⟩ := pure_eq_ok_iff.mp h
    rw [List.length_eq_zero_iff.mp (Nat.le_zero.mp hfuel)]
    exact ⟨[], .nil, rfl⟩
  | succ fuel ih =>
    -- a turn takes the header at least, so the rest of the range is short enough for `ih`
    rcases decodeMembers_succ_eq_ok_iff.mp h with
      ⟨hempty, rfl, rfl⟩ | ⟨head, ⟨kind, tag⟩, r₁, hh, hpast, hlast, h⟩
    · rw [hempty]
      exact ⟨[], .nil, rfl⟩
    have hpos := hh.length_pos
    have hlen := hpast.length_eq
    unfold decodeNamed at h
    cases hf : (s.structType id).fieldByTag? tag with
    | none =>
      simp only [hf] at h
      obtain ⟨_, r₂, hskip, h⟩ := bind_eq_ok_iff.mp h
      obtain ⟨body, hb, hpast₂⟩ := (parses_passOver s _ limit budget kind _ _ _).mp hskip
      have hlen₂ := hpast₂.length_eq
      obtain ⟨states, hm, rfl⟩ := ih (by omega) h
      rw [hpast.rest_eq, hpast₂.rest_eq]
      exact ⟨states, .unknown hh hlast hf hb hm, rfl⟩
    | some f =>
      simp only [hf] at h
      obtain ⟨-, hftag⟩ := Schema.StructType.mem_of_fieldByTag? hf
      obtain ⟨isNull, r₂, hnull, hnext⟩ := bind_eq_ok_iff.mp h
      rw [framed_eq_ok_iff] at hnull
      cases isNull with
      | true =>
        obtain ⟨rfl, hpast₂⟩ := Reader.takeNull_eq_true_iff.mp hnull
        have hlen₂ := hpast₂.length_eq
        rw [if_pos rfl] at hnext
        split at hnext
        · rename_i ho
          obtain ⟨states, hm, rfl⟩ := ih (by omega) hnext
          rw [hpast.rest_eq, hpast₂.rest_eq, hftag]
          exact ⟨_, .null hh hlast hf ho hm, rfl⟩
        · cases hnext
      | false =>
        obtain ⟨rfl, hnotNull⟩ := Reader.takeNull_eq_false_iff.mp hnull
        rw [if_neg Bool.false_ne_true] at hnext
        obtain ⟨value, r₃, hvalue, hnext⟩ := bind_eq_ok_iff.mp hnext
        obtain ⟨body, hb, hpast₂⟩ := (hmember _ _ _ _ _).mp hvalue
        have hlen₂ := hpast₂.length_eq
        obtain ⟨states, hm, rfl⟩ := ih (by omega) hnext
        rw [hpast₂.rest_eq] at hnotNull
        rw [hpast.rest_eq, hpast₂.rest_eq, hftag]
        exact ⟨_, .present hh hlast hf hnotNull hb hm, rfl⟩

/-- A turn that finds a header goes on with what the header names. -/
lemma decodeMembers_header {fuel : Nat} {last : Option Tag} (done : Record) (offset : Nat)
    {head : Bytes} {h : Header} (hh : IsHeader head h) (hlast : ∀ t ∈ last, t < h.tag)
    (rest : Bytes) :
    decodeMembers s limit budget member id (fuel + 1) last done ⟨offset, head ++ rest⟩ =
      decodeNamed s limit budget member id fuel offset done h ⟨offset + head.length, rest⟩ := by
  have hempty : ¬ Reader.isEmpty ⟨offset, head ++ rest⟩ := by
    simp [Reader.isEmpty, hh.ne_nil]
  have hheader := (parses_framed s (.struct id) Reader.parses_readHeader).run hh offset rest
  have hstart : (get : Decoding Reader) ⟨offset, head ++ rest⟩ =
      .ok ⟨offset, head ++ rest⟩ ⟨offset, head ++ rest⟩ := rfl
  refine (bind_eq_of_ok hstart).trans ?_
  rw [if_neg hempty]
  refine (bind_eq_of_ok hheader).trans ?_
  simp only [filter_le_eq_none_iff.mpr hlast]
  rfl

/-- A turn that passes over a member. -/
lemma decodeMembers_unknown {fuel : Nat} {last : Option Tag} (done : Record) (offset : Nat)
    {head body : Bytes} {kind : Kind} {tag : Tag} (hh : IsHeader head ⟨kind, tag⟩)
    (hlast : ∀ t ∈ last, t < tag) (hf : (s.structType id).fieldByTag? tag = none)
    (hb : Skips budget kind body) (more : Bytes) :
    decodeMembers s limit budget member id (fuel + 1) last done ⟨offset, head ++ (body ++ more)⟩ =
      decodeMembers s limit budget member id fuel (some tag) done
        ⟨offset + head.length + body.length, more⟩ := by
  have hskip := (parses_passOver s (.struct id) limit budget kind).run (a := ()) hb
    (offset + head.length) more
  rw [decodeMembers_header done offset hh hlast, decodeNamed]
  simp only [hf]
  exact bind_eq_of_ok hskip

/-- A turn that finds a field null. -/
lemma decodeMembers_null {fuel : Nat} {last : Option Tag} (done : Record) (offset : Nat)
    {head : Bytes} {tag : Tag} {f : Schema.Field} (hh : IsHeader head ⟨.block1, tag⟩)
    (hlast : ∀ t ∈ last, t < tag) (hf : (s.structType id).fieldByTag? tag = some f)
    (ho : f.optional) (more : Bytes) :
    decodeMembers s limit budget member id (fuel + 1) last done ⟨offset, head ++ ([0] ++ more)⟩ =
      decodeMembers s limit budget member id fuel (some tag) (done.set tag .null)
        ⟨offset + head.length + 1, more⟩ := by
  obtain ⟨-, hftag⟩ := Schema.StructType.mem_of_fieldByTag? hf
  have hnull := (framed_eq_ok_iff s (.struct id)).mpr (Reader.takeNull_eq_true_iff.mpr
    ⟨rfl, Reader.Past.mk_append (offset + head.length) [0] more⟩)
  rw [decodeMembers_header done offset hh hlast, decodeNamed]
  simp only [hf]
  refine (bind_eq_of_ok hnull).trans ?_
  rw [if_pos rfl, if_pos ho, hftag]
  rfl

/-- A turn that finds a value for a field decodes it. -/
lemma decodeMembers_value {fuel : Nat} {last : Option Tag} (done : Record) (offset : Nat)
    {head body : Bytes} {kind : Kind} {tag : Tag} {f : Schema.Field}
    (hh : IsHeader head ⟨kind, tag⟩) (hlast : ∀ t ∈ last, t < tag)
    (hf : (s.structType id).fieldByTag? tag = some f) (hnull : NotNull kind body) :
    decodeMembers s limit budget member id (fuel + 1) last done ⟨offset, head ++ body⟩ =
      (member f.type kind >>= fun value => decodeMembers s limit budget member id fuel (some tag)
        (done.set tag (.present value))) ⟨offset + head.length, body⟩ := by
  obtain ⟨-, hftag⟩ := Schema.StructType.mem_of_fieldByTag? hf
  have hnotNull := (framed_eq_ok_iff s (.struct id)).mpr
    ((Reader.takeNull_eq_false_iff (r := ⟨offset + head.length, body⟩)).mpr ⟨rfl, hnull⟩)
  rw [decodeMembers_header done offset hh hlast, decodeNamed]
  simp only [hf]
  refine (bind_eq_of_ok hnotNull).trans ?_
  rw [if_neg Bool.false_ne_true, hftag]
  rfl

/-- The members up to the end of the range are added, and the reader stands at its end. -/
lemma decodeMembers_of_adds (hmember : ∀ type kind, Parses (member type kind) (inner type kind))
    {fuel : Nat} {last : Option Tag} {done out : Record} {r : Reader}
    (hfuel : r.rest.length ≤ fuel)
    (h : Adds (Skips budget) inner (s.structType id) last done r.rest out) :
    decodeMembers s limit budget member id fuel last done r =
      .ok out ⟨r.offset + r.rest.length, []⟩ := by
  obtain ⟨offset, bytes⟩ := r
  obtain ⟨states, hm, rfl⟩ := h
  dsimp only at hfuel hm ⊢
  -- each member adds its state to what is there, so the record varies with the induction
  induction hm generalizing fuel done offset with
  | nil =>
    cases fuel with
    | zero => rfl
    | succ fuel => rfl
  | @unknown last kind tag head body more states hh hlast hf hb hm ih =>
    have hpos := hh.length_pos
    simp only [List.length_append] at hfuel
    obtain ⟨fuel, rfl⟩ : ∃ n, fuel = n + 1 := ⟨fuel - 1, by omega⟩
    rw [decodeMembers_unknown done offset hh hlast hf hb, ih _ (by omega)]
    simp only [List.length_append, Nat.add_assoc]
  | @null last tag head more states f hh hlast hf ho hm ih =>
    have hpos := hh.length_pos
    simp only [List.length_append] at hfuel
    obtain ⟨fuel, rfl⟩ : ∃ n, fuel = n + 1 := ⟨fuel - 1, by omega⟩
    rw [decodeMembers_null done offset hh hlast hf ho, ih _ (by omega)]
    simp only [List.length_append, Nat.add_assoc, Record.setAll_cons]
    rfl
  | @present last kind tag head body more states f value hh hlast hf hnull hb hm ih =>
    have hpos := hh.length_pos
    simp only [List.length_append] at hfuel
    obtain ⟨fuel, rfl⟩ : ∃ n, fuel = n + 1 := ⟨fuel - 1, by omega⟩
    have hvalue := (hmember f.type kind).run hb (offset + head.length) more
    rw [decodeMembers_value done offset hh hlast hf hnull, bind_eq_of_ok hvalue, ih _ (by omega)]
    simp only [List.length_append, Nat.add_assoc, Record.setAll_cons]

end

/-! ## Records -/

section

variable {struct : Schema.StructType}

/-- Filling in gives each field its state on arrival, unless one that has to be sent is not. -/
lemma fillIn_eq_ok_iff {fields : List Schema.Field} (hnodup : (fields.map (·.tag)).Nodup)
    {done out : Record} (hdone : ∀ f ∈ fields, ∀ d, done.get f.tag ≠ .defaulted d)
    {r after : Reader} :
    fillIn struct fields done r = .ok out after ↔ after = r ∧
      (∀ f ∈ fields, f.isMandatory → (done.get f.tag).isSent) ∧
      out = done.setAll (fields.map fun f => (f.tag, f.fill (done.get f.tag))) := by
  induction fields generalizing done with
  | nil =>
    rw [fillIn, pure_eq_ok_iff]
    simp [and_comm]
  | cons f more ih =>
    rw [List.map_cons, List.nodup_cons] at hnodup
    rw [List.forall_mem_cons] at hdone ⊢
    -- A state for this field does not touch the fields after it.
    have hstep (state : FieldState) : ∀ f' ∈ more, (done.set f.tag state).get f'.tag =
        done.get f'.tag := by
      intro f' hf'
      have hne : f'.tag ≠ f.tag := fun heq => hnodup.1 (heq ▸ List.mem_map_of_mem hf')
      rw [Record.get_set, if_neg hne]
    have hset (state : FieldState) (hfill : f.fill (done.get f.tag) = state)
        (hsuffices : f.isMandatory → (done.get f.tag).isSent) :
        fillIn struct more (done.set f.tag state) r = .ok out after ↔ after = r ∧
          ((f.isMandatory → (done.get f.tag).isSent) ∧
            ∀ f' ∈ more, f'.isMandatory → (done.get f'.tag).isSent) ∧
          out = done.setAll ((f :: more).map fun f => (f.tag, f.fill (done.get f.tag))) := by
      rw [ih hnodup.2 fun f' hf' => by rw [hstep state f' hf']; exact hdone.2 f' hf',
        List.map_cons, Record.setAll_cons, hfill]
      have hstates : (more.map fun f' => (f'.tag, f'.fill ((done.set f.tag state).get f'.tag))) =
          more.map fun f' => (f'.tag, f'.fill (done.get f'.tag)) :=
        List.map_congr_left fun f' hf' => by rw [hstep state f' hf']
      have hsent : (∀ f' ∈ more, f'.isMandatory →
          ((done.set f.tag state).get f'.tag).isSent) ↔
            ∀ f' ∈ more, f'.isMandatory → (done.get f'.tag).isSent :=
        forall₂_congr fun f' hf' => by rw [hstep state f' hf']
      rw [hstates, hsent, and_iff_right hsuffices]
    rw [fillIn]
    by_cases hsent : (done.get f.tag).isSent
    · rw [if_pos hsent, ← hset (done.get f.tag) (by rw [Schema.Field.fill, if_pos hsent])
        fun _ => hsent, Record.set_get]
    · rw [if_neg hsent]
      have habsent : done.get f.tag = .absent := by
        cases hstate : done.get f.tag with
        | absent => rfl
        | defaulted d => exact absurd hstate (hdone.1 d)
        | present v | null => exact absurd (by rw [hstate]; rfl) hsent
      cases hdefault : f.default with
      | some value =>
        refine hset _ ?_ ?_
        · rw [Schema.Field.fill, if_neg hsent, hdefault]
        · simp [Schema.Field.isMandatory, hdefault]
      | none =>
        by_cases ho : f.optional
        · dsimp only
          rw [if_pos ho, ← hset .absent (by rw [Schema.Field.fill, if_neg hsent, hdefault])
            (by simp [Schema.Field.isMandatory, ho]), ← habsent, Record.set_get]
        · dsimp only
          rw [if_neg ho]
          constructor
          · intro h
            cases h
          · rintro ⟨-, ⟨hmandatory, -⟩, -⟩
            exact absurd (hmandatory (by simp [Schema.Field.isMandatory, ho, hdefault])) hsent

/-- Filling in fails at the first field that has to be sent and is not, and names it. -/
lemma fillIn_of_missing {before after : List Schema.Field} {f : Schema.Field} {done : Record}
    (hnodup : ((before ++ f :: after).map (·.tag)).Nodup)
    (hbefore : ∀ g ∈ before, g.isMandatory → (done.get g.tag).isSent) (hf : f.isMandatory)
    (hmissing : ¬ (done.get f.tag).isSent) (r : Reader) :
    fillIn struct (before ++ f :: after) done r =
      .error (.missingField struct.name f.name f.tag r.offset) r := by
  induction before generalizing done with
  | nil =>
    obtain ⟨ho, hd⟩ : f.optional = false ∧ f.default = none := by
      simpa [Schema.Field.isMandatory] using hf
    rw [List.nil_append, fillIn, if_neg hmissing]
    simp only [hd, ho, Bool.false_eq_true, if_false]
    rfl
  | cons g before ih =>
    rw [List.cons_append, List.map_cons, List.nodup_cons] at hnodup
    rw [List.forall_mem_cons] at hbefore
    rw [List.cons_append, fillIn]
    by_cases hsent : (done.get g.tag).isSent
    · rw [if_pos hsent]
      exact ih hnodup.2 hbefore.2 hmissing
    · rw [if_neg hsent]
      cases hd : g.default with
      | none =>
        have ho : g.optional := by
          by_contra ho
          exact hsent (hbefore.1 (by simp [Schema.Field.isMandatory, ho, hd]))
        dsimp only
        rw [if_pos ho]
        exact ih hnodup.2 hbefore.2 hmissing
      | some value =>
        -- the default is that of another field, so those that count are as they were
        have hother : ∀ g' ∈ before ++ f :: after,
            (done.set g.tag (.defaulted value)).get g'.tag = done.get g'.tag := by
          intro g' hg'
          have hne : g'.tag ≠ g.tag := fun heq => hnodup.1 (heq ▸ List.mem_map_of_mem hg')
          rw [Record.get_set, if_neg hne]
        refine ih hnodup.2 (fun g' hg' => ?_) ?_
        · rw [hother g' (List.mem_append_left _ hg')]
          exact hbefore.2 g' hg'
        · rwa [hother f (List.mem_append_right _ List.mem_cons_self)]

variable {skips : Kind → Bytes → Prop} {inner : TypeRef → Kind → Bytes → Value → Prop}

/-- A value is that of a member inside `n` bytes. -/
def ReadWithin (inner : TypeRef → Kind → Bytes → Value → Prop) (n : Nat) (type : TypeRef)
    (v : Value) : Prop :=
  ∃ kind body, body.length ≤ n ∧ inner type kind body v

/-- Every state that members send is one that the field of its tag allows. -/
lemma Members.mem_states {last : Option Tag} {bytes : Bytes} {states : List (Tag × FieldState)}
    (h : Members skips inner struct last bytes states) {n : Nat} (hn : bytes.length ≤ n) :
    ∀ state ∈ states, ∃ f, struct.fieldByTag? state.1 = some f ∧
      (f.optional ∧ state.2 = .null ∨
        ∃ value, ReadWithin inner n f.type value ∧ state.2 = .present value) := by
  induction h with
  | nil => exact List.forall_mem_nil _
  | unknown hh hlast hf hb h ih =>
    simp only [List.length_append] at hn
    exact ih (by omega)
  | @null last tag head more states f hh hlast hf ho h ih =>
    simp only [List.length_append] at hn
    rw [List.forall_mem_cons]
    exact ⟨⟨f, hf, .inl ⟨ho, rfl⟩⟩, ih (by omega)⟩
  | @present last kind tag head body more states f value hh hlast hf hnull hb h ih =>
    simp only [List.length_append] at hn
    rw [List.forall_mem_cons]
    exact ⟨⟨f, hf, .inr ⟨value, ⟨kind, body, by omega, hb⟩, rfl⟩⟩, ih (by omega)⟩

/-- The states of the record that members send. -/
lemma Members.get_ofList {last : Option Tag} {bytes : Bytes} {states : List (Tag × FieldState)}
    (h : Members skips inner struct last bytes states) (t : Tag) :
    (Record.ofList states).get t = .absent ∨ ∃ f, struct.fieldByTag? t = some f ∧
      (f.optional ∧ (Record.ofList states).get t = .null ∨
        ∃ value, ReadWithin inner bytes.length f.type value ∧
          (Record.ofList states).get t = .present value) := by
  rcases Record.get_setAll_eq_or_mem t states .empty with habsent | hmem
  · exact .inl habsent
  · exact .inr (h.mem_states (Nat.le_refl _) _ hmem)

lemma Members.get_ofList_ne_defaulted {last : Option Tag} {bytes : Bytes}
    {states : List (Tag × FieldState)} (h : Members skips inner struct last bytes states) (t : Tag)
    (d : Value) : (Record.ofList states).get t ≠ .defaulted d := by
  rcases h.get_ofList t with hstate | ⟨f, -, ⟨-, hstate⟩ | ⟨value, -, hstate⟩⟩ <;>
    rw [hstate] <;> exact nofun

lemma Members.get_ofList_of_none {last : Option Tag} {bytes : Bytes}
    {states : List (Tag × FieldState)} (h : Members skips inner struct last bytes states) {t : Tag}
    (ht : struct.fieldByTag? t = none) : (Record.ofList states).get t = .absent := by
  rcases h.get_ofList t with habsent | ⟨f, hf, -⟩
  · exact habsent
  · rw [ht] at hf
    cases hf

/-- Members stand in the order of their tags. -/
lemma Members.pairwise {last : Option Tag} {bytes : Bytes} {states : List (Tag × FieldState)}
    (h : Members skips inner struct last bytes states) :
    (∀ state ∈ states, ∀ t ∈ last, t < state.1) ∧ states.Pairwise (·.1 < ·.1) := by
  induction h with
  | nil => exact ⟨List.forall_mem_nil _, .nil⟩
  | unknown hh hlast hf hb h ih =>
    exact ⟨fun state hstate t ht => (hlast t ht).trans (ih.1 state hstate _ rfl), ih.2⟩
  | null hh hlast hf ho h ih | present hh hlast hf hnull hb h ih =>
    rw [List.forall_mem_cons, List.pairwise_cons]
    exact ⟨⟨hlast, fun state hstate t ht => (hlast t ht).trans (ih.1 state hstate _ rfl)⟩,
      fun state hstate => ih.1 state hstate _ rfl, ih.2⟩

lemma Members.nodup {last : Option Tag} {bytes : Bytes} {states : List (Tag × FieldState)}
    (h : Members skips inner struct last bytes states) : (states.map (·.1)).Nodup :=
  List.pairwise_map.mpr (h.pairwise.2.imp fun hlt => ne_of_lt hlt)

/-- The state of a field of a received record: as it was sent, or as it is when it need not be. -/
lemma IsRecord.get_eq {bytes : Bytes} {r : Record} (h : IsRecord skips inner struct bytes r)
    (hascends : struct.Ascends) {f : Schema.Field} (hf : f ∈ struct.fields) :
    ¬ f.isMandatory ∧ r.get f.tag = f.fill .absent ∨ f.optional ∧ r.get f.tag = .null ∨
      ∃ value, ReadWithin inner bytes.length f.type value ∧ r.get f.tag = .present value := by
  obtain ⟨hm, hs⟩ := h
  rename_i states
  have hget : (struct.filled (.ofList states)).get f.tag =
      f.fill ((Record.ofList states).get f.tag) := hascends.get_recordOf _ hf
  rw [hget]
  rcases hm.get_ofList f.tag with hstate | ⟨f', hf', hstate⟩
  · rw [hstate]
    refine .inl ⟨fun hmandatory => ?_, rfl⟩
    have hmissing := hs f hf hmandatory
    rw [hstate] at hmissing
    cases hmissing
  · obtain rfl : f = f' := Option.some.inj ((hascends.fieldByTag?_tag hf).symm.trans hf')
    rcases hstate with ⟨ho, hstate⟩ | ⟨value, hvalue, hstate⟩
    · rw [hstate]
      exact .inr (.inl ⟨ho, rfl⟩)
    · rw [hstate]
      exact .inr (.inr ⟨value, hvalue, rfl⟩)

/-- Nothing is received for a tag that the struct does not have. -/
lemma IsRecord.get_of_none {bytes : Bytes} {r : Record} (h : IsRecord skips inner struct bytes r)
    (hascends : struct.Ascends) {t : Tag} (ht : struct.fieldByTag? t = none) :
    r.get t = .absent := by
  cases h
  exact hascends.get_recordOf_of_none _ ht

/-- The values that a received record sends are those of its members. -/
lemma IsRecord.readWithin {bytes : Bytes} {r : Record} (h : IsRecord skips inner struct bytes r)
    (hascends : struct.Ascends) {f : Schema.Field} (hf : f ∈ struct.fields) {x : Value}
    (hx : r.get f.tag = .present x) : ReadWithin inner bytes.length f.type x := by
  rcases h.get_eq hascends hf with ⟨-, hstate⟩ | ⟨-, hstate⟩ | ⟨y, hy, hstate⟩
  · rw [hstate, Schema.Field.fill, if_neg (by decide)] at hx
    cases hd : f.default <;> rw [hd] at hx <;> cases hx
  · rw [hstate] at hx
    cases hx
  · rw [hstate] at hx
    cases hx
    exact hy

/-- A received record sends values for the fields of the struct only. -/
lemma IsRecord.exists_field {bytes : Bytes} {r : Record} (h : IsRecord skips inner struct bytes r)
    (hascends : struct.Ascends) {t : Tag} {x : Value} (hx : r.get t = .present x) :
    ∃ f ∈ struct.fields, f.tag = t := by
  cases ht : struct.fieldByTag? t with
  | none =>
    rw [h.get_of_none hascends ht] at hx
    cases hx
  | some f => exact ⟨f, Schema.StructType.mem_of_fieldByTag? ht⟩

/-- Setting the state on arrival of every field is filling the record. -/
lemma setAll_fill (hascends : struct.Ascends) {r : Record}
    (hother : ∀ t, struct.fieldByTag? t = none → r.get t = .absent) :
    r.setAll (struct.fields.map fun f => (f.tag, f.fill (r.get f.tag))) = struct.filled r := by
  have hnodup : ((struct.fields.map fun f => (f.tag, f.fill (r.get f.tag))).map (·.1)).Nodup := by
    rw [List.map_map]
    exact hascends.nodup_tags
  refine hascends.eq_recordOf (fun f hf => ?_) fun t ht => ?_
  · rw [Record.get_setAll _ _ hnodup, lookup_map_tagOf, hascends.find?_tag,
      hascends.fieldByTag?_tag hf]
    rfl
  · rw [Record.get_setAll _ _ hnodup, lookup_map_tagOf, hascends.find?_tag, ht, ← hother t ht]
    rfl

end

section

variable {s : Schema} {limit budget id : Nat} {member : MemberDecoder}
  {inner : TypeRef → Kind → Bytes → Value → Prop}
  (hmember : ∀ type kind, Parses (member type kind) (inner type kind))

include hmember

/-- Once the members are read, what is left is to fill in the other fields at the end. -/
lemma decodeRecord_eq_fillIn {r : Reader} {states : List (Tag × FieldState)}
    (hm : Members (Skips budget) inner (s.structType id) none r.rest states) :
    decodeRecord s limit budget member id r =
      fillIn (s.structType id) (s.structType id).fields (.ofList states)
        ⟨r.offset + r.rest.length, []⟩ := by
  have hstart : (get : Decoding Reader) r = .ok r r := rfl
  have hmembers : decodeMembers s limit budget member id r.remaining none .empty r =
      .ok (.ofList states) ⟨r.offset + r.rest.length, []⟩ :=
    decodeMembers_of_adds hmember (Nat.le_refl _) ⟨states, hm, rfl⟩
  exact (bind_eq_of_ok hstart).trans (bind_eq_of_ok hmembers)

theorem covers_decodeRecord (hascends : (s.structType id).Ascends) :
    Covers (decodeRecord s limit budget member id)
      (IsRecord (Skips budget) inner (s.structType id)) := by
  intro r out
  constructor
  · rintro ⟨after, h⟩
    obtain ⟨_, _, ⟨⟩, h⟩ := bind_eq_ok_iff.mp h
    obtain ⟨sent, r₁, hmembers, hfill⟩ := bind_eq_ok_iff.mp h
    obtain ⟨states, hm, rfl⟩ := adds_of_decodeMembers hmember (Nat.le_refl _) hmembers
    have hdone := hm.get_ofList_ne_defaulted
    obtain ⟨-, hs, rfl⟩ := (fillIn_eq_ok_iff hascends.nodup_tags fun f _ => hdone f.tag).mp hfill
    have hfilled := setAll_fill hascends fun t => hm.get_ofList_of_none
    exact hfilled ▸ .mk hm hs
  · intro h
    generalize hbytes : r.rest = bytes at h
    obtain ⟨hm, hs⟩ := h
    rename_i states
    subst hbytes
    have hdone := hm.get_ofList_ne_defaulted
    have hfilled := setAll_fill hascends fun t => hm.get_ofList_of_none
    rw [decodeRecord_eq_fillIn hmember hm]
    exact ⟨_, (fillIn_eq_ok_iff hascends.nodup_tags fun f _ => hdone f.tag).mpr
      ⟨rfl, hs, hfilled.symm⟩⟩

/-- Of a struct of which one field has to be sent and is not, the record is refused at the end of
the range. -/
lemma decodeRecord_of_missing (hascends : (s.structType id).Ascends) {r : Reader}
    {states : List (Tag × FieldState)}
    (hm : Members (Skips budget) inner (s.structType id) none r.rest states) {f : Schema.Field}
    (hmem : f ∈ (s.structType id).fields) (hf : f.isMandatory)
    (hmissing : ¬ ((Record.ofList states).get f.tag).isSent)
    (hothers : ∀ g ∈ (s.structType id).fields, g.tag ≠ f.tag → g.isMandatory →
      ((Record.ofList states).get g.tag).isSent) :
    decodeRecord s limit budget member id r =
      .error (.missingField (s.structType id).name f.name f.tag (r.offset + r.rest.length))
        ⟨r.offset + r.rest.length, []⟩ := by
  have hnodup := hascends.nodup_tags
  obtain ⟨before, after, hfields⟩ := List.append_of_mem hmem
  rw [decodeRecord_eq_fillIn hmember hm, hfields]
  rw [hfields] at hnodup hothers
  refine fillIn_of_missing hnodup (fun g hg => ?_) hf hmissing _
  refine hothers g (List.mem_append_left _ hg) fun htag => ?_
  -- no field before `f` has its tag
  rw [List.map_append, List.map_cons, List.nodup_append] at hnodup
  exact hnodup.2.2 _ (List.mem_map_of_mem hg) _ List.mem_cons_self htag

end

end Codec

end SchemaRpc
