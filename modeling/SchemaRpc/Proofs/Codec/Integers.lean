/-
# Integers of another type

A reader may declare another integer type than the writer.  An integer that the reader's type
holds keeps its number, and any other one is refused, with one exception: eight bytes do not tell
whether they write a sign.  So a number above all signed ones, read at a signed type, and a
negative number of eight bytes, read at the widest unsigned type, wrap around.

The reader refuses a value as a whole as soon as it comes to an integer that it refuses, and for no
other reason.  For this the operations are followed up to that integer: those before it succeed as
in the simulation, and its own operation fails.
-/
import SchemaRpc.Proofs.Codec.Simulation

namespace SchemaRpc

/-- The number that is found at an integer type where a number is written: the same one if the type
holds it, else perhaps the one that eight bytes write with the other reading of the sign. -/
def IntKind.read? (k : IntKind) (n : Int) : Option k.Ranged :=
  if k.Holds n then k.ofInt? n
  else if k = .u64 ∧ n < IntKind.i32.least then k.ofInt? (n + 18446744073709551616)
  else if k ≠ .u64 ∧ IntKind.i64.greatest < n then k.ofInt? (n - 18446744073709551616)
  else none

namespace Codec

open Wire

/-! ## Written integers -/

lemma ofInt_add_span (width : Nat) (n : Int) :
    Bytes.ofInt width (n + Bytes.span width) = Bytes.ofInt width n := by
  rw [Bytes.ofInt, Bytes.ofInt, Int.add_emod_right]

/-- A number beyond four bytes is written in eight. -/
lemma intPiece_of_not_i32 {n : Int} (h : ¬ IntKind.i32.Holds n) :
    intPiece n = ⟨.quad, Bytes.ofInt 8 n⟩ := by
  have h8 : ¬ IntKind.i8.Holds n := fun hn =>
    h ⟨le_trans (by decide) hn.1, hn.2.trans (by decide)⟩
  have h16 : ¬ IntKind.i16.Holds n := fun hn =>
    h ⟨le_trans (by decide) hn.1, hn.2.trans (by decide)⟩
  rw [intPiece, if_neg h8, if_neg h16, if_neg h]

lemma intPiece_kind_of_i32 {n : Int} (h : IntKind.i32.Holds n) : (intPiece n).kind ≠ .quad := by
  unfold intPiece
  split <;> [skip; split] <;> exact nofun

/-- Every integer of some type is one of eight bytes, with or without a sign. -/
lemma bounds_of_holds {j : IntKind} {n : Int} (h : j.Holds n) :
    IntKind.i64.least ≤ n ∧ n ≤ IntKind.u64.greatest := by
  have hj : IntKind.i64.least ≤ j.least ∧ j.greatest ≤ IntKind.u64.greatest := by
    cases j <;> decide
  exact ⟨hj.1.trans h.1, h.2.trans hj.2⟩

/-- What is found at an integer type where an integer of any type is written. -/
lemma ofInt?_readingOf {j : IntKind} (k : IntKind) (n : j.Ranged) :
    k.ofInt? (readingOf k (intPiece n.val).kind (intPiece n.val).body) = k.read? n.val := by
  obtain ⟨n, hj⟩ := n
  have hbounds : -9223372036854775808 ≤ n ∧ n ≤ 18446744073709551615 := bounds_of_holds hj
  have hspan : (Bytes.span 8 : Int) = 18446744073709551616 := by decide
  dsimp only
  rw [IntKind.read?]
  by_cases hk : k.Holds n
  · rw [if_pos hk, readingOf_intPiece hk]
  rw [if_neg hk]
  by_cases hunsigned : k = .u64
  · subst hunsigned
    have hnegative : n < 0 := by
      by_contra hn
      exact hk ⟨not_lt.mp hn, hbounds.2⟩
    by_cases h32 : IntKind.i32.Holds n
    · -- fewer bytes have a sign at every type
      have hlow : -2147483648 ≤ n ∧ n ≤ 2147483647 := h32
      have hleast : ¬ n < IntKind.i32.least := by
        show ¬ n < -2147483648
        omega
      rw [readingOf, if_neg fun h => intPiece_kind_of_i32 h32 h.2,
        toInt_intPiece ⟨hbounds.1, by show n ≤ 9223372036854775807; omega⟩,
        IntKind.ofInt?_eq_none_iff.mpr hk, if_neg fun h => hleast h.2, if_neg fun h => h.1 rfl]
    · have hleast : n < IntKind.i32.least := by
        by_contra hn
        exact h32 ⟨not_lt.mp hn, by show n ≤ 2147483647; omega⟩
      have hread : (Bytes.toNat (Bytes.ofInt 8 n) : Int) = n + 18446744073709551616 := by
        have hself : (n + Bytes.span 8) % (Bytes.span 8 : Int) = n + Bytes.span 8 :=
          Int.emod_eq_of_lt (by omega) (by omega)
        rw [← ofInt_add_span, Bytes.ofInt, hself, Bytes.toNat_ofNat_of_lt (by omega)]
        omega
      rw [intPiece_of_not_i32 h32, readingOf, if_pos ⟨rfl, rfl⟩, hread, if_pos ⟨rfl, hleast⟩]
  · rw [readingOf, if_neg fun h => hunsigned h.1, if_neg fun h => hunsigned h.1]
    by_cases hlarge : IntKind.i64.greatest < n
    · have hbound : 9223372036854775807 < n := hlarge
      have h32 : ¬ IntKind.i32.Holds n := fun h => by
        have hhigh : n ≤ 2147483647 := h.2
        omega
      have hread : Bytes.toInt (Bytes.ofInt 8 n) = n - 18446744073709551616 := by
        have hwrap : n = (n - Bytes.span 8) + Bytes.span 8 := by omega
        rw [hwrap, ofInt_add_span, Bytes.toInt_ofInt (by omega) (by omega)]
        omega
      rw [intPiece_of_not_i32 h32, hread, if_pos ⟨hunsigned, hlarge⟩]
    · rw [toInt_intPiece ⟨hbounds.1, not_lt.mp hlarge⟩, IntKind.ofInt?_eq_none_iff.mpr hk,
        if_neg fun h => hlarge h.2]

/-! ## Operations that come to an integer they refuse -/

/-- The operation fails because an integer is out of the range of its type. -/
def Rejects {α : Type} (op : Decoding α) (r : Reader) : Prop :=
  ∃ k n offset after, op r = .error (.malformed (IntKind.name k) offset (.outOfRange n k)) after

namespace Rejects

variable {α β : Type} {op : Decoding α} {r r₁ : Reader}

lemma of_eq {op' : Decoding α} (heq : op r = op' r₁) (h : Rejects op' r₁) : Rejects op r := by
  rwa [Rejects, heq]

lemma bind (h : Rejects op r) (f : α → Decoding β) : Rejects (op >>= f) r := by
  obtain ⟨k, n, offset, after, hop⟩ := h
  refine ⟨k, n, offset, after, ?_⟩
  simp only [Bind.bind, EStateM.bind, hop]

/-- The steps before the one that fails succeed. -/
lemma bind_of_ok {f : α → Decoding β} {a : α} (hop : op r = .ok a r₁) (h : Rejects (f a) r₁) :
    Rejects (op >>= f) r :=
  .of_eq (bind_eq_of_ok hop) h

lemma within (h : Rejects op r) (outer : Reader) : Rejects (within r op) outer := by
  obtain ⟨k, n, offset, after, hop⟩ := h
  refine ⟨k, n, offset, outer, ?_⟩
  rw [Codec.within, hop]

/-- The inside of a nested block. -/
lemma nested {s : Schema} {type : TypeRef} {kind : Kind} {bytes content : Bytes} {g : α → Value}
    (hblock : IsBlock kind bytes content) (h : ∀ offset, Rejects op ⟨offset, content⟩)
    (offset : Nat) (rest : Bytes) :
    Rejects (do
      let block ← framed s type (Reader.readBlock kind)
      return g (← Codec.within block op) : Decoding Value) ⟨offset, bytes ++ rest⟩ := by
  have hlt := hblock.length_lt
  have hread : Reader.readBlock kind ⟨offset, bytes ++ rest⟩ =
      .ok ⟨offset + bytes.length - content.length, content⟩ ⟨offset + bytes.length, rest⟩ :=
    Reader.readBlock_eq_ok_iff.mpr
      ⟨bytes, hblock, .mk_append offset bytes rest, by dsimp only; omega⟩
  exact .bind_of_ok ((framed_eq_ok_iff s type).mpr hread) (((h _).within _).bind _)

end Rejects

lemma rejects_decodePrimitive (s : Schema) {j k : IntKind} (n : j.Ranged)
    (h : k.read? n.val = none) (offset : Nat) (rest : Bytes) :
    Rejects (decodePrimitive s (.int k) (intPiece n.val).kind)
      ⟨offset, (intPiece n.val).body ++ rest⟩ := by
  have hread := (parses_framed s (.prim (.int k)) (parses_readRanged k (intPiece n.val).kind)).run
    ⟨intPiece_width n.val, rfl⟩ offset rest
  rw [← ofInt?_readingOf] at h
  refine ⟨k, readingOf k (intPiece n.val).kind (intPiece n.val).body, offset,
    ⟨offset + (intPiece n.val).body.length, rest⟩, ?_⟩
  refine (bind_eq_of_ok (show (get : Decoding Reader) ⟨offset, _⟩ = .ok _ _ from rfl)).trans ?_
  refine (bind_eq_of_ok hread).trans ?_
  simp only [h]
  rfl

/-! ## Members, variants and items up to the one that is refused -/

section

variable {s : Schema} {limit budget id : Nat} {member : MemberDecoder}
  {inner : TypeRef → Kind → Bytes → Value → Prop} {see : TypeRef → Value → Value}

/-- The bytes of a member are refused at a type. -/
def RejectsBody (member : MemberDecoder) (type : TypeRef) (part : Piece) : Prop :=
  ∀ offset rest, Rejects (member type part.kind) ⟨offset, part.body ++ rest⟩

/-- The value that a field sends is refused. -/
structure Offending (member : MemberDecoder) (struct : Schema.StructType) (f : Schema.Field)
    (part : Piece) (state : FieldState) : Prop where
  sent : ∃ x, state = .present x
  notNull : ∀ more, NotNull part.kind (part.body ++ more)
  refused : ∃ g, struct.fieldByTag? f.tag = some g ∧ RejectsBody member g.type part

lemma sentBytes_of_not_isSent {f : Schema.Field} {part : Piece} {state : FieldState}
    (h : ¬ state.isSent) : sentBytes f part state = [] := by
  cases state with
  | absent | defaulted d => rfl
  | present x | null => exact absurd rfl h

lemma length_sentBytes_pos {f : Schema.Field} {part : Piece} {state : FieldState}
    (h : state.isSent) : 0 < (sentBytes f part state).length := by
  have hpos (kind : Kind) := (isHeader_header kind f.tag).length_pos
  cases state with
  | absent | defaulted d => cases h
  | present x =>
    rw [sentBytes, Piece.bytes, List.length_append]
    exact Nat.add_pos_left (hpos _) _
  | null =>
    rw [sentBytes, writeNull, List.length_append]
    exact Nat.add_pos_left (hpos _) _

/-- A union with a payload that is refused. -/
lemma rejects_decodeVariant {active : Tag} {u : Schema.Variant}
    (hu : (s.unionType id).variantByTag? active = some u) {part : Piece}
    (h : RejectsBody member u.type part) (offset : Nat) :
    Rejects (decodeVariant s member id) ⟨offset, part.bytes active⟩ := by
  have hheader := (parses_framed s (.union id) Reader.parses_readHeader).run
    (isHeader_header part.kind active) offset part.body
  have hpayload := h (offset + (header part.kind active).length) []
  rw [List.append_nil] at hpayload
  refine .bind_of_ok (show (get : Decoding Reader) ⟨offset, _⟩ = .ok _ _ from rfl) ?_
  refine .bind_of_ok hheader ?_
  simp only [hu]
  exact hpayload.bind _

lemma length_le_flatMap_bytes (part : Value → Piece) (items : List Value) :
    items.length ≤ (items.flatMap fun x => (part x).bytes .zero).length := by
  induction items with
  | nil => exact Nat.le_refl 0
  | cons x items ih =>
    have hpos := (isHeader_header (part x).kind .zero).length_pos
    rw [List.flatMap_cons, List.length_cons, List.length_append, Piece.bytes, List.length_append]
    omega

lemma decodeItems_header (item : TypeRef) (count : Nat) (done : List Value) (offset : Nat)
    (kind : Kind) (body : Bytes) :
    decodeItems s member item (count + 1) done ⟨offset, header kind .zero ++ body⟩ =
      (member item kind >>= fun value => decodeItems s member item count (value :: done))
        ⟨offset + (header kind .zero).length, body⟩ := by
  have hheader := (parses_framed s (.array item) Reader.parses_readHeader).run
    (isHeader_header kind .zero) offset body
  refine (bind_eq_of_ok (show (get : Decoding Reader) ⟨offset, _⟩ = .ok _ _ from rfl)).trans ?_
  refine (bind_eq_of_ok hheader).trans ?_
  rw [if_neg (not_not.mpr rfl)]

lemma Offending.rejects {f : Schema.Field} {part : Piece} {state : FieldState}
    (h : Offending member (s.structType id) f part state) {last : Option Tag}
    (hlast : ∀ t ∈ last, t < f.tag) (fuel : Nat) (done : Record) (offset : Nat) (more : Bytes) :
    Rejects (decodeMembers s limit budget member id (fuel + 1) last done)
      ⟨offset, sentBytes f part state ++ more⟩ := by
  obtain ⟨⟨x, rfl⟩, hnotNull, g, hg, hrefused⟩ := h
  rw [sentBytes, Piece.bytes, List.append_assoc]
  exact .of_eq (decodeMembers_value done offset (isHeader_header _ _) hlast hg (hnotNull more))
    ((hrefused _ more).bind _)

variable (hmember : ∀ type kind, Parses (member type kind) (inner type kind))

include hmember

/-- A turn of the loop takes what a readable field sends. -/
lemma decodeMembers_readable {f : Schema.Field} {part : Piece} {state : FieldState}
    (h : Readable see inner budget (s.structType id) f part state) (hsent : state.isSent)
    {last : Option Tag} (hlast : ∀ t ∈ last, t < f.tag) (fuel : Nat) (done : Record) (offset : Nat)
    (more : Bytes) :
    ∃ done' offset', decodeMembers s limit budget member id (fuel + 1) last done
        ⟨offset, sentBytes f part state ++ more⟩ =
      decodeMembers s limit budget member id fuel (some f.tag) done' ⟨offset', more⟩ := by
  cases state with
  | absent | defaulted d => cases hsent
  | null =>
    rw [sentBytes, writeNull, List.append_assoc]
    cases hg : (s.structType id).fieldByTag? f.tag with
    | none =>
      exact ⟨_, _, decodeMembers_unknown done offset (isHeader_header _ _) hlast hg
        (skips_null budget) more⟩
    | some g =>
      exact ⟨_, _, decodeMembers_null done offset (isHeader_header _ _) hlast hg
        (h.null rfl g hg) more⟩
  | present x =>
    rw [sentBytes, Piece.bytes, List.append_assoc]
    cases hg : (s.structType id).fieldByTag? f.tag with
    | none =>
      exact ⟨_, _, decodeMembers_unknown done offset (isHeader_header _ _) hlast hg
        (h.skips x rfl) more⟩
    | some g =>
      have hvalue := (hmember g.type part.kind).run (h.body x rfl g hg)
        (offset + (header part.kind f.tag).length) more
      exact ⟨_, _, (decodeMembers_value done offset (isHeader_header _ _) hlast hg
        (h.notNull x rfl more)).trans (bind_eq_of_ok hvalue)⟩

/-- The loop comes to the first field that is refused. -/
lemma rejects_decodeMembers {part : Schema.Field → Piece} {record : Record}
    {fields : List Schema.Field} (hfields : fields.Pairwise (·.tag < ·.tag))
    (h : ∀ f ∈ fields,
      Offending member (s.structType id) f (part f) (record.get f.tag) ∨
        Readable see inner budget (s.structType id) f (part f) (record.get f.tag))
    (hrefused : ∃ f ∈ fields, Offending member (s.structType id) f (part f) (record.get f.tag))
    {last : Option Tag} (hlast : ∀ f ∈ fields, ∀ t ∈ last, t < f.tag) {fuel : Nat}
    (hfuel : (fields.flatMap fun f => sentBytes f (part f) (record.get f.tag)).length ≤ fuel)
    (done : Record) (offset : Nat) :
    Rejects (decodeMembers s limit budget member id fuel last done)
      ⟨offset, fields.flatMap fun f => sentBytes f (part f) (record.get f.tag)⟩ := by
  induction fields generalizing last fuel done offset with
  | nil =>
    obtain ⟨f, hf, -⟩ := hrefused
    cases hf
  | cons f more ih =>
    have hmore := List.pairwise_cons.mp hfields
    rw [List.forall_mem_cons] at h hlast
    rw [List.flatMap_cons, List.length_append] at hfuel
    rw [List.flatMap_cons]
    by_cases hoffending : Offending member (s.structType id) f (part f) (record.get f.tag)
    · obtain ⟨x, hx⟩ := hoffending.sent
      have hpos : 0 < (sentBytes f (part f) (record.get f.tag)).length :=
        length_sentBytes_pos (by rw [hx]; rfl)
      obtain ⟨fuel, rfl⟩ : ∃ n, fuel = n + 1 := ⟨fuel - 1, by omega⟩
      exact hoffending.rejects hlast.1 fuel done offset _
    have hreadable := h.1.resolve_left hoffending
    have hrest : ∃ f' ∈ more,
        Offending member (s.structType id) f' (part f') (record.get f'.tag) := by
      obtain ⟨f', hf', hoffending'⟩ := hrefused
      rcases List.mem_cons.mp hf' with rfl | hf'
      · exact absurd hoffending' hoffending
      · exact ⟨f', hf', hoffending'⟩
    by_cases hsent : (record.get f.tag).isSent
    · have hpos : 0 < (sentBytes f (part f) (record.get f.tag)).length :=
        length_sentBytes_pos hsent
      obtain ⟨fuel, rfl⟩ : ∃ n, fuel = n + 1 := ⟨fuel - 1, by omega⟩
      obtain ⟨done', offset', hturn⟩ :=
        decodeMembers_readable hmember hreadable hsent hlast.1 fuel done offset _
      refine .of_eq hturn (ih hmore.2 h.2 hrest ?_ (by omega) done' offset')
      exact fun f' hf' t ht => Option.mem_some_iff.mp ht ▸ hmore.1 f' hf'
    · rw [sentBytes_of_not_isSent hsent] at hfuel ⊢
      exact ih hmore.2 h.2 hrest hlast.2 (by simpa using hfuel) done offset

/-- A record with a field that is refused. -/
lemma rejects_decodeRecord {writer : Schema.StructType} (hwriter : writer.Ascends)
    {part : Schema.Field → Piece} {record : Record}
    (h : ∀ f ∈ writer.fields,
      Offending member (s.structType id) f (part f) (record.get f.tag) ∨
        Readable see inner budget (s.structType id) f (part f) (record.get f.tag))
    (hrefused : ∃ f ∈ writer.fields,
      Offending member (s.structType id) f (part f) (record.get f.tag)) (offset : Nat) :
    Rejects (decodeRecord s limit budget member id) ⟨offset, recordBytes writer part record⟩ := by
  refine .bind_of_ok (show (get : Decoding Reader) ⟨offset, _⟩ = .ok _ _ from rfl) ?_
  have hlast : ∀ f ∈ writer.fields, ∀ t ∈ (none : Option Tag), t < f.tag :=
    fun _ _ _ h => nomatch h
  refine Rejects.bind ?_ _
  exact rejects_decodeMembers hmember hwriter h hrefused hlast (Nat.le_refl _) .empty offset

/-- An array with an item that is refused. -/
lemma rejects_decodeItems {item : TypeRef} {part : Value → Piece} {items : List Value}
    (h : ∀ x ∈ items, RejectsBody member item (part x) ∨
      ∃ y, inner item (part x).kind (part x).body y)
    (hrefused : ∃ x ∈ items, RejectsBody member item (part x)) (done : List Value) (offset : Nat)
    (rest : Bytes) :
    Rejects (decodeItems s member item items.length done)
      ⟨offset, (items.flatMap fun x => (part x).bytes .zero) ++ rest⟩ := by
  induction items generalizing done offset with
  | nil =>
    obtain ⟨x, hx, -⟩ := hrefused
    cases hx
  | cons x more ih =>
    rw [List.forall_mem_cons] at h
    rw [List.flatMap_cons, Piece.bytes, List.append_assoc, List.append_assoc]
    refine .of_eq (decodeItems_header item more.length done offset _ _) ?_
    by_cases hx : RejectsBody member item (part x)
    · exact (hx _ _).bind _
    have hrest : ∃ x' ∈ more, RejectsBody member item (part x') := by
      obtain ⟨x', hx', hrejects⟩ := hrefused
      rcases List.mem_cons.mp hx' with rfl | hx'
      · exact absurd hrejects hx
      · exact ⟨x', hx', hrejects⟩
    obtain ⟨y, hy⟩ := h.1.resolve_left hx
    exact .bind_of_ok ((hmember item (part x).kind).run hy _ _) (ih h.2 hrest _ _)

end

/-! ## Integers anywhere in a value -/

/-- An integer as the reader finds it at its type. -/
def reread : TypeRef → Value → Value
  | .prim (.int k), .int j n =>
    match k.read? n.val with
    | some m => .int k m
    | none => .int j n
  | _, value => value

/-- No integer of the type is found where the number is written. -/
def Unreadable (k : IntKind) (n : Int) : Prop := k.read? n = none

instance (k : IntKind) (n : Int) : Decidable (Unreadable k n) :=
  inferInstanceAs (Decidable (k.read? n = none))

section

variable {w r : Schema} {rel : TypeRef → TypeRef → Prop}

lemma reread_of_ne (type : TypeRef) {v : Value} (h : ∀ j n, v ≠ .int j n) : reread type v = v := by
  unfold reread
  split
  · exact absurd rfl (h _ _)
  · rfl

/-- Alike types are simulated with the integers reread. -/
lemma simulates_of_alike (hw : w.Ascends) (hr : r.Ascends)
    (halike : ∀ a b, rel a b → Alike w r rel a b) : Simulates w r rel reread Unreadable := by
  refine ⟨hw, hr, halike, fun j k n _ hread => ?_, fun type v hv => reread_of_ne type hv⟩
  obtain ⟨m, hm⟩ := Option.ne_none_iff_exists'.mp hread
  have hvalue : reread (.prim (.int k)) (.int j n) = .int k m := by
    simp only [reread, hm]
  rw [hvalue]
  rw [← ofInt?_readingOf] at hm
  exact .int (intPiece_width n.val) (IntKind.ofInt?_eq_some_iff.mp hm).symm

variable (hsim : Simulates w r rel reread Unreadable)

include hsim

/-- What a struct of the writer sends is refused if one of its fields is. -/
lemma rejects_decodeRecord_of_misfit {a b : Nat}
    (hfit : FieldsFit rel (w.structType a) (r.structType b)) {record : Record}
    (hsend : (w.structType a).Sendable record) {part : Schema.Field → Piece}
    (hwrites : ∀ f ∈ (w.structType a).fields, ∀ x, record.get f.tag = .present x →
      Writes w f.type x (part f)) {depth : Nat}
    (hnesting : ∀ t x, record.get t = .present x → x.nesting ≤ depth) {limit : Nat}
    (hrejects : ∀ f ∈ (w.structType a).fields, ∀ x, record.get f.tag = .present x →
      ∀ type, rel f.type type → Misfit r Unreadable type x →
        RejectsBody (decodeMember r limit depth) type (part f))
    (hmisfit : Misfit r Unreadable (.struct b) (.struct record)) (offset : Nat) :
    Rejects (decodeRecord r limit depth (decodeMember r limit depth) b)
      ⟨offset, recordBytes (w.structType a) part record⟩ := by
  have hoffending {f : Schema.Field} (hf : f ∈ (w.structType a).fields) {x : Value}
      (hx : record.get f.tag = .present x) {g : Schema.Field} (hg : g ∈ (r.structType b).fields)
      (htag : f.tag = g.tag) (hmisfit : Misfit r Unreadable g.type x) :
      Offending (decodeMember r limit depth) (r.structType b) f (part f) (record.get f.tag) :=
    ⟨⟨x, hx⟩, (hwrites f hf x hx).notNull, g,
      htag ▸ (hsim.reader.structType b).fieldByTag?_tag hg,
      hrejects f hf x hx g.type (hfit.shared f hf g hg htag) hmisfit⟩
  -- a field that is not refused arrives
  have hfields : ∀ f ∈ (w.structType a).fields,
      Offending (decodeMember r limit depth) (r.structType b) f (part f) (record.get f.tag) ∨
        Readable (fun type x => x.arrive r reread type) (Body r depth) depth (r.structType b) f
          (part f) (record.get f.tag) := by
    intro f hf
    refine or_iff_not_imp_left.mpr fun hno => ?_
    exact readable_of_fieldsFit hfit hsend hf (hwrites f hf) (hnesting f.tag)
      fun x hx g hg htag => (hwrites f hf x hx).body_arrive hsim (hfit.shared f hf g hg htag)
        (hnesting f.tag x hx) fun hmisfit => hno (hoffending hf hx hg htag hmisfit)
  refine rejects_decodeRecord (parses_decodeMember hsim.reader limit depth)
    (hsim.writer.structType a) hfields ?_ offset
  cases hmisfit with
  | @field _ _ g x hg hx hmisfit =>
    have hstored : g.tag ∈ record.tags := by
      rw [Record.mem_tags_iff, hx]
      exact nofun
    obtain ⟨f, hf⟩ := Option.isSome_iff_exists.mp (hsend.declared _ hstored)
    obtain ⟨hf, htag⟩ := Schema.StructType.mem_of_fieldByTag? hf
    exact ⟨f, hf, hoffending hf (htag ▸ hx) hg htag hmisfit⟩

/-- **A writer and a reader that refuses.**  The member that a value is written as is refused at a
related type if an integer in the value is. -/
theorem Writes.rejects {a : TypeRef} {v : Value} {p : Piece} (h : Writes w a v p) {b : TypeRef}
    (hab : rel a b) {depth : Nat} (hdepth : v.nesting ≤ depth) (hmisfit : Misfit r Unreadable b v)
    (limit : Nat) : RejectsBody (decodeMember r limit depth) b p := by
  have hr := hsim.reader
  induction h generalizing b depth with
  | bool | f32 | f64 | string | bytes | enum => cases hmisfit
  | int j n =>
    cases hmisfit with
    | int hn =>
      intro offset rest
      cases depth <;> exact rejects_decodePrimitive r n hn offset rest
  | @union id active payload v part hv h hlen ih =>
    obtain ⟨depth, rfl, hpayload⟩ := Value.nesting_union_le_iff.mp hdepth
    rcases hsim.alike _ _ hab with ⟨_ | _ | _ | _ | hvariants⟩
    obtain ⟨u, hu, hrel⟩ := exists_variant_of_fits hr hvariants hv
    cases hmisfit with
    | payload hu' hmisfit =>
      obtain rfl := Option.some.inj (hu.symm.trans hu')
      exact Rejects.nested (isBlock_wideBlock hlen)
        (rejects_decodeVariant hu (ih hrel hpayload hmisfit))
  | @struct id record part hsend h hlen ih =>
    obtain ⟨depth, rfl, hnesting⟩ := Value.nesting_struct_le_iff.mp hdepth
    rcases hsim.alike _ _ hab with ⟨_ | _ | _ | _ | _ | hfit⟩
    exact Rejects.nested (isBlock_wideBlock hlen)
      (rejects_decodeRecord_of_misfit hsim hfit hsend h hnesting
        (fun f hf x hx type hrel => ih f hf x hx hrel (hnesting _ x hx)) hmisfit)
  | @array item items part hcount h ih =>
    obtain ⟨depth, rfl, hitems⟩ := Value.nesting_array_le_iff.mp hdepth
    rcases hsim.alike _ _ hab with ⟨_ | _ | _ | hrel⟩
    rename_i b
    have hrejects (x : Value) (hx : x ∈ items) (hmisfit : Misfit r Unreadable b x) :
        RejectsBody (decodeMember r limit depth) b (part x) :=
      ih x hx hrel (hitems x hx) hmisfit
    have hparts : ∀ x ∈ items, RejectsBody (decodeMember r limit depth) b (part x) ∨
        ∃ y, Body r depth b (part x).kind (part x).body y := fun x hx =>
      or_iff_not_imp_left.mpr fun hno => ⟨_, (h x hx).body_arrive hsim hrel (hitems x hx)
        fun hmisfit => hno (hrejects x hx hmisfit)⟩
    intro offset rest
    -- the count is covered by the bytes of the items, so the loop starts
    have hcounted : Reader.readRepeat .repeated ⟨offset, Bytes.ofNat 4 items.length ++
          ((items.flatMap fun x => (part x).bytes .zero) ++ rest)⟩ =
        .ok items.length ⟨offset + (Bytes.ofNat 4 items.length).length,
          (items.flatMap fun x => (part x).bytes .zero) ++ rest⟩ := by
      refine Reader.readRepeat_eq_ok_iff.mpr ⟨rfl, _, Bytes.length_ofNat 4 _,
        (Bytes.toNat_ofNat_of_lt hcount).symm, .mk_append offset _ _, ?_⟩
      have hle := length_le_flatMap_bytes part items
      simp only [List.length_append]
      omega
    cases hmisfit with
    | @item _ _ x hx hmisfit =>
      dsimp only
      rw [List.append_assoc]
      refine .bind_of_ok ((framed_eq_ok_iff r (.array b)).mpr hcounted) ?_
      exact (rejects_decodeItems (parses_decodeMember hr limit depth) hparts
        ⟨x, hx, hrejects x hx hmisfit⟩ [] _ rest).bind _

/-- The same for a value that stands by itself. -/
theorem WritesPayload.rejects {a : TypeRef} {v : Value} {bytes : Bytes}
    (h : WritesPayload w a v bytes) {b : TypeRef} (hab : rel a b) {limits : Limits}
    (hdepth : v.nestingAt a ≤ limits.maxDepth) (hmisfit : Misfit r Unreadable b v) :
    Rejects (decodeTop r limits b) (.ofBytes bytes) := by
  have hr := hsim.reader
  cases h with
  | @struct id record part hsend h =>
    have hnesting := Value.nestingAt_struct_le_iff.mp hdepth
    rcases hsim.alike _ _ hab with ⟨_ | _ | _ | _ | _ | hfit⟩
    exact (rejects_decodeRecord_of_misfit hsim hfit hsend h hnesting
      (fun f hf x hx type hrel hmisfit =>
        (h f hf x hx).rejects hsim hrel (hnesting _ x hx) hmisfit _) hmisfit 0).bind _
  | @union id active payload v part hv h =>
    have hpayload := Value.nestingAt_union_le_iff.mp hdepth
    rcases hsim.alike _ _ hab with ⟨_ | _ | _ | _ | hvariants⟩
    obtain ⟨u, hu, hrel⟩ := exists_variant_of_fits hr hvariants hv
    cases hmisfit with
    | payload hu' hmisfit =>
      obtain rfl := Option.some.inj (hu.symm.trans hu')
      exact (rejects_decodeVariant hu (h.rejects hsim hrel hpayload hmisfit _) 0).bind _
  | @member _ _ part hstruct hunion h =>
    rw [Value.nestingAt_of_ne hstruct hunion] at hdepth
    have hmember := h.rejects hsim hab hdepth hmisfit limits.maxDepth
      (0 + (header part.kind .zero).length) []
    rw [List.append_nil] at hmember
    have hheader := (parses_framed r b Reader.parses_readHeader).run
      (isHeader_header part.kind .zero) 0 part.body
    cases b with
    | struct id =>
      rcases hsim.alike _ _ hab with ⟨_ | _ | _ | _ | _ | _⟩
      exact absurd rfl (hstruct _)
    | union id =>
      rcases hsim.alike _ _ hab with ⟨_ | _ | _ | _⟩
      exact absurd rfl (hunion _)
    | prim p | enum id | array item =>
      refine .bind_of_ok (show (get : Decoding Reader) (.ofBytes _) = .ok _ _ from rfl) ?_
      refine .bind_of_ok hheader ?_
      rw [if_neg (not_not.mpr rfl)]
      exact hmember.bind _

end

/-- **Integers at another type.**  What one schema encodes, another one with alike types decodes,
with every integer as it is found at its type; if one of them is not to be found, it is refused as
out of the range of its type. -/
theorem decode_reread {pw pr : Package} {w r : Schema} (hpw : Schema.resolve pw = .ok w)
    (hpr : Schema.resolve pr = .ok r) {rel : TypeRef → TypeRef → Prop}
    (halike : ∀ a b, rel a b → Alike w r rel a b) {a b : TypeRef} (hab : rel a b) {v : Value}
    {bytes : Bytes} (h : encode w v a = .ok bytes) {limits : Limits}
    (hlen : bytes.length ≤ limits.maxPayload) (hdepth : v.nestingAt a ≤ limits.maxDepth) :
    (¬ Misfit r Unreadable b v → decode r limits bytes b = .ok (v.arrive r reread b)) ∧
      (Misfit r Unreadable b v → ∃ k n offset, decode r limits bytes b =
        .error (.malformed (IntKind.name k) offset (.outOfRange n k))) := by
  have hr := Schema.ascends_of_resolve hpr
  have hsim := simulates_of_alike (Schema.ascends_of_resolve hpw) hr halike
  have hwritten := (encode_eq_ok_iff (Schema.ascends_of_resolve hpw)).mp h
  refine ⟨fun hfit => ?_, fun hmisfit => ?_⟩
  · exact (decode_eq_ok_iff hr).mpr ⟨hlen, hwritten.isPayload_arrive hsim hab hdepth hfit⟩
  · obtain ⟨k, n, offset, after, hrejects⟩ := hwritten.rejects hsim hab hdepth hmisfit
    refine ⟨k, n, offset, ?_⟩
    rw [decode, onPayload, if_neg (Nat.not_lt.mpr hlen), hrejects]

/-! ## Counters -/

/-- A package of counters whose counts have an integer type. -/
def counters (k : IntKind) : Package := ⟨"counters", [
  .struct "Counter" [⟨"count", .named k.name, false, none, none⟩,
    ⟨"earlier", .array (.named k.name), true, none, none⟩] []]⟩

/-- The schema of a package of counters. -/
def countersSchema (k : IntKind) : Schema where
  package := "counters"
  fingerprint := Schema.fingerprintOf (counters k)
  enums := []
  unions := []
  structs := [⟨"Counter", [⟨"count", .ofNat 1, .prim (.int k), false, none⟩,
    ⟨"earlier", .ofNat 2, .array (.prim (.int k)), true, none⟩]⟩]
  interfaces := []
  modules := []
  typeNames := [("Counter", .struct 0)]
  interfaceNames := []

/-- A counter with earlier counts. -/
def counter {k : IntKind} (count : k.Ranged) (earlier : List k.Ranged) : Value :=
  .struct (Record.ofList [(.ofNat 1, .present (.int k count)),
    (.ofNat 2, .present (.array (earlier.map (Value.int k))))])

lemma resolve_counters (k : IntKind) : Schema.resolve (counters k) = .ok (countersSchema k) := by
  cases k <;> rfl

/-- How the types of two packages of counters correspond. -/
def counterTypes (j k : IntKind) : List (TypeRef × TypeRef) :=
  [(.struct 0, .struct 0), (.prim (.int j), .prim (.int k)),
    (.array (.prim (.int j)), .array (.prim (.int k)))]

lemma alike_counterTypes (j k : IntKind) (a b : TypeRef) (h : (a, b) ∈ counterTypes j k) :
    Alike (countersSchema j) (countersSchema k) (fun a b => (a, b) ∈ counterTypes j k) a b := by
  simp only [counterTypes, List.mem_cons, Prod.mk.injEq, List.not_mem_nil, or_false] at h
  rcases h with ⟨rfl, rfl⟩ | ⟨rfl, rfl⟩ | ⟨rfl, rfl⟩
  · refine .fits (.struct ⟨?_, ?_, ?_⟩)
    · simp [countersSchema, Schema.structType, counterTypes, Tag.ofNat]
    · simp [countersSchema, Schema.structType, Tag.ofNat]
    · simp [countersSchema, Schema.structType, Schema.Field.isMandatory]
  · exact .int j k
  · exact .fits (.array (by simp [counterTypes]))

/-- The greatest unsigned count comes as a negative one, and a negative count of eight bytes as an
unsigned one. -/
theorem decode_counter_wrapped :
    (encode (countersSchema .u64)
        (counter (⟨18446744073709551615, by decide⟩ : IntKind.u64.Ranged) []) (.struct 0) =
          .ok [97, 255, 255, 255, 255, 255, 255, 255, 255, 226, 0, 0, 0, 0] ∧
      decode (countersSchema .i64) .default
          [97, 255, 255, 255, 255, 255, 255, 255, 255, 226, 0, 0, 0, 0] (.struct 0) =
        .ok (counter (⟨-1, by decide⟩ : IntKind.i64.Ranged) []) ∧
      ¬ IntKind.i64.Holds 18446744073709551615) ∧
    encode (countersSchema .i64)
        (counter (⟨-2147483649, by decide⟩ : IntKind.i64.Ranged) []) (.struct 0) =
          .ok [97, 255, 255, 255, 127, 255, 255, 255, 255, 226, 0, 0, 0, 0] ∧
      decode (countersSchema .u64) .default
          [97, 255, 255, 255, 127, 255, 255, 255, 255, 226, 0, 0, 0, 0] (.struct 0) =
        .ok (counter (⟨18446744071562067967, by decide⟩ : IntKind.u64.Ranged) []) ∧
      ¬ IntKind.u64.Holds (-2147483649) :=
  ⟨⟨by rfl, by rfl, by decide⟩, by rfl, by rfl, by decide⟩

/-- A counter of a wider type is read at a narrower one where it fits, and refused where an earlier
count does not. -/
theorem decode_reread_counter :
    (encode (countersSchema .i64) (counter (⟨-3, by decide⟩ : IntKind.i64.Ranged)
        [⟨5, by decide⟩]) (.struct 0) = .ok [129, 253, 226, 1, 0, 0, 0, 128, 5] ∧
      decode (countersSchema .i8) .default [129, 253, 226, 1, 0, 0, 0, 128, 5] (.struct 0) =
        .ok ((counter (⟨-3, by decide⟩ : IntKind.i64.Ranged)
          [⟨5, by decide⟩]).arrive (countersSchema .i8) reread (.struct 0))) ∧
    encode (countersSchema .u16) (counter (⟨7, by decide⟩ : IntKind.u16.Ranged)
        [⟨5, by decide⟩, ⟨300, by decide⟩]) (.struct 0) =
          .ok [129, 7, 226, 2, 0, 0, 0, 128, 5, 160, 44, 1] ∧
      ∃ k n offset, decode (countersSchema .u8) .default
          [129, 7, 226, 2, 0, 0, 0, 128, 5, 160, 44, 1] (.struct 0) =
        .error (.malformed (IntKind.name k) offset (.outOfRange n k)) := by
  have hsmall : ¬ Misfit (countersSchema .i8) Unreadable (.struct 0)
      (counter (⟨-3, by decide⟩ : IntKind.i64.Ranged) [⟨5, by decide⟩]) := by
    intro h
    cases h with
    | field hf hx h =>
      rcases List.mem_pair.mp hf with rfl | rfl
      · obtain rfl := FieldState.present.inj hx
        cases h with
        | int h => exact absurd h (by decide)
      · obtain rfl := FieldState.present.inj hx
        cases h with
        | item hx h =>
          obtain rfl := List.mem_singleton.mp hx
          cases h with
          | int h => exact absurd h (by decide)
  have hlarge : Misfit (countersSchema .u8) Unreadable (.struct 0)
      (counter (⟨7, by decide⟩ : IntKind.u16.Ranged) [⟨5, by decide⟩, ⟨300, by decide⟩]) := by
    refine .field (List.mem_cons_of_mem _ List.mem_cons_self) (by rfl) ?_
    exact .item (List.mem_cons_of_mem _ List.mem_cons_self) (.int (by rfl))
  have hencode : encode (countersSchema .i64) (counter (⟨-3, by decide⟩ : IntKind.i64.Ranged)
      [⟨5, by decide⟩]) (.struct 0) = .ok [129, 253, 226, 1, 0, 0, 0, 128, 5] := by rfl
  have hencode' : encode (countersSchema .u16) (counter (⟨7, by decide⟩ : IntKind.u16.Ranged)
      [⟨5, by decide⟩, ⟨300, by decide⟩]) (.struct 0) =
        .ok [129, 7, 226, 2, 0, 0, 0, 128, 5, 160, 44, 1] := by rfl
  exact ⟨⟨hencode, (decode_reread (resolve_counters _) (resolve_counters _)
      (alike_counterTypes .i64 .i8) (by decide) hencode (by decide) (by decide)).1 hsmall⟩,
    hencode', (decode_reread (resolve_counters _) (resolve_counters _)
      (alike_counterTypes .u16 .u8) (by decide) hencode' (by decide) (by decide)).2 hlarge⟩

end Codec

end SchemaRpc
