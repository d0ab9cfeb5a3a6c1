/-
# Trees of items

What a writer can be told to write, apart from every schema: integers, floating-point numbers,
byte strings and nulls, arrays of such items and blocks of tagged ones, nested to any depth.
`putMembers?` hands a tree to the operations of the writer, one after the other, and
`ReadsMembers` says that a reader gets the same tree back: the header of each member, then the
operation that goes with what was written, down to the items of arrays and into the blocks.

* `Item.put?_eq_some`: an item is appended as a header and its piece, the lengths of the blocks
  inside filled in by then.
* `ReadsItem.of_past`: wherever a reader comes to a piece, it reads the item.
* `readsMembers_putMembers`: what is written is what is read, until nothing is left.
-/
import SchemaRpc.Proofs.Wire.Framing
import SchemaRpc.Proofs.Wire.Pieces
import SchemaRpc.Wire.Writer

namespace SchemaRpc

namespace Wire

/-- An integer that eight bytes stand for, signed or not. -/
structure WideInt where
  val : Int
  holds : IntKind.i64.least ≤ val ∧ val ≤ IntKind.u64.greatest

/-- What stands behind a header: one thing that the writer writes, an array or a block. -/
inductive Item where
  | int (n : WideInt)
  /-- Eight bytes as they are. -/
  | quad (bits : UInt64)
  | float32 (x : Binary32)
  | float64 (x : Binary64)
  | bytes (data : Bytes)
  | null
  /-- A count, then the items, all with tag zero. -/
  | repeated (items : List Item)
  /-- Members with tags of their own behind one length. -/
  | block (members : List (Tag × Item))

mutual

/-- The kind of an item and the bytes behind its header. -/
def Item.piece : Item → Piece
  | .int n => intPiece n.val
  | .quad bits => ⟨.quad, Bytes.ofNat 8 bits.toNat⟩
  | .float32 x => ⟨.int4, Bytes.ofNat 4 x.bits.toNat⟩
  | .float64 x => ⟨.quad, Bytes.ofNat 8 x.bits.toNat⟩
  | .bytes data => leastBlock (data ++ [0])
  | .null => ⟨.block1, [0]⟩
  | .repeated items => ⟨.repeated, Bytes.ofNat 4 items.length ++ itemsBytes items⟩
  | .block members => wideBlock (membersBytes members)

/-- The bytes of the items of an array. -/
def itemsBytes : List Item → Bytes
  | [] => []
  | item :: items => item.piece.bytes .zero ++ itemsBytes items

/-- The bytes of members one after the other. -/
def membersBytes : List (Tag × Item) → Bytes
  | [] => []
  | (tag, item) :: members => item.piece.bytes tag ++ membersBytes members

end

lemma itemsBytes_eq_flatMap (items : List Item) :
    itemsBytes items = items.flatMap fun item => item.piece.bytes .zero := by
  induction items with
  | nil => rfl
  | cons item items ih => rw [itemsBytes, ih, List.flatMap_cons]

lemma membersBytes_append (members more : List (Tag × Item)) :
    membersBytes (members ++ more) = membersBytes members ++ membersBytes more := by
  induction members with
  | nil => rfl
  | cons member members ih =>
    rw [List.cons_append, membersBytes, membersBytes, ih, List.append_assoc]

lemma membersBytes_singleton (tag : Tag) (item : Item) :
    membersBytes [(tag, item)] = item.piece.bytes tag := by
  rw [membersBytes, membersBytes, List.append_nil]

mutual

/-- How deep arrays nest in an item.  What is inside a block does not count, since a block is
passed over by its length. -/
def Item.arrayDepth : Item → Nat
  | .repeated items => itemsArrayDepth items + 1
  | _ => 0

/-- How deep arrays nest in the deepest of some items. -/
def itemsArrayDepth : List Item → Nat
  | [] => 0
  | item :: items => max item.arrayDepth (itemsArrayDepth items)

end

/-! ## Writing -/

mutual

/-- Write an item behind a header with a tag. -/
def Item.put? (tag : Tag) (w : Writer) : Item → Option Writer
  | .int n => some (w.append (writeInt tag n.val))
  | .quad bits => some (w.append (writeQuad tag bits))
  | .float32 x => some (w.append (writeFloat32 tag x))
  | .float64 x => some (w.append (writeFloat64 tag x))
  | .bytes data => (writeBytes? tag data).map w.append
  | .null => some (w.append (writeNull tag))
  | .repeated items => (writeRepeat? tag items.length).bind fun front =>
    putItems? (w.append front) items
  | .block members =>
    let opened := w.openBlock tag
    (putMembers? opened.2 members).bind fun written => written.closeBlock? opened.1

/-- Write the items of an array. -/
def putItems? (w : Writer) : List Item → Option Writer
  | [] => some w
  | item :: items => (item.put? .zero w).bind fun written => putItems? written items

/-- Write members one after the other. -/
def putMembers? (w : Writer) : List (Tag × Item) → Option Writer
  | [] => some w
  | (tag, item) :: members => (item.put? tag w).bind fun written => putMembers? written members

end

namespace Writer

lemma append_append (w : Writer) (bytes more : Bytes) :
    (w.append bytes).append more = w.append (bytes ++ more) := by
  rw [append, append, append, List.append_assoc]

lemma append_nil (w : Writer) : w.append [] = w := by
  rw [append, List.append_nil]

/-- Closing a block fills its length in, between what stood before the block and its content. -/
lemma closeBlock?_openBlock (w : Writer) (tag : Tag) {content : Bytes}
    (hlen : content.length < lengthLimit) :
    ((w.openBlock tag).2.append content).closeBlock? (w.openBlock tag).1 =
      some (w.append ((wideBlock content).bytes tag)) := by
  have hbytes : ((w.openBlock tag).2.append content).bytes =
      (w.bytes ++ header .block4 tag) ++ (Bytes.ofNat 4 0 ++ content) := by
    simp only [openBlock, append, List.append_assoc]
  have hat : (w.openBlock tag).1.lengthAt = (w.bytes ++ header .block4 tag).length := rfl
  generalize hfront : w.bytes ++ header .block4 tag = front at hbytes hat
  have hcontent : (front ++ (Bytes.ofNat 4 0 ++ content)).length - (front.length + 4) =
      content.length := by
    simp only [List.length_append, Bytes.length_ofNat]
    omega
  have hdrop : (front ++ (Bytes.ofNat 4 0 ++ content)).drop (front.length + 4) = content := by
    rw [List.drop_length_add_append]
    exact List.drop_left' (Bytes.length_ofNat 4 0)
  rw [closeBlock?, hbytes, hat, hcontent, hdrop]
  simp only [if_pos hlen, List.take_left, Option.some.injEq]
  rw [append, Piece.bytes, wideBlock, ← hfront]
  simp only [List.append_assoc]

end Writer

/-! ## Lengths -/

section

variable {limit : Nat} {tag : Tag} {data : Bytes} {item : Item} {items : List Item}
  {members : List (Tag × Item)}

lemma length_itemsBytes_cons : (itemsBytes (item :: items)).length =
    1 + extraTagBytes .zero + item.piece.body.length + (itemsBytes items).length := by
  rw [itemsBytes, List.length_append, Piece.bytes, List.length_append, length_header]

lemma length_membersBytes_cons : (membersBytes ((tag, item) :: members)).length =
    1 + extraTagBytes tag + item.piece.body.length + (membersBytes members).length := by
  rw [membersBytes, List.length_append, Piece.bytes, List.length_append, length_header]

/-- Every item takes a byte. -/
lemma length_le_itemsBytes (items : List Item) : items.length ≤ (itemsBytes items).length := by
  induction items with
  | nil => exact Nat.le_refl 0
  | cons item items ih =>
    rw [length_itemsBytes_cons, List.length_cons]
    omega

lemma items_lt_of_cons (h : (itemsBytes (item :: items)).length < limit) :
    item.piece.body.length < limit ∧ (itemsBytes items).length < limit := by
  rw [length_itemsBytes_cons] at h
  omega

lemma members_lt_of_cons (h : (membersBytes ((tag, item) :: members)).length < limit) :
    item.piece.body.length < limit ∧ (membersBytes members).length < limit := by
  rw [length_membersBytes_cons] at h
  omega

lemma content_lt_of_bytes (h : (Item.bytes data).piece.body.length < limit) :
    (data ++ [0]).length < limit := by
  refine Nat.lt_of_le_of_lt ?_ h
  rw [Item.piece]
  unfold leastBlock
  split <;> [skip; split] <;> simp only [List.length_append] <;> omega

/-- The count of an array fits where its items do. -/
lemma content_lt_of_repeated (h : (Item.repeated items).piece.body.length < limit) :
    items.length < limit ∧ (itemsBytes items).length < limit := by
  have hcount := length_le_itemsBytes items
  rw [Item.piece, List.length_append] at h
  omega

lemma content_lt_of_block (h : (Item.block members).piece.body.length < limit) :
    (membersBytes members).length < limit := by
  rw [Item.piece, length_wideBlock] at h
  omega

end

/-! ## What is written -/

mutual

/-- An item is appended as a whole, header and body. -/
lemma Item.put?_eq_some (tag : Tag) (w : Writer) : (item : Item) →
    item.piece.body.length < lengthLimit →
    item.put? tag w = some (w.append (item.piece.bytes tag))
  | .int n, _ => by rw [Item.put?, Item.piece, writeInt_eq]
  | .quad bits, _ => rfl
  | .float32 x, _ => rfl
  | .float64 x, _ => rfl
  | .null, _ => rfl
  | .bytes data, hsize => by
    have hwrite : writeBytes? tag data = some ((leastBlock (data ++ [0])).bytes tag) :=
      writeBytes?_eq_some_iff.mpr ⟨content_lt_of_bytes hsize, rfl⟩
    rw [Item.put?, hwrite, Option.map_some, Item.piece]
  | .repeated items, hsize => by
    obtain ⟨hcount, hitems⟩ := content_lt_of_repeated hsize
    have hfront : writeRepeat? tag items.length =
        some (header .repeated tag ++ Bytes.ofNat 4 items.length) :=
      writeRepeat?_eq_some_iff.mpr ⟨hcount, rfl⟩
    rw [Item.put?, hfront, Option.bind_some, putItems?_eq_some _ items hitems,
      Writer.append_append, Item.piece, Piece.bytes, List.append_assoc]
  | .block members, hsize => by
    have hcontent := content_lt_of_block hsize
    -- what is inside comes behind an empty length, which closing the block overwrites
    rw [Item.put?, putMembers?_eq_some _ members hcontent, Option.bind_some,
      w.closeBlock?_openBlock tag hcontent, Item.piece]

lemma putItems?_eq_some (w : Writer) : (items : List Item) →
    (itemsBytes items).length < lengthLimit →
    putItems? w items = some (w.append (itemsBytes items))
  | [], _ => by rw [putItems?, itemsBytes, Writer.append_nil]
  | item :: items, hsize => by
    obtain ⟨hitem, hitems⟩ := items_lt_of_cons hsize
    rw [putItems?, item.put?_eq_some .zero w hitem, Option.bind_some,
      putItems?_eq_some _ items hitems, Writer.append_append, itemsBytes]

lemma putMembers?_eq_some (w : Writer) : (members : List (Tag × Item)) →
    (membersBytes members).length < lengthLimit →
    putMembers? w members = some (w.append (membersBytes members))
  | [], _ => by rw [putMembers?, membersBytes, Writer.append_nil]
  | (tag, item) :: members, hsize => by
    obtain ⟨hitem, hmembers⟩ := members_lt_of_cons hsize
    rw [putMembers?, item.put?_eq_some tag w hitem, Option.bind_some,
      putMembers?_eq_some _ members hmembers, Writer.append_append, membersBytes]

end

/-! ## Passing over -/

mutual

/-- An item can be passed over within the depth of its arrays. -/
lemma Item.skips : (item : Item) → item.piece.body.length < lengthLimit →
    Skips item.arrayDepth item.piece.kind item.piece.body
  | .int n, _ => .int (intPiece_width n.val)
  | .quad bits, _ => .int (by rw [Item.piece, Bytes.length_ofNat]; rfl)
  | .float32 x, _ => .int (by rw [Item.piece, Bytes.length_ofNat]; rfl)
  | .float64 x, _ => .int (by rw [Item.piece, Bytes.length_ofNat]; rfl)
  | .null, _ => skips_null 0
  | .bytes data, hsize => .block (isBlock_leastBlock (content_lt_of_bytes hsize))
  | .repeated items, hsize => by
    obtain ⟨hcount, hitems⟩ := content_lt_of_repeated hsize
    -- the items are passed over one array deeper than they are themselves
    have hskips := skipsItems_itemsBytes items hitems
    rw [Item.arrayDepth, Item.piece]
    refine .repeated (Bytes.length_ofNat 4 _) ?_
    rwa [Bytes.toNat_ofNat_of_lt hcount]
  | .block members, hsize => .block (isBlock_wideBlock (content_lt_of_block hsize))

lemma skipsItems_itemsBytes : (items : List Item) → (itemsBytes items).length < lengthLimit →
    SkipsItems (itemsArrayDepth items) items.length (itemsBytes items)
  | [], _ => .nil
  | item :: items, hsize => by
    obtain ⟨hitem, hitems⟩ := items_lt_of_cons hsize
    have hfirst := (item.skips hitem).mono (Nat.le_max_left _ (itemsArrayDepth items))
    have hmore := (skipsItems_itemsBytes items hitems).mono (Nat.le_max_right item.arrayDepth _)
    rw [itemsBytes, itemsArrayDepth, Piece.bytes, List.append_assoc]
    exact .cons (isHeader_header _ _) hfirst hmore

end

/-! ## Reading -/

mutual

/-- A reader gets an item back behind a header of the kind, by the operation that goes with what
was written, and stands at `after` then. -/
inductive ReadsItem : (kind : Kind) → Item → (r after : Reader) → Prop where
  | int {kind : Kind} {n : WideInt} {r after : Reader} (hn : n.val ≤ IntKind.i64.greatest)
    (hread : Reader.readInt kind r = .ok n.val after) : ReadsItem kind (.int n) r after
  /-- Integers that no signed one of eight bytes is are read as unsigned ones. -/
  | large {kind : Kind} {n : WideInt} {bits : UInt64} {r after : Reader}
    (hn : IntKind.i64.greatest < n.val) (hbits : (bits.toNat : Int) = n.val)
    (hread : Reader.readQuad kind r = .ok bits after) : ReadsItem kind (.int n) r after
  | quad {kind : Kind} {bits : UInt64} {r after : Reader}
    (hread : Reader.readQuad kind r = .ok bits after) : ReadsItem kind (.quad bits) r after
  | float32 {kind : Kind} {x : Binary32} {r after : Reader}
    (hread : Reader.readFloat32 kind r = .ok x after) : ReadsItem kind (.float32 x) r after
  | float64 {kind : Kind} {x : Binary64} {r after : Reader}
    (hread : Reader.readFloat64 kind r = .ok x after) : ReadsItem kind (.float64 x) r after
  | bytes {kind : Kind} {data : Bytes} {r after : Reader}
    (hread : Reader.readBytes kind r = .ok data after) : ReadsItem kind (.bytes data) r after
  | null {kind : Kind} {r after : Reader} (hread : Reader.takeNull kind r = .ok true after) :
    ReadsItem kind .null r after
  | repeated {kind : Kind} {items : List Item} {r first after : Reader}
    (hread : Reader.readRepeat kind r = .ok items.length first)
    (h : ReadsItems items first after) : ReadsItem kind (.repeated items) r after
  | block {kind : Kind} {members : List (Tag × Item)} {r inner after : Reader}
    (hread : Reader.readBlock kind r = .ok inner after) (h : ReadsMembers members inner) :
    ReadsItem kind (.block members) r after

/-- A reader gets the items of an array back, one after the other. -/
inductive ReadsItems : List Item → (r after : Reader) → Prop where
  | nil {r : Reader} : ReadsItems [] r r
  | cons {item : Item} {items : List Item} {r next after : Reader}
    (h : ReadsMember .zero item r next) (hmore : ReadsItems items next after) :
    ReadsItems (item :: items) r after

/-- A reader gets a header with the tag back and then the item.  Whoever passes over the item
instead, allowing arrays as deep as those of the item, comes to the same place: behind the
body of the item and nothing else. -/
inductive ReadsMember : Tag → Item → (r after : Reader) → Prop where
  | mk {kind : Kind} {tag : Tag} {item : Item} {r body after : Reader}
    (hheader : Reader.readHeader r = .ok ⟨kind, tag⟩ body) (hitem : ReadsItem kind item body after)
    (hskip : ∀ depth, item.arrayDepth ≤ depth → Reader.skip depth kind body = .ok () after)
    (hbody : body.Past item.piece.body after) : ReadsMember tag item r after

/-- A reader gets members back one after the other, and nothing is left behind the last one and
not before. -/
inductive ReadsMembers : List (Tag × Item) → Reader → Prop where
  | nil {r : Reader} (hend : r.isEmpty) : ReadsMembers [] r
  | cons {tag : Tag} {item : Item} {members : List (Tag × Item)} {r after : Reader}
    (hmore : ¬ r.isEmpty) (h : ReadsMember tag item r after) (hs : ReadsMembers members after) :
    ReadsMembers ((tag, item) :: members) r

end

/-- Behind its header an integer is read as itself, unsigned if no signed one is the same. -/
lemma readsItem_int {n : WideInt} {r after : Reader}
    (hpast : r.Past (intPiece n.val).body after) :
    ReadsItem (intPiece n.val).kind (.int n) r after := by
  obtain ⟨n, hlow, hhigh⟩ := n
  by_cases hn : n ≤ IntKind.i64.greatest
  · exact .int hn ((Reader.parses_readInt ..).mpr
      ⟨_, ⟨intPiece_width n, (toInt_intPiece ⟨hlow, hn⟩).symm⟩, hpast⟩)
  · have hlarge := Int.not_le.mp hn
    have hkind : (intPiece n).kind = .quad := intPiece_kind_of_not_holds fun h => hn h.2
    have hlen : (intPiece n).body.length = 8 := by
      have hwidth := intPiece_width n
      rw [hkind] at hwidth
      exact (Option.some.inj hwidth).symm
    have hbits : (Bytes.toNat (intPiece n).body : Int) = n :=
      toNat_intPiece ⟨Int.le_trans (by decide) (Int.le_of_lt hlarge), hhigh⟩ hkind
    have hlt := Bytes.toNat_lt_span (intPiece n).body
    rw [hlen] at hlt
    refine .large hlarge ?_ ((Reader.parses_readQuad ..).mpr ⟨_, ⟨hkind, hlen, rfl⟩, hpast⟩)
    rw [UInt64.toNat_ofNat_of_lt' hlt, hbits]

mutual

/-- Whoever stands before the body of an item gets the item. -/
lemma ReadsItem.of_past : (item : Item) → item.piece.body.length < lengthLimit →
    ∀ {r after : Reader}, r.Past item.piece.body after → ReadsItem item.piece.kind item r after
  | .int n, _, _, _, hpast => readsItem_int hpast
  | .quad bits, _, _, _, hpast => .quad ((Reader.parses_readQuad ..).mpr
      ⟨_, ⟨rfl, Bytes.length_ofNat 8 _, (Bytes.uint64_read_back bits).symm⟩, hpast⟩)
  | .float32 x, _, _, _, hpast => .float32 ((Reader.parses_readFloat32 ..).mpr
      ⟨_, ⟨rfl, Bytes.length_ofNat 4 _, by rw [Bytes.uint32_read_back]⟩, hpast⟩)
  | .float64 x, _, _, _, hpast => .float64 ((Reader.parses_readFloat64 ..).mpr
      ⟨_, ⟨rfl, Bytes.length_ofNat 8 _, by rw [Bytes.uint64_read_back]⟩, hpast⟩)
  | .bytes data, hsize, _, _, hpast => .bytes ((Reader.parses_readBytes ..).mpr
      ⟨_, isBlock_leastBlock (content_lt_of_bytes hsize), hpast⟩)
  | .null, _, _, _, hpast => .null (Reader.takeNull_eq_true_iff.mpr ⟨rfl, hpast⟩)
  | .repeated items, hsize, r, after, hpast => by
    obtain ⟨hcount, hitems⟩ := content_lt_of_repeated hsize
    rw [Item.piece] at hpast
    obtain ⟨first, hfront, hback⟩ := hpast.exists_of_append
    have hread : Reader.readRepeat .repeated r = .ok items.length first := by
      refine Reader.readRepeat_eq_ok_iff.mpr ⟨rfl, _, Bytes.length_ofNat 4 _,
        (Bytes.toNat_ofNat_of_lt hcount).symm, hfront, ?_⟩
      -- every item takes a byte of those that are left
      rw [hback.length_eq]
      exact Nat.le_add_right_of_le (length_le_itemsBytes items)
    exact .repeated hread (ReadsItems.of_past items hitems hback)
  | .block members, hsize, r, after, hpast => by
    have hcontent := content_lt_of_block hsize
    have hoffset : (membersBytes members).length ≤ after.offset := by
      rw [hpast.offset_eq, Item.piece, length_wideBlock]
      omega
    -- the reader for the content stands as far before the end of the block as the content is long
    have hread : Reader.readBlock .block4 r =
        .ok ⟨after.offset - (membersBytes members).length, membersBytes members⟩ after :=
      Reader.readBlock_eq_ok_iff.mpr ⟨_, isBlock_wideBlock hcontent, hpast,
        Nat.sub_add_cancel hoffset⟩
    exact .block hread (ReadsMembers.of_rest members hcontent rfl)

lemma ReadsItems.of_past : (items : List Item) → (itemsBytes items).length < lengthLimit →
    ∀ {r after : Reader}, r.Past (itemsBytes items) after → ReadsItems items r after
  | [], _, _, _, hpast => hpast.eq_of_nil ▸ .nil
  | item :: items, hsize, r, after, hpast => by
    obtain ⟨hitem, hitems⟩ := items_lt_of_cons hsize
    rw [itemsBytes] at hpast
    obtain ⟨next, hfirst, hmore⟩ := hpast.exists_of_append
    exact .cons (ReadsMember.of_past .zero item hitem hfirst)
      (ReadsItems.of_past items hitems hmore)

lemma ReadsMember.of_past (tag : Tag) (item : Item) (hsize : item.piece.body.length < lengthLimit)
    {r after : Reader} (hpast : r.Past (item.piece.bytes tag) after) :
    ReadsMember tag item r after := by
  obtain ⟨body, hheader, hbody⟩ := hpast.exists_of_append
  refine .mk ((Reader.parses_readHeader ..).mpr ⟨_, isHeader_header _ _, hheader⟩)
    (ReadsItem.of_past item hsize hbody) (fun depth hdepth => ?_) hbody
  exact (Reader.parses_skip ..).mpr ⟨_, (item.skips hsize).mono hdepth, hbody⟩

lemma ReadsMembers.of_rest : (members : List (Tag × Item)) →
    (membersBytes members).length < lengthLimit →
    ∀ {r : Reader}, r.rest = membersBytes members → ReadsMembers members r
  | [], _, r, hrest => .nil (by rw [Reader.isEmpty, hrest]; rfl)
  | (tag, item) :: members, hsize, r, hrest => by
    obtain ⟨hitem, hmembers⟩ := members_lt_of_cons hsize
    rw [membersBytes] at hrest
    have hmore : ¬ r.isEmpty := by
      rw [Reader.isEmpty, hrest, Piece.bytes]
      simp [(isHeader_header _ tag).ne_nil]
    have hpast : r.Past (item.piece.bytes tag)
        ⟨r.offset + (item.piece.bytes tag).length, membersBytes members⟩ := ⟨hrest, rfl⟩
    exact .cons hmore (ReadsMember.of_past tag item hitem hpast)
      (ReadsMembers.of_rest members hmembers rfl)

end

/-- **Writing and reading a tree.**  Handing a tree of items to the writer succeeds if less than
four gigabytes are written, and a reader of the bytes gets the tree back: every member with its
tag and its item, every block up to its end, and nothing after the last member. -/
theorem readsMembers_putMembers (members : List (Tag × Item))
    (hsize : (membersBytes members).length < lengthLimit) :
    putMembers? .empty members = some ⟨membersBytes members⟩ ∧
      ReadsMembers members (.ofBytes (membersBytes members)) := by
  refine ⟨?_, ReadsMembers.of_rest members hsize rfl⟩
  rw [putMembers?_eq_some .empty members hsize]
  rfl

/-- Tags of every length, an integer that is no signed one, an array in an array, and a block. -/
def mixedMembers : List (Tag × Item) :=
  [(.ofNat 29, .int ⟨18446744073709551615, by decide⟩),
    (.ofNat 30, .repeated [.repeated [.null, .int ⟨-1, by decide⟩], .bytes [97]]),
    (.ofNat 256, .block [(.ofNat 65535, .float32 ⟨1⟩), (.ofNat 1, .quad 2)])]

theorem readsMembers_putMembers_mixed :
    membersBytes mixedMembers =
      [125, 255, 255, 255, 255, 255, 255, 255, 255,
        254, 30, 2, 0, 0, 0, 224, 2, 0, 0, 0, 0, 0, 128, 255, 0, 2, 97, 0,
        95, 0, 1, 16, 0, 0, 0, 223, 255, 255, 1, 0, 0, 0, 97, 2, 0, 0, 0, 0, 0, 0, 0] ∧
    putMembers? .empty mixedMembers = some ⟨membersBytes mixedMembers⟩ ∧
      ReadsMembers mixedMembers (.ofBytes (membersBytes mixedMembers)) :=
  ⟨by decide, readsMembers_putMembers mixedMembers (by decide)⟩

end Wire

end SchemaRpc
