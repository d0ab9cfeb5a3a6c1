/-
# Reading back what was written

The JSON value of a package that was read from a document of the right shape has this shape
again, and the same package is read from it.  So writing a loaded package and loading it again
changes nothing, and every written form of it has its fingerprint.

What makes this work is what reading grants: the names and tags are those of the shape, enums
have labels, and no literal is null, which would be read as no literal.  For each part of a
package there is one lemma for the shape of its JSON value and one for reading it.
-/
import SchemaRpc.Package.Load
import SchemaRpc.Proofs.Package.Granted
import SchemaRpc.Proofs.Package.Written

namespace SchemaRpc

namespace Package

open Json (HasShape)

/-! ## The shape of what is written -/

lemma hasShape_identifier {name : String} (h : Shape.isIdentifier name) :
    HasShape Shape.identifier (.string name) := by
  simp [Shape.identifier, HasShape, Json.Rule.Holds, h]

lemma hasShape_tagJson {tag : Tag} (h : 0 < tag.val) : HasShape Shape.tag (tagJson tag) := by
  simp [Shape.tag, tagJson, HasShape, Json.Rule.Holds, Json.Kind.admits, Json.isBelow, Json.isAbove]
  omega

lemma spellsType_toJson (e : TypeExpr) : SpellsType e.toJson e := by
  induction e with
  | named name => exact .named name
  | array item ih =>
    exact .array ⟨rfl, by simp [TypeExpr.toJson]⟩ (by simp [TypeExpr.toJson]) ih

lemma hasShape_typeExpr {e : TypeExpr} (h : Shape.isIdentifier e.base) :
    HasShape Shape.typeExpr e.toJson :=
  ⟨(spellsType_toJson e).isTypeExpr_iff.mpr h, trivial⟩

@[simp] lemma mem_optionally {α : Type} {name : String} {toJson : α → Json} {a : Option α}
    {e : String × Json} : e ∈ optionally name toJson a ↔ ∃ x ∈ a, e = (name, toJson x) := by
  cases a <;> simp [optionally]

@[simp] lemma mem_reservedMembers {reserved : List Tag} {e : String × Json} :
    e ∈ reservedMembers reserved ↔
      reserved ≠ [] ∧ e = ("reserved", .array (reserved.map tagJson)) := by
  cases reserved <;> simp [reservedMembers]

lemma hasShape_label {l : Label} (h : Shape.isIdentifier l.name) :
    HasShape Shape.label l.toJson := by
  obtain ⟨name, value⟩ := l
  have hvalue (n : IntKind.i32.Ranged) : Json.Kind.integer.admits (.int n.val) ∧
      Json.isBelow (-2147483648) (.int n.val) = false ∧
      Json.isAbove 2147483647 (.int n.val) = false := by
    have hn : -2147483648 ≤ n.val ∧ n.val ≤ 2147483647 := n.holds
    simpa [Json.Kind.admits, Json.isBelow, Json.isAbove] using hn
  simp +contextual [Label.toJson, Shape.label, HasShape, Json.Rule.Holds, List.lookup_cons,
    List.lookup_append, hasShape_identifier h, hvalue]

lemma hasShape_variant {u : Variant} (h : Tidy [u.name, u.type.base] u.tag.toList) :
    HasShape Shape.variant u.toJson := by
  obtain ⟨name, type, tag⟩ := u
  have hname := hasShape_identifier (h.names name (by simp))
  have htype := hasShape_typeExpr (h.names type.base (by simp))
  have htag (t) (ht : tag = some t) := hasShape_tagJson (h.tags t (by simp [ht]))
  simp +contextual [Variant.toJson, Shape.variant, HasShape, Json.Rule.Holds, List.lookup_cons,
    List.lookup_append, hname, htype, htag]

lemma hasShape_field {f : Field} (h : Tidy f.names f.tags) : HasShape Shape.field f.toJson := by
  obtain ⟨name, type, optional, tag, literal⟩ := f
  have hname := hasShape_identifier (h.names name (by simp [Field.names]))
  have htype := hasShape_typeExpr (h.names type.base (by simp [Field.names]))
  have htag (t) (ht : tag = some t) := hasShape_tagJson (h.tags t (by simp [Field.tags, ht]))
  have hoptional : ∀ x, optionalJson? optional = some x → Json.Kind.boolean.admits x := by
    cases optional <;> simp [optionalJson?, Json.Kind.admits]
  simp +contextual [Field.toJson, Shape.field, HasShape, Json.Rule.Holds, List.lookup_cons,
    List.lookup_append, hname, htype, htag, hoptional, or_imp]

lemma hasShape_fieldsJson {fields : List Field} (h : ∀ f ∈ fields, Tidy f.names f.tags) :
    HasShape Shape.fieldList (fieldsJson fields) := by
  have hfield (f) (hf : f ∈ fields) := hasShape_field (h f hf)
  simpa [fieldsJson, Shape.fieldList, HasShape, Json.Rule.Holds] using hfield

lemma hasShape_method {m : Method} (h : Tidy m.names m.tags) : HasShape Shape.method m.toJson := by
  obtain ⟨name, tag, input, output, failure⟩ := m
  have hname := hasShape_identifier (h.names name (by simp [Method.names]))
  have htag (t) (ht : tag = some t) := hasShape_tagJson (h.tags t (by simp [Method.tags, ht]))
  have parameters : ∀ f ∈ input ++ output.getD [] ++ failure.getD [], Tidy f.names f.tags :=
    (h.mono (List.subset_cons_self _ _) (List.subset_append_right _ _)).of_flatMap
  simp only [List.forall_mem_append] at parameters
  obtain ⟨⟨hinput, houtput⟩, hfailure⟩ := parameters
  have hinput := hasShape_fieldsJson hinput
  have houtput (l) (hl : output = some l) : HasShape Shape.fieldList (fieldsJson l) :=
    hasShape_fieldsJson (by simpa [hl] using houtput)
  have hfailure (l) (hl : failure = some l) : HasShape Shape.fieldList (fieldsJson l) :=
    hasShape_fieldsJson (by simpa [hl] using hfailure)
  simp +contextual [Method.toJson, Shape.method, HasShape, Json.Rule.Holds, List.lookup_cons,
    List.lookup_append, hname, htag, hinput, houtput, hfailure, or_imp]

lemma hasShape_member {m : Member} (h : Tidy [m.name, m.interface] m.tag.toList) :
    HasShape Shape.member m.toJson := by
  obtain ⟨name, interface, tag⟩ := m
  have hname := hasShape_identifier (h.names name (by simp))
  have hinterface := hasShape_identifier (h.names interface (by simp))
  have htag (t) (ht : tag = some t) := hasShape_tagJson (h.tags t (by simp [ht]))
  simp +contextual [Member.toJson, Shape.member, HasShape, Json.Rule.Holds, List.lookup_cons,
    List.lookup_append, hname, hinterface, htag]

lemma hasShape_reserved {reserved : List Tag} (h : ∀ t ∈ reserved, 0 < t.val) :
    ∀ x ∈ reservedJson? reserved, HasShape Shape.reserved x := by
  have htag (t) (ht : t ∈ reserved) := hasShape_tagJson (h t ht)
  simpa [reservedJson?, Shape.reserved, HasShape, Json.Rule.Holds] using fun _ => htag

lemma hasShape_declaration {d : Declaration} (h : Tidy d.names d.tags)
    (hlabels : ∀ name, d ≠ .enum name []) : HasShape Shape.declaration d.toJson := by
  have hname := hasShape_identifier (h.names d.name (by
    cases d <;> exact List.mem_cons_self ..))
  cases d with
  | enum name labels =>
    have hlength : 1 ≤ labels.length :=
      List.length_pos_of_ne_nil fun hnil => hlabels name (by rw [hnil])
    have hall (l) (hl : l ∈ labels) := hasShape_label (h.names l.name
      (List.mem_cons_of_mem _ (List.mem_map_of_mem hl)))
    simpa [Declaration.toJson, Declaration.contents, Declaration.kindName, Shape.declaration,
      HasShape, Json.Rule.Holds, List.lookup_cons, Json.differs, hname, hlength] using hall
  | union name variants reserved =>
    have hall := (h.mono (List.subset_cons_self _ _) (List.subset_append_left _ _)).of_flatMap
    have hall (u) (hu : u ∈ variants) := hasShape_variant (hall u hu)
    have hreserved := hasShape_reserved fun t ht => h.tags t (List.mem_append_right _ ht)
    simpa +contextual [Declaration.toJson, Declaration.contents, Declaration.kindName,
      Shape.declaration, HasShape, Json.Rule.Holds, List.lookup_cons, List.lookup_append,
      Json.differs, hname] using And.intro hreserved hall
  | struct name fields reserved =>
    have hall := hasShape_fieldsJson
      (h.mono (List.subset_cons_self _ _) (List.subset_append_left _ _)).of_flatMap
    have hreserved := hasShape_reserved fun t ht => h.tags t (List.mem_append_right _ ht)
    simpa +contextual [Declaration.toJson, Declaration.contents, Declaration.kindName,
      Shape.declaration, HasShape, Json.Rule.Holds, List.lookup_cons, List.lookup_append,
      Json.differs, hname] using And.intro hreserved hall
  | interface name methods =>
    have hall := (h.mono (List.subset_cons_self _ _) (List.Subset.refl _)).of_flatMap
    have hall (m) (hm : m ∈ methods) := hasShape_method (hall m hm)
    simpa [Declaration.toJson, Declaration.contents, Declaration.kindName, Shape.declaration,
      HasShape, Json.Rule.Holds, List.lookup_cons, Json.differs, hname] using hall
  | module name members =>
    have hall := (h.mono (List.subset_cons_self _ _) (List.Subset.refl _)).of_flatMap
    have hall (m) (hm : m ∈ members) := hasShape_member (hall m hm)
    simpa [Declaration.toJson, Declaration.contents, Declaration.kindName, Shape.declaration,
      HasShape, Json.Rule.Holds, List.lookup_cons, Json.differs, hname] using hall

/-- The JSON value of a package has the shape that packages are read from. -/
lemma hasShape_toJson {p : Package} (hname : Shape.isDotted p.name)
    (h : ∀ d ∈ p.declarations, Tidy d.names d.tags ∧ ∀ name, d ≠ .enum name []) :
    HasShape Shape.document p.toJson := by
  have hall (d) (hd : d ∈ p.declarations) := hasShape_declaration (h d hd).1 (h d hd).2
  simpa +contextual [toJson, Shape.document, HasShape, Json.Rule.Holds, List.lookup_cons, hname]
    using hall

/-! ## Reading what is written -/

lemma components_ofMembers (names : List String) (l : List (String × Json)) :
    components names (.ofMembers l) = .ok (names.map fun name => l.reverse.lookup name) := by
  rw [components_of_object rfl, funext (Json.member?_ofMembers l)]

lemma readTag_tagJson (t : Tag) : readTag (tagJson t) = .ok t := by
  rw [tagJson, readTag, Tag.ofInt?_eq_some_iff.mpr rfl]

lemma readLabelValue_int (n : IntKind.i32.Ranged) : readLabelValue (.int n.val) = .ok n := by
  rw [readLabelValue, IntKind.ofInt?_eq_some_iff.mpr rfl]

section

variable {α : Type} {f : α → Json} {read : Json → Read α}

lemma maybe_map (o : Option α) (hnull : ∀ a, f a ≠ .null) (h : ∀ a ∈ o, read (f a) = .ok a) :
    maybe read (o.map f) = .ok o := by
  cases o with
  | none => rfl
  | some a =>
    rw [Option.map_some, maybe, h a rfl]
    · rfl
    · exact hnull a

lemma readList_map {l : List α} (h : ∀ a ∈ l, read (f a) = .ok a) :
    readList read (.array (l.map f)) = .ok l := by
  rw [readList]
  induction l with
  | nil => rfl
  | cons a l ih =>
    rw [List.forall_mem_cons] at h
    rw [List.map_cons, List.mapM_cons, h.1, ih h.2]
    rfl

end

lemma readTags_reservedJson? (reserved : List Tag) :
    orElse [] (readList readTag) (reservedJson? reserved) = .ok reserved := by
  cases reserved with
  | nil => rfl
  | cons t reserved => exact readList_map fun t _ => readTag_tagJson t

lemma readBool_optionalJson? (isOptional : Bool) :
    orElse false readBool (optionalJson? isOptional) = .ok isOptional := by
  cases isOptional <;> rfl

lemma maybe_literal {literal : Option Json} (h : literal ≠ some .null) :
    maybe .ok literal = .ok literal := by
  cases literal with
  | none => rfl
  | some x => cases x <;> first | rfl | exact absurd rfl h

lemma maybe_tag (tag : Option Tag) : maybe readTag (tag.map tagJson) = .ok tag :=
  maybe_map tag (fun _ => by simp [tagJson]) fun t _ => readTag_tagJson t

lemma TypeExpr.read_toJson (e : TypeExpr) : readTypeExpr e.toJson = .ok e :=
  (spellsType_toJson e).read

lemma Label.read_toJson (l : Label) : readLabel l.toJson = .ok l := by
  have hvalue := maybe_map l.value (fun _ => by simp) fun n _ => readLabelValue_int n
  rw [readLabel, Label.toJson, components_ofMembers, Outcome.ok_bind]
  simp [List.lookup_cons, List.lookup_append, needed, readText, hvalue, Outcome.ok_bind]

lemma Variant.read_toJson (u : Variant) : readVariant u.toJson = .ok u := by
  rw [readVariant, Variant.toJson, components_ofMembers, Outcome.ok_bind]
  simp [List.lookup_cons, List.lookup_append, needed, readText, maybe_tag, TypeExpr.read_toJson,
    Outcome.ok_bind]

lemma Field.read_toJson {f : Field} (h : f.literal ≠ some .null) : readField f.toJson = .ok f := by
  rw [readField, Field.toJson, components_ofMembers, Outcome.ok_bind]
  simp [List.lookup_cons, List.lookup_append, needed, readText, maybe_tag, maybe_literal h,
    readBool_optionalJson?, TypeExpr.read_toJson, Outcome.ok_bind]

lemma readFields_fieldsJson {fields : List Field} (h : ∀ f ∈ fields, f.literal ≠ some .null) :
    readList readField (fieldsJson fields) = .ok fields :=
  readList_map fun f hf => Field.read_toJson (h f hf)

lemma Method.read_toJson {m : Method} (h : ∀ f ∈ m.parameters, f.literal ≠ some .null) :
    readMethod m.toJson = .ok m := by
  simp only [Method.parameters, List.forall_mem_append] at h
  obtain ⟨⟨hinput, houtput⟩, hfailure⟩ := h
  have readInput : orElse [] (readList readField) (some (fieldsJson m.input)) = .ok m.input :=
    readFields_fieldsJson hinput
  have readOutput := maybe_map (f := fieldsJson) m.output (fun _ => by simp [fieldsJson])
    fun l hl => readFields_fieldsJson (by simpa [show m.output = some l from hl] using houtput)
  have readFailure := maybe_map (f := fieldsJson) m.failure (fun _ => by simp [fieldsJson])
    fun l hl => readFields_fieldsJson (by simpa [show m.failure = some l from hl] using hfailure)
  rw [readMethod, Method.toJson, components_ofMembers, Outcome.ok_bind]
  simp [List.lookup_cons, List.lookup_append, needed, readText, maybe_tag, readInput, readOutput,
    readFailure, Outcome.ok_bind]

lemma Member.read_toJson (m : Member) : readMember m.toJson = .ok m := by
  rw [readMember, Member.toJson, components_ofMembers, Outcome.ok_bind]
  simp [List.lookup_cons, List.lookup_append, needed, readText, maybe_tag, Outcome.ok_bind]

lemma Declaration.read_toJson {d : Declaration} (h : ∀ f ∈ d.allFields, f.literal ≠ some .null) :
    readDeclaration d.toJson = .ok d := by
  have hkind : d.toJson.member? "kind" = some (.string d.kindName) := by
    cases d <;> simp [toJson, contents, List.lookup_cons, List.lookup_append]
  rw [readDeclaration, splitKind_of_object rfl hkind, Outcome.ok_bind]
  cases d with
  | enum name labels =>
    have readLabels := readList_map fun l (_ : l ∈ labels) => l.read_toJson
    simp [kindName, Declaration.toJson, contents, components_ofMembers, List.lookup_cons, needed,
      readText, readLabels, Outcome.ok_bind, Declaration.name]
  | union name variants reserved =>
    have readVariants := readList_map fun u (_ : u ∈ variants) => u.read_toJson
    simp [kindName, Declaration.toJson, contents, components_ofMembers, List.lookup_cons,
      List.lookup_append, needed, readText, readVariants, readTags_reservedJson?, Outcome.ok_bind,
      Declaration.name]
  | struct name fields reserved =>
    have readFields : orElse [] (readList readField) (some (fieldsJson fields)) = .ok fields :=
      readFields_fieldsJson h
    simp [kindName, Declaration.toJson, contents, components_ofMembers, List.lookup_cons,
      List.lookup_append, needed, readText, readFields, readTags_reservedJson?, Outcome.ok_bind,
      Declaration.name]
  | interface name methods =>
    have readMethods := readList_map fun m (hm : m ∈ methods) =>
      m.read_toJson fun f hf => h f (List.mem_flatMap.mpr ⟨m, hm, hf⟩)
    simp [kindName, Declaration.toJson, contents, components_ofMembers, List.lookup_cons, needed,
      readText, readMethods, Outcome.ok_bind, Declaration.name]
  | module name members =>
    have readMembers := readList_map fun m (_ : m ∈ members) => m.read_toJson
    simp [kindName, Declaration.toJson, contents, components_ofMembers, List.lookup_cons, needed,
      readText, readMembers, Outcome.ok_bind, Declaration.name]

/-- A package is read from its JSON value, if none of its literals is null. -/
theorem read_toJson {p : Package}
    (h : ∀ d ∈ p.declarations, ∀ f ∈ d.allFields, f.literal ≠ some .null) :
    ofJson p.toJson = .ok p := by
  have readDeclarations := readList_map fun d hd => Declaration.read_toJson (h d hd)
  rw [ofJson, toJson, components_ofMembers, Outcome.ok_bind]
  simp [List.lookup_cons, needed, readText, orElse, readDeclarations, Outcome.ok_bind]

/-! ## Loading what is written -/

lemma SpellsField.literal_ne_null {v : Json} {f : Field} (h : SpellsField v f) :
    f.literal ≠ some .null := by
  rw [← h.literal]
  cases v.member? "default" with
  | none => simp
  | some x => cases x <;> simp [literal?]

lemma SpellsList.literal_ne_null {v : Json} {fields : List Field}
    (h : SpellsList SpellsField v fields) : ∀ f ∈ fields, f.literal ≠ some .null :=
  h.forall_mem (Q := fun _ => True) (fun _ _ => trivial) fun _ _ _ hf => hf.literal_ne_null

/-- Null is read as no literal. -/
lemma SpellsDeclaration.literal_ne_null {v : Json} {d : Declaration} (h : SpellsDeclaration v d) :
    ∀ f ∈ d.allFields, f.literal ≠ some .null := by
  obtain ⟨-, -, hcontents⟩ := h
  cases hcontents with
  | enum | union | module => simp [Declaration.allFields]
  | struct object h hr => exact h.literal_ne_null
  | interface object h =>
    obtain ⟨x, -, hspells⟩ := h
    have hall := hspells.forall_mem (Q := fun _ => True) (fun _ _ => trivial) fun _ m _ hm =>
      List.forall_mem_append.mpr ⟨List.forall_mem_append.mpr ⟨hm.input.literal_ne_null,
        (SpellsList.of_rel hm.output).literal_ne_null⟩,
        (SpellsList.of_rel hm.failure).literal_ne_null⟩
    rintro f hf
    obtain ⟨m, hm, hf⟩ := List.mem_flatMap.mp hf
    exact hall m hm f hf

/-- **Writing a loaded package and loading it again changes nothing**, so the fingerprint stays
the same. To write the JSON value as text, and to read it from the text again, is the part of a
library; of a text it is only asked that this value is read from it. -/
theorem load_toJson {d : Json} {p : Package} (h : Json.violations Shape.document d = [])
    (hp : ofJson d = .ok p) :
    Json.violations Shape.document p.toJson = [] ∧ ofJson p.toJson = .ok p ∧
      ∀ format text, documentValue? format text = some p.toJson →
        load format text = .ok p ∧ ∀ q, load format text = .ok q →
          Schema.fingerprintOf q = Schema.fingerprintOf p ∧
            Schema.resolve q = Schema.resolve p := by
  have hshape := Json.violations_eq_nil_iff.mp h
  have hspells := (decided_ofJson hshape).of_ok hp
  have hname : Shape.isDotted p.name := by
    obtain ⟨-, -, -, hname, -⟩ := hshape
    exact (hname _ hspells.name).2.1 _ rfl
  have hwritten : Json.violations Shape.document p.toJson = [] :=
    Json.violations_eq_nil_iff.mpr (hasShape_toJson hname (tidy_declarations hspells hshape))
  have hread : ofJson p.toJson = .ok p :=
    read_toJson (hspells.declarations.forall_mem (Q := fun _ => True) (fun _ _ => trivial)
      fun _ _ _ hd => hd.literal_ne_null)
  refine ⟨hwritten, hread, fun format text htext => ?_⟩
  have hload : load format text = .ok p := by
    simp only [load, htext, hwritten, hread, Except.mapError]
  refine ⟨hload, fun q hq => ?_⟩
  obtain rfl : p = q := Except.ok.inj (hload.symm.trans hq)
  exact ⟨rfl, rfl⟩

/-- The package of a document with a null literal and a reserved tag. -/
def letterPackage : Package where
  name := "post.office"
  declarations := [.struct "Letter" [⟨"to", .array (.named "string"), false, some (.ofNat 1), none⟩]
    [.ofNat 7]]

/-- A text of the package, without the null literal. -/
def letterText : String :=
  "\x7b\"package\":\"post.office\",\"declarations\":[" ++
    "\x7b\"kind\":\"struct\",\"name\":\"Letter\"," ++
    "\"fields\":[\x7b\"name\":\"to\",\"type\":\x7b\"array\":\"string\"\x7d,\"tag\":1\x7d]," ++
    "\"reserved\":[7]\x7d]\x7d"

/-- The null literal of the document is not written again, and the package is loaded from the text
with its tag, its array and its reserved tag. -/
theorem load_toJson_letter :
    ofJson (letterDocument (.int 1)) = .ok letterPackage ∧
      ofJson letterPackage.toJson = .ok letterPackage ∧
      load .json letterText = .ok letterPackage := by
  have htag : HasShape Shape.tag (.int 1) := hasShape_tagJson (by decide : 0 < (Tag.ofNat 1).val)
  have hread : ofJson (letterDocument (.int 1)) = .ok letterPackage := by rfl
  obtain ⟨-, hagain, hload⟩ := load_toJson (violations_letterDocument htag) hread
  have hdocument : Json.Document.parse? letterText =
      some (.object [
        (some "package", .string (some "post.office")),
        (some "declarations", .array [.object [
          (some "kind", .string (some "struct")),
          (some "name", .string (some "Letter")),
          (some "fields", .array [.object [
            (some "name", .string (some "to")),
            (some "type", .object [(some "array", .string (some "string"))]),
            (some "tag", .number ⟨false, [1], none, none⟩)]]),
          (some "reserved", .array [.number ⟨false, [7], none, none⟩])]])]) := by cbv
  refine ⟨hread, hagain, (hload .json _ ?_).1⟩
  rw [documentValue?, Json.parse?, hdocument]
  rfl

end Package

end SchemaRpc
