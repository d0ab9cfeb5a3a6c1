/-
# What the shape of documents grants

A document of the shape of a package spells out a package whose names are identifiers, whose tags
are not zero and whose enums have labels.  `ofJson_of_shape` puts this together with the reader:
the shape leaves only one reason for a failure.
-/
import SchemaRpc.Proofs.Package.Reading

namespace SchemaRpc

namespace Package

open Json (FloatAt HasShape)

/-! ## Names and tags -/

/-- The names that a field has or mentions. -/
def Field.names (f : Field) : List String := [f.name, f.type.base]

/-- The tag of a field, if one is given. -/
def Field.tags (f : Field) : List Tag := f.tag.toList

/-- The parameters of a method in all directions. -/
def Method.parameters (m : Method) : List Field :=
  m.input ++ m.output.getD [] ++ m.failure.getD []

/-- The names that a method and its parameters have or mention. -/
def Method.names (m : Method) : List String := m.name :: m.parameters.flatMap Field.names

/-- The tags given in a method. -/
def Method.tags (m : Method) : List Tag := m.tag.toList ++ m.parameters.flatMap Field.tags

/-- The names that a declaration and its parts have or mention. -/
def Declaration.names : Declaration → List String
  | .enum name labels => name :: labels.map (·.name)
  | .union name variants _ => name :: variants.flatMap fun u => [u.name, u.type.base]
  | .struct name fields _ => name :: fields.flatMap Field.names
  | .interface name methods => name :: methods.flatMap Method.names
  | .module name members => name :: members.flatMap fun m => [m.name, m.interface]

/-- The tags given or reserved in a declaration. -/
def Declaration.tags : Declaration → List Tag
  | .enum _ _ => []
  | .union _ variants reserved => variants.flatMap (·.tag.toList) ++ reserved
  | .struct _ fields reserved => fields.flatMap Field.tags ++ reserved
  | .interface _ methods => methods.flatMap Method.tags
  | .module _ members => members.flatMap (·.tag.toList)

/-- The names are identifiers and the tags are not zero. -/
structure Tidy (names : List String) (tags : List Tag) : Prop where
  names : ∀ n ∈ names, Shape.isIdentifier n
  tags : ∀ t ∈ tags, 0 < t.val

lemma Tidy.append {names names' : List String} {tags tags' : List Tag} (h : Tidy names tags)
    (h' : Tidy names' tags') : Tidy (names ++ names') (tags ++ tags') :=
  ⟨List.forall_mem_append.mpr ⟨h.names, h'.names⟩, List.forall_mem_append.mpr ⟨h.tags, h'.tags⟩⟩

lemma Tidy.mono {names names' : List String} {tags tags' : List Tag} (h : Tidy names tags)
    (hnames : names' ⊆ names) (htags : tags' ⊆ tags) : Tidy names' tags' :=
  ⟨fun n hn => h.names n (hnames hn), fun t ht => h.tags t (htags ht)⟩

lemma Tidy.of_flatMap {α : Type} {names : α → List String} {tags : α → List Tag} {l : List α}
    (h : Tidy (l.flatMap names) (l.flatMap tags)) : ∀ a ∈ l, Tidy (names a) (tags a) := fun a ha =>
  ⟨fun n hn => h.names n (List.mem_flatMap.mpr ⟨a, ha, hn⟩),
    fun t ht => h.tags t (List.mem_flatMap.mpr ⟨a, ha, ht⟩)⟩

lemma Tidy.flatMap {α : Type} {names : α → List String} {tags : α → List Tag} {l : List α}
    (h : ∀ a ∈ l, Tidy (names a) (tags a)) : Tidy (l.flatMap names) (l.flatMap tags) := by
  constructor
  · rintro n hn
    obtain ⟨a, ha, hn⟩ := List.mem_flatMap.mp hn
    exact (h a ha).names n hn
  · rintro t ht
    obtain ⟨a, ha, ht⟩ := List.mem_flatMap.mp ht
    exact (h a ha).tags t ht

section

variable {v : Json} {c : Option Json}

lemma tidy_name {name : String} (h : c = some (.string name))
    (hshape : ∀ x ∈ c, HasShape [.ref Shape.identifier] x) : Tidy [name] [] := by
  have hname : Shape.isIdentifier name := (hshape _ h).1.2.1 name rfl
  exact ⟨by simpa using hname, by simp⟩

lemma tidy_type {e : TypeExpr} (h : ∃ x, c = some x ∧ SpellsType x e)
    (hshape : ∀ x ∈ c, HasShape [.ref Shape.typeExpr] x) : Tidy [e.base] [] := by
  obtain ⟨x, hx, he⟩ := h
  have hbase : Shape.isIdentifier e.base := he.isTypeExpr_iff.mp (hshape x hx).1.1
  exact ⟨by simpa using hbase, by simp⟩

lemma pos_of_hasShape {t : Tag} (h : HasShape Shape.tag (tagJson t)) : 0 < t.val := by
  obtain ⟨-, hleast, -⟩ := h
  simp only [Json.Rule.Holds, tagJson, Json.isBelow, decide_eq_true_eq, not_lt] at hleast
  omega

lemma tidy_tag {tag : Option Tag} (h : c = tag.map tagJson)
    (hshape : ∀ x ∈ c, HasShape [.ref Shape.tag] x) : Tidy [] tag.toList := by
  refine ⟨by simp, fun t ht => pos_of_hasShape (hshape _ ?_).1⟩
  rw [h, Option.mem_toList.mp ht]
  rfl

lemma tidy_reserved {reserved : List Tag}
    (h : c.getD (.array []) = .array (reserved.map tagJson))
    (hshape : ∀ x ∈ c, HasShape [.ref Shape.reserved] x) : Tidy [] reserved := by
  refine ⟨by simp, fun t ht => ?_⟩
  cases c with
  | none => simp_all
  | some x =>
    obtain rfl : x = _ := h
    exact pos_of_hasShape ((hshape _ rfl).1.2.1 _ (List.mem_map_of_mem ht)).1

lemma tidy_field {f : Field} (h : SpellsField v f) (hshape : HasShape Shape.field v) :
    Tidy f.names f.tags := by
  obtain ⟨-, -, -, hname, htype, -, htag, -⟩ := hshape
  exact (tidy_name h.name hname).append ((tidy_type h.type htype).append (tidy_tag h.tag htag))

lemma tidy_fields {fields : List Field} (h : SpellsList SpellsField (c.getD (.array [])) fields)
    (hshape : ∀ x ∈ c, HasShape [.ref Shape.fieldList] x) :
    Tidy (fields.flatMap Field.names) (fields.flatMap Field.tags) := by
  refine .flatMap (h.forall_mem (Q := HasShape Shape.field) ?_ fun y f hy hf => tidy_field hf hy)
  cases c with
  | none => exact fun y hy => nomatch hy
  | some x => exact fun y hy => ((hshape x rfl).1.2.1 y hy).1

lemma tidy_method {m : Method} (h : SpellsMethod v m) (hshape : HasShape Shape.method v) :
    Tidy m.names m.tags := by
  obtain ⟨-, -, -, hname, htag, hinput, houtput, hfailure, -⟩ := hshape
  have parameters : Tidy (m.parameters.flatMap Field.names) (m.parameters.flatMap Field.tags) := by
    simp only [Method.parameters, List.flatMap_append]
    exact ((tidy_fields h.input hinput).append (tidy_fields (.of_rel h.output) houtput)).append
      (tidy_fields (.of_rel h.failure) hfailure)
  exact (tidy_name h.name hname).append ((tidy_tag h.tag htag).append parameters)

lemma tidy_label {l : Label} (h : SpellsLabel v l) (hshape : HasShape Shape.label v) :
    Shape.isIdentifier l.name := by
  obtain ⟨-, -, -, hname, -⟩ := hshape
  exact (tidy_name h.name hname).names _ (by simp)

lemma tidy_variant {u : Variant} (h : SpellsVariant v u) (hshape : HasShape Shape.variant v) :
    Tidy [u.name, u.type.base] u.tag.toList := by
  obtain ⟨-, -, -, hname, htype, htag, -⟩ := hshape
  exact (tidy_name h.name hname).append ((tidy_type h.type htype).append (tidy_tag h.tag htag))

lemma tidy_member {m : Member} (h : SpellsMember v m) (hshape : HasShape Shape.member v) :
    Tidy [m.name, m.interface] m.tag.toList := by
  obtain ⟨-, -, -, hname, hinterface, htag, -⟩ := hshape
  exact (tidy_name h.name hname).append
    ((tidy_name h.interface hinterface).append (tidy_tag h.tag htag))

/-- What the shape grants to a declaration. -/
lemma tidy_declaration {d : Declaration} (h : SpellsDeclaration v d)
    (hshape : HasShape Shape.declaration v) :
    Tidy d.names d.tags ∧ ∀ name, d ≠ .enum name [] := by
  obtain ⟨-, -, -, hname, henum, hunion, hstruct, hinterface, hmodule, -⟩ := hshape
  obtain ⟨hkind, hdeclared, hcontents⟩ := h
  have hsame : ¬ v.differs "kind" d.kindName := by simp [Json.differs, hkind]
  have declared := tidy_name hdeclared hname
  cases hcontents with
  | @enum name labels object h =>
    obtain ⟨-, -, hlabels, -⟩ := henum hsame
    obtain ⟨x, hx, hspells⟩ := h
    obtain ⟨harray, hnonempty, hitems, -⟩ := hlabels x hx
    have hall := hspells.forall_mem hitems fun y l hy hl => tidy_label hl hy
    refine ⟨declared.append ⟨by simpa using hall, by simp⟩, ?_⟩
    rintro - ⟨⟩
    obtain ⟨items, rfl, hforall⟩ := hspells
    cases hforall
    simp [Json.Rule.Holds, Json.elements, Json.Kind.admits] at hnonempty
  | @union name variants reserved object h hr =>
    obtain ⟨-, -, hreserved, hvariants, -⟩ := hunion hsame
    obtain ⟨x, hx, hspells⟩ := h
    have hall := hspells.forall_mem (hvariants x hx).2.1 fun y u hy hu => tidy_variant hu hy
    have contents := (Tidy.flatMap hall).append (tidy_reserved hr hreserved)
    rw [List.append_nil] at contents
    exact ⟨declared.append contents, by simp⟩
  | @struct name fields reserved object h hr =>
    obtain ⟨-, hreserved, hfields, -⟩ := hstruct hsame
    have contents := (tidy_fields h hfields).append (tidy_reserved hr hreserved)
    rw [List.append_nil] at contents
    exact ⟨declared.append contents, by simp⟩
  | interface object h =>
    obtain ⟨-, -, hmethods, -⟩ := hinterface hsame
    obtain ⟨x, hx, hspells⟩ := h
    have hall := hspells.forall_mem (hmethods x hx).2.1 fun y m hy hm => tidy_method hm hy
    exact ⟨declared.append (.flatMap hall), by simp⟩
  | module object h =>
    obtain ⟨-, -, hmembers, -⟩ := hmodule hsame
    obtain ⟨x, hx, hspells⟩ := h
    have hall := hspells.forall_mem (hmembers x hx).2.1 fun y m hy hm => tidy_member hm hy
    exact ⟨declared.append (.flatMap hall), by simp⟩

end

/-- The names that a package declares or mentions. -/
def names (p : Package) : List String := p.declarations.flatMap Declaration.names

/-- The tags that a package gives or reserves. -/
def tags (p : Package) : List Tag := p.declarations.flatMap Declaration.tags

lemma tidy_declarations {v : Json} {p : Package} (h : Spells v p)
    (hshape : HasShape Shape.document v) :
    ∀ d ∈ p.declarations, Tidy d.names d.tags ∧ ∀ name, d ≠ .enum name [] := by
  obtain ⟨-, -, -, -, hdeclarations, -⟩ := hshape
  refine h.declarations.forall_mem (Q := HasShape Shape.declaration) ?_ fun y d hy hd =>
    tidy_declaration hd hy
  cases hd : v.member? "declarations" with
  | none => exact fun y hy => nomatch hy
  | some x => exact fun y hy => ((hdeclarations x hd).2.1 y hy).1

/-- A text without dots is what an identifier is, among other things. -/
lemma dot_notMem_of_isIdentifier {text : String} (h : Shape.isIdentifier text) :
    '.' ∉ text.toList := by
  unfold Shape.isIdentifier at h
  cases hchars : text.toList with
  | nil => simp
  | cons c rest =>
    rw [hchars, Shape.isIdentifierChars, Bool.and_eq_true, List.all_eq_true] at h
    rintro hdot
    rcases List.mem_cons.mp hdot with rfl | hdot
    · exact absurd h.1 (by decide)
    · exact absurd (h.2 '.' hdot) (by decide)

/-- **The shape and the reader of packages agree.** -/
theorem ofJson_of_shape {d : Json} (h : Json.violations Shape.document d = []) :
    ((∃ e, ofJson d = .error e) ↔ FloatAt documentNumbers d) ∧
      ∀ p, ofJson d = .ok p → Spells d p ∧
        (∀ n ∈ p.names, Shape.isIdentifier n ∧ '.' ∉ n.toList) ∧
        (∀ t ∈ p.tags, 1 ≤ t.val ∧ t.val ≤ 65535) ∧
        ∀ name labels, .enum name labels ∈ p.declarations → labels ≠ [] := by
  have hshape := Json.violations_eq_nil_iff.mp h
  have hread := decided_ofJson hshape
  refine ⟨hread.error_iff, fun p hp => ?_⟩
  have hspells := hread.of_ok hp
  have hall := tidy_declarations hspells hshape
  have htidy : Tidy p.names p.tags := .flatMap fun d hd => (hall d hd).1
  refine ⟨hspells, fun n hn => ?_, fun t ht => ?_, ?_⟩
  · exact ⟨htidy.names n hn, dot_notMem_of_isIdentifier (htidy.names n hn)⟩
  · exact ⟨htidy.tags t ht, by omega⟩
  · rintro name labels hd rfl
    exact (hall _ hd).2 name rfl

/-- A document with one struct, which reserves a tag and has a field with the given tag. -/
def letterDocument (tag : Json) : Json :=
  .ofMembers [("package", .string "post.office"), ("declarations", .array [.ofMembers [
    ("kind", .string "struct"), ("name", .string "Letter"), ("reserved", .array [.int 7]),
    ("fields", .array [.ofMembers [("name", .string "to"),
      ("type", .ofMembers [("array", .string "string")]), ("tag", tag), ("default", .null)]])]])]

lemma violations_letterDocument {tag : Json} (h : HasShape Shape.tag tag) :
    Json.violations Shape.document (letterDocument tag) = [] := by
  have hnames : Shape.isDotted "post.office" ∧ Shape.isIdentifier "Letter" ∧
      Shape.isIdentifier "to" := by decide
  have htype : Shape.isTypeExpr (.ofMembers [("array", .string "string")]) := by rfl
  have hreserved : HasShape Shape.tag (.int 7) := by
    simp [Shape.tag, HasShape, Json.Rule.Holds, Json.Kind.admits, Json.isBelow, Json.isAbove]
  rw [Json.violations_eq_nil_iff]
  simp [letterDocument, Shape.document, Shape.declaration, Shape.identifier, Shape.reserved,
    Shape.fieldList, Shape.field, Shape.typeExpr, HasShape, Json.Rule.Holds, List.lookup_cons,
    Json.differs, h, hreserved, hnames, htype]

lemma floatAt_letterDocument {tag : Json} :
    FloatAt documentNumbers (letterDocument tag) ↔ tag.IsWholeFloat := by
  simp [letterDocument, documentNumbers, Json.floatAt_under_items, floatAt_declarationNumbers,
    fieldNumbers, Json.floatAt_member, List.lookup_cons, Json.IsWholeFloat]

/-- The tag one as an integer is read, and as a floating-point number it is not, although both
documents have the shape. -/
theorem ofJson_of_shape_letter :
    (∃ p, ofJson (letterDocument (.int 1)) = .ok p ∧ ∀ t ∈ p.tags, 1 ≤ t.val) ∧
      ∃ e, ofJson (letterDocument (.float ⟨0x3ff0000000000000⟩)) = .error e := by
  have hint : HasShape Shape.tag (.int 1) := by
    simp [Shape.tag, HasShape, Json.Rule.Holds, Json.Kind.admits, Json.isBelow, Json.isAbove]
  have hfloat : HasShape Shape.tag (.float ⟨0x3ff0000000000000⟩) := by
    simp [Shape.tag, HasShape, Json.Rule.Holds, Json.Kind.admits, Json.isBelow, Json.isAbove]
    decide
  obtain ⟨hfails, hgrants⟩ := ofJson_of_shape (violations_letterDocument hint)
  constructor
  · cases hread : ofJson (letterDocument (.int 1)) with
    | error e =>
      obtain ⟨_, _, ⟨⟩, -⟩ := floatAt_letterDocument.mp (hfails.mp ⟨e, hread⟩)
    | ok p => exact ⟨p, rfl, fun t ht => ((hgrants p hread).2.2.1 t ht).1⟩
  · refine (ofJson_of_shape (violations_letterDocument hfloat)).1.mpr ?_
    exact floatAt_letterDocument.mpr ⟨_, 1, rfl, by decide⟩

end Package

end SchemaRpc
