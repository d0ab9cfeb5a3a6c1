/-
# Reading documents that have the shape of a package

The shape of package documents and the reader of packages describe one format.  A document of
the shape is read unless it holds a tag, a reserved tag or the value of a label as a
floating-point number, which the shape lets pass if it is whole; what is read is the package that
the document spells out.

`Decided` says of the outcome of reading when it is a failure and what else it is.  There is one
lemma for each part of a package, and `decided_ofJson` is the result for documents.
-/
import SchemaRpc.Package.Reader
import SchemaRpc.Proofs.Outcome
import SchemaRpc.Proofs.Package.Spelling

namespace SchemaRpc

lemma Tag.ofInt?_eq_some_iff {n : Int} {t : Tag} : Tag.ofInt? n = some t ↔ n = t.val := by
  unfold Tag.ofInt?
  constructor
  · intro h
    split at h
    · cases h
    · split at h
      · cases h
        simp only
        omega
      · cases h
  · rintro rfl
    rw [if_neg (by omega), dif_pos (by omega)]
    rfl

namespace Package

open Json (FloatAt HasShape IsWholeFloat Step under)

/-! ## Outcomes of reading -/

/-- The outcome of reading is a failure just if `fails` is so, and else has the property. -/
inductive Decided {α : Type} (fails : Prop) (P : α → Prop) : Read α → Prop where
  | ok {a : α} (h : P a) (hf : ¬ fails) : Decided fails P (.ok a)
  | error {e : ReadError} (hf : fails) : Decided fails P (.error e)

namespace Decided

variable {α β : Type} {F G : Prop} {P : α → Prop} {Q : β → Prop} {outcome : Read α}

lemma error_iff (h : Decided F P outcome) : (∃ e, outcome = .error e) ↔ F := by
  cases h with
  | ok h hf => simp [hf]
  | error hf => simp [hf]

lemma of_ok (h : Decided F P outcome) {a : α} (ha : outcome = .ok a) : P a := by
  subst ha
  cases h with
  | ok h hf => exact h

lemma imp {P' : α → Prop} (h : Decided F P outcome) (hP : ∀ a, P a → P' a) :
    Decided F P' outcome := by
  cases h with
  | ok h hf => exact .ok (hP _ h) hf
  | error hf => exact .error hf

lemma congr (h : Decided F P outcome) (hFG : F ↔ G) : Decided G P outcome := by
  cases h with
  | ok h hf => exact .ok h (hFG.not.mp hf)
  | error hf => exact .error (hFG.mp hf)

/-- A sequence fails if one of its steps does. -/
lemma bind {f : α → Read β} (h : Decided F P outcome) (hf : ∀ a, P a → Decided G Q (f a)) :
    Decided (F ∨ G) Q (outcome >>= f) := by
  cases h with
  | @ok a h hF =>
    show Decided (F ∨ G) Q (f a)
    exact (hf a h).congr (or_iff_right hF).symm
  | error hF => exact .error (.inl hF)

lemma pure {a : α} (h : P a) : Decided False P (Pure.pure a : Read α) := .ok h id

lemma map {f : α → β} (h : Decided F P outcome) (hf : ∀ a, P a → Q (f a)) :
    Decided F Q (outcome.map f) := by
  cases h with
  | ok h hF => exact .ok (hf _ h) hF
  | error hF => exact .error hF

end Decided

/-! ## Reading the parts of a package -/

section

variable {v : Json} {c : Option Json}

lemma components_of_object (h : Json.Kind.object.admits v) (names : List String) :
    components names v = .ok (names.map v.member?) := by
  cases v with
  | object members => rfl
  | _ => cases h

lemma decided_text (hsome : c.isSome) (h : ∀ x ∈ c, Json.Kind.string.admits x) :
    Decided False (fun t => c = some (.string t)) (needed readText c) := by
  obtain ⟨x, rfl⟩ := Option.isSome_iff_exists.mp hsome
  have hx := h x rfl
  cases x with
  | string t => exact .ok rfl id
  | _ => cases hx

lemma decided_optional (h : ∀ x ∈ c, Json.Kind.boolean.admits x) :
    Decided False (fun b => c.getD (.bool false) = .bool b) (orElse false readBool c) := by
  cases c with
  | none => exact .ok rfl id
  | some x =>
    have hx := h x rfl
    cases x with
    | bool b => exact .ok rfl id
    | _ => cases hx

lemma decided_literal : Decided False (fun l => c.bind literal? = l) (maybe .ok c) := by
  cases c with
  | none => exact .ok rfl id
  | some x => cases x <;> exact .ok rfl id

section

variable {α : Type} {read : Json → Read α} {F : Json → Prop} {P : Json → α → Prop}

lemma decided_needed (hsome : c.isSome) (h : ∀ x ∈ c, Decided (F x) (P x) (read x)) :
    Decided (∃ x ∈ c, F x) (fun a => ∃ x, c = some x ∧ P x a) (needed read c) := by
  obtain ⟨x, rfl⟩ := Option.isSome_iff_exists.mp hsome
  refine ((h x rfl).imp fun a ha => ?_).congr ?_
  · exact ⟨x, rfl, ha⟩
  · simp

/-- What may be null is left out then, so a part that is read may not be null. -/
lemma decided_maybe (hnull : ∀ x ∈ c, x ≠ .null) (h : ∀ x ∈ c, Decided (F x) (P x) (read x)) :
    Decided (∃ x ∈ c, F x) (Option.Rel P c) (maybe read c) := by
  cases c with
  | none => exact .ok .none (by simp)
  | some x =>
    have hread : maybe read (some x) = (read x).map some := by
      rw [maybe]
      exact hnull x rfl
    rw [hread]
    refine ((h x rfl).map fun a ha => ?_).congr ?_
    · exact .some ha
    · simp

lemma decided_mapM {items : List Json} (h : ∀ x ∈ items, Decided (F x) (P x) (read x)) :
    Decided (∃ x ∈ items, F x) (List.Forall₂ P items) (items.mapM read) := by
  induction items with
  | nil => exact .ok .nil (by simp)
  | cons x items ih =>
    rw [List.forall_mem_cons] at h
    rw [List.mapM_cons]
    refine (h.1.bind fun a ha => (ih h.2).bind fun l hl => .pure ?_).congr ?_
    · exact .cons ha hl
    · simp

lemma decided_readList {x : Json} (harray : Json.Kind.array.admits x)
    (h : ∀ y ∈ x.elements, Decided (F y) (P y) (read y)) :
    Decided (∃ y ∈ x.elements, F y) (SpellsList P x) (readList read x) := by
  cases x with
  | array items => exact (decided_mapM h).imp fun l hl => ⟨items, rfl, hl⟩
  | _ => cases harray

lemma decided_orElse {plain : α} {x₀ : Json} (hplain : P x₀ plain)
    (h : ∀ x ∈ c, Decided (F x) (P x) (read x)) :
    Decided (∃ x ∈ c, F x) (P (c.getD x₀)) (orElse plain read c) := by
  cases c with
  | none => exact .ok hplain (by simp)
  | some x => exact (h x rfl).congr (by simp)

end

/-! ### Numbers -/

lemma decided_readTag {x : Json} (h : HasShape Shape.tag x) :
    Decided x.IsWholeFloat (fun t => x = tagJson t) (readTag x) := by
  obtain ⟨hinteger, hleast, hgreatest, -⟩ := h
  cases x with
  | int n =>
    have hn : Tag.ofInt? n = some ⟨n.toNat, by
        simp [Json.Rule.Holds, Json.isBelow, Json.isAbove] at hleast hgreatest; omega⟩ := by
      rw [Tag.ofInt?_eq_some_iff]
      simp [Json.Rule.Holds, Json.isBelow] at hleast
      simp only
      omega
    rw [readTag, hn]
    exact .ok (congrArg Json.int (Tag.ofInt?_eq_some_iff.mp hn)) (by simp [IsWholeFloat])
  | float y =>
    obtain ⟨n, hn⟩ := Option.isSome_iff_exists.mp hinteger
    exact .error ⟨y, n, rfl, hn⟩
  | _ => cases hinteger

lemma decided_readLabelValue {x : Json} (h : HasShape
    [.type .integer, .minimum (-2147483648), .maximum 2147483647] x) :
    Decided x.IsWholeFloat (fun n => x = .int n.val) (readLabelValue x) := by
  obtain ⟨hinteger, hleast, hgreatest, -⟩ := h
  cases x with
  | int n =>
    have hholds : IntKind.i32.Holds n := by
      simp only [Json.Rule.Holds, Json.isBelow, Json.isAbove, decide_eq_true_eq, not_lt]
        at hleast hgreatest
      exact ⟨hleast, hgreatest⟩
    have hn : IntKind.i32.ofInt? n = some ⟨n, hholds⟩ := IntKind.ofInt?_eq_some_iff.mpr rfl
    rw [readLabelValue, hn]
    exact .ok rfl (by simp [IsWholeFloat])
  | float y =>
    obtain ⟨n, hn⟩ := Option.isSome_iff_exists.mp hinteger
    exact .error ⟨y, n, rfl, hn⟩
  | _ => cases hinteger

/-- Values of a shape that asks for an integer are not null. -/
lemma ne_null_of_integer {x : Json} {more : List Json.Rule}
    (h : HasShape (.type .integer :: more) x) : x ≠ .null := by
  rintro rfl
  cases h.1

lemma eq_map_of_rel {α : Type} {f : α → Json} {o : Option α}
    (h : Option.Rel (fun x a => x = f a) c o) : c = o.map f := by
  cases h with
  | none => rfl
  | some h => exact congrArg some h

lemma decided_tag (h : ∀ x ∈ c, HasShape Shape.tag x) :
    Decided (∃ x ∈ c, x.IsWholeFloat) (fun t => c = t.map tagJson) (maybe readTag c) :=
  (decided_maybe (fun x hx => ne_null_of_integer (h x hx)) fun x hx =>
    decided_readTag (h x hx)).imp fun _ => eq_map_of_rel

lemma decided_labelValue
    (h : ∀ x ∈ c, HasShape [.type .integer, .minimum (-2147483648), .maximum 2147483647] x) :
    Decided (∃ x ∈ c, x.IsWholeFloat) (fun n => c = n.map fun n => .int n.val)
      (maybe readLabelValue c) :=
  (decided_maybe (fun x hx => ne_null_of_integer (h x hx)) fun x hx =>
    decided_readLabelValue (h x hx)).imp fun _ => eq_map_of_rel

/-! ### Types -/

lemma readArrayItem_eq : {floor : Option String} → (members : Ascending String Json floor) →
    readArrayItem members = needed readTypeExpr (members.find? "array")
  | _, .nil => rfl
  | _, .cons name _ item more => by
    rw [readArrayItem, Ascending.find?_cons, readArrayItem_eq more]
    by_cases hname : name = "array"
    · rw [if_pos hname, if_pos hname.symm, needed]
    · rw [if_neg hname, if_neg (Ne.symm hname)]

lemma SpellsType.read {x : Json} {e : TypeExpr} (h : SpellsType x e) : readTypeExpr x = .ok e := by
  induction h with
  | named name => rfl
  | @array v item e object h he ih =>
    cases v with
    | object members =>
      rw [readTypeExpr, readArrayItem_eq, show members.find? "array" = _ from h, needed, ih]
      rfl
    | _ => cases object.object

lemma decided_readTypeExpr {x : Json} (h : HasShape Shape.typeExpr x) :
    Decided False (SpellsType x) (readTypeExpr x) := by
  obtain ⟨e, he⟩ := exists_spellsType x h.1
  rw [he.read]
  exact .ok he id

lemma decided_type (hsome : c.isSome) (h : ∀ x ∈ c, HasShape Shape.typeExpr x) :
    Decided False (fun e => ∃ x, c = some x ∧ SpellsType x e) (needed readTypeExpr c) :=
  (decided_needed hsome fun x hx => decided_readTypeExpr (h x hx)).congr (by simp)

end

/-! ### Members -/

section

variable {v : Json}

lemma decided_readLabel (h : HasShape Shape.label v) :
    Decided (FloatAt [[.member "value"]] v) (SpellsLabel v) (readLabel v) := by
  obtain ⟨hobject, hrequired, honly, hname, hvalue, -⟩ := h
  rw [readLabel, components_of_object hobject]
  have readName := decided_text (hrequired hobject "label" (by simp)) fun x hx => (hname x hx).1.1
  have readValue := decided_labelValue hvalue
  refine (readName.bind fun name hname => readValue.bind fun value hvalue => .pure ?_).congr ?_
  · exact ⟨⟨hobject, honly⟩, hname, hvalue⟩
  · simp [Json.floatAt_member]

lemma decided_readVariant (h : HasShape Shape.variant v) :
    Decided (FloatAt [[.member "tag"]] v) (SpellsVariant v) (readVariant v) := by
  obtain ⟨hobject, hrequired, honly, hname, htype, htag, -⟩ := h
  rw [readVariant, components_of_object hobject]
  have readName := decided_text (hrequired hobject "name" (by simp)) fun x hx => (hname x hx).1.1
  have readType := decided_type (hrequired hobject "type" (by simp)) fun x hx => (htype x hx).1
  have readTag := decided_tag fun x hx => (htag x hx).1
  refine (readName.bind fun name hname => readTag.bind fun tag htag =>
    readType.bind fun type htype => .pure ?_).congr ?_
  · exact ⟨⟨hobject, honly⟩, hname, htype, htag⟩
  · simp [Json.floatAt_member]

lemma decided_readField (h : HasShape Shape.field v) :
    Decided (FloatAt fieldNumbers v) (SpellsField v) (readField v) := by
  obtain ⟨hobject, hrequired, honly, hname, htype, hoptional, htag, -⟩ := h
  rw [readField, components_of_object hobject]
  have readName := decided_text (hrequired hobject "name" (by simp)) fun x hx => (hname x hx).1.1
  have readType := decided_type (hrequired hobject "type" (by simp)) fun x hx => (htype x hx).1
  have readMark := decided_optional fun x hx => (hoptional x hx).1
  have readTag := decided_tag fun x hx => (htag x hx).1
  refine (decided_literal.bind fun literal hliteral => readName.bind fun name hname =>
    readMark.bind fun optional hoptional => readTag.bind fun tag htag =>
      readType.bind fun type htype => .pure ?_).congr ?_
  · exact ⟨⟨hobject, honly⟩, hname, htype, hoptional, htag, hliteral⟩
  · simp [fieldNumbers, Json.floatAt_member]

lemma decided_readFields {x : Json} (h : HasShape Shape.fieldList x) :
    Decided (∃ y ∈ x.elements, FloatAt fieldNumbers y) (SpellsList SpellsField x)
      (readList readField x) :=
  decided_readList h.1 fun y hy => decided_readField (h.2.1 y hy).1

lemma decided_readMethod (h : HasShape Shape.method v) :
    Decided (FloatAt methodNumbers v) (SpellsMethod v) (readMethod v) := by
  obtain ⟨hobject, hrequired, honly, hname, htag, hinput, houtput, hfailure, -⟩ := h
  rw [readMethod, components_of_object hobject]
  have hnull {name : String} (h : ∀ x ∈ v.member? name, HasShape [.ref Shape.fieldList] x) :
      ∀ x ∈ v.member? name, x ≠ .null := by
    rintro x hx rfl
    cases (h _ hx).1.1
  have readInput := decided_orElse (spellsList_nil SpellsField) fun x hx =>
    decided_readFields (hinput x hx).1
  have readName := decided_text (hrequired hobject "name" (by simp)) fun x hx => (hname x hx).1.1
  have readOutput := decided_maybe (hnull houtput) fun x hx => decided_readFields (houtput x hx).1
  have readTag := decided_tag fun x hx => (htag x hx).1
  have readFailure := decided_maybe (hnull hfailure) fun x hx =>
    decided_readFields (hfailure x hx).1
  refine (readInput.bind fun input hinput => readName.bind fun name hname =>
    readOutput.bind fun output houtput => readTag.bind fun tag htag =>
      readFailure.bind fun failure hfailure => .pure ?_).congr ?_
  · exact ⟨⟨hobject, honly⟩, hname, htag, hinput, houtput, hfailure⟩
  · simp only [methodNumbers, Json.floatAt_append, Json.floatAt_member, Json.floatAt_under_items]
    grind

lemma decided_readMember (h : HasShape Shape.member v) :
    Decided (FloatAt [[.member "tag"]] v) (SpellsMember v) (readMember v) := by
  obtain ⟨hobject, hrequired, honly, hname, hinterface, htag, -⟩ := h
  rw [readMember, components_of_object hobject]
  have readName := decided_text (hrequired hobject "name" (by simp)) fun x hx => (hname x hx).1.1
  have readInterface := decided_text (hrequired hobject "interface" (by simp)) fun x hx =>
    (hinterface x hx).1.1
  have readTag := decided_tag fun x hx => (htag x hx).1
  refine (readName.bind fun name hname => readInterface.bind fun interface hinterface =>
    readTag.bind fun tag htag => .pure ?_).congr ?_
  · exact ⟨⟨hobject, honly⟩, hname, hinterface, htag⟩
  · simp [Json.floatAt_member]

end

/-! ### Declarations -/

section

variable {v : Json} {c : Option Json}

lemma eq_array_of_spellsList {α : Type} {f : α → Json} {l : List α}
    (h : SpellsList (fun x a => x = f a) v l) : v = .array (l.map f) := by
  obtain ⟨items, rfl, hitems⟩ := h
  have hall : List.Forall₂ Eq items (l.map f) := List.forall₂_map_right_iff.mpr hitems
  rw [List.forall₂_eq_eq_eq] at hall
  rw [hall]

lemma decided_reserved (h : ∀ x ∈ c, HasShape Shape.reserved x) :
    Decided (∃ x ∈ c, ∃ y ∈ x.elements, y.IsWholeFloat)
      (fun reserved => c.getD (.array []) = .array (reserved.map tagJson))
      (orElse [] (readList readTag) c) :=
  (decided_orElse (spellsList_nil fun x t => x = tagJson t) fun x hx =>
    decided_readList (h x hx).1 fun y hy => decided_readTag ((h x hx).2.1 y hy).1).imp
      fun _ => eq_array_of_spellsList

lemma splitKind_of_object {kind : String} (hobject : Json.Kind.object.admits v)
    (hkind : v.member? "kind" = some (.string kind)) : splitKind v = .ok (kind, v) := by
  cases v with
  | object members =>
    rw [splitKind, show members.find? "kind" = _ from hkind]
    rfl
  | _ => cases hobject

lemma floatAt_declarationNumbers :
    FloatAt declarationNumbers v ↔
      (∃ x ∈ v.member? "values", ∃ y ∈ x.elements, FloatAt [[.member "value"]] y) ∨
      (∃ x ∈ v.member? "variants", ∃ y ∈ x.elements, FloatAt [[.member "tag"]] y) ∨
      (∃ x ∈ v.member? "reserved", ∃ y ∈ x.elements, y.IsWholeFloat) ∨
      (∃ x ∈ v.member? "fields", ∃ y ∈ x.elements, FloatAt fieldNumbers y) ∨
      (∃ x ∈ v.member? "methods", ∃ y ∈ x.elements, FloatAt methodNumbers y) ∨
      (∃ x ∈ v.member? "members", ∃ y ∈ x.elements, FloatAt [[.member "tag"]] y) := by
  simp only [declarationNumbers, Json.floatAt_append, Json.floatAt_under_items,
    Json.floatAt_member_item, or_assoc]

/-- What a declaration contains is read by its kind, and members of other kinds are not there. -/
lemma decided_readDeclaration (h : HasShape Shape.declaration v) :
    Decided (FloatAt declarationNumbers v) (SpellsDeclaration v) (readDeclaration v) := by
  obtain ⟨hobject, hrequired, hkind, hname, henum, hunion, hstruct, hinterface, hmodule, -⟩ := h
  obtain ⟨x, hx⟩ := Option.isSome_iff_exists.mp (hrequired hobject "kind" (by simp))
  obtain ⟨kind, hmem, rfl⟩ := (hkind x hx).1
  have hsame : ¬ v.differs "kind" kind := by simp [Json.differs, hx]
  have readName := decided_text (hrequired hobject "name" (by simp)) fun x hx => (hname x hx).1.1
  rw [readDeclaration, splitKind_of_object hobject hx]
  simp only [List.mem_cons, List.not_mem_nil, or_false] at hmem
  obtain rfl | rfl | rfl | rfl | rfl := hmem
  · obtain ⟨hcontents, honly, hlabels, -⟩ := henum hsame
    have readLabels := decided_needed (hcontents hobject "values" (by simp)) fun x hx =>
      decided_readList (hlabels x hx).1 fun y hy => decided_readLabel ((hlabels x hx).2.2.1 y hy)
    show Decided _ _ (components ["name", "values"] v >>= _)
    rw [components_of_object hobject]
    refine (readName.bind fun name hname => readLabels.bind fun labels hlabels => .pure ?_).congr ?_
    · exact ⟨hx, hname, .enum ⟨hobject, honly⟩ hlabels⟩
    · simp [floatAt_declarationNumbers, Json.member?_eq_none_of_closed honly]
  · obtain ⟨hcontents, honly, hreserved, hvariants, -⟩ := hunion hsame
    have readVariants := decided_needed (hcontents hobject "variants" (by simp)) fun x hx =>
      decided_readList (hvariants x hx).1 fun y hy =>
        decided_readVariant ((hvariants x hx).2.1 y hy)
    have readReserved := decided_reserved fun x hx => (hreserved x hx).1
    show Decided _ _ (components ["name", "variants", "reserved"] v >>= _)
    rw [components_of_object hobject]
    refine (readName.bind fun name hname => readReserved.bind fun reserved hreserved =>
      readVariants.bind fun variants hvariants => .pure ?_).congr ?_
    · exact ⟨hx, hname, .union ⟨hobject, honly⟩ hvariants hreserved⟩
    · simp [floatAt_declarationNumbers, Json.member?_eq_none_of_closed honly, or_comm]
  · obtain ⟨honly, hreserved, hfields, -⟩ := hstruct hsame
    have readFields := decided_orElse (spellsList_nil SpellsField) fun x hx =>
      decided_readFields (hfields x hx).1
    have readReserved := decided_reserved fun x hx => (hreserved x hx).1
    show Decided _ _ (components ["name", "fields", "reserved"] v >>= _)
    rw [components_of_object hobject]
    refine (readFields.bind fun fields hfields => readName.bind fun name hname =>
      readReserved.bind fun reserved hreserved => .pure ?_).congr ?_
    · exact ⟨hx, hname, .struct ⟨hobject, honly⟩ hfields hreserved⟩
    · simp [floatAt_declarationNumbers, Json.member?_eq_none_of_closed honly, or_comm]
  · obtain ⟨hcontents, honly, hmethods, -⟩ := hinterface hsame
    have readMethods := decided_needed (hcontents hobject "methods" (by simp)) fun x hx =>
      decided_readList (hmethods x hx).1 fun y hy => decided_readMethod ((hmethods x hx).2.1 y hy)
    show Decided _ _ (components ["name", "methods"] v >>= _)
    rw [components_of_object hobject]
    refine (readMethods.bind fun methods hmethods => readName.bind fun name hname =>
      .pure ?_).congr ?_
    · exact ⟨hx, hname, .interface ⟨hobject, honly⟩ hmethods⟩
    · simp [floatAt_declarationNumbers, Json.member?_eq_none_of_closed honly]
  · obtain ⟨hcontents, honly, hmembers, -⟩ := hmodule hsame
    have readMembers := decided_needed (hcontents hobject "members" (by simp)) fun x hx =>
      decided_readList (hmembers x hx).1 fun y hy => decided_readMember ((hmembers x hx).2.1 y hy)
    show Decided _ _ (components ["name", "members"] v >>= _)
    rw [components_of_object hobject]
    refine (readMembers.bind fun members hmembers => readName.bind fun name hname =>
      .pure ?_).congr ?_
    · exact ⟨hx, hname, .module ⟨hobject, honly⟩ hmembers⟩
    · simp [floatAt_declarationNumbers, Json.member?_eq_none_of_closed honly]

end

lemma decided_ofJson {v : Json} (h : HasShape Shape.document v) :
    Decided (FloatAt documentNumbers v) (Spells v) (ofJson v) := by
  obtain ⟨hobject, hrequired, honly, hname, hdeclarations, -⟩ := h
  rw [ofJson, components_of_object hobject]
  have readName := decided_text (hrequired hobject "package" (by simp)) fun x hx => (hname x hx).1
  have readDeclarations := decided_orElse (spellsList_nil SpellsDeclaration) fun x hx =>
    decided_readList (hdeclarations x hx).1 fun y hy =>
      decided_readDeclaration ((hdeclarations x hx).2.1 y hy).1
  refine (readDeclarations.bind fun declarations hdeclarations => readName.bind fun name hname =>
    .pure ?_).congr ?_
  · exact ⟨⟨hobject, honly⟩, hname, hdeclarations⟩
  · simp [documentNumbers, Json.floatAt_under_items]

end Package

end SchemaRpc
