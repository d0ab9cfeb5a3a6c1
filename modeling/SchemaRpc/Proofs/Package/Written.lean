/-
# Canonical bytes identify a package

The JSON value of a package says everything about it: what is left out is left out for one
value only, so no two packages have the same JSON value.  Together with the canonical text of
JSON values this makes the bytes that are fingerprinted identify the package.

* `lookup_of_ofMembers_eq` compares equal objects member by member,
* a lemma for each part of a package says that its JSON value determines it,
* `canonicalBytes_eq_iff` is the result for whole packages.

Default literals must be free of floating-point numbers: canonical text does not tell whole
ones from integers.
-/
import SchemaRpc.Proofs.Json.Text
import SchemaRpc.Proofs.Utf8
import SchemaRpc.Schema.Resolve

namespace SchemaRpc

namespace Json

/-- Equal objects have the same member under each name. -/
lemma lookup_of_ofMembers_eq {l l' : List (String × Json)} (h : ofMembers l = ofMembers l')
    (name : String) : l.reverse.lookup name = l'.reverse.lookup name := by
  rw [← Ascending.find?_ofList, ← Ascending.find?_ofList, Json.object.inj h]

lemma floatFree_ofMembers {l : List (String × Json)} (h : ∀ e ∈ l, FloatFree e.2) :
    FloatFree (ofMembers l) := by
  refine .object fun name x hx => ?_
  rw [Ascending.find?_ofList, List.lookup_eq_some_iff] at hx
  obtain ⟨before, after, hl, -⟩ := hx
  have hmem : (name, x) ∈ l.reverse := by simp [hl]
  exact h (name, x) (List.mem_reverse.mp hmem)

lemma floatFree_array_map {α : Type} {f : α → Json} {l : List α} (h : ∀ a ∈ l, FloatFree (f a)) :
    FloatFree (.array (l.map f)) :=
  .array (List.forall_mem_map.mpr h)

lemma array_map_inj {α : Type} {f : α → Json} (hf : Function.Injective f) {l l' : List α} :
    Json.array (l.map f) = .array (l'.map f) ↔ l = l' := by
  rw [Json.array.injEq, (List.map_injective_iff.mpr hf).eq_iff]

end Json

namespace Package

open Json

lemma lookup_singleton (name : String) (x : Json) (k : String) :
    [(name, x)].lookup k = if k = name then some x else none := by
  rw [List.lookup_cons, List.lookup_nil]
  by_cases hk : k = name
  · rw [if_pos hk, beq_iff_eq.mpr hk]
  · rw [if_neg hk, beq_eq_false_iff_ne.mpr hk]

@[simp] lemma reverse_optionally {α : Type} (name : String) (toJson : α → Json) (a : Option α) :
    (optionally name toJson a).reverse = optionally name toJson a := by
  cases a <;> rfl

@[simp] lemma lookup_optionally {α : Type} (name : String) (toJson : α → Json) (a : Option α)
    (k : String) :
    (optionally name toJson a).lookup k = if k = name then a.map toJson else none := by
  cases a with
  | none => exact (ite_self none).symm
  | some a => exact lookup_singleton name (toJson a) k

@[simp] lemma reverse_reservedMembers (reserved : List Tag) :
    (reservedMembers reserved).reverse = reservedMembers reserved := by
  unfold reservedMembers
  split <;> rfl

/-- The mark of a field that is optional. -/
def optionalJson? (isOptional : Bool) : Option Json := if isOptional then some (.bool true) else none

lemma optionalJson?_injective : Function.Injective optionalJson? := by
  intro a b h
  cases a <;> cases b
  · rfl
  · cases h
  · cases h
  · rfl

@[simp] lemma reverse_optionalMembers (isOptional : Bool) :
    (if isOptional then [("optional", Json.bool true)] else []).reverse =
      if isOptional then [("optional", .bool true)] else [] := by
  cases isOptional <;> rfl

@[simp] lemma lookup_optionalMembers (isOptional : Bool) (k : String) :
    (if isOptional then [("optional", Json.bool true)] else []).lookup k =
      if k = "optional" then optionalJson? isOptional else none := by
  cases isOptional with
  | false => exact (ite_self none).symm
  | true => exact lookup_singleton _ _ k

/-- The reserved tags as they are written, unless there are none. -/
def reservedJson? (reserved : List Tag) : Option Json :=
  if reserved.isEmpty then none else some (.array (reserved.map tagJson))

@[simp] lemma lookup_reservedMembers (reserved : List Tag) (k : String) :
    (reservedMembers reserved).lookup k =
      if k = "reserved" then reservedJson? reserved else none := by
  unfold reservedMembers reservedJson?
  split
  · exact (ite_self none).symm
  · exact lookup_singleton _ _ k

lemma tagJson_injective : Function.Injective tagJson := by
  intro a b h
  exact Fin.ext (Int.ofNat.inj (Json.int.inj h))

lemma TypeExpr.toJson_injective : Function.Injective TypeExpr.toJson := by
  intro t u h
  induction t generalizing u with
  | named name =>
    cases u with
    | named name' => rw [Json.string.inj h]
    | array item' => cases h
  | array item ih =>
    cases u with
    | named name' => cases h
    | array item' =>
      have hitem := lookup_of_ofMembers_eq h "array"
      rw [ih (by simpa using hitem)]

lemma Label.toJson_injective : Function.Injective Label.toJson := by
  rintro ⟨name, value⟩ ⟨name', value'⟩ h
  have hname : name = name' := by
    simpa [List.lookup_append, List.lookup_cons] using lookup_of_ofMembers_eq h "label"
  have hvalue : value.map (fun v => Json.int v.val) = value'.map fun v => Json.int v.val := by
    simpa [List.lookup_append, List.lookup_cons] using lookup_of_ofMembers_eq h "value"
  have hval : Function.Injective fun v : IntKind.i32.Ranged => Json.int v.val := fun _ _ heq =>
    IntKind.Ranged.ext (Json.int.inj heq)
  rw [hname, Option.map_injective hval hvalue]

lemma Variant.toJson_injective : Function.Injective Variant.toJson := by
  rintro ⟨name, type, tag⟩ ⟨name', type', tag'⟩ h
  have hname : name = name' := by
    simpa [List.lookup_append, List.lookup_cons] using lookup_of_ofMembers_eq h "name"
  have htype : type.toJson = type'.toJson := by
    simpa [List.lookup_append, List.lookup_cons] using lookup_of_ofMembers_eq h "type"
  have htag : tag.map tagJson = tag'.map tagJson := by
    simpa [List.lookup_append, List.lookup_cons] using lookup_of_ofMembers_eq h "tag"
  rw [hname, TypeExpr.toJson_injective htype, Option.map_injective tagJson_injective htag]

lemma reservedJson?_injective : Function.Injective reservedJson? := by
  intro r r' h
  unfold reservedJson? at h
  split at h
  · rename_i hr
    split at h
    · rename_i hr'
      rw [List.isEmpty_iff.mp hr, List.isEmpty_iff.mp hr']
    · cases h
  · split at h
    · cases h
    · exact (array_map_inj tagJson_injective).mp (Option.some.inj h)

lemma Field.toJson_injective : Function.Injective Field.toJson := by
  rintro ⟨name, type, optional, tag, literal⟩ ⟨name', type', optional', tag', literal'⟩ h
  have hname : name = name' := by
    simpa [List.lookup_append, List.lookup_cons] using lookup_of_ofMembers_eq h "name"
  have htype : type.toJson = type'.toJson := by
    simpa [List.lookup_append, List.lookup_cons] using lookup_of_ofMembers_eq h "type"
  have hoptional : optionalJson? optional = optionalJson? optional' := by
    simpa [List.lookup_append, List.lookup_cons] using lookup_of_ofMembers_eq h "optional"
  have htag : tag.map tagJson = tag'.map tagJson := by
    simpa [List.lookup_append, List.lookup_cons] using lookup_of_ofMembers_eq h "tag"
  have hliteral : literal = literal' := by
    simpa [List.lookup_append, List.lookup_cons] using lookup_of_ofMembers_eq h "default"
  rw [hname, TypeExpr.toJson_injective htype, optionalJson?_injective hoptional,
    Option.map_injective tagJson_injective htag, hliteral]

lemma fieldsJson_injective : Function.Injective fieldsJson := fun _ _ =>
  (array_map_inj Field.toJson_injective).mp

lemma Method.toJson_injective : Function.Injective Method.toJson := by
  rintro ⟨name, tag, input, output, failure⟩ ⟨name', tag', input', output', failure'⟩ h
  have hname : name = name' := by
    simpa [List.lookup_append, List.lookup_cons] using lookup_of_ofMembers_eq h "name"
  have htag : tag.map tagJson = tag'.map tagJson := by
    simpa [List.lookup_append, List.lookup_cons] using lookup_of_ofMembers_eq h "tag"
  have hinput : fieldsJson input = fieldsJson input' := by
    simpa [List.lookup_append, List.lookup_cons] using lookup_of_ofMembers_eq h "in"
  have houtput : output.map fieldsJson = output'.map fieldsJson := by
    simpa [List.lookup_append, List.lookup_cons] using lookup_of_ofMembers_eq h "out"
  have hfailure : failure.map fieldsJson = failure'.map fieldsJson := by
    simpa [List.lookup_append, List.lookup_cons] using lookup_of_ofMembers_eq h "throw"
  rw [hname, Option.map_injective tagJson_injective htag, fieldsJson_injective hinput,
    Option.map_injective fieldsJson_injective houtput,
    Option.map_injective fieldsJson_injective hfailure]

lemma Member.toJson_injective : Function.Injective Member.toJson := by
  rintro ⟨name, interface, tag⟩ ⟨name', interface', tag'⟩ h
  have hname : name = name' := by
    simpa [List.lookup_append, List.lookup_cons] using lookup_of_ofMembers_eq h "name"
  have hinterface : interface = interface' := by
    simpa [List.lookup_append, List.lookup_cons] using lookup_of_ofMembers_eq h "interface"
  have htag : tag.map tagJson = tag'.map tagJson := by
    simpa [List.lookup_append, List.lookup_cons] using lookup_of_ofMembers_eq h "tag"
  rw [hname, hinterface, Option.map_injective tagJson_injective htag]

lemma Declaration.toJson_injective : Function.Injective Declaration.toJson := by
  intro d d' h
  have hname : d.name = d'.name := by
    have hlookup := lookup_of_ofMembers_eq h "name"
    cases d <;> cases d' <;>
      simpa [contents, List.lookup_append, List.lookup_cons] using hlookup
  have hkind : d.kindName = d'.kindName := by
    have hlookup := lookup_of_ofMembers_eq h "kind"
    cases d <;> cases d' <;>
      simpa [contents, List.lookup_append, List.lookup_cons] using hlookup
  cases d with
  | enum name labels =>
    cases d' with
    | enum name' labels' =>
      have hlabels : Json.array (labels.map Label.toJson) = .array (labels'.map Label.toJson) := by
        simpa [contents, List.lookup_append, List.lookup_cons]
          using lookup_of_ofMembers_eq h "values"
      rw [show name = name' from hname, (array_map_inj Label.toJson_injective).mp hlabels]
    | _ => simp [kindName] at hkind
  | union name variants reserved =>
    cases d' with
    | union name' variants' reserved' =>
      have hvariants : Json.array (variants.map Variant.toJson) =
          .array (variants'.map Variant.toJson) := by
        simpa [contents, List.lookup_append, List.lookup_cons]
          using lookup_of_ofMembers_eq h "variants"
      have hreserved : reservedJson? reserved = reservedJson? reserved' := by
        simpa [contents, List.lookup_append, List.lookup_cons]
          using lookup_of_ofMembers_eq h "reserved"
      rw [show name = name' from hname, (array_map_inj Variant.toJson_injective).mp hvariants,
        reservedJson?_injective hreserved]
    | _ => simp [kindName] at hkind
  | struct name fields reserved =>
    cases d' with
    | struct name' fields' reserved' =>
      have hfields : fieldsJson fields = fieldsJson fields' := by
        simpa [contents, List.lookup_append, List.lookup_cons]
          using lookup_of_ofMembers_eq h "fields"
      have hreserved : reservedJson? reserved = reservedJson? reserved' := by
        simpa [contents, List.lookup_append, List.lookup_cons]
          using lookup_of_ofMembers_eq h "reserved"
      rw [show name = name' from hname, fieldsJson_injective hfields,
        reservedJson?_injective hreserved]
    | _ => simp [kindName] at hkind
  | interface name methods =>
    cases d' with
    | interface name' methods' =>
      have hmethods : Json.array (methods.map Method.toJson) =
          .array (methods'.map Method.toJson) := by
        simpa [contents, List.lookup_append, List.lookup_cons]
          using lookup_of_ofMembers_eq h "methods"
      rw [show name = name' from hname, (array_map_inj Method.toJson_injective).mp hmethods]
    | _ => simp [kindName] at hkind
  | module name members =>
    cases d' with
    | module name' members' =>
      have hmembers : Json.array (members.map Member.toJson) =
          .array (members'.map Member.toJson) := by
        simpa [contents, List.lookup_append, List.lookup_cons]
          using lookup_of_ofMembers_eq h "members"
      rw [show name = name' from hname, (array_map_inj Member.toJson_injective).mp hmembers]
    | _ => simp [kindName] at hkind

/-- Packages with the same JSON value are equal. -/
theorem toJson_injective : Function.Injective toJson := by
  rintro ⟨name, ds⟩ ⟨name', ds'⟩ h
  have hname : name = name' := by
    simpa [List.lookup_cons] using lookup_of_ofMembers_eq h "package"
  have hds : Json.array (ds.map Declaration.toJson) = .array (ds'.map Declaration.toJson) := by
    simpa [List.lookup_cons] using lookup_of_ofMembers_eq h "declarations"
  rw [hname, (array_map_inj Declaration.toJson_injective).mp hds]

/-! ## Literals without floating-point numbers -/

/-- The fields and parameters of a declaration. -/
def Declaration.allFields : Declaration → List Field
  | .struct _ fields _ => fields
  | .interface _ methods =>
    methods.flatMap fun m => m.input ++ m.output.getD [] ++ m.failure.getD []
  | _ => []

/-- No default literal of a package contains a floating-point number. -/
def FloatFree (p : Package) : Prop :=
  ∀ d ∈ p.declarations, ∀ f ∈ d.allFields, ∀ x ∈ f.literal, x.FloatFree

lemma floatFree_optionally {α : Type} {name : String} {toJson : α → Json} {a : Option α}
    (h : ∀ x ∈ a, (toJson x).FloatFree) : ∀ e ∈ optionally name toJson a, e.2.FloatFree := by
  intro e he
  obtain ⟨x, hx, rfl⟩ := Option.map_eq_some_iff.mp (Option.mem_toList.mp he)
  exact h x hx

lemma TypeExpr.floatFree_toJson (t : TypeExpr) : t.toJson.FloatFree := by
  induction t with
  | named name => exact .string name
  | array item ih => exact floatFree_ofMembers (by simpa using ih)

lemma floatFree_tagJson (tag : Tag) : (tagJson tag).FloatFree := .int _

lemma floatFree_reservedMembers (reserved : List Tag) :
    ∀ e ∈ reservedMembers reserved, e.2.FloatFree := by
  unfold reservedMembers
  split
  · simp
  · simpa using floatFree_array_map fun tag _ => floatFree_tagJson tag

lemma Label.floatFree_toJson (l : Label) : l.toJson.FloatFree := by
  refine floatFree_ofMembers (List.forall_mem_cons.mpr ⟨.string _, ?_⟩)
  exact floatFree_optionally fun v _ => .int v.val

lemma Variant.floatFree_toJson (v : Variant) : v.toJson.FloatFree := by
  refine floatFree_ofMembers (List.forall_mem_append.mpr ⟨?_, ?_⟩)
  · simpa using ⟨Json.FloatFree.string v.name, v.type.floatFree_toJson⟩
  · exact floatFree_optionally fun tag _ => floatFree_tagJson tag

lemma Field.floatFree_toJson {f : Field} (h : ∀ x ∈ f.literal, x.FloatFree) :
    f.toJson.FloatFree := by
  refine floatFree_ofMembers ?_
  simp only [List.forall_mem_append]
  refine ⟨⟨⟨?_, ?_⟩, ?_⟩, floatFree_optionally h⟩
  · simpa using ⟨Json.FloatFree.string f.name, f.type.floatFree_toJson⟩
  · split
    · simpa using Json.FloatFree.bool true
    · simp
  · exact floatFree_optionally fun tag _ => floatFree_tagJson tag

lemma floatFree_fieldsJson {fields : List Field}
    (h : ∀ f ∈ fields, ∀ x ∈ f.literal, x.FloatFree) : (fieldsJson fields).FloatFree :=
  floatFree_array_map fun f hf => Field.floatFree_toJson (h f hf)

lemma Method.floatFree_toJson {m : Method}
    (h : ∀ f ∈ m.input ++ m.output.getD [] ++ m.failure.getD [], ∀ x ∈ f.literal, x.FloatFree) :
    m.toJson.FloatFree := by
  simp only [List.forall_mem_append] at h
  obtain ⟨⟨hinput, houtput⟩, hfailure⟩ := h
  refine floatFree_ofMembers ?_
  simp only [List.forall_mem_append]
  refine ⟨⟨⟨?_, ?_⟩, ?_⟩, ?_⟩
  · simpa using ⟨Json.FloatFree.string m.name, floatFree_fieldsJson hinput⟩
  · exact floatFree_optionally fun tag _ => floatFree_tagJson tag
  · refine floatFree_optionally fun fields hfields => floatFree_fieldsJson ?_
    rwa [show m.output = some fields from hfields] at houtput
  · refine floatFree_optionally fun fields hfields => floatFree_fieldsJson ?_
    rwa [show m.failure = some fields from hfields] at hfailure

lemma Member.floatFree_toJson (m : Member) : m.toJson.FloatFree := by
  refine floatFree_ofMembers (List.forall_mem_append.mpr ⟨?_, ?_⟩)
  · simpa using ⟨Json.FloatFree.string m.name, Json.FloatFree.string m.interface⟩
  · exact floatFree_optionally fun tag _ => floatFree_tagJson tag

lemma Declaration.floatFree_toJson {d : Declaration}
    (h : ∀ f ∈ d.allFields, ∀ x ∈ f.literal, x.FloatFree) : d.toJson.FloatFree := by
  refine floatFree_ofMembers (List.forall_mem_cons.mpr ⟨.string _, ?_⟩)
  refine List.forall_mem_cons.mpr ⟨.string _, ?_⟩
  cases d with
  | enum name labels =>
    simpa [contents] using floatFree_array_map fun l (_ : l ∈ labels) => l.floatFree_toJson
  | union name variants reserved =>
    refine List.forall_mem_cons.mpr ⟨?_, floatFree_reservedMembers reserved⟩
    exact floatFree_array_map fun v _ => v.floatFree_toJson
  | struct name fields reserved =>
    exact List.forall_mem_cons.mpr ⟨floatFree_fieldsJson h, floatFree_reservedMembers reserved⟩
  | interface name methods =>
    have hmethod (m) (hm : m ∈ methods) : m.toJson.FloatFree :=
      Method.floatFree_toJson fun f hf => h f (List.mem_flatMap.mpr ⟨m, hm, hf⟩)
    simpa [contents] using floatFree_array_map hmethod
  | module name members =>
    simpa [contents] using floatFree_array_map fun m (_ : m ∈ members) => m.floatFree_toJson

lemma FloatFree.toJson {p : Package} (h : p.FloatFree) : p.toJson.FloatFree := by
  have hds : (Json.array (p.declarations.map Declaration.toJson)).FloatFree :=
    floatFree_array_map fun d hd => Declaration.floatFree_toJson (h d hd)
  exact floatFree_ofMembers (by simpa using ⟨Json.FloatFree.string p.name, hds⟩)

end Package

namespace Schema

/-- Packages without floating-point numbers in their default literals have the same canonical
bytes only if they are equal. -/
theorem canonicalBytes_eq_iff {p p' : Package} (hp : p.FloatFree) (hp' : p'.FloatFree) :
    canonicalBytes p = canonicalBytes p' ↔ p = p' := by
  refine ⟨fun h => ?_, congrArg canonicalBytes⟩
  have htext : p.toJson.canonical = p'.toJson.canonical := by
    have hread := congrArg Utf8.decodeLossy h
    rwa [canonicalBytes, canonicalBytes, Utf8.decodeLossy_encode, Utf8.decodeLossy_encode]
      at hread
  exact Package.toJson_injective (Json.canonical_inj hp.toJson hp'.toJson htext)

/-- A package with one method, whose parameter has a literal of several kinds. -/
def echoing (output : Option (List Package.Field)) : Package where
  name := "echo"
  declarations := [.interface "Echo" [{
    name := "say"
    tag := none
    input := [⟨"text", .named "string", false, some 3,
      some (.array [.string "\"\n", .ofMembers [("b", .int (-1)), ("a", .null)]])⟩]
    output
    failure := none }]]

/-- A method without output and one with no output parameters are told apart by the canonical
bytes. -/
theorem canonicalBytes_echoing :
    (echoing none).FloatFree ∧ (echoing (some [])).FloatFree ∧
      canonicalBytes (echoing none) ≠ canonicalBytes (echoing (some [])) := by
  have hliteral : (Json.array
      [.string "\"\n", .ofMembers [("b", .int (-1)), ("a", .null)]]).FloatFree := by
    have hobject : (Json.ofMembers [("b", .int (-1)), ("a", .null)]).FloatFree :=
      Json.floatFree_ofMembers (by simpa using ⟨Json.FloatFree.int (-1), Json.FloatFree.null⟩)
    exact .array (by simpa using ⟨Json.FloatFree.string "\"\n", hobject⟩)
  have hfree {output} (h : output = none ∨ output = some []) : (echoing output).FloatFree := by
    rcases h with rfl | rfl <;>
      simpa [Package.FloatFree, echoing, Package.Declaration.allFields] using hliteral
  refine ⟨hfree (.inl rfl), hfree (.inr rfl), fun h => ?_⟩
  have heq := (canonicalBytes_eq_iff (hfree (.inl rfl)) (hfree (.inr rfl))).mp h
  cases heq

end Schema

end SchemaRpc
