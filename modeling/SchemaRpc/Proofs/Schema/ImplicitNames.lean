/-
# Names of parameter lists

The parameter lists of a method become structs that nobody declares.  Their names are put together
from interface and method, with a dot between them and a word for the list at the end.  Where the
names of declarations have no dots, such a name tells again what it was put together from, so it is
never that of a declaration, and no two lists share one:

* `implicitName_inj` takes a name apart,
* `Vacant` is kept while the lists claim their names one after the other, so that
  `within_resolveInterfaces` finds no name in use,
* `implicitNames_never_clash` says what this means for the packages that are refused and for those
  that resolve.
-/
import SchemaRpc.Proofs.Schema.Order
import SchemaRpc.Proofs.Schema.Refusals
import SchemaRpc.Proofs.Schema.WellFormed

namespace SchemaRpc

namespace Schema

/-! ## Parameter lists and their names -/

/-- What a parameter list is for. -/
inductive Role where
  | args
  | reply
  | exception
deriving DecidableEq

namespace Role

/-- All roles, in the order in which the lists are added. -/
def all : List Role := [.args, .reply, .exception]

/-- The word for the role at the end of a name. -/
def suffix : Role → String
  | .args => "Args"
  | .reply => "Res"
  | .exception => "Exn"

/-- The parameter list of a declared method. -/
def parameters? (m : Package.Method) : Role → Option (List Package.Field)
  | .args => some m.input
  | .reply => m.output
  | .exception => m.failure

/-- The position of the struct of a resolved method. -/
def structId? (m : Method) : Role → Option Nat
  | .args => some m.args
  | .reply => m.reply
  | .exception => m.exception

end Role

/-- The name of the struct of a parameter list. -/
def implicitName (interface method : String) (role : Role) : String :=
  interface ++ "." ++ method ++ role.suffix

lemma dot_mem_implicitName (interface method : String) (role : Role) :
    '.' ∈ (implicitName interface method role).toList := by
  simp [implicitName, String.toList_append]

lemma toList_implicitName (interface method : String) (role : Role) :
    (implicitName interface method role).toList =
      interface.toList ++ '.' :: (method.toList ++ role.suffix.toList) := by
  simp [implicitName, String.toList_append]

/-- The last letter but one of a suffix tells the role. -/
lemma suffix_inj {front front' : List Char} {role role' : Role}
    (h : front ++ role.suffix.toList = front' ++ role'.suffix.toList) : role = role' := by
  have hlast := congrArg (fun l => (l.reverse.drop 1).head?) h
  cases role <;> cases role' <;> simp [Role.suffix] at hlast ⊢

/-- What stands in front of the first dot is one string only. -/
lemma append_dot_inj {front front' back back' : List Char} (hfront : '.' ∉ front)
    (hfront' : '.' ∉ front') (h : front ++ '.' :: back = front' ++ '.' :: back') :
    front = front' ∧ back = back' := by
  rcases List.append_eq_append_iff.mp h with ⟨mid, rfl, hmid⟩ | ⟨mid, rfl, hmid⟩
  · cases mid with
    | nil => exact ⟨(List.append_nil front).symm, (List.cons.inj hmid).2⟩
    | cons c mid =>
      obtain ⟨rfl, -⟩ := List.cons.inj hmid
      simp at hfront'
  · cases mid with
    | nil => exact ⟨List.append_nil front', (List.cons.inj hmid).2.symm⟩
    | cons c mid =>
      obtain ⟨rfl, -⟩ := List.cons.inj hmid
      simp at hfront

/-- **A name tells what it was put together from**, if the interface has no dot. -/
lemma implicitName_inj {interface interface' method method' : String} {role role' : Role}
    (hplain : '.' ∉ interface.toList) (hplain' : '.' ∉ interface'.toList)
    (h : implicitName interface method role = implicitName interface' method' role') :
    interface = interface' ∧ method = method' ∧ role = role' := by
  have hlist := congrArg String.toList h
  rw [toList_implicitName, toList_implicitName] at hlist
  obtain ⟨hinterface, hback⟩ := append_dot_inj hplain hplain' hlist
  obtain rfl := suffix_inj hback
  exact ⟨String.toList_inj.mp hinterface, String.toList_inj.mp (List.append_cancel_right hback),
    rfl⟩

section

variable {owner : String} {o : Package.Owner Package.Field}

lemma mem_methodParameters_iff {m : Package.Method} : o ∈ methodParameters owner m ↔
    ∃ role, ∃ fields ∈ role.parameters? m, o = ⟨implicitName owner m.name role, fields, []⟩ := by
  rw [methodParameters, List.mem_cons, List.mem_append, List.mem_map, List.mem_map]
  constructor
  · rintro (rfl | ⟨fields, hfields, rfl⟩ | ⟨fields, hfields, rfl⟩)
    · exact ⟨.args, m.input, rfl, rfl⟩
    · exact ⟨.reply, fields, Option.mem_toList.mp hfields, rfl⟩
    · exact ⟨.exception, fields, Option.mem_toList.mp hfields, rfl⟩
  · rintro ⟨role, fields, hfields, rfl⟩
    cases role with
    | args =>
      cases hfields
      exact .inl rfl
    | reply => exact .inr (.inl ⟨fields, Option.mem_toList.mpr hfields, rfl⟩)
    | exception => exact .inr (.inr ⟨fields, Option.mem_toList.mpr hfields, rfl⟩)

lemma map_name_methodParameters (owner : String) (m : Package.Method) :
    (methodParameters owner m).map (·.name) =
      (Role.all.filter fun role => (role.parameters? m).isSome).map
        (implicitName owner m.name) := by
  obtain ⟨name, tag, input, output, failure⟩ := m
  cases output <;> cases failure <;> rfl

/-- The parameter lists of an interface have names of their own. -/
lemma nodup_methodParameters (hplain : '.' ∉ owner.toList) {ms : List Package.Method}
    (hnames : (ms.map (·.name)).Nodup) :
    ((ms.flatMap (methodParameters owner)).map (·.name)).Nodup := by
  rw [List.map_flatMap, List.nodup_flatMap]
  constructor
  · intro m _
    rw [map_name_methodParameters]
    have hroles : Role.all.Nodup := by decide
    exact (hroles.filter _).map fun _ _ heq => (implicitName_inj hplain hplain heq).2.2
  · refine (List.pairwise_map.mp hnames).imp fun hne name hname hname' => hne ?_
    obtain ⟨o, ho, rfl⟩ := List.mem_map.mp hname
    obtain ⟨o', ho', hsame⟩ := List.mem_map.mp hname'
    obtain ⟨role, fields, -, rfl⟩ := mem_methodParameters_iff.mp ho
    obtain ⟨role', fields', -, rfl⟩ := mem_methodParameters_iff.mp ho'
    exact (implicitName_inj hplain hplain hsame).2.1.symm

end

/-! ## Names that are claimed -/

/-- Lists can claim their names one after the other. -/
structure Vacant (s : Scope) (lists : List (Package.Owner Package.Field)) : Prop where
  names : (lists.map (·.name)).Nodup
  free : ∀ o ∈ lists, s.Free o.name

/-- A step claims no names but those of the lists, and reports none as used twice. -/
structure Claims {α : Type} (g : Growing) (lists : List (Package.Owner Package.Field))
    (x : Resolved (α × Growing)) : Prop where
  within : Within x
  claimed : ∀ r, x = .ok r → ∀ name ∈ r.2.scope.claimed,
    name ∈ g.scope.claimed ∨ name ∈ lists.map (·.name)

section

variable {s s' : Scope} {lists lists' : List (Package.Owner Package.Field)} {g : Growing}
  {α β : Type} (enums : List EnumType)

lemma Scope.Free.of_claimed {name : String} (h : s.Free name)
    (hclaimed : ∀ name ∈ s'.claimed, name ∈ s.claimed ∨ name ∈ lists.map (·.name))
    (hother : name ∉ lists.map (·.name)) : s'.Free name :=
  ⟨h.1, fun hmem => (hclaimed name hmem).elim h.2 hother⟩

lemma Vacant.left (h : Vacant s (lists ++ lists')) : Vacant s lists := by
  obtain ⟨hnames, hfree⟩ := h
  rw [List.map_append, List.nodup_append] at hnames
  exact ⟨hnames.1, fun o ho => hfree o (List.mem_append_left _ ho)⟩

/-- When lists in front have claimed their names, there is still room for those behind. -/
lemma Vacant.right (h : Vacant s (lists ++ lists'))
    (hclaimed : ∀ name ∈ s'.claimed, name ∈ s.claimed ∨ name ∈ lists.map (·.name)) :
    Vacant s' lists' := by
  obtain ⟨hnames, hfree⟩ := h
  rw [List.map_append, List.nodup_append] at hnames
  refine ⟨hnames.2.1, fun o ho => ?_⟩
  refine (hfree o (List.mem_append_right _ ho)).of_claimed hclaimed fun hmem => ?_
  exact hnames.2.2 _ hmem _ (List.mem_map_of_mem ho) rfl

lemma claims_pure (a : α) : Claims g [] (.ok (a, g)) := by
  refine ⟨Outcome.failsWith_ok _, ?_⟩
  rintro r ⟨⟩ name hname
  exact .inl hname

lemma Claims.bind {x : Resolved (α × Growing)} {f : α × Growing → Resolved (β × Growing)}
    (h : Claims g lists x) (hf : ∀ r, x = .ok r → Claims r.2 lists' (f r)) :
    Claims g (lists ++ lists') (x >>= f) := by
  refine ⟨h.within.bind fun r hr => (hf r hr).within, fun r hr name hname => ?_⟩
  obtain ⟨r₁, hx, hfr⟩ := Outcome.bind_eq_ok_iff.mp hr
  rw [List.map_append, List.mem_append]
  rcases (hf r₁ hx).claimed r hfr name hname with hmem | hmem
  · exact (h.claimed r₁ hx name hmem).imp_right .inl
  · exact .inr (.inr hmem)

/-- What comes before, without a claim of its own. -/
lemma Within.bind_claims {x : Resolved α} {f : α → Resolved (β × Growing)} (h : Within x)
    (hf : ∀ a, x = .ok a → Claims g lists (f a)) : Claims g lists (x >>= f) := by
  refine ⟨h.bind fun a ha => (hf a ha).within, fun r hr => ?_⟩
  obtain ⟨a, hx, hfa⟩ := Outcome.bind_eq_ok_iff.mp hr
  exact (hf a hx).claimed r hfa

lemma claims_addParameters {name : String} {parameters : List Package.Field}
    (h : Vacant g.scope [⟨name, parameters, []⟩]) :
    Claims g [⟨name, parameters, []⟩] (addParameters enums g name parameters) := by
  have hclaim := (h.free _ List.mem_cons_self).claim_eq_ok
  refine ⟨?_, fun r hr other hother => ?_⟩
  · rw [addParameters, hclaim]
    exact (within_resolveStruct _ _ _ _).bind fun _ _ => Outcome.failsWith_ok _
  · obtain ⟨scope, hscope, hr⟩ := Outcome.bind_eq_ok_iff.mp hr
    obtain ⟨struct, -, hr⟩ := Outcome.bind_eq_ok_iff.mp hr
    cases hclaim.symm.trans hscope
    cases Outcome.pure_eq_ok_iff.mp hr
    exact (List.mem_cons.mp hother).symm.imp_right List.mem_singleton.mpr

lemma claims_addParameters? {name : String} {parameters : Option (List Package.Field)}
    (h : Vacant g.scope (parameters.toList.map (⟨name, ·, []⟩))) :
    Claims g (parameters.toList.map (⟨name, ·, []⟩)) (addParameters? enums g name parameters) := by
  cases parameters with
  | none => exact claims_pure none
  | some parameters =>
    have hadd := claims_addParameters enums h
    have hlists := hadd.bind fun r _ => claims_pure (some r.1)
    rwa [List.append_nil] at hlists

lemma claims_resolveMethods {owner : String} (tags : Tagging) {ms : List Package.Method}
    (h : Vacant g.scope (ms.flatMap (methodParameters owner))) :
    Claims g (ms.flatMap (methodParameters owner)) (resolveMethods enums owner g tags ms) := by
  induction ms generalizing g tags with
  | nil => exact claims_pure []
  | cons m ms ih =>
    rw [List.flatMap_cons, methodParameters, List.cons_append, List.append_assoc] at h ⊢
    rw [resolveMethods]
    refine (within_nextTag tags m.name m.tag).bind_claims fun next _ => ?_
    -- the lists of the method claim their names one after the other, then those of the others
    have hargs := claims_addParameters enums (Vacant.left h)
    refine hargs.bind fun r hr => ?_
    have hafterArgs := Vacant.right h (hargs.claimed r hr)
    have hreply := claims_addParameters? enums hafterArgs.left
    refine hreply.bind fun r hr => ?_
    have hafterReply := hafterArgs.right (hreply.claimed r hr)
    have hexception := claims_addParameters? enums hafterReply.left
    refine hexception.bind fun r hr => ?_
    have hmore := ih next.2 (hafterReply.right (hexception.claimed r hr))
    rw [← List.append_nil (ms.flatMap (methodParameters owner))]
    exact hmore.bind fun r _ => claims_pure _

lemma claims_resolveInterface {name : String} {ms : List Package.Method}
    (hplain : '.' ∉ name.toList)
    (hfree : ∀ o ∈ ms.flatMap (methodParameters name), g.scope.Free o.name) :
    Claims g (ms.flatMap (methodParameters name)) (resolveInterface enums g name ms) := by
  rw [resolveInterface]
  refine (within_checkUnique _).bind_claims fun _ hunique => ?_
  have hnames := nodup_methodParameters hplain (checkUnique_eq_ok_iff.mp hunique)
  rw [← List.append_nil (ms.flatMap (methodParameters name))]
  exact (claims_resolveMethods enums _ ⟨hnames, hfree⟩).bind fun r _ => claims_pure _

/-- No name of a parameter list is in use when the list claims it. -/
lemma within_resolveInterfaces {ds : List Package.Declaration}
    (hplain : ∀ i ∈ ds.filterMap declaredInterface?, '.' ∉ i.name.toList)
    (hnames : ((ds.filterMap declaredInterface?).map (·.name)).Nodup)
    (hfree : ∀ i ∈ ds.filterMap declaredInterface?,
      ∀ o ∈ i.members.flatMap (methodParameters i.name), g.scope.Free o.name) :
    Within (resolveInterfaces enums g ds) := by
  induction ds generalizing g with
  | nil => exact Outcome.failsWith_ok _
  | cons d ds ih =>
    cases d with
    | interface name ms =>
      have hcons : (Package.Declaration.interface name ms :: ds).filterMap declaredInterface? =
          ⟨name, ms, []⟩ :: ds.filterMap declaredInterface? := rfl
      rw [hcons, List.forall_mem_cons] at hplain hfree
      rw [hcons, List.map_cons, List.nodup_cons] at hnames
      have hclaims := claims_resolveInterface enums hplain.1 hfree.1
      rw [resolveInterfaces]
      refine hclaims.within.bind fun r hr => Within.bind ?_ fun _ _ => Outcome.failsWith_ok _
      refine ih hplain.2 hnames.2 fun i hi o ho => ?_
      refine (hfree.2 i hi o ho).of_claimed (hclaims.claimed r hr) fun hmem => ?_
      -- a list of this interface would have its name from another one
      obtain ⟨m, -, ho⟩ := List.mem_flatMap.mp ho
      obtain ⟨role, fields, -, rfl⟩ := mem_methodParameters_iff.mp ho
      obtain ⟨o', ho', hsame⟩ := List.mem_map.mp hmem
      obtain ⟨m', -, ho'⟩ := List.mem_flatMap.mp ho'
      obtain ⟨role', fields', -, rfl⟩ := mem_methodParameters_iff.mp ho'
      obtain ⟨rfl, -⟩ := implicitName_inj hplain.1 (hplain.2 i hi) hsame
      exact hnames.1 (List.mem_map.mpr ⟨i, hi, rfl⟩)
    | enum | union | struct | module => exact ih hplain hnames hfree

end

/-! ## Packages -/

/-- No declaration of the package has a dot in its name. -/
def PlainNames (p : Package) : Prop := ∀ d ∈ p.declarations, '.' ∉ d.name.toList

/-- The interfaces that a package declares. -/
def interfacesOf (p : Package) : List (Package.Owner Package.Method) :=
  p.declarations.filterMap declaredInterface?

lemma plain_of_ofName? {name : String} {primitive : Primitive}
    (h : Primitive.ofName? name = some primitive) : '.' ∉ name.toList := by
  rw [← Primitive.name_of_ofName? h]
  cases primitive with
  | int kind => cases kind <;> decide
  | _ => decide

section

variable {p : Package} {s : Schema}

/-- An interface is one of the declarations. -/
lemma exists_of_mem_interfacesOf {i : Package.Owner Package.Method} (hi : i ∈ interfacesOf p) :
    ∃ d ∈ p.declarations, d.name = i.name ∧ declaredInterface? d = some i := by
  obtain ⟨d, hd, hdi⟩ := List.mem_filterMap.mp hi
  refine ⟨d, hd, ?_, hdi⟩
  cases d <;> cases hdi
  rfl

lemma PlainNames.interface (h : PlainNames p) {i : Package.Owner Package.Method}
    (hi : i ∈ interfacesOf p) : '.' ∉ i.name.toList := by
  obtain ⟨d, hd, hname, -⟩ := exists_of_mem_interfacesOf hi
  exact hname ▸ h d hd

lemma map_name_interfacesOf (p : Package) :
    (interfacesOf p).map (·.name) = declaredNames p.declarations .interface :=
  map_name_eq_declaredNames (fun d => by cases d <;> rfl) (fun _ _ heq => by rw [heq])
    (List.forall₂_same.mpr fun o _ => Eq.refl o)

lemma nodup_interfacesOf (h : (p.declarations.map (·.name)).Nodup) :
    ((interfacesOf p).map (·.name)).Nodup := by
  rw [map_name_interfacesOf]
  exact h.sublist (List.filter_sublist.map _)

/-- No parameter list has the name of a declaration or of a primitive type. -/
lemma PlainNames.free (hplain : PlainNames p) {start : Scope}
    (hstart : declare ⟨[], [], []⟩ ⟨0, 0, 0, 0⟩ p.declarations = .ok start)
    (interface method : String) (role : Role) : start.Free (implicitName interface method role) := by
  have hdot := dot_mem_implicitName interface method role
  refine ⟨?_, fun hmem => ?_⟩
  · cases hp : Primitive.ofName? (implicitName interface method role) with
    | none => rfl
    | some primitive => exact absurd hdot (plain_of_ofName? hp)
  · rcases mem_claimed_of_declare hstart hmem with hmem | hmem
    · cases hmem
    · obtain ⟨d, hd, hname⟩ := List.mem_map.mp hmem
      exact hplain d hd (hname ▸ hdot)

/-- Once the declarations have their names, no name is reported as used twice. -/
lemma within_of_declare (hplain : PlainNames p) {start : Scope}
    (hstart : declare ⟨[], [], []⟩ ⟨0, 0, 0, 0⟩ p.declarations = .ok start) :
    Within (resolve p) := by
  have hnames := (exists_declare_iff.mp ⟨start, hstart⟩).1
  rw [resolve, hstart]
  refine (pass_resolveEnums.within (fun o => within_resolveEnum _) _).bind fun enums _ => ?_
  refine ((pass_resolveUnions start).within (fun o => within_resolveUnion _ _ _) _).bind
    fun unions _ => ?_
  refine ((pass_resolveStructs start enums).within (fun o => within_resolveStruct _ _ _ _) _).bind
    fun structs _ => ?_
  have hinterfaces : Within (resolveInterfaces enums ⟨start, structs⟩ p.declarations) := by
    refine within_resolveInterfaces _ (fun i hi => hplain.interface hi) (nodup_interfacesOf hnames)
      fun i hi o ho => ?_
    obtain ⟨m, -, ho⟩ := List.mem_flatMap.mp ho
    obtain ⟨role, fields, -, rfl⟩ := mem_methodParameters_iff.mp ho
    exact hplain.free hstart i.name m.name role
  refine hinterfaces.bind fun r _ => ?_
  refine ((pass_resolveModules r.2.scope).within (fun o => within_resolveModule _ _) _).bind
    fun modules _ => ?_
  split
  · exact Outcome.failsWith_error fun _ => nofun
  · exact Outcome.failsWith_ok _

/-- A name that is reported as used twice is that of a declaration, and of another one or of a
primitive type. -/
lemma PlainNames.of_duplicate (hplain : PlainNames p) {name : String}
    (h : resolve p = .error (.duplicateDeclaration name)) :
    name ∈ p.declarations.map (·.name) ∧
      ((Primitive.ofName? name).isSome ∨ 2 ≤ (p.declarations.map (·.name)).count name) := by
  cases hstart : declare ⟨[], [], []⟩ ⟨0, 0, 0, 0⟩ p.declarations with
  | ok start => exact absurd rfl (within_of_declare hplain hstart _ h name)
  | error e =>
    rw [resolve, hstart] at h
    cases h
    obtain ⟨front, d, back, hds, ⟨⟩, hname⟩ := declare_eq_error hstart
    rw [hds, List.map_append, List.map_cons]
    refine ⟨List.mem_append_right _ List.mem_cons_self, hname.imp_right fun hname => ?_⟩
    have hfront : 1 ≤ (front.map (·.name)).count d.name :=
      List.one_le_count_iff.mpr (hname.resolve_left List.not_mem_nil)
    rw [List.count_append, List.count_cons_self]
    omega

/-! ## Resolved packages -/

lemma Method.Represents.role {stands : Nat → Package.Owner Package.Field → Prop} {owner : String}
    {method : Method} {m : Package.Method} (h : method.Represents stands owner m) (role : Role) :
    Option.Rel (fun id fields => stands id ⟨implicitName owner m.name role, fields, []⟩)
      (role.structId? method) (role.parameters? m) := by
  cases role with
  | args => exact .some h.args
  | reply => exact h.reply
  | exception => exact h.exception

section

variable (h : resolve p = .ok s) {i i' : Package.Owner Package.Method} {m m' : Package.Method}
include h

/-- Every declared method is found by the names of interface and method. -/
lemma exists_method_of_resolve (hi : i ∈ interfacesOf p) (hm : m ∈ i.members) :
    ∃ interface method, s.interface? i.name = some interface ∧
      interface.method? m.name = some method ∧ method.Represents s.HoldsStruct i.name m := by
  obtain ⟨hrepresents, -⟩ := resolve_represents h
  have hfinds := findsByName_of_resolve h
  obtain ⟨interface, hinterface, hi⟩ := exists_right_of_forall₂ hrepresents.interfaces.flip i hi
  obtain ⟨l, hperm, hl⟩ := hi.methods.declared
  obtain ⟨method, hmethod, hm⟩ := exists_right_of_forall₂ hl.flip m hm
  have hmem := hperm.mem_iff.mpr hmethod
  exact ⟨interface, method, (hfinds.interface _ _).mpr ⟨hinterface, hi.name⟩,
    (hfinds.method interface hinterface _ _).mpr ⟨hmem, hm.name⟩, hm⟩

/-- The names of interface and method tell which method is declared. -/
lemma eq_of_names (hi : i ∈ interfacesOf p) (hi' : i' ∈ interfacesOf p) (hm : m ∈ i.members)
    (hm' : m' ∈ i'.members) (hinterface : i.name = i'.name) (hmethod : m.name = m'.name) :
    m = m' := by
  obtain ⟨start, declared, g, hpasses⟩ := (exists_passes h).1
  have hnames := (exists_declare_iff.mp ⟨start, hpasses.names⟩).1
  obtain rfl := List.inj_on_of_nodup_map (nodup_interfacesOf hnames) hi hi' hinterface
  obtain ⟨interface, -, hmade⟩ :=
    exists_right_of_forall₂ (resolve_madeFrom h).interfaces.flip i hi
  exact List.inj_on_of_nodup_map hmade.methods.names hm hm' hmethod

/-- A name of a parameter list finds the struct of the list, and nothing if there is no list. -/
lemma PlainNames.type?_implicitName (hplain : PlainNames p) (hi : i ∈ interfacesOf p)
    (hm : m ∈ i.members) {method : Method} (hmethod : method.Represents s.HoldsStruct i.name m)
    (role : Role) :
    s.type? (implicitName i.name m.name role) = (role.structId? method).map .struct := by
  have hfinds := findsByName_of_resolve h
  have hrole := hmethod.role role
  generalize role.structId? method = id at hrole
  generalize hfields : role.parameters? m = fields at hrole
  cases hrole with
  | @some id fields hstruct =>
    obtain ⟨struct, hstruct, hrepresents⟩ := hstruct
    refine (hfinds.type _ _).mpr (.inr ?_)
    rw [Layout.nameOf?, layout, List.getElem?_map, hstruct]
    exact congrArg some hrepresents.name
  | none =>
    have hdot := dot_mem_implicitName i.name m.name role
    refine Option.eq_none_iff_forall_ne_some.mpr fun type htype => ?_
    rcases (hfinds.type _ _).mp htype with ⟨primitive, -, hname⟩ | htype
    · exact plain_of_ofName? (Primitive.ofName?_name primitive) (hname ▸ hdot)
    · obtain ⟨start, declared, g, hpasses⟩ := (exists_passes h).1
      obtain ⟨a, hmem⟩ := Layout.exists_mem_of_nameOf? htype
      have hdeclared : ∀ a, implicitName i.name m.name role ∉ declaredNames p.declarations a := by
        intro a hmem
        obtain ⟨d, hd, hname⟩ := List.mem_map.mp hmem
        exact hplain d (List.mem_filter.mp hd).1 (hname ▸ hdot)
      by_cases ha : a = .struct
      · subst ha
        rw [hpasses.layout_struct, structsOf, List.map_append, map_name_declaredStruct] at hmem
        obtain ⟨o, ho, hname⟩ :=
          List.mem_map.mp ((List.mem_append.mp hmem).resolve_left (hdeclared _))
        obtain ⟨i', hi', ho⟩ := List.mem_flatMap.mp ho
        obtain ⟨m', hm', ho⟩ := List.mem_flatMap.mp ho
        obtain ⟨role', fields', hfields', rfl⟩ := mem_methodParameters_iff.mp ho
        -- the name would be that of a list of the same method for the same role
        obtain ⟨hinterface, hmethod', rfl⟩ :=
          implicitName_inj (hplain.interface hi') (hplain.interface hi) hname
        obtain rfl := eq_of_names h hi' hi hm' hm hinterface hmethod'
        rw [hfields] at hfields'
        cases hfields'
      · rw [hpasses.layout_of_ne ha] at hmem
        exact hdeclared a hmem

end

/-- **Names of parameter lists never clash.**  Where the names of declarations have no dots, a name
is reported as used twice only if two declarations share it or it is that of a primitive type; the
names of all parameter lists differ from each other and from those of declarations; and in a package
that resolves each of them finds the struct of its own method. -/
theorem implicitNames_never_clash (hplain : PlainNames p) :
    (∀ name, resolve p = .error (.duplicateDeclaration name) →
      name ∈ p.declarations.map (·.name) ∧
        ((Primitive.ofName? name).isSome ∨ 2 ≤ (p.declarations.map (·.name)).count name)) ∧
    (∀ i ∈ interfacesOf p, ∀ m ∈ i.members, ∀ role,
      implicitName i.name m.name role ∉ p.declarations.map (·.name) ∧
        ∀ i' ∈ interfacesOf p, ∀ m' ∈ i'.members, ∀ role',
          implicitName i.name m.name role = implicitName i'.name m'.name role' →
            i.name = i'.name ∧ m.name = m'.name ∧ role = role') ∧
    ∀ s, resolve p = .ok s → ∀ i ∈ interfacesOf p, ∀ m ∈ i.members, ∃ interface method,
      s.interface? i.name = some interface ∧ interface.method? m.name = some method ∧
        ∀ role, s.type? (implicitName i.name m.name role) =
            (role.structId? method).map .struct ∧
          Option.Rel (fun id fields =>
              s.HoldsStruct id ⟨implicitName i.name m.name role, fields, []⟩)
            (role.structId? method) (role.parameters? m) := by
  refine ⟨fun name h => hplain.of_duplicate h, fun i hi m hm role => ⟨fun hmem => ?_,
    fun i' hi' m' hm' role' heq => ?_⟩, fun s h i hi m hm => ?_⟩
  · obtain ⟨d, hd, hname⟩ := List.mem_map.mp hmem
    exact hplain d hd (hname ▸ dot_mem_implicitName i.name m.name role)
  · exact implicitName_inj (hplain.interface hi) (hplain.interface hi') heq
  · obtain ⟨interface, method, hinterface, hmethod, hrepresents⟩ :=
      exists_method_of_resolve h hi hm
    exact ⟨interface, method, hinterface, hmethod, fun role =>
      ⟨hplain.type?_implicitName h hi hm hrepresents role, hrepresents.role role⟩⟩

/-- The arguments and the reply of a weighing have structs of their own names, and so has the
closing of the desk, which has no reply. -/
theorem implicitNames_never_clash_desk :
    PlainNames desk ∧ resolve desk = .ok deskSchema ∧
      deskSchema.type? (implicitName "Desk" "weigh" .args) = some (.struct 0) ∧
      deskSchema.type? (implicitName "Desk" "weigh" .reply) = some (.struct 1) ∧
      deskSchema.type? (implicitName "Desk" "close" .args) = some (.struct 3) ∧
      deskSchema.type? (implicitName "Desk" "close" .reply) = none := by
  have hplain : PlainNames desk := by
    unfold PlainNames
    decide
  obtain ⟨-, -, hfinds⟩ := implicitNames_never_clash hplain
  obtain ⟨_, weigh, ⟨⟩, ⟨⟩, hweigh⟩ :=
    hfinds deskSchema resolve_desk _ (.head _) _ (.head _)
  obtain ⟨_, close, ⟨⟩, ⟨⟩, hclose⟩ :=
    hfinds deskSchema resolve_desk _ (.head _) _ (.tail _ (.head _))
  exact ⟨hplain, resolve_desk, (hweigh .args).1, (hweigh .reply).1, (hclose .args).1,
    (hclose .reply).1⟩

end

end Schema

end SchemaRpc
