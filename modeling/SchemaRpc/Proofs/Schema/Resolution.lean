/-
# Where the parts of a schema come from

A schema has the enums, unions, structs, interfaces and modules of its package in the order of
their declaration, and behind the declared structs one for each parameter list of a method.

* `Growing.Sound` is kept while parameter lists are added, and with it the place of each of them,
* `Schema.MadeFrom` collects what the passes over the declarations establish, and
  `resolve_represents` draws from it what concerns each part by itself,
* `ascends_of_resolve` draws from it that members stand in ascending order of their tags.
-/
import SchemaRpc.Proofs.Schema.Naming
import SchemaRpc.Proofs.Tagged

namespace SchemaRpc

namespace Schema

/-! ## Declarations of one kind -/

/-- The enum that is declared. -/
def declaredEnum? : Package.Declaration → Option (Package.Owner Package.Label)
  | .enum name labels => some ⟨name, labels, []⟩
  | _ => none

/-- The union that is declared. -/
def declaredUnion? : Package.Declaration → Option (Package.Owner Package.Variant)
  | .union name variants reserved => some ⟨name, variants, reserved⟩
  | _ => none

/-- The struct that is declared. -/
def declaredStruct? : Package.Declaration → Option (Package.Owner Package.Field)
  | .struct name fields reserved => some ⟨name, fields, reserved⟩
  | _ => none

/-- The interface that is declared. -/
def declaredInterface? : Package.Declaration → Option (Package.Owner Package.Method)
  | .interface name methods => some ⟨name, methods, []⟩
  | _ => none

/-- The module that is declared. -/
def declaredModule? : Package.Declaration → Option (Package.Owner Package.Member)
  | .module name members => some ⟨name, members, []⟩
  | _ => none

/-- What declarations of one kind become is called as they are. -/
lemma map_name_eq_declaredNames {α β : Type}
    {owner? : Package.Declaration → Option (Package.Owner α)} {a : Arena}
    (howner : ∀ d, (owner? d).map (·.name) = if arenaOf d = a then some d.name else none)
    {R : β → Package.Owner α → Prop} {nameOf : β → String}
    (hname : ∀ b owner, R b owner → nameOf b = owner.name) {out : List β}
    {ds : List Package.Declaration} (h : List.Forall₂ R out (ds.filterMap owner?)) :
    out.map nameOf = declaredNames ds a := by
  rw [map_eq_of_forall₂ h hname, List.map_filterMap, declaredNames, ← List.filterMap_eq_map,
    List.filterMap_filter]
  exact List.filterMap_congr fun d _ => by simpa using howner d

/-- A pass over declarations resolves those of one kind, one after the other. -/
structure Pass {α β : Type} (owner? : Package.Declaration → Option (Package.Owner α))
    (resolveOne : Package.Owner α → Resolved β)
    (pass : List Package.Declaration → Resolved (List β)) : Prop where
  nil : pass [] = .ok []
  cons : ∀ d ds, pass (d :: ds) = match owner? d with
    | none => pass ds
    | some owner => do
      let b ← resolveOne owner
      return b :: (← pass ds)

lemma Pass.forall₂ {α β : Type} {owner? : Package.Declaration → Option (Package.Owner α)}
    {resolveOne : Package.Owner α → Resolved β}
    {pass : List Package.Declaration → Resolved (List β)} (hpass : Pass owner? resolveOne pass)
    {ds : List Package.Declaration} {out : List β} (h : pass ds = .ok out) :
    List.Forall₂ (fun b owner => resolveOne owner = .ok b) out (ds.filterMap owner?) := by
  induction ds generalizing out with
  | nil =>
    rw [hpass.nil] at h
    cases h
    exact .nil
  | cons d ds ih =>
    rw [hpass.cons] at h
    rw [List.filterMap_cons]
    cases howner : owner? d with
    | none =>
      rw [howner] at h
      exact ih h
    | some owner =>
      rw [howner] at h
      obtain ⟨b, hb, h⟩ := Outcome.bind_eq_ok_iff.mp h
      obtain ⟨rest, hrest, h⟩ := Outcome.bind_eq_ok_iff.mp h
      obtain rfl := Outcome.pure_eq_ok_iff.mp h
      exact .cons hb (ih hrest)

lemma pass_resolveEnums : Pass declaredEnum? (fun d => resolveEnum d.name d.members) resolveEnums :=
  ⟨rfl, fun d _ => by cases d <;> rfl⟩

lemma pass_resolveUnions (s : Scope) : Pass declaredUnion?
    (fun d => resolveUnion s d.name d.members d.reserved) (resolveUnions s) :=
  ⟨rfl, fun d _ => by cases d <;> rfl⟩

lemma pass_resolveStructs (s : Scope) (enums : List EnumType) : Pass declaredStruct?
    (fun d => resolveStruct s enums d.name d.members d.reserved) (resolveStructs s enums) :=
  ⟨rfl, fun d _ => by cases d <;> rfl⟩

lemma pass_resolveModules (s : Scope) :
    Pass declaredModule? (fun d => resolveModule s d.name d.members) (resolveModules s) :=
  ⟨rfl, fun d _ => by cases d <;> rfl⟩

/-! ## Parameter lists -/

/-- The parameter lists of a method, under the names of their structs. -/
def methodParameters (owner : String) (m : Package.Method) : List (Package.Owner Package.Field) :=
  ⟨owner ++ "." ++ m.name ++ "Args", m.input, []⟩ ::
    (m.output.toList.map (⟨owner ++ "." ++ m.name ++ "Res", ·, []⟩) ++
      m.failure.toList.map (⟨owner ++ "." ++ m.name ++ "Exn", ·, []⟩))

/-- The parameter lists of the methods of interfaces. -/
def parameterLists (interfaces : List (Package.Owner Package.Method)) :
    List (Package.Owner Package.Field) :=
  interfaces.flatMap fun i => i.members.flatMap (methodParameters i.name)

/-- The structs of a package: the declared ones, then the parameter lists. -/
def structsOf (ds : List Package.Declaration) : List (Package.Owner Package.Field) :=
  ds.filterMap declaredStruct? ++ parameterLists (ds.filterMap declaredInterface?)

/-- A method as it is declared: it refers to the structs of its parameter lists, to a reply and an
exception just if it declares them. What stands at a position is a parameter. -/
structure Method.Represents (stands : Nat → Package.Owner Package.Field → Prop) (owner : String)
    (m : Method) (d : Package.Method) : Prop where
  name : m.name = d.name
  tag : ∀ tag ∈ d.tag, m.tag = tag
  args : stands m.args ⟨owner ++ "." ++ d.name ++ "Args", d.input, []⟩
  reply : Option.Rel (fun id fields =>
    stands id ⟨owner ++ "." ++ d.name ++ "Res", fields, []⟩) m.reply d.output
  exception : Option.Rel (fun id fields =>
    stands id ⟨owner ++ "." ++ d.name ++ "Exn", fields, []⟩) m.exception d.failure

/-- An interface as it is declared. -/
structure InterfaceType.Represents (stands : Nat → Package.Owner Package.Field → Prop)
    (interface : InterfaceType) (d : Package.Owner Package.Method) : Prop where
  name : interface.name = d.name
  methods : Arranged (·.tag) (·.name) (Method.Represents stands d.name) [] interface.methods
    d.members

/-- An interface as it is made from its declaration. -/
structure InterfaceType.Made (stands : Nat → Package.Owner Package.Field → Prop)
    (interface : InterfaceType) (d : Package.Owner Package.Method) : Prop where
  name : interface.name = d.name
  methods : Schema.Made (·.tag) (Method.Represents stands d.name) (fun d => (d.name, d.tag)) []
    interface.methods d.members

lemma InterfaceType.Made.represents {stands : Nat → Package.Owner Package.Field → Prop}
    {interface : InterfaceType} {d : Package.Owner Package.Method} (h : interface.Made stands d) :
    interface.Represents stands d :=
  ⟨h.name, h.methods.arranged fun _ _ hm => hm.name⟩

/-- At the position in a list stands the item. -/
def StandsIn {α : Type} (l : List α) (i : Nat) (a : α) : Prop := l[i]? = some a

/-- What stands at a position stays there when a list is continued. -/
lemma StandsIn.append {α : Type} {l : List α} {i : Nat} {a : α} (h : StandsIn l i a)
    (more : List α) : StandsIn (l ++ more) i a := by
  rw [StandsIn, List.getElem?_append_left (List.getElem?_eq_some_iff.mp h).1]
  exact h

lemma rel_imp {α β : Type} {R R' : α → β → Prop} {a : Option α} {b : Option β}
    (h : Option.Rel R a b) (himp : ∀ a b, R a b → R' a b) : Option.Rel R' a b := by
  cases h with
  | none => exact .none
  | some h => exact .some (himp _ _ h)

lemma Method.Represents.imp {stands stands' : Nat → Package.Owner Package.Field → Prop}
    (himp : ∀ id d, stands id d → stands' id d) {owner : String} {m : Method}
    {d : Package.Method} (h : m.Represents stands owner d) : m.Represents stands' owner d :=
  ⟨h.name, h.tag, himp _ _ h.args, rel_imp h.reply fun _ _ => himp _ _,
    rel_imp h.exception fun _ _ => himp _ _⟩

lemma InterfaceType.Represents.imp {stands stands' : Nat → Package.Owner Package.Field → Prop}
    (himp : ∀ id d, stands id d → stands' id d) {interface : InterfaceType}
    {d : Package.Owner Package.Method} (h : interface.Represents stands d) :
    interface.Represents stands' d :=
  ⟨h.name, h.methods.imp fun _ _ hm => hm.imp himp⟩

lemma InterfaceType.Made.imp {stands stands' : Nat → Package.Owner Package.Field → Prop}
    (himp : ∀ id d, stands id d → stands' id d) {interface : InterfaceType}
    {d : Package.Owner Package.Method} (h : interface.Made stands d) : interface.Made stands' d :=
  ⟨h.name, h.methods.imp fun _ _ hm => hm.imp himp⟩

/-- What has grown from a scope: types in it are still there, the tables describe the structs so
far and otherwise the given names, and the structs are the declared ones. -/
structure Growing.Sound (start : Scope) (names : Layout) (enums : List EnumType) (g : Growing)
    (declared : List (Package.Owner Package.Field)) : Prop where
  keeps : start.types ⊆ g.scope.types
  describes : g.scope.Describes (Function.update names .struct (g.structs.map (·.name)))
  structs : List.Forall₂ (StructType.Made g.scope.types enums) g.structs declared

section

variable {start : Scope} {names : Layout} {enums : List EnumType} {g g' : Growing}
  {declared : List (Package.Owner Package.Field)}

/-- A parameter list becomes the next struct. -/
lemma addParameters_sound (hg : g.Sound start names enums declared) {name : String}
    {parameters : List Package.Field} {id : Nat}
    (h : addParameters enums g name parameters = .ok (id, g')) :
    g'.Sound start names enums (declared ++ [⟨name, parameters, []⟩]) ∧
      StandsIn (declared ++ [⟨name, parameters, []⟩]) id ⟨name, parameters, []⟩ := by
  obtain ⟨scope, hclaim, h⟩ := Outcome.bind_eq_ok_iff.mp h
  obtain ⟨struct, hstruct, h⟩ := Outcome.bind_eq_ok_iff.mp h
  cases Outcome.pure_eq_ok_iff.mp h
  have hmade := resolveStruct_eq_ok (d := ⟨name, parameters, []⟩) hstruct
  have hdescribes := hg.describes.add hclaim .struct
  obtain ⟨-, -, rfl⟩ := Scope.claim_eq_ok hclaim
  have hlength := hg.structs.length_eq
  have hsub : g.scope.types ⊆ g.scope.types ++ [(name, .struct g.structs.length)] :=
    List.subset_append_left _ _
  refine ⟨⟨List.Subset.trans hg.keeps hsub, ?_, ?_⟩, ?_⟩
  · rw [Layout.add, Function.update_idem, Function.update_self, List.length_map] at hdescribes
    rw [List.map_append, List.map_singleton, hmade.name]
    exact hdescribes
  · refine List.rel_append (hg.structs.imp fun _ _ hs => hs.mono hsub) (.cons ?_ .nil)
    exact hmade.mono hsub
  · rw [hlength, StandsIn]
    simp

lemma addParameters?_sound (hg : g.Sound start names enums declared) {name : String}
    {parameters : Option (List Package.Field)} {id : Option Nat}
    (h : addParameters? enums g name parameters = .ok (id, g')) :
    g'.Sound start names enums (declared ++ parameters.toList.map (⟨name, ·, []⟩)) ∧
      Option.Rel (fun id fields =>
        StandsIn (declared ++ parameters.toList.map (⟨name, ·, []⟩)) id ⟨name, fields, []⟩)
        id parameters := by
  cases parameters with
  | none =>
    cases h
    exact ⟨by simpa using hg, .none⟩
  | some parameters =>
    obtain ⟨⟨id, g₁⟩, hadd, h⟩ := Outcome.bind_eq_ok_iff.mp h
    cases Outcome.pure_eq_ok_iff.mp h
    obtain ⟨hg₁, hid⟩ := addParameters_sound hg hadd
    exact ⟨hg₁, .some hid⟩

lemma resolveMethods_sound {owner : String} {tags : Tagging} {ms : List Package.Method}
    {methods : List Method} (hg : g.Sound start names enums declared)
    (h : resolveMethods enums owner g tags ms = .ok (methods, g')) :
    g'.Sound start names enums (declared ++ ms.flatMap (methodParameters owner)) ∧
      tags.assignAll (ms.map fun d => (d.name, d.tag)) = .ok (methods.map (·.tag)) ∧
      List.Forall₂
        (Method.Represents (StandsIn (declared ++ ms.flatMap (methodParameters owner))) owner)
        methods ms := by
  induction ms generalizing g tags methods declared with
  | nil =>
    cases h
    exact ⟨by simpa using hg, rfl, .nil⟩
  | cons m ms ih =>
    obtain ⟨⟨tag, tags'⟩, hnext, h⟩ := Outcome.bind_eq_ok_iff.mp h
    obtain ⟨⟨args, g₁⟩, hargs, h⟩ := Outcome.bind_eq_ok_iff.mp h
    obtain ⟨⟨reply, g₂⟩, hreply, h⟩ := Outcome.bind_eq_ok_iff.mp h
    obtain ⟨⟨exception, g₃⟩, hexception, h⟩ := Outcome.bind_eq_ok_iff.mp h
    obtain ⟨⟨rest, g₄⟩, hrest, h⟩ := Outcome.bind_eq_ok_iff.mp h
    cases Outcome.pure_eq_ok_iff.mp h
    have htag := nextTag_eq_ok_iff.mp hnext
    -- the structs of arguments, reply and exception are added one after the other
    obtain ⟨hg₁, hargs⟩ := addParameters_sound hg hargs
    obtain ⟨hg₂, hreply⟩ := addParameters?_sound hg₁ hreply
    obtain ⟨hg₃, hexception⟩ := addParameters?_sound hg₂ hexception
    obtain ⟨hg₄, htags, hmethods⟩ := ih hg₃ hrest
    have happend : declared ++ (m :: ms).flatMap (methodParameters owner) =
        declared ++ [⟨owner ++ "." ++ m.name ++ "Args", m.input, []⟩] ++
          m.output.toList.map (⟨owner ++ "." ++ m.name ++ "Res", ·, []⟩) ++
          m.failure.toList.map (⟨owner ++ "." ++ m.name ++ "Exn", ·, []⟩) ++
          ms.flatMap (methodParameters owner) := by
      simp [methodParameters]
    rw [happend]
    refine ⟨hg₄, Tagging.assignAll_cons_eq_ok.mpr ⟨tag, tags', _, htag, htags, rfl⟩,
      .cons ⟨rfl, (Tagging.assign_eq_ok htag).explicit, ?_, ?_, ?_⟩ hmethods⟩
    · exact ((hargs.append _).append _).append _
    · exact rel_imp hreply fun _ _ h => (h.append _).append _
    · exact rel_imp hexception fun _ _ h => h.append _

lemma resolveInterface_sound {name : String} {ms : List Package.Method}
    {interface : InterfaceType} (hg : g.Sound start names enums declared)
    (h : resolveInterface enums g name ms = .ok (interface, g')) :
    g'.Sound start names enums (declared ++ ms.flatMap (methodParameters name)) ∧
      interface.Made (StandsIn (declared ++ ms.flatMap (methodParameters name)))
        ⟨name, ms, []⟩ := by
  obtain ⟨_, hnames, h⟩ := Outcome.bind_eq_ok_iff.mp h
  obtain ⟨⟨methods, g₁⟩, hmethods, h⟩ := Outcome.bind_eq_ok_iff.mp h
  cases Outcome.pure_eq_ok_iff.mp h
  obtain ⟨hg₁, htags, hmethods⟩ := resolveMethods_sound hg hmethods
  exact ⟨hg₁, rfl, checkUnique_eq_ok_iff.mp hnames, methods, rfl, htags, hmethods⟩

lemma resolveInterfaces_sound {ds : List Package.Declaration}
    {interfaces : List InterfaceType} (hg : g.Sound start names enums declared)
    (h : resolveInterfaces enums g ds = .ok (interfaces, g')) :
    g'.Sound start names enums (declared ++ parameterLists (ds.filterMap declaredInterface?)) ∧
      List.Forall₂ (InterfaceType.Made
          (StandsIn (declared ++ parameterLists (ds.filterMap declaredInterface?))))
        interfaces (ds.filterMap declaredInterface?) := by
  induction ds generalizing g interfaces declared with
  | nil =>
    cases h
    exact ⟨by simpa [parameterLists] using hg, .nil⟩
  | cons d ds ih =>
    cases d with
    | interface name ms =>
      obtain ⟨⟨interface, g₁⟩, hinterface, h⟩ := Outcome.bind_eq_ok_iff.mp h
      obtain ⟨⟨rest, g₂⟩, hrest, h⟩ := Outcome.bind_eq_ok_iff.mp h
      cases Outcome.pure_eq_ok_iff.mp h
      obtain ⟨hg₁, hinterface⟩ := resolveInterface_sound hg hinterface
      obtain ⟨hg₂, hrest⟩ := ih hg₁ hrest
      have happend : declared ++ parameterLists
          ((Package.Declaration.interface name ms :: ds).filterMap declaredInterface?) =
          declared ++ ms.flatMap (methodParameters name) ++
            parameterLists (ds.filterMap declaredInterface?) := by
        simp [parameterLists, declaredInterface?]
      rw [happend]
      exact ⟨hg₂, .cons (hinterface.imp fun _ _ h => h.append _) hrest⟩
    | enum | union | struct | module => exact ih hg h

end

/-! ## Whole packages -/

/-- The names of the parts of a schema. -/
def layout (s : Schema) : Layout
  | .enum => s.enums.map (·.name)
  | .union => s.unions.map (·.name)
  | .struct => s.structs.map (·.name)
  | .interface => s.interfaces.map (·.name)
  | .module => s.modules.map (·.name)

/-- At the position stands the struct that is declared. -/
def HoldsStruct (s : Schema) (id : Nat) (d : Package.Owner Package.Field) : Prop :=
  ∃ struct, s.structs[id]? = some struct ∧ struct.Represents s.typeNames s.enums d

/-- The parts of a schema are the declared ones, in their order. -/
structure Represents (s : Schema) (p : Package) : Prop where
  enums : List.Forall₂ EnumType.Represents s.enums (p.declarations.filterMap declaredEnum?)
  unions : List.Forall₂ (UnionType.Represents s.typeNames) s.unions
    (p.declarations.filterMap declaredUnion?)
  structs : List.Forall₂ (StructType.Represents s.typeNames s.enums) s.structs
    (structsOf p.declarations)
  interfaces : List.Forall₂ (InterfaceType.Represents s.HoldsStruct) s.interfaces
    (p.declarations.filterMap declaredInterface?)
  modules : List.Forall₂ (ModuleType.Represents s.interfaceNames) s.modules
    (p.declarations.filterMap declaredModule?)

/-- The parts of a schema are made from the declared ones, in their order, and its tables describe
it. -/
structure MadeFrom (s : Schema) (p : Package) : Prop where
  enums : List.Forall₂ (fun e d => resolveEnum d.name d.members = .ok e) s.enums
    (p.declarations.filterMap declaredEnum?)
  unions : List.Forall₂ (UnionType.Made s.typeNames) s.unions
    (p.declarations.filterMap declaredUnion?)
  structs : List.Forall₂ (StructType.Made s.typeNames s.enums) s.structs
    (structsOf p.declarations)
  interfaces : List.Forall₂ (InterfaceType.Made (StandsIn (structsOf p.declarations)))
    s.interfaces (p.declarations.filterMap declaredInterface?)
  modules : List.Forall₂ (ModuleType.Made s.interfaceNames) s.modules
    (p.declarations.filterMap declaredModule?)
  describes : ∃ claimed, (Scope.mk claimed s.typeNames s.interfaceNames).Describes s.layout

variable {p : Package} {s : Schema}

/-- The results of the passes over the declarations of a package: a scope with the declared names,
the declared structs, and what has grown from both. -/
structure Passes (p : Package) (s : Schema) (start : Scope) (declared : List StructType)
    (g : Growing) : Prop where
  names : declare ⟨[], [], []⟩ ⟨0, 0, 0, 0⟩ p.declarations = .ok start
  enums : resolveEnums p.declarations = .ok s.enums
  unions : resolveUnions start p.declarations = .ok s.unions
  structs : resolveStructs start s.enums p.declarations = .ok declared
  interfaces : resolveInterfaces s.enums ⟨start, declared⟩ p.declarations = .ok (s.interfaces, g)
  modules : resolveModules g.scope p.declarations = .ok s.modules
  structs_eq : s.structs = g.structs
  typeNames_eq : s.typeNames = g.scope.types
  interfaceNames_eq : s.interfaceNames = g.scope.interfaces

lemma exists_passes (h : resolve p = .ok s) :
    (∃ scope structs g, Passes p s scope structs g) ∧ firstCycle? s.structs s.unions = none := by
  obtain ⟨scope, hscope, h⟩ := Outcome.bind_eq_ok_iff.mp h
  obtain ⟨enums, henums, h⟩ := Outcome.bind_eq_ok_iff.mp h
  obtain ⟨unions, hunions, h⟩ := Outcome.bind_eq_ok_iff.mp h
  obtain ⟨structs, hstructs, h⟩ := Outcome.bind_eq_ok_iff.mp h
  obtain ⟨⟨interfaces, g⟩, hinterfaces, h⟩ := Outcome.bind_eq_ok_iff.mp h
  obtain ⟨modules, hmodules, h⟩ := Outcome.bind_eq_ok_iff.mp h
  split at h
  · cases h
  · rename_i hacyclic
    obtain rfl := Outcome.pure_eq_ok_iff.mp h
    exact ⟨⟨scope, structs, g, hscope, henums, hunions, hstructs, hinterfaces, hmodules,
      rfl, rfl, rfl⟩, hacyclic⟩

/-- Passes that all succeed lead to a schema, unless a type contains itself. -/
lemma exists_resolve_of_passes {start : Scope} {declared : List StructType} {g : Growing}
    (h : Passes p s start declared g) (hacyclic : firstCycle? s.structs s.unions = none) :
    ∃ s', resolve p = .ok s' := by
  rw [h.structs_eq] at hacyclic
  refine ⟨{ s with package := p.name, fingerprint := fingerprintOf p }, ?_⟩
  refine Outcome.bind_eq_ok_iff.mpr ⟨start, h.names, ?_⟩
  refine Outcome.bind_eq_ok_iff.mpr ⟨s.enums, h.enums, ?_⟩
  refine Outcome.bind_eq_ok_iff.mpr ⟨s.unions, h.unions, ?_⟩
  refine Outcome.bind_eq_ok_iff.mpr ⟨declared, h.structs, ?_⟩
  refine Outcome.bind_eq_ok_iff.mpr ⟨(s.interfaces, g), h.interfaces, ?_⟩
  refine Outcome.bind_eq_ok_iff.mpr ⟨s.modules, h.modules, ?_⟩
  rw [hacyclic, h.structs_eq, h.typeNames_eq, h.interfaceNames_eq]
  rfl

lemma describes_nil : (Scope.mk [] [] []).Describes fun _ => [] := by
  refine ⟨fun name type => ?_, by simp, by simp, by simp, by simp [Layout.Unique]⟩
  cases type <;> simp [Layout.nameOf?]

section

variable {start : Scope} {ds : List Package.Declaration}
  (hstart : declare ⟨[], [], []⟩ ⟨0, 0, 0, 0⟩ ds = .ok start)

include hstart

lemma describes_of_declare : start.Describes (declaredNames ds) := by
  simpa using declare_describes describes_nil hstart

/-- The parameter lists of all methods have grown from the declared structs. -/
lemma sound_of_resolveInterfaces {enums : List EnumType} {declared : List StructType} {g : Growing}
    {interfaces : List InterfaceType} (hdeclared : resolveStructs start enums ds = .ok declared)
    (h : resolveInterfaces enums ⟨start, declared⟩ ds = .ok (interfaces, g)) :
    g.Sound start (declaredNames ds) enums (structsOf ds) ∧
      List.Forall₂ (InterfaceType.Made (StandsIn (structsOf ds))) interfaces
        (ds.filterMap declaredInterface?) := by
  have hmade : List.Forall₂ (StructType.Made start.types enums) declared
      (ds.filterMap declaredStruct?) :=
    ((pass_resolveStructs start enums).forall₂ hdeclared).imp fun _ _ => resolveStruct_eq_ok
  have hnames : declared.map (·.name) = declaredNames ds .struct :=
    map_name_eq_declaredNames (fun d => by cases d <;> rfl) (fun _ _ hs => hs.name) hmade
  refine resolveInterfaces_sound ⟨List.Subset.refl _, ?_, hmade⟩ h
  rw [hnames, Function.update_eq_self]
  exact describes_of_declare hstart

end

namespace Passes

variable {start : Scope} {declared : List StructType} {g : Growing}
  (h : Passes p s start declared g)

include h

lemma made_enums : List.Forall₂ (fun e d => resolveEnum d.name d.members = .ok e) s.enums
    (p.declarations.filterMap declaredEnum?) :=
  pass_resolveEnums.forall₂ h.enums

lemma made_unions : List.Forall₂ (UnionType.Made start.types) s.unions
    (p.declarations.filterMap declaredUnion?) :=
  ((pass_resolveUnions start).forall₂ h.unions).imp fun _ _ => resolveUnion_eq_ok

lemma made_modules : List.Forall₂ (ModuleType.Made s.interfaceNames) s.modules
    (p.declarations.filterMap declaredModule?) := by
  rw [h.interfaceNames_eq]
  exact ((pass_resolveModules g.scope).forall₂ h.modules).imp fun _ _ => resolveModule_eq_ok

lemma sound : g.Sound start (declaredNames p.declarations) s.enums (structsOf p.declarations) ∧
    List.Forall₂ (InterfaceType.Made (StandsIn (structsOf p.declarations))) s.interfaces
      (p.declarations.filterMap declaredInterface?) :=
  sound_of_resolveInterfaces h.names h.structs h.interfaces

/-- The parts of the schema are called as they are declared, and the structs as they have grown. -/
lemma layout_eq : s.layout =
    Function.update (declaredNames p.declarations) .struct (g.structs.map (·.name)) := by
  funext a
  cases a with
  | enum =>
    exact map_name_eq_declaredNames (fun d => by cases d <;> rfl) (fun _ _ he => he.name)
      (h.made_enums.imp fun _ _ => resolveEnum_eq_ok)
  | union =>
    exact map_name_eq_declaredNames (fun d => by cases d <;> rfl) (fun _ _ hu => hu.name)
      h.made_unions
  | struct => rw [Function.update_self, layout, h.structs_eq]
  | interface =>
    exact map_name_eq_declaredNames (fun d => by cases d <;> rfl) (fun _ _ hi => hi.name)
      h.sound.2
  | module =>
    exact map_name_eq_declaredNames (fun d => by cases d <;> rfl) (fun _ _ hm => hm.name)
      h.made_modules

lemma describes : (Scope.mk g.scope.claimed s.typeNames s.interfaceNames).Describes s.layout := by
  rw [h.layout_eq, h.typeNames_eq, h.interfaceNames_eq]
  exact h.sound.1.describes

lemma madeFrom : s.MadeFrom p := by
  obtain ⟨⟨hkeeps, -, hstructs⟩, hinterfaces⟩ := h.sound
  rw [← h.typeNames_eq] at hkeeps hstructs
  rw [← h.structs_eq] at hstructs
  exact ⟨h.made_enums, h.made_unions.imp fun _ _ hu => hu.mono hkeeps, hstructs, hinterfaces,
    h.made_modules, g.scope.claimed, h.describes⟩

end Passes

/-- What is made from a package represents it. -/
lemma MadeFrom.represents (h : s.MadeFrom p) : s.Represents p := by
  have hstructs := h.structs.imp fun _ _ hs => hs.represents
  have hstands : ∀ id d, StandsIn (structsOf p.declarations) id d → s.HoldsStruct id d :=
    fun _ _ hd => exists_left_of_forall₂ hstructs hd
  exact ⟨h.enums.imp fun _ _ => resolveEnum_eq_ok, h.unions.imp fun _ _ hu => hu.represents,
    hstructs, h.interfaces.imp fun _ _ hi => hi.represents.imp hstands,
    h.modules.imp fun _ _ hm => hm.represents⟩

lemma resolve_madeFrom (h : resolve p = .ok s) : s.MadeFrom p := by
  obtain ⟨start, declared, g, hpasses⟩ := (exists_passes h).1
  exact hpasses.madeFrom

/-- **The parts of a schema.**  A schema represents its package, and its tables describe it. -/
theorem resolve_represents (h : resolve p = .ok s) :
    s.Represents p ∧
      ∃ claimed, (Scope.mk claimed s.typeNames s.interfaceNames).Describes s.layout :=
  ⟨(resolve_madeFrom h).represents, (resolve_madeFrom h).describes⟩

/-! ## Ascending tags -/

/-- All structs and unions of a schema have their members in ascending order. -/
structure Ascends (s : Schema) : Prop where
  structType (id : Nat) : (s.structType id).Ascends
  unionType (id : Nat) : (s.unionType id).Ascends

/-- A resolved schema has its members in ascending order. -/
theorem ascends_of_resolve (h : resolve p = .ok s) : s.Ascends := by
  obtain ⟨hrepresents, -⟩ := resolve_represents h
  constructor
  · intro id
    unfold Schema.structType
    -- past the end of the table stands a struct without fields
    cases hid : s.structs[id]? with
    | none => exact List.Pairwise.nil
    | some struct =>
      obtain ⟨d, -, hd⟩ :=
        exists_right_of_forall₂ hrepresents.structs struct (List.mem_of_getElem? hid)
      exact hd.fields.ascends
  · intro id
    unfold Schema.unionType
    cases hid : s.unions[id]? with
    | none => exact List.Pairwise.nil
    | some union =>
      obtain ⟨d, -, hd⟩ :=
        exists_right_of_forall₂ hrepresents.unions union (List.mem_of_getElem? hid)
      exact hd.variants.ascends

/-! ## Packages and their schemas -/

/-- A package of parcels: places and items, a default, an array and tags that are left out. -/
def parcels : Package := ⟨"parcels", [
  .struct "Item" [⟨"name", .named "string", false, none, none⟩,
    ⟨"count", .named "u8", false, none, some (.int 1)⟩] [],
  .union "Place" [⟨"box", .named "u32", none⟩, ⟨"item", .named "Item", none⟩] [],
  .struct "Parcel" [⟨"weight", .named "u16", false, none, none⟩,
    ⟨"place", .named "Place", true, none, none⟩,
    ⟨"items", .array (.named "Item"), true, some (.ofNat 5), none⟩] []]⟩

/-- The schema of the package of parcels. -/
def parcelsSchema : Schema where
  package := "parcels"
  fingerprint := fingerprintOf parcels
  enums := []
  unions := [⟨"Place", [⟨"box", .ofNat 1, .prim (.int .u32)⟩, ⟨"item", .ofNat 2, .struct 0⟩]⟩]
  structs := [
    ⟨"Item", [⟨"name", .ofNat 1, .prim .string, false, none⟩,
      ⟨"count", .ofNat 2, .prim (.int .u8), false, some (.int .u8 ⟨1, by decide⟩)⟩]⟩,
    ⟨"Parcel", [⟨"weight", .ofNat 1, .prim (.int .u16), false, none⟩,
      ⟨"place", .ofNat 2, .union 0, true, none⟩,
      ⟨"items", .ofNat 5, .array (.struct 0), true, none⟩]⟩]
  interfaces := []
  modules := []
  typeNames := [("Item", .struct 0), ("Place", .union 0), ("Parcel", .struct 1)]
  interfaceNames := []

/-- An item with its count. -/
def parcelItem (name : String) (count : FieldState) : Value :=
  .struct (Record.ofList [(.ofNat 1, .present (.string name)), (.ofNat 2, count)])

/-- A parcel with two items, one of them at its place. -/
def parcel : Value :=
  .struct (Record.ofList [(.ofNat 1, .present (.int .u16 ⟨300, by decide⟩)),
    (.ofNat 2, .present (.union (.ofNat 2)
      (parcelItem "a" (.defaulted (.int .u8 ⟨1, by decide⟩))))),
    (.ofNat 5, .present (.array [parcelItem "b" (.present (.int .u8 ⟨200, by decide⟩))]))])

/-- A parcel with two items and their counts, of which one may stand for the default. -/
def countedParcel (count : FieldState) : Value :=
  .struct (Record.ofList [(.ofNat 1, .present (.int .u16 ⟨300, by decide⟩)),
    (.ofNat 2, .present (.union (.ofNat 2) (parcelItem "a" count))),
    (.ofNat 5, .present (.array [parcelItem "b" (.present (.int .u8 ⟨200, by decide⟩))]))])

/-- A parcel without a place. -/
def unplacedParcel : Value :=
  .struct (Record.ofList [(.ofNat 1, .present (.int .u16 ⟨300, by decide⟩)), (.ofNat 2, .null),
    (.ofNat 5, .present (.array [parcelItem "a" (.defaulted (.int .u8 ⟨1, by decide⟩))]))])

lemma resolve_parcels : resolve parcels = .ok parcelsSchema := by rfl

/-- A package of a desk at which parcels are weighed: a module, an interface and an enum. -/
def desk : Package := ⟨"desk", [
  .module "Office" [⟨"front", "Desk", none⟩],
  .interface "Desk" [
    ⟨"weigh", none, [⟨"id", .named "u32", false, none, none⟩,
        ⟨"size", .named "Size", false, none, some (.string "large")⟩],
      some [⟨"weight", .named "u16", false, none, none⟩],
      some [⟨"reason", .named "string", false, none, none⟩]⟩,
    ⟨"close", some (.ofNat 7), [], none, none⟩],
  .enum "Size" [⟨"small", none⟩, ⟨"large", none⟩]]⟩

/-- The value of the label of large parcels. -/
def large : IntKind.i32.Ranged := ⟨1, by decide⟩

/-- The schema of the package of a desk. -/
def deskSchema : Schema where
  package := "desk"
  fingerprint := fingerprintOf desk
  enums := [⟨"Size", [⟨"small", ⟨0, by decide⟩⟩, ⟨"large", large⟩]⟩]
  unions := []
  structs := [
    ⟨"Desk.weighArgs", [⟨"id", .ofNat 1, .prim (.int .u32), false, none⟩,
      ⟨"size", .ofNat 2, .enum 0, false, some (.enum large)⟩]⟩,
    ⟨"Desk.weighRes", [⟨"weight", .ofNat 1, .prim (.int .u16), false, none⟩]⟩,
    ⟨"Desk.weighExn", [⟨"reason", .ofNat 1, .prim .string, false, none⟩]⟩,
    ⟨"Desk.closeArgs", []⟩]
  interfaces := [⟨"Desk", [⟨"weigh", .ofNat 1, 0, some 1, some 2⟩,
    ⟨"close", .ofNat 7, 3, none, none⟩]⟩]
  modules := [⟨"Office", [⟨"front", .ofNat 1, 0⟩]⟩]
  typeNames := [("Size", .enum 0), ("Desk.weighArgs", .struct 0), ("Desk.weighRes", .struct 1),
    ("Desk.weighExn", .struct 2), ("Desk.closeArgs", .struct 3)]
  interfaceNames := [("Desk", 0)]

lemma resolve_desk : resolve desk = .ok deskSchema := by rfl

end Schema

end SchemaRpc
