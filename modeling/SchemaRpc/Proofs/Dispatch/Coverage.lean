/-
# What a registry covers

A registry is set up by calls that bind handlers, to one route or to the methods of a member; some
of them fail, and some of those leave handlers bound.  Whatever the calls are, a route keeps the
handler of the first call that bound it, and what is bound and what is not make up the schema:

* `lookup_afterAll` says which calls bind a route,
* `routes_pairwise` and `mem_routes_iff` say that a schema lists its routes in their order,
* `setUp_afterAll` puts together what holds after any calls,
* `SetUp.mem_unboundMethods_iff` and `SetUp.unboundMethods_pairwise` say it of the texts by which
  the methods that are not bound are reported.
-/
import SchemaRpc.Proofs.Dispatch.Setup
import SchemaRpc.Proofs.Schema.ImplicitNames

namespace SchemaRpc

namespace Route

/-- Neither the module nor the member has a dot in its name. -/
structure Plain (route : Route) : Prop where
  module : '.' ∉ route.module.toList
  member : '.' ∉ route.member.toList

lemma toList_text (route : Route) : route.text.toList =
    route.module.toList ++ '.' :: (route.member.toList ++ '.' :: route.method.toList) := by
  simp [text, ToString.toString, String.toList_append]

/-- The text of such a route tells which one it is. -/
lemma text_inj {a b : Route} (ha : a.Plain) (hb : b.Plain) (h : a.text = b.text) : a = b := by
  have hlist := congrArg String.toList h
  rw [toList_text, toList_text] at hlist
  obtain ⟨hmodule, hback⟩ := Schema.append_dot_inj ha.module hb.module hlist
  obtain ⟨hmember, hmethod⟩ := Schema.append_dot_inj ha.member hb.member hback
  rw [String.toList_inj] at hmodule hmember hmethod
  cases a
  cases b
  simp_all

end Route

/-! ## The order of a schema -/

namespace Schema

/-- A place in a schema: the position of a module, the tag of a member of it and the tag of a method
of the member. -/
@[ext]
structure Place where
  module : Nat
  member : Tag
  method : Tag

/-- A place stands before another in the order of a schema. -/
def Place.Before (a b : Place) : Prop :=
  a.module < b.module ∨
    a.module = b.module ∧ (a.member < b.member ∨ a.member = b.member ∧ a.method < b.method)

lemma Place.Before.irrefl (a : Place) : ¬ a.Before a := by
  rintro (h | ⟨-, h | ⟨-, h⟩⟩)
  · exact lt_irrefl _ h
  · exact lt_irrefl _ h
  · exact lt_irrefl _ h

/-- At a place of the schema stands a method, under the names of a route. -/
inductive StandsAt (s : Schema) : Route → Place → Prop
  | intro {i : Nat} {module : ModuleType} {member : Member} {method : Method}
    (hmodule : s.modules[i]? = some module) (hmember : member ∈ module.members)
    (hmethod : method ∈ (s.interfaceType member.interface).methods) :
    StandsAt s ⟨module.name, member.name, method.name⟩ ⟨i, member.tag, method.tag⟩

/-- A route stands before another in the schema. -/
def Precedes (s : Schema) (a b : Route) : Prop :=
  ∃ place place', s.StandsAt a place ∧ s.StandsAt b place' ∧ place.Before place'

variable {s : Schema} {p : Package} {route : Route} {place place' : Place}

/-- The routes are what stands somewhere in the schema. -/
lemma mem_routes_iff_standsAt : route ∈ s.routes ↔ ∃ place, s.StandsAt route place := by
  simp only [routes, List.mem_flatMap, List.mem_map]
  constructor
  · rintro ⟨module, hmodule, member, hmember, method, hmethod, rfl⟩
    obtain ⟨i, hi⟩ := List.mem_iff_getElem?.mp hmodule
    exact ⟨_, .intro hi hmember hmethod⟩
  · rintro ⟨_, hmodule, hmember, hmethod⟩
    exact ⟨_, List.mem_of_getElem? hmodule, _, hmember, _, hmethod, rfl⟩

lemma members_pairwise (h : s.Represents p) {module : ModuleType} (hmodule : module ∈ s.modules) :
    module.members.Pairwise (·.tag < ·.tag) := by
  obtain ⟨d, -, hd⟩ := exists_right_of_forall₂ h.modules module hmodule
  exact hd.members.ascends

lemma methods_pairwise (h : s.Represents p) (id : Nat) :
    (s.interfaceType id).methods.Pairwise (·.tag < ·.tag) := by
  unfold interfaceType
  -- past the end of the table stands an interface without methods
  cases hid : s.interfaces[id]? with
  | none => exact List.Pairwise.nil
  | some interface =>
    obtain ⟨d, -, hd⟩ :=
      exists_right_of_forall₂ h.interfaces interface (List.mem_of_getElem? hid)
    exact hd.methods.ascends

/-- The routes are listed in the order of the schema. -/
lemma routes_pairwise (h : s.Represents p) : s.routes.Pairwise s.Precedes := by
  have hroute {module : ModuleType} {route : Route} (hmem : route ∈ module.members.flatMap
      fun member => (s.interfaceType member.interface).methods.map fun method =>
        (⟨module.name, member.name, method.name⟩ : Route)) :
      ∃ member ∈ module.members, ∃ method ∈ (s.interfaceType member.interface).methods,
        ⟨module.name, member.name, method.name⟩ = route := by
    simpa only [List.mem_flatMap, List.mem_map] using hmem
  refine List.pairwise_flatMap.mpr ⟨fun module hmodule => ?_, ?_⟩
  · -- routes of one module stand in the order of its members
    obtain ⟨i, hi⟩ := List.mem_iff_getElem?.mp hmodule
    refine List.pairwise_flatMap.mpr ⟨fun member hmember => ?_, ?_⟩
    · -- routes of one member stand in the order of its methods
      refine List.pairwise_map.mpr ((methods_pairwise h _).imp_of_mem fun ha hb hlt => ?_)
      exact ⟨_, _, .intro hi hmember ha, .intro hi hmember hb, .inr ⟨rfl, .inr ⟨rfl, hlt⟩⟩⟩
    · refine (members_pairwise h hmodule).imp_of_mem fun ha hb hlt => ?_
      rintro _ hx _ hy
      obtain ⟨method, hmethod, rfl⟩ := List.mem_map.mp hx
      obtain ⟨method', hmethod', rfl⟩ := List.mem_map.mp hy
      exact ⟨_, _, .intro hi ha hmethod, .intro hi hb hmethod', .inr ⟨rfl, .inl hlt⟩⟩
  · refine List.pairwise_iff_getElem.mpr fun i j hi hj hlt => ?_
    rintro _ hx _ hy
    obtain ⟨member, hmember, method, hmethod, rfl⟩ := hroute hx
    obtain ⟨member', hmember', method', hmethod', rfl⟩ := hroute hy
    exact ⟨_, _, .intro (List.getElem?_eq_getElem hi) hmember hmethod,
      .intro (List.getElem?_eq_getElem hj) hmember' hmethod', .inl hlt⟩

section

variable (hclosed : s.Closed) (hfinds : s.FindsByName)

include hclosed hfinds

/-- What stands at a place of the schema is found under its names. -/
lemma standsAt_iff : s.StandsAt route place ↔ ∃ module member method,
    s.modules[place.module]? = some module ∧ s.module? route.module = some module ∧
      module.member? route.member = some member ∧ member.tag = place.member ∧
        (s.interfaceType member.interface).method? route.method = some method ∧
          method.tag = place.method := by
  have hinterface {module : ModuleType} (hmodule : module ∈ s.modules) {member : Member}
      (hmember : member ∈ module.members) :
      s.interfaceType member.interface ∈ s.interfaces := by
    have hlt := hclosed.members module hmodule member hmember
    rw [interfaceType, List.getElem?_eq_getElem hlt]
    exact List.getElem_mem hlt
  constructor
  · rintro @⟨i, module, member, method, hi, hmember, hmethod⟩
    have hmodule := List.mem_of_getElem? hi
    have hfound := (hfinds.method _ (hinterface hmodule hmember) _ _).mpr ⟨hmethod, rfl⟩
    exact ⟨module, member, method, hi, (hfinds.module _ _).mpr ⟨hmodule, rfl⟩,
      (hfinds.member module hmodule _ _).mpr ⟨hmember, rfl⟩, rfl, hfound, rfl⟩
  · obtain ⟨_, _, _⟩ := route
    obtain ⟨i, _, _⟩ := place
    rintro ⟨module, member, method, hi, hm, hfound, rfl, hfound', rfl⟩
    obtain ⟨hmodule, rfl⟩ := (hfinds.module _ _).mp hm
    obtain ⟨hmember, rfl⟩ := (hfinds.member module hmodule _ _).mp hfound
    obtain ⟨hmethod, rfl⟩ := (hfinds.method _ (hinterface hmodule hmember) _ _).mp hfound'
    exact .intro hi hmember hmethod

/-- The routes of a schema are those that it declares. -/
lemma mem_routes_iff : route ∈ s.routes ↔ s.Declares route := by
  rw [mem_routes_iff_standsAt, declares_iff]
  constructor
  · rintro ⟨place, hplace⟩
    obtain ⟨module, member, method, -, hmodule, hmember, -, hmethod, -⟩ :=
      (standsAt_iff hclosed hfinds).mp hplace
    refine ⟨method, ?_⟩
    simp only [methodOf?, route?, hmodule, Option.bind_eq_bind, Option.bind_some, hmember, hmethod]
  · rintro ⟨method, h⟩
    obtain ⟨module, hmodule, h⟩ := Option.bind_eq_some_iff.mp h
    obtain ⟨member, hmember, hmethod⟩ := Option.bind_eq_some_iff.mp h
    obtain ⟨i, hi⟩ := List.mem_iff_getElem?.mp ((hfinds.module _ _).mp hmodule).1
    exact ⟨⟨i, member.tag, method.tag⟩, (standsAt_iff hclosed hfinds).mpr
      ⟨module, member, method, hi, hmodule, hmember, rfl, hmethod, rfl⟩⟩

/-- A route stands at one place. -/
lemma StandsAt.unique (hunique : s.layout.Unique) (h : s.StandsAt route place)
    (h' : s.StandsAt route place') : place = place' := by
  obtain ⟨module, member, method, hi, hmodule, hmember, htag, hmethod, htag'⟩ :=
    (standsAt_iff hclosed hfinds).mp h
  obtain ⟨module₁, member₁, method₁, hi₁, hmodule₁, hmember₁, htag₁, hmethod₁, htag₁'⟩ :=
    (standsAt_iff hclosed hfinds).mp h'
  -- the names find one module, one member and one method
  obtain rfl : module = module₁ := Option.some_injective _ (hmodule.symm.trans hmodule₁)
  obtain rfl : member = member₁ := Option.some_injective _ (hmember.symm.trans hmember₁)
  obtain rfl : method = method₁ := Option.some_injective _ (hmethod.symm.trans hmethod₁)
  have hnodup : s.modules.Nodup := List.Nodup.of_map _ (hunique.nodup .module)
  have hlt := (List.getElem?_eq_some_iff.mp hi).1
  have hindex := (List.getElem?_inj hlt hnodup).mp (hi.trans hi₁.symm)
  exact Place.ext hindex (htag.symm.trans htag₁) (htag'.symm.trans htag₁')

/-- The routes of a schema are different. -/
lemma routes_nodup (hunique : s.layout.Unique) (h : s.Represents p) : s.routes.Nodup := by
  refine (routes_pairwise h).imp ?_
  rintro route _ ⟨place, place', hplace, hplace', hbefore⟩ rfl
  obtain rfl := hplace.unique hclosed hfinds hunique hplace'
  exact hbefore.irrefl

end

end Schema

/-! ## Calls that set up a registry -/

namespace Registry

variable {H : Type} {r r' : Registry H} {route : Route} {binding : Binding H}

/-- A call that binds handlers. -/
inductive SetupCall (H : Type) where
  | implement (route : Route) (handler : H)
  | mount (module member : String) (handlers : Ascending String H none)

/-- What a call does. -/
def SetupCall.run : SetupCall H → Setup H Unit
  | .implement route handler => Registry.implement route handler
  | .mount module member handlers => Registry.mount module member handlers

/-- The handler that a call has for a route. -/
def SetupCall.handler? : SetupCall H → Route → Option H
  | .implement route handler, other => if other = route then some handler else none
  | .mount module member handlers, route =>
    if route.module = module ∧ route.member = member then handlers.find? route.method else none

/-- The registry that a call leaves, whether it succeeds or fails. -/
def after (r : Registry H) (call : SetupCall H) : Registry H :=
  match call.run r with
  | .ok _ r' => r'
  | .error _ r' => r'

/-- The registry that calls leave, one after the other. -/
def afterAll (r : Registry H) (calls : List (SetupCall H)) : Registry H := calls.foldl after r

/-- The call binds a handler of its own to a route that was free. -/
structure BindsFirst (r : Registry H) (call : SetupCall H) (route : Route) (binding : Binding H) :
    Prop where
  free : r.lookup route = none
  bound : (r.after call).lookup route = some binding
  handler : call.handler? route = some binding.handler

lemma leaves_after (r : Registry H) (call : SetupCall H) : Leaves call.run r (r.after call) := by
  rw [Leaves, after]
  cases hrun : call.run r with
  | ok a r' => exact .inl ⟨a, rfl⟩
  | error e r' => exact .inr ⟨e, rfl⟩

/-- A call binds some of the handlers that it has, each to the route that it has it for. -/
lemma binds_after (r : Registry H) (call : SetupCall H) :
    ∃ module member handlers, Binds module member handlers r (r.after call) ∧
      ∀ entry ∈ handlers, call.handler? ⟨module, member, entry.1⟩ = some entry.2 := by
  have hleaves := leaves_after r call
  cases call with
  | implement route handler =>
    obtain ⟨bound, hstarts, hbinds⟩ := binds_of_implement hleaves
    refine ⟨_, _, bound, hbinds, fun entry hentry => ?_⟩
    obtain rfl := List.mem_singleton.mp (hstarts.subset hentry)
    rw [SetupCall.handler?, if_pos rfl]
  | mount module member handlers =>
    obtain ⟨bound, hstarts, hbinds⟩ := binds_of_mount hleaves
    refine ⟨_, _, bound, hbinds, fun entry hentry => ?_⟩
    rw [SetupCall.handler?, if_pos ⟨rfl, rfl⟩]
    exact (Ascending.mem_toList_iff _ _ _).mp (hstarts.subset hentry)

/-- What one call does to the binding of a route: it keeps it, or it binds the route first. -/
lemma lookup_after (r : Registry H) (call : SetupCall H) :
    (r.after call).lookup route = some binding ↔
      r.lookup route = some binding ∨ r.BindsFirst call route binding := by
  obtain ⟨module, member, handlers, hbinds, hhandlers⟩ := binds_after r call
  constructor
  · intro h
    rcases (hbinds.lookup route binding).mp h with hkept | ⟨rfl, rfl, hentry, -⟩
    · exact .inl hkept
    · exact .inr ⟨hbinds.free _ hentry, h, hhandlers _ hentry⟩
  · rintro (hbefore | hfirst)
    · exact hbinds.keeps hbefore
    · exact hfirst.bound

lemma Built.after (h : r.Built) (call : SetupCall H) : (r.after call).Built := by
  have hleaves := leaves_after r call
  cases call with
  | implement => exact .implement h hleaves
  | mount => exact .mount h hleaves

lemma schema_after (r : Registry H) (call : SetupCall H) : (r.after call).schema = r.schema := by
  obtain ⟨_, _, _, hbinds, -⟩ := binds_after r call
  exact hbinds.schema

/-! ## Runs of calls -/

lemma afterAll_cons (r : Registry H) (call : SetupCall H) (more : List (SetupCall H)) :
    r.afterAll (call :: more) = (r.after call).afterAll more := rfl

lemma afterAll_append (r : Registry H) (before more : List (SetupCall H)) :
    r.afterAll (before ++ more) = (r.afterAll before).afterAll more := List.foldl_append

lemma schema_afterAll (r : Registry H) (calls : List (SetupCall H)) :
    (r.afterAll calls).schema = r.schema := by
  induction calls generalizing r with
  | nil => rfl
  | cons call more ih => rw [afterAll_cons, ih, schema_after]

lemma Built.afterAll (h : r.Built) (calls : List (SetupCall H)) : (r.afterAll calls).Built := by
  induction calls generalizing r with
  | nil => exact h
  | cons call more ih => exact ih (h.after call)

/-- No call exchanges a binding or takes it away. -/
lemma keeps_afterAll (h : r.lookup route = some binding) (calls : List (SetupCall H)) :
    (r.afterAll calls).lookup route = some binding := by
  induction calls generalizing r with
  | nil => exact h
  | cons call more ih => exact ih ((lookup_after r call).mpr (.inl h))

/-- What calls bind to a route is what the first of them binds that binds the route at all. -/
theorem lookup_afterAll (r : Registry H) (calls : List (SetupCall H)) :
    (r.afterAll calls).lookup route = some binding ↔
      r.lookup route = some binding ∨
        ∃ before call more, calls = before ++ call :: more ∧
          (r.afterAll before).BindsFirst call route binding := by
  constructor
  · intro h
    induction calls generalizing r with
    | nil => exact .inl h
    | cons call more ih =>
      rcases ih (r.after call) h with hbound | ⟨before, later, rest, rfl, hfirst⟩
      · rcases (lookup_after r call).mp hbound with hbefore | hfirst
        · exact .inl hbefore
        · exact .inr ⟨[], call, more, rfl, hfirst⟩
      · exact .inr ⟨call :: before, later, rest, rfl, hfirst⟩
  · rintro (hbefore | ⟨before, call, more, rfl, hfirst⟩)
    · exact keeps_afterAll hbefore calls
    · rw [afterAll_append, afterAll_cons]
      exact keeps_afterAll hfirst.bound more

/-- Without handlers at first, what is bound is what some call binds first. -/
lemma lookup_afterAll_ofSchema (s : Schema) (calls : List (SetupCall H)) (route : Route)
    (binding : Binding H) : ((ofSchema s).afterAll calls).lookup route = some binding ↔
      ∃ before call more, calls = before ++ call :: more ∧
        ((ofSchema s).afterAll before).BindsFirst call route binding := by
  have hfree : (ofSchema s : Registry H).lookup route = none := rfl
  rw [lookup_afterAll, hfree]
  exact or_iff_right nofun

/-! ## What holds of a registry -/

/-- A route that is bound cannot be bound again. -/
lemma implement_of_lookup (hr : r.Sound) (h : r.lookup route = some binding) (handler : H) :
    implement route handler r = .error (.methodTaken route) r := by
  have hdeclared := Schema.declares_iff.mpr ⟨_, hr route binding h⟩
  rcases implement_cases r route handler with ⟨r', -, hbinds⟩ | ⟨-, -, herror⟩ | ⟨e, he, -⟩
  · have hfree : r.lookup route = none := hbinds.free _ List.mem_cons_self
    rw [h] at hfree
    cases hfree
  · exact herror
  · exact absurd hdeclared (Schema.not_declares_iff.mpr ⟨e, he⟩)

/-- A route that is declared and free can be bound. -/
lemma implement_of_declares (hdeclared : r.schema.Declares route) (hfree : r.lookup route = none)
    (handler : H) : ∃ r', implement route handler r = .ok () r' ∧
      Binds route.module route.member [(route.method, handler)] r r' := by
  rcases implement_cases r route handler with hok | ⟨-, htaken, -⟩ | ⟨e, he, -⟩
  · exact hok
  · rw [hfree] at htaken
    cases htaken
  · exact absurd hdeclared (Schema.not_declares_iff.mpr ⟨e, he⟩)

/-- To bind a handler changes nothing where it fails. -/
lemma eq_of_implement_eq_error {handler : H} {e : BindError}
    (h : implement route handler r = .error e r') : r' = r := by
  have hleaves : Leaves (implement route handler) r r' := .inr ⟨e, h⟩
  rcases implement_cases r route handler with ⟨_, hok, -⟩ | ⟨-, -, herror⟩ | ⟨_, -, herror⟩
  · rw [hok] at h
    cases h
  · exact hleaves.eq_of_error herror
  · exact hleaves.eq_of_error herror

lemma mem_routes_iff : route ∈ r.routes ↔ ∃ binding, r.lookup route = some binding := by
  rw [routes, Ascending.mem_keys_iff, Option.isSome_iff_exists]
  rfl

section

variable (hclosed : r.schema.Closed) (hfinds : r.schema.FindsByName)

include hclosed hfinds

lemma mem_unbound_iff : route ∈ r.unbound ↔ r.schema.Declares route ∧ r.lookup route = none := by
  rw [unbound, List.mem_filter, Schema.mem_routes_iff hclosed hfinds, Option.isNone_iff_eq_none]

/-- What is bound and what is not make up the schema. -/
lemma mem_routes_append_unbound_iff (hr : r.Sound) :
    route ∈ r.routes ++ r.unbound ↔ r.schema.Declares route := by
  rw [List.mem_append, mem_routes_iff, mem_unbound_iff hclosed hfinds]
  constructor
  · rintro (⟨binding, h⟩ | ⟨hdeclared, -⟩)
    · exact Schema.declares_iff.mpr ⟨_, hr route binding h⟩
    · exact hdeclared
  · intro hdeclared
    cases h : r.lookup route with
    | some binding => exact .inl ⟨binding, rfl⟩
    | none => exact .inr ⟨hdeclared, rfl⟩

/-- No route is listed twice, be it bound or not. -/
lemma nodup_routes_append_unbound {p : Package} (hunique : r.schema.layout.Unique)
    (h : r.schema.Represents p) : (r.routes ++ r.unbound).Nodup := by
  have hroutes : r.routes.Nodup := r.bindings.pairwise_keys.imp fun hlt => hlt.ne
  have hunbound : r.unbound.Nodup := (Schema.routes_nodup hclosed hfinds hunique h).filter _
  refine List.nodup_append'.mpr ⟨hroutes, hunbound, fun route hbound hfree => ?_⟩
  obtain ⟨binding, hlookup⟩ := mem_routes_iff.mp hbound
  have hnone := ((mem_unbound_iff hclosed hfinds).mp hfree).2
  rw [hlookup] at hnone
  cases hnone

end

/-- What holds of a registry for a schema after calls have set it up. -/
structure SetUp (s : Schema) (calls : List (SetupCall H)) (r : Registry H) : Prop where
  schema : r.schema = s
  /-- What is bound is declared and is bound with the method that is declared. -/
  method : ∀ route binding, r.lookup route = some binding →
    s.methodOf? route = some binding.method
  /-- A route has the handler of the first call that bound it. -/
  first : ∀ route binding, r.lookup route = some binding ↔
    ∃ before call more, calls = before ++ call :: more ∧
      ((ofSchema s).afterAll before).BindsFirst call route binding
  /-- Whatever calls follow, a binding stays and cannot be made again. -/
  kept : ∀ route binding, r.lookup route = some binding → ∀ more,
    (r.afterAll more).lookup route = some binding ∧
      ∀ handler, implement route handler (r.afterAll more) =
        .error (.methodTaken route) (r.afterAll more)
  /-- To bind a handler to a route that is declared and free succeeds. -/
  succeeds : ∀ route handler, s.Declares route → r.lookup route = none →
    ∃ r', implement route handler r = .ok () r' ∧
      Binds route.module route.member [(route.method, handler)] r r'
  /-- To bind a handler changes nothing where it fails. -/
  fails : ∀ route handler e r', implement route handler r = .error e r' → r' = r
  routes_ascend : r.routes.Pairwise (· < ·)
  mem_routes : ∀ route, route ∈ r.routes ↔ ∃ binding, r.lookup route = some binding
  unbound_ascend : r.unbound.Pairwise s.Precedes
  mem_unbound : ∀ route, route ∈ r.unbound ↔ s.Declares route ∧ r.lookup route = none
  /-- What is bound and what is not make up the schema, each route once. -/
  nodup : (r.routes ++ r.unbound).Nodup
  mem_append : ∀ route, route ∈ r.routes ++ r.unbound ↔ s.Declares route

/-- **Registries that are set up.**  What is bound is what the calls bound first, and it makes up
the schema together with what is not bound. -/
theorem setUp_afterAll {p : Package} {s : Schema} (hp : Schema.resolve p = .ok s)
    (calls : List (SetupCall H)) : SetUp s calls ((ofSchema s).afterAll calls) := by
  obtain ⟨hrepresents, claimed, hdescribes⟩ := Schema.resolve_represents hp
  have hclosed := Schema.closed_of_represents hdescribes hrepresents
  have hfinds := Schema.findsByName hdescribes hrepresents
  have hbuilt : ((ofSchema s).afterAll calls).Built := Built.afterAll (.ofSchema s) calls
  have hfirst := lookup_afterAll_ofSchema s calls
  -- the registry has the schema that it started with
  have hschema : ((ofSchema s).afterAll calls).schema = s := schema_afterAll (ofSchema s) calls
  generalize (ofSchema s).afterAll calls = r at *
  subst hschema
  have hsound := hbuilt.sound
  constructor
  · rfl
  · exact hsound
  · exact hfirst
  · intro route binding h more
    have hkept := keeps_afterAll h more
    exact ⟨hkept, implement_of_lookup (hbuilt.afterAll more).sound hkept⟩
  · intro route handler hdeclared hfree
    exact implement_of_declares hdeclared hfree handler
  · intro route handler e r' h
    exact eq_of_implement_eq_error h
  · exact r.bindings.pairwise_keys
  · intro route
    exact mem_routes_iff
  · exact (Schema.routes_pairwise hrepresents).filter _
  · intro route
    exact mem_unbound_iff hclosed hfinds
  · exact nodup_routes_append_unbound hclosed hfinds hdescribes.unique hrepresents
  · intro route
    exact mem_routes_append_unbound_iff hclosed hfinds hsound

/-! ## Texts of routes -/

section

variable {s : Schema} {calls : List (SetupCall H)} {r : Registry H}

/-- A method is reported just if some declared route without a handler has its text. -/
theorem SetUp.mem_unboundMethods_iff (h : SetUp s calls r) {text : String} :
    text ∈ r.unboundMethods ↔
      ∃ route, s.Declares route ∧ r.lookup route = none ∧ route.text = text := by
  simp only [unboundMethods, List.mem_map, h.mem_unbound, and_assoc]

/-- The methods are reported in the order of the schema, and each one once if neither modules nor
members have dots in their names. -/
theorem SetUp.unboundMethods_pairwise (h : SetUp s calls r)
    (hplain : ∀ route, s.Declares route → route.Plain) :
    r.unboundMethods.Pairwise fun a b => a ≠ b ∧
      ∃ route route', route.text = a ∧ route'.text = b ∧ s.Precedes route route' := by
  have hdistinct : r.unbound.Pairwise (· ≠ ·) := (List.nodup_append'.mp h.nodup).2.1
  rw [unboundMethods, List.pairwise_map]
  refine (h.unbound_ascend.and hdistinct).imp_of_mem fun {a b} ha hb hab => ?_
  obtain ⟨hbefore, hne⟩ := hab
  have hplaina : a.Plain := hplain a ((h.mem_unbound a).mp ha).1
  have hplainb : b.Plain := hplain b ((h.mem_unbound b).mp hb).1
  exact ⟨fun htext => hne (Route.text_inj hplaina hplainb htext), a, b, rfl, rfl, hbefore⟩

end

/-- Calls at the desk: one for a method that there is not, a mount that stops at the same method,
one for a method that is bound by then, and a mount of nothing. -/
def deskCalls : List (SetupCall String) := [
  .implement ⟨"Office", "front", "zap"⟩ "spark", .mount "Office" "front" deskHandlers,
  .implement ⟨"Office", "front", "close"⟩ "bolt", .mount "Attic" "front" .nil]

/-- The calls bind one method of the desk, and the other one is not bound. -/
theorem setUp_afterAll_desk :
    SetUp Schema.deskSchema deskCalls (emptyDesk.afterAll deskCalls) ∧
      (emptyDesk.afterAll deskCalls).routes = [⟨"Office", "front", "close"⟩] ∧
        (emptyDesk.afterAll deskCalls).unbound = [⟨"Office", "front", "weigh"⟩] :=
  ⟨setUp_afterAll Schema.resolve_desk deskCalls, rfl, rfl⟩

end Registry

end SchemaRpc
