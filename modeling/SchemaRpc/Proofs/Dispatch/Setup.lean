/-
# Setting up a registry

What the operations on a registry do to its bindings.  Binding a handler to a route adds that one
binding or leaves everything as it was.  Mounting binds the handlers of a member one after the
other, in the order of their names, and stops at the first name that is not declared; what was
bound by then stays bound.

* `implement_cases` and `mount_cases` say all that an operation can do,
* `Built.sound` says that bindings carry the methods of their routes,
* `mount_allOrNothing_iff` says which mounts either bind everything or change nothing.
-/
import SchemaRpc.Proofs.Dispatch.Registry
import SchemaRpc.Proofs.Schema.Resolution

namespace SchemaRpc

namespace Schema

/-- The schema declares the member of a module. -/
def DeclaresMember (s : Schema) (module member : String) : Prop :=
  ∃ m ∈ s.module? module, (m.member? member).isSome

/-- The schema declares a route. -/
def Declares (s : Schema) (route : Route) : Prop := (s.methodOf? route).isSome

variable {s : Schema} {route : Route}

lemma declares_iff : s.Declares route ↔ ∃ method, s.methodOf? route = some method :=
  Option.isSome_iff_exists

/-- What cannot be found is not declared. -/
lemma not_declares_iff : ¬ s.Declares route ↔ ∃ e, s.findMethod route = .error e := by
  rw [declares_iff]
  simp only [← findMethod_eq_ok_iff]
  cases s.findMethod route <;> simp

end Schema

namespace Registry

variable {H : Type} {r r₁ r' : Registry H} {module member : String}
  {handlers more : List (String × H)}

/-! ## What is bound -/

/-- A registry after handlers have been bound to methods of a member, all of them declared and
none of them bound before. -/
structure Binds (module member : String) (handlers : List (String × H)) (r r' : Registry H) :
    Prop where
  schema : r'.schema = r.schema
  declared : ∀ entry ∈ handlers, r.schema.Declares ⟨module, member, entry.1⟩
  free : ∀ entry ∈ handlers, r.lookup ⟨module, member, entry.1⟩ = none
  lookup : ∀ route binding, r'.lookup route = some binding ↔
    r.lookup route = some binding ∨
      route.module = module ∧ route.member = member ∧ (route.method, binding.handler) ∈ handlers ∧
        r.schema.methodOf? route = some binding.method

lemma Binds.nil : Binds module member [] r r := by
  constructor <;> simp

/-- What was bound before is still bound. -/
lemma Binds.keeps (h : Binds module member handlers r r') {route : Route} {binding : Binding H}
    (hbound : r.lookup route = some binding) : r'.lookup route = some binding :=
  (h.lookup route binding).mpr (.inl hbound)

lemma Binds.append (h : Binds module member handlers r r₁) (h' : Binds module member more r₁ r') :
    Binds module member (handlers ++ more) r r' where
  schema := h'.schema.trans h.schema
  declared := by
    have hmore := h'.declared
    rw [h.schema] at hmore
    exact List.forall_mem_append.mpr ⟨h.declared, hmore⟩
  free := by
    refine List.forall_mem_append.mpr ⟨h.free, fun entry hentry => ?_⟩
    refine Option.eq_none_iff_forall_ne_some.mpr fun binding hbound => ?_
    have hkept := h.keeps hbound
    rw [h'.free entry hentry] at hkept
    cases hkept
  lookup := by
    intro route binding
    rw [h'.lookup, h.lookup, h.schema, List.mem_append]
    tauto

/-- The routes that are bound are those bound before and those of the handlers. -/
lemma Binds.isSome_lookup (h : Binds module member handlers r r') (route : Route) :
    (r'.lookup route).isSome ↔ (r.lookup route).isSome ∨
      route.module = module ∧ route.member = member ∧ route.method ∈ handlers.map (·.1) := by
  simp only [Option.isSome_iff_exists, h.lookup, exists_or]
  refine or_congr_right ⟨?_, ?_⟩
  · rintro ⟨binding, hmodule, hmember, hmem, -⟩
    exact ⟨hmodule, hmember, List.mem_map_of_mem hmem⟩
  · rintro ⟨rfl, rfl, hmem⟩
    obtain ⟨⟨name, handler⟩, hentry, rfl⟩ := List.mem_map.mp hmem
    obtain ⟨method, hmethod⟩ := Schema.declares_iff.mp (h.declared _ hentry)
    exact ⟨⟨method, handler⟩, rfl, rfl, hentry, hmethod⟩

/-! ## Binding one handler -/

/-- A handler is bound to a route that is declared and free; else nothing changes. -/
lemma implement_cases (r : Registry H) (route : Route) (handler : H) :
    (∃ r', implement route handler r = .ok () r' ∧
        Binds route.module route.member [(route.method, handler)] r r') ∨
      (r.schema.Declares route ∧ (r.lookup route).isSome ∧
        implement route handler r = .error (.methodTaken route) r) ∨
      ∃ e, r.schema.findMethod route = .error e ∧ implement route handler r = .error e r := by
  cases hmethod : r.schema.findMethod route with
  | error e =>
    refine .inr (.inr ⟨e, rfl, ?_⟩)
    simp only [implement, hmethod]
  | ok method =>
    have hdeclared := Schema.findMethod_eq_ok_iff.mp hmethod
    cases hlookup : r.lookup route with
    | some binding =>
      refine .inr (.inl ⟨Schema.declares_iff.mpr ⟨method, hdeclared⟩, rfl, ?_⟩)
      simp only [implement, hmethod, hlookup]
    | none =>
      refine .inl ⟨{ r with bindings := r.bindings.insert route ⟨method, handler⟩ }, ?_, ?_⟩
      · simp only [implement, hmethod, hlookup]
      · refine ⟨rfl, by simpa using Schema.declares_iff.mpr ⟨method, hdeclared⟩,
          by simpa using hlookup, fun other binding => ?_⟩
        show (r.bindings.insert route ⟨method, handler⟩).find? other = some binding ↔ _
        rw [Ascending.find?_insert]
        by_cases hother : other = route
        · subst hother
          rw [if_pos rfl, hlookup, hdeclared]
          obtain ⟨method', handler'⟩ := binding
          simp [and_comm, eq_comm]
        · -- another route differs from this one in the module, the member or the method
          have hroute : ¬ (other.module = route.module ∧ other.member = route.member ∧
              other.method = route.method) := by
            rintro ⟨h₁, h₂, h₃⟩
            exact hother (by cases other; cases route; simp_all)
          rw [if_neg hother]
          simp only [List.mem_singleton, Prod.mk.injEq]
          tauto

/-! ## Binding the handlers of a member -/

/-- Handlers are bound up to the first one whose method is not declared. -/
lemma implementAll_cases (r : Registry H) {handlers : List (String × H)}
    (hnames : (handlers.map (·.1)).Nodup)
    (hfree : ∀ entry ∈ handlers, r.lookup ⟨module, member, entry.1⟩ = none) :
    (∃ r', implementAll module member handlers r = .ok () r' ∧
        Binds module member handlers r r') ∨
      ∃ bound method handler rest e r', handlers = bound ++ (method, handler) :: rest ∧
        r.schema.findMethod ⟨module, member, method⟩ = .error e ∧
          implementAll module member handlers r = .error e r' ∧
            Binds module member bound r r' := by
  induction handlers generalizing r with
  | nil => exact .inl ⟨r, rfl, .nil⟩
  | cons entry more ih =>
    obtain ⟨name, handler⟩ := entry
    rw [List.map_cons, List.nodup_cons] at hnames
    rw [List.forall_mem_cons] at hfree
    rcases implement_cases r ⟨module, member, name⟩ handler with
      ⟨r₁, hrun, hbinds⟩ | ⟨-, htaken, -⟩ | ⟨e, he, hrun⟩
    · have hstep : implementAll module member ((name, handler) :: more) r =
          implementAll module member more r₁ := by
        simp only [implementAll, bind, EStateM.bind, hrun]
      -- the other methods are still free, since their names are different
      have hfree₁ : ∀ entry ∈ more, r₁.lookup ⟨module, member, entry.1⟩ = none := by
        intro entry hentry
        refine Option.not_isSome_iff_eq_none.mp fun hbound => ?_
        rcases (hbinds.isSome_lookup _).mp hbound with hbefore | ⟨-, -, hname⟩
        · rw [hfree.2 entry hentry] at hbefore
          cases hbefore
        · obtain rfl : entry.1 = name := by simpa using hname
          exact hnames.1 (List.mem_map.mpr ⟨entry, hentry, rfl⟩)
      rw [hstep]
      rcases ih r₁ hnames.2 hfree₁ with ⟨r', hmore, hbinds'⟩ |
        ⟨bound, method, handler', rest, e, r', rfl, he, hmore, hbinds'⟩
      · exact .inl ⟨r', hmore, hbinds.append hbinds'⟩
      · rw [hbinds.schema] at he
        exact .inr ⟨(name, handler) :: bound, method, handler', rest, e, r', rfl, he, hmore,
          hbinds.append hbinds'⟩
    · rw [hfree.1] at htaken
      cases htaken
    · refine .inr ⟨[], name, handler, more, e, r, rfl, he, ?_, .nil⟩
      simp only [implementAll, bind, EStateM.bind, hrun]

/-- A member is mounted once a method of it is bound. -/
lemma isMounted_iff : r.isMounted module member ↔
    ∃ method, (r.lookup ⟨module, member, method⟩).isSome := by
  simp only [isMounted, routes, List.any_eq_true, decide_eq_true_eq, Ascending.mem_keys_iff]
  constructor
  · rintro ⟨⟨_, _, method⟩, hbound, rfl, rfl⟩
    exact ⟨method, hbound⟩
  · rintro ⟨method, hbound⟩
    exact ⟨_, hbound, rfl, rfl⟩

/-- A member with handlers bound to it is mounted. -/
lemma Binds.isMounted (h : Binds module member handlers r r') (hne : handlers ≠ []) :
    r'.isMounted module member := by
  obtain ⟨entry, hentry⟩ := List.exists_mem_of_ne_nil handlers hne
  refine isMounted_iff.mpr ⟨entry.1, (h.isSome_lookup _).mpr (.inr ⟨rfl, rfl, ?_⟩)⟩
  exact List.mem_map.mpr ⟨entry, hentry, rfl⟩

/-- Only where no handlers are bound nothing changes. -/
lemma Binds.eq_iff (h : Binds module member handlers r r') : r' = r ↔ handlers = [] := by
  constructor
  · rintro rfl
    by_contra hne
    obtain ⟨entry, hentry⟩ := List.exists_mem_of_ne_nil handlers hne
    have hname : entry.1 ∈ handlers.map (·.1) := List.mem_map.mpr ⟨entry, hentry, rfl⟩
    have hbound := (h.isSome_lookup ⟨module, member, entry.1⟩).mpr (.inr ⟨rfl, rfl, hname⟩)
    rw [h.free entry hentry] at hbound
    cases hbound
  · rintro rfl
    have hbindings : r'.bindings = r.bindings := by
      refine Ascending.ext _ _ fun route => Option.ext fun binding => ?_
      show r'.lookup route = some binding ↔ r.lookup route = some binding
      simpa using h.lookup route binding
    obtain ⟨schema, bindings⟩ := r
    obtain ⟨schema', bindings'⟩ := r'
    obtain rfl : schema' = schema := h.schema
    obtain rfl : bindings' = bindings := hbindings
    rfl

/-- A mount is refused, binds all handlers, or stops at the first one whose method is not
declared. -/
lemma mount_cases (r : Registry H) (module member : String) (handlers : Ascending String H none) :
    (r.isMounted module member ∧
        mount module member handlers r = .error (.memberTaken module member) r) ∨
      (¬ r.isMounted module member ∧ ∃ r', mount module member handlers r = .ok () r' ∧
        Binds module member handlers.toList r r') ∨
      (¬ r.isMounted module member ∧ ∃ bound method handler rest e r',
        handlers.toList = bound ++ (method, handler) :: rest ∧
          r.schema.findMethod ⟨module, member, method⟩ = .error e ∧
            mount module member handlers r = .error e r' ∧ Binds module member bound r r') := by
  have hrun : mount module member handlers r =
      (if r.isMounted module member then throw (.memberTaken module member)
        else implementAll module member handlers.toList) r := rfl
  by_cases hmounted : r.isMounted module member
  · rw [if_pos hmounted] at hrun
    exact .inl ⟨hmounted, hrun⟩
  · rw [if_neg hmounted] at hrun
    -- nothing of the member is bound, and the names of the handlers ascend
    have hfree : ∀ entry ∈ handlers.toList, r.lookup ⟨module, member, entry.1⟩ = none := by
      intro entry _
      refine Option.not_isSome_iff_eq_none.mp fun hbound => hmounted ?_
      exact isMounted_iff.mpr ⟨entry.1, hbound⟩
    have hnames : (handlers.toList.map (·.1)).Nodup :=
      handlers.pairwise_keys.imp fun hlt => hlt.ne
    rw [hrun]
    rcases implementAll_cases r hnames hfree with hbinds | hstops
    · exact .inr (.inl ⟨hmounted, hbinds⟩)
    · exact .inr (.inr ⟨hmounted, hstops⟩)

/-! ## Built registries -/

/-- To bind a handler leaves it bound or nothing new. -/
lemma binds_of_implement {route : Route} {handler : H}
    (h : Leaves (implement route handler) r r') :
    ∃ bound, bound <+: [(route.method, handler)] ∧
      Binds route.module route.member bound r r' := by
  rcases implement_cases r route handler with ⟨r₁, hrun, hbinds⟩ | ⟨-, -, hrun⟩ | ⟨e, -, hrun⟩
  · obtain rfl := h.eq_of_ok hrun
    exact ⟨_, List.prefix_rfl, hbinds⟩
  · obtain rfl := h.eq_of_error hrun
    exact ⟨[], List.nil_prefix, .nil⟩
  · obtain rfl := h.eq_of_error hrun
    exact ⟨[], List.nil_prefix, .nil⟩

/-- To mount leaves the first ones of the handlers bound. -/
lemma binds_of_mount {handlers : Ascending String H none}
    (h : Leaves (mount module member handlers) r r') :
    ∃ bound, bound <+: handlers.toList ∧ Binds module member bound r r' := by
  rcases mount_cases r module member handlers with ⟨-, hrun⟩ | ⟨-, r₁, hrun, hbinds⟩ |
    ⟨-, bound, _, _, _, e, r₁, hsplit, -, hrun, hbinds⟩
  · obtain rfl := h.eq_of_error hrun
    exact ⟨[], List.nil_prefix, .nil⟩
  · obtain rfl := h.eq_of_ok hrun
    exact ⟨_, List.prefix_rfl, hbinds⟩
  · obtain rfl := h.eq_of_error hrun
    rw [hsplit]
    exact ⟨bound, List.prefix_append _ _, hbinds⟩

lemma Binds.sound (h : Binds module member handlers r r') (hr : r.Sound) : r'.Sound := by
  intro route binding hbound
  rw [h.schema]
  rcases (h.lookup route binding).mp hbound with hbefore | ⟨-, -, -, hmethod⟩
  · exact hr route binding hbefore
  · exact hmethod

/-- **Bound methods.**  However a registry was built, its bindings carry the methods that its
schema has for their routes. -/
theorem Built.sound (h : r.Built) : r.Sound := by
  induction h with
  | ofSchema s =>
    intro route binding hlookup
    cases hlookup
  | implement _ hrun ih =>
    obtain ⟨_, -, hbinds⟩ := binds_of_implement hrun
    exact hbinds.sound ih
  | mount _ hrun ih =>
    obtain ⟨_, -, hbinds⟩ := binds_of_mount hrun
    exact hbinds.sound ih

/-! ## All or nothing -/

/-- A mount that succeeds is one of a declared member, of which nothing was bound and now just the
given methods are; a mount that fails changes nothing. -/
def AllOrNothing (r : Registry H) (module member : String) (handlers : Ascending String H none) :
    Prop :=
  match mount module member handlers r with
  | .ok _ r' => r.schema.DeclaresMember module member ∧ ¬ r.isMounted module member ∧
      Binds module member handlers.toList r r'
  | .error _ r' => r' = r

section

variable {handlers : Ascending String H none}

/-- A mount that binds all handlers is all or nothing if the member is declared. -/
lemma allOrNothing_of_binds (hfree : ¬ r.isMounted module member)
    (hrun : mount module member handlers r = .ok () r')
    (hbinds : Binds module member handlers.toList r r') :
    r.AllOrNothing module member handlers ↔ r.schema.DeclaresMember module member := by
  simp only [AllOrNothing, hrun]
  exact and_iff_left ⟨hfree, hbinds⟩

/-- A mount that stops is all or nothing if it stops at the first method. -/
lemma allOrNothing_of_stops {bound : List (String × H)} {e : BindError}
    (hrun : mount module member handlers r = .error e r')
    (hbinds : Binds module member bound r r') :
    r.AllOrNothing module member handlers ↔ bound = [] := by
  simp only [AllOrNothing, hrun]
  exact hbinds.eq_iff

end

/-- A member that is mounted cannot be mounted. -/
lemma mount_of_isMounted (h : r.isMounted module member) (handlers : Ascending String H none) :
    mount module member handlers r = .error (.memberTaken module member) r := by
  rcases mount_cases r module member handlers with ⟨-, hrefused⟩ | ⟨hfree, -⟩ | ⟨hfree, -⟩
  · exact hrefused
  · exact absurd h hfree
  · exact absurd h hfree

/-- A mount that fails and yet changes something leaves the member mounted. -/
lemma isMounted_of_mount_eq_error {handlers : Ascending String H none} {e : BindError}
    (h : mount module member handlers r = .error e r') (hne : r' ≠ r) :
    r'.isMounted module member := by
  obtain ⟨bound, -, hbinds⟩ := binds_of_mount (.inr ⟨e, h⟩)
  exact hbinds.isMounted (mt hbinds.eq_iff.mpr hne)

/-- **Mounts that are all or nothing.**  They are those that are refused because the member is
mounted, those of a declared member with methods that are all declared, and those in which already
the first method is not declared.  Any other mount that fails leaves methods bound, and from then
on no mount of the member succeeds. -/
theorem mount_allOrNothing_iff (r : Registry H) (module member : String)
    (handlers : Ascending String H none) :
    (r.AllOrNothing module member handlers ↔
      r.isMounted module member ∨
        (r.schema.DeclaresMember module member ∧
          ∀ method ∈ handlers.keys, r.schema.Declares ⟨module, member, method⟩) ∨
        ∃ first ∈ handlers.keys.head?, ¬ r.schema.Declares ⟨module, member, first⟩) ∧
    ∀ e r', mount module member handlers r = .error e r' → r' ≠ r →
      ∀ others, mount module member others r' = .error (.memberTaken module member) r' := by
  refine ⟨?_, fun e r' h hne => mount_of_isMounted (isMounted_of_mount_eq_error h hne)⟩
  rcases mount_cases r module member handlers with ⟨hmounted, hrun⟩ | ⟨hfree, r₁, hrun, hbinds⟩ |
    ⟨hfree, bound, method, handler, rest, e, r₁, hsplit, he, hrun, hbinds⟩
  · -- the member is mounted
    simp [AllOrNothing, hrun, hmounted]
  · -- all handlers are bound
    have hdeclared : ∀ method ∈ handlers.keys, r.schema.Declares ⟨module, member, method⟩ := by
      intro method hmethod
      obtain ⟨entry, hentry, rfl⟩ := List.mem_map.mp hmethod
      exact hbinds.declared entry hentry
    rw [allOrNothing_of_binds hfree hrun hbinds]
    constructor
    · intro hmember
      exact .inr (.inl ⟨hmember, hdeclared⟩)
    · rintro (hmounted | ⟨hmember, -⟩ | ⟨first, hfirst, hnot⟩)
      · exact absurd hmounted hfree
      · exact hmember
      · exact absurd (hdeclared first (List.mem_of_mem_head? hfirst)) hnot
  · -- the handlers before the first method that is not declared are bound
    have hnot : ¬ r.schema.Declares ⟨module, member, method⟩ :=
      Schema.not_declares_iff.mpr ⟨e, he⟩
    have hkeys : handlers.keys = bound.map (·.1) ++ method :: rest.map (·.1) := by
      simp [Ascending.keys, hsplit]
    rw [allOrNothing_of_stops hrun hbinds, hkeys]
    constructor
    · rintro rfl
      exact .inr (.inr ⟨method, rfl, hnot⟩)
    · rintro (hmounted | ⟨-, hall⟩ | ⟨first, hfirst, hfirstNot⟩)
      · exact absurd hmounted hfree
      · exact absurd (hall method (by simp)) hnot
      · cases bound with
        | nil => rfl
        | cons entry bound =>
          obtain rfl : entry.1 = first := by simpa using hfirst
          exact absurd (hbinds.declared entry List.mem_cons_self) hfirstNot

/-- Handlers for a desk: for a method that it has and for one that it does not have. -/
def deskHandlers : Ascending String String none :=
  .cons "close" (fun _ h => nomatch h) "door" (.cons "zap" (by decide) "spark" .nil)

/-- The desk before anything is bound. -/
def emptyDesk : Registry String := ofSchema Schema.deskSchema

/-- A mount of the desk fails at its second method and leaves the first one bound, so that the desk
cannot be mounted any more; and nothing at all can be mounted in an attic that is not declared. -/
theorem not_allOrNothing_desk :
    (∃ e r', mount "Office" "front" deskHandlers emptyDesk = .error e r' ∧
      r'.routes = [⟨"Office", "front", "close"⟩] ∧
        mount "Office" "front" (.cons "weigh" (fun _ h => nomatch h) "scales" .nil) r' =
          .error (.memberTaken "Office" "front") r') ∧
      mount "Attic" "front" .nil emptyDesk = .ok () emptyDesk ∧
        ¬ emptyDesk.AllOrNothing "Office" "front" deskHandlers ∧
          ¬ emptyDesk.AllOrNothing "Attic" "front" .nil := by
  obtain ⟨e, r', hstops, hroutes, hagain⟩ : ∃ e r',
      mount "Office" "front" deskHandlers emptyDesk = .error e r' ∧
        r'.routes = [⟨"Office", "front", "close"⟩] ∧
          mount "Office" "front" (.cons "weigh" (fun _ h => nomatch h) "scales" .nil) r' =
            .error (.memberTaken "Office" "front") r' := ⟨_, _, rfl, rfl, rfl⟩
  have hattic : mount "Attic" "front" .nil emptyDesk = .ok () emptyDesk := rfl
  refine ⟨⟨e, r', hstops, hroutes, hagain⟩, hattic, ?_, ?_⟩
  · simp only [AllOrNothing, hstops]
    rintro rfl
    cases hroutes
  · simp only [AllOrNothing, hattic]
    rintro ⟨⟨m, hm, -⟩, -⟩
    cases hm

end Registry

end SchemaRpc
