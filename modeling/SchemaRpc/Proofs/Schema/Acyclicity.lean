/-
# The search for cycles is exact

The search stands on a path whose nodes contain one another, and keeps the nodes that it is done
with: what they contain is done as well, none of them lies on a cycle, and none of them is on the
path.  From there it either comes to the end of a node with these facts kept, or meets a node of
the path again and so has walked around a cycle.
-/
import Mathlib.Data.List.Chain
import Mathlib.Data.List.Perm.Subperm
import SchemaRpc.Proofs.Schema.Resolution

namespace SchemaRpc

namespace Schema

/-! ## Containing by value -/

/-- A struct or union as a type. -/
def Node.type : Node → TypeRef
  | .struct id => .struct id
  | .union id => .union id

/-- One type contains another by value: a struct that of each field that has to have a value, a
union that of each variant. -/
inductive ByValue (structs : List StructType) (unions : List UnionType) : Node → Node → Prop
  | field {id : Nat} {struct : StructType} {f : Field} {inner : Node}
      (hstruct : structs[id]? = some struct) (hf : f ∈ struct.fields)
      (hoptional : f.optional = false) (htype : f.type = inner.type) :
      ByValue structs unions (.struct id) inner
  | variant {id : Nat} {union : UnionType} {v : Variant} {inner : Node}
      (hunion : unions[id]? = some union) (hv : v ∈ union.variants) (htype : v.type = inner.type) :
      ByValue structs unions (.union id) inner

/-- A way along the edges of a graph back to where it starts, which comes through no other node
twice. -/
structure IsCycle {α : Type} (edge : α → α → Prop) (path : List α) : Prop where
  two_le_length : 2 ≤ path.length
  closed : path.head? = path.getLast?
  chain : path.IsChain edge
  nodup : path.dropLast.Nodup

lemma Node.ofType?_eq_some_iff {type : TypeRef} {node : Node} :
    Node.ofType? type = some node ↔ type = node.type := by
  cases type <;> cases node <;> simp [ofType?, Node.type]

lemma mem_containedIn_iff {structs : List StructType} {unions : List UnionType}
    {outer inner : Node} :
    inner ∈ containedIn structs unions outer ↔ ByValue structs unions outer inner := by
  constructor
  · intro h
    cases outer with
    | struct id =>
      rw [containedIn] at h
      split at h
      · rename_i struct hstruct
        obtain ⟨f, hf, htype⟩ := List.mem_filterMap.mp h
        obtain ⟨hf, hoptional⟩ := List.mem_filter.mp hf
        exact .field hstruct hf (by simpa using hoptional) (Node.ofType?_eq_some_iff.mp htype)
      · cases h
    | union id =>
      rw [containedIn] at h
      split at h
      · rename_i union hunion
        obtain ⟨v, hv, htype⟩ := List.mem_filterMap.mp h
        exact .variant hunion hv (Node.ofType?_eq_some_iff.mp htype)
      · cases h
  · intro h
    cases h with
    | field hstruct hf hoptional htype =>
      simp only [containedIn, hstruct]
      exact List.mem_filterMap.mpr ⟨_, List.mem_filter.mpr ⟨hf, by simp [hoptional]⟩,
        Node.ofType?_eq_some_iff.mpr htype⟩
    | variant hunion hv htype =>
      simp only [containedIn, hunion]
      exact List.mem_filterMap.mpr ⟨_, hv, Node.ofType?_eq_some_iff.mpr htype⟩

/-- Only the structs and unions of the schema contain anything. -/
lemma ByValue.mem_nodes {structs : List StructType} {unions : List UnionType}
    {outer inner : Node} (h : ByValue structs unions outer inner) :
    outer ∈ nodes structs unions := by
  cases h with
  | field hstruct =>
    obtain ⟨hlt, -⟩ := List.getElem?_eq_some_iff.mp hstruct
    exact List.mem_append_left _ (List.mem_map_of_mem (List.mem_range.mpr hlt))
  | variant hunion =>
    obtain ⟨hlt, -⟩ := List.getElem?_eq_some_iff.mp hunion
    exact List.mem_append_right _ (List.mem_map_of_mem (List.mem_range.mpr hlt))

/-- Where a cycle starts, there is a way back. -/
lemma IsCycle.exists_transGen {α : Type} {edge : α → α → Prop} {path : List α}
    (h : IsCycle edge path) : ∃ a, Relation.TransGen edge a a := by
  obtain ⟨hlength, hclosed, hchain, -⟩ := h
  match path, hlength, hclosed, hchain with
  | a :: b :: rest, _, hclosed, hchain =>
    obtain ⟨hab, hrest⟩ := List.isChain_cons_cons.mp hchain
    have hlast : (b :: rest).getLast (List.cons_ne_nil b rest) = a := by
      rw [List.head?_cons, List.getLast?_cons_cons,
        List.getLast?_eq_some_getLast (List.cons_ne_nil b rest)] at hclosed
      exact (Option.some.inj hclosed).symm
    exact ⟨a, .head' hab
      (List.relationReflTransGen_of_exists_isChain_cons rest hrest hlast)⟩

/-! ## What the search keeps -/

section

variable (next : Node → List Node)

/-- Nodes from which the search needs not start again, while it stands on a path. -/
structure Finished (path done : List Node) : Prop where
  closed : ∀ a ∈ done, ∀ b ∈ next a, b ∈ done
  acyclic : ∀ a ∈ done, ¬ Relation.TransGen (fun a b => b ∈ next a) a a
  disjoint : ∀ a ∈ path, a ∉ done

/-- A way to a node along the edges, the last node first, which repeats none. -/
structure Trail (path : List Node) (node : Node) : Prop where
  chain : (node :: path).IsChain fun b a => b ∈ next a
  nodup : path.Nodup

/-- What the search has found out after visiting some nodes. -/
def Explored (path done visited : List Node) : Except (List Node) (List Node) → Prop
  | .ok done' => Finished next path done' ∧ done ⊆ done' ∧ visited ⊆ done'
  | .error cycle => IsCycle (fun a b => b ∈ next a) cycle

variable {next}

lemma Finished.nil : Finished next [] [] :=
  ⟨List.forall_mem_nil _, List.forall_mem_nil _, List.forall_mem_nil _⟩

/-- From finished nodes only finished ones are reached. -/
lemma Finished.of_reflTransGen {path done : List Node} (h : Finished next path done) {a b : Node}
    (hab : Relation.ReflTransGen (fun a b => b ∈ next a) a b) (ha : a ∈ done) : b ∈ done := by
  induction hab with
  | refl => exact ha
  | tail _ hstep ih => exact h.closed _ ih _ hstep

/-- The search leaves a node once it is done with all that the node contains. -/
lemma Finished.leave {path done : List Node} {node : Node}
    (h : Finished next (node :: path) done) (hnext : next node ⊆ done) (hnode : node ∉ path) :
    Finished next path (node :: done) := by
  have hfresh : node ∉ done := h.disjoint node List.mem_cons_self
  refine ⟨?_, ?_, ?_⟩
  · rw [List.forall_mem_cons]
    exact ⟨fun b hb => List.mem_cons_of_mem node (hnext hb),
      fun a ha b hb => List.mem_cons_of_mem node (h.closed a ha b hb)⟩
  · rw [List.forall_mem_cons]
    refine ⟨fun hcycle => ?_, h.acyclic⟩
    -- the way around would leave the node into `done`, which no way leads out of
    obtain ⟨b, hb, hback⟩ := Relation.TransGen.head'_iff.mp hcycle
    exact hfresh (h.of_reflTransGen hback (hnext hb))
  · intro a ha hmem
    rcases List.mem_cons.mp hmem with rfl | hmem
    · exact hnode ha
    · exact h.disjoint a (List.mem_cons_of_mem node ha) hmem

lemma Trail.nil (node : Node) : Trail next [] node := ⟨List.isChain_singleton node, List.nodup_nil⟩

lemma Trail.step {path : List Node} {node inner : Node} (h : Trail next path node)
    (hnode : node ∉ path) (hinner : inner ∈ next node) : Trail next (node :: path) inner :=
  ⟨List.isChain_cons_cons.mpr ⟨hinner, h.chain⟩, List.nodup_cons.mpr ⟨hnode, h.nodup⟩⟩

/-- A node met again on the path closes a cycle. -/
lemma Trail.isCycle {path : List Node} {node : Node} (h : Trail next path node)
    (hnode : node ∈ path) :
    IsCycle (fun a b => b ∈ next a)
      (node :: (path.takeWhile (· ≠ node)).reverse ++ [node]) := by
  obtain ⟨front, rest, rfl, hfront⟩ := List.eq_append_cons_of_mem hnode
  have htake : (front ++ node :: rest).takeWhile (· ≠ node) = front := by
    rw [List.takeWhile_append_of_pos, List.takeWhile_cons_of_neg (by simp), List.append_nil]
    intro a ha
    simpa using fun heq : a = node => hfront (heq ▸ ha)
  rw [htake]
  have hchain : (node :: front ++ [node]).IsChain fun b a => b ∈ next a := by
    refine h.chain.prefix ⟨rest, ?_⟩
    simp
  refine ⟨by simp, by rw [List.getLast?_concat]; rfl, ?_, ?_⟩
  · rw [← List.isChain_reverse]
    simpa using hchain
  · rw [List.dropLast_concat, List.nodup_cons, List.mem_reverse, List.nodup_reverse]
    exact ⟨hfront, (List.nodup_append.mp h.nodup).1⟩

/-! ## The search -/

/-- Visiting nodes one after the other, each in the way of a single visit. -/
lemma explored_visitEach {visit : List Node → Node → Except (List Node) (List Node)}
    {path done : List Node} (visited : List Node) (hdone : Finished next path done)
    (hvisit : ∀ node ∈ visited, ∀ done, Finished next path done →
      Explored next path done [node] (visit done node)) :
    Explored next path done visited (visitEach visit done visited) := by
  induction visited generalizing done with
  | nil => exact ⟨hdone, List.Subset.refl done, List.nil_subset done⟩
  | cons node more ih =>
    have hnode := hvisit node List.mem_cons_self done hdone
    rw [visitEach]
    cases hresult : visit done node with
    | error cycle => rwa [hresult] at hnode
    | ok done' =>
      rw [hresult] at hnode
      obtain ⟨hdone', hsubset, hmem⟩ := hnode
      have hmore := ih hdone' fun other hother => hvisit other (List.mem_cons_of_mem node hother)
      show Explored next path done (node :: more) (visitEach visit done' more)
      cases hrest : visitEach visit done' more with
      | error cycle => rwa [hrest] at hmore
      | ok done'' =>
        rw [hrest] at hmore
        obtain ⟨hdone'', hsubset', hmem'⟩ := hmore
        exact ⟨hdone'', List.Subset.trans hsubset hsubset',
          List.cons_subset.mpr ⟨hsubset' (hmem List.mem_cons_self), hmem'⟩⟩

lemma visitEach_congr {visit visit' : List Node → Node → Except (List Node) (List Node)}
    {done visited : List Node} (h : ∀ node ∈ visited, ∀ done, visit done node = visit' done node) :
    visitEach visit done visited = visitEach visit' done visited := by
  induction visited generalizing done with
  | nil => rfl
  | cons node more ih =>
    rw [visitEach, visitEach, h node List.mem_cons_self]
    cases visit' done node with
    | error cycle => rfl
    | ok done' => exact ih fun other hother => h other (List.mem_cons_of_mem node hother)

variable {all : List Node} (hall : ∀ a b, b ∈ next a → a ∈ all)
include hall

/-- All but the last node of a way contain something. -/
lemma Trail.subset {path : List Node} {node : Node} (h : Trail next path node) : path ⊆ all := by
  obtain ⟨hchain, -⟩ := h
  induction path generalizing node with
  | nil => exact List.nil_subset all
  | cons a path ih =>
    obtain ⟨ha, hchain⟩ := List.isChain_cons_cons.mp hchain
    exact List.cons_subset.mpr ⟨hall a node ha, ih hchain⟩

/-- A way is no longer than there are nodes. -/
lemma Trail.length_le {path : List Node} {node : Node} (h : Trail next path node) :
    path.length ≤ all.length :=
  (List.subperm_of_subset h.nodup (h.subset hall)).length_le

/-- **A search keeps what is known of the nodes that it is done with, or has found a cycle.** -/
theorem explored_searchFrom {fuel : Nat} {path done : List Node} {node : Node}
    (hfuel : all.length < fuel + path.length) (hpath : Trail next path node)
    (hdone : Finished next path done) :
    Explored next path done [node] (searchFrom next fuel path done node) := by
  induction fuel generalizing path done node with
  | zero =>
    have := hpath.length_le hall
    omega
  | succ fuel ih =>
    rw [searchFrom]
    split
    · rename_i hnode
      exact ⟨hdone, List.Subset.refl done, by simpa using hnode⟩
    · rename_i hfresh
      split
      · rename_i hnode
        exact hpath.isCycle (by simpa using hnode)
      · rename_i hnode
        have hnode : node ∉ path := by simpa using hnode
        have henter : Finished next (node :: path) done := by
          refine ⟨hdone.closed, hdone.acyclic, ?_⟩
          rw [List.forall_mem_cons]
          exact ⟨by simpa using hfresh, hdone.disjoint⟩
        have hinside := explored_visitEach (next node) henter fun inner hinner done' hdone' =>
          ih (by rw [List.length_cons]; omega) (hpath.step hnode hinner) hdone'
        cases hresult :
            visitEach (searchFrom next fuel (node :: path)) done (next node) with
        | error cycle => rwa [hresult] at hinside
        | ok done' =>
          rw [hresult] at hinside
          obtain ⟨hdone', hsubset, hmem⟩ := hinside
          exact ⟨hdone'.leave hmem hnode,
            List.Subset.trans hsubset (List.subset_cons_self node done'), by simp⟩

/-- Fuel beyond the number of nodes changes nothing. -/
lemma searchFrom_fuel {fuel fuel' : Nat} {path : List Node} {node : Node}
    (hfuel : all.length < fuel + path.length) (hfuel' : all.length < fuel' + path.length)
    (hpath : Trail next path node) (done : List Node) :
    searchFrom next fuel path done node = searchFrom next fuel' path done node := by
  have hlength := hpath.length_le hall
  induction fuel generalizing fuel' path done node with
  | zero => omega
  | succ fuel ih =>
    obtain ⟨fuel', rfl⟩ : ∃ n, fuel' = n + 1 := ⟨fuel' - 1, by omega⟩
    rw [searchFrom, searchFrom]
    split
    · rfl
    · split
      · rfl
      · rename_i hnode
        have hnode : node ∉ path := by simpa using hnode
        have hinside : visitEach (searchFrom next fuel (node :: path)) done (next node)
            = visitEach (searchFrom next fuel' (node :: path)) done (next node) := by
          refine visitEach_congr fun inner hinner done => ?_
          have hstep := hpath.step hnode hinner
          exact ih (by rw [List.length_cons]; omega) (by rw [List.length_cons]; omega) hstep done
            (hstep.length_le hall)
        rw [hinside]

end

/-! ## The cycle that is reported -/

section

variable (structs : List StructType) (unions : List UnionType)

/-- The names along the first cycle by value that a search with some fuel finds. -/
def firstCycleWithin? (fuel : Nat) : Option (List String) :=
  match visitEach (searchFrom (containedIn structs unions) fuel []) [] (nodes structs unions) with
  | .ok _ => none
  | .error cycle => some (cycle.map (Node.name structs unions))

lemma byValue_eq : (fun a b => b ∈ containedIn structs unions a) = ByValue structs unions := by
  funext a b
  exact propext mem_containedIn_iff

/-- The search over all nodes is a search without a path. -/
lemma explored_nodes :
    Explored (containedIn structs unions) [] [] (nodes structs unions)
      (visitEach (searchFrom (containedIn structs unions) ((nodes structs unions).length + 1) [])
        [] (nodes structs unions)) :=
  explored_visitEach _ .nil fun node _ _ hdone =>
    explored_searchFrom (fun _ _ h => (mem_containedIn_iff.mp h).mem_nodes)
      (Nat.lt_succ_self _) (.nil node) hdone

/-- Either no type contains itself or the names are those along a cycle. -/
lemma firstCycle?_cases :
    (firstCycle? structs unions = none ∧
      ∀ node, ¬ Relation.TransGen (ByValue structs unions) node node) ∨
    ∃ path, IsCycle (ByValue structs unions) path ∧
      firstCycle? structs unions = some (path.map (Node.name structs unions)) := by
  have hexplored := explored_nodes structs unions
  rw [firstCycle?]
  cases hresult : visitEach (searchFrom (containedIn structs unions)
      ((nodes structs unions).length + 1) []) [] (nodes structs unions) with
  | ok done =>
    rw [hresult] at hexplored
    obtain ⟨hdone, -, hall⟩ := hexplored
    refine .inl ⟨rfl, fun node hcycle => ?_⟩
    -- a type that contains itself contains something, so the search has been there
    obtain ⟨inner, hinner, -⟩ := Relation.TransGen.head'_iff.mp hcycle
    rw [← byValue_eq] at hcycle
    exact hdone.acyclic node (hall hinner.mem_nodes) hcycle
  | error cycle =>
    rw [hresult] at hexplored
    exact .inr ⟨cycle, byValue_eq structs unions ▸ hexplored, rfl⟩

lemma firstCycle?_eq_none_iff :
    firstCycle? structs unions = none ↔
      ∀ node, ¬ Relation.TransGen (ByValue structs unions) node node := by
  rcases firstCycle?_cases structs unions with ⟨hnone, hacyclic⟩ | ⟨path, hpath, hsome⟩
  · exact iff_of_true hnone hacyclic
  · obtain ⟨node, hnode⟩ := hpath.exists_transGen
    exact iff_of_false (by simp [hsome]) fun hacyclic => hacyclic node hnode

lemma firstCycleWithin?_eq {fuel : Nat} (hfuel : (nodes structs unions).length < fuel) :
    firstCycleWithin? structs unions fuel = firstCycle? structs unions := by
  have hsame : visitEach (searchFrom (containedIn structs unions) fuel []) []
        (nodes structs unions)
      = visitEach (searchFrom (containedIn structs unions) ((nodes structs unions).length + 1) [])
          [] (nodes structs unions) :=
    visitEach_congr fun node _ done =>
      searchFrom_fuel (fun _ _ h => (mem_containedIn_iff.mp h).mem_nodes) hfuel
        (Nat.lt_succ_self _) (.nil node) done
  rw [firstCycleWithin?, hsame]
  rfl

end

/-- A schema is only resolved when the search finds no cycle. -/
lemma firstCycle?_of_resolve {p : Package} {s : Schema} (h : resolve p = .ok s) :
    firstCycle? s.structs s.unions = none :=
  (exists_passes h).2

/-- **The search for cycles is exact.** It finds none just when no type contains itself by value;
what it finds is a cycle, by the names along it; fuel beyond the number of types changes nothing.
So no schema has a type that contains itself by value. -/
theorem firstCycle?_exact :
    (∀ structs unions, firstCycle? structs unions = none ↔
      ∀ node, ¬ Relation.TransGen (ByValue structs unions) node node) ∧
    (∀ structs unions names, firstCycle? structs unions = some names →
      ∃ path, IsCycle (ByValue structs unions) path ∧
        names = path.map (Node.name structs unions)) ∧
    (∀ structs unions fuel, (nodes structs unions).length < fuel →
      firstCycleWithin? structs unions fuel = firstCycle? structs unions) ∧
    ∀ p s, resolve p = .ok s →
      ∀ node, ¬ Relation.TransGen (ByValue s.structs s.unions) node node := by
  refine ⟨firstCycle?_eq_none_iff, ?_,
    fun structs unions fuel => firstCycleWithin?_eq structs unions,
    fun p s h => (firstCycle?_eq_none_iff s.structs s.unions).mp (firstCycle?_of_resolve h)⟩
  intro structs unions names hnames
  rcases firstCycle?_cases structs unions with ⟨hnone, -⟩ | ⟨path, hpath, hsome⟩
  · rw [hnone] at hnames
    cases hnames
  · rw [hsome] at hnames
    exact ⟨path, hpath, (Option.some.inj hnames).symm⟩

/-- A list whose links hold the rest of it by value. -/
def linkStructs : List StructType := [⟨"Link", [⟨"rest", .ofNat 1, .union 0, false, none⟩]⟩]

/-- The rest of the list: nothing or a link. -/
def linkUnions : List UnionType :=
  [⟨"Rest", [⟨"end", .ofNat 1, .prim .bool⟩, ⟨"link", .ofNat 2, .struct 0⟩]⟩]

/-- The cycle of the links is reported; the package of parcels has none. -/
theorem firstCycle?_exact_links :
    (firstCycle? linkStructs linkUnions = some ["Link", "Rest", "Link"] ∧
      ∃ path, IsCycle (ByValue linkStructs linkUnions) path ∧
        ["Link", "Rest", "Link"] = path.map (Node.name linkStructs linkUnions)) ∧
    ((nodes linkStructs linkUnions).length < 7 ∧
      firstCycleWithin? linkStructs linkUnions 7 = firstCycle? linkStructs linkUnions) ∧
    resolve parcels = .ok parcelsSchema ∧
      ∀ node, ¬ Relation.TransGen (ByValue parcelsSchema.structs parcelsSchema.unions) node node :=
  ⟨⟨rfl, firstCycle?_exact.2.1 _ _ _ rfl⟩, ⟨by decide, firstCycle?_exact.2.2.1 _ _ _ (by decide)⟩,
    resolve_parcels, firstCycle?_exact.2.2.2 _ _ resolve_parcels⟩

end Schema

end SchemaRpc
