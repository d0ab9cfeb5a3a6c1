/-
# Numbers given in order

Fields, variants, methods and members of modules get tags, the labels of an enum get values, both
in the order of declaration: an explicit number wins, a member without one gets a number that
depends on the one before, and no number is given twice.  A `Scheme` says which number a member
should have and which numbers it cannot have.  What members should have is fixed by that alone,
even where they cannot have it.

* `Scheme.exists_intended`: there is one way to number members as they should be.
* `Allots.eq_ok_iff` and `Allots.eq_error_iff`: whoever gives the numbers one by one gives those
  that members should have if all can have them, and otherwise fails at the first that cannot.
-/
import Mathlib.Data.List.Forall2
import Mathlib.Data.List.Induction
import Mathlib.Data.List.Nodup
import SchemaRpc.Proofs.Outcome
import SchemaRpc.Schema.Resolve

namespace SchemaRpc

namespace Schema

variable {ε ν : Type}

/-- A member with its explicit number, if there is one, and the number that it should have. -/
structure Entry (ε ν : Type) where
  name : String
  explicit : Option ε
  number : ν

/-- What a member says of itself. -/
def Entry.declared (e : Entry ε ν) : String × Option ε := (e.name, e.explicit)

/-- The number of the last of some members. -/
def lastNumber? (entries : List (Entry ε ν)) : Option ν := entries.getLast?.map (·.number)

@[simp] lemma lastNumber?_append_singleton (entries : List (Entry ε ν)) (e : Entry ε ν) :
    lastNumber? (entries ++ [e]) = some e.number := by
  simp [lastNumber?]

/-- How members are numbered. -/
structure Scheme (ε ν : Type) where
  /-- The number that a member should have, given the number before it and its explicit one. -/
  Intends : (before : Option ν) → (explicit : Option ε) → ν → Prop
  /-- The member cannot have its number, whatever the others have. -/
  Refuses : Entry ε ν → ResolveError → Prop
  /-- The error of a member whose number an earlier one has. -/
  taken : Entry ε ν → (holder : String) → ResolveError

namespace Scheme

variable {scheme : Scheme ε ν}

/-- Members are numbered as they should be, behind a member with a number. -/
inductive Intended (scheme : Scheme ε ν) : (before : Option ν) → List (Entry ε ν) → Prop where
  | nil {before : Option ν} : Intended scheme before []
  | cons {before : Option ν} {e : Entry ε ν} {more : List (Entry ε ν)}
    (h : scheme.Intends before e.explicit e.number)
    (hmore : Intended scheme (some e.number) more) : Intended scheme before (e :: more)

/-- All members can have their numbers: none is refused, and no two are the same. -/
structure Faultless (scheme : Scheme ε ν) (entries : List (Entry ε ν)) : Prop where
  admitted : ∀ e ∈ entries, ∀ error, ¬ scheme.Refuses e error
  nodup : (entries.map (·.number)).Nodup

/-- A member cannot have its number: it is refused, or a member before has it. -/
inductive Offends (scheme : Scheme ε ν) (before : List (Entry ε ν)) :
    Entry ε ν → ResolveError → Prop where
  | refused {e : Entry ε ν} {error : ResolveError} (h : scheme.Refuses e error) :
    Offends scheme before e error
  | taken {e holder : Entry ε ν} (h : holder ∈ before) (hnumber : holder.number = e.number) :
    Offends scheme before e (scheme.taken e holder.name)

/-- The error of the first member that cannot have its number. -/
inductive FirstOffence (scheme : Scheme ε ν) : List (Entry ε ν) → ResolveError → Prop where
  | mk {front back : List (Entry ε ν)} {e : Entry ε ν} {error : ResolveError}
    (hfront : scheme.Faultless front) (h : scheme.Offends front e error) :
    FirstOffence scheme (front ++ e :: back) error

/-- Members are numbered as they should be in one way. -/
lemma exists_intended (hscheme : ∀ before explicit, ∃! n, scheme.Intends before explicit n)
    (before : Option ν) (members : List (String × Option ε)) :
    ∃ entries, ∀ others, others.map Entry.declared = members ∧ scheme.Intended before others ↔
      others = entries := by
  induction members generalizing before with
  | nil =>
    refine ⟨[], fun others => ?_⟩
    rw [List.map_eq_nil_iff]
    constructor
    · exact And.left
    · rintro rfl
      exact ⟨rfl, .nil⟩
  | cons m members ih =>
    obtain ⟨name, explicit⟩ := m
    obtain ⟨n, hn, hunique⟩ := hscheme before explicit
    obtain ⟨entries, hentries⟩ := ih (some n)
    refine ⟨⟨name, explicit, n⟩ :: entries, fun others => ?_⟩
    constructor
    · rintro ⟨hothers, hintended⟩
      cases hintended with
      | nil => cases hothers
      | @cons _ e more h hmore =>
        obtain ⟨name', explicit', n'⟩ := e
        obtain ⟨he, hmembers⟩ := List.cons.inj hothers
        obtain ⟨rfl, rfl⟩ := Prod.mk.inj he
        obtain rfl := hunique n' h
        rw [(hentries more).mp ⟨hmembers, hmore⟩]
    · rintro rfl
      obtain ⟨hdeclared, hintended⟩ := (hentries entries).mpr rfl
      exact ⟨congrArg _ hdeclared, .cons hn hintended⟩

lemma Faultless.of_append {front back : List (Entry ε ν)}
    (h : scheme.Faultless (front ++ back)) : scheme.Faultless front :=
  ⟨fun e he => h.admitted e (List.mem_append_left back he),
    h.nodup.sublist ((List.sublist_append_left front back).map _)⟩

/-- The last of members that can all have their numbers is not refused, and none before it has
its number. -/
lemma Faultless.last {front : List (Entry ε ν)} {e : Entry ε ν}
    (h : scheme.Faultless (front ++ [e])) :
    (∀ error, ¬ scheme.Refuses e error) ∧ ∀ holder ∈ front, holder.number ≠ e.number := by
  obtain ⟨hadmitted, hnodup⟩ := h
  rw [List.map_append, List.nodup_append] at hnodup
  refine ⟨hadmitted e (by simp), fun holder hholder => ?_⟩
  exact hnodup.2.2 _ (List.mem_map_of_mem hholder) _ (by simp)

lemma faultless_nil : scheme.Faultless [] := ⟨List.forall_mem_nil _, List.nodup_nil⟩

/-- Another member fits behind others, or it offends. -/
lemma Faultless.append_or_offends {front : List (Entry ε ν)} (h : scheme.Faultless front)
    (e : Entry ε ν) :
    scheme.Faultless (front ++ [e]) ∨ ∃ error, scheme.Offends front e error := by
  by_cases hrefused : ∃ error, scheme.Refuses e error
  · obtain ⟨error, herror⟩ := hrefused
    exact .inr ⟨error, .refused herror⟩
  by_cases htaken : ∃ holder ∈ front, holder.number = e.number
  · obtain ⟨holder, hholder, hnumber⟩ := htaken
    exact .inr ⟨_, .taken hholder hnumber⟩
  refine .inl ⟨fun e' he' => ?_, ?_⟩
  · rcases List.mem_append.mp he' with he' | he'
    · exact h.admitted e' he'
    · obtain rfl := List.mem_singleton.mp he'
      exact not_exists.mp hrefused
  · rw [List.map_append, List.nodup_append]
    refine ⟨h.nodup, List.pairwise_singleton _ _, ?_⟩
    rintro _ hn _ hn'
    obtain ⟨holder, hholder, rfl⟩ := List.mem_map.mp hn
    obtain rfl := List.mem_singleton.mp hn'
    exact fun hnumber => htaken ⟨holder, hholder, hnumber⟩

/-- All members can have their numbers, or there is a first one that cannot. -/
lemma faultless_or_firstOffence (entries : List (Entry ε ν)) :
    scheme.Faultless entries ∨ ∃ error, scheme.FirstOffence entries error := by
  induction entries using List.reverseRecOn with
  | nil => exact .inl faultless_nil
  | append_singleton front e ih =>
    rcases ih with h | ⟨error, @⟨front, back, first, _, hfront, h⟩⟩
    · exact (h.append_or_offends e).imp_right fun ⟨error, herror⟩ => ⟨error, .mk h herror⟩
    · rw [List.append_assoc]
      exact .inr ⟨error, .mk hfront h⟩

end Scheme

/-! ## Keeping the numbers given -/

section

variable {κ : Type} {keyOf : κ → ν} {given : List (κ × String)} {done : List (Entry ε ν)}

/-- A list keeps the numbers of members and their names, those of the last member first. -/
def Keeps (keyOf : κ → ν) (given : List (κ × String)) (done : List (Entry ε ν)) : Prop :=
  given.map (fun g => (keyOf g.1, g.2)) = done.reverse.map fun e => (e.number, e.name)

namespace Keeps

lemma append (h : Keeps keyOf given done) {e : Entry ε ν} {k : κ} (hk : keyOf k = e.number) :
    Keeps keyOf ((k, e.name) :: given) (done ++ [e]) := by
  rw [Keeps, List.map_cons, h, List.reverse_append, List.reverse_singleton,
    List.singleton_append, List.map_cons, hk]

lemma exists_entry (h : Keeps keyOf given done) {g : κ × String} (hg : g ∈ given) :
    ∃ e ∈ done, e.number = keyOf g.1 ∧ e.name = g.2 := by
  have hmem : (keyOf g.1, g.2) ∈ done.reverse.map fun e => (e.number, e.name) := by
    rw [← h]
    exact List.mem_map_of_mem hg
  obtain ⟨e, he, heq⟩ := List.mem_map.mp hmem
  exact ⟨e, List.mem_reverse.mp he, Prod.mk.inj heq⟩

lemma exists_given (h : Keeps keyOf given done) {e : Entry ε ν} (he : e ∈ done) :
    ∃ g ∈ given, keyOf g.1 = e.number := by
  have hmem : (e.number, e.name) ∈ given.map fun g => (keyOf g.1, g.2) := by
    rw [h]
    exact List.mem_map_of_mem (List.mem_reverse.mpr he)
  obtain ⟨g, hg, heq⟩ := List.mem_map.mp hmem
  exact ⟨g, hg, (Prod.mk.inj heq).1⟩

variable [DecidableEq κ]

/-- A number is not found just if no member has it. -/
lemma lookup_eq_none_iff (h : Keeps keyOf given done) (hinj : Function.Injective keyOf) {k : κ} :
    given.lookup k = none ↔ ∀ e ∈ done, e.number ≠ keyOf k := by
  rw [List.lookup_eq_none_iff]
  constructor
  · intro hnone e he hnumber
    obtain ⟨g, hg, hkey⟩ := h.exists_given he
    simpa [hinj (hkey.trans hnumber)] using hnone g hg
  · intro hall g hg
    obtain ⟨e, he, hnumber, -⟩ := h.exists_entry hg
    rw [bne_iff_ne]
    rintro rfl
    exact hall e he hnumber

/-- A number that a member has is found with the name of this member. -/
lemma lookup_eq_some (h : Keeps keyOf given done) (hinj : Function.Injective keyOf)
    (hnodup : (done.map (·.number)).Nodup) {holder : Entry ε ν} (hholder : holder ∈ done) {k : κ}
    (hk : keyOf k = holder.number) : given.lookup k = some holder.name := by
  cases hlookup : given.lookup k with
  | none => exact absurd hk.symm ((h.lookup_eq_none_iff hinj).mp hlookup holder hholder)
  | some name =>
    obtain ⟨front, back, hgiven, -⟩ := List.lookup_eq_some_iff.mp hlookup
    have hg : (k, name) ∈ given := by simp [hgiven]
    obtain ⟨e, he, hnumber, rfl⟩ := h.exists_entry hg
    rw [List.inj_on_of_nodup_map hnodup he hholder (hnumber.trans hk)]

end Keeps

end

/-! ## Giving numbers one by one -/

section

variable {α β σ : Type}

/-- What members become when each is given its number, up to the first that is given none. -/
def giveAll (give : σ → β → Resolved (α × σ)) : σ → List β → Resolved (List α)
  | _, [] => .ok []
  | s, d :: ds => do
    let (a, s) ← give s d
    return a :: (← giveAll give s ds)

/-- Numbers are given as a scheme intends: `Stands` ties what has been given to the state, and
`R` the member that is made to its number. -/
structure Allots (scheme : Scheme ε ν) (declared : β → String × Option ε)
    (R : α → Entry ε ν → Prop) (Stands : List (Entry ε ν) → σ → Prop)
    (give : σ → β → Resolved (α × σ)) : Prop where
  gives : ∀ {done s d e}, Stands done s → declared d = e.declared →
    scheme.Intends (lastNumber? done) e.explicit e.number → scheme.Faultless (done ++ [e]) →
      ∃ a s', give s d = .ok (a, s') ∧ R a e ∧ Stands (done ++ [e]) s'
  refuses : ∀ {done s d e error}, Stands done s → declared d = e.declared →
    scheme.Intends (lastNumber? done) e.explicit e.number → scheme.Faultless done →
      scheme.Offends done e error → give s d = .error error

namespace Allots

variable {scheme : Scheme ε ν} {declared : β → String × Option ε} {R : α → Entry ε ν → Prop}
  {Stands : List (Entry ε ν) → σ → Prop} {give : σ → β → Resolved (α × σ)}

/-- Members that can have their numbers are given them, and the others go on from there. -/
lemma exists_giveAll (h : Allots scheme declared R Stands give)
    {done front back : List (Entry ε ν)} {s : σ} {ds : List β} (hs : Stands done s)
    (hds : ds.map declared = (front ++ back).map Entry.declared)
    (hintended : scheme.Intended (lastNumber? done) (front ++ back))
    (hfaultless : scheme.Faultless (done ++ front)) :
    ∃ out s' ds', List.Forall₂ R out front ∧ Stands (done ++ front) s' ∧
      ds'.map declared = back.map Entry.declared ∧
      scheme.Intended (lastNumber? (done ++ front)) back ∧
      giveAll give s ds = (giveAll give s' ds').map (out ++ ·) := by
  induction front generalizing done s ds with
  | nil =>
    rw [List.append_nil]
    refine ⟨[], s, ds, .nil, hs, hds, hintended, ?_⟩
    cases giveAll give s ds <;> rfl
  | cons e front ih =>
    cases ds with
    | nil => cases hds
    | cons d ds =>
      obtain ⟨hd, hds⟩ := List.cons.inj hds
      rw [List.append_cons] at hfaultless
      cases hintended with
      | cons he hmore =>
        obtain ⟨a, s₁, hgive, ha, hs₁⟩ := h.gives hs hd he hfaultless.of_append
        rw [← lastNumber?_append_singleton done e] at hmore
        obtain ⟨out, s', ds', hout, hs', hds', hback, hgiveAll⟩ := ih hs₁ hds hmore hfaultless
        rw [List.append_assoc] at hs' hback
        refine ⟨a :: out, s', ds', .cons ha hout, hs', hds', hback, ?_⟩
        rw [giveAll, hgive, Outcome.ok_bind]
        dsimp only
        rw [hgiveAll]
        cases giveAll give s' ds' <;> rfl

variable {entries : List (Entry ε ν)} {s : σ} {ds : List β}

lemma exists_eq_ok (h : Allots scheme declared R Stands give) (hs : Stands [] s)
    (hds : ds.map declared = entries.map Entry.declared) (hintended : scheme.Intended none entries)
    (hfaultless : scheme.Faultless entries) :
    ∃ out, giveAll give s ds = .ok out ∧ List.Forall₂ R out entries := by
  rw [← List.append_nil entries] at hds hintended
  obtain ⟨out, s', ds', hout, -, hds', -, hgiveAll⟩ :=
    h.exists_giveAll hs hds hintended hfaultless
  obtain rfl := List.map_eq_nil_iff.mp hds'
  refine ⟨out, ?_, hout⟩
  rw [hgiveAll]
  exact congrArg Except.ok (List.append_nil out)

lemma eq_error (h : Allots scheme declared R Stands give) (hs : Stands [] s)
    (hds : ds.map declared = entries.map Entry.declared) (hintended : scheme.Intended none entries)
    {error : ResolveError} (herror : scheme.FirstOffence entries error) :
    giveAll give s ds = .error error := by
  obtain @⟨front, back, e, _, hfront, hoffends⟩ := herror
  obtain ⟨out, s', ds', -, hs', hds', hback, hgiveAll⟩ :=
    h.exists_giveAll hs hds hintended hfront
  cases ds' with
  | nil => cases hds'
  | cons d ds' =>
    obtain ⟨hd, -⟩ := List.cons.inj hds'
    cases hback with
    | cons he _ =>
      rw [hgiveAll, giveAll, h.refuses hs' hd he hfront hoffends]
      rfl

/-- Members are given numbers exactly if all can have those that they should have. -/
theorem eq_ok_iff (h : Allots scheme declared R Stands give) (hs : Stands [] s)
    (hds : ds.map declared = entries.map Entry.declared) (hintended : scheme.Intended none entries)
    (hR : ∀ a b e, R a e → R b e → a = b) (out : List α) :
    giveAll give s ds = .ok out ↔ scheme.Faultless entries ∧ List.Forall₂ R out entries := by
  constructor
  · intro hout
    rcases scheme.faultless_or_firstOffence entries with hfaultless | ⟨error, herror⟩
    · obtain ⟨out', hout', hentries⟩ := h.exists_eq_ok hs hds hintended hfaultless
      obtain rfl := Except.ok.inj (hout.symm.trans hout')
      exact ⟨hfaultless, hentries⟩
    · rw [h.eq_error hs hds hintended herror] at hout
      cases hout
  · rintro ⟨hfaultless, hentries⟩
    obtain ⟨out', hout', hentries'⟩ := h.exists_eq_ok hs hds hintended hfaultless
    have hunique : Relator.LeftUnique R := fun _ _ _ => hR _ _ _
    rw [hout', List.left_unique_forall₂' hunique hentries' hentries]

/-- Giving numbers fails exactly at the first member that cannot have the number that it should
have. -/
theorem eq_error_iff (h : Allots scheme declared R Stands give) (hs : Stands [] s)
    (hds : ds.map declared = entries.map Entry.declared) (hintended : scheme.Intended none entries)
    {error : ResolveError} :
    giveAll give s ds = .error error ↔ scheme.FirstOffence entries error := by
  constructor
  · intro hfails
    rcases scheme.faultless_or_firstOffence entries with hfaultless | ⟨error', herror⟩
    · obtain ⟨out, hout, -⟩ := h.exists_eq_ok hs hds hintended hfaultless
      rw [hout] at hfails
      cases hfails
    · rw [h.eq_error hs hds hintended herror] at hfails
      cases hfails
      exact herror
  · exact h.eq_error hs hds hintended

end Allots

end

end Schema

end SchemaRpc
