/-
# Records and how they came about

A record is built by operations on its fields.  Each of them sets the state of one tag, a state that
is inserted or absence for one that is taken, so that after any history of operations each tag has
the state that the last operation on it gave it.  That is all that a record remembers: neither the
order of operations on different tags nor the absence of fields leaves a trace.

* `apply_eq` says what one operation does, `get_after` what a history does,
* `shows_get` says that the listings, the size and `take` tell what `get` tells,
* `after_extensional` draws from both that records are functions from tags to states, and compares
  them as the values that they are and as programs see them.
-/
import Mathlib.Data.Set.Card
import SchemaRpc.Proofs.Value.Equality

namespace SchemaRpc

namespace Record

/-- An operation that may change a record. -/
inductive Edit where
  | set (tag : Tag) (state : FieldState)
  | withValue (tag : Tag) (value : Value)
  | withNull (tag : Tag)
  | take (tag : Tag)

namespace Edit

/-- The tag that an operation is about. -/
def tag : Edit → Tag
  | .set tag _ | .withValue tag _ | .withNull tag | .take tag => tag

/-- The state that an operation inserts, if it is not one that takes. -/
def inserted? : Edit → Option FieldState
  | .set _ state => some state
  | .withValue _ value => some (.present value)
  | .withNull _ => some .null
  | .take _ => none

/-- The record after an operation. -/
def apply (r : Record) : Edit → Record
  | .set tag state => r.set tag state
  | .withValue tag value => r.withValue tag value
  | .withNull tag => r.withNull tag
  | .take tag => (r.take tag).2

/-- Every operation sets one state; one that takes sets absence. -/
lemma apply_eq (r : Record) (e : Edit) : e.apply r = r.set e.tag (e.inserted?.getD .absent) := by
  cases e <;> rfl

end Edit

/-- The record that a history of operations makes of the empty one. -/
def after (history : List Edit) : Record := history.foldl Edit.apply empty

/-- The state last inserted for a tag and not taken since: that of the last operation on the tag, if
this is one that inserts. -/
def standing (history : List Edit) (t : Tag) : FieldState :=
  ((history.filter (·.tag = t)).getLast?.bind Edit.inserted?).getD .absent

lemma after_append (history more : List Edit) :
    after (history ++ more) = more.foldl Edit.apply (after history) :=
  List.foldl_append

lemma standing_append_singleton (history : List Edit) (e : Edit) (t : Tag) :
    standing (history ++ [e]) t =
      if t = e.tag then e.inserted?.getD .absent else standing history t := by
  rw [standing, List.filter_append]
  split
  · rename_i h
    rw [List.filter_cons_of_pos (by simp [h]), List.filter_nil, List.getLast?_append_cons]
    rfl
  · rename_i h
    rw [List.filter_cons_of_neg (by simpa using Ne.symm h), List.filter_nil, List.append_nil]
    rfl

/-- After a history each tag has the state that stands. -/
lemma get_after (history : List Edit) (t : Tag) : (after history).get t = standing history t := by
  induction history using List.reverseRecOn with
  | nil => rfl
  | append_singleton history e ih =>
    rw [after_append, List.foldl_cons, List.foldl_nil, Edit.apply_eq, get_set, ih,
      standing_append_singleton]

/-- Inserting absence where there is no state changes nothing. -/
lemma foldl_absences {r : Record} (absences : List Tag) (h : ∀ t ∈ absences, r.get t = .absent) :
    (absences.map (Edit.set · .absent)).foldl Edit.apply r = r := by
  induction absences with
  | nil => rfl
  | cons t absences ih =>
    obtain ⟨ht, h⟩ := List.forall_mem_cons.mp h
    have hset : (Edit.set t .absent).apply r = r := by
      rw [Edit.apply, ← ht, set_get]
    rw [List.map_cons, List.foldl_cons, hset, ih h]

/-- A record as a function from tags to states: what is read, listed, counted and taken is what the
function says, and the fields without a state are not there. -/
structure Shows (r : Record) (state : Tag → FieldState) : Prop where
  get_eq : ∀ t, r.get t = state t
  toStates_ascend : r.toStates.Pairwise (·.1 < ·.1)
  mem_toStates : ∀ t s, (t, s) ∈ r.toStates ↔ state t = s ∧ s ≠ .absent
  tags_ascend : r.tags.Pairwise (· < ·)
  mem_tags : ∀ t, t ∈ r.tags ↔ state t ≠ .absent
  size_eq : Ascending.size r = {t | state t ≠ .absent}.ncard
  taken : ∀ t, (r.take t).1 = state t
  get_take : ∀ t t', (r.take t).2.get t' = if t' = t then .absent else state t'

/-- The size is the number of tags that have a state. -/
lemma size_eq_ncard (r : Record) : Ascending.size r = {t | r.get t ≠ .absent}.ncard := by
  have hstored : {t | r.get t ≠ .absent} = (r.tags.toFinset : Set Tag) := by
    ext t
    rw [Set.mem_ofPred_eq, ← mem_tags_iff, List.coe_toFinset, Set.mem_ofPred_eq]
  have hnodup : r.tags.Nodup := (Ascending.pairwise_keys r).imp ne_of_lt
  rw [hstored, Set.ncard_coe_finset, List.toFinset_card_of_nodup hnodup, tags, Ascending.keys,
    List.length_map, Ascending.size]

/-- Everything that a record tells is told by its states. -/
lemma shows_get (r : Record) : r.Shows r.get where
  get_eq _ := rfl
  toStates_ascend := r.pairwise_toStates
  mem_toStates := r.mem_toStates_iff
  tags_ascend := Ascending.pairwise_keys r
  mem_tags := r.mem_tags_iff
  size_eq := r.size_eq_ncard
  taken _ := rfl
  get_take t t' := r.get_set t t' .absent

/-- **Records are extensional.**  Whatever operations made a record, it shows the states that stand
after them.  It does not tell in which order operations on different tags were made, nor that absence
was inserted; two records with the same states are the same.  Programs see two records as equal if
they see the states of each tag as equal; so they see a record as equal to itself, however it was
made, unless it holds a NaN. -/
theorem after_extensional (history : List Edit) :
    (after history).Shows (standing history) ∧
    (∀ absences : List Tag, (∀ t ∈ absences, standing history t = .absent) →
      after (history ++ absences.map (Edit.set · .absent)) = after history) ∧
    ∀ history',
      (after history = after history' ↔
        ∀ t, (after history).get t = (after history').get t) ∧
      ((∀ t, history.filter (·.tag = t) = history'.filter (·.tag = t)) →
        after history = after history') ∧
      ((after history).ieeeEq (after history') = true ↔
        ∀ t, ((after history).get t).ieeeEq ((after history').get t) = true) ∧
      (after history = after history' →
        ((after history).ieeeEq (after history') = true ↔
          ∀ t x, (standing history t).value? = some x → ¬ x.HoldsNaN)) := by
  have hstanding : (after history).get = standing history := funext (get_after history)
  refine ⟨?shows, ?absences, fun history' => ⟨⟨fun heq t => by rw [heq], ext⟩, ?reordered,
    ieeeEq_iff _ _, ?itself⟩⟩
  case shows => exact hstanding ▸ shows_get (after history)
  case absences =>
    intro absences habsent
    rw [after_append]
    exact foldl_absences absences (hstanding ▸ habsent)
  case reordered =>
    intro hfilter
    refine ext fun t => ?_
    rw [get_after, get_after, standing, standing, hfilter]
  case itself =>
    intro heq
    rw [← heq, ieeeEq_self_iff, hstanding]

/-- A contact whose nickname is inserted and taken again, and whose phone number is withheld. -/
def contactHistory : List Edit :=
  [.set (.ofNat 3) (.defaulted (.string "Al")), .withNull (.ofNat 2), .take (.ofNat 3),
    .withValue (.ofNat 1) (.string "Alice")]

/-- The contact, put together in another order. -/
def contactReordered : List Edit :=
  [.withValue (.ofNat 1) (.string "Alice"), .set (.ofNat 3) (.defaulted (.string "Al")),
    .take (.ofNat 3), .withNull (.ofNat 2)]

/-- Both histories and absent fields make the same contact, and programs see it as equal. -/
theorem after_extensional_contact :
    (∀ t ∈ [Tag.ofNat 3, .ofNat 7], standing contactHistory t = .absent) ∧
      after (contactHistory ++ [.set (.ofNat 3) .absent, .set (.ofNat 7) .absent]) =
        after contactHistory ∧
    (∀ t, contactHistory.filter (·.tag = t) = contactReordered.filter (·.tag = t)) ∧
      after contactHistory = after contactReordered ∧
    (∀ t x, (standing contactHistory t).value? = some x → ¬ x.HoldsNaN) ∧
      (after contactHistory).ieeeEq (after contactReordered) = true := by
  obtain ⟨-, habsences, h⟩ := after_extensional contactHistory
  obtain ⟨-, hreordered, -, hself⟩ := h contactReordered
  have habsent : ∀ t ∈ [Tag.ofNat 3, .ofNat 7], standing contactHistory t = .absent := by
    intro t ht
    rcases List.mem_pair.mp ht with rfl | rfl <;> rfl
  have hfilter : ∀ t, contactHistory.filter (·.tag = t) = contactReordered.filter (·.tag = t) := by
    intro t
    by_cases h1 : .ofNat 1 = t
    · subst h1; rfl
    by_cases h2 : .ofNat 2 = t
    · subst h2; rfl
    by_cases h3 : .ofNat 3 = t
    · subst h3; rfl
    simp [contactHistory, contactReordered, Edit.tag, h1, h2, h3]
  have hfree : ∀ t x, (standing contactHistory t).value? = some x → ¬ x.HoldsNaN := by
    intro t x hx
    by_cases h1 : .ofNat 1 = t
    · subst h1
      obtain rfl : Value.string "Alice" = x := Option.some.inj hx
      rintro ⟨⟩
    by_cases h2 : .ofNat 2 = t
    · subst h2; cases hx
    by_cases h3 : .ofNat 3 = t
    · subst h3; cases hx
    have hnone : standing contactHistory t = .absent := by
      simp [standing, contactHistory, Edit.tag, h1, h2, h3]
    rw [hnone] at hx
    cases hx
  exact ⟨habsent, habsences _ habsent, hfilter, hreordered hfilter, hfree,
    (hself (hreordered hfilter)).mpr hfree⟩

/-- A measurement that failed. -/
def failedHistory : List Edit :=
  [.withValue (.ofNat 1) (.f64 ⟨0x7ff8000000000000⟩), .withValue (.ofNat 2) (.bool true)]

/-- The measurement, put together in the other order. -/
def failedReordered : List Edit :=
  [.withValue (.ofNat 2) (.bool true), .withValue (.ofNat 1) (.f64 ⟨0x7ff8000000000000⟩)]

/-- A record with a NaN is not seen as equal to the same record put together in another order. -/
theorem ieeeEq_reordered_failed :
    (∀ t, (after failedHistory).get t = (after failedReordered).get t) ∧
      (after failedHistory).ieeeEq (after failedReordered) = false := by
  have hsame : after failedHistory = after failedReordered := rfl
  exact ⟨fun t => by rw [hsame], by decide +kernel⟩

end Record

end SchemaRpc
