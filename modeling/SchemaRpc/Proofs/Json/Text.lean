/-
# Canonical text determines its value

JSON text can be cut up in one way only.  A string ends at the first quotation mark that is not
escaped, a number at the first character that is no part of one, and an array or object at its
closing bracket; so what two texts begin with is the same value if what follows is the same, or
ends a value.  Members are sorted by their names as quoted, which different names never share.

* `escaped_append_inj`, `quoted_append_inj` and `int_append_inj` do this for the scalars,
* `commaSeparated_append_inj` for pieces between commas,
* `chars_append_inj` for all values without floating-point numbers.
-/
import Mathlib.Data.String.Basic
import Std.Data.String.ToInt
import SchemaRpc.Json.Text
import SchemaRpc.Proofs.Ascending

namespace SchemaRpc

namespace Json

/-- No floating-point number occurs in the value. -/
inductive FloatFree : Json → Prop where
  | null : FloatFree .null
  | bool (b : Bool) : FloatFree (.bool b)
  | int (n : Int) : FloatFree (.int n)
  | string (text : String) : FloatFree (.string text)
  | array {items : List Json} (h : ∀ x ∈ items, FloatFree x) : FloatFree (.array items)
  | object {members : Members} (h : ∀ name x, members.find? name = some x → FloatFree x) :
    FloatFree (.object members)

/-- What can follow a value: nothing, a comma or a closing bracket. -/
def Ended (rest : List Char) : Prop := ∀ c ∈ rest.head?, c = ',' ∨ c = ']' ∨ c = '\x7d'

lemma ended_nil : Ended [] := by
  intro c hc
  cases hc

lemma ended_cons {c : Char} (h : c = ',' ∨ c = ']' ∨ c = '\x7d') (rest : List Char) :
    Ended (c :: rest) := by
  rintro d hd
  cases hd
  exact h

/-! ## Strings -/

/-- The first character of a quoted text and what follows it, unless the text ends there. -/
def unescape? : List Char → Option (Char × List Char)
  | '\\' :: 'u' :: _ :: _ :: high :: low :: rest =>
    match Bytes.hexValue? high, Bytes.hexValue? low with
    | some m, some n => some (Char.ofNat (16 * m + n), rest)
    | _, _ => none
  | '\\' :: 'b' :: rest => some ('\x08', rest)
  | '\\' :: 'f' :: rest => some ('\x0c', rest)
  | '\\' :: 'n' :: rest => some ('\n', rest)
  | '\\' :: 'r' :: rest => some ('\r', rest)
  | '\\' :: 't' :: rest => some ('\t', rest)
  | '\\' :: c :: rest => some (c, rest)
  | '"' :: _ => none
  | c :: rest => some (c, rest)
  | [] => none

lemma hexValue?_hexDigit : ∀ n < 16, Bytes.hexValue? (Bytes.hexDigit n) = some n := by
  decide

/-- What was escaped can be read off. -/
lemma unescape?_escaped (c : Char) (rest : List Char) :
    unescape? (escaped c ++ rest) = some (c, rest) := by
  unfold escaped
  split_ifs with hquote hbackslash hb hf hn hr ht hcontrol
  · subst hquote; rfl
  · subst hbackslash; rfl
  · subst hb; rfl
  · subst hf; rfl
  · subst hn; rfl
  · subst hr; rfl
  · subst ht; rfl
  · have hhigh := hexValue?_hexDigit (c.toNat / 16) (by omega)
    have hlow := hexValue?_hexDigit (c.toNat % 16) (by omega)
    simp only [List.cons_append, List.nil_append, unescape?, hhigh, hlow]
    rw [Nat.div_add_mod, Char.ofNat_toNat]
  · rw [List.singleton_append, unescape?]
    all_goals simp [hquote, hbackslash]

lemma escaped_append_inj {s t r r' : List Char}
    (h : s.flatMap escaped ++ '"' :: r = t.flatMap escaped ++ '"' :: r') : s = t ∧ r = r' := by
  induction s generalizing t with
  | nil =>
    cases t with
    | nil => exact ⟨rfl, (List.cons.inj h).2⟩
    | cons d t =>
      have hread := congrArg unescape? h
      rw [List.flatMap_cons, List.append_assoc, unescape?_escaped] at hread
      cases hread
  | cons c s ih =>
    have hread := congrArg unescape? h
    rw [List.flatMap_cons, List.append_assoc, unescape?_escaped] at hread
    cases t with
    | nil => cases hread
    | cons d t =>
      rw [List.flatMap_cons, List.append_assoc, unescape?_escaped] at hread
      obtain ⟨rfl, hrest⟩ := Prod.mk.inj (Option.some.inj hread)
      obtain ⟨rfl, rfl⟩ := ih hrest
      exact ⟨rfl, rfl⟩

/-- Where a quoted string ends is seen from the string. -/
lemma quoted_append_inj {a b : String} {r r' : List Char} (h : quoted a ++ r = quoted b ++ r') :
    a = b ∧ r = r' := by
  simp only [quoted, List.cons_append, List.append_assoc, List.cons.injEq, true_and] at h
  obtain ⟨hab, hr⟩ := escaped_append_inj h
  exact ⟨String.toList_inj.mp hab, hr⟩

lemma quoted_injective {a b : String} (h : quoted a = quoted b) : a = b :=
  (quoted_append_inj (congrArg (· ++ []) h)).1

/-! ## Integers -/

/-- A character of the text of an integer. -/
def IsNumeral (c : Char) : Prop := c = '-' ∨ c.isDigit

instance : DecidablePred IsNumeral := fun c => inferInstanceAs (Decidable (c = '-' ∨ c.isDigit))

lemma append_inj_of_numerals {a b r r' : List Char} (ha : ∀ c ∈ a, IsNumeral c)
    (hb : ∀ c ∈ b, IsNumeral c) (hr : ∀ c ∈ r.head?, ¬ IsNumeral c)
    (hr' : ∀ c ∈ r'.head?, ¬ IsNumeral c) (h : a ++ r = b ++ r') : a = b ∧ r = r' := by
  induction a generalizing b with
  | nil =>
    cases b with
    | nil => exact ⟨rfl, h⟩
    | cons d b =>
      obtain rfl : r = d :: (b ++ r') := h
      exact absurd (hb d List.mem_cons_self) (hr d rfl)
  | cons c a ih =>
    cases b with
    | nil =>
      obtain rfl : c :: (a ++ r) = r' := h
      exact absurd (ha c List.mem_cons_self) (hr' c rfl)
    | cons d b =>
      rw [List.forall_mem_cons] at ha hb
      obtain ⟨rfl, hrest⟩ := List.cons.inj h
      obtain ⟨rfl, hrr⟩ := ih ha.2 hb.2 hrest
      exact ⟨rfl, hrr⟩

/-- The text of an integer is made of numerals. -/
lemma isNumeral_of_mem_toString {n : Int} {c : Char} (h : c ∈ (toString n).toList) :
    IsNumeral c := by
  have hdigits {m : Nat} (hc : c ∈ m.repr.toList) : IsNumeral c := by
    rw [Nat.repr_eq_ofList_toDigits, String.toList_ofList] at hc
    exact .inr (Nat.isDigit_of_mem_toDigits (by decide) (by decide) hc)
  rw [Int.toString_eq_repr, Int.repr_eq_if] at h
  split at h
  · exact hdigits h
  · rw [String.toList_append, List.mem_append] at h
    rcases h with h | h
    · exact .inl (by simpa using h)
    · exact hdigits h

lemma toString_ne_nil (n : Int) : (toString n).toList ≠ [] := by
  have hdigits (m : Nat) : m.repr.toList ≠ [] := by
    rw [Nat.repr_eq_ofList_toDigits, String.toList_ofList]
    exact Nat.toDigits_ne_nil
  rw [Int.toString_eq_repr, Int.repr_eq_if]
  split
  · exact hdigits _
  · simp

lemma not_isNumeral_of_ended {r : List Char} (h : Ended r) : ∀ c ∈ r.head?, ¬ IsNumeral c := by
  intro c hc
  rcases h c hc with rfl | rfl | rfl <;> decide

lemma int_append_inj {m n : Int} {r r' : List Char} (hr : Ended r) (hr' : Ended r')
    (h : (toString m).toList ++ r = (toString n).toList ++ r') : m = n ∧ r = r' := by
  obtain ⟨htext, hrest⟩ := append_inj_of_numerals (fun c => isNumeral_of_mem_toString)
    (fun c => isNumeral_of_mem_toString) (not_isNumeral_of_ended hr)
    (not_isNumeral_of_ended hr') h
  rw [String.toList_inj, Int.toString_eq_repr, Int.toString_eq_repr, Int.repr_inj] at htext
  exact ⟨htext, hrest⟩

/-! ## The kind of a value -/

/-- The kind of value whose text begins with a character; no text begins with a closing
bracket. -/
def kindOf : Char → String
  | 'n' => "null"
  | 't' => "boolean"
  | 'f' => "boolean"
  | '"' => "string"
  | '[' => "array"
  | '\x7b' => "object"
  | ']' => ""
  | '\x7d' => ""
  | _ => "number"

lemma kindOf_numeral {c : Char} (h : IsNumeral c) : kindOf c = "number" := by
  unfold kindOf
  split
  all_goals first
    | rfl
    | exact absurd h (by decide)

variable {style : Style} {v w : Json}

/-- A text begins with a character that tells the kind of its value. -/
lemma exists_chars_eq_cons (style : Style) (hv : FloatFree v) :
    ∃ c rest, v.chars style = c :: rest ∧ kindOf c = v.kindName := by
  cases hv with
  | null => exact ⟨_, _, rfl, rfl⟩
  | bool b => cases b <;> exact ⟨_, _, rfl, rfl⟩
  | int n =>
    obtain ⟨c, rest, htext⟩ := List.exists_cons_of_ne_nil (toString_ne_nil n)
    have hc : IsNumeral c := isNumeral_of_mem_toString (htext ▸ List.mem_cons_self)
    exact ⟨c, rest, htext, kindOf_numeral hc⟩
  | string text => exact ⟨_, _, rfl, rfl⟩
  | array h => exact ⟨_, _, rfl, rfl⟩
  | object h => exact ⟨_, _, rfl, rfl⟩

lemma kindName_eq_of_chars_append (hv : FloatFree v) (hw : FloatFree w) {r r' : List Char}
    (h : v.chars style ++ r = w.chars style ++ r') : v.kindName = w.kindName := by
  obtain ⟨c, rest, hc, hkind⟩ := exists_chars_eq_cons style hv
  obtain ⟨d, rest', hd, hkind'⟩ := exists_chars_eq_cons style hw
  rw [hc, hd, List.cons_append, List.cons_append] at h
  rw [← hkind, ← hkind', (List.cons.inj h).1]

/-! ## Arrays and objects -/

/-- A piece of an array or object does not begin as the end of one. -/
def Opens (piece : List Char) : Prop := ∃ c rest, piece = c :: rest ∧ c ≠ ']' ∧ c ≠ '\x7d'

lemma opens_chars (hv : FloatFree v) : Opens (v.chars style) := by
  obtain ⟨c, rest, htext, hkind⟩ := exists_chars_eq_cons style hv
  have hword : v.kindName ≠ "" := by
    cases v <;> simp [kindName]
  refine ⟨c, rest, htext, ?_, ?_⟩
  · rintro rfl
    exact hword hkind.symm
  · rintro rfl
    exact hword hkind.symm

lemma commaSeparated_cons_append (piece : List Char) (more : List (List Char))
    (rest : List Char) :
    commaSeparated (piece :: more) ++ rest =
      piece ++ if more = [] then rest else ',' :: (commaSeparated more ++ rest) := by
  cases more <;> simp [commaSeparated]

/-- Pieces between commas are seen from their text up to the closing bracket, if each is seen
from its own. -/
lemma commaSeparated_append_inj {α : Type} {f : α → List Char} {close : Char}
    (hclose : close = ']' ∨ close = '\x7d') {xs ys : List α} {r r' : List Char}
    (hxs : ∀ x ∈ xs, Opens (f x)) (hys : ∀ y ∈ ys, Opens (f y))
    (hinj : ∀ x ∈ xs, ∀ y ∈ ys, ∀ s s', Ended s → Ended s' → f x ++ s = f y ++ s' →
      x = y ∧ s = s')
    (h : commaSeparated (xs.map f) ++ close :: r = commaSeparated (ys.map f) ++ close :: r') :
    xs = ys ∧ r = r' := by
  have hnone {x : α} {s s' : List Char} (hx : Opens (f x)) : close :: s ≠ f x ++ s' := by
    obtain ⟨c, rest, htext, hbracket, hbrace⟩ := hx
    intro heq
    rw [htext] at heq
    obtain rfl := (List.cons.inj heq).1
    exact hclose.elim hbracket hbrace
  have hended (more : List α) (s : List Char) :
      Ended (if more.map f = [] then close :: s
        else ',' :: (commaSeparated (more.map f) ++ close :: s)) := by
    split
    · exact ended_cons (.inr hclose) _
    · exact ended_cons (.inl rfl) _
  have hcomma : close ≠ ',' := by
    rcases hclose with rfl | rfl <;> decide
  induction xs generalizing ys with
  | nil =>
    cases ys with
    | nil => exact ⟨rfl, (List.cons.inj h).2⟩
    | cons y ys =>
      rw [List.map_cons, commaSeparated_cons_append] at h
      exact absurd h (hnone (hys y List.mem_cons_self))
  | cons x xs ih =>
    cases ys with
    | nil =>
      rw [List.map_cons, commaSeparated_cons_append] at h
      exact absurd h.symm (hnone (hxs x List.mem_cons_self))
    | cons y ys =>
      rw [List.map_cons, commaSeparated_cons_append, List.map_cons, commaSeparated_cons_append]
        at h
      rw [List.forall_mem_cons] at hxs hys
      obtain ⟨rfl, hrest⟩ := hinj x List.mem_cons_self y List.mem_cons_self _ _
        (hended xs r) (hended ys r') h
      have hinj' : ∀ x ∈ xs, ∀ y ∈ ys, ∀ s s', Ended s → Ended s' → f x ++ s = f y ++ s' →
          x = y ∧ s = s' := fun a ha b hb =>
        hinj a (List.mem_cons_of_mem _ ha) b (List.mem_cons_of_mem _ hb)
      -- a text that goes on with a comma has a further piece, one that ends has none
      split at hrest
      · rename_i hx
        split at hrest
        · rename_i hy
          rw [List.map_eq_nil_iff] at hx hy
          exact ⟨by rw [hx, hy], (List.cons.inj hrest).2⟩
        · exact absurd (List.cons.inj hrest).1 hcomma
      · split at hrest
        · exact absurd (List.cons.inj hrest).1.symm hcomma
        · obtain ⟨rfl, hr⟩ := ih hxs.2 hys.2 hinj' (List.cons.inj hrest).2
          exact ⟨rfl, hr⟩

lemma itemChars_eq_map (items : List Json) : itemChars style items = items.map (chars style) := by
  induction items with
  | nil => rfl
  | cons item more ih => rw [itemChars, ih, List.map_cons]

/-- What is written for a member. -/
def memberText (style : Style) (name : String) (value : Json) : List Char :=
  quoted name ++ ':' :: value.chars style

lemma find?_memberChars (hrank : Function.Injective style.rank) (name : String) :
    {floor : Option String} → (m : Ascending String Json floor) →
      (memberChars style m).find? (style.rank name) = (m.find? name).map (memberText style name)
  | _, .nil => rfl
  | _, .cons key _ value more => by
    rw [memberChars, Ascending.find?_insert, Ascending.find?_cons,
      find?_memberChars hrank name more]
    by_cases hname : name = key
    · rw [if_pos hname, if_pos (congrArg style.rank hname), hname]
      rfl
    · rw [if_neg hname, if_neg (hrank.ne hname)]

/-- What is written in an object is written for one of its members. -/
lemma exists_member_of_find?_memberChars {rank : String} {piece : List Char} :
    {floor : Option String} → (m : Ascending String Json floor) →
      (memberChars style m).find? rank = some piece →
      ∃ name value, m.find? name = some value ∧ rank = style.rank name ∧
        piece = memberText style name value
  | _, .nil, h => nomatch h
  | _, .cons key _ value more, h => by
    rw [memberChars, Ascending.find?_insert] at h
    split at h
    · rename_i hkey
      cases h
      exact ⟨key, value, if_pos rfl, hkey, rfl⟩
    · obtain ⟨name, value', hfind, hname, hpiece⟩ := exists_member_of_find?_memberChars more h
      have hne : name ≠ key := by
        rintro rfl
        rw [Ascending.find?_eq_none_of_le le_rfl more rfl] at hfind
        cases hfind
      exact ⟨name, value', (if_neg hne).trans hfind, hname, hpiece⟩

lemma opens_of_mem_memberChars {m : Members} {x : String × List Char}
    (hx : x ∈ (memberChars style m).toList) : Opens x.2 := by
  obtain ⟨name, value, -, -, hpiece⟩ :=
    exists_member_of_find?_memberChars m ((Ascending.mem_toList_iff _ _ _).mp hx)
  rw [hpiece]
  exact ⟨_, _, rfl, by decide, by decide⟩

/-- Two members with the same text, up to what follows, are the same. -/
lemma memberText_append_inj {name name' : String} {s s' : List Char}
    (hinj : v.chars style ++ s = w.chars style ++ s' → v = w ∧ s = s')
    (h : memberText style name v ++ s = memberText style name' w ++ s') :
    (name = name' ∧ v = w) ∧ s = s' := by
  rw [memberText, memberText, List.append_assoc, List.append_assoc] at h
  obtain ⟨hname, htext⟩ := quoted_append_inj h
  obtain ⟨hvalue, hs⟩ := hinj (List.cons.inj htext).2
  exact ⟨⟨hname, hvalue⟩, hs⟩

/-- The members of an object are seen from its text, if their values are seen from theirs. -/
lemma members_append_inj (hrank : Function.Injective style.rank) {m m' : Members}
    (hinj : ∀ name x name' y, m.find? name = some x → m'.find? name' = some y →
      ∀ s s', Ended s → Ended s' → x.chars style ++ s = y.chars style ++ s' → x = y ∧ s = s')
    {r r' : List Char}
    (h : commaSeparated ((memberChars style m).toList.map (·.2)) ++ '\x7d' :: r =
      commaSeparated ((memberChars style m').toList.map (·.2)) ++ '\x7d' :: r') :
    m = m' ∧ r = r' := by
  have hentry : ∀ x ∈ (memberChars style m).toList, ∀ y ∈ (memberChars style m').toList,
      ∀ s s', Ended s → Ended s' → x.2 ++ s = y.2 ++ s' → x = y ∧ s = s' := by
    rintro ⟨_, _⟩ hx ⟨_, _⟩ hy s s' hs hs' htext
    rw [Ascending.mem_toList_iff] at hx hy
    obtain ⟨name, value, hvalue, rfl, rfl⟩ := exists_member_of_find?_memberChars m hx
    obtain ⟨name', value', hvalue', rfl, rfl⟩ := exists_member_of_find?_memberChars m' hy
    obtain ⟨⟨rfl, rfl⟩, hrest⟩ :=
      memberText_append_inj (hinj name value name' value' hvalue hvalue' s s' hs hs') htext
    exact ⟨rfl, hrest⟩
  obtain ⟨hentries, hrest⟩ := commaSeparated_append_inj (.inr rfl)
    (fun x => opens_of_mem_memberChars) (fun y => opens_of_mem_memberChars) hentry h
  refine ⟨Ascending.ext _ _ fun name => ?_, hrest⟩
  -- under each name the two objects have members with the same text, or neither has one
  have hname : (m.find? name).map (memberText style name) =
      (m'.find? name).map (memberText style name) := by
    rw [← find?_memberChars hrank, ← find?_memberChars hrank,
      Ascending.toList_injective _ _ hentries]
  cases hv : m.find? name with
  | none =>
    rw [hv] at hname
    exact (Option.map_eq_none_iff.mp hname.symm).symm
  | some x =>
    rw [hv] at hname
    obtain ⟨y, hw, htext⟩ := Option.map_eq_some_iff.mp hname.symm
    obtain ⟨⟨-, rfl⟩, -⟩ := memberText_append_inj
      (hinj name x name y hv hw [] [] ended_nil ended_nil) (congrArg (· ++ []) htext.symm)
    exact hw.symm

/-- A value without floating-point numbers is seen from its text, whatever follows that ends
it. -/
theorem chars_append_inj (hrank : Function.Injective style.rank) (hv : FloatFree v)
    (hw : FloatFree w) {r r' : List Char} (hr : Ended r) (hr' : Ended r')
    (h : v.chars style ++ r = w.chars style ++ r') : v = w ∧ r = r' := by
  have hkind := kindName_eq_of_chars_append hv hw h
  induction hv generalizing w r r' with
  | null =>
    cases hw with
    | null => exact ⟨rfl, by simpa [chars] using h⟩
    | _ => simp [kindName] at hkind
  | bool b =>
    cases hw with
    | bool b' => cases b <;> cases b' <;> simp_all [chars]
    | _ => simp [kindName] at hkind
  | int n =>
    cases hw with
    | int n' =>
      obtain ⟨rfl, hrest⟩ := int_append_inj hr hr' h
      exact ⟨rfl, hrest⟩
    | _ => simp [kindName] at hkind
  | string text =>
    cases hw with
    | string text' =>
      obtain ⟨rfl, hrest⟩ := quoted_append_inj h
      exact ⟨rfl, hrest⟩
    | _ => simp [kindName] at hkind
  | array hitems ih =>
    cases hw with
    | @array items' hitems' =>
      simp only [chars, List.cons_append, List.append_assoc, List.nil_append,
        itemChars_eq_map] at h
      obtain ⟨rfl, hrest⟩ := commaSeparated_append_inj (.inl rfl)
        (fun x hx => opens_chars (hitems x hx)) (fun y hy => opens_chars (hitems' y hy))
        (fun x hx y hy s s' hs hs' htext => ih x hx (hitems' y hy) hs hs' htext
          (kindName_eq_of_chars_append (hitems x hx) (hitems' y hy) htext))
        (List.cons.inj h).2
      exact ⟨rfl, hrest⟩
    | _ => simp [kindName] at hkind
  | @object members hmembers ih =>
    cases hw with
    | @object members' hmembers' =>
      simp only [chars, List.cons_append, List.append_assoc, List.nil_append] at h
      obtain ⟨rfl, hrest⟩ := members_append_inj hrank
        (fun name x name' y hx hy s s' hs hs' htext =>
          ih name x hx (hmembers' name' y hy) hs hs' htext
            (kindName_eq_of_chars_append (hmembers name x hx) (hmembers' name' y hy) htext))
        (List.cons.inj h).2
      exact ⟨rfl, hrest⟩
    | _ => simp [kindName] at hkind

lemma rank_canonical_injective : Function.Injective Style.canonical.rank := fun _ _ h =>
  quoted_injective (String.ofList_injective h)

/-- Values without floating-point numbers that have the same canonical text are equal. -/
theorem canonical_inj (hv : FloatFree v) (hw : FloatFree w) (h : v.canonical = w.canonical) :
    v = w := by
  have htext := String.ofList_injective h
  exact (chars_append_inj rank_canonical_injective hv hw ended_nil ended_nil
    (congrArg (· ++ []) htext)).1

/-- A zero is written alike as a floating-point number and as an integer. -/
example : (float ⟨0⟩).canonical = (int 0).canonical := by decide

end Json

end SchemaRpc
