/-
# Members that are taken out

A reader may take a member out of a frame when it reads it, and let the last one fill the gap, so
that no others have to be moved.  The members that are left then stand in another order; but as
their tags are all different, each is still found by its tag.  So nothing else is decoded than where
the members stay, and nothing else is refused.

* `perm_swapRemove`: only the member that is taken out is missing,
* `Request.decodeTaking_eq` and `Response.decodeTaking_eq`: decoding does not depend on it.
-/
import Mathlib.Data.List.Perm.Basic
import SchemaRpc.Proofs.Envelope.Reading

namespace SchemaRpc

/-- What is left of a list when the element at a position is taken out and the last one takes its
place. -/
def swapRemove {α : Type} (l : List α) (i : Nat) : List α :=
  match l.getLast? with
  | none => []
  | some last => (l.set i last).dropLast

lemma perm_swapRemove {α : Type} {l : List α} {i : Nat} {a : α} (h : l[i]? = some a) :
    l.Perm (a :: swapRemove l i) := by
  obtain rfl | ⟨front, last, rfl⟩ := l.eq_nil_or_concat
  · cases h
  · rw [List.concat_eq_append] at h ⊢
    rw [swapRemove, List.getLast?_concat]
    dsimp only
    obtain ⟨hi, ha⟩ := List.getElem?_eq_some_iff.mp h
    rw [List.length_append, List.length_singleton] at hi
    by_cases hlast : i = front.length
    · -- the last element itself is taken out
      subst hlast
      obtain rfl : last = a := by simpa using ha
      simp
    · have hlt : i < front.length := by omega
      rw [List.getElem_append_left hlt] at ha
      rw [List.set_append_left _ _ hlt, List.dropLast_concat]
      have htaken : front.Perm (a :: front.eraseIdx i) :=
        ha ▸ (List.getElem_cons_eraseIdx_perm hlt).symm
      have hfilled : (front.set i last).Perm (last :: front.eraseIdx i) :=
        List.set_perm_cons_eraseIdx hlt last
      calc (front ++ [last]).Perm (last :: front) := List.perm_append_singleton last front
        List.Perm _ (last :: a :: front.eraseIdx i) := htaken.cons last
        List.Perm _ (a :: last :: front.eraseIdx i) := .swap a last _
        List.Perm _ (a :: front.set i last) := hfilled.symm.cons a

namespace Envelope

open Wire (Reader)

/-! ## Decoding that takes members out -/

/-- Operations that take members out of a frame. -/
abbrev Taking := StateT Frame Decoded

namespace Frame

/-- Take the member of a tag out. -/
def take (tag : Tag) (name : String) : Taking FrameMember := fun f =>
  match f.members.findIdx? (·.header.tag = tag) with
  | none => .error (.missing f.type name tag f.length)
  | some i =>
    match f.members[i]? with
    | none => .error (.missing f.type name tag f.length)
    | some m => .ok (m, { f with members := swapRemove f.members i })

/-- Read something without a change of the frame. -/
def still {α : Type} (read : Frame → Decoded α) : Taking α := fun f => (read f).map (·, f)

/-- Take the bytes of the member of a tag out. -/
def takeBytes (tag : Tag) (name : String) : Taking Bytes := do
  let m ← take tag name
  still (·.read m Reader.readBytes)

/-- Take the text of the member of a tag out. -/
def takeText (tag : Tag) (name : String) : Taking String := do
  let m ← take tag name
  let bytes ← still (·.read m Reader.readBytes)
  match Utf8.decode bytes with
  | .ok text => return text
  | .error fault => still fun f => .error (.malformed f.type m.payload.offset (.notUtf8 name fault))

/-- Take the status out. -/
def takeStatus : Taking Status := do
  let m ← take Response.statusTag "status"
  let code ← still (·.read m Reader.readInt)
  match Status.ofCode? code with
  | some status => return status
  | none => still fun f => .error (.malformed f.type m.payload.offset (.unknownStatus code))

end Frame

end Envelope

open Envelope

/-- The request of a frame of which the members are taken out one after the other. -/
def Request.decodeTaking (frame : Bytes) : Decoded Request := do
  let f ← Frame.ofBytes typeName frame
  StateT.run' (do
    let module ← Frame.takeText moduleTag "module"
    let member ← Frame.takeText memberTag "member"
    let method ← Frame.takeText methodTag "method"
    let payload ← Frame.takeBytes payloadTag "payload"
    return ⟨module, member, method, payload⟩) f

/-- The response of a frame of which the members are taken out one after the other. -/
def Response.decodeTaking (frame : Bytes) : Decoded Response := do
  let f ← Frame.ofBytes typeName frame
  StateT.run' (do
    let status ← Frame.takeStatus
    let payload ← Frame.takeBytes payloadTag "payload"
    return ⟨status, payload⟩) f

/-! ## Nothing changes -/

namespace Envelope

/-- All members but those of the tags are still found. -/
structure Left (taken : List Tag) (f f' : Frame) : Prop where
  type : f'.type = f.type
  length : f'.length = f.length
  nodup : (f'.members.map (·.header.tag)).Nodup
  find? : ∀ tag ∉ taken,
    f'.members.find? (·.header.tag = tag) = f.members.find? (·.header.tag = tag)

/-- On a frame of which some members have been taken out, an operation ends as it does on the
whole frame. -/
def Mirrors {α : Type} (f : Frame) (taken taken' : List Tag) (x : Decoded α) (y : Taking α) :
    Prop :=
  ∀ f', Left taken f f' → (∃ e, x = .error e ∧ y f' = .error e) ∨
    ∃ a f'', x = .ok a ∧ y f' = .ok (a, f'') ∧ Left taken' f f''

section

variable {α β : Type} {f : Frame} {taken taken' taken'' : List Tag}

lemma mirrors_pure (a : α) : Mirrors f taken taken (pure a) (pure a) :=
  fun f' h => .inr ⟨a, f', rfl, rfl, h⟩

lemma Mirrors.bind {x : Decoded α} {y : Taking α} {g : α → Decoded β} {k : α → Taking β}
    (h : Mirrors f taken taken' x y) (hk : ∀ a, Mirrors f taken' taken'' (g a) (k a)) :
    Mirrors f taken taken'' (x >>= g) (y >>= k) := by
  intro f' hleft
  rcases h f' hleft with ⟨e, rfl, hy⟩ | ⟨a, f'', rfl, hy, hleft'⟩
  · refine .inl ⟨e, rfl, ?_⟩
    show y f' >>= _ = _
    rw [hy]
    rfl
  · rcases hk a f'' hleft' with ⟨e, hg, hka⟩ | ⟨b, f₁, hg, hka, hleft₁⟩
    · refine .inl ⟨e, hg, ?_⟩
      show y f' >>= _ = _
      rw [hy]
      exact hka
    · refine .inr ⟨b, f₁, hg, ?_, hleft₁⟩
      show y f' >>= _ = _
      rw [hy]
      exact hka

lemma mirrors_still {x : Decoded α} {read : Frame → Decoded α}
    (h : ∀ f', Left taken f f' → read f' = x) : Mirrors f taken taken x (Frame.still read) := by
  intro f' hleft
  rw [Frame.still, h f' hleft]
  cases x with
  | error e => exact .inl ⟨e, rfl, rfl⟩
  | ok a => exact .inr ⟨a, f', rfl, rfl, hleft⟩

/-- Taking a member out leaves all others to be found. -/
lemma Left.swapRemove {f' : Frame} (h : Left taken f f') {i : Nat} {m : FrameMember}
    (hm : f'.members[i]? = some m) :
    Left (m.header.tag :: taken) f { f' with members := swapRemove f'.members i } := by
  have hperm := perm_swapRemove hm
  have hnodup : ((m :: SchemaRpc.swapRemove f'.members i).map (·.header.tag)).Nodup :=
    (hperm.map _).nodup_iff.mp h.nodup
  have hrest := (List.nodup_cons.mp hnodup).2
  refine ⟨h.type, h.length, hrest, fun tag htag => ?_⟩
  rw [List.mem_cons, not_or] at htag
  rw [← h.find? tag htag.2]
  -- with tags of their own, members are found just if they are there
  refine Option.ext fun m' => ?_
  rw [find?_eq_some_iff_keyOf (fun m : FrameMember => m.header.tag) hrest,
    find?_eq_some_iff_keyOf (fun m : FrameMember => m.header.tag) h.nodup, hperm.mem_iff,
    List.mem_cons]
  constructor
  · rintro ⟨hmem, rfl⟩
    exact ⟨.inr hmem, rfl⟩
  · rintro ⟨rfl | hmem, rfl⟩
    · exact absurd rfl htag.1
    · exact ⟨hmem, rfl⟩

lemma mirrors_take {tag : Tag} (htag : tag ∉ taken) (name : String) :
    Mirrors f taken (tag :: taken) (f.member tag name) (Frame.take tag name) := by
  intro f' hleft
  have hfind := hleft.find? tag htag
  rw [List.find?_eq_bind_findIdx?_getElem?] at hfind
  rw [Frame.member, ← hfind, Frame.take, ← hleft.type, ← hleft.length]
  cases hidx : f'.members.findIdx? (·.header.tag = tag) with
  | none => exact .inl ⟨_, rfl, rfl⟩
  | some i =>
    obtain ⟨hi, hown, -⟩ := List.findIdx?_eq_some_iff_getElem.mp hidx
    have hm : f'.members[i]? = some f'.members[i] := List.getElem?_eq_getElem hi
    simp only [Option.bind_some, hm]
    refine .inr ⟨_, _, rfl, rfl, ?_⟩
    have htag : f'.members[i].header.tag = tag := by simpa using hown
    exact htag ▸ hleft.swapRemove hm

lemma Left.read_eq {f' : Frame} (h : Left taken f f') (m : FrameMember)
    (op : Wire.Kind → Wire.Reading α) : f'.read m op = f.read m op := by
  rw [Frame.read, Frame.read, h.type]

lemma mirrors_takeBytes {tag : Tag} (htag : tag ∉ taken) (name : String) :
    Mirrors f taken (tag :: taken) (f.bytes tag name) (Frame.takeBytes tag name) :=
  (mirrors_take htag name).bind fun m => mirrors_still fun _ hleft => hleft.read_eq m _

lemma mirrors_takeText {tag : Tag} (htag : tag ∉ taken) (name : String) :
    Mirrors f taken (tag :: taken) (f.text tag name) (Frame.takeText tag name) := by
  refine (mirrors_take htag name).bind fun m =>
    (mirrors_still fun _ hleft => hleft.read_eq m _).bind fun bytes => ?_
  cases Utf8.decode bytes with
  | ok text => exact mirrors_pure text
  | error fault => exact mirrors_still fun _ hleft => by rw [hleft.type]; rfl

lemma mirrors_takeStatus (htag : Response.statusTag ∉ taken) :
    Mirrors f taken (Response.statusTag :: taken) (Response.decodeStatus f) Frame.takeStatus := by
  refine (mirrors_take htag "status").bind fun m =>
    (mirrors_still fun _ hleft => hleft.read_eq m _).bind fun code => ?_
  cases Status.ofCode? code with
  | some status => exact mirrors_pure status
  | none => exact mirrors_still fun _ hleft => by rw [hleft.type]; rfl

/-- From a frame with tags of their own, the result is that of the whole frame. -/
lemma Mirrors.run' {x : Decoded α} {y : Taking α} (h : Mirrors f [] taken x y)
    (hnodup : (f.members.map (·.header.tag)).Nodup) : StateT.run' y f = x := by
  rcases h f ⟨rfl, rfl, hnodup, fun _ _ => rfl⟩ with ⟨e, rfl, hy⟩ | ⟨a, f', rfl, hy, -⟩
  · show _ <$> y f = _
    rw [hy]
    rfl
  · show _ <$> y f = _
    rw [hy]
    rfl

end

lemma map_tag_of_matches {members : List FrameMember} {parts : List (Tag × Wire.Piece)}
    (h : List.Forall₂ Matches members parts) :
    members.map (·.header.tag) = parts.map (·.1) := by
  induction h with
  | nil => rfl
  | cons hm _ ih => rw [List.map_cons, List.map_cons, hm.header, ih]

/-- No two members of a frame that was walked through have the same tag. -/
lemma Frame.nodup_of_ofBytes {type : String} {bytes : Bytes} {f : Frame}
    (h : Frame.ofBytes type bytes = .ok f) : (f.members.map (·.header.tag)).Nodup := by
  obtain ⟨parts, -, hlists⟩ := Frame.isFrame_of_ofBytes h
  rw [map_tag_of_matches hlists.members]
  exact List.pairwise_map.mpr (hlists.ascends.imp fun hlt => Fin.ne_of_lt hlt)

end Envelope

/-- Requests are decoded alike whether their members stay or are taken out. -/
theorem Request.decodeTaking_eq (frame : Bytes) : decodeTaking frame = decode frame := by
  rw [decodeTaking, decode]
  cases hf : Frame.ofBytes typeName frame with
  | error e => rfl
  | ok f =>
    refine Mirrors.run' (?_ : Mirrors f [] [payloadTag, methodTag, memberTag, moduleTag] _ _)
      (Frame.nodup_of_ofBytes hf)
    refine (mirrors_takeText (by decide) _).bind fun module => ?_
    refine (mirrors_takeText (by decide) _).bind fun member => ?_
    refine (mirrors_takeText (by decide) _).bind fun method => ?_
    exact (mirrors_takeBytes (by decide) _).bind fun payload => mirrors_pure _

/-- Responses are decoded alike whether their members stay or are taken out. -/
theorem Response.decodeTaking_eq (frame : Bytes) : decodeTaking frame = decode frame := by
  rw [decodeTaking, decode]
  cases hf : Frame.ofBytes typeName frame with
  | error e => rfl
  | ok f =>
    refine Mirrors.run' (?_ : Mirrors f [] [payloadTag, statusTag] _ _) (Frame.nodup_of_ofBytes hf)
    refine (mirrors_takeStatus (by decide)).bind fun status => ?_
    exact (mirrors_takeBytes (by decide) _).bind fun payload => mirrors_pure _

end SchemaRpc
