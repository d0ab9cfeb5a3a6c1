/-
# Tag assignment

Members get their tags in the order of their declaration.  An explicit tag wins; it must not be
zero or reserved.  A member without one gets the least number above the previous member's tag
that is not reserved.  No tag is given twice, whichever of the two members asked for it.
-/
import SchemaRpc.Value.Basic

namespace SchemaRpc

namespace Schema

/-- Who holds a tag already. -/
inductive TagHolder where
  /-- The tag is reserved. -/
  | reserved
  /-- An earlier member has it. -/
  | member (name : String)
deriving DecidableEq

/-- How a holder is named in messages. -/
def TagHolder.name : TagHolder → String
  | .reserved => "<reserved>"
  | .member name => name

/-- Why a member gets no tag. -/
inductive TagFault where
  /-- The tag is zero, or would have to be larger than the largest one. -/
  | invalid (tag : Nat)
  /-- The tag has a holder. -/
  | taken (tag : Tag) (holder : TagHolder)
deriving DecidableEq

/-- The tags given so far. -/
structure Tagging where
  reserved : List Tag
  /-- The tags given so far and the members that have them. -/
  given : List (Tag × String)
  /-- The tag given last, zero before the first. -/
  last : Nat
deriving DecidableEq

/-- The first number at or after `n` that is not reserved, if one of the next `fuel` is; of
one more number than there are reserved tags one always is. -/
def firstFree (reserved : List Tag) : (fuel n : Nat) → Nat
  | 0, n => n
  | fuel + 1, n => if reserved.any (·.val = n) then firstFree reserved fuel (n + 1) else n

namespace Tagging

/-- No tags given. -/
def start (reserved : List Tag) : Tagging := ⟨reserved, [], 0⟩

/-- The tag that a member without an explicit one should get. -/
def next (t : Tagging) : Nat := firstFree t.reserved t.reserved.length (t.last + 1)

/-- Give a tag to a member unless another has it. -/
def give (t : Tagging) (member : String) (tag : Tag) : Except TagFault (Tag × Tagging) :=
  match t.given.lookup tag with
  | some holder => .error (.taken tag (.member holder))
  | none => .ok (tag, ⟨t.reserved, (tag, member) :: t.given, tag.val⟩)

/-- The tag of the next member and the tags given after it. -/
def assign (t : Tagging) (member : String) :
    (explicit : Option Tag) → Except TagFault (Tag × Tagging)
  | some tag =>
    if tag = .zero then .error (.invalid 0)
    else if t.reserved.contains tag then .error (.taken tag .reserved)
    else t.give member tag
  | none =>
    if h : t.next < 65536 then t.give member ⟨t.next, h⟩ else .error (.invalid t.next)

/-- The tags of members in order, or the first member without one and its fault. -/
def assignAll : Tagging → List (String × Option Tag) → Except (String × TagFault) (List Tag)
  | _, [] => .ok []
  | t, (member, explicit) :: more =>
    match t.assign member explicit with
    | .error fault => .error (member, fault)
    | .ok (tag, t) => (assignAll t more).map (tag :: ·)

end Tagging

/-- Put a member in its place among members in ascending order of their tags. -/
def insertByTag {α : Type} (tagOf : α → Tag) (a : α) : List α → List α
  | [] => [a]
  | b :: more => if tagOf a < tagOf b then a :: b :: more else b :: insertByTag tagOf a more

/-- Members in ascending order of their tags. -/
def sortByTag {α : Type} (tagOf : α → Tag) (members : List α) : List α :=
  members.foldl (fun sorted a => insertByTag tagOf a sorted) []

end Schema

end SchemaRpc
