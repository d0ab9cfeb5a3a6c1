/-
# Ascending maps

Finite maps that list their entries in strictly ascending key order.  The order is part of
the type: `Ascending κ α floor` holds entries whose keys all lie above `floor`, so no two
entries share a key and two maps with the same entries are equal.  Records keep their fields
by tag in such a map, and JSON objects keep their members by name.
-/

namespace SchemaRpc

/-- The entries of a finite map, in ascending key order, all keys above `floor`. -/
inductive Ascending (κ : Type) [LT κ] (α : Type) : Option κ → Type where
  /-- No entries. -/
  | nil {floor : Option κ} : Ascending κ α floor
  /-- An entry, followed by entries with larger keys. -/
  | cons {floor : Option κ} (key : κ) (above : ∀ k ∈ floor, k < key) (entry : α)
      (rest : Ascending κ α (some key)) : Ascending κ α floor

namespace Ascending

variable {κ : Type} [LT κ] {α β : Type} {floor : Option κ}

/-- The entries in ascending key order. -/
def toList : {floor : Option κ} → Ascending κ α floor → List (κ × α)
  | _, .nil => []
  | _, .cons key _ entry rest => (key, entry) :: rest.toList

/-- The keys in ascending order. -/
def keys (m : Ascending κ α floor) : List κ := m.toList.map (·.1)

/-- How many entries the map has. -/
def size (m : Ascending κ α floor) : Nat := m.toList.length

/-- Whether the map has no entry. -/
def isEmpty : Ascending κ α floor → Bool
  | .nil => true
  | .cons .. => false

/-- The entry stored under a key. -/
def find? [DecidableEq κ] : {floor : Option κ} → Ascending κ α floor → κ → Option α
  | _, .nil, _ => none
  | _, .cons key _ entry rest, k => if k = key then some entry else rest.find? k

/-- Store an entry under a key above the floor, in place of an earlier one. -/
def insertAbove [DecidableLT κ] :
    {floor : Option κ} → Ascending κ α floor → (k : κ) → (∀ b ∈ floor, b < k) → α →
      Ascending κ α floor
  | _, .nil, k, hk, a => .cons k hk a .nil
  | _, .cons key above entry rest, k, hk, a =>
    if before : k < key then
      .cons k hk a (.cons key (fun b hb => by cases hb; exact before) entry rest)
    else if after : key < k then
      .cons key above entry (rest.insertAbove k (fun b hb => by cases hb; exact after) a)
    else
      .cons key above a rest

/-- Store an entry under a key, in place of an earlier one. -/
def insert [DecidableLT κ] (m : Ascending κ α none) (k : κ) (a : α) : Ascending κ α none :=
  m.insertAbove k (fun _ hb => nomatch hb) a

/-- Lower the floor: what lies above a key lies above everything that the key is above. -/
def lower [Trans (α := κ) (· < ·) (· < ·) (· < ·)] {key : κ}
    (above : ∀ b ∈ floor, b < key) : Ascending κ α (some key) → Ascending κ α floor
  | .nil => .nil
  | .cons next h entry rest =>
    .cons next (fun b hb => Trans.trans (above b hb) (h key rfl)) entry rest

/-- Remove the entry stored under a key, if there is one. -/
def erase [DecidableEq κ] [Trans (α := κ) (· < ·) (· < ·) (· < ·)] :
    {floor : Option κ} → Ascending κ α floor → κ → Ascending κ α floor
  | _, .nil, _ => .nil
  | _, .cons key above entry rest, k =>
    if k = key then rest.lower above else .cons key above entry (rest.erase k)

/-- The map of a list of entries; of two entries with one key the later counts. -/
def ofList [DecidableLT κ] (entries : List (κ × α)) : Ascending κ α none :=
  entries.foldl (fun m e => m.insert e.1 e.2) .nil

@[simp] theorem toList_nil : (nil : Ascending κ α floor).toList = [] := rfl

@[simp] theorem toList_cons {key : κ} {above : ∀ k ∈ floor, k < key} {entry : α}
    {rest : Ascending κ α (some key)} :
    (cons key above entry rest).toList = (key, entry) :: rest.toList := rfl

/-- A map is determined by its list of entries. -/
theorem toList_injective : {floor : Option κ} → (m n : Ascending κ α floor) →
    m.toList = n.toList → m = n
  | _, .nil, .nil, _ => rfl
  | _, .nil, .cons .., h => by simp at h
  | _, .cons .., .nil, h => by simp at h
  | _, .cons k _ a r, .cons k' _ a' r', h => by
    simp only [toList_cons, List.cons.injEq, Prod.mk.injEq] at h
    obtain ⟨⟨rfl, rfl⟩, h⟩ := h
    rw [toList_injective r r' h]

end Ascending

/-- Strings in the order of their code points can be the keys of an ascending map. -/
instance stringLtTrans : Trans (α := String) (· < ·) (· < ·) (· < ·) := ⟨String.lt_trans⟩

end SchemaRpc
