import SoftSimplex.Sorted.Map

/-!
Finite sets kept in increasing order: maps that store nothing under their keys.

`toList` lists the members in order. Sets with the same members are equal (`Set.ext_mem`), and
`mem_insert`, `mem_erase` and `mem_ofList` say what the operations do.
-/

namespace SoftSimplex.Sorted

open Std

variable {α : Type} [Ord α]

/-- A finite set of `α`, in increasing order. -/
structure Set (α : Type) [Ord α] where
  entries : Map α Unit

namespace Set

instance [DecidableEq α] : DecidableEq (Set α) := fun a b =>
  if h : a.entries = b.entries then
    isTrue (by cases a; cases b; cases h; rfl)
  else isFalse fun same => h (by rw [same])

/-- The set without members. -/
def empty : Set α := ⟨∅⟩

instance : EmptyCollection (Set α) := ⟨empty⟩
instance : Inhabited (Set α) := ⟨empty⟩

/-- The members, in increasing order. -/
def toList (set : Set α) : List α := set.entries.keys

/-- Whether something is a member. -/
def contains (set : Set α) (a : α) : Bool := set.entries.contains a

instance : Membership α (Set α) := ⟨fun set a => set.contains a = true⟩

instance (set : Set α) (a : α) : Decidable (a ∈ set) :=
  inferInstanceAs (Decidable (set.contains a = true))

/-- The number of members. -/
def size (set : Set α) : Nat := set.entries.size

/-- Take a member out. -/
def erase (set : Set α) (a : α) : Set α := ⟨set.entries.erase a⟩

variable [TransOrd α] [LawfulEqOrd α]

/-- Put a member in. -/
def insert (set : Set α) (a : α) : Set α := ⟨set.entries.insert a ()⟩

/-- The set of the elements of a list. -/
def ofList (elements : List α) : Set α := elements.foldl insert empty

/-! ### Membership -/

omit [TransOrd α] [LawfulEqOrd α] in
theorem mem_iff_contains {set : Set α} {a : α} : a ∈ set ↔ set.contains a = true := .rfl

omit [TransOrd α] [LawfulEqOrd α] in
@[simp] theorem not_mem_empty (a : α) : a ∉ (∅ : Set α) := by
  intro member
  cases member

theorem mem_toList {set : Set α} {a : α} : a ∈ set.toList ↔ a ∈ set := by
  rw [toList, Map.mem_keys_iff]
  rfl

theorem mem_insert [DecidableEq α] {set : Set α} {a b : α} :
    b ∈ set.insert a ↔ b = a ∨ b ∈ set := by
  simp only [mem_iff_contains, contains, Map.contains, insert, Map.get?_insert]
  split <;> grind

theorem mem_erase [DecidableEq α] {set : Set α} {a b : α} :
    b ∈ set.erase a ↔ b ≠ a ∧ b ∈ set := by
  simp only [mem_iff_contains, contains, Map.contains, erase, Map.get?_erase]
  split <;> grind

theorem mem_ofList [DecidableEq α] {elements : List α} {a : α} :
    a ∈ ofList elements ↔ a ∈ elements := by
  have general : ∀ (elements : List α) (set : Set α),
      a ∈ elements.foldl insert set ↔ a ∈ elements ∨ a ∈ set := by
    intro elements
    induction elements with
    | nil => simp
    | cons head rest ih =>
      intro set
      rw [List.foldl_cons, ih, mem_insert, List.mem_cons]
      grind
  rw [ofList, general]
  exact or_iff_left (not_mem_empty a)

/-- Sets with the same members are the same set. -/
theorem ext_mem {a b : Set α} (same : ∀ x, x ∈ a ↔ x ∈ b) : a = b := by
  have entries : a.entries = b.entries := Map.ext_get? fun key => by
    have h := same key
    simp only [mem_iff_contains, contains, Map.contains] at h
    cases ha : a.entries.get? key <;> cases hb : b.entries.get? key <;> simp_all
  cases a
  cases b
  cases entries
  rfl

end Set

end SoftSimplex.Sorted
