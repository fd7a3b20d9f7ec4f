/-!
Finite maps kept in the order of their keys.

A map is its list of entries, strictly increasing by key, and carries the proof. Two maps with the
same lookups are therefore the same map (`Map.ext_get?`), and a walk over `toList` meets the keys in
the order that every deterministic choice of the solver is made in. Each operation is pinned down by
what it does to lookups: `get?_insert`, `get?_erase`, `get?_filter`, `get?_map`.
-/

namespace SoftSimplex.Sorted

open Std

variable {α β γ : Type} [Ord α]

/-- Entries are in strictly increasing order of their keys. -/
abbrev Increasing (entries : List (α × β)) : Prop :=
  entries.Pairwise fun a b => compare a.1 b.1 = .lt

/-- A finite map from `α` to `β`, as its entries in increasing order of keys. -/
structure Map (α β : Type) [Ord α] where
  toList : List (α × β)
  increasing : Increasing toList

namespace Entries

/-- The value stored under a key; the search stops at the first larger key. -/
def get? (key : α) : List (α × β) → Option β
  | [] => none
  | (k, v) :: rest =>
    match compare key k with
    | .lt => none
    | .eq => some v
    | .gt => get? key rest

/-- Store a value under a key, in place of the one that was there. -/
def insert (key : α) (value : β) : List (α × β) → List (α × β)
  | [] => [(key, value)]
  | (k, v) :: rest =>
    match compare key k with
    | .lt => (key, value) :: (k, v) :: rest
    | .eq => (key, value) :: rest
    | .gt => (k, v) :: insert key value rest

/-- Drop the entry of a key. -/
def erase (key : α) : List (α × β) → List (α × β)
  | [] => []
  | (k, v) :: rest =>
    match compare key k with
    | .lt => (k, v) :: rest
    | .eq => rest
    | .gt => (k, v) :: erase key rest

theorem mem_insert {key : α} {value : β} {entry : α × β} {entries : List (α × β)}
    (member : entry ∈ insert key value entries) : entry = (key, value) ∨ entry ∈ entries := by
  induction entries with
  | nil => simpa [insert] using member
  | cons head rest ih =>
    obtain ⟨k, v⟩ := head
    simp only [insert] at member
    split at member <;> grind

theorem erase_sublist (key : α) (entries : List (α × β)) :
    (erase key entries).Sublist entries := by
  induction entries with
  | nil => exact .slnil
  | cons head rest ih =>
    obtain ⟨k, v⟩ := head
    simp only [erase]
    split
    · exact .refl _
    · exact List.sublist_cons_self _ _
    · exact ih.cons_cons _

theorem increasing_insert [TransOrd α] [LawfulEqOrd α] (key : α) (value : β)
    {entries : List (α × β)} (sorted : Increasing entries) :
    Increasing (insert key value entries) := by
  induction entries with
  | nil => simp [insert]
  | cons head rest ih =>
    obtain ⟨k, v⟩ := head
    obtain ⟨below, sortedRest⟩ := List.pairwise_cons.1 sorted
    simp only [insert]
    split
    · next h =>
      refine List.pairwise_cons.2 ⟨fun entry member => ?_, sorted⟩
      rcases List.mem_cons.1 member with rfl | member
      · exact h
      · exact TransCmp.lt_trans h (below entry member)
    · next h =>
      obtain rfl := LawfulEqCmp.eq_of_compare h
      exact List.pairwise_cons.2 ⟨below, sortedRest⟩
    · next h =>
      refine List.pairwise_cons.2 ⟨fun entry member => ?_, ih sortedRest⟩
      rcases mem_insert member with rfl | member
      · exact OrientedCmp.lt_of_gt h
      · exact below entry member

theorem increasing_erase (key : α) {entries : List (α × β)} (sorted : Increasing entries) :
    Increasing (erase key entries) :=
  sorted.sublist (erase_sublist key entries)

/-- A key below every stored key is not stored. -/
theorem get?_eq_none_of_lt [TransOrd α] {key : α} {entries : List (α × β)}
    (below : ∀ entry ∈ entries, compare key entry.1 = .lt) : get? key entries = none := by
  cases entries with
  | nil => rfl
  | cons head rest => simp [get?, below head (by simp)]

theorem mem_of_get? [LawfulEqOrd α] {key : α} {value : β} {entries : List (α × β)}
    (found : get? key entries = some value) : (key, value) ∈ entries := by
  induction entries with
  | nil => simp [get?] at found
  | cons head rest ih =>
    obtain ⟨k, v⟩ := head
    simp only [get?] at found
    split at found
    · simp at found
    · next h =>
      obtain rfl := LawfulEqCmp.eq_of_compare h
      simp_all
    · exact List.mem_cons_of_mem _ (ih found)

theorem get?_of_mem [TransOrd α] {key : α} {value : β} {entries : List (α × β)}
    (sorted : Increasing entries) (member : (key, value) ∈ entries) :
    get? key entries = some value := by
  induction entries with
  | nil => simp at member
  | cons head rest ih =>
    obtain ⟨k, v⟩ := head
    obtain ⟨below, sortedRest⟩ := List.pairwise_cons.1 sorted
    rcases List.mem_cons.1 member with same | member
    · cases same
      simp [get?, ReflCmp.compare_self]
    · have later := OrientedCmp.gt_of_lt (below _ member)
      simp only at later
      simp [get?, later, ih sortedRest member]

theorem get?_insert [TransOrd α] [LawfulEqOrd α] (key other : α) (value : β)
    (entries : List (α × β)) :
    get? other (insert key value entries) =
      if compare key other = .eq then some value else get? other entries := by
  induction entries with
  | nil =>
    simp only [insert, get?]
    cases h : compare other key <;>
      simp [@OrientedCmp.eq_swap _ compare _ key other, h]
  | cons head rest ih =>
    obtain ⟨k, v⟩ := head
    simp only [insert]
    split
    · next h =>
      simp only [get?]
      cases hk : compare other key with
      | lt =>
        have := TransCmp.lt_trans hk h
        simp [@OrientedCmp.eq_swap _ compare _ key other, hk, this]
      | eq => simp [@OrientedCmp.eq_swap _ compare _ key other, hk]
      | gt => simp [@OrientedCmp.eq_swap _ compare _ key other, hk]
    · next h =>
      obtain rfl := LawfulEqCmp.eq_of_compare h
      simp only [get?]
      cases hk : compare other key <;>
        simp [@OrientedCmp.eq_swap _ compare _ key other, hk]
    · next h =>
      simp only [get?, ih]
      split
      · next hk =>
        have : compare other key = .lt := TransCmp.lt_trans hk (OrientedCmp.lt_of_gt h)
        simp [@OrientedCmp.eq_swap _ compare _ key other, this]
      · next hk =>
        obtain rfl := LawfulEqCmp.eq_of_compare hk
        simp [h]
      · rfl

theorem get?_erase [TransOrd α] [LawfulEqOrd α] (key other : α) {entries : List (α × β)}
    (sorted : Increasing entries) :
    get? other (erase key entries) =
      if compare key other = .eq then none else get? other entries := by
  induction entries with
  | nil => simp [erase, get?]
  | cons head rest ih =>
    obtain ⟨k, v⟩ := head
    obtain ⟨below, sortedRest⟩ := List.pairwise_cons.1 sorted
    simp only [erase]
    split
    · next h =>
      split
      · next same =>
        obtain rfl := LawfulEqCmp.eq_of_compare same
        simp [get?, h]
      · rfl
    · next h =>
      obtain rfl := LawfulEqCmp.eq_of_compare h
      split
      · next same =>
        obtain rfl := LawfulEqCmp.eq_of_compare same
        exact get?_eq_none_of_lt fun entry member => below entry member
      · next differ =>
        simp only [get?]
        cases hk : compare other key with
        | lt =>
          exact get?_eq_none_of_lt fun entry member => TransCmp.lt_trans hk (below entry member)
        | eq => exact absurd (OrientedCmp.eq_comm.1 hk) differ
        | gt => rfl
    · next h =>
      simp only [get?, ih sortedRest]
      split
      · next hk => split <;> rfl
      · next hk =>
        obtain rfl := LawfulEqCmp.eq_of_compare hk
        simp [h]
      · rfl

end Entries

namespace Map

instance [DecidableEq α] [DecidableEq β] : DecidableEq (Map α β) := fun a b =>
  if h : a.toList = b.toList then
    isTrue (by cases a; cases b; cases h; rfl)
  else isFalse fun same => h (by rw [same])

/-- The map without entries. -/
def empty : Map α β := ⟨[], .nil⟩

instance : EmptyCollection (Map α β) := ⟨empty⟩
instance : Inhabited (Map α β) := ⟨empty⟩

/-- The value stored under a key. -/
def get? (map : Map α β) (key : α) : Option β := Entries.get? key map.toList

/-- Whether a key is stored. -/
def contains (map : Map α β) (key : α) : Bool := (map.get? key).isSome

/-- The stored keys, in increasing order. -/
def keys (map : Map α β) : List α := map.toList.map (·.1)

/-- The number of entries. -/
def size (map : Map α β) : Nat := map.toList.length

/-- Whether there is no entry. -/
def isEmpty (map : Map α β) : Bool := map.toList.isEmpty

/-- Drop the entry of a key, if there is one. -/
def erase (map : Map α β) (key : α) : Map α β :=
  ⟨Entries.erase key map.toList, Entries.increasing_erase key map.increasing⟩

/-- Keep the entries that pass a test. -/
def filter (keep : α → β → Bool) (map : Map α β) : Map α β :=
  ⟨map.toList.filter fun entry => keep entry.1 entry.2, map.increasing.filter _⟩

/-- Change every value, keeping its key. -/
def map (change : β → γ) (map : Map α β) : Map α γ :=
  ⟨map.toList.map fun entry => (entry.1, change entry.2),
    List.pairwise_map.2 map.increasing⟩

/-- Fold over the entries in increasing order of keys. -/
def foldl (step : γ → α → β → γ) (start : γ) (map : Map α β) : γ :=
  map.toList.foldl (fun acc entry => step acc entry.1 entry.2) start

@[simp] theorem get?_empty (key : α) : (∅ : Map α β).get? key = none := rfl

theorem contains_iff {map : Map α β} {key : α} :
    map.contains key = true ↔ ∃ value, map.get? key = some value := by
  simp [contains, Option.isSome_iff_exists]

variable [TransOrd α] [LawfulEqOrd α]

/-- Store a value under a key, in place of the one that was there. -/
def insert (map : Map α β) (key : α) (value : β) : Map α β :=
  ⟨Entries.insert key value map.toList, Entries.increasing_insert key value map.increasing⟩

/-- The map of a list of entries; of two entries with one key the later counts. -/
def ofList (entries : List (α × β)) : Map α β :=
  entries.foldl (fun map entry => map.insert entry.1 entry.2) empty

/-! ### Lookups -/

theorem get?_eq_some_iff {map : Map α β} {key : α} {value : β} :
    map.get? key = some value ↔ (key, value) ∈ map.toList :=
  ⟨Entries.mem_of_get?, Entries.get?_of_mem map.increasing⟩

theorem mem_keys_iff {map : Map α β} {key : α} : key ∈ map.keys ↔ (map.get? key).isSome := by
  simp [keys, Option.isSome_iff_exists, get?_eq_some_iff]

theorem get?_insert [DecidableEq α] (map : Map α β) (key other : α) (value : β) :
    (map.insert key value).get? other =
      if key = other then some value else map.get? other := by
  simp only [get?, insert, Entries.get?_insert, LawfulEqCmp.compare_eq_iff_eq]

@[simp] theorem get?_insert_self [DecidableEq α] (map : Map α β) (key : α) (value : β) :
    (map.insert key value).get? key = some value := by simp [get?_insert]

theorem get?_erase [DecidableEq α] (map : Map α β) (key other : α) :
    (map.erase key).get? other = if key = other then none else map.get? other := by
  simp only [get?, erase, Entries.get?_erase key other map.increasing,
    LawfulEqCmp.compare_eq_iff_eq]

@[simp] theorem get?_erase_self [DecidableEq α] (map : Map α β) (key : α) :
    (map.erase key).get? key = none := by simp [get?_erase]

theorem get?_filter (keep : α → β → Bool) (map : Map α β) (key : α) :
    (map.filter keep).get? key = (map.get? key).filter (keep key) := by
  apply Option.ext
  intro value
  rw [get?_eq_some_iff, Option.filter_eq_some_iff, get?_eq_some_iff]
  simp [filter]

theorem get?_map (change : β → γ) (map : Map α β) (key : α) :
    (map.map change).get? key = (map.get? key).map change := by
  apply Option.ext
  intro value
  rw [get?_eq_some_iff, Option.map_eq_some_iff]
  simp only [Map.map, List.mem_map, get?_eq_some_iff, Prod.mk.injEq]
  constructor
  · rintro ⟨⟨k, v⟩, member, rfl, rfl⟩
    exact ⟨v, member, rfl⟩
  · rintro ⟨v, member, rfl⟩
    exact ⟨(key, v), member, rfl, rfl⟩

/-- Maps with the same lookups are the same map. -/
theorem ext_get? {a b : Map α β} (same : ∀ key, a.get? key = b.get? key) : a = b := by
  have members : ∀ entry, entry ∈ a.toList ↔ entry ∈ b.toList := fun ⟨key, value⟩ => by
    rw [← get?_eq_some_iff, ← get?_eq_some_iff, same]
  have irreflexive : ∀ x y : α × β, compare x.1 y.1 = .lt → compare y.1 x.1 = .lt → x = y :=
    fun x y h h' => by
      rw [@OrientedCmp.eq_swap _ compare, h] at h'
      cases h'
  have distinct : ∀ c : Map α β, c.toList.Nodup := fun c =>
    c.increasing.imp fun {x y} h same => by
      subst same
      simp [ReflCmp.compare_self] at h
  have lists : a.toList = b.toList :=
    List.Perm.eq_of_pairwise (fun x y _ _ => irreflexive x y) a.increasing b.increasing
      ((List.perm_ext_iff_of_nodup (distinct a) (distinct b)).2 members)
  cases a
  cases b
  cases lists
  rfl

end Map

end SoftSimplex.Sorted
