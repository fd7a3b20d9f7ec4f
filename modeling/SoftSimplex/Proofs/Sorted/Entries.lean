import Mathlib.Data.List.Nodup
import SoftSimplex.Sorted.Set

/-!
Entries of sorted maps as lists: lookups from the front, and keys that occur once.
-/

namespace SoftSimplex.Sorted

open Std

variable {α β : Type} [Ord α] [TransOrd α] [LawfulEqOrd α]

/-- A lookup in sorted entries, from the front. -/
theorem Entries.get?_cons [DecidableEq α] {key : α} {value : β} {rest : List (α × β)}
    (sorted : Increasing ((key, value) :: rest)) (other : α) :
    Entries.get? other ((key, value) :: rest) =
      if other = key then some value else Entries.get? other rest := by
  obtain ⟨below, -⟩ := List.pairwise_cons.1 sorted
  by_cases same : other = key
  · subst same
    simp [Entries.get?, ReflCmp.compare_self]
  · rw [if_neg same, Entries.get?]
    cases order : compare other key with
    | lt =>
        refine (Entries.get?_eq_none_of_lt fun entry member => ?_).symm
        exact TransCmp.lt_trans order (below entry member)
    | eq => exact absurd (LawfulEqCmp.eq_of_compare order) same
    | gt => rfl

namespace Map

theorem mem_keys_iff_contains {map : Map α β} {key : α} :
    key ∈ map.keys ↔ map.contains key = true := by
  rw [mem_keys_iff, contains]

omit [TransOrd α] in
theorem nodup_keys (map : Map α β) : map.keys.Nodup := by
  refine List.pairwise_map.2 (map.increasing.imp fun {a b} below same => ?_)
  have equal : compare a.1 b.1 = .eq := LawfulEqCmp.compare_eq_iff_eq.2 same
  rw [equal] at below
  cases below

end Map

end SoftSimplex.Sorted
