import Mathlib.Combinatorics.Pigeonhole
import Mathlib.Data.Finset.Powerset
import SoftSimplex.Proofs.Tableau.Scope
import SoftSimplex.Tableau.Primal

/-!
Long sequences of pivots come back to a basis.

A path is a sequence of tableaus with the pivots between them. There are only so many bases, so a path
as long as `basisBound` meets one of them twice (`Path.exists_cycle`). On a cycle a column that is basic
at one place and not at another is fickle: it enters somewhere, and it leaves somewhere
(`Cycle.fickle_of_change`, `Cycle.exists_exit`). Both simplex methods end because the last fickle column
(`Cycle.exists_last`) could not have been chosen.
-/

namespace SoftSimplex.Tableau

variable {t : Tableau Rat} {entry exit c : Column} {row : Row Rat}

/-! ### Finitely many bases -/

theorem two_pow_card_scope_le (t : Tableau Rat) : 2 ^ t.scope.card ≤ t.basisBound := by
  have keys : t.rows.keys.toFinset.card ≤ t.rows.size := by
    refine (List.toFinset_card_le _).trans (le_of_eq ?_)
    rw [Sorted.Map.keys, List.length_map, Sorted.Map.size]
  have indexed : t.index.keys.toFinset.card ≤ t.index.size := by
    refine (List.toFinset_card_le _).trans (le_of_eq ?_)
    rw [Sorted.Map.keys, List.length_map, Sorted.Map.size]
  have union := Finset.card_union_le t.rows.keys.toFinset t.index.keys.toFinset
  refine Nat.pow_le_pow_right (by norm_num) ?_
  rw [scope]
  omega

/-- Tableaus with one basis and the same assignments that hold have the same basic solution and rays. -/
theorem WellFormed.extend_eq {t' : Tableau Rat} (wf : t.WellFormed) (wf' : t'.WellFormed)
    (same : ∀ c, (t.rows.get? c).isSome = (t'.rows.get? c).isSome)
    (holds : ∀ σ, t.Holds σ ↔ t'.Holds σ) (σ : Column → Rat) : t.extend σ = t'.extend σ := by
  refine ((holds _).1 (wf.holds_extend σ)).eq_extend wf' fun c absent => ?_
  refine extend_of_not_basic ?_ σ
  rw [← Option.not_isSome_iff_eq_none, same c, absent]
  simp

/-! ### Paths -/

/-- A sequence of tableaus, each a pivot after the one before; what awaits repair may be changed. -/
structure Path (f : ℕ → Tableau Rat) (entry exit : ℕ → Column) (n : ℕ) : Prop where
  start : (f 0).Exact
  turn : ∀ m < n, ∃ row rest, (f m).Pivotal (entry m) (exit m) row ∧
    f (m + 1) = ((f m).awaiting rest).pivoted (entry m) (exit m) row

/-- A sequence with one more element in front. -/
def preceded {α : Type} (first : α) (rest : ℕ → α) : ℕ → α
  | 0 => first
  | m + 1 => rest m

namespace Path

/-- A tableau is a path without turns. -/
theorem of_exact (exact : t.Exact) (entries exits : ℕ → Column) :
    Path (fun _ => t) entries exits 0 where
  start := exact
  turn m small := absurd small (Nat.not_lt_zero m)

/-- A turn before a path makes it longer by one. -/
theorem cons {f : ℕ → Tableau Rat} {entries exits : ℕ → Column} {n : ℕ} {rest : Sorted.Set Column}
    (path : Path f entries exits n) (exact : t.Exact) (pivotal : t.Pivotal entry exit row)
    (joined : f 0 = (t.awaiting rest).pivoted entry exit row) :
    Path (preceded t f) (preceded entry entries) (preceded exit exits) (n + 1) where
  start := exact
  turn m small := by
    cases m with
    | zero => exact ⟨row, rest, pivotal, joined⟩
    | succ m => exact path.turn m (Nat.lt_of_succ_lt_succ small)

variable {f : ℕ → Tableau Rat} {entry exit : ℕ → Column} {n m : ℕ} (path : Path f entry exit n)
include path

theorem exact (bound : m ≤ n) : (f m).Exact := by
  induction m with
  | zero => exact path.start
  | succ m ih =>
      obtain ⟨row, rest, pivotal, next⟩ := path.turn m bound
      rw [next]
      exact ((ih (Nat.le_of_succ_le bound)).awaiting rest).pivoted (pivotal.awaiting rest)

theorem holds (bound : m ≤ n) (σ : Column → Rat) : (f m).Holds σ ↔ (f 0).Holds σ := by
  induction m with
  | zero => rfl
  | succ m ih =>
      obtain ⟨row, rest, pivotal, next⟩ := path.turn m bound
      rw [next, ((path.exact (Nat.le_of_succ_le bound)).awaiting rest).holds_pivoted
        (pivotal.awaiting rest), ← ih (Nat.le_of_succ_le bound)]
      rfl

theorem scope_eq (bound : m ≤ n) : (f m).scope = (f 0).scope := by
  induction m with
  | zero => rfl
  | succ m ih =>
      obtain ⟨row, rest, pivotal, next⟩ := path.turn m bound
      rw [next, ((path.exact (Nat.le_of_succ_le bound)).awaiting rest).scope_pivoted
        (pivotal.awaiting rest), ← ih (Nat.le_of_succ_le bound)]
      rfl

theorem basic_succ (bound : m < n) (c : Column) :
    ((f (m + 1)).rows.get? c).isSome ↔
      c = entry m ∨ (c ≠ exit m ∧ ((f m).rows.get? c).isSome) := by
  obtain ⟨row, rest, -, next⟩ := path.turn m bound
  rw [next]
  exact ((path.exact bound.le).awaiting rest).basic_pivoted _ _ row c

theorem segment {i : ℕ} (bound : i + m ≤ n) :
    Path (fun k => f (i + k)) (fun k => entry (i + k)) (fun k => exit (i + k)) m where
  start := path.exact (by omega)
  turn k below := path.turn (i + k) (by omega)

/-- On a long path some basis comes twice. -/
theorem exists_same_basis (long : (f 0).basisBound ≤ n) :
    ∃ i j, i < j ∧ j ≤ n ∧
      ∀ c, ((f i).rows.get? c).isSome = ((f j).rows.get? c).isSome := by
  let basis : ℕ → Finset Column := fun m => (f m).rows.keys.toFinset
  have inside : ∀ m ∈ Finset.range (n + 1), basis m ∈ (f 0).scope.powerset := by
    intro m member
    rw [Finset.mem_powerset, ← path.scope_eq (Nat.lt_succ_iff.1 (Finset.mem_range.1 member))]
    exact Finset.subset_union_left
  have many : (f 0).scope.powerset.card < (Finset.range (n + 1)).card := by
    rw [Finset.card_powerset, Finset.card_range]
    exact Nat.lt_succ_of_le ((two_pow_card_scope_le _).trans long)
  obtain ⟨i, inI, j, inJ, different, same⟩ :=
    Finset.exists_ne_map_eq_of_card_lt_of_maps_to many inside
  have agree : ∀ c, ((f i).rows.get? c).isSome = ((f j).rows.get? c).isSome := by
    intro c
    rw [Bool.eq_iff_iff, ← Sorted.Map.mem_keys_iff, ← Sorted.Map.mem_keys_iff,
      ← List.mem_toFinset, ← List.mem_toFinset]
    exact iff_of_eq (congrArg (c ∈ ·) same)
  rw [Finset.mem_range, Nat.lt_succ_iff] at inI inJ
  rcases Nat.lt_or_gt_of_ne different with less | greater
  · exact ⟨i, j, less, inJ, agree⟩
  · exact ⟨j, i, greater, inI, fun c => (agree c).symm⟩

end Path

/-! ### Cycles -/

/-- A path that ends with the basis that it started with. -/
structure Cycle (f : ℕ → Tableau Rat) (entry exit : ℕ → Column) (n : ℕ) : Prop
    extends Path f entry exit n where
  positive : 0 < n
  closed : ∀ c, ((f 0).rows.get? c).isSome = ((f n).rows.get? c).isSome

/-- A long path has a part that is a cycle. -/
theorem Path.exists_cycle {f : ℕ → Tableau Rat} {entry exit : ℕ → Column} {n : ℕ}
    (path : Path f entry exit n) (long : (f 0).basisBound ≤ n) :
    ∃ i m, i + m ≤ n ∧
      Cycle (fun k => f (i + k)) (fun k => entry (i + k)) (fun k => exit (i + k)) m := by
  obtain ⟨i, j, less, bound, same⟩ := path.exists_same_basis long
  obtain ⟨m, rfl⟩ := Nat.exists_eq_add_of_lt less
  exact ⟨i, m + 1, by omega, path.segment (by omega), Nat.succ_pos m, same⟩

/-- Between a place where a property fails and a later one where it holds it comes to hold. -/
theorem exists_switch {P : ℕ → Prop} {a b : ℕ} (le : a ≤ b) (before : ¬P a) (after : P b) :
    ∃ m, m < b ∧ ¬P m ∧ P (m + 1) := by
  induction b, le using Nat.le_induction with
  | base => exact absurd after before
  | succ b _ ih =>
      by_cases holds : P b
      · obtain ⟨m, less, switch⟩ := ih holds
        exact ⟨m, less.trans (Nat.lt_succ_self b), switch⟩
      · exact ⟨b, Nat.lt_succ_self b, holds, after⟩

namespace Cycle

variable {f : ℕ → Tableau Rat} {entry exit : ℕ → Column} {n : ℕ}
  (cycle : Cycle f entry exit n)
include cycle

/-- A column that comes into the basis enters somewhere. -/
private theorem enters_between {a b : ℕ} (le : a ≤ b) (bound : b ≤ n)
    (outside : ¬((f a).rows.get? c).isSome) (inside : ((f b).rows.get? c).isSome) :
    ∃ m < n, entry m = c := by
  obtain ⟨m, less, before, after⟩ :=
    exists_switch (P := fun m => ((f m).rows.get? c).isSome = true) le outside inside
  have small : m < n := less.trans_le bound
  rcases (cycle.basic_succ small c).1 after with rfl | ⟨-, kept⟩
  · exact ⟨m, small, rfl⟩
  · exact absurd kept before

/-- A column that goes out of the basis leaves somewhere. -/
private theorem leaves_between {a b : ℕ} (le : a ≤ b) (bound : b ≤ n)
    (inside : ((f a).rows.get? c).isSome) (outside : ¬((f b).rows.get? c).isSome) :
    ∃ m < n, exit m = c := by
  obtain ⟨m, less, before, after⟩ :=
    exists_switch (P := fun m => ¬((f m).rows.get? c).isSome = true) le (not_not.2 inside) outside
  have small : m < n := less.trans_le bound
  rw [cycle.basic_succ small c, not_or, not_and_or] at after
  rcases after.2 with isExit | gone
  · exact ⟨m, small, (not_not.1 isExit).symm⟩
  · exact absurd gone before

/-- A column that is basic at one place and not at another enters somewhere. -/
theorem fickle_of_change {a b : ℕ} (boundA : a ≤ n) (boundB : b ≤ n)
    (inside : ((f a).rows.get? c).isSome) (outside : (f b).rows.get? c = none) :
    ∃ m < n, entry m = c := by
  have gone : ¬((f b).rows.get? c).isSome := by simp [outside]
  by_cases atStart : ((f 0).rows.get? c).isSome
  · exact cycle.enters_between boundB le_rfl gone (by rwa [← cycle.closed c])
  · exact cycle.enters_between (Nat.zero_le a) boundA atStart inside

/-- A column that enters leaves somewhere. -/
theorem exists_exit {m : ℕ} (bound : m < n) : ∃ k < n, exit k = entry m := by
  obtain ⟨row, rest, pivotal, -⟩ := cycle.turn m bound
  have before : ¬((f m).rows.get? (entry m)).isSome := by
    rw [(cycle.exact bound.le).entry_not_basic pivotal]
    simp
  have after : ((f (m + 1)).rows.get? (entry m)).isSome :=
    (cycle.basic_succ bound _).2 (.inl rfl)
  by_cases atStart : ((f 0).rows.get? (entry m)).isSome
  · exact cycle.leaves_between (Nat.zero_le m) bound.le atStart before
  · exact cycle.leaves_between bound le_rfl after (by rwa [← cycle.closed])

/-- A column that leaves enters somewhere. -/
theorem exists_entry {m : ℕ} (bound : m < n) : ∃ k < n, entry k = exit m := by
  obtain ⟨row, rest, pivotal, next⟩ := cycle.turn m bound
  refine cycle.fickle_of_change bound.le (Nat.succ_le_of_lt bound) pivotal.basic ?_
  rw [next]
  exact ((cycle.exact bound.le).awaiting rest).exit_not_basic_pivoted (pivotal.awaiting rest)

/-- One of the columns that enter is the last of them in the order of columns. -/
theorem exists_last : ∃ m < n, ∀ k < n, entry k = entry m ∨ compare (entry k) (entry m) = .lt := by
  have some_last (k : ℕ) (positive : 0 < k) :
      ∃ m < k, ∀ i < k, entry i = entry m ∨ compare (entry i) (entry m) = .lt := by
    induction k, positive using Nat.le_induction with
    | base => exact ⟨0, Nat.zero_lt_one, fun i small => .inl (by rw [Nat.lt_one_iff.1 small])⟩
    | succ k _ ih =>
        obtain ⟨m, below, last⟩ := ih
        cases order : compare (entry m) (entry k) with
        | lt =>
            refine ⟨k, Nat.lt_succ_self k, fun i small => ?_⟩
            rcases Nat.lt_succ_iff_lt_or_eq.1 small with less | rfl
            · rcases last i less with same | before
              · exact .inr (same ▸ order)
              · exact .inr (Std.TransCmp.lt_trans before order)
            · exact .inl rfl
        | eq =>
            refine ⟨m, below.trans (Nat.lt_succ_self k), fun i small => ?_⟩
            rcases Nat.lt_succ_iff_lt_or_eq.1 small with less | rfl
            · exact last i less
            · exact .inl (Std.LawfulEqCmp.eq_of_compare order).symm
        | gt =>
            refine ⟨m, below.trans (Nat.lt_succ_self k), fun i small => ?_⟩
            rcases Nat.lt_succ_iff_lt_or_eq.1 small with less | rfl
            · exact last i less
            · exact .inr (Std.OrientedCmp.lt_of_gt order)
  exact some_last n cycle.positive

end Cycle

end SoftSimplex.Tableau
