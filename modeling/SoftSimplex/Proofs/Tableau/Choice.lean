import SoftSimplex.Proofs.Tableau.Cycle

/-!
First choices.

Both simplex methods and the removal of a marker take the first of the candidates with the least
ratio (`leastRatio?_spec`), from rows that the index names in the order of columns.
-/

namespace SoftSimplex

/-- A computation for each element of a list answers if it answers for every element. -/
theorem mapM_eq_ok {α β ε : Type} {f : α → Except ε β} {g : α → β} {l : List α}
    (each : ∀ a ∈ l, f a = .ok (g a)) : l.mapM f = .ok (l.map g) := by
  induction l with
  | nil => rfl
  | cons a rest ih =>
      rw [List.mapM_cons, each a (List.mem_cons_self ..),
        ih fun b member => each b (List.mem_cons_of_mem _ member)]
      rfl

namespace Tableau

variable {t : Tableau Rat} {column key : Column}

/-- One candidate is at least as good as another: its ratio is less, or it is the same and the first
candidate comes first. -/
def Precedes (a b : Column × Rat) : Prop :=
  a.2 ≤ b.2 ∧ (b.2 = a.2 → b.1 = a.1 ∨ compare a.1 b.1 = .lt)

/-- Candidates come in the order of columns. -/
abbrev InOrder (candidates : List (Column × Rat)) : Prop :=
  candidates.Pairwise fun a b => compare a.1 b.1 = .lt

private theorem foldl_least {best chosen : Column × Rat} {candidates : List (Column × Rat)}
    (ordered : InOrder (best :: candidates))
    (result : candidates.foldl
      (fun best candidate => if candidate.2 < best.2 then candidate else best) best = chosen) :
    chosen ∈ best :: candidates ∧ ∀ b ∈ best :: candidates, Precedes chosen b := by
  induction candidates generalizing best with
  | nil =>
      rw [List.foldl_nil] at result
      subst result
      simp [Precedes]
  | cons candidate rest ih =>
      obtain ⟨above, orderedRest⟩ := List.pairwise_cons.1 ordered
      rw [List.foldl_cons] at result
      split at result
      · next less =>
          obtain ⟨member, precedes⟩ := ih orderedRest result
          refine ⟨List.mem_cons_of_mem _ member, fun b inAll => ?_⟩
          rcases List.mem_cons.1 inAll with rfl | inRest
          · have lower := (precedes candidate (List.mem_cons_self ..)).1
            refine ⟨lower.trans less.le, fun same => ?_⟩
            rw [same] at less
            exact absurd less (not_lt.2 lower)
          · exact precedes b inRest
      · next notLess =>
          have orderedBest : InOrder (best :: rest) := List.pairwise_cons.2
            ⟨fun b inRest => above b (List.mem_cons_of_mem _ inRest),
              (List.pairwise_cons.1 orderedRest).2⟩
          obtain ⟨member, precedes⟩ := ih orderedBest result
          have first := precedes best (List.mem_cons_self ..)
          refine ⟨?_, fun b inAll => ?_⟩
          · rcases List.mem_cons.1 member with rfl | inRest
            · exact List.mem_cons_self ..
            · exact List.mem_cons_of_mem _ (List.mem_cons_of_mem _ inRest)
          · rcases List.mem_cons.1 inAll with rfl | inOthers
            · exact first
            · rcases List.mem_cons.1 inOthers with rfl | inRest
              · have atMost : chosen.2 ≤ best.2 := first.1
                refine ⟨atMost.trans (not_lt.1 notLess), fun same => .inr ?_⟩
                have equal : best.2 = chosen.2 :=
                  le_antisymm ((not_lt.1 notLess).trans same.le) atMost
                have after := above b (List.mem_cons_self ..)
                rcases first.2 equal with isBest | before
                · rw [← isBest]
                  exact after
                · exact Std.TransCmp.lt_trans before after
              · exact precedes b (List.mem_cons_of_mem _ inRest)

private theorem leastRatio?_cons (best : Column × Rat) (candidates : List (Column × Rat)) :
    leastRatio? (best :: candidates) = some (candidates.foldl
      (fun best candidate => if candidate.2 < best.2 then candidate else best) best) := by
  have fold (best : Column × Rat) :
      candidates.foldl
        (fun best candidate =>
          let better :=
            match best with
            | none => Scalar.belowInfinity candidate.2
            | some (_, least) => decide (candidate.2 < least)
          if better then some candidate else best) (some best) =
      some (candidates.foldl
        (fun best candidate => if candidate.2 < best.2 then candidate else best) best) := by
    induction candidates generalizing best with
    | nil => rfl
    | cons candidate rest ih =>
        rw [List.foldl_cons, List.foldl_cons, ← ih]
        by_cases less : candidate.2 < best.2 <;> simp [less]
  rw [leastRatio?, List.foldl_cons, ← fold best]
  congr 1
  funext best candidate
  cases best <;> rfl

/-- A least ratio is found unless there are no candidates. -/
theorem leastRatio?_eq_none {candidates : List (Column × Rat)} :
    leastRatio? candidates = none ↔ candidates = [] := by
  cases candidates with
  | nil => simp [leastRatio?]
  | cons best rest => simp [leastRatio?_cons]

/-- The candidate that is chosen precedes all others. -/
theorem leastRatio?_spec {candidates : List (Column × Rat)} {chosen : Column × Rat}
    (ordered : InOrder candidates) (result : leastRatio? candidates = some chosen) :
    chosen ∈ candidates ∧ ∀ b ∈ candidates, Precedes chosen b := by
  cases candidates with
  | nil => cases result
  | cons best rest =>
      rw [leastRatio?_cons] at result
      exact foldl_least ordered (Option.some.inj result)

/-! ### Rows that the index names -/

theorem ordered_rowsWith (t : Tableau Rat) (column : Column) :
    (t.rowsWith column).Pairwise fun a b => compare a b = .lt :=
  List.pairwise_map.2 (Sorted.Map.increasing _)

theorem rowsOf_eq {columns : List Column} (stored : ∀ c ∈ columns, (t.rows.get? c).isSome) :
    t.rowsOf columns =
      .ok (columns.filterMap fun c => (t.rows.get? c).map fun row => (c, row)) := by
  induction columns with
  | nil => rfl
  | cons c rest ih =>
      obtain ⟨row, found⟩ := Option.isSome_iff_exists.1 (stored c (List.mem_cons_self ..))
      have tail := ih fun b member => stored b (List.mem_cons_of_mem _ member)
      rw [rowsOf] at tail ⊢
      rw [List.mapM_cons, tail, List.filterMap_cons, found]
      rfl

/-- The rows that mention a column, restricted to some keys, in the order of keys. -/
def namedRows (t : Tableau Rat) (column : Column) (among : Column → Bool) :
    List (Column × Row Rat) :=
  ((t.rowsWith column).filter among).filterMap fun c => (t.rows.get? c).map fun row => (c, row)

theorem WellFormed.stored_of_named (wf : t.WellFormed) {among : Column → Bool} :
    ∀ c ∈ (t.rowsWith column).filter among, (t.rows.get? c).isSome := by
  intro c member
  obtain ⟨row, found, -⟩ :=
    mentions_iff.1 ((wf.listed c column).1 (mem_rowsWith.1 (List.mem_filter.1 member).1))
  rw [found]
  rfl

theorem WellFormed.mem_namedRows (wf : t.WellFormed) {among : Column → Bool} {row : Row Rat} :
    (key, row) ∈ t.namedRows column among ↔
      t.rows.get? key = some row ∧ row.terms.contains column = true ∧ among key = true := by
  simp only [namedRows, List.mem_filterMap, List.mem_filter, mem_rowsWith, Option.map_eq_some_iff,
    Prod.mk.injEq]
  constructor
  · rintro ⟨c, ⟨listed, inAmong⟩, row', found, rfl, rfl⟩
    rw [wf.listed, mentions_iff_contains found] at listed
    exact ⟨found, listed, inAmong⟩
  · rintro ⟨found, present, inAmong⟩
    exact ⟨key, ⟨(wf.listed key column).2 ((mentions_iff_contains found).2 present), inAmong⟩,
      row, found, rfl, rfl⟩

theorem ordered_namedRows (t : Tableau Rat) (column : Column) (among : Column → Bool) :
    (t.namedRows column among).Pairwise fun a b => compare a.1 b.1 = .lt := by
  refine List.Pairwise.filterMap _ (fun a a' before b first b' second => ?_)
    ((t.ordered_rowsWith column).filter among)
  obtain ⟨row, -, rfl⟩ := Option.map_eq_some_iff.1 first
  obtain ⟨row', -, rfl⟩ := Option.map_eq_some_iff.1 second
  exact before

/-- Candidates that are made of rows come in the order of their keys. -/
theorem inOrder_filterMap {rows : List (Column × Row Rat)}
    (ordered : rows.Pairwise fun a b => compare a.1 b.1 = .lt)
    (ratio? : Row Rat → Option Rat) :
    InOrder (rows.filterMap fun (key, row) => (ratio? row).map fun ratio => (key, ratio)) := by
  refine List.Pairwise.filterMap _ (fun a a' before b first b' second => ?_) ordered
  obtain ⟨ratio, -, rfl⟩ := Option.map_eq_some_iff.1 first
  obtain ⟨ratio', -, rfl⟩ := Option.map_eq_some_iff.1 second
  exact before

end Tableau

end SoftSimplex
