import SoftSimplex.Proofs.Tableau.Choice
import SoftSimplex.Proofs.Tableau.Shape
import SoftSimplex.Simplex.Remove

/-!
The row that leaves the basis for a marker.

A marker that some constraint's row mentions can always be made basic (`WellFormed.removalExit?_cases`). Three
rules pick the row that leaves (`Leaves`), and each of them keeps pivotable rows from becoming negative.
-/

namespace SoftSimplex.Tableau

variable {t : Tableau Rat} {marker exit key c : Column} {row other : Row Rat}

/-- The rule that picks the row that leaves the basis for a marker. -/
inductive Leaves (t : Tableau Rat) (marker exit : Column) (row : Row Rat) : Prop where
  /-- Among restricted rows that fall as the marker grows, the first to reach zero. -/
  | falling (restricted : exit.isRestricted = true) (negative : row.coefficient marker < 0)
      (least : ∀ key other, t.rows.get? key = some other → key.isRestricted = true →
        other.coefficient marker < 0 →
          -row.constant / row.coefficient marker ≤ -other.constant / other.coefficient marker)
  /-- If none falls, the first to reach zero as the marker shrinks. -/
  | rising (restricted : exit.isRestricted = true)
      (nonneg : ∀ key other, t.rows.get? key = some other → key.isRestricted = true →
        0 ≤ other.coefficient marker)
      (least : ∀ key other, t.rows.get? key = some other → key.isRestricted = true →
        other.coefficient marker ≠ 0 →
          row.constant / row.coefficient marker ≤ other.constant / other.coefficient marker)
  /-- If no restricted row mentions the marker, the first row of an unknown. -/
  | free (unmentioned : ∀ key, key.isRestricted = true → ¬t.Mentions key marker)

theorem markerRows_eq {keys : List Column} (each : ∀ c ∈ keys, t.Mentions c marker) :
    Simplex.markerRows t marker keys =
      .ok ((keys.filterMap fun c => (t.rows.get? c).map fun row => (c, row)).map
        fun (c, row) => (c, row.coefficient marker, row.constant)) := by
  induction keys with
  | nil => rfl
  | cons c rest ih =>
      obtain ⟨row, found, present⟩ := mentions_iff.1 (each c List.mem_cons_self)
      obtain ⟨k, term⟩ := Sorted.Map.contains_iff.1 present
      have tail := ih fun b member => each b (List.mem_cons_of_mem _ member)
      rw [Simplex.markerRows] at tail ⊢
      rw [List.mapM_cons, tail, List.filterMap_cons, found]
      simp only [term, Option.map_some, List.map_cons, Row.coefficient_of_get? term]
      rfl

section

variable (wf : t.WellFormed)
include wf

/-- The restricted rows that mention a marker. -/
theorem WellFormed.markerRows_eq (marker : Column) :
    Simplex.markerRows t marker
      (((t.rowsWith marker).filter fun row => !row.isObjective).filter Column.isRestricted) =
        .ok ((t.namedRows marker Column.isRestricted).map
          fun (c, row) => (c, row.coefficient marker, row.constant)) := by
  have same : ((t.rowsWith marker).filter fun row => !row.isObjective).filter
      Column.isRestricted = (t.rowsWith marker).filter Column.isRestricted := by
    rw [List.filter_filter]
    refine List.filter_congr fun c _ => ?_
    cases restricted : c.isRestricted with
    | false => rfl
    | true => rw [Column.not_objective_of_restricted restricted]; rfl
  rw [same, Tableau.markerRows_eq fun c member =>
    (wf.listed c marker).1 (mem_rowsWith.1 (List.mem_filter.1 member).1)]
  rfl

/-- The ratio at which a restricted row reaches zero as the marker grows. -/
def fallingRatio? (marker : Column) (row : Row Rat) : Option Rat :=
  if row.coefficient marker < 0 then some (-row.constant / row.coefficient marker) else none

/-- The ratio at which a row reaches zero as the marker shrinks. -/
def risingRatio? (marker : Column) (row : Row Rat) : Option Rat :=
  some (row.constant / row.coefficient marker)

/-- The candidates that some ratio of their rows belongs to. -/
def candidates (t : Tableau Rat) (marker : Column) (ratio? : Row Rat → Option Rat) :
    List (Column × Rat) :=
  (t.namedRows marker Column.isRestricted).filterMap fun (key, row) =>
    (ratio? row).map fun ratio => (key, ratio)

omit wf in
theorem inOrder_candidates (t : Tableau Rat) (marker : Column) (ratio? : Row Rat → Option Rat) :
    InOrder (t.candidates marker ratio?) :=
  inOrder_filterMap (t.ordered_namedRows _ _) _

theorem WellFormed.mem_candidates {ratio? : Row Rat → Option Rat} {ratio : Rat} :
    (key, ratio) ∈ t.candidates marker ratio? ↔ ∃ row, t.rows.get? key = some row ∧
      row.terms.contains marker = true ∧ key.isRestricted = true ∧ ratio? row = some ratio := by
  rw [candidates, List.mem_filterMap]
  constructor
  · rintro ⟨⟨c, row⟩, named, own⟩
    obtain ⟨r, chosen, same⟩ := Option.map_eq_some_iff.1 own
    obtain ⟨rfl, rfl⟩ := Prod.mk.inj same
    obtain ⟨found, present, restricted⟩ := wf.mem_namedRows.1 named
    exact ⟨row, found, present, restricted, chosen⟩
  · rintro ⟨row, found, present, restricted, chosen⟩
    exact ⟨(key, row), wf.mem_namedRows.2 ⟨found, present, restricted⟩, by simp [chosen]⟩

theorem WellFormed.removalExit?_eq (marker : Column) :
    Simplex.removalExit? t marker =
      match leastRatio? (t.candidates marker (fallingRatio? marker)) with
      | some (exit, _) => .ok (some exit)
      | none =>
        match leastRatio? (t.candidates marker (risingRatio? marker)) with
        | some (exit, _) => .ok (some exit)
        | none => .ok ((t.rowsWith marker).filter fun row => !row.isObjective).head? := by
  have falling : (((t.namedRows marker Column.isRestricted).map
      fun x => (x.1, x.2.coefficient marker, x.2.constant)).filterMap
        fun x => if x.2.1 < 0 then some (x.1, -x.2.2 / x.2.1) else none) =
      t.candidates marker (fallingRatio? marker) := by
    rw [candidates, List.filterMap_map]
    refine List.filterMap_congr fun entry _ => ?_
    dsimp only [Function.comp_apply, fallingRatio?]
    split <;> rfl
  have kept : ((t.candidates marker (fallingRatio? marker)).mapM (m := Except (Fault Rat))
      fun x => return (x.1, ← Step.checked x.2)) =
        .ok ((t.candidates marker (fallingRatio? marker)).map id) := mapM_eq_ok fun _ _ => rfl
  have answered {α β : Type} (a : α) (next : α → Except (Fault Rat) β) :
      (Except.ok a >>= next) = next a := rfl
  rw [List.map_id] at kept
  unfold Simplex.removalExit?
  simp only [wf.markerRows_eq, answered, falling, kept]
  cases leastRatio? (t.candidates marker (fallingRatio? marker)) with
  | some chosen => rfl
  | none =>
      dsimp only
      rw [mapM_eq_ok (g := fun x => (x.1, x.2.2 / x.2.1)), List.map_map]
      · have rising : ((t.namedRows marker Column.isRestricted).map
            ((fun x => (x.1, x.2.2 / x.2.1)) ∘
              fun x => (x.1, x.2.coefficient marker, x.2.constant))) =
            t.candidates marker (risingRatio? marker) := by
          rw [candidates, ← List.filterMap_eq_map]
          rfl
        rw [answered, rising]
        cases leastRatio? (t.candidates marker (risingRatio? marker)) <;> rfl
      · rintro entry member
        obtain ⟨⟨key, row⟩, named, rfl⟩ := List.mem_map.1 member
        obtain ⟨found, present, -⟩ := wf.mem_namedRows.1 named
        dsimp only
        rw [Scalar.quotient?_of_ne_zero (wf.coefficient_ne_zero found present)]
        rfl

/-- If some restricted row falls as the marker grows, the first of them to reach zero leaves. -/
theorem WellFormed.leaves_of_falling {ratio : Rat}
    (chosen : leastRatio? (t.candidates marker (fallingRatio? marker)) = some (exit, ratio)) :
    ∃ row, t.Pivotal marker exit row ∧ t.Leaves marker exit row := by
  obtain ⟨member, precedes⟩ := leastRatio?_spec (t.inOrder_candidates _ _) chosen
  obtain ⟨row, found, present, restricted, own⟩ := wf.mem_candidates.1 member
  have negative : row.coefficient marker < 0 := by
    by_contra notBelow
    rw [fallingRatio?, if_neg notBelow] at own
    cases own
  rw [fallingRatio?, if_pos negative, Option.some.injEq] at own
  refine ⟨row, ⟨found, present, Column.not_objective_of_restricted restricted⟩,
    .falling restricted negative ?_⟩
  intro key other found' restricted' negative'
  have before := precedes (key, -other.constant / other.coefficient marker)
    (wf.mem_candidates.2 ⟨other, found', Row.contains_of_coefficient negative'.ne,
      restricted', if_pos negative'⟩)
  rw [own]
  exact before.1

theorem WellFormed.nonneg_of_none_falling
    (none : leastRatio? (t.candidates marker (fallingRatio? marker)) = none)
    (found : t.rows.get? key = some other) (restricted : key.isRestricted = true) :
    0 ≤ other.coefficient marker := by
  by_contra below
  have negative := not_le.1 below
  have member : (key, -other.constant / other.coefficient marker) ∈
      t.candidates marker (fallingRatio? marker) :=
    wf.mem_candidates.2 ⟨other, found, Row.contains_of_coefficient negative.ne, restricted,
      if_pos negative⟩
  rw [leastRatio?_eq_none.1 none] at member
  cases member

/-- If no restricted row falls as the marker grows, the first to reach zero as it shrinks leaves. -/
theorem WellFormed.leaves_of_rising {ratio : Rat}
    (nonneg : ∀ key other, t.rows.get? key = some other → key.isRestricted = true →
      0 ≤ other.coefficient marker)
    (chosen : leastRatio? (t.candidates marker (risingRatio? marker)) = some (exit, ratio)) :
    ∃ row, t.Pivotal marker exit row ∧ t.Leaves marker exit row := by
  obtain ⟨member, precedes⟩ := leastRatio?_spec (t.inOrder_candidates _ _) chosen
  obtain ⟨row, found, present, restricted, own⟩ := wf.mem_candidates.1 member
  refine ⟨row, ⟨found, present, Column.not_objective_of_restricted restricted⟩,
    .rising restricted nonneg ?_⟩
  intro key other found' restricted' nonzero'
  have before := precedes (key, other.constant / other.coefficient marker)
    (wf.mem_candidates.2 ⟨other, found', Row.contains_of_coefficient nonzero', restricted', rfl⟩)
  rw [Option.some.inj own]
  exact before.1

theorem WellFormed.not_mentions_of_none_rising
    (none : leastRatio? (t.candidates marker (risingRatio? marker)) = none)
    (restricted : key.isRestricted = true) : ¬t.Mentions key marker := by
  intro mentioned
  obtain ⟨row, found, present⟩ := mentions_iff.1 mentioned
  have member : (key, row.constant / row.coefficient marker) ∈
      t.candidates marker (risingRatio? marker) :=
    wf.mem_candidates.2 ⟨row, found, present, restricted, rfl⟩
  rw [leastRatio?_eq_none.1 none] at member
  cases member

/-- A marker leaves its column only if no row but that of an objective mentions it. -/
theorem WellFormed.removalExit?_cases (marker : Column) :
    (Simplex.removalExit? t marker = .ok none ∧
      ∀ key, key.isObjective = false → ¬t.Mentions key marker) ∨
    ∃ exit row, Simplex.removalExit? t marker = .ok (some exit) ∧ t.Pivotal marker exit row ∧
      t.Leaves marker exit row := by
  rw [wf.removalExit?_eq]
  cases falling : leastRatio? (t.candidates marker (fallingRatio? marker)) with
  | some chosen =>
      obtain ⟨row, pivotal, leaves⟩ := wf.leaves_of_falling falling
      exact .inr ⟨chosen.1, row, rfl, pivotal, leaves⟩
  | none =>
      have nonneg (key : Column) (other : Row Rat) (found : t.rows.get? key = some other)
          (restricted : key.isRestricted = true) : 0 ≤ other.coefficient marker :=
        wf.nonneg_of_none_falling falling found restricted
      cases rising : leastRatio? (t.candidates marker (risingRatio? marker)) with
      | some chosen =>
          obtain ⟨row, pivotal, leaves⟩ := wf.leaves_of_rising nonneg rising
          exact .inr ⟨chosen.1, row, rfl, pivotal, leaves⟩
      | none =>
          dsimp only
          cases first : ((t.rowsWith marker).filter fun row => !row.isObjective).head? with
          | none =>
              refine .inl ⟨rfl, fun key other mentioned => ?_⟩
              have member : key ∈ (t.rowsWith marker).filter fun row => !row.isObjective :=
                List.mem_filter.2 ⟨mem_rowsWith.2 ((wf.listed key marker).2 mentioned),
                  by rw [other]; rfl⟩
              rw [List.head?_eq_none_iff.1 first] at member
              cases member
          | some exit =>
              obtain ⟨listed, plain⟩ := List.mem_filter.1 (List.mem_of_mem_head? first)
              obtain ⟨row, found, present⟩ :=
                mentions_iff.1 ((wf.listed exit marker).1 (mem_rowsWith.1 listed))
              exact .inr ⟨exit, row, rfl, ⟨found, present, by simpa using plain⟩,
                .free fun key => wf.not_mentions_of_none_rising rising⟩

end

end SoftSimplex.Tableau
