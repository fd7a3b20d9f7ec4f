import SoftSimplex.Proofs.Simplex.Moving

/-!
What it is worth to miss a required constraint.

An assignment that misses a required constraint meets it once its target is moved, and moving the target
moves the objective by no more than its coefficient for the column of the constraint
(`Represents.exists_worth`). So missing the constraint saves penalties at a limited rate.
-/

namespace SoftSimplex

variable {posed : List Posed} {p : Posed} {x : Variable → Rat} {σ : Column → Rat} {m : Markers Rat}
  {comparator : Comparator}

/-- The column of a required constraint enters its row with one or minus one. -/
theorem Markers.Fits.exists_term (fits : m.Fits .required comparator) (free : m.weight = none) :
    ∃ k, (m.main, k) ∈ m.terms ∧ k * k = 1 := by
  cases fits with
  | equation isDummy => exact ⟨1, by simp [terms_same], by norm_num⟩
  | bound unequal isSlack => exact ⟨-1, by simp [terms_single], by norm_num⟩
  | wishedEquation _ _ _ => cases free
  | wishedBound _ _ _ _ => cases free
  | side lenient _ _ _ => exact absurd rfl lenient
  | turnedSide lenient _ _ _ => exact absurd rfl lenient

/-- A constraint is met once its target is moved by what is missing. -/
theorem Posed.exists_met_moved (p : Posed) (x : Variable → Rat) : ∃ δ, |δ| = p.shortfall x ∧
    (p.moved (alone p.constraint.tag δ)).Met x := by
  simp only [Posed.Met, Posed.gap_moved, alone_self, Posed.shortfall]
  show ∃ δ, _ ∧ Row.Admits p.constraint.comparator (p.gap x + δ)
  cases p.constraint.comparator with
  | eq => exact ⟨-p.gap x, abs_neg _, add_neg_cancel _⟩
  | le => exact ⟨max 0 (-p.gap x), abs_of_nonneg (le_max_left _ _), by
      have := le_max_right 0 (-p.gap x)
      show (0 : Rat) ≤ _
      linarith⟩
  | ge => exact ⟨max 0 (-p.gap x), abs_of_nonneg (le_max_left _ _), by
      have := le_max_right 0 (-p.gap x)
      show (0 : Rat) ≤ _
      linarith⟩

/-- A column of a constraint without weight costs nothing. -/
theorem Family.costs_update_of_free (family : Family posed) (member : p ∈ posed)
    (free : p.markers.weight = none) {c : Column} (own : c ∈ p.columns) (value : Rat)
    (σ : Column → Rat) : costs posed (Function.update σ c value) = costs posed σ := by
  have others : costs (SoftSimplex.withoutTag posed p.constraint.tag) (Function.update σ c value) =
      costs (SoftSimplex.withoutTag posed p.constraint.tag) σ := by
    refine (family.withoutTag _).costs_congr fun q inRest d inQ => Function.update_of_ne ?_ _ _
    rintro rfl
    obtain ⟨inside, different⟩ := mem_withoutTag.1 inRest
    exact family.not_mem_columns member own inside different inQ
  have nothing (τ : Column → Rat) : p.cost τ = 0 := by
    rw [Posed.cost, free]
    exact zero_mul _
  rw [family.costs_eq_add member, family.costs_eq_add member, nothing, nothing, others]

/-- What a constraint without weight misses is no part of the penalties. -/
theorem Family.penalties_moved_of_free (family : Family posed) (member : p ∈ posed)
    (free : p.markers.weight = none) (δ : Rat) (x : Variable → Rat) :
    penalties (SoftSimplex.moved (alone p.constraint.tag δ) posed) x = penalties posed x := by
  rw [penalties, penalties, SoftSimplex.moved, List.map_map]
  refine congrArg List.sum (List.map_congr_left fun q inside => ?_)
  rw [Function.comp_apply]
  by_cases tagged : q.constraint.tag = p.constraint.tag
  · obtain rfl := family.eq_of_tag inside member tagged
    simp [Posed.penalty, Posed.moved, free]
  · rw [Posed.moved_of_zero (alone_of_ne tagged δ)]

/-- Where a constraint is met once its target is moved, and the other required ones are met, the whole
family is, once that target is moved. -/
theorem Family.meetsRequired_moved (family : Family posed) (member : p ∈ posed) {δ : Rat}
    (met : (p.moved (alone p.constraint.tag δ)).Met x)
    (others : ∀ q ∈ posed, q ≠ p → q.markers.weight = none → q.Met x) :
    MeetsRequired (SoftSimplex.moved (alone p.constraint.tag δ) posed) x := by
  intro q' inside required
  obtain ⟨q, inPosed, rfl⟩ := mem_moved.1 inside
  by_cases tagged : q.constraint.tag = p.constraint.tag
  · obtain rfl := family.eq_of_tag inPosed member tagged
    exact met
  · rw [Posed.moved_of_zero (alone_of_ne tagged δ)] at required ⊢
    refine others q inPosed ?_ required
    rintro rfl
    exact tagged rfl

namespace Tableau

variable {t : Tableau Rat} {k : Rat}

/-- Missing a required constraint saves no more of the penalties than what is missing, times a number that
belongs to the tableau. -/
theorem Represents.exists_worth (family : Family posed) (weighted : Weighted posed)
    (represents : t.Represents posed fun σ => k + costs posed σ) (shaped : t.Shaped)
    (optimized : t.Optimized) (member : p ∈ posed) (required : p.constraint.priority = .required)
    (free : p.markers.weight = none) : ∃ worth, 0 ≤ worth ∧ ∀ x,
      (∀ q ∈ posed, q ≠ p → q.markers.weight = none → q.Met x) →
        penalties posed (onVariables t.basicSolution) ≤ penalties posed x + worth * p.shortfall x := by
  obtain ⟨goal, found⟩ := Option.isSome_iff_exists.1 represents.stored
  have fits := family.fits p member
  rw [Posed.Fits, required] at fits
  obtain ⟨unit, own, square⟩ := fits.exists_term free
  have column : p.markers.main ∈ p.columns := p.markers.main_mem_columns
  refine ⟨|goal.coefficient p.markers.main|, abs_nonneg _, fun x others => ?_⟩
  obtain ⟨δ, missing, met⟩ := p.exists_met_moved x
  obtain ⟨equations, costs_eq⟩ :=
    (family.moved _).completed (family.meetsRequired_moved member met others)
  generalize completed : completion (moved (alone p.constraint.tag δ) posed) x = σ at equations costs_eq
  have admissible : Admissible σ := completed ▸ Family.admissible_completion _ x
  rw [costs_moved, family.penalties_moved_of_free member free] at costs_eq
  -- Moved back, the column of the constraint takes up what is missing.
  let τ := Function.update σ p.markers.main (σ p.markers.main + unit * δ)
  have equations' : ∀ q ∈ posed, q.Equation τ := fun q inside => by
    rw [family.equation_update member own (unit * δ) inside σ, ← mul_assoc, square, one_mul]
    exact equations _ (mem_moved.2 ⟨q, inside, rfl⟩)
  have holds := represents.holds_withObjectiveOf family equations' .objective goal found
  have value : withObjectiveOf (fun σ => k + costs posed σ) τ .objective = k + penalties posed x := by
    rw [withObjectiveOf, Function.update_self, family.costs_update_of_free member free column, costs_eq]
  have seen : goal.eval (withObjectiveOf (fun σ => k + costs posed σ) τ) = goal.eval τ := by
    refine Row.eval_congr fun c mentions => withObjectiveOf_of_plain ?_
    exact represents.noObjective _ c (mentions_of_coefficient found mentions)
  rw [value, seen, Row.eval_update_assignment, add_sub_cancel_left] at holds
  have least := represents.constant_le_eval found (optimized goal found) (fun c external =>
    mul_eq_zero_of_left (represents.coefficient_external family weighted shaped.steady found external) _)
    admissible.nonneg fun c dummy _ => admissible.zero c dummy
  have lower := represents.penalties_le_constant family weighted shaped found
  have saved : -(|goal.coefficient p.markers.main| * p.shortfall x) ≤
      goal.coefficient p.markers.main * (unit * δ) := by
    have one : |unit| = 1 := by
      have squared : |unit| * |unit| = 1 := by rw [← abs_mul, square, abs_one]
      nlinarith [abs_nonneg unit]
    have bound := neg_abs_le (goal.coefficient p.markers.main * (unit * δ))
    rwa [abs_mul, abs_mul, one, one_mul, missing] at bound
  linarith

end Tableau

end SoftSimplex
