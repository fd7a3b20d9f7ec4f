import SoftSimplex.Proofs.Step.Leading
import SoftSimplex.Proofs.Tableau.Change
import SoftSimplex.Proofs.Tableau.Repair

/-!
What the simplex methods do to any tableau.

Both methods change a sound tableau by exchanges, whatever the tolerance and however they end
(`Sound.leads_minimize`, `Sound.leads_repair`): a pivotable column enters in the row of a restricted one
(`Exchange`). Where an objective is paid in columns that may not become negative, at costs that are not
negative, no column lowers it without bound (`Bounded`), and no pivot changes that (`Changes.bounded`).
-/

namespace SoftSimplex

/-- A row charges for pivotable columns only, and pays for none. -/
def Row.Charging (bill : Row Rat) : Prop :=
  ∀ c, bill.coefficient c ≠ 0 → c.isPivotable = true ∧ 0 ≤ bill.coefficient c

namespace Tableau

variable {t t' : Tableau Rat} {free moving : Set Column} {objective entry exit key : Column}
  {goal row bill : Row Rat} {rounds : ℕ}

/-- Without tolerance, an objective is what a row charges for columns that may not become negative. -/
def Bounded (t : Tableau Rat) (objective : Column) : Prop :=
  t.tolerance = some 0 ∧ ∃ bill, t.Billed objective bill ∧ bill.Charging

/-- Pivots do not change what an objective is charged for. -/
theorem Changes.bounded (changes : Changes ∅ moving t t') (start : t.Sound)
    (bounded : t.Bounded objective) : t'.Bounded objective := by
  obtain ⟨exact, bill, billed, charging⟩ := bounded
  obtain ⟨k, billed'⟩ := changes.billed start exact billed (Set.notMem_empty _)
    fun c _ => Set.notMem_empty c
  exact ⟨(changes.tolerance_eq start).trans exact, _, billed', charging⟩

/-- A column that lowers a bounded objective is bounded by some row: along the ray on which it grows no
charge falls. -/
theorem Bounded.not_unbounded (bounded : t.Bounded objective) (wf : t.WellFormed)
    (found : t.rows.get? objective = some goal) (negative : goal.coefficient entry < 0) :
    ¬t.Unbounded entry := by
  intro unbounded
  obtain ⟨-, bill, billed, charging⟩ := bounded
  have outside : t.rows.get? entry = none :=
    wf.not_basic (mentions_of_coefficient found negative.ne)
  have grows : ∀ c, c.isPivotable = true → t.ray entry 0 c ≤ t.ray entry 1 c := by
    intro c pivotable
    cases inside : t.rows.get? c with
    | some row =>
        rw [ray_of_basic inside, ray_of_basic inside]
        have := unbounded c row inside pivotable
        linarith
    | none =>
        by_cases own : c = entry
        · rw [own, ray_self outside, ray_self outside]
          exact zero_le_one
        · rw [ray_of_not_basic inside own, ray_of_not_basic inside own]
  have charges : bill.eval (t.ray entry 0) ≤ bill.eval (t.ray entry 1) := by
    refine Row.eval_le_eval fun c => ?_
    by_cases zero : bill.coefficient c = 0
    · rw [zero, zero_mul, zero_mul]
    · obtain ⟨pivotable, nonneg⟩ := charging c zero
      exact mul_le_mul_of_nonneg_left (grows c pivotable) nonneg
  have before := billed _ (wf.holds_ray entry 0)
  have after := billed _ (wf.holds_ray entry 1)
  rw [ray_of_basic found] at before after
  linarith

/-- A bounded objective does not fall below what its bill charges without regard to columns. -/
theorem Bounded.exists_least (bounded : t.Bounded objective) : ∃ least, ∀ σ, t.Holds σ →
    (∀ c, c.isPivotable = true → 0 ≤ σ c) → least ≤ σ objective := by
  obtain ⟨-, bill, billed, charging⟩ := bounded
  refine ⟨bill.constant, fun σ holds nonneg => ?_⟩
  rw [billed σ holds]
  refine Row.constant_le_eval fun c => ?_
  by_cases free : bill.coefficient c = 0
  · rw [free, zero_mul]
  · obtain ⟨pivotable, charged⟩ := charging c free
    exact mul_nonneg charged (nonneg c pivotable)

/-! ### Exchanges -/

/-- One exchange of a simplex method: fewer rows await repair, or a pivotable column enters in the row of a
restricted one. -/
inductive Exchange (t : Tableau Rat) : Tableau Rat → Prop where
  | awaiting {rest : Sorted.Set Column} (fewer : ∀ key ∈ rest, key ∈ t.infeasible) :
      Exchange t (t.awaiting rest)
  | turned {entry exit : Column} {row : Row Rat} (pivotal : t.Pivotal entry exit row)
      (enters : entry.isPivotable = true) (leaves : exit.isRestricted = true) :
      Exchange t (t.pivoted entry exit row)

/-- Any number of exchanges. -/
abbrev Exchanges : Tableau Rat → Tableau Rat → Prop := Relation.ReflTransGen Exchange

theorem Exchange.change (exchange : t.Exchange t') : Change free moving t t' := by
  cases exchange with
  | awaiting fewer => exact .awaiting fewer
  | turned pivotal _ _ => exact .pivoted pivotal

theorem Exchanges.changes (exchanges : t.Exchanges t') : Changes free moving t t' :=
  Relation.ReflTransGen.mono (fun _ _ => Exchange.change) _ _ exchanges

/-! ### The primal method -/

theorem Sound.leads_minimizeWithin (sound : t.Sound) (objective : Column) (rounds : ℕ) :
    (minimizeWithin objective rounds).Leads Exchanges
      (fun fault => t.Bounded objective → fault ≠ .unbounded) t := by
  induction rounds generalizing t with
  | zero => exact .of_error (Step.run_failStep _ _) .refl fun _ => nofun
  | succ rounds ih =>
      refine .congr (Step.run_bind_get _ t) ?_
      cases found : t.rows.get? objective with
      | none => exact .of_ok (Step.run_return _ _) .refl
      | some goal =>
          obtain ⟨e, tolerance, nonneg⟩ := sound.tolerant
          rcases entering?_cases tolerance nonneg goal with
            ⟨entering, -⟩ | ⟨entry, entering, pivotable, below, -⟩
          · simp only [entering]
            exact .of_ok (Step.run_bind_ofExcept_ok _ _ _) .refl
          · have negative : goal.coefficient entry < 0 :=
              below.trans_le (neg_nonpos.2 nonneg)
            simp only [entering]
            refine .congr (Step.run_bind_ofExcept_ok _ _ _) ?_
            rcases sound.leaving?_cases entry with ⟨leaving, unbounded⟩ | ⟨exit, row, leaving, bounds⟩
            · simp only [leaving]
              refine .congr ((Step.run_bind_ofExcept_ok _ _ _).trans
                (Step.run_bind_of_ok (run_snapshot _ _))) ?_
              exact .of_error (Step.run_failStep _ _) .refl fun bounded =>
                absurd unbounded (bounded.not_unbounded sound.toWellFormed found negative)
            · simp only [leaving]
              refine .congr ((Step.run_bind_ofExcept_ok _ _ _).trans
                (Step.run_bind_report _ _ _)) ?_
              have turned : t.Exchanges (t.pivoted entry exit row) := .single (.turned bounds.pivotal
                pivotable (Column.restricted_of_pivotable bounds.pivotable))
              have changes : Changes ∅ ∅ t (t.pivoted entry exit row) := turned.changes
              refine .bind_of_ok (sound.run_pivot bounds.pivotal) turned ?_
              exact (ih (sound.pivoted bounds.pivotal)).mono (fun _ => id) fun fault unlike bounded =>
                unlike (changes.bounded sound bounded)

/-- The primal method makes exchanges, and it finds no column that lowers a bounded objective without
bound. -/
theorem Sound.leads_minimize (sound : t.Sound) (objective : Column) :
    (minimize objective).Leads Exchanges
      (fun fault => t.Bounded objective → fault ≠ .unbounded) t :=
  .congr (Step.run_bind_get _ t) (sound.leads_minimizeWithin objective _)

/-! ### The dual method -/

theorem Sound.leads_repairWithin (sound : t.Sound) (objective : Column) (rounds : ℕ) :
    (repairWithin objective rounds).Leads Exchanges (· ≠ .unbounded) t := by
  induction rounds generalizing t with
  | zero => exact .of_error (Step.run_failStep _ _) .refl nofun
  | succ rounds ih =>
      rcases t.nextViolated_cases with ⟨rest, next, fewer⟩ | ⟨exit, rest, next, waits, fewer⟩
      · exact .of_ok (run_repairWithin_of_none next) (.single (.awaiting fewer))
      · obtain ⟨e, tolerance, nonneg⟩ := sound.tolerant
        have sound' := sound.awaiting fewer
        have dropped : t.Exchanges (t.awaiting rest) := .single (.awaiting fewer)
        have tolerant : (t.awaiting rest).tolerance = some e := tolerance
        obtain ⟨row, found⟩ := Option.isSome_iff_exists.1 (sound.present exit waits)
        refine .congr (Step.run_bind_get _ t) ?_
        simp only [next]
        refine .bind_of_ok (Step.run_set _ _) dropped ?_
        simp only [tolerant, rows_awaiting, found, Option.isNone_some, Bool.false_eq_true, if_false]
        refine .congr ((Step.run_bind_return _ _ _).trans
          (Step.run_bind_ofOption_some (.missing exit) _ _ _)) ?_
        cases stored : t.rows.get? objective with
        | none =>
            exact .of_error (Step.run_bind_of_error
              (Step.run_ofOption_none (.missing objective) _)) .refl nofun
        | some goal =>
            refine .congr (Step.run_bind_ofOption_some (.missing objective) _ _ _) ?_
            obtain ⟨costs, computed, ⟨least, -⟩ | ⟨entry, cost, least, pivotable, above, -⟩⟩ :=
              entryCosts_cases tolerant nonneg goal row
            · simp only [computed]
              refine .congr (Step.run_bind_ofExcept_ok _ _ _) ?_
              simp only [least]
              exact .of_error (Step.run_bind_of_ok (run_snapshot _ _)) .refl nofun
            · simp only [computed]
              refine .congr (Step.run_bind_ofExcept_ok _ _ _) ?_
              have restricted := sound.recorded exit waits
              have pivotal : (t.awaiting rest).Pivotal entry exit row :=
                ⟨found, Row.contains_of_coefficient (nonneg.trans_lt above).ne',
                  Column.not_objective_of_restricted restricted⟩
              simp only [least]
              exact .bind_of_ok (sound'.run_pivot pivotal)
                (.single (.turned pivotal pivotable restricted)) (ih (sound'.pivoted pivotal))

/-- The dual method makes exchanges, and drops what it repaired. -/
theorem Sound.leads_repair (sound : t.Sound) (objective : Column) :
    (repair objective).Leads Exchanges (· ≠ .unbounded) t :=
  .congr (Step.run_bind_get _ t) (sound.leads_repairWithin objective _)

end Tableau

end SoftSimplex
