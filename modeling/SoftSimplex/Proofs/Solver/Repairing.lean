import SoftSimplex.Proofs.Solver.Suggesting

/-!
Solving after suggestions.

A solver that owes a repair solves to an optimum of its agenda if some assignment satisfies what the
agenda requires. If none does, then solving fails, or it returns values that satisfy the required
inequalities and miss the required equations on one side only, because repair does not look at dummies
that moved away from zero (`Owes.solveRepaired`).
-/

namespace SoftSimplex

open Tableau

variable {σ : Column → Rat} {x : Variable → Rat}

/-! ### Required equations that bind on one side -/

namespace Entry

/-- What repair keeps of a required equation: the side on which its dummy is not negative. -/
def side (e : Entry) : Comparator :=
  match e.role with
  | .edit _ _ _ => .ge
  | _ => .le

/-- What repair keeps of an entry. -/
def relaxed (e : Entry) : Constraint Rat :=
  if e.wanted.comparator = .eq then { e.wanted with comparator := e.side } else e.wanted

end Entry

/-- What repair keeps of an agenda. -/
def relaxed (agenda : List Entry) : List (Constraint Rat) := agenda.map Entry.relaxed

/-- A required equation whose dummy is not negative has its gap on one side of zero. -/
theorem Posed.gap_nonpos {p : Posed} (fits : p.Fits) (required : p.markers.weight = none)
    (equal : p.constraint.comparator = .eq) (equation : p.Equation σ)
    (nonneg : ∀ c ∈ p.columns, 0 ≤ σ c) : p.gap (onVariables σ) ≤ 0 := by
  rw [Fits, equal] at fits
  have own := nonneg _ (Markers.main_mem_columns _)
  rw [Equation, offset] at equation
  generalize p.markers = m at fits required equation own
  cases fits with
  | equation isDummy =>
      rw [Markers.terms_same, List.map_singleton, List.sum_singleton, one_mul] at equation
      linarith
  | wishedEquation _ _ _ => cases required
  | bound unequal _ => exact absurd rfl unequal
  | wishedBound _ _ _ _ => cases required
  | side _ unequal _ _ => exact absurd rfl unequal
  | turnedSide _ unequal _ _ => exact absurd rfl unequal

/-- An equation whose gap is on that side holds as far as repair keeps it. -/
theorem Item.Sound.holds_relaxed {i : Item} (sound : i.Sound)
    (equal : i.constraint.comparator = .eq) (nonpos : i.gap x ≤ 0) : i.entry.relaxed.Holds x := by
  have wanted : i.entry.wanted.comparator = .eq := by
    unfold Entry.wanted entry
    cases i.role with
    | given => exact equal
    | stay _ _ _ => rfl
    | edit _ _ _ => rfl
  unfold Item.Sound at sound
  rw [Entry.relaxed, if_pos wanted]
  unfold Entry.wanted Entry.side entry
  cases role : i.role with
  | given =>
      rw [role] at sound
      have gap : i.gap x = i.constraint.left.eval x - i.constraint.right.eval x := by
        rw [Posed.gap, equal, sound, Row.residualSign, one_mul, add_zero]
      rw [gap] at nonpos
      exact sub_nonpos.1 nonpos
  | stay d v target =>
      rw [role] at sound
      rw [sound.2 x] at nonpos
      exact sub_nonpos.1 nonpos
  | edit d v target =>
      rw [role] at sound
      rw [sound.2 x] at nonpos
      exact sub_nonpos.1 nonpos

namespace Solver

variable {config : Config Rat} {agenda : List Entry} {items : List Item} {s s' : Solver Rat}

/-- The values of a solver without negative rows satisfy what repair keeps of the agenda. -/
theorem Tends.satisfies_relaxed {bound : Nat} (settings : config.Exact)
    (tends : Tends config bound items s) (upright : s.tableau.Upright) :
    Satisfies s.currentValue (relaxed (agendaOf items)) := by
  intro c member required
  obtain ⟨e, onAgenda, rfl⟩ := List.mem_map.1 member
  obtain ⟨i, inside, rfl⟩ := List.mem_map.1 onAgenda
  have sound := tends.sound i inside
  have fits := tends.priced.family.fits _ (mem_posedOf inside)
  have equation := tends.priced.equation (mem_posedOf inside)
  have priority : i.entry.wanted.priority = .required := by
    rw [Entry.relaxed] at required
    split at required <;> exact required
  have weight : i.markers.weight = none := by
    rw [tends.weights i inside, settings.weight_eq_none_iff]
    exact (Entry.priority_wanted _).symm.trans priority
  rw [currentValue_eq]
  by_cases equal : i.constraint.comparator = .eq
  · refine sound.holds_relaxed equal (Posed.gap_nonpos fits weight equal equation fun c own => ?_)
    exact upright.nonneg (Markers.Fits.restricted fits own)
  · have given : i.entry.wanted = i.constraint := by
      unfold Item.Sound at sound
      unfold Entry.wanted Item.entry
      cases role : i.role with
      | given => rfl
      | stay d v target =>
          rw [role] at sound
          exact absurd sound.1 equal
      | edit d v target =>
          rw [role] at sound
          exact absurd sound.1 equal
    rw [Entry.relaxed, if_neg (by rwa [given]), ← sound.met_iff]
    refine Posed.met_of_admissible fits weight equation fun c own => ⟨fun dummy => ?_, fun pivotable =>
      upright.nonneg (Column.restricted_of_pivotable pivotable)⟩
    rcases Markers.Fits.pivotable_or_dummy fits own with pivotable | ⟨-, -, equation⟩
    · rw [Column.not_dummy_of_pivotable pivotable] at dummy
      cases dummy
    · rw [tends.weights i inside, settings.weight_eq_none_iff] at weight
      exact absurd (equation weight) equal

/-! ### Solvers that are settled -/

/-- A solver tends an agenda, and is settled. -/
structure Serves (config : Config Rat) (agenda : List Entry) (s : Solver Rat) : Prop where
  settled : ∃ items, Tends config s.depth items s ∧ agendaOf items = agenda ∧
    s.simplex.Settled (posedOf items)
  repaired : s.needsRepair = false

namespace Serves

variable (serves : Serves config agenda s)
include serves

theorem owes : Owes config agenda s := by
  obtain ⟨items, tends, same, settled⟩ := serves.settled
  exact ⟨⟨items, tends, same⟩, settled.mendable, settled.done⟩

/-- The values of a solver that serves an agenda are best for it. -/
theorem optimal (settings : config.Exact) : config.Optimal (wanted agenda) s.currentValue := by
  obtain ⟨items, tends, rfl, settled⟩ := serves.settled
  exact tends.optimal settings settled

theorem run_solve : ∃ s', solve.run s = (.ok s.simplex.values, s') ∧ Serves config agenda s' := by
  obtain ⟨items, tends, same, settled⟩ := serves.settled
  exact ⟨_, tends.toPoses.run_solve settled.done serves.repaired,
    ⟨items, tends.congr tends.priced rfl rfl rfl le_rfl, same, settled⟩, serves.repaired⟩

end Serves

/-- Where no row is negative and something satisfies the agenda, a solver is settled. -/
theorem Owes.settled (settings : config.Exact) (owes : Owes config agenda s)
    (upright : s.tableau.Upright) (satisfies : Satisfies x (wanted agenda)) :
    ∃ items, Tends config s.depth items s ∧ agendaOf items = agenda ∧
      s.simplex.Settled (posedOf items) := by
  obtain ⟨items, tends, rfl⟩ := owes.tends
  have meets := (tends.meetsRequired_iff settings).2 satisfies
  exact ⟨items, tends, rfl, tends.priced.settled owes.mendable upright owes.done meets⟩

theorem Owes.serves (settings : config.Exact) (owes : Owes config agenda s)
    (upright : s.tableau.Upright) (repaired : s.needsRepair = false)
    (satisfies : Satisfies x (wanted agenda)) : Serves config agenda s :=
  ⟨owes.settled settings upright satisfies, repaired⟩

/-- Where no row is negative and something satisfies the agenda, the values are best for it. -/
theorem Owes.optimal (settings : config.Exact) (owes : Owes config agenda s)
    (upright : s.tableau.Upright) (satisfies : Satisfies x (wanted agenda)) :
    config.Optimal (wanted agenda) s.currentValue := by
  obtain ⟨items, tends, rfl, settled⟩ := owes.settled settings upright satisfies
  exact tends.optimal settings settled

theorem Owes.satisfies_relaxed (settings : config.Exact) (owes : Owes config agenda s)
    (upright : s.tableau.Upright) : Satisfies s.currentValue (relaxed agenda) := by
  obtain ⟨items, tends, rfl⟩ := owes.tends
  exact tends.satisfies_relaxed settings upright

/-! ### Stays that are reset -/

/-- An assignment satisfies an agenda whose stays were moved to it, if it satisfied the agenda before. -/
theorem satisfies_restayed (satisfies : Satisfies x (wanted agenda)) (depth : ℕ) :
    Satisfies x (wanted (restayed depth x agenda)) := by
  intro c member required
  obtain ⟨e, onAgenda, rfl⟩ := List.mem_map.1 member
  obtain ⟨e₀, before, rfl⟩ := List.mem_map.1 onAgenda
  rw [Entry.priority_wanted] at required
  have holds := satisfies _ (List.mem_map_of_mem before) ((Entry.priority_wanted e₀).trans required)
  obtain ⟨constraint, role⟩ := e₀
  cases role with
  | given => exact holds
  | edit d v target => exact holds
  | stay d v target =>
      change x v = if d < depth then x v else target
      split
      · rfl
      · exact holds

/-- Resetting the stays makes no row negative. -/
theorem Owes.resetStays (owes : Owes config agenda s) (upright : s.tableau.Upright) :
    Owes config (restayed s.depth s.currentValue agenda) s.resetStays ∧
      s.resetStays.tableau.Upright ∧ s.resetStays.currentValue = s.currentValue := by
  obtain ⟨items, tends, rfl⟩ := owes.tends
  obtain ⟨amount, tends', -⟩ := tends.resetStays
  have upright' := upright.zeroed s.stayColumns
  have recorded : (s.tableau.zeroed s.stayColumns).Recorded := fun key member =>
    owes.mendable.tracked.only key (infeasible_zeroed s.tableau s.stayColumns ▸ member)
  exact ⟨⟨⟨_, tends', agendaOf_changed _ _ _⟩,
    owes.mendable.of_alike (alike_zeroed _ _) (upright'.tracked recorded), owes.done⟩, upright',
    tends.currentValue_resetStays⟩

/-! ### Solving -/

/-- What solving comes to where a repair is owed. -/
inductive Mended (config : Config Rat) (agenda : List Entry) :
    Except (Fault Rat) (Values Rat) × Solver Rat → Prop where
  | solved {values : Values Rat} {s' : Solver Rat}
      (owes : Owes config (restayed s'.depth s'.currentValue agenda) s')
      (upright : s'.tableau.Upright) (repaired : s'.needsRepair = false)
      (relaxed : Satisfies values.value (relaxed agenda))
      (serves : ∀ x, Satisfies x (wanted agenda) →
        Serves config (restayed s'.depth s'.currentValue agenda) s' ∧
          config.Optimal (wanted agenda) values.value) :
      Mended config agenda (.ok values, s')
  | failed {s' : Solver Rat} (tends : ∃ items, Tends config s'.depth items s' ∧ agendaOf items = agenda)
      (done : s'.simplex.needsOptimize = false) (abandoned : ∃ exit row, s'.tableau.Abandoned exit row)
      (unsatisfied : ∀ x, ¬Satisfies x (wanted agenda)) :
      Mended config agenda (.error .dualFailed, s')

/-- The solver with a tableau that was repaired, in which nothing awaits repair. -/
def mended (s : Solver Rat) (t : Tableau Rat) : Solver Rat :=
  s.withSimplex (s.simplex.withTableau (t.awaiting ∅))

/-- Solving repairs the tableau, reads the values and resets the stays. -/
theorem Owes.solveRepaired (settings : config.Exact) (owes : Owes config agenda s) :
    Mended config agenda (solveRepaired.run s) := by
  obtain ⟨items, tends, rfl⟩ := owes.tends
  have repair := tends.priced.repaired owes.mendable
  generalize ran : Simplex.repair.run s.simplex = ended at repair
  cases repair with
  | failed priced abandoned unmet =>
      rw [Solver.solveRepaired, Step.run_bind_of_error (run_onSimplex_of_error ran)]
      exact .failed ⟨items, tends.congr priced rfl rfl rfl le_rfl, rfl⟩ owes.done abandoned
        fun x satisfies => unmet x ((tends.meetsRequired_iff settings).2 satisfies)
  | @done t' rest priced mendable upright =>
      have repaired : Tends config s.depth items
          (s.withSimplex (s.simplex.withTableau (t'.awaiting rest))) :=
        tends.congr (priced.awaiting rest) rfl rfl rfl le_rfl
      rw [Solver.solveRepaired, Step.run_bind_of_ok (run_onSimplex_of_ok ran),
        Step.run_bind_of_ok repaired.run_readValues, Step.run_bind_modify, Step.run_return]
      have unrecorded : (t'.awaiting ∅).Recorded := fun key member =>
        absurd member (Sorted.Set.not_mem_empty key)
      have owesNow : Owes config (agendaOf items) (s.mended t') :=
        ⟨⟨items, tends.congr (priced.awaiting ∅) rfl rfl rfl le_rfl, rfl⟩,
          ⟨mendable.sheltered, mendable.insulated, mendable.optimized,
            Upright.tracked upright unrecorded⟩, owes.done⟩
      obtain ⟨owes', upright', current⟩ := owesNow.resetStays upright
      rw [← current] at owes'
      have value : (s.withSimplex (s.simplex.withTableau (t'.awaiting rest))).simplex.values.value =
          (s.mended t').currentValue := repaired.value_eq
      refine .solved (owes'.congr rfl rfl rfl rfl) upright' rfl ?_ fun x satisfies => ?_
      · rw [value]
        exact owesNow.satisfies_relaxed settings upright
      · have optimal := owesNow.optimal settings upright satisfies
        have reset := satisfies_restayed optimal.1 (s.mended t').depth
        rw [← current] at reset
        refine ⟨Owes.serves settings (owes'.congr rfl rfl rfl rfl) upright' rfl reset, ?_⟩
        rw [value]
        exact optimal

/-- Where nothing is recorded, solving reads the values of the tableau as it is. -/
theorem Tends.run_solve_of_unrecorded {bound : ℕ} (tends : Tends config bound items s)
    (done : s.simplex.needsOptimize = false) (nothing : ∀ key, key ∉ s.tableau.infeasible) :
    ∃ s', solve.run s = (.ok s.simplex.values, s') := by
  cases repair : s.needsRepair with
  | false => exact ⟨_, tends.toPoses.run_solve done repair⟩
  | true =>
      have repairing : (onSimplex Simplex.repair).run s =
          (.ok (), s.withSimplex (s.simplex.withTableau (s.tableau.awaiting ∅))) :=
        run_onSimplex_of_ok (Simplex.run_onTableau_of_ok (run_repair_of_unrecorded nothing))
      have poses : (s.withSimplex (s.simplex.withTableau (s.tableau.awaiting ∅))).Poses
          (posedOf items) := ⟨tends.priced.awaiting ∅, tends.installed⟩
      rw [solve, Step.run_bind_get, if_pos repair, Solver.solveRepaired,
        Step.run_bind_of_ok repairing, Step.run_bind_of_ok poses.run_readValues]
      exact ⟨_, rfl⟩

end Solver

end SoftSimplex
