import Mathlib.Logic.Basic
import Mathlib.Logic.Relation
import SoftSimplex.Proofs.Solver.Calls
import SoftSimplex.Proofs.Solver.Commands

/-!
What holds of solvers after every call, answered or failed.

However a solver of either sort is used, the rows of its tableau agree with the index and the sets that are
kept beside them, and a variable that was anywhere in its tableau once is reported by every later reading,
once (`agreement_spec`). Without tolerance, and with weights that are positive, a solver never comes upon an
objective without bound (`bounded_spec`).
-/

namespace SoftSimplex

namespace Tableau

variable {t : Tableau Rat} {v : Variable}

/-- A variable is somewhere in a tableau. -/
inductive Occurs (t : Tableau Rat) (v : Variable) : Prop where
  | basic (stored : (t.rows.get? (.external v)).isSome)
  | term {key : Column} {row : Row Rat} (found : t.rows.get? key = some row)
      (mentioned : row.terms.contains (.external v) = true)
  | indexed (present : (t.index.get? (.external v)).isSome)
  | kept (met : t.Met v)

/-- The rows of a tableau agree with what is kept beside them. -/
structure Agrees (t : Tableau Rat) : Prop where
  /-- A row is listed under the columns of its terms. -/
  listed : ∀ key column, t.Lists key column ↔
    ∃ row, t.rows.get? key = some row ∧ row.terms.contains column = true
  /-- What has a row is neither a term of a row nor indexed. -/
  separate : ∀ key, (t.rows.get? key).isSome → t.index.get? key = none ∧
    ∀ other row, t.rows.get? other = some row → row.terms.contains key = false
  nonzero : ∀ key row column, t.rows.get? key = some row → row.terms.get? column ≠ some 0
  basic : ∀ v, v ∈ t.basicVariables ↔ (t.rows.get? (.external v)).isSome
  /-- A variable that is a term of a row, or is indexed, is one of those outside the basis. -/
  outside : ∀ v, (∃ key row, t.rows.get? key = some row ∧
      row.terms.contains (.external v) = true) ∨ (t.index.get? (.external v)).isSome →
    v ∈ t.parametricVariables
  disjoint : ∀ v ∈ t.basicVariables, v ∉ t.parametricVariables
  /-- What awaits repair has a row. -/
  pending : ∀ key ∈ t.infeasible, (t.rows.get? key).isSome

theorem Sound.agrees (sound : t.Sound) : t.Agrees where
  listed key column := (sound.listed key column).trans mentions_iff
  separate key stored := ⟨sound.separate key stored, fun other row found => by
    rw [Sorted.Map.contains, sound.not_contains found stored]
    rfl⟩
  nonzero key row column found zero := sound.nonzero key column (by
    rw [term?, found]
    exact zero)
  basic := sound.basic
  outside v inside := by
    apply sound.seen
    rcases inside with ⟨key, row, found, mentioned⟩ | present
    · exact indexed_of_lists ((sound.listed key _).2 (mentions_iff.2 ⟨row, found, mentioned⟩))
    · exact present
  disjoint := sound.disjoint
  pending := sound.present

/-- A variable that is anywhere in a tableau is in one of the two sets of variables. -/
theorem Agrees.met (agrees : t.Agrees) (occurs : t.Occurs v) : t.Met v := by
  cases occurs with
  | basic stored => exact .inl ((agrees.basic v).2 stored)
  | term found mentioned => exact .inr (agrees.outside v (.inl ⟨_, _, found, mentioned⟩))
  | indexed present => exact .inr (agrees.outside v (.inr present))
  | kept met => exact met

end Tableau

namespace Simplex

open Tableau

variable {s s' : Simplex Rat} {v : Variable} {e : Rat}

/-- A variable is in one of the two sets of variables and not in the other one, and reading the solution
reports it once. -/
def Reports (s : Simplex Rat) (v : Variable) : Prop :=
  Xor (v ∈ s.tableau.basicVariables) (v ∈ s.tableau.parametricVariables) ∧
    ∃ solution, evaluate.run s = (.ok solution, s) ∧ (solution.values.map (·.1)).count v = 1

/-- The variables outside the basis are read first, then the basic ones. -/
theorem map_values (sound : s.tableau.Sound) : s.values.map (·.1) =
    s.tableau.parametricVariables.toList ++ s.tableau.basicVariables.toList := by
  rw [values, List.map_append]
  congr 1
  · rw [List.map_map, List.filter_eq_self.2 fun v outside => ?_]
    · exact List.map_id _
    · rw [Sorted.Map.contains, sound.not_basic (Sorted.Set.mem_toList.1 outside)]
      rfl
  · rw [List.map_filterMap]
    refine (List.filterMap_congr fun v inside => ?_).trans List.filterMap_some
    obtain ⟨row, found⟩ := Option.isSome_iff_exists.1
      ((sound.basic v).1 (Sorted.Set.mem_toList.1 inside))
    rw [found]
    rfl

theorem Intact.reports (intact : s.Intact) (met : s.tableau.Met v) : s.Reports v := by
  have sound := intact.sound
  obtain ⟨goal, found⟩ := Option.isSome_iff_exists.1 intact.stored
  refine ⟨?_, _, run_evaluate found, ?_⟩
  · rcases met with inside | outside
    · exact .inl ⟨inside, sound.disjoint v inside⟩
    · exact .inr ⟨outside, fun inside => sound.disjoint v inside outside⟩
  · refine List.count_eq_one_of_mem ?_ ?_
    · rw [map_values sound]
      refine List.nodup_append.2 ⟨Sorted.Map.nodup_keys _, Sorted.Map.nodup_keys _, ?_⟩
      rintro w outside _ inside rfl
      exact sound.disjoint w (Sorted.Set.mem_toList.1 inside) (Sorted.Set.mem_toList.1 outside)
    · rw [map_values sound, List.mem_append, Sorted.Set.mem_toList, Sorted.Set.mem_toList]
      exact met.symm

/-- Any number of calls, answered or failed. -/
abbrev Runs : Simplex Rat → Simplex Rat → Prop :=
  Relation.ReflTransGen fun s s' => ∃ command : Command, (command.step.run s).2 = s'

theorem Runs.evolves (runs : s.Runs s') : s.Evolves .free s' := by
  induction runs with
  | refl => exact refl_of _ s
  | tail _ step ih =>
      obtain ⟨command, rfl⟩ := step
      exact trans_of _ ih (command.evolves _ (command.heeds_free _))

/-- A consistent solver reports what it met, after any calls. -/
theorem Runs.reports (runs : s.Runs s') (consistent : s.Consistent .free) (met : s.tableau.Met v) :
    s'.Reports v := by
  obtain ⟨consistent', remembers⟩ := runs.evolves consistent
  exact consistent'.toIntact.reports (remembers.met v met)

end Simplex

namespace Solver

open Tableau

variable {s s' : Solver Rat} {config : Config Rat} {e : Rat} {precise : Prop} {restraint : Restraint}

/-- A solver is created with an objective that is zero, and nothing else. -/
theorem simplex_create (tolerance : config.tolerance = some e) (nonneg : 0 ≤ e) :
    (create config).simplex = (Simplex.empty (some e) .minimize config.logged).withTableau
      ((Tableau.empty (some e) config.logged).insertRow .objective
        ((Problem.trivial (K := Rat)).objective.unpurgedRow.purge e)) := by
  have ran := Simplex.run_install_eq (Problem.trivial (K := Rat)) nonneg config.logged
  rw [create, tolerance]
  exact (congrArg Prod.snd ran).trans rfl

theorem tolerance_create (tolerance : config.tolerance = some e) (nonneg : 0 ≤ e) :
    (create config).tableau.tolerance = some e := by
  rw [tableau, simplex_create tolerance nonneg]
  exact tolerance_insertRow _ _ _

/-- A solver is created coherent. -/
theorem coherent_create (tolerance : config.tolerance = some e) (nonneg : 0 ≤ e)
    (strict : precise → e = 0 ∧ ∀ strength w, config.weights strength = some w → 0 ≤ w) :
    (create config).Coherent precise restraint := by
  have same := simplex_create tolerance nonneg
  have consistent : Simplex.Consistent restraint _ :=
    Simplex.consistent_founded nonneg (Problem.trivial (K := Rat)).objective config.logged
  refine ⟨?_, ?_, fun tag i found => ?_, fun tag i found => ?_, fun tag _ i _ found => ?_,
    fun tag i found => ?_, fun session opened => ?_, ?_, fun given => ?_⟩
  · rw [same]
    exact consistent.toIntact
  · rw [same]
    exact fun _ => rfl
  · cases found
  · cases found
  · cases found
  · cases found
  · cases opened
  · rw [tableau, same]
    refine consistent.orderly.mono ?_
    rintro a b ⟨m, ⟨tag, i, found, -⟩, -⟩
    cases found
  · obtain ⟨rfl, weights⟩ := strict given
    refine ⟨tolerance_create tolerance nonneg, weights, Row.ofConstant 0, fun σ holds => ?_,
      fun c nonzero => ?_, ?_⟩
    · rw [tableau, same] at holds
      have founded := Simplex.carries_founded (Problem.trivial (K := Rat)).objective config.logged
      have own := ((founded.represents.holds σ).1 holds).2
      rw [own, Row.eval_ofConstant]
      simp [Problem.trivial, LinExpr.eval]
    · rw [Row.coefficient_ofConstant] at nonzero
      exact absurd rfl nonzero
    · rintro m ⟨tag, i, found, -⟩
      cases found

/-- Any number of calls, answered or failed. -/
abbrev Runs : Solver Rat → Solver Rat → Prop :=
  Relation.ReflTransGen fun s s' => ∃ command : Command, (command.step.run s).2 = s'

/-- The solver after some calls, whether they were answered or failed. -/
def called (s : Solver Rat) (commands : List Command) : Solver Rat :=
  commands.foldl (fun s command => (command.step.run s).2) s

theorem runs_called (s : Solver Rat) (commands : List Command) : s.Runs (s.called commands) := by
  induction commands generalizing s with
  | nil => exact .refl
  | cons command rest ih => exact .head ⟨command, rfl⟩ (ih _)

theorem Runs.minds (runs : s.Runs s') : s.Minds precise .free s' := by
  induction runs with
  | refl => exact refl_of _ s
  | @tail s₁ _ _ called ih =>
      obtain ⟨command, rfl⟩ := called
      refine trans_of _ ih fun coherent => ?_
      exact (command.fares coherent (command.heeds_free _)).reaches coherent

/-- A coherent solver reports what it met, after any calls. -/
theorem Runs.reports (runs : s.Runs s') (coherent : s.Coherent precise .free) {v : Variable}
    (met : s.tableau.Met v) : s'.simplex.Reports v := by
  obtain ⟨coherent', recalls⟩ := runs.minds coherent
  exact coherent'.intact.reports (recalls.met v met)

end Solver

/-! ### What holds after every call -/

/-- Whatever calls are made of a solver of either sort, for every tolerance and whether they answer or fail,
the rows of its tableau agree with what is kept beside them, and a variable that was anywhere in the tableau
after one of the calls is reported once after every later one. So is a variable that a constraint brought in,
whether the constraint was added or contradicted the others. -/
theorem agreement_spec (e : Rat) (nonneg : 0 ≤ e) :
    (∀ (config : Config Rat) (s : Solver Rat), config.tolerance = some e →
      (Solver.create config).Runs s → s.tableau.Agrees ∧
        (∀ s', s.Runs s' → ∀ v, s.tableau.Occurs v → s'.simplex.Reports v) ∧
        ∀ c, (∀ fault, ((Solver.add c).run s).1 = .error fault → fault.isInfeasible = true) →
          ∀ s', ((Solver.add c).run s).2.Runs s' → ∀ v, c.Involves e v → s'.simplex.Reports v) ∧
    ∀ (problem : Problem Rat) (logged : Bool) (s : Simplex Rat),
      (Simplex.ofProblem (some e) problem logged).state.Runs s → s.tableau.Agrees ∧
        (∀ s', s.Runs s' → ∀ v, s.tableau.Occurs v → s'.Reports v) ∧
        ∀ c, (∀ fault, ((Simplex.add c).run s).1 = .error fault → fault.isInfeasible = true) →
          ∀ s', ((Simplex.add c).run s).2.Runs s' → ∀ v, c.Involves e v → s'.Reports v := by
  constructor
  · intro config s given runs
    have created : (Solver.create config).Coherent False .free :=
      Solver.coherent_create given nonneg False.elim
    obtain ⟨coherent, recalls⟩ := runs.minds created
    have tolerance := recalls.tolerance.trans (Solver.tolerance_create given nonneg)
    refine ⟨coherent.sound.agrees, fun s' later v occurs => ?_, fun c judged s' later v involves => ?_⟩
    · exact later.reports coherent (coherent.sound.agrees.met occurs)
    · have minds := (Solver.fares_add coherent c).reaches
      exact later.reports (minds coherent).1 (coherent.met_add tolerance judged involves)
  · intro problem logged s runs
    obtain ⟨consistent, remembers⟩ :=
      runs.evolves (Simplex.consistent_install nonneg problem logged)
    have tolerance := remembers.tolerance.trans (Simplex.tolerance_install nonneg problem logged)
    refine ⟨consistent.sound.agrees, fun s' later v occurs => ?_, fun c judged s' later v involves => ?_⟩
    · exact later.reports consistent (consistent.sound.agrees.met occurs)
    · have evolves : s.Evolves .free _ := (Simplex.leads_add c s).reaches
      exact later.reports (evolves consistent).1 (consistent.met_add tolerance judged involves)

namespace Solver

open Tableau

variable {config : Config Rat} {s : Solver Rat}

/-- Settings that take an eighth for zero. -/
def coarseSettings : Config Rat where
  tolerance := some (1 / 8)
  weights strength := some (strength + 1)

/-- Two unknowns add up to at least one. -/
def sumAtLeastOne : Constraint Rat where
  tag := .given 0
  left := .add (.variable ⟨"x", 0⟩) (.variable ⟨"y", 1⟩)
  comparator := .ge
  right := .constant 1

/-- They add up to at most zero. -/
def sumAtMostZero : Constraint Rat :=
  { sumAtLeastOne with tag := .given 1, comparator := .le, right := .constant 0 }

/-- An unknown that is a term of a row and has none is reported after a refused call, and after its only
constraint was taken back. So is the other unknown of the refused constraint. -/
theorem agreement_spec_refused : ∃ (s s₁ s₂ : Solver Rat) (fault : Fault Rat),
    (add sumAtLeastOne).run (create coarseSettings) = (.ok (), s) ∧
    (add sumAtMostZero).run s = (.error fault, s₁) ∧
    (remove sumAtLeastOne).run s₁ = (.ok (), s₂) ∧
    s.tableau.isBasic (.external ⟨"y", 1⟩) = false ∧ s₁.tableau.Agrees ∧
    s₁.simplex.Reports ⟨"y", 1⟩ ∧ s₂.simplex.Reports ⟨"y", 1⟩ ∧ s₂.simplex.Reports ⟨"x", 0⟩ := by
  let s := (create coarseSettings).called [.add sumAtLeastOne]
  obtain ⟨adds, refuses, removes, outside, mentioned, involves⟩ :
      ((add sumAtLeastOne).run (create coarseSettings)).1.isOk = true ∧
      (match ((add sumAtMostZero).run s).1 with
        | .error fault => fault.isInfeasible
        | .ok _ => false) = true ∧
      ((remove sumAtLeastOne).run (s.called [.add sumAtMostZero])).1.isOk = true ∧
      s.tableau.isBasic (.external ⟨"y", 1⟩) = false ∧
      (s.tableau.term? (.external ⟨"x", 0⟩) (.external ⟨"y", 1⟩)).isSome = true ∧
      sumAtMostZero.Involves (1 / 8) ⟨"x", 0⟩ := by
    decide +kernel
  obtain ⟨_, first⟩ := Step.run_of_isOk adds
  obtain ⟨_, third⟩ := Step.run_of_isOk removes
  obtain ⟨row, found, inRow⟩ := mentions_iff.1 mentioned
  have spec (s : Solver Rat) (runs : (create coarseSettings).Runs s) :=
    (agreement_spec (1 / 8) (by norm_num)).1 coarseSettings s rfl runs
  have runs : (create coarseSettings).Runs s := runs_called _ _
  obtain ⟨-, occurs, brought⟩ := spec s runs
  obtain ⟨agrees, -⟩ := spec _ (runs.trans (runs_called s [.add sumAtMostZero]))
  have reports (later : List Command) : (s.called later).simplex.Reports ⟨"y", 1⟩ :=
    occurs _ (runs_called s later) _ (.term found inRow)
  generalize answer : ((add sumAtMostZero).run s).1 = result at refuses
  cases result with
  | ok _ => cases refuses
  | error fault =>
      have judged : ∀ other, ((add sumAtMostZero).run s).1 = .error other →
          other.isInfeasible = true := by
        intro other failed
        cases answer.symm.trans failed
        exact refuses
      exact ⟨s, _, _, fault, first, Prod.ext answer rfl, third, outside, agrees,
        reports [.add sumAtMostZero], reports [.add sumAtMostZero, .remove sumAtLeastOne],
        brought sumAtMostZero judged _ (runs_called _ [.remove sumAtLeastOne]) _ involves⟩

/-- Without tolerance, and with positive weights, no call fails because an objective is unbounded, whatever
calls were made before: each column that lowers the objective is bounded by a row. -/
theorem bounded_spec (tolerance : config.tolerance = some 0)
    (weights : ∀ strength w, config.weights strength = some w → 0 < w)
    (runs : (create config).Runs s) :
    (∀ command : Command, (command.step.run s).1 ≠ .error .unbounded) ∧
    ∀ goal entry, s.tableau.rows.get? .objective = some goal → entry.isPivotable = true →
      goal.coefficient entry < 0 → ∃ key row, s.tableau.rows.get? key = some row ∧
        key.isPivotable = true ∧ row.coefficient entry < 0 := by
  have created : (create config).Coherent True .free := coherent_create tolerance le_rfl fun _ =>
    ⟨rfl, fun strength w found => (weights strength w found).le⟩
  obtain ⟨coherent, -⟩ := runs.minds created
  have solvent := coherent.solvent trivial
  refine ⟨fun command failed =>
    (command.fares coherent (command.heeds_free _)).allowed _ failed trivial rfl,
    fun goal entry found _ negative => ?_⟩
  have bounded := (solvent.accounts.bounded solvent.tolerance).not_unbounded
    coherent.sound.toWellFormed found negative
  rw [Unbounded] at bounded
  push Not at bounded
  exact bounded

/-- A refused constraint leaves no objective without bound. -/
theorem bounded_spec_refused : ∃ s s' : Solver Rat,
    (add atLeastOne).run (create exactSettings) = (.ok (), s) ∧
    ((add atMostZero).run s).1.isOk = false ∧ ((add atMostZero).run s).2 = s' ∧
    ∀ command : Command, (command.step.run s').1 ≠ .error .unbounded := by
  have checks : ((add atLeastOne).run (create exactSettings)).1.isOk = true ∧
      ((add atMostZero).run ((add atLeastOne).run (create exactSettings)).2).1.isOk = false := by
    decide +kernel
  obtain ⟨adds, refuses⟩ := checks
  obtain ⟨_, first⟩ := Step.run_of_isOk adds
  have runs : (create exactSettings).Runs
      ((add atMostZero).run ((add atLeastOne).run (create exactSettings)).2).2 :=
    .tail (.single ⟨.add atLeastOne, rfl⟩) ⟨.add atMostZero, rfl⟩
  refine ⟨_, _, first, refuses, rfl, (bounded_spec rfl (fun strength w found => ?_) runs).1⟩
  cases found
  exact Nat.cast_add_one_pos strength

end Solver

end SoftSimplex
