import Mathlib.Order.Monotone.Basic
import SoftSimplex.Proofs.Simplex.Worth
import SoftSimplex.Proofs.Solver.Equations

/-!
Which of two wishes prevails.

Wishes are weighed against each other, so a stronger one prevails over a weaker one if its weight is larger
by a factor that belongs to the constraints (`dominance_spec`): the factor is what missing the stronger wish
by one could save of the weaker one. A weight that is larger by less may be outweighed
(`dominance_outweighed`).
-/

namespace SoftSimplex

variable {required kept : List (Constraint Rat)} {strong weak : Constraint Rat} {config : Config Rat}
  {x y : Variable → Rat} {p q : ℕ} {u w : Rat}

/-! ### Two wishes -/

/-- Two wishes beside required constraints. -/
def contested (strong weak : Constraint Rat) (first second : Priority)
    (required : List (Constraint Rat)) : List (Constraint Rat) :=
  { strong with priority := first } :: { weak with priority := second } :: required

theorem satisfies_contested {first second : Priority} :
    Satisfies x (contested strong weak first second required) ↔
      (first = .required → strong.Holds x) ∧ (second = .required → weak.Holds x) ∧
        Satisfies x required := by
  rw [contested, satisfies_cons, satisfies_cons]
  rfl

theorem Config.loss_contested (hard : ∀ c ∈ required, c.priority = .required) (first second : Priority)
    (x : Variable → Rat) : config.loss (contested strong weak first second required) x =
      (config.weight? first).getD 0 * strong.violation x +
        (config.weight? second).getD 0 * weak.violation x := by
  have rest := config.loss_required hard x
  unfold loss at rest
  rw [contested, loss, List.map_cons, List.map_cons, List.sum_cons, List.sum_cons, rest, add_zero]
  rfl

namespace Solver

variable {s s' : Solver Rat}

/-- The values of a solver miss no more of the optional constraints than other values that violate a
required constraint, but for the violation times a factor. -/
theorem Stands.exists_worth {posed : List Posed} {c : Constraint Rat} (settings : config.Exact)
    (stands : Stands config kept posed s) (member : c ∈ kept) (wanted : c.priority = .required) :
    ∃ worth, 0 ≤ worth ∧ ∀ y,
      (∀ d ∈ kept, d.tag ≠ c.tag → d.priority = .required → d.Holds y) →
        config.loss kept s.simplex.values.value ≤ config.loss kept y + worth * c.violation y := by
  have stated := stands.stated
  rw [stated.constraints] at member
  obtain ⟨e, inside, rfl⟩ := List.mem_map.1 member
  have free : e.markers.weight = none := by
    rw [stated.weights e inside, settings.weight_eq_none_iff, wanted]
  obtain ⟨k, carries⟩ := stands.settled.carries
  obtain ⟨worth, nonneg, bound⟩ := carries.represents.exists_worth carries.family stands.weighted
    stands.settled.shaped stands.settled.optimized inside wanted free
  refine ⟨worth, nonneg, fun y others => ?_⟩
  have limited := bound y fun d inPosed other unweighted => by
    rw [Posed.met_of_unmoved (stated.unmoved d inPosed)]
    refine others _ (stated.mem_kept inPosed) (fun same => ?_) ?_
    · exact other (carries.family.eq_of_tag inPosed inside same)
    · rwa [stated.weights d inPosed, settings.weight_eq_none_iff] at unweighted
  rwa [← stands.settled.value_eq, stated.penalties_eq, stated.penalties_eq,
    Posed.shortfall_of_unmoved (stated.unmoved e inside)] at limited

/-- Some values satisfy the stronger of two wishes and come as near to the weaker one as is possible then.
To come nearer to the weaker wish costs as much of the stronger one, up to a factor. -/
theorem exists_best (tags : ((contested strong weak .required (.optional 0) required).map (·.tag)).Nodup)
    (hard : ∀ c ∈ required, c.priority = .required) (satisfies : Satisfies x required)
    (holds : strong.Holds x) : ∃ best worth, 0 ≤ worth ∧ Satisfies best required ∧
      strong.Holds best ∧ ∀ y, Satisfies y required →
        weak.violation best ≤ weak.violation y + worth * strong.violation y := by
  have satisfiable : Satisfies x (contested strong weak .required (.optional 0) required) :=
    satisfies_contested.2 ⟨fun _ => holds, fun same => Priority.noConfusion same, satisfies⟩
  obtain ⟨s, -, reached⟩ := Reached.created.forEach_add exact_exactSettings tags
    (fun _ _ _ member => absurd member List.not_mem_nil) satisfiable
    fun _ member => absurd member List.not_mem_nil
  rw [List.append_nil] at reached
  have perm := (contested strong weak .required (.optional 0) required).reverse_perm
  have loss (y : Variable → Rat) : exactSettings.loss
      (contested strong weak .required (.optional 0) required).reverse y = weak.violation y := by
    have one : exactSettings.weight? (.optional 0) = some 1 := by
      simp [Config.weight?, exactSettings]
    rw [Config.loss_perm perm, Config.loss_contested hard, one]
    simp [Config.weight?]
  obtain ⟨posed, stands⟩ := reached.stands exact_exactSettings
  obtain ⟨worth, nonneg, bound⟩ := stands.exists_worth exact_exactSettings
    (perm.mem_iff.2 List.mem_cons_self) rfl
  have optimal := (stands.optimal exact_exactSettings).1
  rw [satisfies_perm perm, satisfies_contested] at optimal
  refine ⟨_, worth, nonneg, optimal.2.2, optimal.1 rfl, fun y satisfies => ?_⟩
  have limited := bound y fun d listed other wanted => by
    rcases List.mem_cons.1 (perm.mem_iff.1 listed) with rfl | listed
    · exact absurd rfl other
    · rcases List.mem_cons.1 listed with rfl | listed
      · cases wanted
      · exact satisfies d listed wanted
  rwa [loss, loss] at limited

/-- Values that miss least prevail by weight: if the stronger wish outweighs what missing it saves of the
weaker one, it is satisfied, and the weaker one as far as it can be then. -/
theorem prevails {best values : Variable → Rat} {factor : Rat} (lighter : 0 < w)
    (outweighs : factor * w < u) (bestHolds : strong.Holds best)
    (bound : ∀ y, Satisfies y required →
      weak.violation best ≤ weak.violation y + factor * strong.violation y)
    (satisfies : Satisfies values required)
    (least : u * strong.violation values + w * weak.violation values ≤
      u * strong.violation best + w * weak.violation best) :
    strong.Holds values ∧
      ∀ y, Satisfies y required → strong.Holds y → weak.violation values ≤ weak.violation y := by
  have met := (strong.violation_eq_zero_iff best).2 bestHolds
  rw [met, mul_zero, zero_add] at least
  have traded := mul_le_mul_of_nonneg_left (bound values satisfies) lighter.le
  have missed : (u - factor * w) * strong.violation values ≤ 0 := by linarith
  have none : strong.violation values = 0 :=
    le_antisymm (nonpos_of_mul_nonpos_right missed (sub_pos.2 outweighs)) (strong.violation_nonneg values)
  rw [none, mul_zero, zero_add] at least
  have near := le_of_mul_le_mul_left least lighter
  refine ⟨(strong.violation_eq_zero_iff values).1 none, fun y satisfiesY holdsY => ?_⟩
  have own := bound y satisfiesY
  rw [(strong.violation_eq_zero_iff y).2 holdsY, mul_zero, add_zero] at own
  exact near.trans own

/-- Two wishes beside required constraints that can be satisfied are added in any order, and the solution
is best. -/
theorem exists_solution (settings : config.Exact)
    (tags : ((contested strong weak (.optional p) (.optional q) required).map (·.tag)).Nodup)
    (satisfies : Satisfies x required)
    (perm : order.Perm (contested strong weak (.optional p) (.optional q) required)) :
    ∃ s values s', (Step.forEach order add).run (create config) = (.ok (), s) ∧
      solve.run s = (.ok values, s') ∧
      config.Optimal (contested strong weak (.optional p) (.optional q) required) values.value := by
  have wished : Satisfies x (contested strong weak (.optional p) (.optional q) required) :=
    satisfies_contested.2
      ⟨fun same => Priority.noConfusion same, fun same => Priority.noConfusion same, satisfies⟩
  obtain ⟨s, ran, reached⟩ := Reached.created.forEach_add settings ((perm.map _).nodup_iff.2 tags)
    (fun _ _ _ member => absurd member List.not_mem_nil) ((satisfies_perm perm).2 wished)
    fun _ member => absurd member List.not_mem_nil
  rw [List.append_nil] at reached
  obtain ⟨-, ⟨values, s', solved, best⟩, -⟩ := reached.faithful settings
  exact ⟨s, values, s', ran, solved, (Config.optimal_perm (order.reverse_perm.trans perm)).1 best⟩

/-- Two wishes beside required constraints can be added in any order, and what the solution misses of them is
least by their weights. So a stronger wish that can be satisfied is satisfied, and the weaker one as far as
it can be then, if the weight of the stronger one is larger by a factor that belongs to the wishes and the
required constraints. The factor depends neither on the weights nor on the order. -/
theorem dominance_spec (strong weak : Constraint Rat) (required : List (Constraint Rat))
    (tags : (strong.tag :: weak.tag :: required.map (·.tag)).Nodup)
    (hard : ∀ c ∈ required, c.priority = .required)
    (satisfiable : ∃ x, Satisfies x required ∧ strong.Holds x) :
    ∃ factor : Rat, 0 ≤ factor ∧ ∀ (config : Config Rat) (p q : ℕ) (u w : Rat), config.Exact →
      config.weight? (.optional p) = some u → config.weight? (.optional q) = some w →
      ∀ order, order.Perm (contested strong weak (.optional p) (.optional q) required) →
        ∃ s values s', (Step.forEach order add).run (create config) = (.ok (), s) ∧
          solve.run s = (.ok values, s') ∧ Satisfies values.value required ∧
          (∀ y, Satisfies y required →
            u * strong.violation values.value + w * weak.violation values.value ≤
              u * strong.violation y + w * weak.violation y) ∧
          (factor * w < u → strong.Holds values.value ∧
            ∀ y, Satisfies y required → strong.Holds y →
              weak.violation values.value ≤ weak.violation y) := by
  obtain ⟨x, satisfies, holds⟩ := satisfiable
  obtain ⟨best, factor, nonneg, bestSatisfies, bestHolds, bound⟩ := exists_best tags hard satisfies holds
  refine ⟨factor, nonneg, fun config p q u w settings heavier lighter order perm => ?_⟩
  obtain ⟨s, values, s', ran, solved, meets, least⟩ := exists_solution settings tags satisfies perm
  have own := (satisfies_contested.1 meets).2.2
  have trade (y : Variable → Rat) (satisfiesY : Satisfies y required) :
      u * strong.violation values.value + w * weak.violation values.value ≤
        u * strong.violation y + w * weak.violation y := by
    have le := least y (satisfies_contested.2
      ⟨fun same => Priority.noConfusion same, fun same => Priority.noConfusion same, satisfiesY⟩)
    rwa [Config.loss_contested hard, Config.loss_contested hard, heavier, lighter] at le
  exact ⟨s, values, s', ran, solved, own, trade, fun outweighs =>
    prevails (settings.weight_pos _ w lighter) outweighs bestHolds bound own (trade best bestSatisfies)⟩

/-! ### A wish that is outweighed -/

/-- A weight that grows by three orders of magnitude with every tier, and evenly within a tier. -/
def steepWeight (strength : ℕ) : Rat :=
  1000 ^ (strength / 250) * (1 + 999 * (strength % 250 : ℕ) / 250) / 1000

theorem steepWeight_pos (strength : ℕ) : 0 < steepWeight strength := by
  unfold steepWeight
  positivity

theorem steepWeight_strictMono : StrictMono steepWeight := by
  refine strictMono_nat_of_lt_succ fun n => ?_
  have tier : (0 : Rat) < 1000 ^ (n / 250) := by positivity
  by_cases last : n % 250 = 249
  · have next : (n + 1) / 250 = n / 250 + 1 ∧ (n + 1) % 250 = 0 := by omega
    rw [steepWeight, steepWeight, next.1, next.2, last, pow_succ]
    norm_num
    linarith
  · have next : (n + 1) / 250 = n / 250 ∧ (n + 1) % 250 = n % 250 + 1 := by omega
    rw [steepWeight, steepWeight, next.1, next.2]
    push_cast
    have more : (1 : Rat) + 999 * (n % 250 : ℕ) / 250 < 1 + 999 * ((n % 250 : ℕ) + 1) / 250 := by
      linarith
    have grows := mul_lt_mul_of_pos_left more tier
    linarith

/-- Settings for exact arithmetic with weights that grow steeply. -/
def steepSettings : Config Rat :=
  { exactSettings with weights := fun strength => some (steepWeight strength) }

theorem exact_steepSettings : steepSettings.Exact where
  tolerance := rfl
  limited := ⟨1500, rfl⟩
  weights strength := ⟨steepWeight strength, rfl, steepWeight_pos strength⟩

/-- Ten thousand times an unknown is to be as much. -/
def isOneScaled : Constraint Rat :=
  { tag := .given 1
    left := .scale 10000 (.variable ⟨"x", 0⟩)
    comparator := .eq
    right := .constant 10000 }

/-- A wish of medium strength that can be satisfied is missed for one of low strength with large
coefficients. -/
theorem dominance_outweighed :
    steepSettings.Exact ∧ StrictMono steepWeight ∧
    (steepWeight 250 = 1 ∧ steepWeight 500 = 1000 ∧ steepWeight 750 = 1000000) ∧
    (isZero 0).Holds (fun _ => 0) ∧
    ∃ s values s',
      (Step.forEach (contested (isZero 0) isOneScaled (.optional 500) (.optional 250) []) add).run
        (create steepSettings) = (.ok (), s) ∧
      solve.run s = (.ok values, s') ∧ values.value ⟨"x", 0⟩ = 1 ∧ ¬(isZero 0).Holds values.value := by
  refine ⟨exact_steepSettings, steepWeight_strictMono, by norm_num [steepWeight], rfl, ?_⟩
  have answers : ((Step.forEach (contested (isZero 0) isOneScaled (.optional 500) (.optional 250) [])
      add >>= fun _ => solve).run (create steepSettings)).1.isOk = true := by decide +kernel
  obtain ⟨values, ran⟩ := Step.run_of_isOk answers
  have read : ((Step.forEach (contested (isZero 0) isOneScaled (.optional 500) (.optional 250) [])
      add >>= fun _ => solve).run (create steepSettings)).1.toOption.map (·.value ⟨"x", 0⟩) =
        some 1 := by decide +kernel
  obtain ⟨_, s, added, solved⟩ := Step.run_bind_eq_ok ran
  rw [ran] at read
  have one : values.value ⟨"x", 0⟩ = 1 := Option.some.inj read
  refine ⟨s, values, _, added, solved, one, fun holds => ?_⟩
  have zero : values.value ⟨"x", 0⟩ = 0 := holds
  rw [one] at zero
  norm_num at zero

/-- Two unknowns add up to three. -/
def sumIsThree : Constraint Rat where
  tag := .given 2
  left := .add (.variable ⟨"x", 0⟩) (.variable ⟨"y", 1⟩)
  comparator := .eq
  right := .constant 3

/-- Weights that are far enough apart make the same wish prevail, beside a required equation that the other
unknown then has to meet alone. -/
theorem dominance_spec_sumIsThree : ∃ weights : ℕ → Rat, ∃ s values s',
    (Step.forEach (contested (isZero 0) isOneScaled (.optional 1) (.optional 0) [sumIsThree]) add).run
      (create { exactSettings with weights := fun strength => some (weights strength) }) = (.ok (), s) ∧
    solve.run s = (.ok values, s') ∧ values.value ⟨"x", 0⟩ = 0 ∧ values.value ⟨"y", 1⟩ = 3 := by
  have satisfiable : ∃ x, Satisfies x [sumIsThree] ∧ (isZero 0).Holds x := by
    refine ⟨fun v => if v = ⟨"x", 0⟩ then 0 else 3, satisfies_cons.2 ⟨fun _ => ?_, ?_⟩, rfl⟩
    · exact zero_add (3 : Rat)
    · exact fun _ member => absurd member List.not_mem_nil
  obtain ⟨factor, nonneg, prevails⟩ := dominance_spec (isZero 0) isOneScaled [sumIsThree] (by decide)
    (by simp [sumIsThree]) satisfiable
  have positive (strength : ℕ) : 0 < 1 + factor * strength := by positivity
  have exact : Config.Exact
      { exactSettings with weights := fun strength => some (1 + factor * strength) } :=
    ⟨rfl, ⟨1500, rfl⟩, fun strength => ⟨1 + factor * strength, rfl, positive strength⟩⟩
  obtain ⟨s, values, s', added, solved, meets, -, outweighs⟩ := prevails _ 1 0 (1 + factor * (1 : ℕ))
    (1 + factor * (0 : ℕ)) exact rfl rfl _ (List.Perm.refl _)
  have zero : values.value ⟨"x", 0⟩ = 0 := (outweighs (by simp)).1
  have sum : values.value ⟨"x", 0⟩ + values.value ⟨"y", 1⟩ = 3 := (satisfies_cons.1 meets).1 rfl
  rw [zero, zero_add] at sum
  exact ⟨fun strength => 1 + factor * strength, s, values, s', added, solved, zero, sum⟩

end Solver

end SoftSimplex
