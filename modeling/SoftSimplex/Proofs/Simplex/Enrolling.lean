import SoftSimplex.Proofs.Simplex.Growing

/-!
Solvers whose constraints are all required.

A solver has enrolled required constraints if it carries them and has registered their markers
(`Enrolled`). Adding a constraint enrols it or finds that it contradicts the others
(`Enrolled.adding`), and the tableau comes to know the variables that the two sides of the constraint do
not cancel (`mem_scope_enrolled`).
-/

namespace SoftSimplex

variable {posed : List Posed} {c : Constraint Rat} {x : Variable → Rat} {column : Column}

/-- All constraints of a family are required, and their targets were not moved. -/
def AllRequired (posed : List Posed) : Prop := ∀ p ∈ posed, p.markers.weight = none ∧ p.shift = 0

theorem AllRequired.meetsRequired_iff (all : AllRequired posed) :
    MeetsRequired posed x ↔ ∀ p ∈ posed, p.constraint.Holds x :=
  forall₂_congr fun p member => by
    obtain ⟨required, unmoved⟩ := all p member
    rw [Posed.met_of_unmoved unmoved]
    exact ⟨fun holds => holds required, fun holds _ => holds⟩

theorem AllRequired.cons (all : AllRequired posed) : AllRequired (.required c column :: posed) :=
  List.forall_mem_cons.2 ⟨⟨Posed.weight_required, rfl⟩, all⟩

namespace Simplex

open Tableau

variable {s s' : Simplex Rat} {goal : (Column → Rat) → Rat} {v : Variable}

/-- The constraints of a solver are required, and their markers are registered. -/
structure Enrolled (s : Simplex Rat) (posed : List Posed) (goal : (Column → Rat) → Rat) : Prop where
  carries : s.Carries posed goal
  registered : ∀ tag, s.registered.get? tag =
    (posed.find? fun p => p.constraint.tag = tag).map fun p => ⟨p.constraint, p.markers.main⟩
  required : AllRequired posed
  made : ∀ p ∈ posed, ∀ n, p.constraint.tag = .made n → n < s.nextMade

theorem Enrolled.exact (enrolled : s.Enrolled posed goal) : s.tableau.Exact :=
  enrolled.carries.represents.toExact

theorem Enrolled.has_iff (enrolled : s.Enrolled posed goal) :
    s.has c = true ↔ ∃ p ∈ posed, p.constraint.tag = c.tag := by
  rw [has, Sorted.Map.contains, enrolled.registered, Option.isSome_map, List.find?_isSome]
  simp only [decide_eq_true_eq]

/-- What adding a required constraint may come to. -/
inductive Enrolling (s : Simplex Rat) (posed : List Posed) (goal : (Column → Rat) → Rat)
    (c : Constraint Rat) : Except (Fault Rat) Unit × Simplex Rat → Prop where
  | enrolled {column : Column} {s' : Simplex Rat} (sameGoal : s'.goal = s.goal)
      (sameMade : s'.nextMade = s.nextMade) (needed : s'.needsOptimize = true)
      (enrolled : s'.Enrolled (.required c column :: posed) goal)
      (inserted : s.tableau.Inserted (s.posedRow (.required c column)) s'.tableau)
      (restricted : column.isRestricted = true) : Enrolling s posed goal c (.ok (), s')
  | refused {fault : Fault Rat} {s' : Simplex Rat}
      (reason : s.tableau.Shaped → fault.isInfeasible = true ∧
        ∀ x, (∀ p ∈ posed, p.constraint.Holds x) → ¬c.Holds x) :
      Enrolling s posed goal c (.error fault, s')

/-- A required constraint with a new tag is enrolled, unless a shaped tableau cannot meet it. -/
theorem Enrolled.adding (enrolled : s.Enrolled posed goal)
    (new : ∀ q ∈ posed, q.constraint.tag ≠ c.tag) (required : c.priority = .required)
    (below : ∀ n, c.tag = .made n → n < s.nextMade) :
    Enrolling s posed goal c ((add c).run s) := by
  have unregistered : s.has c = false := by
    rw [← Bool.not_eq_true, enrolled.has_iff]
    rintro ⟨q, member, tagged⟩
    exact new q member tagged
  have growing := enrolled.carries.growing new required unregistered
  generalize (add c).run s = ended at growing
  cases growing with
  | @grown column s' sameGoal sameMade registered needed carries inserted restricted =>
      refine .enrolled sameGoal sameMade needed ⟨carries, registered_insert enrolled.registered
        registered, enrolled.required.cons, ?_⟩ inserted restricted
      rw [sameMade]
      exact List.forall_mem_cons.2 ⟨below, enrolled.made⟩
  | refused reason =>
      refine .refused fun shaped => ?_
      obtain ⟨infeasible, contradicts⟩ := reason shaped
      exact ⟨infeasible, fun x holds =>
        contradicts x (enrolled.required.meetsRequired_iff.2 holds)⟩

/-- The tableau comes to know the variables that a constraint does not cancel. -/
theorem mem_scope_enrolled (exact : s.tableau.Exact)
    (inserted : s.tableau.Inserted (s.posedRow (.required c column)) s'.tableau)
    (restricted : column.isRestricted = true) : .external v ∈ s'.tableau.scope ↔
      .external v ∈ s.tableau.scope ∨ c.left.net v ≠ c.right.net v := by
  have foreign : Column.external v ∉ (Posed.required c column).columns := by
    rw [Posed.columns_required, List.mem_singleton]
    rintro rfl
    cases restricted
  rw [inserted.scope, contains_posedRow, or_iff_right foreign,
    ← Row.coefficient_residual_ne_zero_iff]
  by_cases known : .external v ∈ s.tableau.scope
  · simp only [known, true_or]
  · refine or_congr_right ⟨fun present => ?_, fun nonzero => ?_⟩
    · obtain ⟨-, inResidual | ⟨key, mentioned⟩⟩ := exact.contains_parametrize present
      · exact Row.contains_purge_zero.1 (purge_eq exact.exact _ ▸ inResidual)
      · exact absurd (exact.mem_scope_of_mentions mentioned) known
    · refine Row.contains_of_coefficient ?_
      rwa [reduced, exact.coefficient_parametrize_of_new known, purge_eq exact.exact,
        Row.coefficient_purge]

end Simplex

end SoftSimplex
