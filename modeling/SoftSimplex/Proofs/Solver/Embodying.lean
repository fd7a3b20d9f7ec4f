import SoftSimplex.Proofs.Solver.Tending
import SoftSimplex.Proofs.Tableau.Restoring

/-!
What the rows of a solver say of its agenda.

Where a solver tends an agenda, the rows of its tableau but the objective are the equations of what is on
the agenda, each over the columns of the constraint that is installed for it, and the objective row charges
every column what the errors of these constraints cost (`Tends.embodies`). Nothing is said of the shape of
the tableau: its constants may be negative, and it need not be optimal.
-/

namespace SoftSimplex

open Tableau

variable {posed : List Posed} {p : Posed} {x : Variable → Rat} {σ τ : Column → Rat} {c column : Column}

/-! ### Equations and costs of tableaus -/

theorem costs_add (posed : List Posed) (σ τ : Column → Rat) :
    costs posed (fun c => σ c + τ c) = costs posed σ + costs posed τ := by
  have own (p : Posed) : p.cost (fun c => σ c + τ c) = p.cost σ + p.cost τ := by
    rw [Posed.cost, Posed.cost, Posed.cost, ← mul_add, ← List.sum_map_add]
  rw [costs, costs, costs, ← List.sum_map_add]
  exact congrArg List.sum (List.map_congr_left fun p _ => own p)

namespace Tableau

variable {t : Tableau Rat} {goal : (Column → Rat) → Rat} {row : Row Rat} {k : Rat}

/-- The coefficient of a second column in a first one, once the first is rewritten by its row. -/
def rewritten (t : Tableau Rat) (column c : Column) : Rat :=
  match t.rows.get? column with
  | some row => row.coefficient c
  | none => if column = c then 1 else 0

/-- A column grows by its coefficient in each rewritten one. -/
theorem ray_one (t : Tableau Rat) (c column : Column) :
    t.ray c 1 column = t.basicSolution column + t.rewritten column c := by
  cases found : t.rows.get? column with
  | some row => rw [ray_of_basic found, basicSolution_of_basic found, rewritten, found, mul_one]
  | none =>
      rw [basicSolution_of_not_basic found, rewritten, found, zero_add]
      dsimp only
      split
      · next same => rw [same, ray_self (same ▸ found)]
      · next different => exact ray_of_not_basic found different 1

namespace Represents

/-- The rows but the objectives are the equations of the constraints. -/
theorem obeys_iff (represents : t.Represents posed goal) (family : Family posed) :
    t.Obeys σ ↔ ∀ p ∈ posed, p.Equation σ := by
  have wf := represents.toWellFormed
  constructor
  · intro obeys p member
    obtain ⟨τ, holds, same⟩ := wf.exists_holds_of_obeys obeys
    refine (Posed.equation_congr (funext fun v => same _ rfl) fun c own => same c ?_).1
      (((represents.holds τ).1 holds).1 p member)
    exact Column.not_objective_of_restricted (Markers.Fits.restricted (family.fits p member) own)
  · intro equations key row found plain
    have own := represents.holds_withObjectiveOf family equations key row found
    rw [withObjectiveOf_of_plain plain] at own
    rw [own]
    refine Row.eval_congr fun c nonzero => withObjectiveOf_of_plain ?_
    exact wf.noObjective key c (mentions_of_coefficient found nonzero)

/-- The objective row charges a column what the constraints cost for it. -/
theorem coefficient_objective (represents : t.Represents posed fun σ => k + costs posed σ)
    (found : t.rows.get? .objective = some row) (c : Column) :
    row.coefficient c = costs posed fun error => t.rewritten error c := by
  -- The objective is what the constraints cost, before the column grows by one and after.
  have start := ((represents.holds _).1 represents.holds_basicSolution).2
  have grown := ((represents.holds _).1 (represents.holds_ray c 1)).2
  rw [funext (t.ray_one c)] at grown
  dsimp only at grown
  rw [costs_add, start, rewritten, found] at grown
  dsimp only at grown
  linarith

end Represents

end Tableau

/-! ### Equations of entries -/

namespace Entry

/-- How far an assignment is from what an entry asks for, in the direction in which its row is written: an
edit is written from its target. -/
def gap (e : Entry) (x : Variable → Rat) : Rat :=
  match e.role with
  | .given => Row.residualSign e.constraint.comparator *
      (e.constraint.left.eval x - e.constraint.right.eval x)
  | .stay _ v target => x v - target
  | .edit _ v target => target - x v

/-- The row of an entry over the columns of a constraint is zero. -/
def Equation (e : Entry) (m : Markers Rat) (σ : Column → Rat) : Prop :=
  e.gap (onVariables σ) + (m.terms.map fun term => term.2 * σ term.1).sum = 0

end Entry

theorem Item.Sound.gap_eq {i : Item} (sound : i.Sound) : i.gap x = i.entry.gap x := by
  unfold Item.Sound at sound
  unfold Entry.gap Item.entry
  cases role : i.role with
  | given =>
      rw [role] at sound
      rw [Posed.gap, sound, add_zero]
  | stay d v target =>
      rw [role] at sound
      exact sound.2 x
  | edit d v target =>
      rw [role] at sound
      exact sound.2 x

theorem Item.Sound.equation_iff {i : Item} (sound : i.Sound) :
    i.toPosed.Equation σ ↔ i.entry.Equation i.markers σ := by
  rw [Posed.Equation, sound.gap_eq]
  rfl

namespace Solver

variable {config : Config Rat} {bound : ℕ} {items : List Item} {agenda : List Entry} {s : Solver Rat}
  {i : Item} {known : Installed Rat} {tag : Tag}

/-- What the errors of the installed constraints cost at their weights, where columns have some cost. -/
def dues (s : Solver Rat) (cost : Column → Rat) : Rat :=
  (s.installed.toList.map fun entry =>
    entry.2.markers.weight.getD 0 * (entry.2.markers.errors.map cost).sum).sum

theorem Poses.dues_eq (poses : s.Poses posed) (cost : Column → Rat) :
    s.dues cost = costs posed cost := by
  have perm : s.installed.toList.Perm (posed.map fun p => (p.constraint.tag, p.toInstalled)) := by
    have keys : (posed.map fun p => (p.constraint.tag, p.toInstalled)).map (·.1) =
        posed.map (·.constraint.tag) := by
      rw [List.map_map]
      rfl
    refine (List.perm_ext_iff_of_nodup (.of_map _ s.installed.nodup_keys)
      (.of_map (·.1) (keys ▸ poses.priced.family.tags))).2 fun ⟨tag, known⟩ => ?_
    rw [← Sorted.Map.get?_eq_some_iff, poses.installed, Option.map_eq_some_iff, List.mem_map]
    constructor
    · rintro ⟨p, search, rfl⟩
      have own : p.constraint.tag = tag := by simpa using List.find?_some search
      exact ⟨p, List.mem_of_find?_eq_some search, by rw [own]⟩
    · rintro ⟨p, member, same⟩
      obtain ⟨rfl, rfl⟩ := Prod.mk.inj same
      exact ⟨p, poses.priced.family.find?_tag member, rfl⟩
  rw [dues, (perm.map _).sum_eq, List.map_map]
  rfl

/-- The objective row charges every column what the errors of the constraints cost that are installed. -/
theorem Poses.charges (poses : s.Poses posed) : ∃ goal, s.tableau.rows.get? .objective = some goal ∧
    ∀ c, goal.coefficient c = s.dues fun error => s.tableau.rewritten error c := by
  obtain ⟨k, carries⟩ := poses.priced.carries
  obtain ⟨goal, found⟩ := poses.priced.stored
  refine ⟨goal, found, fun c => ?_⟩
  rw [poses.dues_eq]
  exact carries.represents.coefficient_objective found c

/-- The rows of a solver are those of an agenda: what is installed has columns of the kinds that mark it
and the weight of its priority, the rows but the objective are the equations of the entries over these
columns, and the objective row charges every column what the errors cost once they are rewritten. -/
structure Embodies (agenda : List Entry) (s : Solver Rat) : Prop where
  installed : ∀ e ∈ agenda, ∃ m, s.installed.get? e.constraint.tag = some ⟨e.constraint, m⟩ ∧
    m.Fits e.constraint.priority e.constraint.comparator ∧
    m.weight = s.config.weight? e.constraint.priority
  only : ∀ tag known, s.installed.get? tag = some known → ∃ e ∈ agenda, e.constraint.tag = tag
  obeys : ∀ σ, s.tableau.Obeys σ ↔ ∀ e ∈ agenda, ∀ known,
    s.installed.get? e.constraint.tag = some known → e.Equation known.markers σ
  charges : ∃ goal, s.tableau.rows.get? .objective = some goal ∧
    ∀ c, goal.coefficient c = s.dues fun error => s.tableau.rewritten error c

namespace Tends

variable (tends : Tends config bound items s)
include tends

/-- What is installed is on the agenda. -/
theorem exists_of_installed (found : s.installed.get? tag = some known) :
    ∃ i ∈ items, i.constraint.tag = tag ∧ i.toInstalled = known := by
  rw [tends.installed, Option.map_eq_some_iff] at found
  obtain ⟨p, search, rfl⟩ := found
  obtain ⟨i, inside, rfl⟩ := List.mem_map.1 (List.mem_of_find?_eq_some search)
  exact ⟨i, inside, by simpa using List.find?_some search, rfl⟩

theorem embodies : Embodies (agendaOf items) s := by
  have poses := tends.toPoses
  have installed : ∀ i ∈ items, s.installed.get? i.constraint.tag = some i.toInstalled :=
    fun i inside => poses.installed_of_mem (mem_posedOf inside)
  obtain ⟨k, carries⟩ := tends.priced.carries
  refine ⟨List.forall_mem_map.2 fun i inside => ⟨i.markers, installed i inside,
    tends.priced.family.fits _ (mem_posedOf inside), ?_⟩, fun tag known found => ?_, fun σ => ?_,
    poses.charges⟩
  · rw [tends.config_eq]
    exact tends.weights i inside
  · obtain ⟨i, inside, own, -⟩ := tends.exists_of_installed found
    exact ⟨i.entry, List.mem_map_of_mem inside, own⟩
  · rw [Solver.tableau, carries.represents.obeys_iff carries.family, posedOf, List.forall_mem_map,
      agendaOf, List.forall_mem_map]
    refine forall₂_congr fun i inside => ?_
    rw [(tends.sound i inside).equation_iff]
    constructor
    · intro equation known own
      obtain rfl := Option.some.inj ((installed i inside).symm.trans own)
      exact equation
    · exact fun equation => equation _ (installed i inside)

end Tends

end Solver

end SoftSimplex
