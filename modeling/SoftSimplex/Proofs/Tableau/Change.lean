import Mathlib.Data.Set.Insert
import SoftSimplex.Proofs.Tableau.Sound

/-!
What may happen to a tableau.

Whatever a solver does, and whether it answers or fails, its tableau changes by pivots, by rows and columns
that come and go, by constants that move, and by what is added to the objective (`Change`). A run of such
changes keeps a tableau sound (`Changes.sound`) and forgets no variable (`Changes.met`). Without tolerance
the equations that it had are still there, but for columns that were given up and constants that moved
(`Changes.holds`), and so an objective is still what it was in terms of other columns (`Changes.billed`).
-/

namespace SoftSimplex.Tableau

variable {t t' t'' : Tableau Rat} {free more moving : Set Column} {key column entry exit objective c : Column}
  {row solved goal bill : Row Rat} {v : Variable} {σ : Column → Rat}

/-- One change of a tableau. The free columns are those that may enter it and that may be given up, and the
moving ones are those whose rows may get another constant. -/
inductive Change (free moving : Set Column) (t : Tableau Rat) : Tableau Rat → Prop where
  | awaiting {rest : Sorted.Set Column} (fewer : ∀ key ∈ rest, key ∈ t.infeasible) :
      Change free moving t (t.awaiting rest)
  | marked {key : Column} (restricted : key.isRestricted = true)
      (stored : (t.rows.get? key).isSome) : Change free moving t (t.markInfeasible key)
  | moved (column : Column) (constant : Rat) (given : column ∈ moving) :
      Change free moving t (t.setConstant column constant)
  | pivoted {entry exit : Column} {row : Row Rat} (pivotal : t.Pivotal entry exit row) :
      Change free moving t (t.pivoted entry exit row)
  | introduced {column : Column} {solved : Row Rat} (definable : t.Definable column solved)
      (known : ∀ c, c = column ∨ solved.terms.contains c = true → c ∈ t.scope ∨ c ∈ free)
      (plain : column.isObjective = false) : Change free moving t (t.introduce column solved)
  | inserted {key : Column} {row : Row Rat} (storable : t.Storable key row)
      (symbol : key.isExternal = false) (given : key ∈ free)
      (known : ∀ c, row.terms.contains c = true → c ∈ t.scope ∨ c ∈ free) :
      Change free moving t (t.insertRow key row)
  | charged {column : Column} {goal : Row Rat} (found : t.rows.get? .objective = some goal)
      (restricted : column.isRestricted = true) (known : column ∈ t.scope ∨ column ∈ free)
      (given : .objective ∈ free) (k : Rat) : Change free moving t (t.addToObjective column k)
  | removed {key : Column} (symbol : key.isExternal = false) (different : key ≠ .objective)
      (given : key ∈ free) : Change free moving t (t.removeRow key)
  | struck {column : Column} (symbol : column.isExternal = false) (given : column ∈ free) :
      Change free moving t (t.removeColumn column)

/-- Any number of changes. -/
abbrev Changes (free moving : Set Column) : Tableau Rat → Tableau Rat → Prop :=
  Relation.ReflTransGen (Change free moving)

/-! ### Variables that were met -/

theorem Sound.met_of_mem_scope (sound : t.Sound) (known : .external v ∈ t.scope) : t.Met v := by
  rcases mem_scope.1 known with stored | indexed
  · exact .inl ((sound.basic v).2 stored)
  · exact .inr (sound.seen v indexed)

theorem Met.introduce (met : t.Met v) (sound : t.Sound) (definable : t.Definable column solved) :
    (t.introduce column solved).Met v := by
  obtain ⟨e, tolerance, -⟩ := sound.tolerant
  have basic := ((sound.introduce definable).basic v)
  rw [get?_introduce sound.toWellFormed tolerance] at basic
  by_cases same : column = .external v
  · exact .inl (basic.2 (by rw [if_pos same]; rfl))
  · refine met.imp (fun inside => basic.2 ?_) fun outside => ?_
    · rw [if_neg same, Option.isSome_map]
      exact (sound.basic v).1 inside
    · exact (mem_parametricVariables_introduce definable.apart).2 (.inr ⟨outside, same⟩)

theorem Met.pivoted (met : t.Met v) (sound : t.Sound) (pivotal : t.Pivotal entry exit row) :
    (t.pivoted entry exit row).Met v := by
  have definable := sound.definable pivotal
  by_cases leaves : exit = .external v
  · refine .inr ((mem_parametricVariables_introduce definable.apart).2 (.inl ?_))
    exact Row.contains_pivoted.2 (.inl leaves.symm)
  · refine Met.introduce (met.imp (fun inside => ?_) fun outside => ?_) (sound.removeRow exit) definable
    · exact mem_basicVariables_removeRow.2 ⟨leaves, inside⟩
    · rwa [parametricVariables_removeRow]

/-! ### What one change keeps -/

namespace Change

variable (change : Change free moving t t') (start : t.Sound)
include change start

theorem sound : t'.Sound := by
  cases change with
  | awaiting fewer => exact start.awaiting fewer
  | marked restricted stored => exact start.markInfeasible restricted stored
  | moved column constant _ => exact start.setConstant column constant
  | pivoted pivotal => exact start.pivoted pivotal
  | introduced definable _ _ => exact start.introduce definable
  | inserted storable symbol _ _ => exact start.insertRow storable symbol
  | charged found restricted _ _ k => exact start.addToObjective found restricted k
  | removed _ _ _ => exact start.removeRow _
  | struck symbol _ => exact start.removeColumn symbol

theorem tolerance_eq : t'.tolerance = t.tolerance := by
  cases change with
  | awaiting _ | marked _ _ => rfl
  | moved column constant _ => exact tolerance_setConstant t column constant
  | pivoted pivotal => exact start.tolerance_pivoted _ _ _
  | introduced _ _ _ =>
      obtain ⟨e, tolerance, -⟩ := start.tolerant
      exact tolerance_introduce start.toWellFormed tolerance _ _
  | inserted _ _ _ _ => exact tolerance_insertRow t _ _
  | charged found restricted _ _ k =>
      exact (start.apart_addToObjective found (Column.not_objective_of_restricted restricted)
        k).tolerance
  | removed _ _ _ => exact tolerance_removeRow t _
  | struck _ _ => exact tolerance_removeColumn t _

theorem met (met : t.Met v) : t'.Met v := by
  cases change with
  | awaiting _ | marked _ _ => exact met
  | moved column constant _ =>
      obtain ⟨rows, same⟩ := t.setConstant_eq column constant
      rw [same]
      exact met
  | pivoted pivotal => exact met.pivoted start pivotal
  | introduced definable _ _ => exact met.introduce start definable
  | inserted _ _ _ _ =>
      exact met.imp (fun inside => mem_basicVariables_insertRow.2 (.inr inside))
        fun outside => mem_parametricVariables_insertRow.2 (.inr outside)
  | charged found restricted _ _ k =>
      have apart := start.apart_addToObjective found (Column.not_objective_of_restricted restricted) k
      rw [Met, apart.basics, apart.parametrics]
      exact met
  | removed symbol _ _ =>
      refine met.imp (fun inside => mem_basicVariables_removeRow.2 ⟨?_, inside⟩) fun outside => ?_
      · rintro rfl
        cases symbol
      · rwa [parametricVariables_removeRow]
  | struck symbol _ =>
      refine met.imp (fun inside => mem_basicVariables_removeColumn.2 ⟨?_, inside⟩) fun outside => ?_
      · rintro rfl
        cases symbol
      · rwa [parametricVariables_removeColumn t symbol]

/-- Only free columns enter. -/
theorem mem_scope (known : c ∈ t'.scope) : c ∈ t.scope ∨ c ∈ free := by
  cases change with
  | awaiting _ | marked _ _ => exact .inl known
  | moved column constant _ =>
      rw [Tableau.mem_scope, index_setConstant, get?_setConstant] at known
      refine .inl (Tableau.mem_scope.2 (known.imp_left fun basic => ?_))
      split at basic
      · rwa [Option.isSome_map] at basic
      · exact basic
  | pivoted pivotal => exact .inl (start.scope_pivoted pivotal ▸ known)
  | introduced definable allowed _ =>
      rcases (start.mem_scope_introduce definable).1 known with own | inSolved | before
      · exact allowed c (.inl own)
      · exact allowed c (.inr inSolved)
      · exact .inl before
  | inserted _ _ given allowed =>
      rcases mem_scope_insertRow.1 known with rfl | inRow | before
      · exact .inr given
      · exact allowed c inRow
      · exact .inl before
  | charged found restricted allowed _ k =>
      rcases start.mem_scope_addToObjective found (Column.not_objective_of_restricted restricted) k
        known with rfl | before
      · exact allowed
      · exact .inl before
  | @removed key _ _ _ =>
      cases stored : t.rows.get? key with
      | none => exact .inl ((mem_scope_removeRow_of_absent stored).1 known)
      | some row => exact .inl ((start.mem_scope_removeRow (by rw [stored]; rfl)).1 known).2
  | @struck column symbol _ =>
      cases stored : t.rows.get? column with
      | none => exact .inl ((start.mem_scope_removeColumn stored).1 known).2
      | some row =>
          rw [start.removeColumn_of_basic (by rw [stored]; rfl) symbol] at known
          exact .inl known

/-- An objective stays that is not free, and the one that is minimised stays in any case. -/
theorem stays (plain : c.isObjective = true) (kept : c ∉ free ∨ c = .objective)
    (stored : (t.rows.get? c).isSome) : (t'.rows.get? c).isSome := by
  cases change with
  | awaiting _ | marked _ _ => exact stored
  | moved column constant _ =>
      rw [get?_setConstant]
      split
      · rwa [Option.isSome_map]
      · exact stored
  | pivoted pivotal =>
      refine (start.basic_pivoted _ _ _ c).2 (.inr ⟨?_, stored⟩)
      rintro rfl
      rw [pivotal.plain] at plain
      cases plain
  | introduced definable _ _ =>
      obtain ⟨e, tolerance, -⟩ := start.tolerant
      rw [get?_introduce start.toWellFormed tolerance]
      split
      · rfl
      · rwa [Option.isSome_map]
  | inserted _ _ _ _ =>
      rw [get?_insertRow]
      split
      · rfl
      · exact stored
  | charged found restricted _ _ k =>
      have apart := start.apart_addToObjective found (Column.not_objective_of_restricted restricted) k
      by_cases own : c = .objective
      · exact own ▸ apart.stored
      · rwa [apart.others c own]
  | removed _ different given =>
      rw [get?_removeRow, if_neg]
      · exact stored
      · rintro rfl
        exact kept.elim (· given) different
  | struck symbol _ => rwa [get?_removeColumn start.toWellFormed, Option.isSome_map]

/-- An objective that is not free does not come. -/
theorem stays_absent (plain : c.isObjective = true) (kept : c ∉ free)
    (absent : t.rows.get? c = none) : t'.rows.get? c = none := by
  cases change with
  | awaiting _ | marked _ _ => exact absent
  | moved column constant _ =>
      rw [get?_setConstant, absent]
      simp
  | pivoted pivotal =>
      rw [← Option.not_isSome_iff_eq_none, start.basic_pivoted]
      rintro (rfl | ⟨-, stored⟩)
      · rw [start.noObjective _ _ pivotal.mentions] at plain
        cases plain
      · rw [absent] at stored
        cases stored
  | introduced definable _ unlike =>
      obtain ⟨e, tolerance, -⟩ := start.tolerant
      rw [get?_introduce start.toWellFormed tolerance, if_neg, absent, Option.map_none]
      rintro rfl
      rw [unlike] at plain
      cases plain
  | inserted _ _ given _ =>
      rw [get?_insertRow, if_neg, absent]
      rintro rfl
      exact kept given
  | charged found restricted _ given k =>
      have apart := start.apart_addToObjective found (Column.not_objective_of_restricted restricted) k
      rw [apart.others, absent]
      rintro rfl
      exact kept given
  | removed _ _ _ =>
      rw [get?_removeRow, absent, ite_self]
  | struck _ _ => rw [get?_removeColumn start.toWellFormed, absent, Option.map_none]

/-- Without tolerance an assignment that holds afterwards held before, but for free columns and for
constants that moved. -/
theorem holds (exact : t.tolerance = some 0) : ∃ shift : Column → Rat,
    (∀ c, c ∉ moving → shift c = 0) ∧ ∀ σ, t'.Holds σ →
      ∃ τ, t.Holds τ ∧ ∀ c, c ∉ free → τ c = σ c + shift c := by
  have exact : t.Exact := ⟨start.toWellFormed, exact⟩
  have unshifted (given : ∀ σ, t'.Holds σ → ∃ τ, t.Holds τ ∧ ∀ c, c ∉ free → τ c = σ c) :
      ∃ shift : Column → Rat, (∀ c, c ∉ moving → shift c = 0) ∧ ∀ σ, t'.Holds σ →
        ∃ τ, t.Holds τ ∧ ∀ c, c ∉ free → τ c = σ c + shift c :=
    ⟨0, fun _ _ => rfl, by simpa using given⟩
  have updated {σ : Column → Rat} {key : Column} (given : key ∈ free) (x : Rat) :
      ∀ c, c ∉ free → Function.update σ key x c = σ c := fun c kept =>
    Function.update_of_ne (by rintro rfl; exact kept given) x σ
  cases change with
  | awaiting _ | marked _ _ => exact unshifted fun σ holds => ⟨σ, holds, fun _ _ => rfl⟩
  | moved column constant given =>
      cases found : t.rows.get? column with
      | none =>
          refine unshifted fun σ holds => ⟨σ, ?_, fun _ _ => rfl⟩
          rwa [setConstant, found] at holds
      | some row =>
          refine ⟨Function.update 0 column (row.constant - constant), fun c still => ?_, fun σ holds =>
            ⟨_, (exact.holds_setConstant found constant).1 holds, fun c _ => ?_⟩⟩
          · refine Function.update_of_ne ?_ _ _
            rintro rfl
            exact still given
          by_cases same : c = column
          · rw [same, Function.update_self, Function.update_self]
          · rw [Function.update_of_ne same, Function.update_of_ne same, Pi.zero_apply, add_zero]
  | pivoted pivotal =>
      exact unshifted fun σ holds => ⟨σ, (exact.holds_pivoted pivotal).1 holds, fun _ _ => rfl⟩
  | introduced definable _ _ =>
      exact unshifted fun σ holds =>
        ⟨σ, ((exact.holds_introduce definable).1 holds).1, fun _ _ => rfl⟩
  | inserted storable _ _ _ =>
      exact unshifted fun σ holds =>
        ⟨σ, ((holds_insertRow storable.absent).1 holds).1, fun _ _ => rfl⟩
  | charged found restricted _ given k =>
      have plain := Column.not_objective_of_restricted restricted
      refine unshifted fun σ holds => ⟨_, (exact.holds_addToObjective found plain ?_ k).1 holds,
        updated given _⟩
      rintro rfl
      cases plain
  | @removed key _ _ given =>
      refine unshifted fun σ holds => ?_
      cases found : t.rows.get? key with
      | none => exact ⟨σ, (holds_removeRow_of_absent found).1 holds, fun _ _ => rfl⟩
      | some row =>
          obtain ⟨x, before⟩ := (holds_removeRow exact.toWellFormed found).1 holds
          exact ⟨_, before, updated given x⟩
  | @struck column symbol given =>
      refine unshifted fun σ holds => ?_
      cases found : t.rows.get? column with
      | none => exact ⟨_, (exact.holds_removeColumn found).1 holds, updated given 0⟩
      | some row =>
          rw [start.removeColumn_of_basic (by rw [found]; rfl) symbol] at holds
          exact ⟨σ, holds, fun _ _ => rfl⟩

omit start in
theorem mono (subset : free ⊆ more) : Change more moving t t' := by
  have allowed {c : Column} (known : c ∈ t.scope ∨ c ∈ free) : c ∈ t.scope ∨ c ∈ more :=
    known.imp_right (@subset c)
  cases change with
  | awaiting fewer => exact .awaiting fewer
  | marked restricted stored => exact .marked restricted stored
  | moved column constant given => exact .moved column constant given
  | pivoted pivotal => exact .pivoted pivotal
  | introduced definable known plain =>
      exact .introduced definable (fun c own => allowed (known c own)) plain
  | inserted storable symbol given known =>
      exact .inserted storable symbol (subset given) fun c inRow => allowed (known c inRow)
  | charged found restricted known given k =>
      exact .charged found restricted (allowed known) (subset given) k
  | removed symbol different given => exact .removed symbol different (subset given)
  | struck symbol given => exact .struck symbol (subset given)

end Change

/-! ### What any number of changes keeps -/

namespace Changes

theorem mono (changes : Changes free moving t t') (subset : free ⊆ more) : Changes more moving t t' :=
  Relation.ReflTransGen.mono (fun _ _ change => Change.mono change subset) _ _ changes

variable (changes : Changes free moving t t') (start : t.Sound)
include changes start

theorem sound : t'.Sound := by
  induction changes with
  | refl => exact start
  | tail _ change ih => exact change.sound ih

theorem tolerance_eq : t'.tolerance = t.tolerance := by
  induction changes with
  | refl => rfl
  | tail before change ih => exact (change.tolerance_eq (sound before start)).trans ih

/-- No variable is forgotten. -/
theorem met (met : t.Met v) : t'.Met v := by
  induction changes with
  | refl => exact met
  | tail before change ih => exact change.met (sound before start) ih

theorem mem_scope (known : c ∈ t'.scope) : c ∈ t.scope ∨ c ∈ free := by
  induction changes with
  | refl => exact .inl known
  | tail before change ih =>
      exact (change.mem_scope (sound before start) known).elim ih .inr

theorem stays (plain : c.isObjective = true) (kept : c ∉ free ∨ c = .objective)
    (stored : (t.rows.get? c).isSome) : (t'.rows.get? c).isSome := by
  induction changes with
  | refl => exact stored
  | tail before change ih => exact change.stays (sound before start) plain kept ih

theorem stays_absent (plain : c.isObjective = true) (kept : c ∉ free)
    (absent : t.rows.get? c = none) : t'.rows.get? c = none := by
  induction changes with
  | refl => exact absent
  | tail before change ih => exact change.stays_absent (sound before start) plain kept ih

theorem holds (exact : t.tolerance = some 0) : ∃ shift : Column → Rat,
    (∀ c, c ∉ moving → shift c = 0) ∧ ∀ σ, t'.Holds σ →
      ∃ τ, t.Holds τ ∧ ∀ c, c ∉ free → τ c = σ c + shift c := by
  induction changes with
  | refl => exact ⟨0, fun _ _ => rfl, fun σ holds => ⟨σ, holds, fun _ _ => (add_zero _).symm⟩⟩
  | tail before change ih =>
      obtain ⟨first, still, moved⟩ := ih
      obtain ⟨second, still', moved'⟩ := change.holds (sound before start)
        ((tolerance_eq before start).trans exact)
      refine ⟨second + first, fun c fixed => ?_, fun σ holds => ?_⟩
      · rw [Pi.add_apply, still c fixed, still' c fixed, add_zero]
      obtain ⟨τ, holdsτ, same⟩ := moved' σ holds
      obtain ⟨ρ, holdsρ, same'⟩ := moved τ holdsτ
      refine ⟨ρ, holdsρ, fun c kept => ?_⟩
      rw [same' c kept, same c kept, Pi.add_apply, add_assoc]

end Changes

/-! ### Objectives in terms of other columns -/

/-- Wherever the tableau holds, an objective has the value of a row. -/
def Billed (t : Tableau Rat) (objective : Column) (bill : Row Rat) : Prop :=
  ∀ σ, t.Holds σ → σ objective = bill.eval σ

/-- A bill is paid in columns that the tableau knows. -/
theorem Billed.mem_scope (billed : t.Billed objective bill) (start : t.Sound)
    (plain : objective.isObjective = true) (stored : (t.rows.get? objective).isSome)
    (nonzero : bill.coefficient c ≠ 0) : c ∈ t.scope := by
  by_contra new
  have different : c ≠ objective := by
    rintro rfl
    exact new (Tableau.mem_scope.2 (.inl stored))
  have before := billed _ start.holds_basicSolution
  have after := billed _ ((start.holds_update_of_new new _ (t.basicSolution c + 1)).2
    start.holds_basicSolution)
  rw [Function.update_of_ne (Ne.symm different), before, Row.eval_update_assignment] at after
  refine nonzero ?_
  linarith

/-- Changes that leave an objective and the columns of its bill alone move the bill by a constant. -/
theorem Changes.billed (changes : Changes free moving t t') (start : t.Sound)
    (exact : t.tolerance = some 0) (billed : t.Billed objective bill) (kept : objective ∉ free)
    (paid : ∀ c, bill.coefficient c ≠ 0 → c ∉ free) :
    ∃ k, t'.Billed objective (bill.addConstant k) := by
  obtain ⟨shift, -, moved⟩ := changes.holds start exact
  refine ⟨bill.eval shift - bill.constant - shift objective, fun σ holds => ?_⟩
  obtain ⟨τ, before, same⟩ := moved σ holds
  have value : bill.eval τ = bill.eval σ + (bill.eval shift - bill.constant) := by
    rw [Row.eval_congr (τ := fun c => σ c + shift c) fun c nonzero => same c (paid c nonzero),
      Row.eval_add_assignment]
  have own := billed τ before
  rw [same objective kept, value] at own
  rw [Row.eval_addConstant]
  linarith

/-- Where no constant moves, the bill stays as it is. -/
theorem Changes.billed_of_still (changes : Changes free ∅ t t') (start : t.Sound)
    (exact : t.tolerance = some 0) (billed : t.Billed objective bill) (kept : objective ∉ free)
    (paid : ∀ c, bill.coefficient c ≠ 0 → c ∉ free) : t'.Billed objective bill := by
  obtain ⟨shift, still, moved⟩ := changes.holds start exact
  intro σ holds
  obtain ⟨τ, before, same⟩ := moved σ holds
  have unmoved {c : Column} (fixed : c ∉ free) : τ c = σ c := by
    rw [same c fixed, still c (Set.notMem_empty c), add_zero]
  rw [← unmoved kept, billed τ before]
  exact Row.eval_congr fun c nonzero => unmoved (paid c nonzero)

end SoftSimplex.Tableau
