import SoftSimplex.Proofs.Solver.Operating

/-!
What one suggestion does to the rows.

A suggestion changes constants only. The new rows hold exactly where the old ones hold once the second
marker of the edit is moved by the change, so they are the rows of the agenda on which the edit has its new
target (`Operated.suggestValue_spec`). That is so in each of the ways in which the change can enter the
tableau: through the row of either marker, or through every row that mentions the second one.
-/

namespace SoftSimplex

open Tableau

/-- The second marker of an equation raises its row. -/
theorem Markers.Fits.exists_sub {m : Markers Rat} {priority : Priority} (fits : m.Fits priority .eq) :
    ∃ sub, m.sub = some sub ∧ (sub, 1) ∈ m.terms := by
  cases fits with
  | @equation dummy isDummy =>
      refine ⟨dummy, rfl, ?_⟩
      rw [terms_same]
      exact List.mem_singleton_self _
  | @wishedEquation plus minus weight plusIsSlack minusIsSlack apart =>
      refine ⟨minus, rfl, ?_⟩
      rw [terms_pair apart (Column.not_dummy_of_pivotable (Column.pivotable_of_slack plusIsSlack))]
      exact List.mem_cons_of_mem _ (List.mem_singleton_self _)
  | bound unequal _ => exact absurd rfl unequal
  | wishedBound unequal _ _ _ => exact absurd rfl unequal
  | side _ unequal _ _ => exact absurd rfl unequal
  | turnedSide _ unequal _ _ => exact absurd rfl unequal

namespace Solver

variable {config : Config Rat} {agenda : List Entry} {items : List Item} {i : Item} {s s' : Solver Rat}
  {bound : ℕ} {v : Variable} {target value : Rat} {edit : Edit Rat}

/-- Where the target of an edit moved, the rows are obeyed exactly where the old ones are once the second
marker has moved by the change. -/
theorem Tends.obeys_suggested (tends : Tends config bound items s) (inside : i ∈ items) {change : Rat}
    {sub : Column} (own : (sub, 1) ∈ i.markers.terms)
    (tends' : Tends config bound (items.map (Item.changed (alone i.constraint.tag change)
      (Role.retargeted v value))) s') (σ : Column → Rat) :
    s'.tableau.Obeys σ ↔ s.tableau.Obeys (Function.update σ sub (σ sub + change)) := by
  obtain ⟨k, carries⟩ := tends.priced.carries
  obtain ⟨k', carries'⟩ := tends'.priced.carries
  rw [posedOf_changed] at carries'
  have family := carries.family
  rw [Solver.tableau, Solver.tableau, carries.represents.obeys_iff family,
    carries'.represents.obeys_iff carries'.family, moved, List.forall_mem_map]
  refine forall₂_congr fun q member => ?_
  rw [family.equation_update (mem_posedOf inside) own change member, one_mul]

/-- Whatever operations were answered before, also if suggestions are pending, a suggestion for a variable
that can be edited is answered and changes nothing of the tableau but constants and what awaits repair. An
assignment obeys the new rows exactly if it obeys the old ones once the second marker of the edit is raised
by the change of its value, so that they are the rows of the agenda with the new target. If the negative
rows were recorded they are so afterwards. -/
theorem Operated.suggestValue_spec (settings : config.Exact)
    (operated : Operated config (fun _ _ => Operation.Named) agenda s) (v : Variable) (edit : Edit Rat)
    (found : s.edit? v = some edit) (value : Rat) :
    ∃ t, (suggestValue v value).run s = (.ok (), s.suggested v value t) ∧ s.tableau.Alike t ∧
      (∃ sub, edit.markers.sub = some sub ∧
        ∀ σ, t.Obeys σ ↔ s.tableau.Obeys (Function.update σ sub (σ sub + (value - edit.current)))) ∧
      Embodies (retargeted v value agenda) (s.suggested v value t) ∧
      ((∀ key row, s.tableau.rows.get? key = some row → key.isRestricted = true → row.constant < 0 →
          key ∈ s.tableau.infeasible) →
        ∀ key row, t.rows.get? key = some row → key.isRestricted = true → row.constant < 0 →
          key ∈ t.infeasible) := by
  obtain ⟨items, tends, rfl⟩ := operated.tends settings fun _ _ _ => id
  obtain ⟨i, inside, d, target, role, rfl⟩ := tends.exists_of_edit? found
  obtain ⟨t, ran, shifted, -, tends'⟩ := tends.suggested inside role found value
  obtain ⟨sub, second, own⟩ := (tends.fits_of_edit inside role).exists_sub
  refine ⟨t, ran, shifted.alike, ⟨sub, second, tends.obeys_suggested inside own tends'⟩, ?_,
    fun all => (shifted.tracked ⟨(operated.coherent settings).sound.recorded, all⟩).all⟩
  have embodies := tends'.embodies
  rwa [agendaOf_changed] at embodies

/-- The solver that keeps an unknown below two. Three was suggested for it and solved for, and then five. -/
def overdrawn : Solver Rat :=
  ((Step.forEach [.command (.add atMostTwo), .command (.beginEdit [.edit ⟨"x", 0⟩ none]),
    .command (.suggest [(⟨"x", 0⟩, 3)]), .command (.suggestValue ⟨"x", 0⟩ 5)] Operation.step).run
      (create exactSettings)).2

/-- The row of the first marker takes the next suggestion up alone, and becomes negative. The rows are those
in which the second marker moved. -/
theorem suggestValue_spec_overdrawn :
    let x : Variable := ⟨"x", 0⟩
    let first : Column := .symbol ⟨.slack, "ep1", 3⟩
    let second : Column := .symbol ⟨.slack, "em1", 4⟩
    ∃ agenda edit t, Operated exactSettings (fun _ _ => Operation.Named) agenda overdrawn ∧
      overdrawn.needsRepair = true ∧ overdrawn.edit? x = some edit ∧
      (suggestValue x 1).run overdrawn = (.ok (), overdrawn.suggested x 1 t) ∧
      (t.rows.get? first).map (·.constant) = some (-1) ∧ first ∈ t.infeasible ∧
      (∀ σ, t.Obeys σ ↔ overdrawn.tableau.Obeys (Function.update σ second (σ second - 4))) ∧
      Embodies (retargeted x 1 agenda) (overdrawn.suggested x 1 t) := by
  intro x first second
  obtain ⟨_, ran⟩ := Step.run_of_isOk (show ((Step.forEach [.command (.add atMostTwo),
    .command (.beginEdit [.edit x none]), .command (.suggest [(x, 3)]),
    .command (.suggestValue x 5)] Operation.step).run (create exactSettings)).1.isOk = true by
      decide +kernel)
  obtain ⟨agenda, operated⟩ : ∃ agenda,
      Operated exactSettings (fun _ _ => Operation.Named) agenda overdrawn :=
    Operated.created.forEach (by simp [Operation.Named, atMostTwo]) ran
  have known : (overdrawn.edit? x).map (fun edit => (edit.markers.sub, edit.current)) =
      some (some second, 5) := by decide +kernel
  obtain ⟨edit, found, same⟩ := Option.map_eq_some_iff.1 known
  obtain ⟨sub, current⟩ := Prod.mk.inj same
  obtain ⟨t, suggested, -, ⟨sub', own, obeys⟩, embodies, -⟩ :=
    Operated.suggestValue_spec exact_exactSettings operated x edit found 1
  obtain rfl := Option.some.inj (own.symm.trans sub)
  have moved : ((suggestValue x 1).run overdrawn).2.tableau = t := by
    rw [suggested]
    rfl
  refine ⟨agenda, edit, t, operated, by decide +kernel, found, suggested, ?_, ?_, fun σ => ?_, embodies⟩
  · rw [← moved]
    decide +kernel
  · rw [← moved]
    decide +kernel
  · rw [obeys, current, show ((1 : Rat) - 5) = -4 by norm_num, sub_eq_add_neg]

end Solver

end SoftSimplex
