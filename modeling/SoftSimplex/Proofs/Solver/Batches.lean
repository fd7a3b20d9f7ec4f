import Mathlib.Algebra.BigOperators.Ring.Finset
import SoftSimplex.Proofs.Solver.Truthfulness
import SoftSimplex.Proofs.Tableau.Endless
import SoftSimplex.Proofs.Tableau.Twins

/-!
Batches of suggestions.

A suggestion moves the constant of each row by the change of the edited value, at a rate that depends on the
terms of the rows only (`rate`). So what a batch moves is a sum over the edited variables, in which their last
values count and nothing else (`Coherent.suggestedAll`). What awaits repair does depend on the values in
between, but no pivot of the dual method does (`batch_spec`).
-/

namespace SoftSimplex

namespace Tableau

variable {t t' t'' : Tableau Rat} {amount amount' : Column → Rat}

/-- The constant of each row moved by an amount, and what became negative was recorded. -/
structure Offset (t : Tableau Rat) (amount : Column → Rat) (t' : Tableau Rat) : Prop where
  alike : t.Alike t'
  tracked : t.Tracked → t'.Tracked
  rows : ∀ key, t'.rows.get? key = (t.rows.get? key).map fun row =>
    { row with constant := row.constant + amount key }

namespace Offset

theorem refl (t : Tableau Rat) : t.Offset (fun _ => 0) t where
  alike := .refl t
  tracked := id
  rows key := by simp

theorem trans (first : t.Offset amount t') (second : t'.Offset amount' t'') :
    t.Offset (fun key => amount key + amount' key) t'' where
  alike := first.alike.trans second.alike
  tracked := second.tracked ∘ first.tracked
  rows key := by
    rw [second.rows, first.rows, Option.map_map]
    refine congrArg (fun f => (t.rows.get? key).map f) (funext fun row => ?_)
    simp [add_assoc]

/-- What moves alike differs in what awaits repair. -/
theorem twin (first : t.Offset amount t') (second : t.Offset amount t'') : t'.Twin t'' := by
  have rows : t''.rows = t'.rows := Sorted.Map.ext_get? fun key => by rw [second.rows, first.rows]
  have a := first.alike
  have b := second.alike
  refine ⟨t''.infeasible, ?_⟩
  calc t'' = ⟨t''.tolerance, t''.rows, t''.index, t''.infeasible, t''.basicVariables,
        t''.parametricVariables, t''.logged⟩ := rfl
    _ = t'.awaiting t''.infeasible := by
      rw [rows, b.tolerance, b.index, b.basics, b.parametric, b.logged, ← a.tolerance, ← a.index,
        ← a.basics, ← a.parametric, ← a.logged]
      rfl

end Offset

end Tableau

namespace Solver

open Tableau

variable {s s' : Solver Rat} {t t' : Tableau Rat} {m : Markers Rat} {key column : Column}
  {v w : Variable} {value change sign : Rat} {priority : Priority} {comparator : Comparator}
  {batch : Values Rat} {session : Session Rat} {edit : Edit Rat}

/-! ### One suggestion -/

/-- How far the constant of a row moves when an edited value rises by one. -/
def rate (t : Tableau Rat) (m : Markers Rat) (key : Column) : Rat :=
  match basicMarker? t m with
  | some (column, sign) => if column = key then sign else 0
  | none => (m.sub.bind fun column => (t.rows.get? key).map (·.coefficient column)).getD 0

/-- Rates do not depend on constants. -/
theorem rate_of_alike (alike : t.Alike t') (m : Markers Rat) (key : Column) :
    rate t' m key = rate t m key := by
  have inside (column : Column) : t'.isBasic column = t.isBasic column := alike.isSome_eq column
  have basic : basicMarker? t' m = basicMarker? t m := by simp only [basicMarker?, inside]
  have coefficient (column : Column) : (t'.rows.get? key).map (·.coefficient column) =
      (t.rows.get? key).map (·.coefficient column) := by
    have terms := congrArg (Option.map fun terms => (Row.mk terms (0 : Rat)).coefficient column)
      (alike.terms key)
    rwa [Option.map_map, Option.map_map] at terms
  simp only [rate, basic, coefficient]

/-- Moving the constants for an edited value moves each at its rate. -/
theorem run_shift_offset (exact : t.Exact) (fits : m.Fits priority comparator) (change : Rat) :
    ∃ t', (shift m change).run t = (.ok (), t') ∧ t.Offset (fun key => rate t m key * change) t' := by
  cases basic : basicMarker? t m with
  | some marker =>
      obtain ⟨column, sign⟩ := marker
      obtain ⟨own, stored⟩ := of_basicMarker? basic
      obtain ⟨row, found⟩ := Option.isSome_iff_exists.1 stored
      have same : (t.setConstant column (row.constant + sign * change)).markIfNegative column
          (row.constant + sign * change) = t.restated column (row.constant + sign * change) := by
        rw [restated, markIfRestricted, if_pos (fits.restricted own)]
      refine ⟨_, run_shift_of_basic basic found change, ?_⟩
      rw [same]
      refine ⟨alike_restated exact.exact _ _, fun before => Tracked.restated exact.exact before _ _,
        fun key => ?_⟩
      rw [rows_restated exact.exact, get?_setConstant, rate, basic]
      dsimp only
      by_cases here : column = key
      · subst here
        simp [found]
      · simp [here]
  | none =>
      cases sub : m.sub with
      | none =>
          have still : (shift m change).run t = (.ok (), t) := by
            rw [shift, Step.run_bind_get, basic]
            dsimp only
            rw [sub]
            rfl
          have zero : (fun key => rate t m key * change) = fun _ => 0 := by
            funext key
            rw [rate, basic, sub]
            exact zero_mul change
          exact ⟨t, still, zero ▸ .refl t⟩
      | some column =>
          obtain ⟨t', ran, alike, tracked, swept⟩ := run_sweep exact column change
          refine ⟨t', (run_shift_of_outside basic sub change).trans ran, alike, tracked, fun key => ?_⟩
          rw [swept, rate, basic, sub]
          cases t.rows.get? key <;> rfl

/-! ### Batches -/

/-- The value that an edit of a variable has: the one that was suggested last, or at first where the
variable was. -/
def edited (s : Solver Rat) (v : Variable) : Rat := ((s.edit? v).map (·.current)).getD 0

/-- How far the constant of a row moves when the value of an edited variable rises by one. -/
def editRate (s : Solver Rat) (v : Variable) (key : Column) : Rat :=
  ((s.edit? v).map fun edit => rate s.tableau edit.markers key).getD 0

/-- The value of a variable after a batch of suggestions: the last one for it, or the one before. -/
def lastSuggested (batch : Values Rat) (v : Variable) (before : Rat) : Rat :=
  batch.foldl (fun value entry => if entry.1 = v then entry.2 else value) before

/-- How far the constant of a row moves when edited variables get other values. -/
def drift (s : Solver Rat) (edits : Finset Variable) (values : Variable → Rat) (key : Column) : Rat :=
  ∑ v ∈ edits, s.editRate v key * (values v - s.edited v)

/-- Edited variables got other values, and the constants of the tableau moved with them. -/
structure Adjusted (s : Solver Rat) (edits : Finset Variable) (values : Variable → Rat)
    (s' : Solver Rat) : Prop where
  coherent : s'.Coherent True .free
  simplex : s'.simplex = s.simplex.withTableau s'.tableau
  offset : s.tableau.Offset (s.drift edits values) s'.tableau
  recorded : ∀ v, s'.edit? v = (s.edit? v).map fun edit => { edit with current := values v }

variable {edits : Finset Variable} {values values' : Variable → Rat} {s'' : Solver Rat}

/-- Batches with the same last values move the constants alike. -/
theorem drift_lastSuggested_congr {first second : Values Rat} (edits : Finset Variable)
    (same : ∀ v edit, s.edit? v = some edit →
      lastSuggested first v edit.current = lastSuggested second v edit.current) :
    (s.drift edits fun v => lastSuggested first v (s.edited v)) =
      s.drift edits fun v => lastSuggested second v (s.edited v) := by
  funext key
  refine Finset.sum_congr rfl fun v _ => ?_
  cases found : s.edit? v with
  | none => simp [editRate, found]
  | some edit =>
      have value : s.edited v = edit.current := by simp [edited, found]
      dsimp only
      rw [value, same v edit found]

theorem Coherent.adjusted_refl (coherent : s.Coherent True .free) : s.Adjusted edits s.edited s where
  coherent := coherent
  simplex := rfl
  offset := by
    have still : s.drift edits s.edited = fun _ => 0 := by
      funext key
      simp [drift]
    exact still ▸ .refl s.tableau
  recorded v := by
    cases found : s.edit? v with
    | none => rfl
    | some edit => simp [edited, found]

namespace Adjusted

variable (adjusted : s.Adjusted edits values s')
include adjusted

theorem hasEdit_eq (v : Variable) : s'.hasEdit v = s.hasEdit v := by
  rw [hasEdit, adjusted.recorded, Option.isSome_map, hasEdit]

theorem edited_eq (known : s.hasEdit v = true) : s'.edited v = values v := by
  obtain ⟨edit, found⟩ := Option.isSome_iff_exists.1 known
  rw [edited, adjusted.recorded, found]
  rfl

theorem editRate_eq (v : Variable) (key : Column) : s'.editRate v key = s.editRate v key := by
  rw [editRate, adjusted.recorded, Option.map_map, editRate]
  cases s.edit? v with
  | none => rfl
  | some edit => exact rate_of_alike adjusted.offset.alike edit.markers key

/-- What is moved twice is moved to the later values. -/
theorem trans (later : s'.Adjusted edits values' s'') : s.Adjusted edits values' s'' where
  coherent := later.coherent
  simplex := by
    rw [later.simplex, adjusted.simplex]
    rfl
  offset := by
    have total : (fun key => s.drift edits values key + s'.drift edits values' key) =
        s.drift edits values' := by
      funext key
      rw [drift, drift, drift, ← Finset.sum_add_distrib]
      refine Finset.sum_congr rfl fun v _ => ?_
      rw [adjusted.editRate_eq]
      cases known : s.hasEdit v with
      | true => rw [adjusted.edited_eq known]; ring
      | false =>
          have unknown : s.edit? v = none := by simpa [hasEdit] using known
          have free : s.editRate v key = 0 := by simp [editRate, unknown]
          simp [free]
    exact total ▸ adjusted.offset.trans later.offset
  recorded v := by
    rw [later.recorded, adjusted.recorded, Option.map_map]
    rfl

end Adjusted

/-- A suggestion for an edited variable moves the constants with its value. -/
theorem Coherent.adjusted_suggestValue (coherent : s.Coherent True .free) (known : s.hasEdit v = true)
    (inside : v ∈ edits) (value : Rat) :
    ∃ s', (suggestValue v value).run s = (.ok (), s') ∧
      s.Adjusted edits (Function.update s.edited v value) s' := by
  obtain ⟨edit, found⟩ := Option.isSome_iff_exists.1 known
  obtain ⟨session, member, search⟩ := List.exists_of_findSome?_eq_some found
  obtain ⟨entry, listed, rfl⟩ := Option.map_eq_some_iff.1 search
  obtain ⟨priority, comparator, fits⟩ :=
    coherent.edits session member entry (List.mem_of_find?_eq_some listed)
  obtain ⟨t', shifted, offset⟩ :=
    run_shift_offset (coherent.exact) fits (value - entry.2.current)
  have ran := run_suggestValue found shifted
  have minds := (fares_suggestValue coherent v value (absurd · Restraint.free_ne_still)).reaches
  rw [ran] at minds
  refine ⟨_, ran, (minds coherent).1, rfl, ?_, fun w => ?_⟩
  · have amount : s.drift edits (Function.update s.edited v value) =
        fun key => rate s.tableau entry.2.markers key * (value - entry.2.current) := by
      funext key
      rw [drift, Finset.sum_eq_single_of_mem v inside fun w _ other => ?_]
      · simp [editRate, edited, found]
      · simp [other]
    exact amount ▸ offset
  · have recorded : (s.suggested v value t').edit? w = if v = w then
        (s.edit? w).map fun edit => { edit with current := value } else s.edit? w :=
      edit?_recordSuggested s.sessions v w value
    rw [recorded]
    by_cases same : v = w
    · subst same
      rw [if_pos rfl, Function.update_self]
    · rw [if_neg same, Function.update_of_ne (Ne.symm same)]
      cases other : s.edit? w with
      | none => rfl
      | some edit => simp [edited, other]

/-- A batch of suggestions moves the constants with the last value of each variable. -/
theorem Coherent.adjusted_suggestedAll (coherent : s.Coherent True .free)
    (known : ∀ entry ∈ batch, s.hasEdit entry.1 = true) (inside : ∀ entry ∈ batch, entry.1 ∈ edits) :
    ∃ s', (Step.forEach batch fun entry => suggestValue entry.1 entry.2).run s = (.ok (), s') ∧
      s.Adjusted edits (fun v => lastSuggested batch v (s.edited v)) s' := by
  induction batch generalizing s with
  | nil => exact ⟨s, rfl, coherent.adjusted_refl⟩
  | cons entry rest ih =>
      obtain ⟨v, value⟩ := entry
      have own := known _ List.mem_cons_self
      obtain ⟨s₁, first, adjusted⟩ :=
        coherent.adjusted_suggestValue own (inside _ List.mem_cons_self) value
      obtain ⟨s', later, adjusted'⟩ := ih adjusted.coherent
        (fun other member => (adjusted.hasEdit_eq other.1).trans
          (known other (List.mem_cons_of_mem _ member)))
        fun other member => inside other (List.mem_cons_of_mem _ member)
      refine ⟨s', (Step.run_bind_of_ok first).trans later, ?_⟩
      have last : (fun w => lastSuggested rest w (s₁.edited w)) =
          fun w => lastSuggested ((v, value) :: rest) w (s.edited w) := by
        funext w
        refine congrArg (lastSuggested rest w) ?_
        cases editable : s.hasEdit w with
        | true => rw [adjusted.edited_eq editable, Function.update_apply]; simp only [eq_comm]
        | false =>
            have other : v ≠ w := by
              rintro rfl
              rw [own] at editable
              cases editable
            have unknown : s.edit? w = none := by simpa [hasEdit] using editable
            simp [edited, adjusted.recorded, unknown, other]
      exact last ▸ adjusted.trans adjusted'

/-! ### Batches that are solved for -/

theorem quiet_suggestValue (v : Variable) (value : Rat) : (suggestValue v value).Quiet := by
  have row (column : Column) (change : Rat) (key : Column) : (shiftRow column change key).Quiet :=
    .bind_get fun _ => (Step.quiet_ofOption _ _).bind fun _ => (Step.quiet_ofOption _ _).bind fun _ =>
      (Step.quiet_ofExcept _).bind fun _ => Step.quiet_set _
  have moving (m : Markers Rat) (change : Rat) : (shift m change).Quiet := by
    refine .bind_get fun t => ?_
    split
    · exact (Step.quiet_ofOption _ _).bind fun _ => (Step.quiet_ofExcept _).bind fun _ =>
        Step.quiet_set _
    · split
      · exact Step.quiet_pure ()
      · exact .forEach fun key => row _ change key
  refine .bind_get fun s => ?_
  split
  · exact Step.quiet_fail _
  · exact (Step.quiet_ofExcept _).bind fun _ => (Step.quiet_modify _).bind fun _ =>
      (Step.quiet_ensure _ _).bind fun _ => (Step.quiet_report rfl).bind fun _ => (moving _ _).zoom.zoom

/-- Reading the values does not depend on what awaits repair. -/
theorem together_readValues (goal : s'.simplex.goal = s.simplex.goal)
    (twin : s.tableau.Twin s'.tableau) :
    Step.Together (fun _ _ => True) (readValues s) (readValues s') := by
  have read : s'.simplex.solution? = s.simplex.solution? := by
    obtain ⟨rest, same⟩ := twin
    have tableau : s'.simplex.tableau = s.simplex.tableau.awaiting rest := same
    rw [Simplex.solution?, Simplex.solution?, Simplex.values, Simplex.values, tableau, goal]
    rfl
  have evaluated : Step.Together (fun _ _ => True) (onSimplex Simplex.evaluate s)
      (onSimplex Simplex.evaluate s') := by
    refine .zoom (Q := fun _ _ => True) ?_ fun _ _ _ => trivial
    rw [Simplex.evaluate, Step.bind_get_apply, Step.bind_get_apply, read]
    exact .ofExcept _ trivial
  exact evaluated.bind (fun _ _ => id) fun solution _ _ _ => ⟨rfl, rfl, trivial⟩

theorem together_solveRepaired (goal : s'.simplex.goal = s.simplex.goal)
    (matched : s.tableau.Matched s'.tableau) :
    Step.Together (fun _ _ => True) (solveRepaired s) (solveRepaired s') := by
  have matched' : s.simplex.tableau.Matched s'.simplex.tableau := matched
  have inner : Step.Together
      (fun u u' : Simplex Rat => u'.goal = u.goal ∧ u.tableau.Twin u'.tableau)
      (Simplex.repair .objective s.simplex) (Simplex.repair .objective s'.simplex) := by
    rw [Simplex.repair, Simplex.onTableau]
    exact .zoom (matched'.together_repair .objective) fun _ _ twin => ⟨goal, twin⟩
  have repaired : Step.Together
      (fun u u' : Solver Rat => u'.simplex.goal = u.simplex.goal ∧ u.tableau.Twin u'.tableau)
      (onSimplex Simplex.repair s) (onSimplex Simplex.repair s') := inner.zoom fun _ _ => id
  refine repaired.bind (fun _ _ _ => trivial) fun _ u u' related => ?_
  refine (together_readValues related.1 related.2).bind (fun _ _ => id) fun values _ _ _ => ?_
  exact ⟨rfl, rfl, trivial⟩

/-- A solver whose repair fails does not answer. -/
theorem result_solveRepaired_of_error {fault : Fault Rat}
    (failed : ((repair .objective).run s.tableau).1 = .error fault) :
    (solveRepaired s).result = .error fault := by
  have inner : (onSimplex Simplex.repair).run s = (.error fault, _) :=
    run_onSimplex_of_error (Simplex.run_onTableau_of_error (Prod.ext failed rfl))
  exact congrArg Prod.fst (Step.run_bind_of_error inner)

theorem Coherent.workable (coherent : s.Coherent True .free) (tracked : s.tableau.Tracked) :
    s.tableau.Workable .objective := ⟨coherent.exact, tracked, coherent.intact.stored⟩

/-- Where the negative rows are recorded a repaired solver answers, or it cannot be repaired, or its repair
never ends, which may happen only if its objective is not optimal. -/
theorem Coherent.solveRepaired_cases (coherent : s.Coherent True .free) (tracked : s.tableau.Tracked) :
    (∃ values, (solveRepaired s).result = .ok values) ∨
      (solveRepaired s).result = .error .dualFailed ∨
      (solveRepaired s).result = .error .unfinished ∧ s.tableau.Endless .objective ∧
        ¬s.tableau.Optimized := by
  rcases (coherent.workable tracked).repair_cases rfl with answered | failed | ⟨failed, endless, spoiled⟩
  · obtain ⟨s₁, inner⟩ : ∃ s₁, (onSimplex Simplex.repair).run s = (.ok (), s₁) :=
      ⟨_, run_onSimplex_of_ok (Simplex.run_onTableau_of_ok (Prod.ext answered rfl))⟩
    have fares := (fares_repair coherent).reaches
    rw [inner] at fares
    obtain ⟨goal, stored⟩ := Option.isSome_iff_exists.1 (fares coherent).1.intact.stored
    obtain ⟨solution, read⟩ : ∃ solution, (onSimplex Simplex.evaluate).run s₁ = (.ok solution, s₁) :=
      ⟨_, run_onSimplex_of_ok (Simplex.run_evaluate stored)⟩
    refine .inl ⟨solution.values, ?_⟩
    change (solveRepaired.run s).1 = _
    rw [solveRepaired, Step.run_bind_of_ok inner, readValues,
      Step.run_bind_of_ok (Step.run_bind_of_ok read)]
    rfl
  · exact .inr (.inl (result_solveRepaired_of_error failed))
  · refine .inr (.inr ⟨result_solveRepaired_of_error failed, endless, fun optimized => spoiled ?_⟩)
    obtain ⟨goal, stored⟩ := Option.isSome_iff_exists.1 coherent.intact.stored
    exact ⟨goal, stored, optimized goal stored⟩

theorem checkSuggestions_eq (known : ∀ entry ∈ batch, s.hasEdit entry.1 = true) :
    s.checkSuggestions batch = .ok batch := by
  induction batch with
  | nil => rfl
  | cons entry rest ih =>
      obtain ⟨first, others⟩ := List.forall_mem_cons.1 known
      rw [checkSuggestions, if_pos first, Scalar.settled_rat, Step.checked_rat, ih others]
      rfl

/-- Suggesting values makes the pivots that repair the solver after the last of them. -/
theorem suggest_apply (known : ∀ entry ∈ batch, s.hasEdit entry.1 = true)
    (applied : (Step.forEach batch fun entry => suggestValue entry.1 entry.2).run s = (.ok (), s')) :
    (suggest batch s).result = (solveRepaired s').result ∧
      (suggest batch s).pivots = (solveRepaired s').pivots := by
  have same : suggest batch s =
      ((Step.forEach batch fun entry => suggestValue entry.1 entry.2) >>= fun _ => solveRepaired) s := by
    rw [suggest, Step.bind_get_apply, checkSuggestions_eq known, Step.bind_ofExcept_ok_apply]
  obtain ⟨answered, rfl⟩ := Prod.mk.inj applied
  have quiet : (Step.forEach batch fun entry => suggestValue entry.1 entry.2).Quiet :=
    .forEach fun entry => quiet_suggestValue entry.1 entry.2
  rw [same]
  refine ⟨by rw [Step.run_bind_ok answered], ?_⟩
  rw [Step.pivots_bind_of_ok answered, quiet, List.nil_append]

variable {config : Config Rat}

/-- Without tolerance, what a batch of suggestions comes to depends only on the last value for each variable,
whatever calls were made before, if the negative rows are recorded. Batches that agree on these values move
the rows alike, make the same pivots, and answer with the same values or cannot be repaired, if the objective
is optimal. If it is not, as it may be after a refused constraint, both may also be repaired without end, and
then suggesting does not return. -/
theorem batch_spec (tolerance : config.tolerance = some 0)
    (weights : ∀ strength w, config.weights strength = some w → 0 ≤ w)
    (runs : (create config).Runs s)
    (recorded : ∀ key row, s.tableau.rows.get? key = some row → key.isRestricted = true →
      row.constant < 0 → key ∈ s.tableau.infeasible)
    {first second : Values Rat} (known : ∀ entry ∈ first ++ second, s.hasEdit entry.1 = true)
    (same : ∀ v edit, s.edit? v = some edit →
      lastSuggested first v edit.current = lastSuggested second v edit.current) :
    ∃ s₁ s₂,
      (Step.forEach first fun entry => suggestValue entry.1 entry.2).run s = (.ok (), s₁) ∧
      (Step.forEach second fun entry => suggestValue entry.1 entry.2).run s = (.ok (), s₂) ∧
      s₁.tableau.rows = s₂.tableau.rows ∧
      (suggest first s).pivots = (suggest second s).pivots ∧
      (suggest first s).result = (suggest second s).result ∧
      ((∃ values, (suggest first s).result = .ok values) ∨
        (suggest first s).result = .error .dualFailed ∨
        (suggest first s).result = .error .unfinished ∧ ¬s.tableau.Optimized ∧
          s₁.tableau.Endless .objective ∧ s₂.tableau.Endless .objective) := by
  let edits := ((first ++ second).map (·.1)).toFinset
  have inside : ∀ entry ∈ first ++ second, entry.1 ∈ edits := fun entry member =>
    List.mem_toFinset.2 (List.mem_map_of_mem member)
  obtain ⟨known₁, known₂⟩ := List.forall_mem_append.1 known
  obtain ⟨inside₁, inside₂⟩ := List.forall_mem_append.1 inside
  have coherent := runs.coherent tolerance weights
  have tracked : s.tableau.Tracked := ⟨coherent.sound.recorded, recorded⟩
  obtain ⟨s₁, applied₁, adjusted₁⟩ := coherent.adjusted_suggestedAll known₁ inside₁
  obtain ⟨s₂, applied₂, adjusted₂⟩ := coherent.adjusted_suggestedAll known₂ inside₂
  have offset := adjusted₂.offset
  rw [← drift_lastSuggested_congr edits same] at offset
  have twin := adjusted₁.offset.twin offset
  have matched : s₁.tableau.Matched s₂.tableau :=
    ⟨twin, adjusted₁.coherent.exact, adjusted₁.offset.tracked tracked, offset.tracked tracked⟩
  have goal : s₂.simplex.goal = s₁.simplex.goal := by
    rw [adjusted₁.simplex, adjusted₂.simplex]
    rfl
  have together := together_solveRepaired goal matched
  obtain ⟨result₁, pivots₁⟩ := suggest_apply known₁ applied₁
  obtain ⟨result₂, pivots₂⟩ := suggest_apply known₂ applied₂
  refine ⟨s₁, s₂, applied₁, applied₂, twin.rows_eq.symm, ?_, ?_, ?_⟩
  · rw [pivots₁, pivots₂, together.pivots]
  · rw [result₁, result₂, together.result]
  · rw [result₁]
    rcases adjusted₁.coherent.solveRepaired_cases matched.tracked with
      answered | failed | ⟨cut, endless, spoiled⟩
    · exact .inl answered
    · exact .inr (.inl failed)
    · have spoiled' : ¬s.tableau.Optimized := by
        intro optimized
        exact spoiled (adjusted₁.offset.alike.optimized optimized)
      have endless' := endless.of_rows_eq (adjusted₁.coherent.workable matched.tracked)
        (adjusted₂.coherent.workable matched.tracked') rfl twin.rows_eq.symm
      exact .inr (.inr ⟨cut, spoiled', endless, endless'⟩)

/-- Where no constant is negative, nothing has to be recorded. -/
theorem recorded_of_nonneg (nonneg : (s.tableau.rows.toList.all fun entry =>
    decide (0 ≤ entry.2.constant)) = true) (key : Column) (row : Row Rat)
    (found : s.tableau.rows.get? key = some row) (_restricted : key.isRestricted = true)
    (negative : row.constant < 0) : key ∈ s.tableau.infeasible := by
  have above := List.all_eq_true.1 nonneg _ (Sorted.Map.get?_eq_some_iff.1 found)
  exact absurd (of_decide_eq_true above) (not_le.2 negative)

/-- The solver that bounds an unknown and lets it and another one be edited. -/
def adjustable : Solver Rat :=
  ((add atLeastOne >>= fun _ => beginEdit [.edit ⟨"x", 0⟩ none, .edit ⟨"y", 1⟩ none]).run
    (create exactSettings)).2

/-- The unknown is pulled below its bound and then up, or up at once: a row awaits repair in vain the one
time, and the values are the same. -/
theorem batch_spec_detour : ∃ s₁ s₂ values,
    (create exactSettings).Runs adjustable ∧
    (Step.forEach [(⟨"x", 0⟩, -5), (⟨"y", 1⟩, 1), (⟨"x", 0⟩, 3)] fun entry =>
      suggestValue entry.1 entry.2).run adjustable = (.ok (), s₁) ∧
    (Step.forEach [(⟨"x", 0⟩, 3), (⟨"y", 1⟩, 1)] fun entry =>
      suggestValue entry.1 entry.2).run adjustable = (.ok (), s₂) ∧
    s₁.tableau.infeasible.toList ≠ s₂.tableau.infeasible.toList ∧
    s₁.tableau.rows = s₂.tableau.rows ∧
    (suggest [(⟨"x", 0⟩, -5), (⟨"y", 1⟩, 1), (⟨"x", 0⟩, 3)] adjustable).result = .ok values ∧
    (suggest [(⟨"x", 0⟩, 3), (⟨"y", 1⟩, 1)] adjustable).result = .ok values ∧
    values.value ⟨"x", 0⟩ = 3 := by
  obtain ⟨answers, feasible, known, answered, reads, recorded⟩ :
      ((add atLeastOne >>= fun _ => beginEdit [.edit ⟨"x", 0⟩ none, .edit ⟨"y", 1⟩ none]).run
        (create exactSettings)).1.isOk = true ∧
      (adjustable.tableau.rows.toList.all fun entry => decide (0 ≤ entry.2.constant)) = true ∧
      (∀ entry ∈ [((⟨"x", 0⟩, -5) : Variable × Rat), (⟨"y", 1⟩, 1), (⟨"x", 0⟩, 3)] ++
        [(⟨"x", 0⟩, 3), (⟨"y", 1⟩, 1)], adjustable.hasEdit entry.1 = true) ∧
      ((suggest [(⟨"x", 0⟩, 3), (⟨"y", 1⟩, 1)]).run adjustable).1.isOk = true ∧
      ((suggest [(⟨"x", 0⟩, 3), (⟨"y", 1⟩, 1)]).run adjustable).1.toOption.map
        (·.value ⟨"x", 0⟩) = some 3 ∧
      ((Step.forEach [(⟨"x", 0⟩, -5), (⟨"y", 1⟩, 1), (⟨"x", 0⟩, 3)] fun entry =>
          suggestValue entry.1 entry.2).run adjustable).2.tableau.infeasible.toList ≠
        ((Step.forEach [(⟨"x", 0⟩, 3), (⟨"y", 1⟩, 1)] fun entry =>
          suggestValue entry.1 entry.2).run adjustable).2.tableau.infeasible.toList := by
    decide +kernel
  obtain ⟨_, ran⟩ := Step.run_of_isOk answers
  obtain ⟨_, s₁, first, second⟩ := Step.run_bind_eq_ok ran
  have runs : (create exactSettings).Runs adjustable :=
    (Relation.ReflTransGen.single ⟨.add atLeastOne, congrArg (·.2) first⟩).tail
      ⟨.beginEdit [.edit ⟨"x", 0⟩ none, .edit ⟨"y", 1⟩ none], congrArg (·.2) second⟩
  have weights : ∀ strength w, exactSettings.weights strength = some w → 0 ≤ w := by
    rintro strength w ⟨⟩
    exact (Nat.cast_add_one_pos strength).le
  obtain ⟨s₁, s₂, applied₁, applied₂, rows, -, result, -⟩ := batch_spec rfl weights runs
    (recorded_of_nonneg feasible) known fun v edit _ => by
      by_cases x : (⟨"x", 0⟩ : Variable) = v
      · simp [lastSuggested, ← x]
      · simp [lastSuggested, x]
  obtain ⟨values, solved⟩ := Step.run_of_isOk answered
  rw [solved] at reads
  rw [applied₁, applied₂] at recorded
  have answer : (suggest [(⟨"x", 0⟩, 3), (⟨"y", 1⟩, 1)] adjustable).result = .ok values :=
    congrArg Prod.fst solved
  exact ⟨s₁, s₂, values, runs, applied₁, applied₂, recorded, rows, result.trans answer, answer,
    Option.some.inj reads⟩

/-! ### A repair without end -/

/-- A sum of multiples of three unknowns is at least something. -/
def exceeds (n : ℕ) (a b c : Rat) (bound : LinExpr Rat) : Constraint Rat where
  tag := .given n
  left := .add (.add (.scale a (.variable ⟨"x", 1⟩)) (.scale b (.variable ⟨"y", 2⟩)))
    (.scale c (.variable ⟨"z", 3⟩))
  comparator := .ge
  right := bound

/-- Three unknowns are not negative and at most a thousand, and three of their sums are at least a fourth
unknown. One more sum is wanted to be at least one. -/
def slopes : List (Constraint Rat) :=
  [exceeds 0 1 0 0 (.constant 0), exceeds 1 0 1 0 (.constant 0), exceeds 2 0 0 1 (.constant 0),
    exceeds 3 2 (-1) (-1) (.variable ⟨"v", 0⟩), exceeds 4 1 3 (-4) (.variable ⟨"v", 0⟩),
    exceeds 5 0 2 (-2) (.variable ⟨"v", 0⟩), { exceeds 6 1 1 (-1) (.constant 1) with priority := .low },
    exceeds 7 (-1) 0 0 (.constant (-1000)), exceeds 8 0 (-1) 0 (.constant (-1000)),
    exceeds 9 0 0 (-1) (.constant (-1000))]

/-- The first of the three is to be negative. -/
def belowZero : Constraint Rat :=
  { exceeds 10 1 0 0 (.constant (-1)) with comparator := .le }

/-- The solver that lets the fourth unknown be edited by a required edit, and was asked in vain for a negative
one: its objective row is where the refused constraint left it. -/
def slanted : Solver Rat :=
  (create exactSettings).called
    (.beginEdit [.edit ⟨"v", 0⟩ (some (.priority .required))] :: (slopes ++ [belowZero]).map .add)

/-- The value that is suggested can be had, and no row awaits repair before. Six turns lead the repair back to
where it was after the first. -/
theorem suggest_endless : (create exactSettings).Runs slanted ∧
    (∀ key row, slanted.tableau.rows.get? key = some row → key.isRestricted = true →
      row.constant < 0 → key ∈ slanted.tableau.infeasible) ∧
    slanted.hasEdit ⟨"v", 0⟩ = true ∧ (∃ x, x ⟨"v", 0⟩ = 1 ∧ ∀ c ∈ slopes, c.Holds x) ∧
    ∃ s', (suggestValue ⟨"v", 0⟩ 1).run slanted = (.ok (), s') ∧ s'.tableau.Endless .objective ∧
      (suggest [(⟨"v", 0⟩, 1)] slanted).result = .error .unfinished := by
  have runs : (create exactSettings).Runs slanted := runs_called _ _
  obtain ⟨feasible, known, cut, basis⟩ :
      (slanted.tableau.rows.toList.all fun entry => decide (0 ≤ entry.2.constant)) = true ∧
      slanted.hasEdit ⟨"v", 0⟩ = true ∧
      (match ((repairWithin .objective 7).run
          ((suggestValue ⟨"v", 0⟩ 1).run slanted).2.tableau).1 with
        | .error .unfinished => true
        | _ => false) = true ∧
      ((repairWithin .objective 1).run
          ((suggestValue ⟨"v", 0⟩ 1).run slanted).2.tableau).2.rows.keys =
        ((repairWithin .objective 7).run
          ((suggestValue ⟨"v", 0⟩ 1).run slanted).2.tableau).2.rows.keys := by
    decide +kernel
  have recorded := recorded_of_nonneg feasible
  have coherent : slanted.Coherent True .free := by
    refine runs.coherent rfl ?_
    rintro strength w ⟨⟩
    exact (Nat.cast_add_one_pos strength).le
  obtain ⟨s', applied, adjusted⟩ :=
    coherent.adjusted_suggestValue known (Finset.mem_singleton_self _) 1
  rw [applied] at cut basis
  have workable := adjusted.coherent.workable
    (adjusted.offset.tracked ⟨coherent.sound.recorded, recorded⟩)
  have endless : s'.tableau.Endless .objective := by
    refine workable.endless_of_return rfl (by norm_num : 1 < 7) ?_ basis
    split at cut
    · assumption
    · cases cut
  refine ⟨runs, recorded, known, ?_, s', applied, endless, ?_⟩
  · refine ⟨fun v => if v.name = "z" then 0 else 1, rfl, ?_⟩
    have holds : (slopes.all fun c => c.isSatisfied (fun v => if v.name = "z" then 0 else 1) 0) = true := by
      decide +kernel
    intro c listed
    exact (c.isSatisfied_zero _).1 (List.all_eq_true.1 holds c listed)
  · have batch : (Step.forEach [((⟨"v", 0⟩, 1) : Variable × Rat)] fun entry =>
        suggestValue entry.1 entry.2).run slanted = (.ok (), s') :=
      Step.run_forEach_cons_of_ok applied
    rw [(suggest_apply (List.forall_mem_singleton.2 known) batch).1]
    exact result_solveRepaired_of_error (by
      rw [repair, Step.run_bind_get]
      exact endless _)

end Solver

end SoftSimplex
