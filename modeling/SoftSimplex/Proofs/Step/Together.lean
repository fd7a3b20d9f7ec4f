import SoftSimplex.Proofs.Step.Run

/-!
The pivots that steps make, and two steps side by side.

Many steps make no pivot (`Quiet`). States may differ in what a step does not look at: from such states it
answers alike or fails alike, it makes the same pivots, and the states that it leaves differ no more than
before (`Together`). There is one rule for each way to build a step.
-/

namespace SoftSimplex

variable {K σ τ α β : Type}

/-- The columns that an event reports to change places: the entering one and the leaving one. -/
def Event.pivot? : Event K → Option (Column × Column)
  | .pivoting entry exit => some (entry, exit)
  | _ => none

/-- The pivots that were made, in order. -/
def Outcome.pivots (o : Outcome K σ α) : List (Column × Column) := o.events.filterMap Event.pivot?

namespace Step

/-! ### Steps that only look -/

theorem bind_get_apply (next : σ → Step K σ β) (s : σ) :
    ((get : Step K σ σ) >>= next) s = next s s := rfl

theorem bind_set_apply (s' : σ) (next : Unit → Step K σ β) (s : σ) :
    ((set s' : Step K σ Unit) >>= next) s = next () s' := rfl

theorem bind_ofOption_some_apply (fault : Fault K) (a : α) (next : α → Step K σ β) (s : σ) :
    ((ofOption fault (some a) : Step K σ α) >>= next) s = next a s := rfl

theorem bind_ofExcept_ok_apply (a : α) (next : α → Step K σ β) (s : σ) :
    ((ofExcept (.ok a) : Step K σ α) >>= next) s = next a s := rfl

theorem pivots_bind_of_ok {x : Step K σ α} {next : α → Step K σ β} {s : σ} {a : α}
    (answered : (x s).result = .ok a) :
    ((x >>= next) s).pivots = (x s).pivots ++ (next a (x s).state).pivots := by
  rw [run_bind_ok answered]
  exact List.filterMap_append

/-! ### Steps without pivots -/

/-- A step makes no pivot. -/
def Quiet (x : Step K σ α) : Prop := ∀ s, (x s).pivots = []

theorem quiet_pure (a : α) : (Step.pure a : Step K σ α).Quiet := fun _ => rfl

theorem quiet_fail (fault : Fault K) : (Step.fail fault : Step K σ α).Quiet := fun _ => rfl

theorem quiet_set (s : σ) : (Step.set s : Step K σ Unit).Quiet := fun _ => rfl

theorem quiet_modify (change : σ → σ) : (Step.modify change : Step K σ Unit).Quiet := fun _ => rfl

theorem quiet_report {event : Event K} (plain : event.pivot? = none) :
    (Step.report event : Step K σ Unit).Quiet := fun _ => by
  rw [Outcome.pivots, report, List.filterMap_cons_none plain, List.filterMap_nil]

theorem quiet_ofOption (fault : Fault K) (a : Option α) : (ofOption fault a : Step K σ α).Quiet := by
  cases a with
  | none => exact quiet_fail fault
  | some a => exact quiet_pure a

theorem quiet_ofExcept (computed : Except (Fault K) α) : (ofExcept computed : Step K σ α).Quiet := by
  cases computed with
  | error fault => exact quiet_fail fault
  | ok a => exact quiet_pure a

theorem quiet_ensure (fault : Fault K) (condition : Bool) :
    (ensure fault condition : Step K σ Unit).Quiet := by
  cases condition with
  | false => exact quiet_fail fault
  | true => exact quiet_pure ()

theorem Quiet.bind {x : Step K σ α} {next : α → Step K σ β} (first : x.Quiet)
    (second : ∀ a, (next a).Quiet) : (x >>= next).Quiet := by
  intro s
  cases answer : (x s).result with
  | error fault =>
      rw [run_bind_error answer]
      exact first s
  | ok a => rw [pivots_bind_of_ok answer, first, second a, List.append_nil]

theorem Quiet.bind_get {next : σ → Step K σ β} (second : ∀ s, (next s).Quiet) :
    ((get : Step K σ σ) >>= next).Quiet := fun s => second s s

theorem Quiet.forEach {items : List α} {x : α → Step K σ Unit} (each : ∀ item, (x item).Quiet) :
    (forEach items x).Quiet := by
  induction items with
  | nil => exact quiet_pure ()
  | cons item rest ih => exact (each item).bind fun _ => ih

theorem Quiet.zoom {part : σ → τ} {put : τ → σ → σ} {x : Step K τ α} (quiet : x.Quiet) :
    (x.zoom part put).Quiet := fun s => quiet (part s)

/-! ### Steps that go together -/

variable {R S : σ → τ → Prop} {s : σ} {s' : τ}

/-- Two outcomes have the same answer or fault and the same pivots, and their states are related. -/
structure Together (R : σ → τ → Prop) (first : Outcome K σ α) (second : Outcome K τ α) : Prop where
  result : first.result = second.result
  pivots : first.pivots = second.pivots
  state : R first.state second.state

theorem Together.pure (a : α) (related : R s s') :
    Together R ((Step.pure a : Step K σ α) s) ((Step.pure a : Step K τ α) s') := ⟨rfl, rfl, related⟩

theorem Together.fail (fault : Fault K) (related : R s s') :
    Together R ((Step.fail fault : Step K σ α) s) ((Step.fail fault : Step K τ α) s') :=
  ⟨rfl, rfl, related⟩

theorem Together.ofExcept (computed : Except (Fault K) α) (related : R s s') :
    Together R ((Step.ofExcept computed : Step K σ α) s) ((Step.ofExcept computed : Step K τ α) s') := by
  cases computed with
  | error fault => exact .fail fault related
  | ok a => exact .pure a related

/-- Two steps after two steps. -/
theorem Together.bind {x : Step K σ α} {y : Step K τ α} {next : α → Step K σ β}
    {next' : α → Step K τ β} (first : Together R (x s) (y s')) (weaken : ∀ u u', R u u' → S u u')
    (second : ∀ a u u', R u u' → Together S (next a u) (next' a u')) :
    Together S ((x >>= next) s) ((y >>= next') s') := by
  have same := first.result
  cases answer : (x s).result with
  | error fault =>
      rw [answer] at same
      rw [run_bind_error answer, run_bind_error same.symm]
      exact ⟨rfl, first.pivots, weaken _ _ first.state⟩
  | ok a =>
      rw [answer] at same
      have later := second a _ _ first.state
      rw [run_bind_ok answer, run_bind_ok same.symm]
      refine ⟨later.result, ?_, later.state⟩
      rw [← run_bind_ok answer, ← run_bind_ok same.symm, pivots_bind_of_ok answer,
        pivots_bind_of_ok same.symm, first.pivots, later.pivots]

/-- Two steps on parts of the states. -/
theorem Together.zoom {σ' τ' : Type} {Q : σ' → τ' → Prop} {part : σ → σ'} {put : σ' → σ → σ}
    {part' : τ → τ'} {put' : τ' → τ → τ} {x : Step K σ' α} {y : Step K τ' α}
    (inner : Together Q (x (part s)) (y (part' s')))
    (related : ∀ u u', Q u u' → R (put u s) (put' u' s')) :
    Together R (x.zoom part put s) (y.zoom part' put' s') :=
  ⟨inner.result, inner.pivots, related _ _ inner.state⟩

end Step

end SoftSimplex
