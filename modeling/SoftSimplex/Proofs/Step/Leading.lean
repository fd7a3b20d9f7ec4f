import Mathlib.Order.Defs.Unbundled
import SoftSimplex.Proofs.Step.Run

/-!
Where steps lead, whether they answer or fail.

A failing step keeps what it changed, so what a step does to a state is said of both endings at once: the
state afterwards is related to the one before, and if it failed, the fault is one that is allowed
(`Leads`). There is one rule for each way to build a step.
-/

namespace SoftSimplex.Step

variable {K σ τ α β : Type} {R : σ → σ → Prop} {P Q : Fault K → Prop} {s s' : σ}
  {x : Step K σ α}

/-- A step ends in a state that is related to the one that it began in, and it fails only as is
allowed. -/
structure Leads (R : σ → σ → Prop) (P : Fault K → Prop) (x : Step K σ α) (s : σ) : Prop where
  reaches : R s (x.run s).2
  allowed : ∀ fault, (x.run s).1 = .error fault → P fault

/-! ### Single steps -/

theorem Leads.of_ok {a : α} (ran : x.run s = (.ok a, s')) (related : R s s') : x.Leads R P s where
  reaches := by rwa [ran]
  allowed fault failed := by
    rw [ran] at failed
    cases failed

theorem Leads.of_error {fault : Fault K} (ran : x.run s = (.error fault, s')) (related : R s s')
    (allowed : P fault) : x.Leads R P s where
  reaches := by rwa [ran]
  allowed other failed := by
    rw [ran] at failed
    cases failed
    exact allowed

/-- A step leads where another one leads that runs alike. -/
theorem Leads.congr {y : Step K σ α} (same : x.run s = y.run s) (leads : y.Leads R P s) :
    x.Leads R P s where
  reaches := same ▸ leads.reaches
  allowed fault failed := leads.allowed fault (same ▸ failed)

theorem Leads.mono {R' : σ → σ → Prop} (leads : x.Leads R P s) (related : ∀ s', R s s' → R' s s')
    (allowed : ∀ fault, P fault → Q fault) : x.Leads R' Q s where
  reaches := related _ leads.reaches
  allowed fault failed := allowed fault (leads.allowed fault failed)

/-- A step on a part of a state. -/
theorem Leads.zoom {S : τ → τ → Prop} {part : σ → τ} {put : τ → σ → σ} {x : Step K τ α}
    (leads : x.Leads S P (part s)) (related : ∀ t, S (part s) t → R s (put t s)) :
    (x.zoom part put).Leads R P s :=
  ⟨related _ leads.reaches, leads.allowed⟩

/-- A change of the state after a step that answers. -/
theorem Leads.bind_modify {x : Step K σ Unit} (leads : x.Leads R P s) (change : σ → σ)
    (related : ∀ s', R s s' → R s (change s')) :
    (x >>= fun _ => Step.modify change).Leads R P s := by
  have reached := leads.reaches
  generalize ran : x.run s = ended at reached
  obtain ⟨answer, s'⟩ := ended
  cases answer with
  | ok a => exact .of_ok ((run_bind_of_ok ran).trans (run_modify change s')) (related s' reached)
  | error fault =>
      exact .of_error (run_bind_of_error ran) reached (leads.allowed fault (congrArg (·.1) ran))

/-! ### Steps made of steps -/

/-- A step that runs like another one from a later state, which leads to what is related to the first. -/
theorem Leads.of_later {y : Step K σ α} (same : x.run s = y.run s')
    (rest : y.Leads (fun _ => R s) P s') : x.Leads R P s where
  reaches := same ▸ rest.reaches
  allowed fault failed := rest.allowed fault (same ▸ failed)

/-- One step after another, which leads to what is related to the state before both. -/
theorem Leads.bind_into {S : σ → σ → Prop} {next : α → Step K σ β} (first : x.Leads R P s)
    (failed : ∀ s', R s s' → S s s')
    (second : ∀ a s', x.run s = (.ok a, s') → R s s' → (next a).Leads (fun _ => S s) P s') :
    (x >>= next).Leads S P s := by
  have reached := first.reaches
  generalize ran : x.run s = ended at reached
  obtain ⟨answer, s'⟩ := ended
  cases answer with
  | ok a => exact .of_later (run_bind_of_ok ran) (second a s' ran reached)
  | error fault =>
      exact .of_error (run_bind_of_error ran) (failed s' reached)
        (first.allowed fault (congrArg (·.1) ran))

variable [IsPreorder σ R]

/-- A step that runs like another one from a later state. -/
theorem Leads.of_run_eq {y : Step K σ α} (same : x.run s = y.run s') (related : R s s')
    (rest : y.Leads R P s') : x.Leads R P s :=
  .of_later same (rest.mono (fun _ => trans_of R related) fun _ => id)

/-- A step after another one that answers. -/
theorem Leads.bind_of_ok {next : α → Step K σ β} {a : α} (ran : x.run s = (.ok a, s'))
    (related : R s s') (rest : (next a).Leads R P s') : (x >>= next).Leads R P s :=
  .of_run_eq (run_bind_of_ok ran) related rest

/-- One step after another. -/
theorem Leads.bind {next : α → Step K σ β} (first : x.Leads R P s)
    (second : ∀ a s', x.run s = (.ok a, s') → R s s' → (next a).Leads R P s') :
    (x >>= next).Leads R P s :=
  .bind_into first (fun _ => id) fun a s' ran related =>
    (second a s' ran related).mono (fun _ => trans_of R related) fun _ => id

/-- A step for one item after another, each of which keeps what the others need. -/
theorem Leads.forEach_of_kept {items : List α} {x : α → Step K σ Unit} {I : σ → Prop} (holds : I s)
    (each : ∀ item ∈ items, ∀ s', R s s' → I s' → (x item).Leads R P s')
    (kept : ∀ item ∈ items, ∀ s' s'', R s s' → I s' → (x item).run s' = (.ok (), s'') → I s'') :
    (forEach items x).Leads R P s := by
  induction items generalizing s with
  | nil => exact .of_ok (run_forEach_nil x s) (refl_of R s)
  | cons item rest ih =>
      refine Leads.bind (each item List.mem_cons_self s (refl_of R s) holds) fun _ s' ran reached => ?_
      exact ih (kept item List.mem_cons_self s s' (refl_of R s) holds ran)
        (fun other member s'' later =>
          each other (List.mem_cons_of_mem _ member) s'' (trans_of R reached later))
        fun other member s'' s''' later =>
          kept other (List.mem_cons_of_mem _ member) s'' s''' (trans_of R reached later)

theorem Leads.forEach {items : List α} {x : α → Step K σ Unit}
    (each : ∀ item ∈ items, ∀ s', R s s' → (x item).Leads R P s') :
    (forEach items x).Leads R P s :=
  .forEach_of_kept (I := fun _ => True) trivial (fun item member s' reached _ => each item member s' reached)
    fun _ _ _ _ _ _ _ => trivial

/-- A transaction that fails leads nowhere. -/
theorem Leads.transaction (leads : x.Leads R P s) : x.transaction.Leads R P s := by
  have reached := leads.reaches
  generalize ran : x.run s = ended at reached
  obtain ⟨answer, s'⟩ := ended
  cases answer with
  | ok a => exact .of_ok (run_transaction_of_ok ran) reached
  | error fault =>
      exact .of_error (run_transaction_of_error ran) (refl_of R s)
        (leads.allowed fault (congrArg (·.1) ran))

end SoftSimplex.Step
