import SoftSimplex.Step

/-!
What steps answer and leave behind, apart from what they report.

`run` forgets the events of a step. Steps are then followed by equations: `run_bind_of_ok` and
`run_bind_of_error` for two steps, and one equation for each way to build a step.
-/

namespace SoftSimplex.Step

variable {K σ τ α β : Type}

/-- What a step answers, and the state that it leaves. -/
def run (x : Step K σ α) (s : σ) : Except (Fault K) α × σ := ((x s).result, (x s).state)

/-! ### Two steps -/

theorem run_bind_of_ok {x : Step K σ α} {next : α → Step K σ β} {s s' : σ} {a : α}
    (first : x.run s = (.ok a, s')) : (x >>= next).run s = (next a).run s' := by
  obtain ⟨answered, rfl⟩ := Prod.mk.inj first
  rw [run, run_bind_ok answered]
  rfl

theorem run_bind_of_error {x : Step K σ α} {next : α → Step K σ β} {s s' : σ} {fault : Fault K}
    (first : x.run s = (.error fault, s')) : (x >>= next).run s = (.error fault, s') := by
  obtain ⟨failed, rfl⟩ := Prod.mk.inj first
  rw [run, run_bind_error failed]

/-- Two steps answer if each of them does. -/
theorem run_bind_eq_ok {x : Step K σ α} {next : α → Step K σ β} {s s' : σ} {b : β}
    (answered : (x >>= next).run s = (.ok b, s')) :
    ∃ a s₁, x.run s = (.ok a, s₁) ∧ (next a).run s₁ = (.ok b, s') := by
  cases first : (x s).result with
  | ok a => exact ⟨a, (x s).state, Prod.ext first rfl, (run_bind_of_ok (Prod.ext first rfl)) ▸ answered⟩
  | error fault =>
      rw [run_bind_of_error (Prod.ext first rfl)] at answered
      cases answered

/-- Where two steps fail, the first one failed or the second one did. -/
theorem run_bind_eq_error {x : Step K σ α} {next : α → Step K σ β} {s s' : σ} {fault : Fault K}
    (failed : (x >>= next).run s = (.error fault, s')) :
    x.run s = (.error fault, s') ∨
      ∃ a s₁, x.run s = (.ok a, s₁) ∧ (next a).run s₁ = (.error fault, s') := by
  cases first : (x.run s).1 with
  | ok a => exact .inr ⟨a, (x.run s).2, Prod.ext first rfl,
      (run_bind_of_ok (Prod.ext first rfl)).symm.trans failed⟩
  | error reason =>
      rw [run_bind_of_error (Prod.ext first rfl)] at failed
      cases failed
      exact .inl (Prod.ext first rfl)

theorem run_of_isOk {x : Step K σ α} {s : σ} (answers : (x.run s).1.isOk = true) :
    ∃ a, x.run s = (.ok a, (x.run s).2) := by
  cases answer : (x.run s).1 with
  | ok a => exact ⟨a, Prod.ext answer rfl⟩
  | error fault =>
      rw [answer] at answers
      cases answers

/-- Steps may be grouped either way. -/
theorem bind_assoc {γ : Type} (x : Step K σ α) (next : α → Step K σ β) (last : β → Step K σ γ) :
    (x >>= next) >>= last = x >>= fun a => next a >>= last := by
  funext s
  cases first : (x s).result with
  | error fault =>
      have failed : ((x >>= next) s).result = .error fault := by rw [run_bind_error first]
      rw [run_bind_error failed, run_bind_error first, run_bind_error first]
  | ok a =>
      have same : (x >>= next) s = ⟨(next a (x s).state).result, (next a (x s).state).state,
        (x s).events ++ (next a (x s).state).events⟩ := run_bind_ok first
      have later : (x >>= fun a => next a >>= last) s =
          ⟨((next a >>= last) (x s).state).result, ((next a >>= last) (x s).state).state,
            (x s).events ++ ((next a >>= last) (x s).state).events⟩ := run_bind_ok first
      rw [later]
      cases second : (next a (x s).state).result with
      | error fault =>
          rw [run_bind_error (by rw [same, second]), run_bind_error second, same]
      | ok b =>
          rw [run_bind_ok (by rw [same, second]), run_bind_ok second, same, List.append_assoc]

theorem run_bind_assoc {γ : Type} (x : Step K σ α) (next : α → Step K σ β) (last : β → Step K σ γ)
    (s : σ) : ((x >>= next) >>= last).run s = (x >>= fun a => next a >>= last).run s := by
  rw [bind_assoc]

/-! ### Simple steps -/

@[simp] theorem run_return (a : α) (s : σ) : (Pure.pure a : Step K σ α).run s = (.ok a, s) := rfl

@[simp] theorem run_pureStep (a : α) (s : σ) : (pure a : Step K σ α).run s = (.ok a, s) := rfl

@[simp] theorem run_get (s : σ) : (get : Step K σ σ).run s = (.ok s, s) := rfl

@[simp] theorem run_set (s s' : σ) : (set s' : Step K σ Unit).run s = (.ok (), s') := rfl

@[simp] theorem run_modify (change : σ → σ) (s : σ) :
    (modify change : Step K σ Unit).run s = (.ok (), change s) := rfl

@[simp] theorem run_report (event : Event K) (s : σ) :
    (report event : Step K σ Unit).run s = (.ok (), s) := rfl

@[simp] theorem run_failStep (fault : Fault K) (s : σ) :
    (fail fault : Step K σ α).run s = (.error fault, s) := rfl

@[simp] theorem run_ofOption_some (fault : Fault K) (a : α) (s : σ) :
    (ofOption fault (some a) : Step K σ α).run s = (.ok a, s) := rfl

@[simp] theorem run_ofOption_none (fault : Fault K) (s : σ) :
    (ofOption fault none : Step K σ α).run s = (.error fault, s) := rfl

@[simp] theorem run_ofExcept (computed : Except (Fault K) α) (s : σ) :
    (ofExcept computed : Step K σ α).run s = (computed, s) := by
  cases computed <;> rfl

/-! ### Steps made of steps -/

@[simp] theorem run_bind_return (a : α) (next : α → Step K σ β) (s : σ) :
    ((Pure.pure a : Step K σ α) >>= next).run s = (next a).run s := run_bind_of_ok rfl

@[simp] theorem run_bind_get (next : σ → Step K σ β) (s : σ) :
    ((get : Step K σ σ) >>= next).run s = (next s).run s := run_bind_of_ok rfl

@[simp] theorem run_bind_set (s' : σ) (next : Unit → Step K σ β) (s : σ) :
    ((set s' : Step K σ Unit) >>= next).run s = (next ()).run s' := run_bind_of_ok rfl

@[simp] theorem run_bind_modify (change : σ → σ) (next : Unit → Step K σ β) (s : σ) :
    ((modify change : Step K σ Unit) >>= next).run s = (next ()).run (change s) :=
  run_bind_of_ok rfl

@[simp] theorem run_bind_report (event : Event K) (next : Unit → Step K σ β) (s : σ) :
    ((report event : Step K σ Unit) >>= next).run s = (next ()).run s := run_bind_of_ok rfl

@[simp] theorem run_bind_ofExcept_ok (a : α) (next : α → Step K σ β) (s : σ) :
    ((ofExcept (.ok a) : Step K σ α) >>= next).run s = (next a).run s := run_bind_of_ok rfl

@[simp] theorem run_bind_ofExcept_error (fault : Fault K) (next : α → Step K σ β) (s : σ) :
    ((ofExcept (.error fault) : Step K σ α) >>= next).run s = (.error fault, s) :=
  run_bind_of_error rfl

@[simp] theorem run_bind_ofOption_some (fault : Fault K) (a : α) (next : α → Step K σ β) (s : σ) :
    ((ofOption fault (some a) : Step K σ α) >>= next).run s = (next a).run s := run_bind_of_ok rfl

@[simp] theorem run_bind_pureStep (a : α) (next : α → Step K σ β) (s : σ) :
    ((pure a : Step K σ α) >>= next).run s = (next a).run s := run_bind_of_ok rfl

@[simp] theorem run_forEach_nil (x : α → Step K σ Unit) (s : σ) :
    (forEach [] x).run s = (.ok (), s) := rfl

theorem run_forEach_cons_of_ok {item : α} {rest : List α} {x : α → Step K σ Unit} {s s' : σ}
    (first : (x item).run s = (.ok (), s')) :
    (forEach (item :: rest) x).run s = (forEach rest x).run s' :=
  show (x item >>= fun _ => forEach rest x).run s = _ from run_bind_of_ok first

/-- What every element of a list keeps is kept by all of them, where they answer. -/
theorem forEach_induction {P : σ → Prop} {items : List α} {x : α → Step K σ Unit} {s s' : σ}
    (each : ∀ item ∈ items, ∀ s s', P s → (x item).run s = (.ok (), s') → P s') (start : P s)
    (ran : (forEach items x).run s = (.ok (), s')) : P s' := by
  induction items generalizing s with
  | nil =>
      cases ran
      exact start
  | cons item rest ih =>
      obtain ⟨_, s₁, first, later⟩ := run_bind_eq_ok (x := x item) ran
      exact ih (fun other member => each other (List.mem_cons_of_mem _ member))
        (each item List.mem_cons_self s s₁ start first) later

theorem run_transaction_of_ok {x : Step K σ α} {s s' : σ} {a : α}
    (answered : x.run s = (.ok a, s')) : x.transaction.run s = (.ok a, s') := by
  have result : (x s).result = .ok a := (Prod.mk.inj answered).1
  rw [run, transaction_of_ok result]
  exact answered

theorem run_transaction_of_error {x : Step K σ α} {s s' : σ} {fault : Fault K}
    (failed : x.run s = (.error fault, s')) : x.transaction.run s = (.error fault, s) := by
  have result : (x s).result = .error fault := (Prod.mk.inj failed).1
  simp [run, transaction, result]

/-- A transaction answers only if its step does. -/
theorem run_transaction_eq_ok {x : Step K σ α} {s s' : σ} {a : α}
    (answered : x.transaction.run s = (.ok a, s')) : x.run s = (.ok a, s') := by
  generalize plain : x.run s = ended
  obtain ⟨answer, s₁⟩ := ended
  cases answer with
  | ok b => rwa [run_transaction_of_ok plain] at answered
  | error fault =>
      rw [run_transaction_of_error plain] at answered
      cases answered

/-- A closing step that answers leaves the answer of the first step alone. -/
theorem run_thenAlways {x : Step K σ α} {closing : Step K σ Unit} {s s' s'' : σ}
    {answer : Except (Fault K) α} (first : x.run s = (answer, s'))
    (second : closing.run s' = (.ok (), s'')) :
    (x.thenAlways closing).run s = (answer, s'') := by
  obtain ⟨rfl, rfl⟩ := Prod.mk.inj first
  obtain ⟨closed, rfl⟩ := Prod.mk.inj second
  simp [run, thenAlways, closed]

end SoftSimplex.Step
