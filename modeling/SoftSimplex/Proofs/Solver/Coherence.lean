import SoftSimplex.Proofs.Simplex.Pairing
import SoftSimplex.Proofs.Solver.Accounting
import SoftSimplex.Proofs.Solver.Uninstalling

/-!
Solvers whose parts fit together, whatever happened to them.

A solver is coherent if its inner solver is intact and in order, and what is installed in it has columns
of its own, which are registered (`Coherent`); the two columns of an optional constraint are a pair that
the order respects (`Pairs`). Where it works exactly, its objective charges for what is installed, and for
nothing that it would pay for (`Solvent`). Every step that a solver is made of leads from coherent solvers
to coherent ones, whether it answers or fails, forgets no variable (`Minds`), and finds no objective
without bound where the solver works exactly (`Fares`).
-/

namespace SoftSimplex

/-- Whether a fault says what became of a row or of an objective. -/
def Fault.isVerdict {K : Type} : Fault K → Bool
  | .infeasible => true
  | .infeasibleRow _ => true
  | .unbounded => true
  | .dualFailed => true
  | _ => false

namespace Solver

open Tableau

variable {s s' s₁ : Solver Rat} {precise : Prop} {restraint : Restraint} {c : Constraint Rat}
  {m : Markers Rat} {weight : Option Rat} {tag : Tag} {i : Installed Rat} {free moving : Set Column}
  {column : Column} {inner : Simplex Rat} {v : Variable} {fault : Fault Rat} {α : Type} {row : Row Rat}

/-! ### Prices -/

theorem run_price (c : Constraint Rat) (s : Solver Rat) : ((price c).run s).2 = s := by
  have admitted := run_admittedPriority c s
  generalize ran : (admittedPriority c).run s = ended at admitted
  obtain ⟨answer, s'⟩ := ended
  subst admitted
  cases answer with
  | error fault => rw [price, Step.run_bind_of_error ran]
  | ok priority =>
      rw [price, Step.run_bind_of_ok ran]
      exact run_weightOf priority s'

theorem not_verdict_of_clamp {priority : Priority} {limit : Literal}
    (failed : ((Step.clamp priority limit : Step Rat (Solver Rat) Priority).run s).1 = .error fault) :
    fault.isVerdict = false := by
  cases priority with
  | required => cases failed
  | optional strength =>
      unfold Step.clamp at failed
      cases counted : limit.count? with
      | none =>
          rw [counted] at failed
          cases failed
          rfl
      | some most =>
          rw [counted] at failed
          dsimp only at failed
          split at failed
          · cases failed
          · cases lowered : Priority.ofLiteral limit with
            | ok priority =>
                rw [lowered] at failed
                cases failed
            | error reason =>
                rw [lowered] at failed
                cases failed
                rfl

theorem not_verdict_of_price (failed : (price c).run s = (.error fault, s')) :
    fault.isVerdict = false := by
  cases admitted : (admittedPriority c).run s with
  | mk answer s₁ =>
      cases answer with
      | error reason =>
          rw [price, Step.run_bind_of_error admitted] at failed
          cases failed
          rw [admittedPriority, Step.run_bind_get] at admitted
          exact not_verdict_of_clamp (congrArg (·.1) admitted)
      | ok priority =>
          rw [price, Step.run_bind_of_ok admitted] at failed
          cases priority with
          | required => cases failed
          | optional strength =>
              rw [weightOf, Step.run_bind_get] at failed
              cases found : s₁.config.weights strength with
              | some w =>
                  rw [found] at failed
                  cases failed
              | none =>
                  rw [found] at failed
                  cases failed
                  rfl

/-- A weight is one of the settings. -/
theorem weight_of_price {w : Rat} (priced : (price c).run s = (.ok (some w), s)) :
    ∃ strength, s.config.weights strength = some w := by
  obtain ⟨priority, -, weighed⟩ := admitted_of_priced priced
  cases priority with
  | required => cases weighed
  | optional strength =>
      refine ⟨strength, ?_⟩
      rw [weightOf, Step.run_bind_get] at weighed
      cases found : s.config.weights strength with
      | none =>
          rw [found] at weighed
          cases weighed
      | some w' =>
          rw [found] at weighed
          cases weighed
          rfl

/-- A constraint without a price gets no columns. -/
theorem run_markedRow_of_error (wf : s.simplex.tableau.WellFormed)
    (failed : (price c).run s = (.error fault, s')) : (markedRow c).run s = (.error fault, s') := by
  rw [markedRow, Step.run_bind_of_ok (run_residualRow wf c)]
  rw [price] at failed
  rw [← Step.run_bind_assoc, Step.run_bind_of_error failed]

/-! ### Coherent solvers -/

/-- A constraint with these columns is installed. -/
def Lists (s : Solver Rat) (m : Markers Rat) : Prop :=
  ∃ tag i, s.installed.get? tag = some i ∧ i.markers = m

/-- The columns of optional constraints that are installed come in pairs. -/
def Pairs (s : Solver Rat) (a b : Column) : Prop := ∃ m, s.Lists m ∧ m.Pair a b

theorem pairs_of_same (same : s.Same s') : s'.Pairs = s.Pairs := by
  unfold Pairs Lists
  rw [same.installed]

/-- A solver works exactly: without tolerance and without negative weights, and its objective charges for
what is installed. -/
structure Solvent (s : Solver Rat) : Prop where
  tolerance : s.tableau.tolerance = some 0
  weights : ∀ strength w, s.config.weights strength = some w → 0 ≤ w
  accounts : s.tableau.Accounts s.Lists

/-- What falling short costs is not negative. -/
theorem Solvent.weight_nonneg {weight : Option Rat} (solvent : s.Solvent)
    (priced : (price c).run s = (.ok weight, s)) : 0 ≤ weight.getD 0 := by
  cases weight with
  | none => exact le_rfl
  | some w =>
      obtain ⟨strength, found⟩ := weight_of_price priced
      exact solvent.weights strength w found

/-- The parts of a solver fit together. Whether it works exactly, and what is refrained from, is said
apart. -/
structure Coherent (precise : Prop) (restraint : Restraint) (s : Solver Rat) : Prop where
  intact : s.simplex.Intact
  registered : ∀ tag, s.simplex.registered.get? tag =
    (s.installed.get? tag).map fun i => ⟨i.constraint, i.markers.main⟩
  fits : ∀ tag i, s.installed.get? tag = some i →
    i.markers.Fits i.constraint.priority i.constraint.comparator
  below : ∀ tag i, s.installed.get? tag = some i → ∀ c ∈ i.markers.columns,
    c.Below s.simplex.nextSerial
  apart : ∀ tag tag' i i', s.installed.get? tag = some i → s.installed.get? tag' = some i' →
    tag ≠ tag' → ∀ c ∈ i.markers.columns, c ∉ i'.markers.columns
  binding : ∀ tag i, s.installed.get? tag = some i → i.markers.main.isDummy = true →
    i.constraint.comparator = .eq
  edits : ∀ session ∈ s.sessions, ∀ entry ∈ session.edits,
    ∃ priority comparator, entry.2.markers.Fits priority comparator
  orderly : s.tableau.Orderly restraint s.Pairs
  solvent : precise → s.Solvent

/-- No variable is forgotten, and the tolerance stays. -/
structure Recalls (s s' : Solver Rat) : Prop where
  met : ∀ v, s.tableau.Met v → s'.tableau.Met v
  tolerance : s'.tableau.tolerance = s.tableau.tolerance

theorem Recalls.of_same (same : s'.tableau = s.tableau) : s.Recalls s' :=
  ⟨fun _ => same ▸ id, by rw [same]⟩

theorem Recalls.trans (first : s.Recalls s₁) (second : s₁.Recalls s') : s.Recalls s' :=
  ⟨fun v met => second.met v (first.met v met), second.tolerance.trans first.tolerance⟩

theorem Recalls.of_changes (changes : Changes free moving s.tableau s'.tableau)
    (sound : s.tableau.Sound) : s.Recalls s' :=
  ⟨fun _ => changes.met sound, changes.tolerance_eq sound⟩

/-- A solver stays coherent, and recalls what it knew. -/
def Minds (precise : Prop) (restraint : Restraint) (s s' : Solver Rat) : Prop :=
  s.Coherent precise restraint → s'.Coherent precise restraint ∧ s.Recalls s'

instance : IsPreorder (Solver Rat) (Minds precise restraint) where
  refl _ := fun coherent => ⟨coherent, .of_same rfl⟩
  trans _ _ _ first second := fun coherent =>
    ⟨(second (first coherent).1).1, (first coherent).2.trans (second (first coherent).1).2⟩

/-- What a step of a coherent solver comes to: it minds, and where the solver works exactly it finds no
objective without bound. -/
abbrev Fares (precise : Prop) (restraint : Restraint) (x : Step Rat (Solver Rat) α) (s : Solver Rat) :
    Prop :=
  x.Leads (Minds precise restraint) (fun fault => precise → fault ≠ .unbounded) s

/-- A solver that differs in what it remembers about its answers. -/
theorem minds_of_same (simplex : s'.simplex = s.simplex) (installed : s'.installed = s.installed)
    (config : s'.config = s.config)
    (edits : ∀ session ∈ s'.sessions, ∀ entry ∈ session.edits, ∃ before ∈ s.sessions,
      ∃ other ∈ before.edits, other.2.markers = entry.2.markers) : s.Minds precise restraint s' := by
  obtain ⟨_, _, _, sessions, _, _, _⟩ := s'
  dsimp only at simplex installed config edits
  subst simplex installed config
  refine fun coherent => ⟨⟨coherent.intact, coherent.registered, coherent.fits, coherent.below,
    coherent.apart, coherent.binding, fun session member entry inside => ?_, coherent.orderly,
    fun given => ?_⟩, .of_same rfl⟩
  · obtain ⟨before, known, other, listed, same⟩ := edits session member entry inside
    exact same ▸ coherent.edits before known other listed
  · obtain ⟨tolerance, weights, accounts⟩ := coherent.solvent given
    exact ⟨tolerance, weights, accounts⟩

section

variable (coherent : s.Coherent precise restraint)
include coherent

theorem Coherent.sound : s.tableau.Sound := coherent.intact.sound

/-- What is installed stays so while the inner solver changes. -/
theorem Coherent.keeps (same : s.Same s') (keeps : s.simplex.Keeps s'.simplex)
    (intact : s'.simplex.Intact) (orderly : s'.tableau.Orderly restraint s.Pairs)
    (solvent : precise → s'.tableau.tolerance = some 0 ∧ s'.tableau.Accounts s.Lists) :
    s'.Coherent precise restraint where
  intact := intact
  registered tag := by
    rw [keeps.registered, same.installed]
    exact coherent.registered tag
  fits := same.installed ▸ coherent.fits
  below := by
    rw [same.installed]
    exact fun tag i found c own => (coherent.below tag i found c own).mono keeps.serial
  apart := same.installed ▸ coherent.apart
  binding := same.installed ▸ coherent.binding
  edits := same.sessions ▸ coherent.edits
  orderly := pairs_of_same same ▸ orderly
  solvent given := by
    obtain ⟨tolerance, accounts⟩ := solvent given
    refine ⟨tolerance, same.config ▸ (coherent.solvent given).weights, accounts.mono fun m => ?_⟩
    rw [Lists, same.installed]
    exact id

end

/-- The inner solver changes in no column of its own, and the order is kept. -/
theorem minds_withSimplex (grows : s.simplex.Grows ∅ moving inner)
    (orderly : s.tableau.Sound → s.tableau.Orderly restraint s.Pairs →
      inner.tableau.Orderly restraint s.Pairs) :
    s.Minds precise restraint (s.withSimplex inner) := fun coherent => by
  have idle {c : Column} : c ∉ (∅ : Set Column) := Set.notMem_empty c
  refine ⟨coherent.keeps (same_withSimplex s grows.toKeeps) grows.toKeeps (coherent.intact.grows grows idle)
    (orderly coherent.sound coherent.orderly) fun given => ?_, .of_changes grows.changes coherent.sound⟩
  have solvent := coherent.solvent given
  exact ⟨(grows.changes.tolerance_eq coherent.sound).trans solvent.tolerance,
    solvent.accounts.changes grows.changes coherent.sound solvent.tolerance coherent.intact.stored idle
      fun c own => absurd own idle⟩

theorem minds_exchanged (exchanged : s.simplex.Exchanged inner) :
    s.Minds precise restraint (s.withSimplex inner) := fun coherent =>
  have grows : s.simplex.Grows ∅ ∅ inner := exchanged.grows coherent.sound
  minds_withSimplex grows (fun sound orderly => orderly.exchanges sound exchanged.exchanges) coherent

theorem fares_onSimplex {x : Step Rat (Simplex Rat) α} {R : Simplex Rat → Simplex Rat → Prop}
    {P : Fault Rat → Prop} (leads : x.Leads R P s.simplex)
    (minds : ∀ inner, R s.simplex inner → s.Minds precise restraint (s.withSimplex inner))
    (allowed : ∀ fault, P fault → precise → fault ≠ .unbounded) :
    Fares precise restraint (onSimplex x) s :=
  .mono (.zoom leads minds) (fun _ => id) allowed

theorem fares_snapshot (milestone : Milestone) (s : Solver Rat) :
    Fares precise restraint (onSimplex (Simplex.snapshot milestone)) s :=
  .of_ok (run_onSimplex_of_ok (Simplex.run_snapshot milestone s.simplex)) (refl_of _ s)

/-- The solution is read off the inner solver. -/
theorem run_evaluate (s : Solver Rat) :
    (onSimplex Simplex.evaluate).run s = (s.simplex.solution?, s) := by
  have ran : Simplex.evaluate.run s.simplex = (s.simplex.solution?, s.simplex) := by
    rw [Simplex.evaluate, Step.run_bind_get, Step.run_ofExcept]
  cases read : s.simplex.solution? with
  | ok solution => exact run_onSimplex_of_ok (read ▸ ran)
  | error fault => exact run_onSimplex_of_error (read ▸ ran)

/-- Reading the values changes what is cached. -/
theorem fares_readValues (s : Solver Rat) : Fares precise restraint readValues s := by
  have evaluating := s.run_evaluate
  cases read : s.simplex.solution? with
  | ok solution =>
      refine .bind_of_ok (evaluating.trans (by rw [read])) (refl_of _ s) ?_
      exact .of_ok (Step.run_bind_modify _ _ _) (minds_of_same rfl rfl rfl fun session member
        entry listed => ⟨session, member, entry, listed, rfl⟩)
  | error fault =>
      refine .of_error (Step.run_bind_of_error (evaluating.trans (by rw [read]))) (refl_of _ s) ?_
      rintro - rfl
      unfold Simplex.solution? at read
      cases found : s.simplex.tableau.rows.get? .objective with
      | none =>
          rw [found] at read
          cases read
      | some row =>
          rw [found] at read
          cases read

section

variable (coherent : s.Coherent precise restraint)
include coherent

theorem fares_optimize : Fares precise restraint (onSimplex Simplex.optimize) s :=
  fares_onSimplex (Simplex.leads_optimize coherent.sound .objective) (fun _ => minds_exchanged)
    fun _ allowed given =>
      allowed ((coherent.solvent given).accounts.bounded (coherent.solvent given).tolerance)

theorem fares_repair : Fares precise restraint (onSimplex Simplex.repair) s :=
  fares_onSimplex (Simplex.leads_repair coherent.sound .objective) (fun _ => minds_exchanged)
    fun _ allowed _ => allowed

end

/-! ### Installing -/

section

variable (coherent : s.Coherent precise restraint) (marks : s.Marked c weight m s₁)
include coherent marks

/-- A constraint that got its columns is entered into the accounts, and its columns are in order. -/
theorem Coherent.marked (priced : (price c).run s = (.ok weight, s)) :
    s₁.Coherent precise restraint ∧ s.Recalls s₁ ∧
      (precise → s₁.tableau.Accounts fun m' => m' = m ∨ s.Lists m') ∧
      s₁.tableau.Orderly restraint fun a b => m.Pair a b ∨ s.Pairs a b := by
  obtain ⟨fits, weighs, prepared, same, -⟩ := marks
  obtain ⟨errors, perm, charged⟩ := prepared.penalized
  have own : ∀ c ∈ errors, c ∈ m.columns := fun c error => fits.errors_subset (perm.subset error)
  have new : ∀ c ∈ m.columns, c ∉ s.tableau.scope := fun c mine known =>
    (prepared.columns c mine).not_below (coherent.intact.fresh c known)
  have stored := coherent.intact.stored
  have sound := coherent.sound
  have changes : Changes {c | c ∈ m.columns ∨ c = .objective} ∅ s.tableau s₁.tableau := by
    rw [tableau, tableau, charged]
    exact sound.changes_penalized stored (fun c error => fits.restricted (own c error))
      (fun c error => .inr (.inl (own c error))) (.inr rfl) _
  have grows : s.simplex.Grows {c | c ∈ m.columns ∨ c = .objective} ∅ s₁.simplex := by
    refine ⟨prepared.keeps, changes, fun fresh c known => ?_⟩
    rcases changes.mem_scope sound known with before | mine | rfl
    · exact (fresh c before).mono prepared.keeps.serial
    · exact (prepared.columns c mine).below
    · exact (fresh _ (Tableau.mem_scope.2 (.inl stored))).mono prepared.keeps.serial
  have intact : s₁.simplex.Intact := by
    refine coherent.intact.grows grows ?_
    rintro (mine | other)
    · cases fits.restricted mine
    · cases other
  have accounts (given : precise) : s₁.tableau.Accounts fun m' => m' = m ∨ s.Lists m' := by
    have solvent := coherent.solvent given
    rw [tableau, charged]
    refine solvent.accounts.entered sound solvent.tolerance stored fits new ?_ ?_ perm
    · rintro m' ⟨tag, i, found, rfl⟩ c inside mine
      exact (prepared.columns c mine).not_below (coherent.below tag i found c inside)
    · exact weighs ▸ solvent.weight_nonneg priced
  have orderly : s₁.tableau.Orderly restraint fun a b => m.Pair a b ∨ s.Pairs a b := by
    refine (coherent.orderly.or_of_not_mem_scope sound.toWellFormed fun a b pair => ?_).of_apart
      (prepared.apart (show Posed.Fits ⟨⟨c, m⟩, 0⟩ from fits) sound.toWellFormed stored)
    obtain ⟨left, right⟩ := fits.mem_columns_of_pair pair
    exact ⟨new a left, new b right⟩
  exact ⟨coherent.keeps same prepared.keeps intact (orderly.mono fun _ _ => .inr) fun given =>
    ⟨(changes.tolerance_eq sound).trans (coherent.solvent given).tolerance,
      (accounts given).mono fun m' => .inr⟩, .of_changes changes sound, accounts, orderly⟩

/-- The columns of a pair cancel in the row of a constraint that got its columns. -/
theorem Coherent.suits :
    s₁.simplex.Suits (s.freshRow c m) fun a b => m.Pair a b ∨ s.Pairs a b := by
  obtain ⟨fits, -, prepared, -, -⟩ := marks
  rintro a b listed
  have wf := coherent.sound.toWellFormed
  have apart := prepared.apart (show Posed.Fits ⟨⟨c, m⟩, 0⟩ from fits) wf coherent.intact.stored
  have exact (tolerant : s₁.simplex.tableau.tolerance = some 0) : s.simplex.tableau.Exact :=
    ⟨wf, apart.tolerance.symm.trans tolerant⟩
  rcases listed with own | ⟨m', ⟨tag, i, found, rfl⟩, other⟩
  · obtain ⟨left, right⟩ := fits.mem_columns_of_pair own
    exact ⟨⟨(prepared.columns a left).below, (prepared.columns b right).below⟩, fun tolerant =>
      Simplex.cancels_posedRow (exact tolerant) fits (.inl own)⟩
  · obtain ⟨left, right⟩ := (coherent.fits tag i found).mem_columns_of_pair other
    obtain ⟨-, -, leftPivotable, rightPivotable⟩ := (coherent.fits tag i found).of_pair other
    have belowLeft := coherent.below tag i found a left
    have belowRight := coherent.below tag i found b right
    refine ⟨⟨belowLeft.mono prepared.keeps.serial, belowRight.mono prepared.keeps.serial⟩,
      fun tolerant => Simplex.cancels_posedRow (exact tolerant) fits (.inr
        ⟨coherent.orderly.paired (exact tolerant).exact a b ⟨_, ⟨tag, i, found, rfl⟩, other⟩,
          ⟨fun mine => (prepared.columns a mine).not_below belowLeft,
            fun mine => (prepared.columns b mine).not_below belowRight⟩, ?_, ?_⟩)⟩
    · exact Column.not_external_of_restricted (Column.restricted_of_pivotable leftPivotable)
    · exact Column.not_external_of_restricted (Column.restricted_of_pivotable rightPivotable)

end

/-- Rows that are put in touch no column of the accounts. -/
theorem accounts_of_entered {entries : Markers Rat → Prop} (entered : s.simplex.Entered row inner)
    (intact : s.simplex.Intact) (tolerance : s.tableau.tolerance = some 0)
    (accounts : s.tableau.Accounts entries) : inner.tableau.Accounts entries :=
  accounts.changes entered.changes intact.sound tolerance intact.stored
    (fun new => new (Tableau.mem_scope.2 (.inl intact.stored))) fun _ new => .inl new

/-- What is installed then is what was put in, or it was installed before. -/
theorem of_get?_withInstalled (same : s.Same s₁)
    (found : (s₁.withInstalled c m inner).installed.get? tag = some i) :
    c.tag = tag ∧ i = ⟨c, m⟩ ∨ s.installed.get? tag = some i := by
  rw [withInstalled, Sorted.Map.get?_insert, same.installed] at found
  split at found
  · exact .inl ⟨‹_›, (Option.some.inj found).symm⟩
  · exact .inr found

/-- A constraint is installed with the columns of its row. -/
theorem markedRow_of_install (ran : (install c).run s = (.ok m, s')) :
    ∃ row s₁, (markedRow c).run s = (.ok (row, m), s₁) := by
  rw [install, Step.run_bind_report] at ran
  obtain ⟨⟨row, m'⟩, s₁, marking, rest⟩ := Step.run_bind_eq_ok ran
  obtain ⟨_, _, -, rest⟩ := Step.run_bind_eq_ok rest
  obtain ⟨_, _, -, rest⟩ := Step.run_bind_eq_ok rest
  obtain ⟨_, _, -, rest⟩ := Step.run_bind_eq_ok rest
  obtain ⟨_, _, -, rest⟩ := Step.run_bind_eq_ok rest
  cases rest
  exact ⟨row, s₁, marking⟩

section

variable (coherent : s.Coherent precise restraint)
include coherent

/-- Columns are made for a constraint that has a price. -/
theorem Coherent.marking (c : Constraint Rat) :
    (∃ fault, (markedRow c).run s = (.error fault, s) ∧ fault.isVerdict = false) ∨
      ∃ weight m s₁, (price c).run s = (.ok weight, s) ∧
        (markedRow c).run s = (.ok (s.freshRow c m, m), s₁) ∧ s.Marked c weight m s₁ := by
  have wf := coherent.sound.toWellFormed
  have untouched := run_price c s
  generalize priced : (price c).run s = ended at untouched
  obtain ⟨answer, s'⟩ := ended
  subst untouched
  cases answer with
  | error fault =>
      exact .inl ⟨fault, run_markedRow_of_error wf priced, not_verdict_of_price priced⟩
  | ok weight =>
      obtain ⟨m, s₁, marking, marks⟩ := marked_markedRow wf coherent.intact.stored priced
      exact .inr ⟨weight, m, s₁, rfl, marking, marks⟩

/-- What is installed has columns that fit. -/
theorem Coherent.fits_of_install (ran : (install c).run s = (.ok m, s')) :
    ∃ priority comparator, m.Fits priority comparator := by
  obtain ⟨row, s₁, marking⟩ := markedRow_of_install ran
  rcases coherent.marking c with ⟨fault, failed, -⟩ | ⟨weight, m', s₂, -, marking', marks⟩
  · rw [failed] at marking
    cases marking
  · rw [marking'] at marking
    cases marking
    exact ⟨_, _, marks.fits⟩

/-- A constraint whose row was put in is one that is installed. -/
theorem Coherent.withInstalled (marks : s.Marked c weight m s₁)
    (priced : (price c).run s = (.ok weight, s)) (entered : s₁.simplex.Entered (s.freshRow c m) inner) :
    (s₁.withInstalled c m (inner.register c m.main)).Coherent precise restraint := by
  obtain ⟨coherent₁, -, accounts, orderly⟩ := coherent.marked marks priced
  have suits := coherent.suits marks
  obtain ⟨fits, weighs, prepared, same, binding⟩ := marks
  have intact := coherent₁.intact.entered entered
  have old {i : Installed Rat} {tag : Tag} (found : s.installed.get? tag = some i) :
      ∀ c ∈ i.markers.columns, c ∉ m.columns := fun c inside mine =>
    (prepared.columns c mine).not_below (coherent.below tag i found c inside)
  refine ⟨⟨intact.sound, intact.stored, intact.idle, intact.fresh, intact.numbered⟩, fun tag => ?_,
    fun tag i found => ?_, fun tag i found d own => ?_, fun tag tag' i i' found found' different => ?_,
    fun tag i found => ?_, coherent₁.edits,
    (entered.orderly restraint _ suits orderly).mono fun a b listed => ?_, fun given => ?_⟩
  · change (inner.registered.insert c.tag ⟨c, m.main⟩).get? tag = _
    rw [Solver.withInstalled, Sorted.Map.get?_insert, Sorted.Map.get?_insert, same.installed,
      entered.registered, prepared.keeps.registered, coherent.registered]
    split <;> rfl
  · rcases of_get?_withInstalled same found with ⟨-, rfl⟩ | before
    · exact fits
    · exact coherent.fits tag i before
  · rcases of_get?_withInstalled same found with ⟨-, rfl⟩ | before
    · exact (prepared.columns d own).below.mono entered.serial
    · exact (coherent.below tag i before d own).mono (prepared.keeps.serial.trans entered.serial)
  · rcases of_get?_withInstalled same found with ⟨own, rfl⟩ | before
    · rcases of_get?_withInstalled same found' with ⟨own', -⟩ | before'
      · exact absurd (own.symm.trans own') different
      · exact fun d mine inside => old before' d inside mine
    · rcases of_get?_withInstalled same found' with ⟨-, rfl⟩ | before'
      · exact old before
      · exact coherent.apart tag tag' i i' before before' different
  · rcases of_get?_withInstalled same found with ⟨-, rfl⟩ | before
    · exact binding
    · exact coherent.binding tag i before
  · obtain ⟨m', ⟨tag, i, found, rfl⟩, pair⟩ := listed
    rcases of_get?_withInstalled same found with ⟨-, rfl⟩ | before
    · exact .inl pair
    · exact .inr ⟨_, ⟨tag, i, before, rfl⟩, pair⟩
  · have solvent := coherent₁.solvent given
    refine ⟨(entered.changes.tolerance_eq coherent₁.sound).trans solvent.tolerance, solvent.weights,
      (accounts_of_entered entered coherent₁.intact solvent.tolerance (accounts given)).mono ?_⟩
    rintro m' ⟨tag, i, found, rfl⟩
    rcases of_get?_withInstalled same found with ⟨-, rfl⟩ | before
    · exact .inl rfl
    · exact .inr ⟨tag, i, before, rfl⟩

omit coherent in
/-- A row is put into a coherent solver. -/
theorem Coherent.entered (coherent₁ : s₁.Coherent precise restraint)
    (entered : s₁.simplex.Entered row inner) (suits : s₁.simplex.Suits row s₁.Pairs) :
    (s₁.withSimplex inner).Coherent precise restraint :=
  coherent₁.keeps (same_withSimplex s₁ entered.toKeeps) entered.toKeeps
    (coherent₁.intact.entered entered) (entered.orderly restraint _ suits coherent₁.orderly) fun given =>
      have solvent := coherent₁.solvent given
      ⟨(entered.changes.tolerance_eq coherent₁.sound).trans solvent.tolerance,
        accounts_of_entered entered coherent₁.intact solvent.tolerance solvent.accounts⟩

/-- What is left to do once a constraint is installed. -/
theorem fares_settle {β : Type} (b : β) : Fares precise restraint (do
    onSimplex Simplex.optimize
    onSimplex (Simplex.snapshot .constraintAdded)
    return b) s :=
  .bind (fares_optimize coherent) fun _ s₁ _ _ =>
    .bind (fares_snapshot _ s₁) fun _ s₂ _ _ => .of_ok (Step.run_return _ _) (refl_of _ s₂)

/-- The row of a constraint with its columns can be put in. -/
theorem Coherent.addable (marks : s.Marked c weight m s₁) (coherent₁ : s₁.Coherent precise restraint) :
    s₁.simplex.Addable (s.freshRow c m) :=
  coherent.intact.addable (p := ⟨⟨c, m⟩, 0⟩) marks.fits marks.prepared coherent₁.intact

/-- Installing a constraint, whether it is taken or refused. -/
theorem fares_install (c : Constraint Rat) : Fares precise restraint (install c) s := by
  refine .congr (Step.run_bind_report _ _ s) ?_
  rcases coherent.marking c with ⟨fault, failed, other⟩ | ⟨weight, m, s₁, priced, marking, marks⟩
  · refine .of_error (Step.run_bind_of_error failed) (refl_of _ s) ?_
    rintro - rfl
    cases other
  obtain ⟨coherent₁, recalls₁, -, -⟩ := coherent.marked marks priced
  have suits : s₁.simplex.Suits (s.freshRow c m) s₁.Pairs := by
    rw [pairs_of_same marks.same]
    exact fun a b listed => coherent.suits marks a b (.inr listed)
  have inserting := (coherent.addable marks coherent₁).leads_insertRow m.columns
  refine .bind_of_ok marking (fun _ => ⟨coherent₁, recalls₁⟩) ?_
  refine .bind (.mono (.zoom inserting fun inner entered _ => ⟨coherent₁.entered entered suits,
    .of_changes entered.changes coherent₁.sound⟩) (fun _ => id) fun _ allowed given =>
      allowed (coherent₁.solvent given).tolerance) fun _ s₂ ran _ => ?_
  obtain rfl : s₂ = s₁.withSimplex ((Simplex.insertRow (s.freshRow c m) m.columns).run
      s₁.simplex).2 := (Prod.mk.inj ran).2.symm
  have coherent₂ := coherent.withInstalled marks priced inserting.reaches
  exact .bind_of_ok (Step.run_modify _ _) (fun _ => ⟨coherent₂, .of_same rfl⟩)
    (fares_settle coherent₂ m)

/-- The variables of a constraint are met once it was installed, or was refused for what it says. -/
theorem Coherent.met_install {e : Rat} (tolerance : s.tableau.tolerance = some e)
    (judged : ∀ fault, ((install c).run s).1 = .error fault → fault.isVerdict = true)
    (involves : c.Involves e v) : ((install c).run s).2.tableau.Met v := by
  rcases coherent.marking c with ⟨fault, failed, other⟩ | ⟨weight, m, s₁, priced, marking, marks⟩
  · have ran : (install c).run s = (.error fault, s) :=
      (Step.run_bind_report _ _ s).trans (Step.run_bind_of_error failed)
    rw [judged fault (by rw [ran])] at other
    cases other
  obtain ⟨coherent₁, recalls₁, -, -⟩ := coherent.marked marks priced
  have entered := ((coherent.addable marks coherent₁).leads_insertRow m.columns).reaches
  have met := entered.met_involved coherent.sound coherent₁.sound (recalls₁.met v) tolerance involves
  have coherent₂ := coherent.withInstalled marks priced entered
  suffices leads : (install c).Leads (fun _ s' => s'.tableau.Met v) (fun _ => True) s from leads.reaches
  refine .congr (Step.run_bind_report _ _ s) (.of_later (Step.run_bind_of_ok marking) ?_)
  refine .bind_into (R := fun _ s' => s' = s₁.withSimplex _) ⟨rfl, fun _ _ => trivial⟩
    (fun _ same => same ▸ met) ?_
  rintro _ s₂ - rfl
  refine .of_later (Step.run_bind_modify _ _ _) (.mono (fares_settle coherent₂ m) ?_ fun _ _ => trivial)
  exact fun s' minds => (minds coherent₂).2.met v met

end

/-! ### Taking back -/

/-- Changes of the tableau in no column of its own, which keep the order. -/
theorem minds_withTableau {t : Tableau Rat} (changes : Changes ∅ Set.univ s.tableau t)
    (orderly : s.tableau.Orderly restraint s.Pairs → t.Orderly restraint s.Pairs) :
    s.Minds precise restraint (s.withSimplex (s.simplex.withTableau t)) := fun coherent =>
  minds_withSimplex (Simplex.grows_withTableau changes coherent.sound fun _ => nofun)
    (fun _ => orderly) coherent

theorem minds_resetStays (s : Solver Rat) : s.Minds precise restraint s.resetStays := by
  refine minds_withTableau (List.foldlRecOn (motive := Changes ∅ Set.univ s.tableau) _ _ .refl ?_)
    fun orderly => List.foldlRecOn (motive := (Orderly restraint s.Pairs ·)) _ _ orderly ?_
  · exact fun t before column _ => before.tail (.moved column 0 (Set.mem_univ _))
  · exact fun t before column _ => before.setConstant fun _ _ => rfl

theorem minds_forgetInfeasible (s : Solver Rat) : s.Minds precise restraint s.forgetInfeasible :=
  minds_withTableau (.single (.awaiting fun _ waits => absurd waits (Sorted.Set.not_mem_empty _)))
    fun orderly => orderly.of_plain rfl fun _ _ => rfl

theorem changes_struckOut {t : Tableau Rat} {columns : List Column}
    (restricted : ∀ c ∈ columns, c.isRestricted = true) (given : ∀ c ∈ columns, c ∈ free) :
    Changes free moving t (t.struckOut columns) := by
  induction columns generalizing t with
  | nil => exact .refl
  | cons c rest ih =>
      have own := restricted c List.mem_cons_self
      have symbol := Column.not_external_of_restricted own
      have different : c ≠ .objective := by
        rintro rfl
        cases own
      have first := given c List.mem_cons_self
      exact .head (.removed symbol different first) (.head (.struck symbol first)
        (ih (fun d member => restricted d (List.mem_cons_of_mem _ member))
          fun d member => given d (List.mem_cons_of_mem _ member)))

theorem orderly_struckOut {pairs : Column → Column → Prop} {t : Tableau Rat} {columns : List Column}
    (wf : t.WellFormed) (orderly : t.Orderly restraint pairs)
    (single : ∀ c ∈ columns, Unpaired pairs c) : (t.struckOut columns).Orderly restraint pairs := by
  induction columns generalizing t with
  | nil => exact orderly
  | cons c rest ih =>
      exact ih ((wf.removeRow c).removeColumn (by rw [get?_removeRow, if_pos rfl]))
        ((orderly.removeRow c).removeColumn (wf.removeRow c) (single c List.mem_cons_self))
        fun d member => single d (List.mem_cons_of_mem _ member)

theorem get?_withErased {other : Tag} {i' : Installed Rat} :
    (s.withErased tag inner).installed.get? other = some i' ↔
      tag ≠ other ∧ s.installed.get? other = some i' := by
  rw [withErased, Sorted.Map.get?_erase]
  by_cases same : tag = other
  · simp [same]
  · simp [same]

section

variable (coherent : s.Coherent precise restraint) (found : s.installed.get? tag = some i)
include coherent found

/-- The columns of an installed constraint are in no pair of the others. -/
theorem Coherent.unpaired (own : column ∈ i.markers.columns) :
    Unpaired (s.withErased tag inner).Pairs column := by
  rintro a b ⟨_, ⟨other, i', left, rfl⟩, pair⟩
  obtain ⟨different, found'⟩ := get?_withErased.1 left
  obtain ⟨inA, inB⟩ := (coherent.fits other i' found').mem_columns_of_pair pair
  have apart := coherent.apart tag other i i' found found' different column own
  exact ⟨fun same => apart (same ▸ inA), fun same => apart (same ▸ inB)⟩

/-- The penalties of a constraint are taken from the objective. -/
theorem Coherent.grows_forgiven :
    s.simplex.Grows {c | c ∈ i.markers.columns ∨ c = .objective} ∅ (s.simplex.forgiven ⟨i, 0⟩) := by
  have fits := coherent.fits tag i found
  have stored := coherent.intact.stored
  have forgiving : Changes {c | c ∈ i.markers.columns ∨ c = .objective} ∅ s.tableau
      (s.simplex.forgiven ⟨i, 0⟩).tableau :=
    coherent.sound.changes_penalized stored
      (fun c error => fits.restricted (fits.errors_subset error))
      (fun c error => .inr (.inl (fits.errors_subset error))) (.inr rfl) _
  refine Simplex.grows_withTableau forgiving coherent.sound ?_
  rintro c (own | rfl)
  · exact coherent.below tag i found c own
  · exact coherent.intact.fresh _ (Tableau.mem_scope.2 (.inl stored))

theorem Coherent.intact_forgiven : (s.simplex.forgiven ⟨i, 0⟩).Intact := by
  refine coherent.intact.grows (coherent.grows_forgiven found) ?_
  rintro (own | other)
  · cases (coherent.fits tag i found).restricted own
  · cases other

theorem Coherent.apart_forgiven : s.tableau.Apart (s.simplex.forgiven ⟨i, 0⟩).tableau .objective := by
  have fits := coherent.fits tag i found
  exact (coherent.sound.toWellFormed.penalized coherent.intact.stored (fun c error =>
    Column.not_objective_of_restricted (fits.restricted (fits.errors_subset error)))
    (-i.markers.weight.getD 0)).2.1

section

variable (removed : (s.simplex.forgiven ⟨i, 0⟩).Removed ⟨i, 0⟩ tag inner)
include removed

theorem Coherent.intact_removed : inner.Intact := by
  have fits := coherent.fits tag i found
  have main := i.markers.main_mem_columns
  exact (coherent.intact_forgiven found).removed removed (fits.restricted main)
    (coherent.below tag i found _ main)

omit removed in
/-- The columns besides the main one are struck out. -/
theorem Coherent.changes_cleared : Changes {c | c ∈ i.markers.columns} ∅ inner.tableau
    (inner.cleared ⟨i, 0⟩).tableau := by
  have fits := coherent.fits tag i found
  have own : ∀ c ∈ i.markers.errors.filter (· ≠ i.markers.main), c ∈ i.markers.columns :=
    fun c left => fits.errors_subset (List.mem_of_mem_filter left)
  exact changes_struckOut (fun c left => fits.restricted (own c left)) own

/-- A constraint is taken out with its own columns. -/
theorem Coherent.changes_taken : Changes {c | c ∈ i.markers.columns} ∅
    (s.simplex.forgiven ⟨i, 0⟩).tableau (inner.cleared ⟨i, 0⟩).tableau := by
  have main := i.markers.main_mem_columns
  exact .trans ((removed.changes ((coherent.fits tag i found).restricted main)).mono
    (Set.singleton_subset_iff.2 main)) (coherent.changes_cleared found)

theorem Coherent.intact_cleared : (inner.cleared ⟨i, 0⟩).Intact := by
  have intact := coherent.intact_removed found removed
  refine intact.grows (Simplex.grows_withTableau (coherent.changes_cleared found) intact.sound
    fun c inside => ?_) fun inside => ?_
  · rw [removed.serial]
    exact coherent.below tag i found c inside
  · cases (coherent.fits tag i found).restricted inside

/-- What is left is in order, and so are the pairs of the other constraints. -/
theorem Coherent.orderly_cleared (spared : restraint ≠ .free → i.markers.main.isDummy = false) :
    (inner.cleared ⟨i, 0⟩).tableau.Orderly restraint
      (s.withErased tag (inner.cleared ⟨i, 0⟩)).Pairs := by
  have wf := (coherent.intact_forgiven found).sound.toWellFormed
  obtain ⟨t', exposed, same⟩ := removed.tableau
  have others : (s.simplex.forgiven ⟨i, 0⟩).tableau.Orderly restraint
      (s.withErased tag (inner.cleared ⟨i, 0⟩)).Pairs := by
    refine (coherent.orderly.of_apart (coherent.apart_forgiven found)).mono ?_
    rintro a b ⟨m, ⟨other, i', left, rfl⟩, pair⟩
    exact ⟨_, ⟨other, i', (get?_withErased.1 left).2, rfl⟩, pair⟩
  have exposedOrderly : inner.tableau.Orderly restraint
      (s.withErased tag (inner.cleared ⟨i, 0⟩)).Pairs :=
    same ▸ exposed.orderly wf others (coherent.unpaired found i.markers.main_mem_columns) spared
  exact orderly_struckOut (coherent.intact_removed found removed).sound.toWellFormed exposedOrderly
    fun c left => coherent.unpaired found
      ((coherent.fits tag i found).errors_subset (List.mem_of_mem_filter left))

/-- The objective charges for the other constraints. -/
theorem Coherent.accounts_cleared (solvent : s.Solvent) :
    (inner.cleared ⟨i, 0⟩).tableau.tolerance = some 0 ∧
      (inner.cleared ⟨i, 0⟩).tableau.Accounts (s.withErased tag (inner.cleared ⟨i, 0⟩)).Lists := by
  have intact := coherent.intact_forgiven found
  have taking := coherent.changes_taken found removed
  have tolerance := (coherent.apart_forgiven found).tolerance.trans solvent.tolerance
  have forgiven : (s.simplex.forgiven ⟨i, 0⟩).tableau.Accounts fun m =>
      m = { i.markers with weight := none } ∨
        ∃ other i', tag ≠ other ∧ s.installed.get? other = some i' ∧ i'.markers = m := by
    refine solvent.accounts.forgiven ⟨coherent.sound.toWellFormed, solvent.tolerance⟩
      coherent.intact.stored (coherent.fits tag i found) ⟨tag, i, found, rfl⟩ ?_
    rintro m ⟨other, i', different, known, rfl⟩
    exact ⟨⟨other, i', known, rfl⟩, coherent.apart other tag i' i known found different.symm⟩
  have left := forgiven.changes taking intact.sound tolerance intact.stored
    (fun inside => by cases (coherent.fits tag i found).restricted inside) fun c inside =>
      .inr ⟨{ i.markers with weight := none }, .inl rfl, inside, by simp [Markers.charge]⟩
  refine ⟨(taking.tolerance_eq intact.sound).trans tolerance, left.mono ?_⟩
  rintro m ⟨other, i', listed, rfl⟩
  obtain ⟨different, known⟩ := get?_withErased.1 listed
  exact .inr ⟨other, i', different, known, rfl⟩

/-- A constraint is withdrawn with its penalties and its columns. -/
theorem Coherent.withdrawn (spared : restraint ≠ .free → i.markers.main.isDummy = false) :
    (s.withErased tag (inner.cleared ⟨i, 0⟩)).Coherent precise restraint ∧
      s.Recalls (s.withErased tag (inner.cleared ⟨i, 0⟩)) := by
  have grows := coherent.grows_forgiven found
  have intact := coherent.intact_forgiven found
  have taking := coherent.changes_taken found removed
  have old {other : Tag} {i' : Installed Rat}
      (left : (s.withErased tag (inner.cleared ⟨i, 0⟩)).installed.get? other = some i') :
      s.installed.get? other = some i' := (get?_withErased.1 left).2
  refine ⟨⟨coherent.intact_cleared found removed, fun other => ?_,
    fun other i' left => coherent.fits other i' (old left), fun other i' left c inside => ?_,
    fun other other' i' i'' left left' => coherent.apart other other' i' i'' (old left) (old left'),
    fun other i' left => coherent.binding other i' (old left), coherent.edits,
    coherent.orderly_cleared found removed spared, fun given => ?_⟩,
    fun v known => taking.met intact.sound (grows.changes.met coherent.sound known),
    (taking.tolerance_eq intact.sound).trans (grows.changes.tolerance_eq coherent.sound)⟩
  · have registered : inner.registered.get? other =
        if tag = other then none else s.simplex.registered.get? other := by
      rw [removed.registered, Sorted.Map.get?_erase]
      rfl
    rw [withErased, Sorted.Map.get?_erase]
    refine registered.trans ?_
    rw [coherent.registered]
    split <;> rfl
  · have serial : (inner.cleared ⟨i, 0⟩).nextSerial = s.simplex.nextSerial := removed.serial
    exact serial ▸ coherent.below other i' (old left) c inside
  · have solvent := coherent.solvent given
    obtain ⟨tolerance, accounts⟩ := coherent.accounts_cleared found removed solvent
    exact ⟨tolerance, solvent.weights, accounts⟩

end

end

/-- Taking a constraint back takes back a required equation. -/
def Binds (s : Solver Rat) (c : Constraint Rat) : Prop :=
  ∃ i, s.installed.get? c.tag = some i ∧ i.constraint.comparator = .eq ∧ i.markers.weight = none

/-- The main column of a constraint that is no required equation is no dummy. -/
theorem Coherent.not_dummy_main (coherent : s.Coherent precise restraint) (spared : ¬s.Binds c)
    (found : s.installed.get? c.tag = some i) : i.markers.main.isDummy = false := by
  rcases (coherent.fits _ i found).pivotable_or_dummy i.markers.main_mem_columns with
    pivotable | ⟨dummy, required, -⟩
  · exact Column.not_dummy_of_pivotable pivotable
  · exact absurd ⟨i, found, coherent.binding _ i found dummy, required⟩ spared

/-- Taking a constraint back, whether it is known or not, unless that is refrained from. -/
theorem fares_uninstall (coherent : s.Coherent precise restraint) (c : Constraint Rat)
    (spared : restraint ≠ .free → ¬s.Binds c) : Fares precise restraint (uninstall c) s := by
  cases found : s.installed.get? c.tag with
  | none =>
      have unknown : (uninstall c).run s = (.error (.constraintNotFound c), s) := by
        rw [uninstall, Step.run_bind_get, found]
        rfl
      exact .of_error unknown (refl_of _ s) (by rintro - ⟨⟩)
  | some i =>
      have coherent' := (minds_resetStays s coherent).1
      obtain ⟨inner, removed, ran⟩ := run_uninstall (p := ⟨i, 0⟩) coherent'.sound.toWellFormed
        coherent'.intact.stored (coherent.fits _ i found) found (by
          rw [coherent.registered, found]
          rfl)
      obtain ⟨coherent₂, recalls⟩ := coherent'.withdrawn found removed fun refrained =>
        coherent.not_dummy_main (spared refrained) found
      exact .of_run_eq ran (trans_of _ (minds_resetStays s) fun _ => ⟨coherent₂, recalls⟩)
        (fares_optimize coherent₂)

end Solver

end SoftSimplex
