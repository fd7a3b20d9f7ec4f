import SoftSimplex.Proofs.Simplex.Adding
import SoftSimplex.Proofs.Tableau.Orderly

/-!
What happens to any simplex solver.

Optimising, repairing and putting rows in change the tableau step by step, for every tolerance and
whether they answer or fail (`Grows`). A row that is put in touches only columns that were not known, the
first phase leaves nothing over even where it fails, and tableaus stay in order
(`Addable.leads_insertRow`). Without tolerance the first phase does not run without bound
(`Enterable.bounded`).
-/

namespace SoftSimplex

namespace Tableau

variable {t t' : Tableau Rat} {row : Row Rat} {a entry : Column} {restraint : Restraint}
  {pairs : Column → Column → Prop}

/-- In the first phase the objective charges one for the artificial column. -/
theorem Enterable.billed (enterable : t.Enterable row a) :
    (t.phaseOne row a).Billed .artificialObjective ((Row.ofConstant 0).addTerm a 1) := fun σ holds => by
  rw [enterable.objective_eq holds, Row.eval_addTerm, Row.eval_ofConstant, zero_add, one_mul]

theorem Enterable.bounded (enterable : t.Enterable row a) (exact : t.tolerance = some 0) :
    (t.phaseOne row a).Bounded .artificialObjective := by
  refine ⟨?_, _, enterable.billed, fun c nonzero => ?_⟩
  · rw [phaseOne, tolerance_insertRow, tolerance_insertRow, exact]
  · rw [Row.coefficient_addTerm, Row.coefficient_ofConstant, zero_add] at nonzero ⊢
    split at nonzero
    · next same =>
        rw [if_pos same]
        exact ⟨same ▸ enterable.pivotable, zero_le_one⟩
    · exact absurd rfl nonzero

/-! ### The end of the first phase -/

/-- What expelling an artificial column comes to: exchanges, and perhaps the row of the column is dropped
then, or another column takes its place when the objective is zero. -/
inductive Expelled (t : Tableau Rat) (a : Column) : Tableau Rat → Prop where
  | left {t' : Tableau Rat} (exchanges : t.Exchanges t') : Expelled t a t'
  | dropped {t' : Tableau Rat} (exchanges : t.Exchanges t') : Expelled t a (t'.removeRow a)
  | replaced {t' : Tableau Rat} {goal row : Row Rat} {entry : Column} (exchanges : t.Exchanges t')
      (stored : t'.rows.get? .artificialObjective = some goal)
      (near : t'.nearZero goal.constant = true) (pivotal : t'.Pivotal entry a row)
      (preferred : entry.isPivotable = true ∨
        ∀ c, row.terms.contains c = true → c.isPivotable = false) :
      Expelled t a (t'.pivoted entry a row)

theorem Expelled.changes (expelled : t.Expelled a t') (pivotable : a.isPivotable = true) :
    Changes {a} ∅ t t' := by
  have restricted := Column.restricted_of_pivotable pivotable
  cases expelled with
  | left exchanges => exact exchanges.changes
  | dropped exchanges =>
      refine .tail exchanges.changes (.removed (Column.not_external_of_restricted restricted) ?_ rfl)
      rintro rfl
      cases pivotable
  | replaced exchanges _ _ pivotal _ => exact .tail exchanges.changes (.pivoted pivotal)

/-- Withdrawing an artificial column keeps the order. -/
theorem Orderly.withdrawn (orderly : t.Orderly restraint pairs) (wf : t.WellFormed)
    (single : Unpaired pairs a) : (t.withdrawn a).Orderly restraint pairs :=
  (orderly.removeRow .artificialObjective).removeColumn (wf.removeRow _) single

/-- A dummy may take the place of an artificial column that is withdrawn, if the row of that column has
dummies only and is zero. -/
theorem Orderly.withdrawn_pivoted (orderly : t.Orderly restraint pairs) (wf : t.WellFormed)
    (single : Unpaired pairs a) (pivotable : a.isPivotable = true) (pivotal : t.Pivotal entry a row)
    (dummies : ∀ c, t.Mentions a c → c.isDummy = true)
    (zero : t.tolerance = some 0 → row.constant = 0) :
    ((t.pivoted entry a row).withdrawn a).Orderly restraint pairs := by
  have wf' : (t.pivoted entry a row).WellFormed := wf.pivoted pivotal
  have tolerance : ((t.pivoted entry a row).withdrawn a).tolerance = t.tolerance := by
    rw [Tableau.withdrawn, tolerance_removeColumn, tolerance_removeRow, wf.tolerance_pivoted]
  have sheltered :=
    orderly.sheltered.pivoted wf pivotal (Column.restricted_of_pivotable pivotable)
  refine ⟨fun key c restricted mentioned => ?_, fun keeping key c dummy mentioned => ?_,
    fun still exact c dummy => ?_, fun exact m n listed => ?_⟩
  · exact sheltered key c restricted (wf'.mentions_of_mentions_withdrawn mentioned).2
  · obtain ⟨different, before⟩ := wf'.mentions_of_mentions_withdrawn mentioned
    rcases wf.mentions_of_mentions_pivoted pivotal before with
      ⟨-, source⟩ | ⟨-, -, kept | ⟨-, source⟩⟩
    · exact dummies c (source.resolve_left different)
    · exact orderly.insulated keeping key c dummy kept
    · exact dummies c (source.resolve_left different)
  · have before : t.Exact := ⟨wf, tolerance.symm.trans exact⟩
    have plain : c ≠ .artificialObjective := by
      rintro rfl
      cases dummy
    rw [(before.pivoted pivotal).basicSolution_withdrawn plain,
      before.still_pivoted pivotal (zero before.exact)]
    exact orderly.grounded still before.exact c dummy
  · have before : t.Exact := ⟨wf, tolerance.symm.trans exact⟩
    exact (((orderly.paired before.exact m n listed).pivoted before pivotal).removeRow _).removeColumn
      (wf'.removeRow _) (single m n listed).1 (single m n listed).2

/-- Where the objective of the first phase is zero, so is the artificial column. -/
theorem Enterable.constant_eq_zero {t₂ : Tableau Rat} {goal other : Row Rat}
    (enterable : t.Enterable row a) (sound : (t.phaseOne row a).Sound)
    (exchanges : (t.phaseOne row a).Exchanges t₂) (exact : t₂.tolerance = some 0)
    (stored : t₂.rows.get? .artificialObjective = some goal) (near : t₂.nearZero goal.constant = true)
    (found : t₂.rows.get? a = some other) : other.constant = 0 := by
  have changes : Changes ∅ ∅ (t.phaseOne row a) t₂ := exchanges.changes
  have start := (changes.tolerance_eq sound).symm.trans exact
  have billed := changes.billed_of_still sound start enterable.billed (Set.notMem_empty _) fun c _ =>
    Set.notMem_empty c
  have same := billed _ (changes.sound sound).holds_basicSolution
  rw [Row.eval_addTerm, Row.eval_ofConstant, zero_add, one_mul, basicSolution_of_basic stored,
    basicSolution_of_basic found] at same
  rw [← same]
  rw [nearZero_eq exact] at near
  exact (Scalar.nearZero_zero _).1 near

/-- The first phase keeps the order, whether it answers or fails. -/
theorem Enterable.orderly_withdrawn (enterable : t.Enterable row a) (sound : (t.phaseOne row a).Sound)
    (orderly : (t.phaseOne row a).Orderly restraint pairs) (single : Unpaired pairs a)
    (expelled : (t.phaseOne row a).Expelled a t') : (t'.withdrawn a).Orderly restraint pairs := by
  have reached {t₂ : Tableau Rat} (exchanges : (t.phaseOne row a).Exchanges t₂) :
      t₂.WellFormed ∧ t₂.Orderly restraint pairs :=
    have changes : Changes ∅ ∅ (t.phaseOne row a) t₂ := exchanges.changes
    ⟨(changes.sound sound).toWellFormed, orderly.exchanges sound exchanges⟩
  have restricted := Column.restricted_of_pivotable enterable.pivotable
  cases expelled with
  | left exchanges =>
      obtain ⟨wf, orderly₂⟩ := reached exchanges
      exact orderly₂.withdrawn wf single
  | dropped exchanges =>
      obtain ⟨wf, orderly₂⟩ := reached exchanges
      exact (orderly₂.removeRow a).withdrawn (wf.removeRow a) single
  | @replaced t₂ _ other _ exchanges stored near pivotal preferred =>
      obtain ⟨wf, orderly₂⟩ := reached exchanges
      rcases preferred with enters | fixed
      · exact (orderly₂.pivoted wf pivotal (fun _ => Column.not_dummy_of_pivotable enters)
          restricted).withdrawn (wf.pivoted pivotal) single
      · refine orderly₂.withdrawn_pivoted wf single enterable.pivotable pivotal (fun c mentioned => ?_)
          fun exact => enterable.constant_eq_zero sound exchanges exact stored near pivotal.found
        have inner := Column.restricted_of_internal (orderly₂.sheltered a c restricted mentioned)
          (wf.noObjective a c mentioned)
        refine (Column.pivotable_or_dummy inner).resolve_left ?_
        rw [fixed c ((mentions_iff_contains pivotal.found).1 mentioned)]
        exact Bool.false_ne_true

end Tableau

namespace Simplex

open Tableau

variable {s s' : Simplex Rat} {free more moving : Set Column} {row : Row Rat} {a column : Column}
  {restraint : Restraint} {pairs : Column → Column → Prop}

/-- A solver came from another one by changes of its tableau, and may have made symbols. -/
structure Grows (free moving : Set Column) (s s' : Simplex Rat) : Prop extends s.Keeps s' where
  changes : Changes free moving s.tableau s'.tableau
  fresh : s.Fresh → s'.Fresh

instance : IsPreorder (Simplex Rat) (Grows free moving) where
  refl _ := ⟨⟨rfl, rfl, rfl, le_rfl⟩, .refl, id⟩
  trans _ _ _ first second :=
    ⟨first.toKeeps.trans second.toKeeps, first.changes.trans second.changes,
      fun fresh => second.fresh (first.fresh fresh)⟩

theorem Grows.mono (grows : s.Grows free moving s') (subset : free ⊆ more) : s.Grows more moving s' :=
  ⟨grows.toKeeps, grows.changes.mono subset, grows.fresh⟩

/-- Changes of the tableau in columns that were numbered. -/
theorem grows_withTableau {t : Tableau Rat} (changes : Changes free moving s.tableau t)
    (sound : s.tableau.Sound) (below : ∀ c ∈ free, c.Below s.nextSerial) :
    s.Grows free moving (s.withTableau t) where
  toKeeps := s.keeps_withTableau t
  changes := changes
  fresh fresh c known := (changes.mem_scope sound known).elim (fresh c) (below c)

/-- A step on the tableau. -/
theorem leads_onTableau {α : Type} {x : Step Rat (Tableau Rat) α} {P : Fault Rat → Prop}
    {R : Tableau Rat → Tableau Rat → Prop} {S : Simplex Rat → Simplex Rat → Prop}
    (leads : x.Leads R P s.tableau) (related : ∀ t, R s.tableau t → S s (s.withTableau t)) :
    (onTableau x).Leads S P s := leads.zoom related

/-! ### Optimising and repairing -/

/-- A solver came from another one by exchanges in its tableau. -/
structure Exchanged (s s' : Simplex Rat) : Prop extends s.Keeps s' where
  exchanges : s.tableau.Exchanges s'.tableau

instance : IsPreorder (Simplex Rat) Exchanged where
  refl _ := ⟨⟨rfl, rfl, rfl, le_rfl⟩, .refl⟩
  trans _ _ _ first second :=
    ⟨first.toKeeps.trans second.toKeeps, first.exchanges.trans second.exchanges⟩

theorem Exchanged.grows (exchanged : s.Exchanged s') (sound : s.tableau.Sound) :
    s.Grows free moving s' where
  toKeeps := exchanged.toKeeps
  changes := exchanged.exchanges.changes
  fresh fresh c known := by
    have changes : Changes ∅ ∅ s.tableau s'.tableau := exchanged.exchanges.changes
    have before := (changes.mem_scope sound known).resolve_right (Set.notMem_empty c)
    exact (fresh c before).mono exchanged.serial

theorem leads_optimize (sound : s.tableau.Sound) (objective : Column) :
    (optimize objective).Leads Exchanged
      (fun fault => s.tableau.Bounded objective → fault ≠ .unbounded) s := by
  cases needed : s.needsOptimize with
  | false => exact .of_ok (run_optimize_of_not_needed needed) (refl_of _ s)
  | true =>
      refine .congr (Step.run_bind_get _ s) ?_
      simp only [needed, if_true]
      refine .bind (leads_onTableau (sound.leads_minimize objective) fun t exchanges =>
        ⟨s.keeps_withTableau t, exchanges⟩) fun ending s' _ _ => ?_
      cases ending with
      | reached => exact .of_ok (Step.run_modify _ _) ⟨⟨rfl, rfl, rfl, le_rfl⟩, .refl⟩
      | noObjective => exact .of_ok (Step.run_return _ _) (refl_of _ s')

theorem leads_repair (sound : s.tableau.Sound) (objective : Column) :
    (repair objective).Leads Exchanged (· ≠ .unbounded) s :=
  leads_onTableau (sound.leads_repair objective) fun t exchanges => ⟨s.keeps_withTableau t, exchanges⟩

/-! ### The first phase -/

/-- A solver came from another one by expelling an artificial column. -/
structure Expelling (a : Column) (s s' : Simplex Rat) : Prop extends s.Keeps s' where
  expelled : s.tableau.Expelled a s'.tableau

theorem Expelling.grows (expelling : s.Expelling a s') (sound : s.tableau.Sound)
    (pivotable : a.isPivotable = true) (below : a.Below s.nextSerial) : s.Grows {a} ∅ s' := by
  have changes := expelling.expelled.changes pivotable
  refine ⟨expelling.toKeeps, changes, fun fresh c known => ?_⟩
  rcases changes.mem_scope sound known with before | rfl
  · exact (fresh c before).mono expelling.serial
  · exact below.mono expelling.serial

/-- The end of the first phase touches its objective and the artificial column. -/
theorem grows_withdrawn (sound : s.tableau.Sound) (numbered : 2 ≤ s.nextSerial)
    (pivotable : a.isPivotable = true) (below : a.Below s.nextSerial) :
    s.Grows {.artificialObjective, a} ∅ (s.withTableau (s.tableau.withdrawn a)) := by
  have symbol := Column.not_external_of_restricted (Column.restricted_of_pivotable pivotable)
  have withdrawing : Changes {.artificialObjective, a} ∅ s.tableau (s.tableau.withdrawn a) :=
    .tail (.single (.removed rfl (by simp [Column.objective, Column.artificialObjective])
      (Set.mem_insert _ _))) (.struck symbol (Set.mem_insert_of_mem _ rfl))
  refine grows_withTableau withdrawing sound fun c own => ?_
  rcases own with rfl | rfl
  · exact Nat.lt_of_lt_of_le Nat.one_lt_two numbered
  · exact below

/-- Expelling an artificial column makes exchanges, and then drops the row of that column or lets another
one take its place. -/
theorem leads_expelArtificial (sound : s.tableau.Sound) (pivotable : a.isPivotable = true) :
    (expelArtificial a).Leads (Expelling a)
      (fun fault => s.tableau.Bounded .artificialObjective → fault ≠ .unbounded) s := by
  have resumed {s' : Simplex Rat}
      (exchanged : ({ s with needsOptimize := true } : Simplex Rat).Exchanged s') : s.Keeps s' :=
    ⟨exchanged.goal, exchanged.registered, exchanged.nextMade, exchanged.serial⟩
  refine Step.Leads.of_later (Step.run_bind_modify _ _ s) ?_
  refine .bind_into (leads_optimize (s := { s with needsOptimize := true }) sound .artificialObjective)
    (fun s' exchanged => ⟨resumed exchanged, .left exchanged.exchanges⟩) fun _ s' _ exchanged => ?_
  have keeps := resumed exchanged
  have exchanges : s.tableau.Exchanges s'.tableau := exchanged.exchanges
  have changes : Changes ∅ ∅ s.tableau s'.tableau := exchanges.changes
  have sound' : s'.tableau.Sound := changes.sound sound
  have ended {t : Tableau Rat} (expelled : s.tableau.Expelled a t) : s.Expelling a (s'.withTableau t) :=
    ⟨keeps.trans (s'.keeps_withTableau t), expelled⟩
  have left : s.Expelling a s' := ended (.left exchanges)
  obtain ⟨e, tolerance, -⟩ := sound'.tolerant
  refine Step.Leads.congr (Step.run_bind_get _ s') ?_
  dsimp only
  cases stored : s'.tableau.rows.get? .artificialObjective with
  | none =>
      exact .of_error (Step.run_bind_of_error
        (Step.run_ofOption_none (.missing .artificialObjective) _)) left fun _ => nofun
  | some goal =>
      refine .congr (Step.run_bind_ofOption_some (.missing .artificialObjective) _ _ _) ?_
      simp only [tolerance, Option.isNone_some, Bool.false_eq_true, if_false]
      split
      · next near =>
          cases inside : s'.tableau.rows.get? a with
          | none => exact .of_ok (Step.run_return _ _) left
          | some row =>
              rcases replacement?_cases row with ⟨chosen, -⟩ | ⟨entry, chosen, present, preferred⟩
              · simp only [chosen]
                exact .of_ok (run_changeTableau _ _) (ended (.dropped exchanges))
              · have pivotal : s'.tableau.Pivotal entry a row :=
                  ⟨inside, present, Column.not_objective_of_pivotable pivotable⟩
                simp only [chosen]
                exact .of_ok (run_onTableau_of_ok (sound'.run_pivot pivotal))
                  (ended (.replaced exchanges stored near pivotal preferred))
      · exact .of_error (Step.run_failStep _ _) left fun _ => nofun

/-! ### Putting rows in -/

/-- A row can be put into a solver. -/
structure Addable (s : Simplex Rat) (row : Row Rat) : Prop where
  sound : s.tableau.Sound
  idle : s.tableau.rows.get? .artificialObjective = none
  fresh : s.Fresh
  numbered : 2 ≤ s.nextSerial
  parametric : s.tableau.Parametric row
  below : ∀ c, row.terms.contains c = true → c.Below s.nextSerial

/-- Columns that come in pairs were numbered, and without tolerance their coefficients cancel in a row. -/
def Suits (s : Simplex Rat) (row : Row Rat) (pairs : Column → Column → Prop) : Prop :=
  ∀ m n, pairs m n → (m.Below s.nextSerial ∧ n.Below s.nextSerial) ∧
    (s.tableau.tolerance = some 0 → row.Cancels m n)

/-- The order is kept when the first phase begins. -/
theorem Suits.orderly_phaseOne (suits : s.Suits row pairs)
    (internal : ∀ c, row.terms.contains c = true → c.isExternal = false)
    (enterable : s.tableau.Enterable row a) (single : Unpaired pairs a)
    (orderly : s.tableau.Orderly restraint pairs) :
    (s.tableau.phaseOne row a).Orderly restraint pairs := by
  have posed : (s.tableau.insertRow .artificialObjective row).Orderly restraint pairs :=
    orderly.of_plain (tolerance_insertRow _ _ _) fun key plain => by
      rw [get?_insertRow, if_neg]
      rintro rfl
      cases plain
  refine posed.insertRow enterable.pivotable internal single fun exact m n listed => ?_
  exact (suits m n listed).2 (tolerance_insertRow s.tableau _ _ ▸ exact)

/-- What putting a row in leaves, whether it answers or fails: only new columns were touched, no first
phase is left over, the order is kept, and the unknowns of the row were met. -/
structure Entered (row : Row Rat) (s s' : Simplex Rat) : Prop
    extends Grows {c | c ∉ s.tableau.scope} ∅ s s' where
  idle : s'.tableau.rows.get? .artificialObjective = none
  orderly : ∀ restraint pairs, s.Suits row pairs → s.tableau.Orderly restraint pairs →
    s'.tableau.Orderly restraint pairs
  met : ∀ v, row.terms.contains (.external v) = true → s'.tableau.Met v

namespace Addable

variable (addable : s.Addable row)
include addable

theorem enterable (label : String) :
    s.tableau.Enterable row (.symbol ⟨.artificial, label, s.nextSerial⟩) where
  wf := addable.sound.toWellFormed
  parametric := addable.parametric
  idle := addable.idle
  pivotable := rfl
  new := addable.fresh.not_mem_scope .artificial label
  absent := Bool.eq_false_iff.2 fun present =>
    absurd (addable.below _ present) (Nat.lt_irrefl _)

/-- The first phase begins with an objective and an artificial column that were not known. -/
theorem grows_staged (enterable : s.tableau.Enterable row a) (below : a.Below (s.nextSerial + 1)) :
    s.Grows {c | c ∉ s.tableau.scope} ∅ (s.staged row a) := by
  have symbol := Column.not_external_of_restricted (Column.restricted_of_pivotable enterable.pivotable)
  have staged : Changes {c | c ∉ s.tableau.scope} ∅ s.tableau (s.staged row a).tableau := by
    refine .tail (.single (.inserted enterable.objective_storable rfl enterable.objective_new
      fun c _ => em _)) (.inserted enterable.artificial_storable symbol enterable.new fun c _ => ?_)
    exact (em (c ∈ s.tableau.scope)).imp_left fun known =>
      mem_scope_insertRow.2 (.inr (.inr known))
  refine ⟨keeps_staged s row a, staged, fun fresh c known => ?_⟩
  rcases (mem_scope_phaseOne c).1 known with rfl | rfl | inRow | before
  · exact below
  · exact Nat.lt_succ_of_lt addable.numbered
  · exact (addable.below c inRow).mono (Nat.le_succ _)
  · exact (fresh c before).mono (Nat.le_succ _)

theorem leads_insertByPhaseOne (internal : ∀ c, row.terms.contains c = true → c.isExternal = false) :
    (insertByPhaseOne row).Leads (Entered row)
      (fun fault => s.tableau.tolerance = some 0 → fault ≠ .unbounded) s := by
  obtain ⟨label, answer, s₃, expelled, ran⟩ := run_insertByPhaseOne s row
  have enterable := addable.enterable label
  have below : (Column.symbol ⟨.artificial, label, s.nextSerial⟩).Below (s.nextSerial + 1) :=
    Nat.lt_succ_self _
  have new : ¬(Column.symbol ⟨.artificial, label, s.nextSerial⟩).Below s.nextSerial :=
    Nat.lt_irrefl _
  generalize Column.symbol ⟨.artificial, label, s.nextSerial⟩ = a at expelled ran enterable below new
  have first := addable.grows_staged enterable below
  have sound₂ : (s.staged row a).tableau.Sound := first.changes.sound addable.sound
  have expelling := leads_expelArtificial (s := s.staged row a) sound₂ enterable.pivotable
  have expulsion : (s.staged row a).Expelling a s₃ := by
    have reached := expelling.reaches
    rwa [expelled] at reached
  have grows := expulsion.grows sound₂ enterable.pivotable below
  have sound₃ : s₃.tableau.Sound := grows.changes.sound sound₂
  have last := grows_withdrawn sound₃
    (addable.numbered.trans ((Nat.le_succ _).trans grows.serial)) enterable.pivotable
    (below.mono grows.serial)
  have untouched : ({.artificialObjective, a} : Set Column) ⊆ {c | c ∉ s.tableau.scope} := by
    rintro c (rfl | rfl)
    · exact enterable.objective_new
    · exact enterable.new
  refine ⟨?_, fun fault failed exact => ?_⟩
  · rw [ran]
    refine ⟨trans_of _ first (trans_of _ (grows.mono fun c own => ?_) (last.mono untouched)), ?_,
      fun restraint pairs suits orderly => ?_, fun v inRow => ?_⟩
    · exact untouched (Set.mem_insert_of_mem _ own)
    · rw [tableau_withTableau, withdrawn, get?_removeColumn (sound₃.removeRow _).toWellFormed,
        get?_removeRow, if_pos rfl, Option.map_none]
    · have single : Unpaired pairs a := fun m n listed =>
        ⟨fun same => new (same ▸ (suits m n listed).1.1), fun same => new (same ▸ (suits m n listed).1.2)⟩
      exact enterable.orderly_withdrawn sound₂
        (suits.orderly_phaseOne internal enterable single orderly) single expulsion.expelled
    · cases internal _ inRow
  · rw [ran] at failed
    exact expelling.allowed fault ((congrArg Prod.fst expelled).trans failed) (enterable.bounded exact)

/-- Solving a row for one of its columns. -/
theorem entered_insertSolved (present : row.terms.contains column = true)
    (direct : column.isExternal = true ∨ ∀ c, row.terms.contains c = true → c.isExternal = false)
    (dummies : column.isDummy = true → (∀ c, row.terms.contains c = true → c.isDummy = true) ∧
      (s.tableau.tolerance = some 0 → row.constant = 0)) :
    Entered row s (s.withTableau (s.tableau.introduce column (row.solvedFor column))) := by
  have definable := addable.parametric.definable present
  have known : ∀ c, c = column ∨ (row.solvedFor column).terms.contains c = true →
      row.terms.contains c = true := by
    rintro c (rfl | solved)
    · exact present
    · exact (Row.contains_solvedFor.1 solved).2
  have change : Change {c | c ∉ s.tableau.scope ∧ c.isObjective = false} ∅ s.tableau
      (s.tableau.introduce column (row.solvedFor column)) :=
    .introduced definable (fun c own => (em (c ∈ s.tableau.scope)).imp_right fun new =>
      ⟨new, addable.parametric.plain c (known c own)⟩) (addable.parametric.plain column present)
  refine ⟨⟨s.keeps_withTableau _, .single (change.mono fun c new => new.1), fun fresh c inside => ?_⟩,
    change.stays_absent addable.sound rfl (fun new => by cases new.2) addable.idle,
    fun restraint pairs suits orderly => ?_, fun v inRow => ?_⟩
  · rcases (addable.sound.mem_scope_introduce definable).1 inside with own | solved | before
    · exact addable.below c (known c (.inl own))
    · exact addable.below c (known c (.inr solved))
    · exact fresh c before
  · exact orderly.introduce addable.sound.toWellFormed definable
      (addable.parametric.coefficient_ne_zero present) direct dummies fun exact m n listed =>
        (suits m n listed).2 exact
  · refine (change.sound addable.sound).met_of_mem_scope
      ((addable.sound.mem_scope_introduce definable).2 ?_)
    by_cases own : Column.external v = column
    · exact .inl own
    · exact .inr (.inl (Row.contains_solvedFor.2 ⟨own, inRow⟩))

theorem leads_insertRow (candidates : List Column) : (insertRow row candidates).Leads (Entered row)
    (fun fault => s.tableau.tolerance = some 0 → fault ≠ .unbounded) s := by
  have finished {x : Step Rat (Simplex Rat) Unit}
      (leads : x.Leads (Entered row)
        (fun fault => s.tableau.tolerance = some 0 → fault ≠ .unbounded) s) :
      (do
        x
        Step.modify fun s => { s with needsOptimize := true } :
          Step Rat (Simplex Rat) Unit).Leads (Entered row)
            (fun fault => s.tableau.tolerance = some 0 → fault ≠ .unbounded) s :=
    leads.bind_modify _ fun s' entered =>
      ⟨⟨⟨entered.goal, entered.registered, entered.nextMade, entered.serial⟩, entered.changes,
        entered.fresh⟩, entered.idle, entered.orderly, entered.met⟩
  have solved {column : Column} (present : row.terms.contains column = true)
      (direct : column.isExternal = true ∨ ∀ c, row.terms.contains c = true → c.isExternal = false)
      (dummies : column.isDummy = true → (∀ c, row.terms.contains c = true → c.isDummy = true) ∧
        (s.tableau.tolerance = some 0 → row.constant = 0)) :=
    finished (.of_ok (run_onTableau_of_ok (run_insertSolved addable.sound.toWellFormed
      addable.parametric present)) (addable.entered_insertSolved present direct dummies))
  obtain ⟨e, tolerance, -⟩ := addable.sound.tolerant
  have entry := chosen_basicColumn? e row candidates
  rw [← tolerance] at entry
  refine .congr (Step.run_bind_get _ s) ?_
  generalize basicColumn? s.tableau.tolerance row candidates = chosen at entry ⊢
  cases entry with
  | external external present =>
      refine .congr (Step.run_bind_ofExcept_ok _ _ _) (solved present (.inl external) fun dummy => ?_)
      rw [Column.not_external_of_restricted (Column.restricted_of_dummy dummy)] at external
      cases external
  | slack internal _ slack negative =>
      refine .congr (Step.run_bind_ofExcept_ok _ _ _) (solved
        (Row.contains_of_coefficient negative.ne) (.inr internal) fun dummy => ?_)
      rw [Column.not_dummy_of_pivotable (Column.pivotable_of_slack slack)] at dummy
      cases dummy
  | dummy dummies present near =>
      refine .congr (Step.run_bind_ofExcept_ok _ _ _) (solved present (.inr fun c inRow =>
        Column.not_external_of_restricted (Column.restricted_of_dummy (dummies c inRow)))
        fun _ => ⟨dummies, fun exact => ?_⟩)
      obtain rfl : e = 0 := Option.some.inj (tolerance.symm.trans exact)
      exact (Scalar.nearZero_zero _).1 near
  | contradiction dummies _ =>
      exact .of_error (Step.run_bind_ofExcept_error _ _ _)
        ⟨refl_of _ s, addable.idle, fun _ _ _ => id, fun v inRow => by cases dummies _ inRow⟩
        fun _ => nofun
  | phaseOne internal =>
      exact .congr (Step.run_bind_ofExcept_ok _ _ _) (finished (addable.leads_insertByPhaseOne internal))

end Addable

end Simplex

end SoftSimplex
