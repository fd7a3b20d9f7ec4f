import SoftSimplex.Proofs.Solver.Coherence
import SoftSimplex.Proofs.Solver.Editing

/-!
What callers ask of a solver, step by step.

Suggesting moves constants (`leads_shift`), a session that is refused puts the solver back
(`fares_beginEdit`), and closing one takes back what it registered (`fares_endEdit`). So every command leads
from coherent solvers to coherent ones, whether it answers or fails (`Command.fares`). Where something is
refrained from, the command must heed that: required equations stay installed, and required edits get no
other value (`Command.Heeds`).
-/

namespace SoftSimplex

theorem Markers.mem_columns_of_sub {m : Markers Rat} {c : Column} (sub : m.sub = some c) :
    c ∈ m.columns := by
  rw [columns, sub]
  dsimp only
  split
  · next same => exact same ▸ List.mem_singleton_self _
  · exact List.mem_cons_of_mem _ (List.mem_singleton_self _)

namespace Solver

open Tableau

variable {s s' : Solver Rat} {precise : Prop} {restraint : Restraint} {t : Tableau Rat}
  {m : Markers Rat} {v : Variable} {value change sign : Rat} {column key : Column} {priority : Priority} {comparator : Comparator}
  {session session' : Session Rat} {wish : Wish Rat} {edit : Edit Rat} {batch : Values Rat}
  {pairs : Column → Column → Prop}

/-! ### Suggesting -/

/-- What takes up a suggestion is a column of the edited constraint, and basic. -/
theorem of_basicMarker? (basic : basicMarker? t m = some (column, sign)) :
    column ∈ m.columns ∧ (t.rows.get? column).isSome := by
  obtain ⟨⟨marker, sign'⟩, listed, chosen⟩ := List.exists_of_findSome?_eq_some basic
  obtain ⟨c, rfl, inside⟩ := Option.bind_eq_some_iff.1 chosen
  split at inside
  · next isBasic =>
      obtain ⟨rfl, rfl⟩ := Prod.mk.inj (Option.some.inj inside)
      refine ⟨?_, isBasic⟩
      rw [Markers.editSigns] at listed
      split at listed
      · next same =>
          rw [List.mem_singleton, Prod.mk.injEq] at listed
          exact Markers.mem_columns_of_sub listed.1.symm
      · rw [List.mem_pair, Prod.mk.injEq, Prod.mk.injEq] at listed
        rcases listed with ⟨main, -⟩ | ⟨sub, -⟩
        · exact Option.some.inj main ▸ m.main_mem_columns
        · exact Markers.mem_columns_of_sub sub.symm
  · cases inside

/-- Constants moved, rows were recorded that became negative, and the order was kept. -/
structure Moves (restraint : Restraint) (pairs : Column → Column → Prop) (t t' : Tableau Rat) : Prop where
  changes : Changes ∅ Set.univ t t'
  alike : t.Alike t'
  orderly : t.Orderly restraint pairs → t'.Orderly restraint pairs

instance : IsPreorder (Tableau Rat) (Moves restraint pairs) where
  refl t := ⟨.refl, .refl t, id⟩
  trans _ _ _ first second := ⟨first.changes.trans second.changes, first.alike.trans second.alike,
    fun orderly => second.orderly (first.orderly orderly)⟩

theorem moves_setConstant (t : Tableau Rat) (constant : Rat)
    (harmless : restraint = .still → column.isDummy = false) :
    Moves restraint pairs t (t.setConstant column constant) :=
  ⟨.single (.moved column constant (Set.mem_univ _)), t.alike_setConstant column constant,
    fun orderly => orderly.setConstant fun still dummy =>
      absurd ((harmless still).symm.trans dummy) Bool.false_ne_true⟩

theorem moves_markIfNegative (restricted : key.isRestricted = true)
    (stored : (t.rows.get? key).isSome) (constant : Rat) :
    Moves restraint pairs t (t.markIfNegative key constant) := by
  rw [markIfNegative]
  split
  · exact ⟨.single (.marked restricted stored), ⟨rfl, rfl, rfl, rfl, rfl, fun _ => rfl⟩,
      fun orderly => orderly.of_plain rfl fun _ _ => rfl⟩
  · exact refl_of _ t

theorem leads_shiftRow (column : Column) (change : Rat) (t : Tableau Rat)
    (harmless : restraint = .still → key.isDummy = false) :
    (shiftRow column change key).Leads (Moves restraint pairs) (· ≠ .unbounded) t := by
  refine .congr (Step.run_bind_get _ t) ?_
  cases found : t.rows.get? key with
  | none =>
      exact .of_error (Step.run_bind_of_error (Step.run_ofOption_none _ t)) (refl_of _ t) nofun
  | some row =>
      refine .congr (Step.run_bind_ofOption_some _ row _ t) ?_
      cases present : row.terms.get? column with
      | none =>
          exact .of_error (Step.run_bind_of_error (Step.run_ofOption_none _ t)) (refl_of _ t) nofun
      | some coefficient =>
          refine .congr (Step.run_bind_ofOption_some _ coefficient _ t) ?_
          refine .congr (Step.run_bind_ofExcept_ok _ _ t) (.of_ok (Step.run_set t _) (trans_of _
            (moves_setConstant t (row.constant + coefficient * change) harmless) ?_))
          rw [markIfRestricted]
          split
          · next restricted =>
              refine moves_markIfNegative restricted ?_ _
              rw [get?_setConstant, if_pos rfl, found]
              rfl
          · exact refl_of _ _

/-- Suggesting a value moves constants. Unless the edit is required, those of dummies stay. -/
theorem leads_shift (fits : m.Fits priority comparator) (wf : t.WellFormed)
    (orderly : t.Orderly restraint pairs) (optional : restraint = .still → m.weight ≠ none)
    (change : Rat) : (shift m change).Leads (Moves restraint pairs) (· ≠ .unbounded) t := by
  have notDummy {c : Column} (own : c ∈ m.columns) (still : restraint = .still) : c.isDummy = false := by
    rcases fits.pivotable_or_dummy own with pivotable | ⟨-, required, -⟩
    · exact Column.not_dummy_of_pivotable pivotable
    · exact absurd required (optional still)
  cases basic : basicMarker? t m with
  | some marker =>
      obtain ⟨column, sign⟩ := marker
      obtain ⟨own, stored⟩ := of_basicMarker? basic
      obtain ⟨row, found⟩ := Option.isSome_iff_exists.1 stored
      refine .of_ok (run_shift_of_basic basic found change) (trans_of _
        (moves_setConstant t _ (notDummy own)) (moves_markIfNegative (fits.restricted own) ?_ _))
      rw [get?_setConstant, if_pos rfl, found]
      rfl
  | none =>
      cases sub : m.sub with
      | none =>
          have still : (shift m change).run t = (.ok (), t) := by
            rw [shift, Step.run_bind_get, basic]
            dsimp only
            rw [sub]
            rfl
          exact .of_ok still (refl_of _ t)
      | some column =>
          refine .congr (run_shift_of_outside basic sub change)
            (.forEach fun key listed t' _ => leads_shiftRow column change t' fun still => ?_)
          exact orderly.not_dummy_of_mentions (Restraint.ne_free_of_still still)
            (notDummy (Markers.mem_columns_of_sub sub) still)
            ((wf.listed key column).1 (mem_rowsWith.1 listed))

theorem mem_recordSuggested {sessions : List (Session Rat)}
    (listed : session ∈ recordSuggested v value sessions) :
    ∃ before ∈ sessions, session = before ∨ session = before.suggested v value := by
  induction sessions with
  | nil => cases listed
  | cons first rest ih =>
      rw [recordSuggested] at listed
      split at listed
      · rcases List.mem_cons.1 listed with rfl | later
        · exact ⟨first, List.mem_cons_self, .inr rfl⟩
        · exact ⟨session, List.mem_cons_of_mem _ later, .inl rfl⟩
      · rcases List.mem_cons.1 listed with rfl | later
        · exact ⟨session, List.mem_cons_self, .inl rfl⟩
        · obtain ⟨before, member, same⟩ := ih later
          exact ⟨before, List.mem_cons_of_mem _ member, same⟩

theorem minds_recordSuggested (v : Variable) (value : Rat) (s : Solver Rat) : s.Minds precise restraint
    { s with sessions := recordSuggested v value s.sessions, needsRepair := true } := by
  refine minds_of_same rfl rfl rfl fun session member entry listed => ?_
  obtain ⟨before, known, rfl | rfl⟩ := mem_recordSuggested member
  · exact ⟨session, known, entry, listed, rfl⟩
  · obtain ⟨⟨w, edit⟩, inside, rfl⟩ := List.mem_map.1 listed
    refine ⟨before, known, ⟨w, edit⟩, inside, ?_⟩
    dsimp only
    split <;> rfl

/-- A suggestion is recorded for its own variable. -/
theorem edit?_suggested (session : Session Rat) (v w : Variable) (value : Rat) :
    (session.suggested v value).edit? w =
      if v = w then (session.edit? w).map fun edit => { edit with current := value }
      else session.edit? w := by
  have named (entry : Variable × Edit Rat) : (if entry.1 = v then
      (entry.1, { entry.2 with current := value }) else (entry.1, entry.2)).1 = entry.1 := by
    split <;> rfl
  rw [Session.edit?, Session.edit?, Session.suggested, List.find?_map]
  simp only [Function.comp_def, named, Option.map_map]
  cases search : session.edits.find? fun entry => entry.1 = w with
  | none => simp
  | some entry =>
      have own : entry.1 = w := by simpa using List.find?_some search
      simp only [Option.map_some, own, eq_comm (a := w)]
      split <;> rfl

theorem edit?_recordSuggested (sessions : List (Session Rat)) (v w : Variable) (value : Rat) :
    (recordSuggested v value sessions).findSome? (·.edit? w) =
      if v = w then (sessions.findSome? (·.edit? w)).map fun edit => { edit with current := value }
      else sessions.findSome? (·.edit? w) := by
  induction sessions with
  | nil => simp [recordSuggested]
  | cons session outer ih =>
      have known : session.hasEdit v = (session.edit? v).isSome := by
        rw [Session.hasEdit, Session.edit?, Option.isSome_map, Bool.eq_iff_iff, List.any_eq_true,
          List.find?_isSome]
      rw [recordSuggested, known]
      cases present : session.edit? v with
      | none =>
          rw [Option.isSome_none, if_neg Bool.false_ne_true, List.findSome?_cons, List.findSome?_cons, ih]
          by_cases same : v = w
          · subst same
            simp [present]
          · simp [same]
      | some edit =>
          rw [Option.isSome_some, if_pos rfl, List.findSome?_cons, List.findSome?_cons, edit?_suggested]
          by_cases same : v = w
          · subst same
            simp [present]
          · simp [same]

/-- The edit of a variable is required. -/
def Pinned (s : Solver Rat) (v : Variable) : Prop :=
  ∃ edit, s.edit? v = some edit ∧ edit.markers.weight = none

instance (s : Solver Rat) (v : Variable) : Decidable (s.Pinned v) :=
  decidable_of_iff (∃ edit ∈ s.edit? v, edit.markers.weight = none) Iff.rfl

/-- A suggestion leaves all edits required that are. -/
theorem pinned_of_suggestValue {w : Variable} (ran : (suggestValue v value).run s = (.ok (), s'))
    (pinned : s'.Pinned w) : s.Pinned w := by
  rw [suggestValue, Step.run_bind_get] at ran
  cases found : s.edit? v with
  | none =>
      rw [found] at ran
      cases ran
  | some edit =>
      rw [found] at ran
      simp only [Step.checked_rat, Scalar.isWritable_rat, Bool.and_true, Bool.or_true, Step.ensure_true,
        Step.run_bind_ofExcept_ok, Step.run_bind_modify, Step.run_bind_pureStep, Step.run_bind_report]
        at ran
      have sessions : s'.sessions = recordSuggested v value s.sessions :=
        (congrArg (·.2.sessions) ran).symm
      obtain ⟨other, known, required⟩ := pinned
      rw [edit?, sessions, edit?_recordSuggested] at known
      split at known
      · obtain ⟨before, listed, rfl⟩ := Option.map_eq_some_iff.1 known
        exact ⟨before, listed, required⟩
      · exact ⟨other, known, required⟩

theorem fares_suggestValue (coherent : s.Coherent precise restraint) (v : Variable) (value : Rat)
    (unpinned : restraint = .still → ¬s.Pinned v) : Fares precise restraint (suggestValue v value) s := by
  refine .congr (Step.run_bind_get _ s) ?_
  cases found : s.edit? v with
  | none => exact .of_error (Step.run_failStep _ s) (refl_of _ s) fun _ => nofun
  | some edit =>
      obtain ⟨session, member, known⟩ := List.exists_of_findSome?_eq_some found
      obtain ⟨entry, search, rfl⟩ := Option.map_eq_some_iff.1 known
      obtain ⟨priority, comparator, fits⟩ :=
        coherent.edits session member entry (List.mem_of_find?_eq_some search)
      have optional (still : restraint = .still) : entry.2.markers.weight ≠ none := fun required =>
        unpinned still ⟨entry.2, found, required⟩
      refine .congr (Step.run_bind_ofExcept_ok _ _ s) ?_
      have minds : s.Minds precise restraint _ := minds_recordSuggested v value s
      refine .bind_of_ok (Step.run_modify _ s) minds (.congr
        (y := onSimplex (Simplex.onTableau (shift entry.2.markers (value - entry.2.current)))) ?_ ?_)
      · simp only [Scalar.isWritable_rat, Bool.and_true, Bool.or_true, Step.ensure_true,
          Step.run_bind_pureStep, Step.run_bind_report]
      · have shifting := leads_shift fits coherent.sound.toWellFormed coherent.orderly optional
          (value - entry.2.current)
        refine fares_onSimplex (R := fun before inner => ∃ t, inner = before.withTableau t ∧
          Moves restraint s.Pairs before.tableau t) (Simplex.leads_onTableau shifting fun t moves =>
            ⟨t, rfl, moves⟩) ?_ fun _ allowed _ => allowed
        rintro _ ⟨t, rfl, moves⟩
        exact minds_withTableau moves.changes moves.orderly

/-! ### Solving -/

theorem fares_solveRepaired (coherent : s.Coherent precise restraint) :
    Fares precise restraint solveRepaired s := by
  refine .bind (fares_repair coherent) fun _ s₁ _ _ => ?_
  refine .bind (fares_readValues s₁) fun values s₂ _ _ => ?_
  refine .bind_of_ok (Step.run_modify _ s₂) ?_ (.of_ok (Step.run_return values _) (refl_of _ _))
  refine trans_of _ (minds_forgetInfeasible s₂) (trans_of _ (minds_resetStays _) ?_)
  exact minds_of_same rfl rfl rfl fun session member entry listed =>
    ⟨session, member, entry, listed, rfl⟩

theorem fares_solve (coherent : s.Coherent precise restraint) : Fares precise restraint solve s := by
  refine .congr (Step.run_bind_get _ s) ?_
  split
  · exact fares_solveRepaired coherent
  · exact .bind (fares_optimize coherent) fun _ s₁ _ _ => fares_readValues s₁

theorem ne_unbounded_of_checkSuggestions {suggestions : Values Rat} {fault : Fault Rat}
    (failed : s.checkSuggestions suggestions = .error fault) : fault ≠ .unbounded := by
  induction suggestions with
  | nil => cases failed
  | cons entry rest ih =>
      obtain ⟨v, value⟩ := entry
      rw [checkSuggestions] at failed
      split at failed
      · rw [Scalar.settled_rat, Step.checked_rat] at failed
        cases later : s.checkSuggestions rest with
        | ok kept =>
            rw [later] at failed
            cases failed
        | error reason =>
            rw [later] at failed
            cases failed
            exact ih later
      · cases failed
        rintro ⟨⟩

theorem checkSuggestions_eq_ok {kept : Values Rat} (checked : s.checkSuggestions batch = .ok kept) :
    kept = batch := by
  induction batch generalizing kept with
  | nil =>
      cases checked
      rfl
  | cons entry rest ih =>
      obtain ⟨v, value⟩ := entry
      rw [checkSuggestions] at checked
      split at checked
      · rw [Scalar.settled_rat, Step.checked_rat] at checked
        cases later : s.checkSuggestions rest with
        | error fault =>
            rw [later] at checked
            cases checked
        | ok kept' =>
            rw [later] at checked
            cases checked
            rw [ih later]
      · cases checked

theorem fares_suggest (coherent : s.Coherent precise restraint) (batch : Values Rat)
    (unpinned : restraint = .still → ∀ entry ∈ batch, ¬s.Pinned entry.1) :
    Fares precise restraint (suggest batch) s := by
  refine .congr (Step.run_bind_get _ s) ?_
  cases checked : s.checkSuggestions batch with
  | error fault =>
      exact .of_error (Step.run_bind_ofExcept_error _ _ s) (refl_of _ s) fun _ =>
        ne_unbounded_of_checkSuggestions checked
  | ok kept =>
      obtain rfl := checkSuggestions_eq_ok checked
      refine .congr (Step.run_bind_ofExcept_ok _ _ s) ?_
      refine .bind (.forEach_of_kept (I := fun s₁ => restraint = .still →
        ∀ entry ∈ kept, ¬s₁.Pinned entry.1) unpinned (fun entry listed s₁ minds later =>
        fares_suggestValue (minds coherent).1 entry.1 entry.2 fun still => later still entry listed)
        fun entry listed s₁ s₂ _ later ran still other member pinned =>
          later still other member (pinned_of_suggestValue ran pinned)) fun _ s₁ _ minds => ?_
      exact fares_solveRepaired (minds coherent).1

theorem fares_add (coherent : s.Coherent precise restraint) (c : Constraint Rat) :
    Fares precise restraint (add c) s := by
  refine .congr (Step.run_bind_get _ s) ?_
  split
  · exact .of_error (Step.run_failStep _ s) (refl_of _ s) fun _ => nofun
  · exact .bind (fares_install coherent c) fun _ s₁ _ _ => .of_ok (Step.run_return _ _) (refl_of _ s₁)

/-- The variables of a constraint are met once it was added, or contradicted the others. -/
theorem Coherent.met_add (coherent : s.Coherent precise restraint) {c : Constraint Rat} {e : Rat}
    {v : Variable} (tolerance : s.tableau.tolerance = some e)
    (judged : ∀ fault, ((add c).run s).1 = .error fault → fault.isInfeasible = true)
    (involves : c.Involves e v) : ((add c).run s).2.tableau.Met v := by
  cases known : s.has c with
  | true =>
      rw [run_add_of_has known] at judged
      cases judged _ rfl
  | false =>
      rw [run_add_of_new known] at judged ⊢
      refine coherent.met_install tolerance (fun fault failed => ?_) involves
      have infeasible := judged fault (by rw [Prod.map_fst, failed]; rfl)
      cases fault <;> first | rfl | cases infeasible

/-! ### Sessions -/

theorem minds_tagged (s : Solver Rat) : s.Minds precise restraint s.tagged := fun coherent =>
  ⟨⟨⟨coherent.sound, coherent.intact.stored, coherent.intact.idle, coherent.intact.fresh,
    coherent.intact.numbered⟩, coherent.registered, coherent.fits, coherent.below, coherent.apart,
    coherent.binding, coherent.edits, coherent.orderly, fun given =>
      have solvent := coherent.solvent given
      ⟨solvent.tolerance, solvent.weights, solvent.accounts⟩⟩, .of_same rfl⟩

theorem fares_installEquation (coherent : s.Coherent precise restraint) (left right : LinExpr Rat)
    (priority : Priority) : Fares precise restraint (installEquation left right priority) s := by
  have made : (onSimplex Simplex.freshTag).run s = (.ok (.made s.simplex.nextMade), s.tagged) := rfl
  refine .bind_of_ok made (minds_tagged s) ?_
  exact .bind (fares_install (minds_tagged s coherent).1 _) fun _ s₁ _ _ =>
    .of_ok (Step.run_return _ _) (refl_of _ s₁)

theorem fares_wishedPriority (asked : Option Literal) (default : Priority) (s : Solver Rat) :
    Fares precise restraint (wishedPriority asked default) s := by
  unfold wishedPriority
  split
  · exact .of_ok (Step.run_return _ s) (refl_of _ s)
  · split
    · exact .of_ok (Step.run_return _ s) (refl_of _ s)
    · exact .of_error (Step.run_failStep _ s) (refl_of _ s) fun _ => nofun

theorem fares_fulfil (coherent : s.Coherent precise restraint) (session : Session Rat) (wish : Wish Rat) :
    Fares precise restraint (fulfil session wish) s := by
  cases wish with
  | stay v value asked =>
      refine .congr (Step.run_bind_get _ s) ?_
      split
      · exact .of_error (Step.run_failStep _ s) (refl_of _ s) fun _ => nofun
      · refine .congr (Step.run_bind_ofExcept_ok _ _ s) ?_
        refine .bind (fares_wishedPriority asked _ s) fun priority s₁ _ minds => ?_
        exact .bind (fares_installEquation (minds coherent).1 _ _ priority) fun _ s₂ _ _ =>
          .of_ok (Step.run_return _ _) (refl_of _ s₂)
  | edit v asked =>
      refine .congr (Step.run_bind_get _ s) ?_
      split
      · exact .of_error (Step.run_failStep _ s) (refl_of _ s) fun _ => nofun
      · refine .bind (fares_wishedPriority asked _ s) fun priority s₁ _ minds => ?_
        exact .bind (fares_installEquation (minds coherent).1 _ _ priority) fun _ s₂ _ _ =>
          .of_ok (Step.run_return _ _) (refl_of _ s₂)

theorem fares_fulfilAll (coherent : s.Coherent precise restraint) (session : Session Rat)
    (wishes : List (Wish Rat)) : Fares precise restraint (fulfilAll session wishes) s := by
  induction wishes generalizing s session with
  | nil => exact .of_ok (Step.run_return session s) (refl_of _ s)
  | cons wish rest ih =>
      exact .bind (fares_fulfil coherent session wish) fun session' s₁ _ minds =>
        ih (minds coherent).1 session'

/-- The edits of a session have columns that fit. -/
def Fitted (session : Session Rat) : Prop :=
  ∀ entry ∈ session.edits, ∃ priority comparator, entry.2.markers.Fits priority comparator

theorem fitted_of_fulfil (coherent : s.Coherent precise restraint) (fitted : Fitted session)
    (ran : (fulfil session wish).run s = (.ok session', s')) : Fitted session' := by
  obtain ⟨m, installed, rfl, -⟩ := run_fulfil_eq_ok ran
  cases wish with
  | stay v value asked => exact fitted
  | edit v asked =>
      intro entry listed
      rcases List.mem_append.1 listed with before | own
      · exact fitted entry before
      · rw [List.mem_singleton] at own
        subst own
        exact (minds_tagged s coherent).1.fits_of_install installed

theorem fitted_of_fulfilAll {wishes : List (Wish Rat)} (coherent : s.Coherent precise restraint)
    (fitted : Fitted session) (ran : (fulfilAll session wishes).run s = (.ok session', s')) :
    Fitted session' := by
  induction wishes generalizing s session with
  | nil =>
      cases ran
      exact fitted
  | cons wish rest ih =>
      obtain ⟨session₁, s₁, first, later⟩ := Step.run_bind_eq_ok ran
      have minds := (fares_fulfil coherent session wish).reaches
      rw [first] at minds
      exact ih (minds coherent).1 (fitted_of_fulfil coherent fitted first) later

/-- A session whose wishes were fulfilled is opened. -/
theorem minds_opened {wishes : List (Wish Rat)} (coherent : s.Coherent precise restraint)
    (ran : (fulfilAll {} wishes).run s = (.ok session, s')) :
    s'.Minds precise restraint { s' with sessions := session :: s'.sessions } := fun coherent' => by
  have fitted : Fitted session :=
    fitted_of_fulfilAll coherent (fun _ listed => absurd listed List.not_mem_nil) ran
  exact ⟨⟨coherent'.intact, coherent'.registered, coherent'.fits, coherent'.below, coherent'.apart,
    coherent'.binding, List.forall_mem_cons.2 ⟨fitted, coherent'.edits⟩, coherent'.orderly, fun given =>
      have solvent := coherent'.solvent given
      ⟨solvent.tolerance, solvent.weights, solvent.accounts⟩⟩, .of_same rfl⟩

/-- Opening a session, whether it is opened or refused. -/
theorem fares_beginEdit (coherent : s.Coherent precise restraint) (wishes : List (Wish Rat)) :
    Fares precise restraint (beginEdit wishes) s := by
  refine .bind (.transaction (fares_fulfilAll coherent {} wishes)) fun session s₁ ran minds => ?_
  have coherent₁ := (minds coherent).1
  have reset := trans_of _ (minds_opened coherent (Step.run_transaction_eq_ok ran))
    (trans_of _ (minds_forgetInfeasible _) (minds_resetStays _))
  refine .bind_of_ok (Step.run_modify _ s₁) reset ?_
  exact .bind (fares_optimize (reset coherent₁).1) fun _ s₂ _ _ => fares_snapshot _ s₂

/-! ### Taking back one after another -/

/-- Nothing is installed that was not installed before. -/
def Shrinks (s s' : Solver Rat) : Prop :=
  ∀ tag i, s'.installed.get? tag = some i → s.installed.get? tag = some i

instance : IsPreorder (Solver Rat) Shrinks where
  refl _ := fun _ _ => id
  trans _ _ _ first second := fun tag i left => first tag i (second tag i left)

theorem shrinks_onSimplex {α : Type} (x : Step Rat (Simplex Rat) α) (s : Solver Rat) :
    (onSimplex x).Leads Shrinks (fun _ => True) s :=
  ⟨fun _ _ => id, fun _ _ => trivial⟩

theorem shrinks_readValues (s : Solver Rat) : readValues.Leads Shrinks (fun _ => True) s :=
  .bind (shrinks_onSimplex _ s) fun _ s₁ _ _ =>
    .of_ok (Step.run_bind_modify _ _ s₁) fun _ _ => id

/-- What a solver is left with once a constraint was taken back, whether that answered or failed. -/
theorem leads_uninstall (c : Constraint Rat) (s : Solver Rat) : (uninstall c).Leads
    (fun s s' => s'.installed.get? c.tag = none ∧ s.Shrinks s') (fun _ => True) s := by
  cases found : s.installed.get? c.tag with
  | none =>
      have unknown : (uninstall c).run s = (.error (.constraintNotFound c), s) := by
        rw [uninstall, Step.run_bind_get, found]
        rfl
      exact .of_error unknown ⟨found, refl_of _ s⟩ trivial
  | some i =>
      have penalizing (column : Column) (weight : Rat) (s₁ : Solver Rat) :
          (penalize column weight).Leads Shrinks (fun _ => True) s₁ := by
        refine .congr (Step.run_bind_get _ s₁) ?_
        split
        · exact .of_error (Step.run_failStep _ s₁) (refl_of _ s₁) trivial
        · exact shrinks_onSimplex _ s₁
      have taking (s₁ : Solver Rat) : (do
          onSimplex (Simplex.remove c)
          Step.forEach (i.markers.errors.filter (· ≠ i.markers.main)) fun error =>
            changeTableau fun t => (t.removeRow error).removeColumn error
          onSimplex Simplex.optimize : Step Rat (Solver Rat) Unit).Leads Shrinks (fun _ => True) s₁ :=
        .bind (shrinks_onSimplex _ s₁) fun _ s₂ _ _ =>
          .bind (.forEach fun _ _ s₃ _ => shrinks_onSimplex _ s₃) fun _ s₃ _ _ => shrinks_onSimplex _ s₃
      have leads : (uninstall c).Leads
          (fun _ => Shrinks { s with installed := s.installed.erase c.tag }) (fun _ => True) s := by
        refine .of_later (Step.run_bind_get _ s) ?_
        rw [found]
        refine .of_later (Step.run_bind_ofOption_some _ i _ s) (.of_later (Step.run_bind_modify _ _ s)
          (.of_later (Step.run_bind_modify _ _ _) ?_))
        cases i.markers.weight with
        | none => exact (taking _).mono (fun _ => id) fun _ => id
        | some weight =>
            refine Step.Leads.mono (R := Shrinks) (.bind (.forEach fun error _ s₁ _ =>
              penalizing error (-weight) s₁) fun _ s₁ _ _ => taking s₁) (fun _ => id) fun _ => id
      refine leads.mono (fun s' shrinks => ?_) fun _ => id
      have erased (tag : Tag) (i : Installed Rat) (left : s'.installed.get? tag = some i) :
          c.tag ≠ tag ∧ s.installed.get? tag = some i := by
        have before := shrinks tag i left
        rw [Sorted.Map.get?_erase] at before
        split at before
        · cases before
        · exact ⟨‹_›, before⟩
      refine ⟨?_, fun tag i left => (erased tag i left).2⟩
      cases left : s'.installed.get? c.tag with
      | none => rfl
      | some i => exact absurd rfl (erased c.tag i left).1

/-- Required equations that are installed stay installed. -/
def Honours (s s' : Solver Rat) : Prop := ∀ tag i, s.installed.get? tag = some i →
  i.constraint.comparator = .eq → i.markers.weight = none → (s'.installed.get? tag).isSome

theorem honours_iff : s.Honours s' ↔ ∀ entry ∈ s.installed.toList, entry.2.constraint.comparator = .eq →
    entry.2.markers.weight = none → (s'.installed.get? entry.1).isSome :=
  ⟨fun honours _ listed => honours _ _ (Sorted.Map.get?_eq_some_iff.2 listed),
    fun each tag i found => each (tag, i) (Sorted.Map.get?_eq_some_iff.1 found)⟩

instance (s s' : Solver Rat) : Decidable (s.Honours s') := decidable_of_iff _ honours_iff.symm

/-- Constraints are taken back one after another, unless a required equation is lost that is not to be. -/
theorem fares_uninstallAll (coherent : s.Coherent precise restraint) (constraints : List (Constraint Rat))
    (honours : restraint ≠ .free → s.Honours ((Step.forEach constraints uninstall).run s).2) :
    Fares precise restraint (Step.forEach constraints uninstall) s := by
  induction constraints generalizing s with
  | nil => exact .of_ok (Step.run_forEach_nil _ s) (refl_of _ s)
  | cons c rest ih =>
      have lost : ((Step.forEach (c :: rest) uninstall).run s).2.installed.get? c.tag = none := by
        refine (Step.Leads.bind_into (S := fun _ s' => s'.installed.get? c.tag = none)
          (leads_uninstall c s) (fun _ => And.left) fun _ s₁ _ ⟨absent, _⟩ => ?_).reaches
        have shrinking : (Step.forEach rest uninstall).Leads Shrinks (fun _ => True) s₁ :=
          .forEach fun d _ s₂ _ => (leads_uninstall d s₂).mono (fun _ => And.right) fun _ => id
        refine shrinking.mono (fun s' shrinks => ?_) fun _ => id
        rw [← Option.not_isSome_iff_eq_none, Option.isSome_iff_exists]
        rintro ⟨i, left⟩
        rw [shrinks c.tag i left] at absent
        cases absent
      have spared (refrained : restraint ≠ .free) : ¬s.Binds c := by
        rintro ⟨i, found, equation, required⟩
        have kept := honours refrained c.tag i found equation required
        rw [lost] at kept
        cases kept
      refine .bind (fares_uninstall coherent c spared) fun _ s₁ ran minds =>
        ih (minds coherent).1 fun refrained tag i found equation required => ?_
      have shrinks := (leads_uninstall c s).reaches.2
      rw [ran] at shrinks
      rw [← Step.run_forEach_cons_of_ok ran]
      exact honours refrained tag i (shrinks tag i found) equation required

/-- Closing a session, whether there is one or not, unless a required equation is lost that is not to
be. -/
theorem fares_endEdit (coherent : s.Coherent precise restraint)
    (honours : restraint ≠ .free → s.Honours (endEdit.run s).2) :
    Fares precise restraint endEdit s := by
  cases sessions : s.sessions with
  | nil =>
      exact .congr (Step.run_bind_get _ s) (by
        rw [sessions]
        exact .of_error (Step.run_failStep _ s) (refl_of _ s) fun _ => nofun)
  | cons session outer =>
      have closed : s.Minds precise restraint { s with sessions := outer } :=
        minds_of_same rfl rfl rfl fun before member entry listed =>
          ⟨before, sessions ▸ List.mem_cons_of_mem _ member, entry, listed, rfl⟩
      have coherent₁ := (closed coherent).1
      have closing : endEdit.Leads (fun _ => Shrinks ((Step.forEach session.constraints uninstall).run
          { s with sessions := outer }).2) (fun _ => True) s := by
        refine .of_later (Step.run_bind_get _ s) ?_
        rw [sessions]
        refine .of_later (Step.run_bind_modify _ _ s) (.bind_into ⟨rfl, fun _ _ => trivial⟩
          (R := fun s₁ s₂ => s₂ = ((Step.forEach session.constraints uninstall).run s₁).2)
          (fun _ same => same ▸ refl_of _ _) fun _ s₁ _ same => same ▸ ?_)
        refine Step.Leads.mono (R := Shrinks) (.bind_of_ok (Step.run_modify _ _) (fun _ _ => id)
          (.bind (shrinks_onSimplex _ _) fun _ s₂ _ _ => .bind (shrinks_readValues s₂)
            fun _ s₃ _ _ => shrinks_onSimplex _ s₃)) (fun _ => id) fun _ => id
      have released (refrained : restraint ≠ .free) : Honours { s with sessions := outer }
          ((Step.forEach session.constraints uninstall).run { s with sessions := outer }).2 := by
        intro tag i found equation required
        obtain ⟨i', left⟩ := Option.isSome_iff_exists.1 (honours refrained tag i found equation required)
        exact Option.isSome_iff_exists.2 ⟨i', closing.reaches tag i' left⟩
      refine .congr (Step.run_bind_get _ s) ?_
      rw [sessions]
      refine .bind_of_ok (Step.run_modify _ s) closed ?_
      refine .bind (fares_uninstallAll coherent₁ session.constraints released) fun _ s₁ _ minds => ?_
      have unrepaired : s₁.Minds precise restraint { s₁ with needsRepair := false } :=
        minds_of_same rfl rfl rfl fun before member entry listed =>
          ⟨before, member, entry, listed, rfl⟩
      refine .bind_of_ok (Step.run_modify _ s₁) unrepaired ?_
      refine .bind (fares_optimize (unrepaired (minds coherent₁).1).1) fun _ s₂ _ _ => ?_
      exact .bind (fares_readValues s₂) fun _ s₃ _ _ => fares_snapshot _ s₃

/-! ### Commands -/

/-- The variables that a command suggests values for. -/
def Command.suggested : Command → List Variable
  | suggest batch => batch.map (·.1)
  | suggestValue v _ => [v]
  | _ => []

/-- A command takes no required equation back, and suggests no value for a required edit, if that is
refrained from. -/
structure Command.Heeds (restraint : Restraint) (s : Solver Rat) (command : Command) : Prop where
  honours : restraint ≠ .free → s.Honours (command.step.run s).2
  unpinned : restraint = .still → ∀ v ∈ command.suggested, ¬s.Pinned v

theorem Command.heeds_free (command : Command) (s : Solver Rat) : command.Heeds .free s :=
  ⟨absurd rfl, (absurd · Restraint.free_ne_still)⟩

theorem Command.fares (coherent : s.Coherent precise restraint) (command : Command)
    (heeds : command.Heeds restraint s) : Fares precise restraint command.step s := by
  cases command with
  | add c => exact fares_add coherent c
  | remove c =>
      refine fares_uninstall coherent c fun refrained ⟨i, found, equation, required⟩ => ?_
      have kept : (((uninstall c).run s).2.installed.get? c.tag).isSome :=
        heeds.honours refrained c.tag i found equation required
      rw [(leads_uninstall c s).reaches.1] at kept
      cases kept
  | beginEdit wishes => exact fares_beginEdit coherent wishes
  | endEdit => exact fares_endEdit coherent heeds.honours
  | suggest batch =>
      refine .bind (fares_suggest coherent batch fun still entry listed => ?_) fun _ s₁ _ _ =>
        .of_ok (Step.run_return _ _) (refl_of _ s₁)
      exact heeds.unpinned still entry.1 (List.mem_map_of_mem listed)
  | suggestValue v value =>
      exact fares_suggestValue coherent v value fun still =>
        heeds.unpinned still v (List.mem_singleton_self v)
  | solve =>
      exact .bind (fares_solve coherent) fun _ s₁ _ _ => .of_ok (Step.run_return _ _) (refl_of _ s₁)

end Solver

end SoftSimplex
