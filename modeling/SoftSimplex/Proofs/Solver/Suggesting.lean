import SoftSimplex.Proofs.Simplex.Mending
import SoftSimplex.Proofs.Solver.Shifting

/-!
Values that are suggested and not solved for yet.

A suggestion moves the target of one edit, on the agenda and in the sessions, and leaves a solver that
still owes the repair of its tableau (`Owes.suggested`). A batch of suggestions is one after another
(`Owes.suggestedAll`).
-/

namespace SoftSimplex

open Tableau

variable {items : List Item} {i j : Item} {depth : Nat} {v : Variable} {value target : Rat}
  {agenda : List Entry}

/-! ### Agendas -/

/-- Values can be suggested for a variable. -/
def Editable (agenda : List Entry) (v : Variable) : Prop := ∃ e ∈ agenda, e.role.edited? = some v

/-- Edits move to suggested values one after another. -/
def retargetedAll (batch : Values Rat) (agenda : List Entry) : List Entry :=
  batch.foldl (fun agenda entry => retargeted entry.1 entry.2 agenda) agenda

@[simp] theorem retargetedAll_nil (agenda : List Entry) : retargetedAll [] agenda = agenda := rfl

@[simp] theorem retargetedAll_cons (entry : Variable × Rat) (batch : Values Rat)
    (agenda : List Entry) : retargetedAll (entry :: batch) agenda =
      retargetedAll batch (retargeted entry.1 entry.2 agenda) := rfl

theorem mem_retargeted {e : Entry} : e ∈ retargeted v value agenda ↔
    ∃ e₀ ∈ agenda, { e₀ with role := e₀.role.retargeted v value } = e := List.mem_map

/-- What can be edited does not depend on targets. -/
theorem editable_retargeted {w : Variable} : Editable (retargeted v value agenda) w ↔
    Editable agenda w := by
  simp only [Editable, mem_retargeted, exists_exists_and_eq_and, Role.edited?_retargeted]

/-! ### What sessions record -/

theorem Session.suggested_of_not_hasEdit {session : Session Rat}
    (other : session.hasEdit v = false) (value : Rat) : session.suggested v value = session := by
  have same : ∀ known ∈ session.edits, (if known.1 = v then
      (known.1, { known.2 with current := value }) else (known.1, known.2)) = known := by
    intro known member
    have different : known.1 ≠ v := by
      rintro rfl
      have present : session.hasEdit known.1 = true :=
        List.any_eq_true.2 ⟨known, member, by simp⟩
      rw [present] at other
      cases other
    rw [if_neg different]
  rw [Session.suggested, (List.map_congr_left same).trans (List.map_id' _)]

theorem hasEdit_sessionAt : (sessionAt depth items).hasEdit v = true ↔
    ∃ i ∈ items, ∃ target, i.role = .edit depth v target := by
  rw [Session.hasEdit, List.any_eq_true]
  constructor
  · rintro ⟨known, member, same⟩
    obtain ⟨i, inside, target, role, -⟩ := mem_edits.1 member
    exact ⟨i, inside, target, of_decide_eq_true same ▸ role⟩
  · rintro ⟨i, inside, target, role⟩
    exact ⟨(v, _), mem_edits.2 ⟨i, inside, target, role, rfl⟩, by simp⟩

theorem sessionAt_retargeted (amount : Tag → Rat) (v : Variable) (value : Rat) (items : List Item) :
    sessionAt depth (items.map (Item.changed amount (Role.retargeted v value))) =
      (sessionAt depth items).suggested v value := by
  simp only [sessionAt, Session.suggested, ← List.map_reverse, List.filterMap_map,
    List.map_filterMap]
  congr 1
  · refine List.filterMap_congr fun i _ => ?_
    exact Item.stay?_changed_retargeted amount v value
  · refine List.filterMap_congr fun i _ => ?_
    exact Item.edit?_changed_retargeted amount v value

theorem sessionsOf_retargeted (amount : Tag → Rat) (v : Variable) (value : Rat) (items : List Item) :
    sessionsOf depth (items.map (Item.changed amount (Role.retargeted v value))) =
      (sessionsOf depth items).map (·.suggested v value) := by
  induction depth with
  | zero => rfl
  | succ depth ih => rw [sessionsOf, sessionsOf, List.map_cons, ih, sessionAt_retargeted]

namespace Solver

variable {config : Config Rat} {bound : Nat} {s s' : Solver Rat} {edit : Edit Rat}

/-- If one session can edit a variable, then what is recorded in the innermost one is recorded in
every one. -/
theorem recordSuggested_eq_map {sessions : List (Session Rat)}
    (apart : sessions.Pairwise fun inner outer => inner.hasEdit v = true → outer.hasEdit v = false) :
    recordSuggested v value sessions = sessions.map (·.suggested v value) := by
  induction sessions with
  | nil => rfl
  | cons session outer ih =>
      obtain ⟨others, rest⟩ := List.pairwise_cons.1 apart
      rw [recordSuggested, List.map_cons]
      cases present : session.hasEdit v with
      | true =>
          have still : outer.map (·.suggested v value) = outer := by
            refine (List.map_congr_left fun other member => ?_).trans (List.map_id' _)
            exact Session.suggested_of_not_hasEdit (others other member present) value
          rw [if_pos rfl, still]
      | false =>
          rw [if_neg Bool.false_ne_true, ih rest, Session.suggested_of_not_hasEdit present]

namespace Tends

variable (tends : Tends config bound items s)
include tends

/-- One variable is edited by one item. -/
theorem eq_of_edited (iIn : i ∈ items) (jIn : j ∈ items) (iEdits : i.role.edited? = some v)
    (jEdits : j.role.edited? = some v) : i = j := by
  by_contra different
  have apart := List.pairwise_filterMap.1 tends.edits
  have symmetric : Std.Symm fun a b : Item => ∀ u, a.role.edited? = some u →
      ∀ w, b.role.edited? = some w → u ≠ w :=
    ⟨fun a b apart u own w other => (apart w other u own).symm⟩
  exact apart.forall iIn jIn different v iEdits v jEdits rfl

/-- The edit that a solver finds is that of an item. -/
theorem exists_of_edit? (found : s.edit? v = some edit) : ∃ i ∈ items, ∃ d target,
    i.role = .edit d v target ∧ edit = ⟨i.constraint, i.markers, target⟩ := by
  obtain ⟨session, member, known⟩ := List.exists_of_findSome?_eq_some found
  rw [tends.sessions] at member
  obtain ⟨d, -, rfl⟩ := mem_sessionsOf.1 member
  obtain ⟨entry, search, rfl⟩ := Option.map_eq_some_iff.1 known
  have named : entry.1 = v := by simpa using List.find?_some search
  obtain ⟨i, inside, target, role, same⟩ := mem_edits.1 (List.mem_of_find?_eq_some search)
  exact ⟨i, inside, d, target, named ▸ role, same⟩

/-- Values can be suggested for the variables that the agenda lets be edited. -/
theorem exists_edit?_iff (all : bound = s.depth) :
    (∃ edit, s.edit? v = some edit) ↔ Editable (agendaOf items) v := by
  constructor
  · rintro ⟨edit, found⟩
    obtain ⟨i, inside, d, target, role, -⟩ := tends.exists_of_edit? found
    exact ⟨i.entry, List.mem_map_of_mem inside, by rw [Item.entry, role]; rfl⟩
  · rintro ⟨e, member, edits⟩
    obtain ⟨i, inside, rfl⟩ := List.mem_map.1 member
    cases role : i.role with
    | given =>
        rw [Item.entry, role] at edits
        cases edits
    | stay d w target =>
        rw [Item.entry, role] at edits
        cases edits
    | edit d w target =>
        rw [Item.entry, role] at edits
        cases edits
        have below : d < s.depth := all ▸ tends.within i inside d (by rw [role]; rfl)
        refine Option.isSome_iff_exists.1 ?_
        rw [edit?, List.findSome?_isSome_iff]
        refine ⟨_, tends.sessions ▸ mem_sessionsOf.2 ⟨d, below, rfl⟩, ?_⟩
        rw [Session.edit?, Option.isSome_map, List.find?_isSome]
        exact List.any_eq_true.1 (hasEdit_sessionAt.2 ⟨i, inside, target, role⟩)

/-- What is recorded for a variable is recorded as on the agenda. -/
theorem recordSuggested_eq (amount : Tag → Rat) (v : Variable) (value : Rat) :
    recordSuggested v value s.sessions =
      sessionsOf s.depth (items.map (Item.changed amount (Role.retargeted v value))) := by
  rw [tends.sessions, sessionsOf_retargeted, recordSuggested_eq_map]
  generalize s.depth = n
  induction n with
  | zero => exact .nil
  | succ n ih =>
      refine List.pairwise_cons.2 ⟨fun outer member present => ?_, ih⟩
      obtain ⟨d, below, rfl⟩ := mem_sessionsOf.1 member
      obtain ⟨i, iIn, a, iRole⟩ := hasEdit_sessionAt.1 present
      by_contra also
      obtain ⟨j, jIn, b, jRole⟩ := hasEdit_sessionAt.1 (eq_true_of_ne_false also)
      have same := tends.eq_of_edited iIn jIn (by rw [iRole]; rfl) (by rw [jRole]; rfl)
      rw [same, jRole] at iRole
      cases iRole
      exact lt_irrefl _ below

end Tends

/-! ### One suggestion -/

/-- The solver in which a suggestion was applied to the tableau. -/
def suggested (s : Solver Rat) (v : Variable) (value : Rat) (t : Tableau Rat) : Solver Rat :=
  { s with
    sessions := recordSuggested v value s.sessions
    needsRepair := true
    simplex := s.simplex.withTableau t }

theorem run_suggestValue {t : Tableau Rat} (found : s.edit? v = some edit)
    (shifted : (shift edit.markers (value - edit.current)).run s.tableau = (.ok (), t)) :
    (suggestValue v value).run s = (.ok (), s.suggested v value t) := by
  rw [suggestValue, Step.run_bind_get, found]
  dsimp only
  rw [Step.checked_rat, Step.run_bind_ofExcept_ok, Step.run_bind_modify]
  simp only [Scalar.isWritable_rat, Bool.and_true, Bool.or_true, Step.ensure_true,
    Step.run_bind_pureStep, Step.run_bind_report]
  exact run_onSimplex_of_ok (Simplex.run_onTableau_of_ok shifted)

/-- A solver tends an agenda, but the constants of its tableau may be those of other targets. -/
structure Owes (config : Config Rat) (agenda : List Entry) (s : Solver Rat) : Prop where
  tends : ∃ items, Tends config s.depth items s ∧ agendaOf items = agenda
  mendable : s.tableau.Mendable
  done : s.simplex.needsOptimize = false

theorem Owes.exists_edit?_iff (owes : Owes config agenda s) :
    (∃ edit, s.edit? v = some edit) ↔ Editable agenda v := by
  obtain ⟨items, tends, rfl⟩ := owes.tends
  exact tends.exists_edit?_iff rfl

/-- What a solver owes does not depend on what it read. -/
theorem Owes.congr (owes : Owes config agenda s) (simplex : s'.simplex = s.simplex)
    (installed : s'.installed = s.installed) (config_eq : s'.config = s.config)
    (sessions : s'.sessions = s.sessions) : Owes config agenda s' := by
  obtain ⟨items, tends, same⟩ := owes.tends
  have depth : s'.depth = s.depth := congrArg List.length sessions
  refine ⟨⟨items, ?_, same⟩, ?_, ?_⟩
  · rw [depth]
    exact tends.congr (simplex ▸ tends.priced) installed config_eq sessions (simplex ▸ le_rfl)
  · rw [tableau, simplex]
    exact owes.mendable
  · rw [simplex]
    exact owes.done

/-- Moving the edit of a variable by what is suggested leaves every item sound. -/
theorem Tends.sound_suggested (tends : Tends config bound items s) {d : Nat} (inside : i ∈ items)
    (role : i.role = .edit d v target) (jIn : j ∈ items) (value : Rat) :
    (j.changed (alone i.constraint.tag (value - target)) (Role.retargeted v value)).Sound := by
  by_cases same : j = i
  · subst same
    have sound := tends.sound j jIn
    unfold Item.Sound at sound ⊢
    rw [role] at sound
    rw [Item.changed, role, Role.retargeted, if_pos rfl]
    refine ⟨sound.1, fun x => ?_⟩
    dsimp only
    rw [Posed.gap_moved, sound.2, alone_self]
    ring
  · have different : j.constraint.tag ≠ i.constraint.tag := fun tags =>
      same (tends.eq_of_tag jIn inside tags)
    have away : j.role.edited? ≠ some v := fun edits =>
      same (tends.eq_of_edited jIn inside edits (by rw [role]; rfl))
    rw [Item.changed_of_still (alone_of_ne different _) (Role.retargeted_of_edited?_ne value away)]
    exact tends.sound j jIn

/-- An edit is an equation. -/
theorem Tends.fits_of_edit (tends : Tends config bound items s) {d : Nat} (inside : i ∈ items)
    (role : i.role = .edit d v target) : i.markers.Fits i.constraint.priority .eq := by
  have sound := tends.sound i inside
  unfold Item.Sound at sound
  rw [role] at sound
  exact sound.1 ▸ tends.priced.family.fits _ (mem_posedOf inside)

/-- Whatever state a tableau is in, a suggestion moves its constants for the target of the edit. -/
theorem Tends.suggested (tends : Tends config bound items s) {d : Nat} (inside : i ∈ items)
    (role : i.role = .edit d v target) (found : s.edit? v = some ⟨i.constraint, i.markers, target⟩)
    (value : Rat) :
    ∃ t', (suggestValue v value).run s = (.ok (), s.suggested v value t') ∧
      Shifted s.tableau i.markers (value - target) t' ∧
      (s.suggested v value t').depth = s.depth ∧
      Tends config bound (items.map (Item.changed (alone i.constraint.tag (value - target))
        (Role.retargeted v value))) (s.suggested v value t') := by
  have priced := tends.priced
  obtain ⟨t', ran, shifted⟩ :=
    run_shift priced.exact (tends.fits_of_edit inside role) (value - target)
  obtain ⟨term, own, δ, moves, displaced⟩ := shifted.displaced
  obtain ⟨k, carries⟩ := priced.carries
  have represents := carries.represents.displaced carries.family (mem_posedOf inside) own
    shifted.alike displaced
  rw [moves] at represents
  have depth : (s.suggested v value t').depth = s.depth := by
    have lengths := congrArg List.length
      (tends.recordSuggested_eq (alone i.constraint.tag (value - target)) v value)
    rwa [length_sessionsOf] at lengths
  have poses : (s.suggested v value t').Poses
      (moved (alone i.constraint.tag (value - target)) (posedOf items)) := by
    refine ⟨priced.moved shifted.alike represents, fun tag => ?_⟩
    rw [find?_moved, Option.map_map]
    exact tends.installed tag
  refine ⟨t', run_suggestValue found ran, shifted, depth, tends.changed poses
    (fun j jIn => tends.sound_suggested inside role jIn value) rfl rfl ?_
    (fun role => role.depth?_retargeted v value) fun role => role.edited?_retargeted v value⟩
  rw [depth]
  exact tends.recordSuggested_eq _ v value

/-- A suggestion moves the target of its edit. -/
theorem Owes.suggested (owes : Owes config agenda s) (editable : Editable agenda v) (value : Rat) :
    ∃ s', (suggestValue v value).run s = (.ok (), s') ∧
      Owes config (retargeted v value agenda) s' ∧ s'.needsRepair = true := by
  obtain ⟨edit, found⟩ := owes.exists_edit?_iff.2 editable
  obtain ⟨items, tends, rfl⟩ := owes.tends
  obtain ⟨i, inside, d, target, role, rfl⟩ := tends.exists_of_edit? found
  obtain ⟨t', ran, shifted, depth, tends'⟩ := tends.suggested inside role found value
  exact ⟨_, ran, ⟨⟨_, depth.symm ▸ tends', agendaOf_changed _ _ _⟩,
    owes.mendable.of_alike shifted.alike (shifted.tracked owes.mendable.tracked), owes.done⟩, rfl⟩

/-! ### Batches -/

/-- A batch of suggestions moves the targets of its edits. -/
theorem Owes.suggestedAll {batch : Values Rat} (owes : Owes config agenda s)
    (editable : ∀ entry ∈ batch, Editable agenda entry.1) :
    ∃ s', (Step.forEach batch fun entry => suggestValue entry.1 entry.2).run s = (.ok (), s') ∧
      Owes config (retargetedAll batch agenda) s' ∧
      s'.needsRepair = (s.needsRepair || !batch.isEmpty) := by
  induction batch generalizing s agenda with
  | nil => exact ⟨s, rfl, owes, (Bool.or_false _).symm⟩
  | cons entry rest ih =>
      obtain ⟨s₁, first, owes₁, repair⟩ :=
        owes.suggested (editable entry List.mem_cons_self) entry.2
      obtain ⟨s', later, owes', repair'⟩ := ih owes₁ fun other member =>
        editable_retargeted.2 (editable other (List.mem_cons_of_mem _ member))
      refine ⟨s', (Step.run_bind_of_ok first).trans later, owes', ?_⟩
      rw [repair', repair]
      simp

/-- Suggestions are kept as they are, if every variable can be edited. -/
theorem Owes.checkSuggestions_cases (owes : Owes config agenda s) (batch : Values Rat) :
    (s.checkSuggestions batch = .ok batch ∧ ∀ entry ∈ batch, Editable agenda entry.1) ∨
      ∃ v value, s.checkSuggestions batch = .error (.editNotFound v value) ∧
        ∃ entry ∈ batch, ¬Editable agenda entry.1 := by
  induction batch with
  | nil => exact .inl ⟨rfl, fun _ member => absurd member List.not_mem_nil⟩
  | cons entry rest ih =>
      obtain ⟨v, value⟩ := entry
      have editable : s.hasEdit v = true ↔ Editable agenda v :=
        Option.isSome_iff_exists.trans owes.exists_edit?_iff
      cases present : s.hasEdit v with
      | false =>
          refine .inr ⟨v, value, ?_, (v, value), List.mem_cons_self, fun known => ?_⟩
          · rw [checkSuggestions, present, if_neg Bool.false_ne_true]
          · rw [editable.2 known] at present
            cases present
      | true =>
          rw [checkSuggestions, if_pos present, Scalar.settled_rat, Step.checked_rat]
          rcases ih with ⟨kept, all⟩ | ⟨w, other, failed, unknown, member, missing⟩
          · rw [kept]
            exact .inl ⟨rfl, List.forall_mem_cons.2 ⟨editable.1 present, all⟩⟩
          · rw [failed]
            exact .inr ⟨w, other, rfl, unknown, List.mem_cons_of_mem _ member, missing⟩

/-- Suggesting a batch applies it and solves. -/
theorem Owes.run_suggest {batch : Values Rat} (owes : Owes config agenda s)
    (editable : ∀ entry ∈ batch, Editable agenda entry.1) :
    ∃ s', (suggest batch).run s = solveRepaired.run s' ∧
      Owes config (retargetedAll batch agenda) s' := by
  obtain ⟨s', applied, owes', -⟩ := owes.suggestedAll editable
  refine ⟨s', ?_, owes'⟩
  rcases owes.checkSuggestions_cases batch with ⟨kept, -⟩ | ⟨-, -, -, unknown, member, missing⟩
  · rw [suggest, Step.run_bind_get, kept, Step.run_bind_ofExcept_ok, Step.run_bind_of_ok applied]
  · exact absurd (editable unknown member) missing

/-- A batch that is answered, or that cannot be repaired, is for variables that can be edited. -/
theorem Owes.editable_of_suggest {batch : Values Rat} {answer : Except (Fault Rat) (Values Rat)}
    (owes : Owes config agenda s) (ran : (suggest batch).run s = (answer, s'))
    (found : ∀ v value, answer ≠ .error (.editNotFound v value)) :
    ∀ entry ∈ batch, Editable agenda entry.1 := by
  rcases owes.checkSuggestions_cases batch with ⟨-, editable⟩ | ⟨v, value, failed, -⟩
  · exact editable
  · rw [suggest, Step.run_bind_get, failed, Step.run_bind_ofExcept_error] at ran
    exact absurd (Prod.mk.inj ran).1.symm (found v value)

/-- A suggestion that is answered is for a variable that can be edited. -/
theorem Owes.editable_of_suggestValue (owes : Owes config agenda s)
    (ran : (suggestValue v value).run s = (.ok (), s')) : Editable agenda v := by
  rw [← owes.exists_edit?_iff]
  cases found : s.edit? v with
  | some edit => exact ⟨edit, rfl⟩
  | none =>
      rw [suggestValue, Step.run_bind_get, found] at ran
      cases ran

end Solver

end SoftSimplex
