import SoftSimplex.Proofs.Solver.Editing

/-!
Sessions that are closed under the stays of outer ones.

Closing a session takes its edits back one after another. Before each, the outer stays move to where the
variables are, and after it the edits that are left pull on (`Released`). So closing may move what an outer
session holds, as long as an edit is left that outweighs the stays; taking the last one back moves nothing
(`Edited.endEdit_spec`).
-/

namespace SoftSimplex

open Tableau

variable {config : Config Rat} {agenda : List Entry} {x y z : Variable → Rat} {depth : ℕ}
  {taken rest : List Tag} {kept : List (Constraint Rat)} {held : Variable → Prop}

/-! ### What is left of an agenda -/

/-- What is left of an agenda once some constraints were taken back, and the stays of the sessions up to a
depth moved to an assignment. -/
def leftOver (depth : ℕ) (taken : List Tag) (x : Variable → Rat) (agenda : List Entry) : List Entry :=
  (restayed depth x agenda).filter fun e => e.constraint.tag ∉ taken

/-- A session up to some depth holds a variable. -/
def Stayed (depth : ℕ) (agenda : List Entry) (v : Variable) : Prop :=
  ∃ e ∈ agenda, ∃ d target, e.role = .stay d v target ∧ d < depth

theorem restayed_filter (keep : Constraint Rat → Bool) (x : Variable → Rat) (agenda : List Entry) :
    restayed depth x (agenda.filter fun e => keep e.constraint) =
      (restayed depth x agenda).filter fun e => keep e.constraint := by
  rw [restayed, restayed, List.filter_map]
  rfl

/-- Stays that move twice are where they moved last. -/
theorem restayed_restayed (x y : Variable → Rat) (agenda : List Entry) :
    restayed depth y (restayed depth x agenda) = restayed depth y agenda := by
  rw [restayed, restayed, restayed, List.map_map]
  refine List.map_congr_left fun e _ => ?_
  obtain ⟨constraint, role⟩ := e
  cases role with
  | given => rfl
  | edit d v target => rfl
  | stay d v target =>
      by_cases below : d < depth
      · simp [Role.restayed, below]
      · simp [Role.restayed, below]

/-- Only the values of variables that are held matter. -/
theorem restayed_congr (same : ∀ v, Stayed depth agenda v → x v = y v) :
    restayed depth x agenda = restayed depth y agenda := by
  refine List.map_congr_left fun e member => ?_
  obtain ⟨constraint, role⟩ := e
  cases role with
  | given => rfl
  | edit d v target => rfl
  | stay d v target =>
      by_cases below : d < depth
      · simp [Role.restayed, same v ⟨_, member, d, target, rfl, below⟩]
      · simp [Role.restayed, below]

theorem leftOver_nil (x : Variable → Rat) (agenda : List Entry) :
    leftOver depth [] x agenda = restayed depth x agenda := by
  simp [leftOver]

theorem leftOver_congr (same : ∀ v, Stayed depth agenda v → x v = y v) :
    leftOver depth taken x agenda = leftOver depth taken y agenda := by
  rw [leftOver, restayed_congr same, leftOver]

theorem restayed_leftOver (x y : Variable → Rat) (agenda : List Entry) :
    restayed depth y (leftOver depth taken x agenda) = leftOver depth taken y agenda := by
  rw [leftOver, restayed_filter fun c => decide (c.tag ∉ taken), restayed_restayed, leftOver]

theorem leftOver_append (taken rest : List Tag) (x : Variable → Rat) (agenda : List Entry) :
    leftOver depth (taken ++ rest) x agenda =
      (leftOver depth taken x agenda).filter fun e => e.constraint.tag ∉ rest := by
  rw [leftOver, leftOver, List.filter_filter]
  refine List.filter_congr fun e _ => ?_
  simp [Bool.and_comm]

theorem satisfies_leftOver (satisfies : Satisfies x (wanted agenda)) (taken : List Tag) :
    Satisfies x (wanted (leftOver depth taken x agenda)) := by
  intro c member
  obtain ⟨e, left, rfl⟩ := List.mem_map.1 member
  exact Solver.satisfies_restayed satisfies depth _ (List.mem_map_of_mem (List.mem_of_mem_filter left))

/-- What was left is satisfied still when the stays moved and more is taken back. -/
theorem satisfies_leftOver_append (satisfies : Satisfies y (wanted (leftOver depth taken x agenda)))
    (rest : List Tag) : Satisfies y (wanted (leftOver depth (taken ++ rest) y agenda)) := by
  have moved := Solver.satisfies_restayed satisfies depth
  rw [restayed_leftOver] at moved
  intro c member
  obtain ⟨e, left, rfl⟩ := List.mem_map.1 member
  rw [leftOver_append] at left
  exact moved _ (List.mem_map_of_mem (List.mem_of_mem_filter left))

/-! ### Values that cannot move -/

/-- No other values of some variables are as good for some constraints as those they have. -/
def Config.Pins (config : Config Rat) (kept : List (Constraint Rat)) (held : Variable → Prop)
    (x : Variable → Rat) : Prop :=
  ∀ y, Satisfies y kept → config.loss kept y ≤ config.loss kept x → ∀ v, held v → y v = x v

/-- Where constraints can all be met at once, the best assignments meet them all. -/
theorem Config.Exact.holds_of_loss_le (settings : config.Exact) (holds : ∀ c ∈ kept, c.Holds x)
    (satisfies : Satisfies y kept) (le : config.loss kept y ≤ config.loss kept x) :
    ∀ c ∈ kept, c.Holds y := by
  have nothing : config.loss kept x = 0 := by
    refine List.sum_eq_zero fun term member => ?_
    obtain ⟨c, inKept, rfl⟩ := List.mem_map.1 member
    rw [(c.violation_eq_zero_iff x).2 (holds c inKept), mul_zero]
  have nonneg : ∀ term ∈ kept.map fun c => (config.weight? c.priority).getD 0 * c.violation y,
      0 ≤ term := by
    refine List.forall_mem_map.2 fun c _ => mul_nonneg ?_ (c.violation_nonneg y)
    cases weight : config.weight? c.priority with
    | none => exact le_rfl
    | some w => exact (settings.weight_pos _ w weight).le
  intro c member
  cases weight : config.weight? c.priority with
  | none => exact satisfies c member (settings.weight_eq_none_iff.1 weight)
  | some w =>
      have least := (List.single_le_sum nonneg _ (List.mem_map_of_mem member)).trans (le.trans nothing.le)
      rw [weight, Option.getD_some] at least
      have positive := settings.weight_pos _ w weight
      exact (c.violation_eq_zero_iff y).1
        (le_antisymm (nonpos_of_mul_nonpos_right least positive) (c.violation_nonneg y))

/-- What is held is pinned where everything that is left can be met. -/
theorem Config.Exact.pins (settings : config.Exact)
    (stays : ∀ v, Stayed depth agenda v → ∃ e ∈ agenda, e.constraint.tag ∉ taken ∧
      ∃ d target, e.role = .stay d v target ∧ d < depth)
    (holds : ∀ e ∈ leftOver depth taken x agenda, e.wanted.Holds x) :
    config.Pins (wanted (leftOver depth taken x agenda)) (Stayed depth agenda) x := by
  intro y satisfies le v held
  obtain ⟨⟨constraint, role⟩, member, left, d, target, rfl, below⟩ := stays v held
  have all := settings.holds_of_loss_le (List.forall_mem_map.2 holds) satisfies le
  have inLeft : Entry.mk constraint (.stay d v (x v)) ∈ leftOver depth taken x agenda := by
    refine List.mem_filter.2 ⟨List.mem_map.2 ⟨_, member, ?_⟩, by simpa using left⟩
    simp [Role.restayed, below]
  exact all _ (List.mem_map_of_mem inLeft)

/-! ### Constraints that are taken back one after another -/

/-- Constraints are taken back one after another, and each time the values move to an optimum for what is
left, where the stays are at the values before. -/
inductive Released (config : Config Rat) (depth : ℕ) (agenda : List Entry) :
    List Tag → (Variable → Rat) → List Tag → (Variable → Rat) → Prop where
  | done {taken : List Tag} {x : Variable → Rat} : Released config depth agenda taken x [] x
  | next {taken rest : List Tag} {tag : Tag} {x y z : Variable → Rat}
      (best : config.Optimal (wanted (leftOver depth (taken ++ [tag]) x agenda)) y)
      (later : Released config depth agenda (taken ++ [tag]) y rest z) :
      Released config depth agenda taken x (tag :: rest) z

namespace Released

/-- The values do not move as long as they are pinned. -/
theorem unmoved (released : Released config depth agenda taken y rest z)
    (satisfies : Satisfies x (wanted (leftOver depth taken x agenda)))
    (same : ∀ v, Stayed depth agenda v → y v = x v)
    (pins : ∀ more last, rest = more ++ last → more ≠ [] →
      config.Pins (wanted (leftOver depth (taken ++ more) x agenda)) (Stayed depth agenda) x) :
    ∀ v, Stayed depth agenda v → z v = x v := by
  induction released with
  | done => exact same
  | @next taken rest tag y y' z best later ih =>
      rw [leftOver_congr same] at best
      have satisfies' := satisfies_leftOver_append satisfies [tag]
      refine ih satisfies' (pins [tag] rest rfl (List.cons_ne_nil _ _) y' best.1 (best.2 x satisfies'))
        fun more last split nonempty => ?_
      rw [List.append_assoc]
      exact pins (tag :: more) last (congrArg (tag :: ·) split) (List.cons_ne_nil _ _)

/-- The last of some constraints is taken back where the others were before. -/
theorem dropLast (released : Released config depth agenda taken x rest z)
    (satisfies : Satisfies x (wanted (leftOver depth taken x agenda))) :
    ∃ y, Released config depth agenda taken x rest.dropLast y ∧
      Satisfies y (wanted (leftOver depth (taken ++ rest) y agenda)) ∧
      (z = y ∨ config.Optimal (wanted (leftOver depth (taken ++ rest) y agenda)) z) := by
  induction released with
  | @done taken x =>
      rw [← List.append_nil taken] at satisfies
      exact ⟨x, .done, satisfies, .inl rfl⟩
  | @next taken rest tag x y z best later ih =>
      obtain ⟨last, before, satisfies', final⟩ := ih (by
        have moved := Solver.satisfies_restayed best.1 depth
        rwa [restayed_leftOver] at moved)
      rw [List.append_assoc] at satisfies' final
      cases rest with
      | nil =>
          cases later
          exact ⟨x, .done, satisfies_leftOver_append satisfies [tag], .inr best⟩
      | cons next rest => exact ⟨last, .next best before, satisfies', final⟩

end Released

/-- The tags of the edits of a session, in the order of their registration. -/
def Session.editTags (session : Session Rat) : List Tag :=
  session.edits.map fun known => known.2.constraint.tag

namespace Solver

variable {bound : ℕ} {items : List Item} {s s' : Solver Rat} {c : Constraint Rat} {session : Session Rat}
  {outer : List (Session Rat)}

/-! ### Closing a session -/

/-- Optional constraints of the session that is being closed are taken back one after another. -/
theorem Tends.released (settings : config.Exact) (tends : Tends config (s.depth + 1) items s)
    (settled : s.simplex.Settled (posedOf items)) {constraints : List (Constraint Rat)}
    (optional : ∀ c ∈ constraints, c.priority ≠ .required)
    (present : ∀ c ∈ constraints,
      ∃ e ∈ agendaOf items, e.constraint = c ∧ e.role.depth? = some s.depth)
    (nodup : (constraints.map (·.tag)).Nodup)
    (left : ∀ y, restayed s.depth y (agendaOf items) = leftOver s.depth taken y agenda) :
    ∃ items' s', (Step.forEach constraints uninstall).run s = (.ok (), s') ∧
      Tends config (s.depth + 1) items' s' ∧ s'.depth = s.depth ∧
      s'.simplex.Settled (posedOf items') ∧
      Released config s.depth agenda taken s.currentValue (constraints.map (·.tag))
        s'.currentValue := by
  induction constraints generalizing s items taken with
  | nil => exact ⟨items, s, rfl, tends, rfl, settled, .done⟩
  | cons c rest ih =>
      obtain ⟨_, member, rfl, depth⟩ := present c List.mem_cons_self
      obtain ⟨i, inside, rfl⟩ := List.mem_map.1 member
      have removable : Removable i.constraint := .inl (optional _ List.mem_cons_self)
      have spares := tends.spares_of_removable settings inside rfl removable
      obtain ⟨s₁, first⟩ := tends.answers settings settled.poised inside rfl spares
      obtain ⟨items₁, tends₁, aside, agenda₁, sustains⟩ := tends.left settings inside rfl (fun d at_ => by
        have same : i.role.depth? = some s.depth := depth
        rw [at_] at same
        exact (Option.some.inj same).ge) first
      have settled₁ := (sustains spares).settled settled
      have same := Tends.depth_eq aside
      have best := tends₁.optimal settings settled₁
      rw [agenda₁, takenBack, left] at best
      obtain ⟨unlisted, nodup'⟩ := List.nodup_cons.1 nodup
      rw [← same] at tends₁
      have left₁ (y : Variable → Rat) : restayed s₁.depth y (agendaOf items₁) =
          leftOver s₁.depth (taken ++ [i.constraint.tag]) y agenda := by
        rw [same, agenda₁, takenBack, restayed_filter fun d => decide (d.tag ≠ _), restayed_restayed,
          left, leftOver_append]
        simp
      have present₁ : ∀ c' ∈ rest,
          ∃ e ∈ agendaOf items₁, e.constraint = c' ∧ e.role.depth? = some s₁.depth := by
        intro c' inRest
        obtain ⟨e, known, rfl, at_⟩ := present c' (List.mem_cons_of_mem _ inRest)
        refine ⟨{ e with role := e.role.restayed s.depth s.currentValue }, ?_, rfl, ?_⟩
        · rw [agenda₁, mem_takenBack]
          exact ⟨⟨e, known, rfl⟩, fun tags => unlisted (List.mem_map.2 ⟨e.constraint, inRest, tags⟩)⟩
        · rw [same, ← at_]
          exact e.role.depth?_restayed _ _
      obtain ⟨items', s', later, tends', depth', settled', released⟩ := ih tends₁ settled₁
        (fun c' inRest => optional c' (List.mem_cons_of_mem _ inRest)) present₁ nodup' left₁
      rw [same] at tends' depth' released
      refine ⟨items', s', (Step.run_forEach_cons_of_ok first).trans later, tends', depth', settled',
        .next ?_ released⟩
      rw [leftOver_append]
      simpa [Item.entry] using best

/-- This session registered optional edits only, and every other optional constraint of the solver is a
stay of an outer session. -/
structure Enclosed (s : Solver Rat) (session : Session Rat) (outer : List (Session Rat)) : Prop where
  stays : session.stays = []
  optional : ∀ known ∈ session.edits, known.2.constraint.priority ≠ .required
  others : ∀ entry ∈ s.installed.toList, entry.2.constraint.priority ≠ .required →
    (∃ o ∈ outer, ∃ stay ∈ o.stays, stay.2.constraint.tag = entry.1) ∨
      ∃ known ∈ session.edits, known.2.constraint.tag = entry.1

instance (s : Solver Rat) (session : Session Rat) (outer : List (Session Rat)) :
    Decidable (s.Enclosed session outer) :=
  decidable_of_iff (session.stays = [] ∧
    (∀ known ∈ session.edits, known.2.constraint.priority ≠ .required) ∧
    ∀ entry ∈ s.installed.toList, entry.2.constraint.priority ≠ .required →
      (∃ o ∈ outer, ∃ stay ∈ o.stays, stay.2.constraint.tag = entry.1) ∨
        ∃ known ∈ session.edits, known.2.constraint.tag = entry.1)
    ⟨fun ⟨stays, optional, others⟩ => ⟨stays, optional, others⟩,
      fun enclosed => ⟨enclosed.stays, enclosed.optional, enclosed.others⟩⟩

theorem Tends.nodup_editTags (tends : Tends config bound items s) (depth : ℕ) :
    (sessionAt depth items).editTags.Nodup := by
  have tags : (items.reverse.map fun i => i.constraint.tag).Nodup := by
    have nodup := tends.priced.family.tags
    rw [posedOf, List.map_map] at nodup
    rw [List.map_reverse]
    exact List.nodup_reverse.2 nodup
  rw [Session.editTags, sessionAt]
  refine List.pairwise_map.2 (List.pairwise_filterMap.2 ((List.pairwise_map.1 tags).imp ?_))
  intro i j apart known own other also
  obtain ⟨_, _, same⟩ := Item.edit?_eq_some.1 own
  obtain ⟨_, _, same'⟩ := Item.edit?_eq_some.1 also
  rwa [same, same']

section

variable (tends : Tends config s.depth items s) (opened : s.sessions = session :: outer)
include tends opened

/-- The stays that are held are those of outer sessions. -/
theorem Tends.stayed_iff {v : Variable} : Stayed s.popped.depth (agendaOf items) v ↔ s.popped.hasStay v = true := by
  obtain ⟨-, popped⟩ := tends.popped opened
  rw [hasStay, List.any_eq_true, popped.sessions]
  constructor
  · rintro ⟨e, member, d, target, role, below⟩
    obtain ⟨i, inside, rfl⟩ := List.mem_map.1 member
    refine ⟨_, mem_sessionsOf.2 ⟨d, below, rfl⟩, List.any_eq_true.2 ⟨(v, i.toInstalled), ?_, ?_⟩⟩
    · exact mem_stays.2 ⟨i, inside, target, role, rfl⟩
    · simp
  · rintro ⟨o, member, held⟩
    obtain ⟨d, below, rfl⟩ := mem_sessionsOf.1 member
    obtain ⟨stay, listed, same⟩ := List.any_eq_true.1 held
    obtain ⟨i, inside, target, role, -⟩ := mem_stays.1 listed
    rw [of_decide_eq_true same] at role
    exact ⟨i.entry, List.mem_map_of_mem inside, d, target, role, below⟩

/-- The session that is being closed lists the edits of its depth. -/
theorem Tends.mem_edits {known : Variable × Edit Rat} : known ∈ session.edits ↔
    ∃ i ∈ items, ∃ target, i.role = .edit s.popped.depth known.1 target ∧
      known.2 = ⟨i.constraint, i.markers, target⟩ := by
  obtain ⟨rfl, -⟩ := tends.popped opened
  exact SoftSimplex.mem_edits

variable (enclosed : s.Enclosed session outer)
include enclosed

/-- An optional constraint is an edit of the session that is being closed, or an outer stay. -/
theorem Tends.role_cases (inside : i ∈ items) (optional : i.constraint.priority ≠ .required) :
    (∃ d v target, i.role = .stay d v target ∧ d < s.popped.depth) ∨
      ∃ known ∈ session.edits, known.2.constraint.tag = i.constraint.tag ∧
        i.role = .edit s.popped.depth known.1 known.2.current := by
  have installed := Sorted.Map.get?_eq_some_iff.1 (tends.installed_of_mem (mem_posedOf inside))
  obtain ⟨-, popped⟩ := tends.popped opened
  rcases enclosed.others _ installed optional with ⟨o, member, stay, listed, tag⟩ | ⟨known, member, tag⟩
  · have among : o ∈ s.popped.sessions := by
      rw [Solver.popped, opened]
      exact member
    rw [popped.sessions] at among
    obtain ⟨d, below, rfl⟩ := mem_sessionsOf.1 among
    obtain ⟨j, jIn, target, role, same⟩ := mem_stays.1 listed
    rw [← same] at tag
    exact .inl ⟨d, stay.1, target, tends.eq_of_tag jIn inside tag ▸ role, below⟩
  · obtain ⟨j, jIn, target, role, same⟩ := (tends.mem_edits opened).1 member
    refine .inr ⟨known, member, tag, ?_⟩
    rw [same] at tag ⊢
    exact tends.eq_of_tag jIn inside tag ▸ role

/-- Where the edits that are left are met, what is held is pinned. -/
theorem Tends.pins (settings : config.Exact)
    (satisfies : Satisfies x (wanted (leftOver s.popped.depth taken x (agendaOf items))))
    (own : ∀ tag ∈ taken, tag ∈ session.editTags)
    (met : ∀ known ∈ session.edits, known.2.constraint.tag ∉ taken → x known.1 = known.2.current) :
    config.Pins (wanted (leftOver s.popped.depth taken x (agendaOf items)))
      (Stayed s.popped.depth (agendaOf items)) x := by
  refine settings.pins (fun v held => ?_) fun e left => ?_
  · obtain ⟨e, member, d, target, role, below⟩ := held
    refine ⟨e, member, fun inTaken => ?_, d, target, role, below⟩
    obtain ⟨known, listed, tag⟩ := List.mem_map.1 (own _ inTaken)
    obtain ⟨i, inside, target', role', same⟩ := (tends.mem_edits opened).1 listed
    obtain ⟨j, jIn, rfl⟩ := List.mem_map.1 member
    rw [same] at tag
    obtain rfl := tends.eq_of_tag inside jIn tag
    rw [Item.entry, role'] at role
    cases role
  · by_cases required : e.constraint.priority = .required
    · exact satisfies _ (List.mem_map_of_mem left) ((Entry.priority_wanted e).trans required)
    obtain ⟨inLeft, unlisted⟩ := List.mem_filter.1 left
    obtain ⟨e₀, member, rfl⟩ := List.mem_map.1 inLeft
    obtain ⟨i, inside, rfl⟩ := List.mem_map.1 member
    rcases tends.role_cases opened enclosed inside required with ⟨d, v, target, role, below⟩ |
      ⟨known, listed, tag, role⟩
    · simp [Entry.wanted, Item.entry, role, Role.restayed, below, Constraint.Holds, LinExpr.eval]
    · have away : known.2.constraint.tag ∉ taken := by
        rw [tag]
        exact of_decide_eq_true unlisted
      simp [Entry.wanted, Item.entry, role, Role.restayed, Constraint.Holds, LinExpr.eval,
        met known listed away]

/-- The innermost session is closed by taking its edits back one after another. -/
theorem Tends.run_endEdit (settings : config.Exact) (settled : s.simplex.Settled (posedOf items)) :
    ∃ s', endEdit.run s = (.ok (), s') ∧ s'.cached = s'.simplex.values ∧
      Released config s.popped.depth (agendaOf items) [] s.currentValue session.editTags
        s'.cached.value := by
  obtain ⟨innermost, popped⟩ := tends.popped opened
  have constraints : session.constraints = session.edits.map (·.2.constraint) := by
    rw [Session.constraints, enclosed.stays]
    rfl
  have tags : session.constraints.map (·.tag) = session.editTags := by
    rw [constraints, List.map_map]
    rfl
  have optional : ∀ c ∈ session.constraints, c.priority ≠ .required := by
    rw [constraints]
    exact List.forall_mem_map.2 enclosed.optional
  have present : ∀ c ∈ session.constraints,
      ∃ e ∈ agendaOf items, e.constraint = c ∧ e.role.depth? = some s.popped.depth := by
    intro c member
    rw [innermost] at member
    obtain ⟨i, inside, at_, rfl⟩ := mem_constraints_sessionAt.1 member
    exact ⟨i.entry, List.mem_map_of_mem inside, rfl, at_⟩
  have nodup : (session.constraints.map (·.tag)).Nodup := by
    rw [tags, innermost]
    exact tends.nodup_editTags _
  obtain ⟨items', s₁, closes, tends₁, -, settled₁, released⟩ :=
    popped.released settings settled optional present nodup fun y => (leftOver_nil y _).symm
  have poses : ({ s₁ with needsRepair := false } : Solver Rat).Poses (posedOf items') :=
    ⟨tends₁.priced, tends₁.installed⟩
  have outside : ({ s with sessions := outer } : Solver Rat) = s.popped := by
    rw [Solver.popped, opened]
    rfl
  have optimizing : (onSimplex Simplex.optimize).run { s₁ with needsRepair := false } =
      (.ok (), { s₁ with needsRepair := false }) := run_onSimplex_of_ok settled₁.run_optimize
  refine ⟨{ s₁ with needsRepair := false, cached := s₁.simplex.values }, ?_, rfl, ?_⟩
  · rw [endEdit, Step.run_bind_get, opened]
    dsimp only
    rw [Step.run_bind_modify, outside, Step.run_bind_of_ok closes, Step.run_bind_modify,
      Step.run_bind_of_ok optimizing, Step.run_bind_of_ok poses.run_readValues]
    exact run_onSimplex_of_ok (Simplex.run_snapshot _ _)
  · rw [tags] at released
    rw [tends₁.value_eq]
    exact released

end

/-! ### Runs that keep what is required -/

/-- A solver that was reached by commands that give nothing up that is required serves its agenda. -/
theorem Edited.serves_of_spares (settings : config.Exact)
    (edited : Edited config (fun s agenda command => command.Spares s agenda) agenda s) :
    Serves config agenda s := by
  induction edited with
  | created => exact serves_create settings
  | called before command permitted ran ih => exact ih.called settings permitted ran

/-- Where sessions only wish and no required equation is removed, nothing required is ever given up. -/
theorem Edited.spares (settings : config.Exact)
    (edited : Edited config (fun _ => Command.Gentle config) agenda s) :
    Edited config (fun s agenda command => command.Spares s agenda) agenda s := by
  induction edited with
  | created => exact .created
  | called before command gentle ran ih =>
      obtain ⟨serves, lenient⟩ := before.serves settings
      exact .called ih command
        (serves.spares_of_restful settings lenient.pliant (gentle.restful lenient) ran) ran

/-- Closing a session that edits variables, where every other optional constraint is a stay of an outer
session, is answered. Its edits are taken back in the order of their registration, and each time the
values move to an optimum for what is required, the stays at the values before, and the edits that are
left. Taking the last edit back moves nothing that is held. So nothing that is held moves at all if, whenever
some edits were taken back and some are left, other values would be worse; as they are where every edit but
the first has what was suggested for it. -/
theorem Edited.endEdit_spec (settings : config.Exact)
    (edited : Edited config (fun s agenda command => command.Spares s agenda) agenda s)
    (opened : s.sessions = session :: outer) (enclosed : s.Enclosed session outer) :
    ∃ s', endEdit.run s = (.ok (), s') ∧ s'.cached = s'.simplex.values ∧
      Released config s.popped.depth agenda [] s.simplex.values.value session.editTags
        s'.cached.value ∧
      (∃ y, Released config s.popped.depth agenda [] s.simplex.values.value session.editTags.dropLast y ∧
        ∀ v, s.popped.hasStay v = true → s'.cached.value v = y v) ∧
      ((∀ more last, session.editTags = more ++ last → more ≠ [] → last ≠ [] →
          config.Pins (wanted (leftOver s.popped.depth more s.simplex.values.value agenda))
            (fun v => s.popped.hasStay v = true) s.simplex.values.value) →
        ∀ v, s.popped.hasStay v = true → s'.cached.value v = s.simplex.values.value v) ∧
      ((∀ known ∈ session.edits.tail, s.simplex.values.value known.1 = known.2.current) →
        ∀ v, s.popped.hasStay v = true → s'.cached.value v = s.simplex.values.value v) := by
  obtain ⟨items, tends, rfl, settled⟩ := (edited.serves_of_spares settings).settled
  have satisfies := (tends.optimal settings settled).1
  obtain ⟨s', ran, cached, released⟩ := tends.run_endEdit opened enclosed settings settled
  have held : (fun v => s.popped.hasStay v = true) = Stayed s.popped.depth (agendaOf items) :=
    funext fun v => propext (tends.stayed_iff opened).symm
  simp only [← tends.stayed_iff opened]
  rw [tends.value_eq]
  have start : ∀ taken, Satisfies _ (wanted (leftOver s.popped.depth taken _ _)) :=
    satisfies_leftOver satisfies
  have unmoved := released.unmoved (start []) fun v _ => rfl
  simp only [List.nil_append] at unmoved
  refine ⟨s', ran, cached, released, ?_, fun pins => unmoved fun more last split nonempty => ?_,
    fun met => unmoved fun more last split nonempty => ?_⟩
  · obtain ⟨y, before, satisfies', final⟩ := released.dropLast (start [])
    refine ⟨y, before, ?_⟩
    rcases final with same | best
    · exact fun v _ => congrFun same v
    · rw [List.nil_append] at satisfies' best
      exact tends.pins opened enclosed settings satisfies' (fun _ => id)
        (fun known listed away => absurd (List.mem_map_of_mem listed) away) _ best.1 (best.2 y satisfies')
  · by_cases none : last = []
    · subst none
      rw [List.append_nil] at split
      exact tends.pins opened enclosed settings (start more) (fun tag own => split ▸ own)
        fun known listed away => absurd (split ▸ List.mem_map_of_mem listed) away
    · exact pins more last split nonempty none
  · refine tends.pins opened enclosed settings (start more)
      (fun tag own => split ▸ List.mem_append_left last own) fun known listed away => met known ?_
    obtain ⟨tag, others, rfl⟩ := List.exists_cons_of_ne_nil nonempty
    obtain ⟨first, rest, edits, own, -⟩ := List.map_eq_cons_iff.1 split
    rw [edits] at listed ⊢
    refine (List.mem_cons.1 listed).resolve_left ?_
    rintro rfl
    exact away (own ▸ List.mem_cons_self)

/-! ### Two unknowns with a fixed sum -/

/-- Two unknowns are to sum up to ten. -/
def sumIsTen : Constraint Rat :=
  { tag := .given 0
    left := .add (.variable ⟨"x", 0⟩) (.variable ⟨"y", 1⟩)
    comparator := .eq
    right := .constant 10 }

/-- The settings with weights that are orders of magnitude apart. -/
def tieredSettings : Config Rat :=
  { exactSettings with weights := fun strength => some (1000 ^ (strength / 250 - 1)) }

theorem exact_tieredSettings : tieredSettings.Exact where
  tolerance := rfl
  limited := ⟨1500, rfl⟩
  weights strength := ⟨1000 ^ (strength / 250 - 1), rfl, by positivity⟩

/-- Both unknowns stay in an outer session, and values are suggested for them in an inner one, more
strongly for the first. -/
def pulling (batch : Values Rat) : Step Rat (Solver Rat) Unit := do
  Command.step (.add sumIsTen)
  Command.step (.beginEdit [.stay ⟨"x", 0⟩ none none, .stay ⟨"y", 1⟩ none none])
  Command.step (.beginEdit [.edit ⟨"x", 0⟩ (some "high"), .edit ⟨"y", 1⟩ (some "medium")])
  Command.step (.suggest batch)

/-- The solver in which values were suggested for both unknowns. -/
def pulled (batch : Values Rat) : Solver Rat := ((pulling batch).run (create tieredSettings)).2

theorem edited_pulled {batch : Values Rat}
    (answers : ((pulling batch).run (create tieredSettings)).1.isOk = true) :
    ∃ agenda, Edited tieredSettings (fun _ => Command.Gentle tieredSettings) agenda (pulled batch) := by
  obtain ⟨_, ran⟩ := Step.run_of_isOk answers
  obtain ⟨_, s₁, first, rest⟩ := Step.run_bind_eq_ok ran
  obtain ⟨_, s₂, second, rest⟩ := Step.run_bind_eq_ok rest
  obtain ⟨_, s₃, third, last⟩ := Step.run_bind_eq_ok rest
  refine ⟨_, .called (.called (.called (.called .created (.add sumIsTen) ⟨0, rfl⟩ first)
    (.beginEdit _) (fun wish member => ?_) second) (.beginEdit _) (fun wish member => ?_) third)
    (.suggest batch) trivial last⟩
  · simp only [List.mem_cons, List.not_mem_nil, or_false] at member
    rcases member with rfl | rfl <;> exact Priority.noConfusion
  · simp only [List.mem_cons, List.not_mem_nil, or_false] at member
    rcases member with rfl | rfl <;> (change askedPriority _ _ ≠ _; decide +kernel)

theorem sessions_eq_cons (opened : s.sessions ≠ []) :
    s.sessions = s.sessions.headD {} :: s.sessions.tail := by
  cases sessions : s.sessions with
  | nil => exact absurd sessions opened
  | cons session outer => rfl

/-- The values that were suggested sum up to ten. -/
def agreed : Solver Rat := pulled [(⟨"x", 0⟩, 4), (⟨"y", 1⟩, 6)]

/-- Ten was suggested for either unknown. -/
def torn : Solver Rat := pulled [(⟨"x", 0⟩, 10), (⟨"y", 1⟩, 10)]

/-- Where the suggested values sum up to ten, closing the inner session moves neither unknown. -/
theorem endEdit_spec_agreed : ∃ agenda session outer s',
    Edited tieredSettings (fun s agenda command => command.Spares s agenda) agenda agreed ∧
    agreed.sessions = session :: outer ∧ agreed.Enclosed session outer ∧
    endEdit.run agreed = (.ok (), s') ∧
    s'.cached.value ⟨"x", 0⟩ = 4 ∧ s'.cached.value ⟨"y", 1⟩ = 6 := by
  have checks :
      ((pulling [(⟨"x", 0⟩, 4), (⟨"y", 1⟩, 6)]).run (create tieredSettings)).1.isOk = true ∧
      agreed.sessions ≠ [] ∧ agreed.Enclosed (agreed.sessions.headD {}) agreed.sessions.tail ∧
      (∀ known ∈ (agreed.sessions.headD {}).edits.tail,
        agreed.simplex.values.value known.1 = known.2.current) ∧
      (∀ v ∈ [(⟨"x", 0⟩ : Variable), ⟨"y", 1⟩], agreed.popped.hasStay v = true) ∧
      agreed.simplex.values = [(⟨"x", 0⟩, 4), (⟨"y", 1⟩, 6)] := by
    decide +kernel
  obtain ⟨answers, opened, enclosed, met, held, values⟩ := checks
  obtain ⟨agenda, edited⟩ : ∃ agenda,
      Edited tieredSettings (fun _ => Command.Gentle tieredSettings) agenda agreed :=
    edited_pulled answers
  have spares := edited.spares exact_tieredSettings
  obtain ⟨s', ran, -, -, -, -, still⟩ :=
    Edited.endEdit_spec exact_tieredSettings spares (sessions_eq_cons opened) enclosed
  have unmoved := still met
  rw [values] at unmoved
  exact ⟨agenda, _, _, s', spares, sessions_eq_cons opened, enclosed, ran,
    unmoved _ (held ⟨"x", 0⟩ (by simp)), unmoved _ (held ⟨"y", 1⟩ (by simp))⟩

/-- Where ten is suggested for both unknowns, closing the inner session moves both, although the outer
session holds them: once the edit of the first is taken back, that of the second pulls on. -/
theorem endEdit_moves : ∃ agenda session outer s',
    Edited tieredSettings (fun _ => Command.Gentle tieredSettings) agenda torn ∧
    torn.sessions = session :: outer ∧ torn.Enclosed session outer ∧
    (∀ entry ∈ torn.simplex.values, torn.popped.hasStay entry.1 = true) ∧
    endEdit.run torn = (.ok (), s') ∧
    torn.simplex.values = [(⟨"x", 0⟩, 10), (⟨"y", 1⟩, 0)] ∧
    s'.cached = [(⟨"x", 0⟩, 0), (⟨"y", 1⟩, 10)] := by
  have checks :
      ((pulling [(⟨"x", 0⟩, 10), (⟨"y", 1⟩, 10)]).run (create tieredSettings)).1.isOk = true ∧
      torn.sessions ≠ [] ∧ torn.Enclosed (torn.sessions.headD {}) torn.sessions.tail ∧
      (∀ entry ∈ torn.simplex.values, torn.popped.hasStay entry.1 = true) ∧
      torn.simplex.values = [(⟨"x", 0⟩, 10), (⟨"y", 1⟩, 0)] ∧
      (endEdit.run torn).1.isOk = true ∧
      (endEdit.run torn).2.cached = [(⟨"x", 0⟩, 0), (⟨"y", 1⟩, 10)] := by
    decide +kernel
  obtain ⟨answers, opened, enclosed, held, before, closes, after⟩ := checks
  obtain ⟨agenda, edited⟩ := edited_pulled answers
  obtain ⟨_, ran⟩ := Step.run_of_isOk closes
  exact ⟨agenda, _, _, _, edited, sessions_eq_cons opened, enclosed, held, ran, before, after⟩

end Solver

end SoftSimplex
