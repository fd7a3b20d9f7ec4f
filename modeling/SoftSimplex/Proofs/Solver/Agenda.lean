import SoftSimplex.Proofs.Simplex.Moving
import SoftSimplex.Proofs.Solver.Calls
import SoftSimplex.Solver.Session
import SoftSimplex.Solver.Suggest

/-!
What a solver with edit sessions is asked for.

An agenda lists what is registered, newest first: the constraints that callers gave, and the variables
that open sessions hold where they are or move to suggested values (`Entry`). A solver tends an agenda
if every entry is posed by columns whose equation asks for what the entry wants (`Item.Sound`), and the
open sessions list the entries of their depth (`sessionsOf`).
-/

namespace SoftSimplex

open Tableau

/-! ### Agendas -/

/-- What a registered constraint is there for. A caller gave it, or a session holds a variable at a
target or moves it to one; sessions are numbered from the outermost. -/
inductive Role where
  | given
  | stay (depth : Nat) (v : Variable) (target : Rat)
  | edit (depth : Nat) (v : Variable) (target : Rat)

namespace Role

/-- The session that a constraint belongs to. -/
def depth? : Role → Option Nat
  | .given => none
  | .stay depth _ _ => some depth
  | .edit depth _ _ => some depth

/-- The variable that a constraint lets be edited. -/
def edited? : Role → Option Variable
  | .edit _ v _ => some v
  | _ => none

/-- The stays of the sessions up to a depth move to where the variables are. -/
def restayed (depth : Nat) (x : Variable → Rat) : Role → Role
  | .stay d v target => .stay d v (if d < depth then x v else target)
  | role => role

/-- The edit of a variable moves to a value. -/
def retargeted (v : Variable) (value : Rat) : Role → Role
  | .edit d w target => .edit d w (if w = v then value else target)
  | role => role

@[simp] theorem depth?_restayed (depth : Nat) (x : Variable → Rat) (role : Role) :
    (role.restayed depth x).depth? = role.depth? := by
  cases role <;> rfl

@[simp] theorem edited?_restayed (depth : Nat) (x : Variable → Rat) (role : Role) :
    (role.restayed depth x).edited? = role.edited? := by
  cases role <;> rfl

/-- Only the stays of the sessions up to the depth move. -/
theorem restayed_of_away {depth : Nat} {role : Role} (x : Variable → Rat)
    (away : ∀ d v target, role = .stay d v target → ¬d < depth) : role.restayed depth x = role := by
  cases role with
  | given => rfl
  | stay d v target => rw [restayed, if_neg (away d v target rfl)]
  | edit d v target => rfl

@[simp] theorem depth?_retargeted (v : Variable) (value : Rat) (role : Role) :
    (role.retargeted v value).depth? = role.depth? := by
  cases role <;> rfl

@[simp] theorem edited?_retargeted (v : Variable) (value : Rat) (role : Role) :
    (role.retargeted v value).edited? = role.edited? := by
  cases role <;> rfl

/-- Only edits of the variable move. -/
theorem retargeted_of_edited?_ne {v : Variable} {role : Role} (value : Rat)
    (away : role.edited? ≠ some v) : role.retargeted v value = role := by
  cases role with
  | given => rfl
  | stay d w target => rfl
  | edit d w target => rw [retargeted, if_neg fun same => away (congrArg some same)]

end Role

/-- A registered constraint and what it is there for. -/
structure Entry where
  constraint : Constraint Rat
  role : Role := .given

namespace Entry

/-- What an entry asks for now: the constraint that was given, or that a variable has its target. -/
def wanted (e : Entry) : Constraint Rat :=
  match e.role with
  | .given => e.constraint
  | .stay _ v target =>
    { e.constraint with left := .variable v, comparator := .eq, right := .constant target }
  | .edit _ v target =>
    { e.constraint with left := .variable v, comparator := .eq, right := .constant target }

@[simp] theorem priority_wanted (e : Entry) : e.wanted.priority = e.constraint.priority := by
  unfold wanted
  cases e.role <;> rfl

@[simp] theorem tag_wanted (e : Entry) : e.wanted.tag = e.constraint.tag := by
  unfold wanted
  cases e.role <;> rfl

end Entry

/-- The constraints that an agenda asks for. -/
def wanted (agenda : List Entry) : List (Constraint Rat) := agenda.map Entry.wanted

/-- The stays of the sessions up to a depth move to where the variables are. -/
def restayed (depth : Nat) (x : Variable → Rat) (agenda : List Entry) : List Entry :=
  agenda.map fun e => { e with role := e.role.restayed depth x }

/-- The edit of a variable moves to a value. -/
def retargeted (v : Variable) (value : Rat) (agenda : List Entry) : List Entry :=
  agenda.map fun e => { e with role := e.role.retargeted v value }

/-! ### Items -/

/-- A posed constraint and what it is there for. -/
structure Item extends Posed where
  role : Role := .given

namespace Item

variable {i : Item} {x : Variable → Rat} {v : Variable} {depth : Nat} {target : Rat}

/-- The entry that an item poses. -/
def entry (i : Item) : Entry := ⟨i.constraint, i.role⟩

/-- The equation of an item asks for what its entry wants. -/
def Sound (i : Item) : Prop :=
  match i.role with
  | .given => i.shift = 0
  | .stay _ v target => i.constraint.comparator = .eq ∧ ∀ x, i.gap x = x v - target
  | .edit _ v target => i.constraint.comparator = .eq ∧ ∀ x, i.gap x = target - x v

theorem Sound.met_iff (sound : i.Sound) : i.Met x ↔ i.entry.wanted.Holds x := by
  unfold Sound at sound
  unfold Entry.wanted entry
  cases role : i.role with
  | given =>
      rw [role] at sound
      exact Posed.met_of_unmoved sound x
  | stay depth v target =>
      rw [role] at sound
      rw [Posed.Met, sound.1, sound.2]
      exact sub_eq_zero
  | edit depth v target =>
      rw [role] at sound
      rw [Posed.Met, sound.1, sound.2]
      exact sub_eq_zero.trans eq_comm

theorem Sound.shortfall_eq (sound : i.Sound) : i.shortfall x = i.entry.wanted.violation x := by
  unfold Sound at sound
  unfold Entry.wanted entry
  cases role : i.role with
  | given =>
      rw [role] at sound
      exact Posed.shortfall_of_unmoved sound x
  | stay depth v target =>
      rw [role] at sound
      rw [Posed.shortfall, sound.1, sound.2]
      rfl
  | edit depth v target =>
      rw [role] at sound
      rw [Posed.shortfall, sound.1, sound.2]
      exact abs_sub_comm _ _

/-- An item whose target was moved, and which is there for something else. -/
def changed (amount : Tag → Rat) (f : Role → Role) (i : Item) : Item :=
  { toPosed := i.toPosed.moved amount, role := f i.role }

theorem changed_of_still {amount : Tag → Rat} {f : Role → Role}
    (still : amount i.constraint.tag = 0) (same : f i.role = i.role) : i.changed amount f = i := by
  rw [changed, Posed.moved_of_zero still, same]

/-- What a session of some depth knows of an item that is its stay. -/
def stay? (depth : Nat) (i : Item) : Option (Variable × Installed Rat) :=
  match i.role with
  | .stay d v _ => if d = depth then some (v, i.toInstalled) else none
  | _ => none

/-- What a session of some depth knows of an item that is its edit. -/
def edit? (depth : Nat) (i : Item) : Option (Variable × Edit Rat) :=
  match i.role with
  | .edit d v target => if d = depth then some (v, ⟨i.constraint, i.markers, target⟩) else none
  | _ => none

theorem stay?_eq_some {known : Variable × Installed Rat} : i.stay? depth = some known ↔
    ∃ target, i.role = .stay depth known.1 target ∧ i.toInstalled = known.2 := by
  unfold stay?
  cases role : i.role with
  | given => simp
  | stay d v target =>
      by_cases same : d = depth
      · simp [same, Prod.ext_iff]
      · simp [same]
  | edit d v target => simp

theorem edit?_eq_some {known : Variable × Edit Rat} : i.edit? depth = some known ↔
    ∃ target, i.role = .edit depth known.1 target ∧
      known.2 = ⟨i.constraint, i.markers, target⟩ := by
  unfold edit?
  cases role : i.role with
  | given => simp
  | stay d v target => simp
  | edit d v target =>
      by_cases same : d = depth
      · simp [same, Prod.ext_iff, eq_comm]
      · simp [same]

theorem stay?_of_depth? (away : i.role.depth? ≠ some depth) : i.stay? depth = none := by
  by_contra present
  obtain ⟨known, found⟩ := Option.ne_none_iff_exists'.1 present
  obtain ⟨target, role, -⟩ := stay?_eq_some.1 found
  rw [role] at away
  exact away rfl

theorem edit?_of_depth? (away : i.role.depth? ≠ some depth) : i.edit? depth = none := by
  by_contra present
  obtain ⟨known, found⟩ := Option.ne_none_iff_exists'.1 present
  obtain ⟨target, role, -⟩ := edit?_eq_some.1 found
  rw [role] at away
  exact away rfl

theorem stay?_changed_restayed (amount : Tag → Rat) (bound : Nat) (x : Variable → Rat) :
    (i.changed amount (Role.restayed bound x)).stay? depth = i.stay? depth := by
  unfold stay? changed
  cases i.role <;> rfl

theorem edit?_changed_restayed (amount : Tag → Rat) (bound : Nat) (x : Variable → Rat) :
    (i.changed amount (Role.restayed bound x)).edit? depth = i.edit? depth := by
  unfold edit? changed
  cases i.role <;> rfl

theorem stay?_changed_retargeted (amount : Tag → Rat) (v : Variable) (value : Rat) :
    (i.changed amount (Role.retargeted v value)).stay? depth = i.stay? depth := by
  unfold stay? changed
  cases i.role <;> rfl

theorem edit?_changed_retargeted (amount : Tag → Rat) (v : Variable) (value : Rat) :
    (i.changed amount (Role.retargeted v value)).edit? depth = (i.edit? depth).map fun known =>
      if known.1 = v then (known.1, { known.2 with current := value }) else known := by
  unfold edit? changed
  cases i.role with
  | given => rfl
  | stay d w target => rfl
  | edit d w target =>
      dsimp only [Role.retargeted]
      by_cases same : d = depth
      · by_cases own : w = v
        · simp [same, own, Posed.moved]
        · simp [same, own, Posed.moved]
      · simp [same]

end Item

/-- The constraints that items pose. -/
def posedOf (items : List Item) : List Posed := items.map (·.toPosed)

/-- The entries of items. -/
def agendaOf (items : List Item) : List Entry := items.map Item.entry

variable {items : List Item} {i : Item} {depth bound : Nat} {v : Variable}

theorem posedOf_changed (amount : Tag → Rat) (f : Role → Role) (items : List Item) :
    posedOf (items.map (Item.changed amount f)) = moved amount (posedOf items) := by
  rw [posedOf, posedOf, moved, List.map_map, List.map_map]
  rfl

theorem agendaOf_changed (amount : Tag → Rat) (f : Role → Role) (items : List Item) :
    agendaOf (items.map (Item.changed amount f)) =
      (agendaOf items).map fun e => { e with role := f e.role } := by
  rw [agendaOf, agendaOf, List.map_map, List.map_map]
  rfl

theorem mem_posedOf (member : i ∈ items) : i.toPosed ∈ posedOf items := List.mem_map_of_mem member

theorem posedOf_filter (tag : Tag) (items : List Item) :
    posedOf (items.filter fun i => i.constraint.tag ≠ tag) = withoutTag (posedOf items) tag := by
  rw [posedOf, posedOf, withoutTag, List.filter_map]
  rfl

theorem agendaOf_filter (tag : Tag) (items : List Item) :
    agendaOf (items.filter fun i => i.constraint.tag ≠ tag) =
      (agendaOf items).filter fun e => e.constraint.tag ≠ tag := by
  rw [agendaOf, agendaOf, List.filter_map]
  rfl

/-! ### Sessions -/

/-- The session of some depth, as the items say. -/
def sessionAt (depth : Nat) (items : List Item) : Session Rat where
  stays := items.reverse.filterMap (Item.stay? depth)
  edits := items.reverse.filterMap (Item.edit? depth)

/-- The open sessions, innermost first, as the items say. -/
def sessionsOf : Nat → List Item → List (Session Rat)
  | 0, _ => []
  | depth + 1, items => sessionAt depth items :: sessionsOf depth items

@[simp] theorem length_sessionsOf (depth : Nat) (items : List Item) :
    (sessionsOf depth items).length = depth := by
  induction depth with
  | zero => rfl
  | succ depth ih => rw [sessionsOf, List.length_cons, ih]

theorem mem_sessionsOf {session : Session Rat} :
    session ∈ sessionsOf depth items ↔ ∃ d < depth, session = sessionAt d items := by
  induction depth with
  | zero => simp [sessionsOf]
  | succ depth ih =>
      rw [sessionsOf, List.mem_cons, ih]
      constructor
      · rintro (rfl | ⟨d, below, rfl⟩)
        · exact ⟨depth, Nat.lt_succ_self _, rfl⟩
        · exact ⟨d, Nat.lt_succ_of_lt below, rfl⟩
      · rintro ⟨d, below, rfl⟩
        rcases Nat.lt_succ_iff_lt_or_eq.1 below with less | rfl
        · exact .inr ⟨d, less, rfl⟩
        · exact .inl rfl

theorem sessionsOf_congr {items' : List Item}
    (same : ∀ d < depth, sessionAt d items' = sessionAt d items) :
    sessionsOf depth items' = sessionsOf depth items := by
  induction depth with
  | zero => rfl
  | succ depth ih =>
      rw [sessionsOf, sessionsOf, same depth (Nat.lt_succ_self _),
        ih fun d below => same d (Nat.lt_succ_of_lt below)]

theorem mem_stays {known : Variable × Installed Rat} : known ∈ (sessionAt depth items).stays ↔
    ∃ i ∈ items, ∃ target, i.role = .stay depth known.1 target ∧ i.toInstalled = known.2 := by
  rw [sessionAt, List.mem_filterMap]
  simp only [List.mem_reverse, Item.stay?_eq_some]

theorem mem_edits {known : Variable × Edit Rat} : known ∈ (sessionAt depth items).edits ↔
    ∃ i ∈ items, ∃ target, i.role = .edit depth known.1 target ∧
      known.2 = ⟨i.constraint, i.markers, target⟩ := by
  rw [sessionAt, List.mem_filterMap]
  simp only [List.mem_reverse, Item.edit?_eq_some]

/-- A session registers the constraints of its depth. -/
theorem mem_constraints_sessionAt {c : Constraint Rat} : c ∈ (sessionAt depth items).constraints ↔
    ∃ i ∈ items, i.role.depth? = some depth ∧ i.constraint = c := by
  rw [Session.constraints, List.mem_append, List.mem_map, List.mem_map]
  constructor
  · rintro (⟨known, stays, rfl⟩ | ⟨known, edits, rfl⟩)
    · obtain ⟨i, member, target, role, same⟩ := mem_stays.1 stays
      exact ⟨i, member, by rw [role]; rfl, congrArg (·.constraint) same⟩
    · obtain ⟨i, member, target, role, same⟩ := mem_edits.1 edits
      exact ⟨i, member, by rw [role]; rfl, by rw [same]⟩
  · rintro ⟨i, member, at_, rfl⟩
    cases role : i.role with
    | given =>
        rw [role] at at_
        cases at_
    | stay d v target =>
        rw [role] at at_
        cases at_
        exact .inl ⟨(v, i.toInstalled), mem_stays.2 ⟨i, member, target, role, rfl⟩, rfl⟩
    | edit d v target =>
        rw [role] at at_
        cases at_
        exact .inr ⟨(v, _), mem_edits.2 ⟨i, member, target, role, rfl⟩, rfl⟩

theorem sessionAt_cons (i : Item) (items : List Item) : sessionAt depth (i :: items) =
    { stays := (sessionAt depth items).stays ++ (i.stay? depth).toList
      edits := (sessionAt depth items).edits ++ (i.edit? depth).toList } := by
  simp only [sessionAt, List.reverse_cons, List.filterMap_append, List.filterMap_cons,
    List.filterMap_nil]
  cases i.stay? depth <;> cases i.edit? depth <;> rfl

/-- An item of another session, or of a caller, is not seen by a session. -/
theorem sessionAt_cons_of_ne (away : i.role.depth? ≠ some depth) (items : List Item) :
    sessionAt depth (i :: items) = sessionAt depth items := by
  rw [sessionAt_cons, Item.stay?_of_depth? away, Item.edit?_of_depth? away]
  simp

theorem sessionAt_map {f : Item → Item} (stays : ∀ i, (f i).stay? depth = i.stay? depth)
    (edits : ∀ i, (f i).edit? depth = i.edit? depth) (items : List Item) :
    sessionAt depth (items.map f) = sessionAt depth items := by
  simp only [sessionAt, ← List.map_reverse, List.filterMap_map]
  rw [show Item.stay? depth ∘ f = Item.stay? depth from funext stays,
    show Item.edit? depth ∘ f = Item.edit? depth from funext edits]

theorem sessionAt_filter {keep : Item → Bool}
    (away : ∀ i ∈ items, keep i = false → i.role.depth? ≠ some depth) :
    sessionAt depth (items.filter keep) = sessionAt depth items := by
  induction items with
  | nil => rfl
  | cons i rest ih =>
      have tail := ih fun j inRest => away j (List.mem_cons_of_mem _ inRest)
      cases kept : keep i with
      | true => rw [List.filter_cons_of_pos kept, sessionAt_cons, sessionAt_cons, tail]
      | false =>
          rw [List.filter_cons_of_neg (by simp [kept]), tail,
            sessionAt_cons_of_ne (away i List.mem_cons_self kept)]

end SoftSimplex
