import SoftSimplex.Proofs.Posed.Equation

/-!
Families of posed constraints.

The constraints of a family have columns of their own, so that every assignment to the unknowns of the
caller which meets the required ones is completed by placing the columns of each constraint well
(`Family.completed`). The total of the penalties is then what the columns cost.
-/

namespace SoftSimplex

open Tableau (Admissible)

/-- Posed constraints with tags and columns of their own. -/
structure Family (posed : List Posed) : Prop where
  fits : ∀ p ∈ posed, p.Fits
  tags : (posed.map (·.constraint.tag)).Nodup
  apart : ∀ p ∈ posed, ∀ q ∈ posed, ∀ c ∈ p.columns, c ∈ q.columns → p = q

/-- An assignment meets the required constraints of a family. -/
def MeetsRequired (posed : List Posed) (x : Variable → Rat) : Prop :=
  ∀ p ∈ posed, p.markers.weight = none → p.Met x

/-- What the error columns of a family cost. -/
def costs (posed : List Posed) (σ : Column → Rat) : Rat := (posed.map (·.cost σ)).sum

/-- What falling short of the constraints of a family costs. -/
def penalties (posed : List Posed) (x : Variable → Rat) : Rat := (posed.map (·.penalty x)).sum

/-- No constraint has a negative weight. -/
def Weighted (posed : List Posed) : Prop := ∀ p ∈ posed, ∀ w, p.markers.weight = some w → 0 ≤ w

/-- The assignment that places the columns of every constraint well. -/
def completion (posed : List Posed) (x : Variable → Rat) : Column → Rat
  | .external v => x v
  | .symbol s =>
    match posed.find? fun p => p.columns.contains (.symbol s) with
    | some p => p.place x (.symbol s)
    | none => 0

variable {posed : List Posed} {p : Posed} {σ τ : Column → Rat} {x : Variable → Rat} {c : Column}

theorem costs_perm {other : List Posed} (perm : posed.Perm other) (σ : Column → Rat) :
    costs posed σ = costs other σ := (perm.map _).sum_eq

theorem meetsRequired_append {other : List Posed} :
    MeetsRequired (other ++ posed) x ↔ MeetsRequired other x ∧ MeetsRequired posed x :=
  List.forall_mem_append

theorem penalties_append (other posed : List Posed) (x : Variable → Rat) :
    penalties (other ++ posed) x = penalties other x + penalties posed x := by
  rw [penalties, List.map_append, List.sum_append, penalties, penalties]

/-! ### Families that grow and shrink -/

/-- The other constraints, once one is taken back. -/
def withoutTag (posed : List Posed) (tag : Tag) : List Posed :=
  posed.filter fun p => p.constraint.tag ≠ tag

theorem mem_withoutTag {tag : Tag} :
    p ∈ withoutTag posed tag ↔ p ∈ posed ∧ p.constraint.tag ≠ tag := by
  rw [withoutTag, List.mem_filter, decide_eq_true_eq]

theorem withoutTag_append (other posed : List Posed) (tag : Tag) :
    withoutTag (other ++ posed) tag = withoutTag other tag ++ withoutTag posed tag :=
  List.filter_append _ _

theorem withoutTag_of_apart {tag : Tag} (apart : ∀ p ∈ posed, p.constraint.tag ≠ tag) :
    withoutTag posed tag = posed :=
  List.filter_eq_self.2 fun p member => decide_eq_true (apart p member)

theorem find?_cons_tag (tag : Tag) :
    ((p :: posed).find? fun q => q.constraint.tag = tag) =
      if p.constraint.tag = tag then some p else posed.find? fun q => q.constraint.tag = tag := by
  rw [List.find?_cons]
  by_cases same : p.constraint.tag = tag <;> simp [same]

theorem find?_withoutTag (posed : List Posed) (tag other : Tag) :
    ((withoutTag posed tag).find? fun q => q.constraint.tag = other) =
      if tag = other then none else posed.find? fun q => q.constraint.tag = other := by
  rw [withoutTag, List.find?_filter]
  split
  · next same =>
      subst same
      exact List.find?_eq_none.2 fun q _ => by simp
  · next different =>
      refine congrArg (List.find? · posed) (funext fun q => ?_)
      by_cases tagged : q.constraint.tag = other
      · simp [tagged, Ne.symm different]
      · simp [tagged]

namespace Family

theorem nil : Family [] where
  fits _ member := absurd member List.not_mem_nil
  tags := List.nodup_nil
  apart _ member := absurd member List.not_mem_nil

/-- A constraint with new columns and a new tag joins a family. -/
theorem cons (family : Family posed) (fits : p.Fits)
    (newTag : ∀ q ∈ posed, q.constraint.tag ≠ p.constraint.tag)
    (newColumns : ∀ q ∈ posed, ∀ c ∈ p.columns, c ∉ q.columns) : Family (p :: posed) where
  fits := List.forall_mem_cons.2 ⟨fits, family.fits⟩
  tags := by
    rw [List.map_cons, List.nodup_cons]
    refine ⟨fun member => ?_, family.tags⟩
    obtain ⟨q, inside, same⟩ := List.mem_map.1 member
    exact newTag q inside same
  apart a aIn b bIn c inA inB := by
    rcases List.mem_cons.1 aIn with rfl | aOld
    · rcases List.mem_cons.1 bIn with rfl | bOld
      · rfl
      · exact absurd inB (newColumns b bOld c inA)
    · rcases List.mem_cons.1 bIn with rfl | bOld
      · exact absurd inA (newColumns a aOld c inB)
      · exact family.apart a aOld b bOld c inA inB

section

variable (family : Family posed)
include family

theorem sublist {part : List Posed} (sublist : part.Sublist posed) : Family part where
  fits q member := family.fits q (sublist.subset member)
  tags := family.tags.sublist (sublist.map _)
  apart a aIn b bIn := family.apart a (sublist.subset aIn) b (sublist.subset bIn)

theorem withoutTag (tag : Tag) : Family (withoutTag posed tag) :=
  family.sublist List.filter_sublist

/-- The order of a family does not matter. -/
theorem perm {other : List Posed} (perm : posed.Perm other) : Family other where
  fits q member := family.fits q (perm.mem_iff.2 member)
  tags := (perm.map _).nodup_iff.1 family.tags
  apart a aIn b bIn := family.apart a (perm.mem_iff.2 aIn) b (perm.mem_iff.2 bIn)

/-- Two constraints of a family with one tag are the same. -/
theorem eq_of_tag {q : Posed} (pIn : p ∈ posed) (qIn : q ∈ posed)
    (same : p.constraint.tag = q.constraint.tag) : p = q :=
  List.inj_on_of_nodup_map family.tags pIn qIn same

theorem find?_tag (member : p ∈ posed) :
    posed.find? (fun q => q.constraint.tag = p.constraint.tag) = some p := by
  cases found : posed.find? fun q => q.constraint.tag = p.constraint.tag with
  | none => exact absurd (decide_eq_true rfl) (List.find?_eq_none.1 found p member)
  | some q =>
      have tagged := List.find?_some found
      have same : q.constraint.tag = p.constraint.tag := of_decide_eq_true tagged
      rw [family.eq_of_tag (List.mem_of_find?_eq_some found) member same]

/-- One constraint and the others make up the family. -/
theorem perm_cons_withoutTag (member : p ∈ posed) :
    posed.Perm (p :: SoftSimplex.withoutTag posed p.constraint.tag) := by
  have nodup : posed.Nodup := family.tags.of_map
  have others : (SoftSimplex.withoutTag posed p.constraint.tag).Nodup := nodup.filter _
  refine (List.perm_ext_iff_of_nodup nodup (List.nodup_cons.2 ⟨fun inside => ?_, others⟩)).2
    fun q => ?_
  · exact (mem_withoutTag.1 inside).2 rfl
  · rw [List.mem_cons, mem_withoutTag]
    constructor
    · intro inside
      by_cases same : q.constraint.tag = p.constraint.tag
      · exact .inl (family.eq_of_tag inside member same)
      · exact .inr ⟨inside, same⟩
    · rintro (rfl | ⟨inside, -⟩)
      · exact member
      · exact inside

theorem forall_mem_iff (member : p ∈ posed) {P : Posed → Prop} :
    (∀ q ∈ posed, P q) ↔ P p ∧ ∀ q ∈ SoftSimplex.withoutTag posed p.constraint.tag, P q := by
  rw [← List.forall_mem_cons]
  exact forall_congr' fun q => imp_congr_left (family.perm_cons_withoutTag member).mem_iff

theorem costs_eq_add (member : p ∈ posed) (σ : Column → Rat) :
    costs posed σ = p.cost σ + costs (SoftSimplex.withoutTag posed p.constraint.tag) σ := by
  rw [costs, ((family.perm_cons_withoutTag member).map _).sum_eq, List.map_cons, List.sum_cons,
    costs]

/-- The costs of a family look at its own columns only. -/
theorem costs_congr (same : ∀ p ∈ posed, ∀ c ∈ p.columns, σ c = τ c) :
    costs posed σ = costs posed τ :=
  congrArg List.sum (List.map_congr_left fun p member =>
    Posed.cost_congr (family.fits p member) (same p member))

/-! ### Completing an assignment -/

theorem completion_of_mem (member : p ∈ posed) (own : c ∈ p.columns) :
    completion posed x c = p.place x c := by
  cases c with
  | external v =>
      have restricted := Markers.Fits.restricted (family.fits p member) own
      cases restricted
  | symbol s =>
      have found : posed.find? (fun q => q.columns.contains (.symbol s)) = some p := by
        cases search : posed.find? fun q => q.columns.contains (.symbol s) with
        | none =>
            exact absurd (List.contains_iff_mem.2 own) (List.find?_eq_none.1 search p member)
        | some q =>
            have contains := List.find?_some search
            have inside : .symbol s ∈ q.columns := List.contains_iff_mem.1 contains
            rw [family.apart q (List.mem_of_find?_eq_some search) p member _ inside own]
      rw [completion, found]

omit family in
theorem onVariables_completion (posed : List Posed) (x : Variable → Rat) :
    onVariables (completion posed x) = x := rfl

omit family in
theorem admissible_completion (posed : List Posed) (x : Variable → Rat) :
    Admissible (completion posed x) where
  nonneg c pivotable := by
    cases c with
    | external v => cases pivotable
    | symbol s =>
        rw [completion]
        split
        · exact Posed.place_nonneg _ _ _
        · rfl
  zero c dummy := by
    cases c with
    | external v => cases dummy
    | symbol s =>
        rw [completion]
        split
        · exact Posed.place_of_dummy dummy
        · rfl

/-- Every assignment that meets the required constraints is completed to one that satisfies every row
and costs no more than what is missing. -/
theorem completed (meets : MeetsRequired posed x) :
    (∀ p ∈ posed, p.Equation (completion posed x)) ∧
      costs posed (completion posed x) = penalties posed x := by
  have each (p : Posed) (member : p ∈ posed) :=
    Posed.equation_and_cost_of_placed (σ := completion posed x) (family.fits p member)
      (fun c own => family.completion_of_mem member own) (meets p member)
  exact ⟨fun p member => (each p member).1,
    congrArg List.sum (List.map_congr_left fun p member => (each p member).2)⟩

/-- Where every row is satisfied and the columns are admissible, the required constraints are met. -/
theorem meetsRequired (equations : ∀ p ∈ posed, p.Equation σ) (admissible : Admissible σ) :
    MeetsRequired posed (onVariables σ) := fun p member required =>
  Posed.met_of_admissible (family.fits p member) required (equations p member) fun c _ =>
    ⟨admissible.zero c, admissible.nonneg c⟩

theorem penalties_le_costs (weighted : Weighted posed) (equations : ∀ p ∈ posed, p.Equation σ)
    (nonneg : ∀ c, c.isPivotable = true → 0 ≤ σ c) :
    penalties posed (onVariables σ) ≤ costs posed σ :=
  List.sum_le_sum fun p member => Posed.penalty_le_cost (family.fits p member)
    (weighted p member) (equations p member) nonneg

theorem costs_nonneg (weighted : Weighted posed) (nonneg : ∀ c, c.isPivotable = true → 0 ≤ σ c) :
    0 ≤ costs posed σ :=
  List.sum_nonneg fun value member => by
    obtain ⟨p, inside, rfl⟩ := List.mem_map.1 member
    exact Posed.cost_nonneg (family.fits p inside) (weighted p inside) nonneg

end

end Family

end SoftSimplex
