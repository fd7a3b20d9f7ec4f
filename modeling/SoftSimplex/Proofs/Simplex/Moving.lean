import SoftSimplex.Proofs.Simplex.Settled
import SoftSimplex.Proofs.Tableau.Constants

/-!
Moving the targets of constraints.

A constraint whose target was moved keeps its columns and its weight (`moved`). Moving one of its columns
in the equations of a tableau moves its target (`Represents.displaced`), and what the constraints cost
moves by a constant, so that an optimal objective row stays optimal.
-/

namespace SoftSimplex

open Tableau

variable {posed : List Posed} {p q : Posed} {amount other : Tag → Rat} {σ : Column → Rat}
  {x : Variable → Rat} {c : Column}

/-! ### Constraints whose targets moved -/

/-- A posed constraint whose target was moved by the amount for its tag. -/
def Posed.moved (amount : Tag → Rat) (p : Posed) : Posed :=
  { p with shift := p.shift + amount p.constraint.tag }

/-- A family of constraints whose targets were moved. -/
def moved (amount : Tag → Rat) (posed : List Posed) : List Posed := posed.map (Posed.moved amount)

namespace Posed

theorem gap_moved (amount : Tag → Rat) (p : Posed) (x : Variable → Rat) :
    (p.moved amount).gap x = p.gap x + amount p.constraint.tag := (add_assoc _ _ _).symm

theorem moved_of_zero (still : amount p.constraint.tag = 0) : p.moved amount = p := by
  rw [moved, still, add_zero]

theorem moved_moved (amount other : Tag → Rat) (p : Posed) :
    (p.moved amount).moved other = p.moved (amount + other) := by
  simp only [moved, Pi.add_apply, add_assoc]

/-- Moving a column of a constraint moves its row by the coefficient of that column. -/
theorem offset_update (fits : p.Fits) {term : Column × Rat} (own : term ∈ p.markers.terms) (δ : Rat) :
    p.offset (Function.update σ term.1 (σ term.1 + δ)) = p.offset σ + term.2 * δ := by
  have nodup := Markers.Fits.nodup fits
  rw [← Markers.map_terms_eq_columns] at nodup
  unfold offset
  generalize p.markers.terms = terms at own nodup
  induction terms with
  | nil => cases own
  | cons first rest ih =>
      rw [List.map_cons, List.nodup_cons] at nodup
      rw [List.map_cons, List.sum_cons, List.map_cons, List.sum_cons]
      rcases List.mem_cons.1 own with rfl | later
      · have others : (rest.map fun other => other.2 *
            Function.update σ term.1 (σ term.1 + δ) other.1) =
              rest.map fun other => other.2 * σ other.1 := by
          refine List.map_congr_left fun other member => ?_
          rw [Function.update_of_ne fun same => nodup.1 (List.mem_map.2 ⟨other, member, same⟩)]
        rw [others, Function.update_self]
        ring
      · have different : first.1 ≠ term.1 := fun same =>
          nodup.1 (List.mem_map.2 ⟨term, later, same.symm⟩)
        rw [ih later nodup.2, Function.update_of_ne different]
        ring

/-- Moving a column moves what the errors of a constraint cost by a constant. -/
theorem exists_cost_update (p : Posed) (c : Column) (δ : Rat) : ∃ d, ∀ σ : Column → Rat,
    p.cost (Function.update σ c (σ c + δ)) = p.cost σ + d := by
  have sums (errors : List Column) : ∃ d, ∀ σ : Column → Rat,
      (errors.map (Function.update σ c (σ c + δ))).sum = (errors.map σ).sum + d := by
    induction errors with
    | nil => exact ⟨0, fun _ => (add_zero _).symm⟩
    | cons first rest ih =>
        obtain ⟨d, moves⟩ := ih
        by_cases same : first = c
        · refine ⟨δ + d, fun σ => ?_⟩
          rw [List.map_cons, List.sum_cons, List.map_cons, List.sum_cons, moves, same,
            Function.update_self]
          ring
        · refine ⟨d, fun σ => ?_⟩
          rw [List.map_cons, List.sum_cons, List.map_cons, List.sum_cons, moves,
            Function.update_of_ne same]
          ring
  obtain ⟨d, moves⟩ := sums p.markers.errors
  refine ⟨p.markers.weight.getD 0 * d, fun σ => ?_⟩
  rw [cost, cost, moves]
  ring

end Posed

theorem mem_moved : p ∈ moved amount posed ↔ ∃ q ∈ posed, q.moved amount = p := List.mem_map

theorem moved_moved (amount other : Tag → Rat) (posed : List Posed) :
    moved other (moved amount posed) = moved (amount + other) posed := by
  rw [moved, moved, List.map_map]
  exact List.map_congr_left fun p _ => p.moved_moved amount other

theorem moved_of_zero (still : ∀ p ∈ posed, amount p.constraint.tag = 0) :
    moved amount posed = posed := by
  rw [moved, List.map_congr_left fun p member => Posed.moved_of_zero (still p member), List.map_id']

theorem costs_moved (amount : Tag → Rat) (posed : List Posed) (σ : Column → Rat) :
    costs (moved amount posed) σ = costs posed σ := by
  rw [costs, moved, List.map_map]
  rfl

theorem find?_moved (amount : Tag → Rat) (posed : List Posed) (tag : Tag) :
    ((moved amount posed).find? fun p => p.constraint.tag = tag) =
      (posed.find? fun p => p.constraint.tag = tag).map (Posed.moved amount) := by
  rw [moved, List.find?_map]
  rfl

theorem Family.moved (family : Family posed) (amount : Tag → Rat) : Family (moved amount posed) where
  fits p member := by
    obtain ⟨q, inside, rfl⟩ := mem_moved.1 member
    exact family.fits q inside
  tags := by
    rw [SoftSimplex.moved, List.map_map]
    exact family.tags
  apart a aIn b bIn c inA inB := by
    obtain ⟨a', aInside, rfl⟩ := mem_moved.1 aIn
    obtain ⟨b', bInside, rfl⟩ := mem_moved.1 bIn
    rw [family.apart a' aInside b' bInside c inA inB]

/-! ### Tableaus of moved constraints -/

/-- The amount by which a single target moves. -/
def alone (tag : Tag) (δ : Rat) : Tag → Rat := Function.update (fun _ => 0) tag δ

@[simp] theorem alone_self (tag : Tag) (δ : Rat) : alone tag δ tag = δ := Function.update_self _ _ _

theorem alone_of_ne {tag tag' : Tag} (different : tag' ≠ tag) (δ : Rat) : alone tag δ tag' = 0 :=
  Function.update_of_ne different _ _

/-- The columns of one constraint have no part in the others. -/
theorem Family.not_mem_columns (family : Family posed) (member : p ∈ posed) (own : c ∈ p.columns)
    (inside : q ∈ posed) (different : q.constraint.tag ≠ p.constraint.tag) : c ∉ q.columns :=
  fun inQ => different (by rw [family.apart q inside p member c inQ own])

section

variable (family : Family posed) (member : p ∈ posed) {term : Column × Rat}
  (own : term ∈ p.markers.terms)
include family member own

/-- Moving a column of a constraint moves what the family costs by a constant. -/
theorem Family.exists_costs_update (δ : Rat) : ∃ d, ∀ σ : Column → Rat,
    costs posed (Function.update σ term.1 (σ term.1 + δ)) = costs posed σ + d := by
  obtain ⟨d, moves⟩ := p.exists_cost_update term.1 δ
  refine ⟨d, fun σ => ?_⟩
  have others : costs (SoftSimplex.withoutTag posed p.constraint.tag)
      (Function.update σ term.1 (σ term.1 + δ)) =
        costs (SoftSimplex.withoutTag posed p.constraint.tag) σ := by
    refine (family.withoutTag _).costs_congr fun q inRest c inQ => Function.update_of_ne ?_ _ _
    rintro rfl
    obtain ⟨inside, different⟩ := mem_withoutTag.1 inRest
    exact family.not_mem_columns member (Posed.mem_columns_of_term own) inside different inQ
  rw [family.costs_eq_add member, family.costs_eq_add member, moves, others]
  ring

/-- Moving a column of a constraint moves the target of that constraint, and of no other. -/
theorem Family.equation_update (δ : Rat) (inside : q ∈ posed) (σ : Column → Rat) :
    q.Equation (Function.update σ term.1 (σ term.1 + δ)) ↔
      (q.moved (alone p.constraint.tag (term.2 * δ))).Equation σ := by
  have fits := family.fits p member
  have ownColumn := Posed.mem_columns_of_term own
  have unknowns := onVariables_update (Markers.Fits.restricted fits ownColumn) σ (σ term.1 + δ)
  by_cases same : q = p
  · subst same
    rw [Posed.Equation, Posed.Equation, unknowns, Posed.offset_update fits own, Posed.gap_moved,
      alone_self, add_right_comm, add_assoc]
    rfl
  · have different : q.constraint.tag ≠ p.constraint.tag := fun tags =>
      same (family.eq_of_tag inside member tags)
    rw [Posed.moved_of_zero (alone_of_ne different _)]
    refine Posed.equation_congr unknowns fun c inQ => Function.update_of_ne ?_ _ _
    rintro rfl
    exact family.not_mem_columns member ownColumn inside different inQ

end

namespace Tableau

variable {t t' : Tableau Rat} {k : Rat}

/-- Where a column of a constraint was moved the target of the constraint is moved by its
coefficient. -/
theorem Represents.displaced (represents : t.Represents posed fun σ => k + costs posed σ)
    (family : Family posed) (member : p ∈ posed) {term : Column × Rat} (own : term ∈ p.markers.terms)
    {δ : Rat} (alike : t.Alike t') (displaced : t.Displaced term.1 δ t') :
    ∃ k', t'.Represents (moved (alone p.constraint.tag (term.2 * δ)) posed)
      fun σ => k' + costs (moved (alone p.constraint.tag (term.2 * δ)) posed) σ := by
  have restricted := Markers.Fits.restricted (family.fits p member) (Posed.mem_columns_of_term own)
  obtain ⟨d, total⟩ := family.exists_costs_update member own δ
  have plain : Column.objective ≠ term.1 := by
    intro objective
    rw [← objective] at restricted
    cases restricted
  refine ⟨k + d, alike.exact represents.toExact, fun σ => ?_, blind_costs (family.moved _) _, ?_, ?_⟩
  · rw [displaced, represents.holds, Function.update_of_ne plain, total, costs_moved]
    refine and_congr ?_ (by rw [add_right_comm, add_assoc])
    constructor
    · intro all q' member'
      obtain ⟨q, inside, rfl⟩ := mem_moved.1 member'
      exact (family.equation_update member own δ inside σ).1 (all q inside)
    · intro all q inside
      exact (family.equation_update member own δ inside σ).2 (all _ (mem_moved.2 ⟨q, inside, rfl⟩))
  · rw [alike.isSome_eq]
    exact represents.stored
  · exact alike.absent_iff.2 represents.idle

end Tableau

namespace Simplex

variable {s : Simplex Rat} {t' : Tableau Rat}

/-- A solver prices moved constraints where its tableau represents them. -/
theorem Priced.moved (priced : s.Priced posed) (alike : s.tableau.Alike t')
    (represents : ∃ k, t'.Represents (moved amount posed) fun σ => k + costs (moved amount posed) σ) :
    (s.withTableau t').Priced (moved amount posed) := by
  obtain ⟨k, carries⟩ := priced.carries
  obtain ⟨k', represents⟩ := represents
  refine ⟨⟨k', represents, carries.family.moved amount, fun c known => ?_, fun p member => ?_⟩,
    fun tag => ?_⟩
  · exact carries.fresh c (alike.scope_eq ▸ known)
  · obtain ⟨q, inside, rfl⟩ := mem_moved.1 member
    exact carries.below q inside
  · rw [find?_moved, Option.map_map]
    exact priced.registered tag

theorem optimized_of_alike (optimized : s.tableau.Optimized) (alike : s.tableau.Alike t') :
    t'.Optimized := fun _ found => alike.minimal optimized found

end Simplex

end SoftSimplex
