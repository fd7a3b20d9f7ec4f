import Mathlib.Algebra.BigOperators.Ring.Finset
import SoftSimplex.Problem.Arrays
import SoftSimplex.Proofs.Problem.Solving

/-!
Linear programs given by arrays.

The program of arrays admits an assignment of nonnegative values exactly if its values satisfy the rows of
the matrices, and its objective is the product of the costs with the values (`Arrays.Reading`). Solving it
decides the arrays (`solve_spec`).
-/

namespace SoftSimplex

variable {x : Variable → Rat}

/-- The sum of coefficients times values. -/
def dot (coefficients values : List Rat) : Rat := (List.zipWith (· * ·) coefficients values).sum

namespace LinExpr

theorem eval_foldl_add (first : LinExpr Rat) (rest : List (LinExpr Rat)) (x : Variable → Rat) :
    (rest.foldl .add first).eval x = first.eval x + (rest.map (·.eval x)).sum := by
  induction rest generalizing first with
  | nil => simp
  | cons next rest ih =>
      rw [List.foldl_cons, ih, eval, List.map_cons, List.sum_cons]
      ring

/-- A term has the value of its product, and no term the value zero. -/
theorem eval_term? (k : Rat) (v : Variable) (x : Variable → Rat) :
    ((term? k v).map (·.eval x)).getD 0 = k * x v := by
  unfold term?
  split
  · next zero =>
      rw [(Scalar.isZero_iff k).1 zero, zero_mul]
      rfl
  · split
    · next one =>
        have bounds : k ≤ 1 ∧ 1 ≤ k := by simpa using one
        rw [le_antisymm bounds.1 bounds.2, one_mul]
        rfl
    · rfl

theorem sum_filterMap_term? (terms : List (Rat × Variable)) (x : Variable → Rat) :
    ((terms.filterMap fun (a, v) => term? a v).map (·.eval x)).sum =
      (terms.map fun (a, v) => a * x v).sum := by
  induction terms with
  | nil => rfl
  | cons term rest ih =>
      obtain ⟨k, v⟩ := term
      have own := eval_term? k v x
      rw [List.map_cons, List.sum_cons, ← ih, List.filterMap_cons]
      dsimp only
      rw [← own]
      cases term? k v with
      | none => simp
      | some e => simp

/-- A combination has the value of the product of its coefficients with the values. -/
theorem eval_combination (coefficients : List Rat) (unknowns : List Variable)
    (x : Variable → Rat) :
    (combination coefficients unknowns).eval x = dot coefficients (unknowns.map x) := by
  have products : dot coefficients (unknowns.map x) =
      ((coefficients.zip unknowns).map fun (a, v) => a * x v).sum := by
    rw [dot, List.zipWith_map_right, List.zip, List.map_zipWith]
  rw [products, ← sum_filterMap_term?, combination]
  cases (coefficients.zip unknowns).filterMap fun (a, v) => term? a v with
  | nil => rfl
  | cons first rest => exact eval_foldl_add first rest x

end LinExpr

namespace Arrays

/-- The costs of arrays. -/
def costList (arrays : Arrays Rat) : List Rat :=
  match arrays.costs with
  | .ok costs => costs.entries
  | .error _ => []

/-- The rows of a matrix with their bounds. -/
def lines (matrix bounds : Option (Except ArrayFault (Grid Rat))) (count : Nat) :
    List (List Rat × Rat) :=
  match matrix, bounds with
  | some (.ok matrix), some (.ok bounds) =>
    (matrix.rows bounds.entries.length count).zip bounds.entries
  | _, _ => []

/-- Values satisfy the rows of the matrices, and none is negative. -/
structure Admits (arrays : Arrays Rat) (values : List Rat) : Prop where
  length : values.length = arrays.costList.length
  nonneg : ∀ value ∈ values, 0 ≤ value
  upper : ∀ line ∈ lines arrays.upperMatrix arrays.upperBounds values.length,
    dot line.1 values ≤ line.2
  equal : ∀ line ∈ lines arrays.equalMatrix arrays.equalBounds values.length,
    dot line.1 values = line.2

theorem relations_eq {matrix bounds : Option (Except ArrayFault (Grid Rat))}
    {unknowns : List Variable} {related : List (LinExpr Rat × LinExpr Rat)}
    (read : relations matrix bounds unknowns = .ok related) :
    related = (lines matrix bounds unknowns.length).map fun line =>
      (.combination line.1 unknowns, .constant line.2) := by
  unfold relations at read
  cases matrix with
  | none =>
      cases bounds with
      | none =>
          cases read
          rfl
      | some _ => cases read
  | some matrix =>
      cases bounds with
      | none => cases read
      | some bounds =>
          cases matrix with
          | error fault => cases read
          | ok matrix =>
              cases bounds with
              | error fault => cases read
              | ok bounds =>
                  change matrix.relations bounds unknowns = .ok related at read
                  unfold Grid.relations at read
                  dsimp only at read
                  split at read
                  · cases read
                    rfl
                  · cases read

theorem unknowns_nodup {count : Nat} {names : Option (List String)} {unknowns' : List Variable}
    (read : unknowns count names = .ok unknowns') :
    unknowns'.Nodup ∧ unknowns'.length = count := by
  unfold unknowns at read
  dsimp only at read
  split at read
  · next length =>
      cases read
      refine ⟨List.Nodup.of_map Variable.serial ?_, by rw [List.length_map, List.length_zipIdx, length]⟩
      have serials (texts : List String) : (texts.zipIdx.map Prod.snd).Nodup := by
        rw [List.zipIdx_map_snd]
        exact List.nodup_range'
      rw [List.map_map]
      exact serials _
  · cases read

theorem bind_eq_ok {ε α β : Type} {first : Except ε α} {next : α → Except ε β} {b : β}
    (answered : (first >>= next) = .ok b) : ∃ a, first = .ok a ∧ next a = .ok b := by
  cases first with
  | error fault => cases answered
  | ok a => exact ⟨a, rfl, answered⟩

/-- The sides of the constraints of arrays. -/
def related (arrays : Arrays Rat) (unknowns : List Variable) :
    List (Comparator × LinExpr Rat × LinExpr Rat) :=
  ((lines arrays.upperMatrix arrays.upperBounds unknowns.length).map fun line =>
    (.le, .combination line.1 unknowns, .constant line.2)) ++
  (lines arrays.equalMatrix arrays.equalBounds unknowns.length).map fun line =>
    (.eq, .combination line.1 unknowns, .constant line.2)

/-- What the program of arrays is made of. -/
structure Reading (arrays : Arrays Rat) (problem : Problem Rat) (unknowns : List Variable) : Prop where
  nodup : unknowns.Nodup
  length : unknowns.length = arrays.costList.length
  objective : problem.objective = ⟨arrays.goal, .combination arrays.costList unknowns⟩
  nonnegative : problem.nonnegative = true
  constraints : problem.constraints =
    (arrays.related unknowns).zipIdx.map fun ((comparator, left, right), n) =>
      { tag := .given n, left, comparator, right }

theorem reading {arrays : Arrays Rat} {problem : Problem Rat} {unknowns : List Variable}
    (read : arrays.problem = .ok (problem, unknowns)) : arrays.Reading problem unknowns := by
  unfold Arrays.problem at read
  obtain ⟨costs, foundCosts, read⟩ := bind_eq_ok read
  obtain ⟨variables', foundUnknowns, read⟩ := bind_eq_ok read
  obtain ⟨upper, foundUpper, read⟩ := bind_eq_ok read
  obtain ⟨equal, foundEqual, read⟩ := bind_eq_ok read
  obtain ⟨rfl, rfl⟩ := Prod.mk.inj (Except.ok.inj read)
  have list : arrays.costList = costs.entries := by rw [costList, foundCosts]
  obtain ⟨nodup, length⟩ := unknowns_nodup foundUnknowns
  refine ⟨nodup, length.trans (congrArg List.length list.symm), by rw [list], rfl, ?_⟩
  rw [relations_eq foundUpper, relations_eq foundEqual, List.map_map, List.map_map]
  rfl

namespace Reading

variable {arrays : Arrays Rat} {problem : Problem Rat} {unknowns : List Variable}
  (reading : arrays.Reading problem unknowns)
include reading

theorem standard : problem.Standard where
  nonnegative := reading.nonnegative
  required c member := by
    rw [reading.constraints] at member
    obtain ⟨entry, -, rfl⟩ := List.mem_map.1 member
    rfl
  given c member := by
    rw [reading.constraints] at member
    obtain ⟨entry, -, rfl⟩ := List.mem_map.1 member
    exact ⟨_, rfl⟩
  distinct := by
    have tags : problem.constraints.map (·.tag) =
        (List.range' 0 (arrays.related unknowns).length).map Tag.given := by
      rw [reading.constraints, List.map_map, ← List.zipIdx_map_snd, List.map_map]
      rfl
    rw [tags]
    exact List.Nodup.map (fun a b same => Tag.given.inj same) List.nodup_range'

/-- The objective is the product of the costs with the values. -/
theorem value_eq (x : Variable → Rat) :
    problem.objective.expression.eval x = dot arrays.costList (unknowns.map x) := by
  rw [reading.objective]
  exact LinExpr.eval_combination _ _ _

theorem goal_eq : problem.objective.goal = arrays.goal := by
  rw [reading.objective]

/-- The constraints of the program are the rows of the matrices. -/
theorem holds_iff (x : Variable → Rat) : (∀ c ∈ problem.constraints, c.Holds x) ↔
    (∀ line ∈ lines arrays.upperMatrix arrays.upperBounds unknowns.length,
      dot line.1 (unknowns.map x) ≤ line.2) ∧
    ∀ line ∈ lines arrays.equalMatrix arrays.equalBounds unknowns.length,
      dot line.1 (unknowns.map x) = line.2 := by
  have sides : (∀ c ∈ problem.constraints, c.Holds x) ↔ ∀ side ∈ arrays.related unknowns,
      (⟨.given 0, side.2.1, side.1, side.2.2, .required⟩ : Constraint Rat).Holds x := by
    rw [reading.constraints, List.forall_mem_map, ← List.zipIdx_map_fst 0 (arrays.related unknowns),
      List.forall_mem_map, List.zipIdx_map_fst]
    rfl
  rw [sides, related, List.forall_mem_append, List.forall_mem_map, List.forall_mem_map]
  refine and_congr (forall₂_congr fun line _ => ?_) (forall₂_congr fun line _ => ?_)
  · change (LinExpr.combination line.1 unknowns).eval x ≤ line.2 ↔ _
    rw [LinExpr.eval_combination]
  · change (LinExpr.combination line.1 unknowns).eval x = line.2 ↔ _
    rw [LinExpr.eval_combination]

/-- Nonnegative assignments are admitted exactly if their values are. -/
theorem admits_iff {x : Variable → Rat} (nonneg : ∀ v, 0 ≤ x v) :
    problem.Admits x ↔ arrays.Admits (unknowns.map x) := by
  have length : (unknowns.map x).length = unknowns.length := List.length_map _
  constructor
  · rintro ⟨holds, -⟩
    obtain ⟨upper, equal⟩ := (reading.holds_iff x).1 holds
    refine ⟨length.trans reading.length, List.forall_mem_map.2 fun v _ => nonneg v, ?_, ?_⟩
    · rwa [length]
    · rwa [length]
  · intro admits
    have upper := admits.upper
    have equal := admits.equal
    rw [length] at upper equal
    exact ⟨(reading.holds_iff x).2 ⟨upper, equal⟩, fun v _ => nonneg v⟩

/-- Values are those of a nonnegative assignment. -/
theorem exists_assignment {values : List Rat} (admits : arrays.Admits values) :
    ∃ x : Variable → Rat, (∀ v, 0 ≤ x v) ∧ unknowns.map x = values := by
  refine ⟨fun v => values.getD (unknowns.idxOf v) 0, fun v => ?_, ?_⟩
  · dsimp only
    rw [List.getD_eq_getElem?_getD]
    cases found : values[unknowns.idxOf v]? with
    | none => rfl
    | some value => exact admits.nonneg value (List.mem_of_getElem? found)
  · refine List.ext_getElem ?_ fun i below below' => ?_
    · rw [List.length_map, reading.length, admits.length]
    · rw [List.getElem_map, List.Nodup.idxOf_getElem reading.nodup]
      rw [List.getD_eq_getElem?_getD, List.getElem?_eq_getElem below', Option.getD_some]

/-- Solving the program of arrays decides the arrays. -/
theorem decides : Decides arrays.goal arrays.Admits (dot arrays.costList)
    (fun solution => unknowns.map solution.values.value) (problem.solve 0) := by
  have standard := reading.standard
  have decided := problem.decides standard
  rw [reading.goal_eq] at decided
  have shown (x : Variable → Rat) (nonneg : ∀ v, 0 ≤ x v) :
      (problem.Admits x ↔ arrays.Admits (unknowns.map x)) ∧
        problem.objective.expression.eval x = dot arrays.costList (unknowns.map x) :=
    ⟨reading.admits_iff nonneg, reading.value_eq x⟩
  exact decided.view shown
    (fun x admits => by
      have same (v : Variable) (names : problem.Names v) : max (x v) 0 = x v :=
        max_eq_left (admits.2 v names)
      exact ⟨fun v => max (x v) 0, fun v => le_max_right _ _, (Problem.admits_congr same).2 admits,
        Problem.value_congr same⟩)
    (fun values admits => reading.exists_assignment admits)
    fun solution solved => problem.nonneg_of_solve standard solved

end Reading

end Arrays

/-! ### Solving -/

end SoftSimplex

