import SoftSimplex.Column.Text
import SoftSimplex.Formula.Text
import SoftSimplex.Json.Reading
import SoftSimplex.Json.Writing
import SoftSimplex.Literal.Record
import SoftSimplex.Problem.Arrays
import SoftSimplex.Problem.Solve
import SoftSimplex.Problem.Text
import SoftSimplex.Proofs.Problem.Arrays
import SoftSimplex.Proofs.Problem.Unrestricted
import SoftSimplex.Proofs.Simplex.Narrowing
import SoftSimplex.Proofs.Simplex.Optimizing
import SoftSimplex.Proofs.Solver.Batches
import SoftSimplex.Proofs.Solver.Dominance
import SoftSimplex.Proofs.Solver.Interrupting
import SoftSimplex.Proofs.Solver.Opening
import SoftSimplex.Proofs.Solver.Pairing
import SoftSimplex.Proofs.Solver.Projecting
import SoftSimplex.Proofs.Solver.Releasing
import SoftSimplex.Proofs.Solver.Remnants
import SoftSimplex.Proofs.Solver.Restaying
import SoftSimplex.Proofs.Solver.Retargeting
import SoftSimplex.Proofs.Solver.Sheltering
import SoftSimplex.Proofs.Tableau.Inversion
import SoftSimplex.Quantity.Rounding
import SoftSimplex.Settings
import SoftSimplex.Simplex.Text
import SoftSimplex.Solution.Closeness
import SoftSimplex.Solver.Session
import SoftSimplex.Solver.Suggest
import SoftSimplex.Step.Text
import SoftSimplex.Tableau.Ordered
import SoftSimplex.Workbench
