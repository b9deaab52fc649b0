import Mathlib.Data.Matrix.Block
import Mathlib.LinearAlgebra.Matrix.Symmetric
import StageQp.Proofs.Kkt.Conditions

/-!
# StageQp.Proofs.Kkt.Blocks

The assembled system as one block matrix.  Its rows are the variables and the
equations of all stages, each once (`row_bijective`).  In that order the matrix is

```
[H  E']
[E  0 ]
```

with the quadratic costs on the diagonal of `H` (`Problem.costs`) and the dynamics
with their couplings in `E` (`Problem.couplings`), entry for entry as they are given
and whatever the right-hand side was written over (`assemble_blocks`).  Nothing here
asks for a law of the scalar type.
-/

namespace StageQp

open scoped Matrix

/-! ## Rows by name -/

namespace Shape

/-- The variables, by stage. -/
abbrev Variable (s : Shape) : Type := (k : Fin (s.horizon + 1)) × Fin (s.nv k)

/-- The equations, by stage; the last stage has none. -/
abbrev Equation (s : Shape) : Type := (k : Fin s.horizon) × Fin (s.dynamics k)

variable {s : Shape}

/-- Every variable has a row. -/
theorem Variable.row_lt (v : s.Variable) : (Problem.place s v.1).z + v.2 < s.order := by
  obtain ⟨row, hrow⟩ :=
    Problem.exists_row_variable rfl (Nat.le_of_lt_succ v.1.isLt) v.2.isLt
  exact hrow ▸ row.isLt

/-- Every equation has a row. -/
theorem Equation.row_lt (e : s.Equation) : (Problem.place s e.1).e + e.2 < s.order := by
  obtain ⟨row, hrow⟩ := Problem.exists_row_equation rfl (Nat.le_of_lt e.1.isLt) e.2.isLt
  exact hrow ▸ row.isLt

/-- The row, and the column, that a variable or an equation has in the linear system. -/
def row (s : Shape) : s.Variable ⊕ s.Equation → Fin s.order
  | .inl v => ⟨(Problem.place s v.1).z + v.2, v.row_lt⟩
  | .inr e => ⟨(Problem.place s e.1).e + e.2, e.row_lt⟩

/-- The rows of the variables come first. -/
theorem row_inl_lt (v : s.Variable) : (s.row (.inl v)).val < s.totalVariables :=
  Nat.lt_of_lt_of_le (Nat.add_lt_add_left v.2.isLt _)
    (Problem.place_inRange (Nat.le_of_lt_succ v.1.isLt)).variables_le

/-- The rows of equations are behind those of all variables. -/
theorem le_row_inr (e : s.Equation) : s.totalVariables ≤ (s.row (.inr e)).val :=
  Nat.le_trans (Problem.place_inRange (Nat.le_of_lt e.1.isLt)).dynamics_ge (Nat.le_add_right _ _)

/-- No two have the same row. -/
theorem row_injective (s : Shape) : Function.Injective s.row := by
  rintro (⟨k, i⟩ | ⟨k, i⟩) (⟨l, j⟩ | ⟨l, j⟩) h
  · have hin := Problem.within_variables (k := l.val) i.isLt
    rw [show (Problem.place s k).z + i = (Problem.place s l).z + j from congrArg Fin.val h,
      Problem.within_variables j.isLt] at hin
    obtain rfl : l = k := Fin.ext (by simpa using hin.symm)
    obtain rfl : i = j := Fin.ext (Nat.add_left_cancel (congrArg Fin.val h))
    rfl
  · have hlt := row_inl_lt ⟨k, i⟩
    exact absurd (h ▸ hlt) (Nat.not_lt.2 (le_row_inr ⟨l, j⟩))
  · have hlt := row_inl_lt ⟨l, j⟩
    exact absurd (h ▸ hlt) (Nat.not_lt.2 (le_row_inr ⟨k, i⟩))
  · have hin := Problem.within_equations (k := l.val) i.isLt
    rw [show (Problem.place s k).e + i = (Problem.place s l).e + j from congrArg Fin.val h,
      Problem.within_equations j.isLt] at hin
    obtain rfl : l = k := Fin.ext (by simpa using hin.symm)
    obtain rfl : i = j := Fin.ext (Nat.add_left_cancel (congrArg Fin.val h))
    rfl

/-- Every row is that of a variable or an equation. -/
theorem row_surjective (s : Shape) : Function.Surjective s.row := by
  intro r
  rcases Nat.lt_or_ge r.val s.totalVariables with hlt | hge
  · obtain ⟨k, hk, hin⟩ := Problem.exists_variable hlt
    obtain ⟨hfirst, hlast⟩ := Problem.within_iff.1 hin
    have hi : r.val - (Problem.place s k).z < s.nv k := Nat.sub_lt_left_of_lt_add hfirst hlast
    exact ⟨.inl ⟨⟨k, Nat.lt_succ_of_le hk⟩, ⟨_, hi⟩⟩, Fin.ext (Nat.add_sub_cancel' hfirst)⟩
  · obtain ⟨k, hk, hin⟩ := Problem.exists_equation hge r.isLt
    obtain ⟨hfirst, hlast⟩ := Problem.within_iff.1 hin
    have hi : r.val - (Problem.place s k).e < s.dynamics k := Nat.sub_lt_left_of_lt_add hfirst hlast
    have hk := lt_horizon_of_dynamics (Nat.zero_lt_of_lt hi)
    exact ⟨.inr ⟨⟨k, hk⟩, ⟨_, hi⟩⟩, Fin.ext (Nat.add_sub_cancel' hfirst)⟩

/-- Every row of the linear system is a variable or an equation, and only one. -/
theorem row_bijective (s : Shape) : Function.Bijective s.row :=
  ⟨s.row_injective, s.row_surjective⟩

end Shape

/-! ## The blocks -/

namespace Problem

variable {F : Type} [Scalar F]

/-- The quadratic costs, those of every stage for themselves. -/
def costs (p : Problem F) : Matrix p.shape.Variable p.shape.Variable F :=
  Matrix.blockDiagonal' fun k => .of fun i c => p.hessian k i c

/-- The dynamics: in the row of an equation what they say of the variables of its
stage, and minus one at the state of the next stage that they set. -/
def couplings (p : Problem F) : Matrix p.shape.Equation p.shape.Variable F := .of fun e v =>
  if v.1.val = e.1.val then p.dynamics e.1 e.2 v.2
  else if v.1.val = e.1.val + 1 ∧
      v.2.val = (p.shape.stage (e.1.val + 1)).nu.toNat + e.2.val then -1
  else 0

/-- The right-hand side: the linear costs and the offsets with their signs changed. -/
def right (p : Problem F) : p.shape.Variable ⊕ p.shape.Equation → F :=
  Sum.elim (fun v => -p.gradient v.1 v.2) fun e => -p.offset e.1 e.2

variable (p : Problem F) (before : Coords F p.shape.order)

/-- The assembled matrix, its rows and columns in the order of their names. -/
theorem assemble_blocks :
    (p.assemble before).matrix.toMatrix.submatrix p.shape.row p.shape.row =
      Matrix.fromBlocks p.costs p.couplingsᵀ p.couplings 0 := by
  ext a b
  rw [Matrix.submatrix_apply, Square.toMatrix_apply]
  rcases a with ⟨k, i⟩ | ⟨k, i⟩
  · have hk := Nat.le_of_lt_succ k.isLt
    rcases b with ⟨l, c⟩ | ⟨l, c⟩
    · rw [entry_variables hk (Nat.le_of_lt_succ l.isLt) i.isLt c.isLt rfl rfl,
        Matrix.fromBlocks_apply₁₁, costs, Matrix.blockDiagonal'_apply]
      by_cases hkl : k = l
      · subst hkl
        simp
      · rw [if_neg fun h => hkl (Fin.ext h), dif_neg hkl]
    · exact entry_variable_equation (Nat.le_of_lt l.isLt) hk c.isLt i.isLt rfl rfl
  · have hk := Nat.le_of_lt k.isLt
    rcases b with ⟨l, c⟩ | ⟨l, c⟩
    · exact entry_equation_variable hk (Nat.le_of_lt_succ l.isLt) i.isLt c.isLt rfl rfl
    · exact entry_equations hk i.isLt c.isLt rfl rfl

/-- The assembled right-hand side; nothing is left of what it was written over. -/
theorem assemble_right : (p.assemble before).rhs.entry ∘ p.shape.row = p.right := by
  funext a
  rcases a with ⟨k, i⟩ | ⟨k, i⟩
  · exact rhs_variable (Nat.le_of_lt_succ k.isLt) i.isLt rfl
  · exact rhs_equation i.isLt rfl

/-- Symmetric costs make the matrix symmetric. -/
theorem assemble_isSymm
    (h : ∀ k ≤ p.shape.horizon, ∀ i < p.shape.nv k, ∀ c < p.shape.nv k,
      p.hessian k i c = p.hessian k c i) :
    (p.assemble before).matrix.toMatrix.IsSymm := by
  have hcosts : p.costs.IsSymm := by
    rw [Matrix.IsSymm, costs, Matrix.blockDiagonal'_transpose]
    congr 1
    funext k
    ext i c
    exact h k (Nat.le_of_lt_succ k.isLt) c c.isLt i i.isLt
  have hblocks : (Matrix.fromBlocks p.costs p.couplingsᵀ p.couplings 0).IsSymm :=
    hcosts.fromBlocks (Matrix.transpose_transpose _) Matrix.transpose_zero
  rw [← p.assemble_blocks before] at hblocks
  ext r c
  obtain ⟨a, rfl⟩ := p.shape.row_surjective r
  obtain ⟨b, rfl⟩ := p.shape.row_surjective c
  exact congrFun (congrFun hblocks a) b

/-- Regularizing raises the diagonal at the variables, lowers it at the equations,
and leaves everything else. -/
theorem regularize_blocks (reg : F) (a b : p.shape.Variable ⊕ p.shape.Equation) :
    (regularize p.shape.totalVariables reg (p.assemble before).matrix).entry
        (p.shape.row a) (p.shape.row b) =
      if a = b then
        Matrix.fromBlocks p.costs p.couplingsᵀ p.couplings 0 a b +
          Sum.elim (fun _ => reg) (fun _ => -reg) a
      else Matrix.fromBlocks p.costs p.couplingsᵀ p.couplings 0 a b := by
  rw [← p.assemble_blocks before, regularize, Square.entry_tabulate]
  simp only [p.shape.row_injective.eq_iff, Matrix.submatrix_apply, Square.toMatrix_apply]
  rcases a with v | e
  · rw [if_pos (Shape.row_inl_lt v), Sum.elim_inl]
  · rw [if_neg (Nat.not_lt.2 (Shape.le_row_inr e)), Sum.elim_inr]

end Problem

end StageQp
