import StageQp.Proofs.Kkt.Blocks
import StageQp.Proofs.Backend.Dense
import StageQp.Proofs.Shape.Record

/-!
# StageQp.Proofs.Backend.Scratch

The scratch of the dense backend.  Once a system is stored there, the matrix stands
in the first block column by column and the right-hand side in the second, whatever
either held before (`holds_storeSystem`); the last block is free for a residual.

So what is built from a program is the system of its optimality conditions, entry
for entry, in the algebra and in the words (`system_exact`).
-/

namespace StageQp

namespace DenseScratch

variable {n : Nat} {work : Words}

/-- The scratch holds a system: its matrix column by column, and its right-hand side. -/
structure Holds (scratch : DenseScratch) (work : Words) (s : LinearSystem Binary64 n) : Prop where
  matrix_size : (scratch.matrix.records Binary64 work).size = n * n
  matrix_eq : ∀ i j : Fin n,
    (scratch.matrix.records Binary64 work)[i.val + j.val * n]? = some (s.matrix.entry i j)
  rhs_size : (scratch.rhs.records Binary64 work).size = n
  rhs_eq : ∀ i : Fin n, (scratch.rhs.records Binary64 work)[i.val]? = some (s.rhs.entry i)

/-- The matrix has an entry for each row and column. -/
theorem count_matrix (n : Nat) : (ofOrder n).matrix.count Binary64 = n * n :=
  Nat.mul_div_cancel (n * n) (by decide)

theorem count_rhs (n : Nat) : (ofOrder n).rhs.count Binary64 = n :=
  Nat.mul_div_cancel n (by decide)

theorem count_residual (n : Nat) : (ofOrder n).residual.count Binary64 = n :=
  Nat.mul_div_cancel n (by decide)

section Fits

variable (h : (ofOrder n).total ≤ Words.byteSize work)

include h

/-- The blocks of the scratch are spaced within the work. -/
theorem spaced : Spaced 0 (ofOrder n).blocks (Words.byteSize work) :=
  (Dense.tiles_scratch n).spaced.mono (Nat.le_refl 0) h

theorem fits {b : Block} (hb : b ∈ (ofOrder n).blocks) : b.Fits work := (spaced h).fits hb

/-- The matrix and the right-hand side do not share bytes. -/
theorem matrix_apart_rhs : (ofOrder n).matrix.Apart (ofOrder n).rhs :=
  (spaced h).apart (i := 0) (j := 1) rfl rfl (by decide)

theorem residual_apart_matrix : (ofOrder n).residual.Apart (ofOrder n).matrix :=
  (spaced h).apart (i := 2) (j := 0) rfl rfl (by decide)

theorem residual_apart_rhs : (ofOrder n).residual.Apart (ofOrder n).rhs :=
  (spaced h).apart (i := 2) (j := 1) rfl rfl (by decide)

/-- A system that is stored is held, whatever was there before. -/
theorem holds_storeSystem (s : LinearSystem Binary64 n) :
    (ofOrder n).Holds (Dense.storeSystem (ofOrder n) s work) s := by
  have hmatrix : (ofOrder n).matrix.Fits work := fits h (by simp [blocks])
  have hrhs : (ofOrder n).rhs.Fits work := fits h (by simp [blocks])
  have hentries : (ofOrder n).matrix.records Binary64 (Dense.storeSystem (ofOrder n) s work) =
      s.matrix.entries.toArray := by
    rw [Dense.storeSystem, Block.records, Block.part_setRecords_of_apart hrhs.setRecords
      hmatrix.setRecords (matrix_apart_rhs h).symm]
    exact Block.records_setRecords hmatrix (by simp [count_matrix])
  have hright : (ofOrder n).rhs.records Binary64 (Dense.storeSystem (ofOrder n) s work) =
      s.rhs.toArray :=
    Block.records_setRecords hrhs.setRecords (by simp [count_rhs])
  constructor
  · rw [Block.size_records, count_matrix]
  · intro i j
    have hlt : (Square.place i j).val < s.matrix.entries.toArray.size := by
      rw [Vector.size_toArray]
      exact (Square.place i j).isLt
    rw [hentries]
    exact Array.getElem?_eq_getElem hlt
  · rw [Block.size_records, count_rhs]
  · intro i
    rw [hright]
    exact Array.getElem?_eq_getElem (by simp)

/-- A residual that is stored leaves the system. -/
theorem Holds.setResidual {s : LinearSystem Binary64 n} (hs : (ofOrder n).Holds work s)
    (r : Array Binary64) :
    (ofOrder n).Holds ((ofOrder n).residual.setRecords work r) s := by
  have hresidual : (ofOrder n).residual.Fits work := fits h (by simp [blocks])
  have hmatrix := Block.part_setRecords_of_apart hresidual (fits h (by simp [blocks]))
    (residual_apart_matrix h) r
  have hrhs := Block.part_setRecords_of_apart hresidual (fits h (by simp [blocks]))
    (residual_apart_rhs h) r
  constructor
  · rw [Block.size_records, count_matrix]
  · rw [Block.records, hmatrix]
    exact hs.matrix_eq
  · rw [Block.size_records, count_rhs]
  · rw [Block.records, hrhs]
    exact hs.rhs_eq

end Fits

end DenseScratch

/-! ## The system of a program -/

namespace Problem

/-- The data are the fields of a program, its matrices column by column. -/
structure Reads (p : Problem Binary64) (qp : QpInput) : Prop where
  shape_eq : p.shape = qp.shape
  hessian_eq : ∀ k ≤ qp.shape.horizon, ∀ i c,
    p.hessian k i c = (qp.getD k .rsq).getD (i + c * qp.shape.nv k) (0 : Binary64)
  gradient_eq : ∀ k ≤ qp.shape.horizon, ∀ i,
    p.gradient k i = (qp.getD k .rq).getD i (0 : Binary64)
  dynamics_eq : ∀ k ≤ qp.shape.horizon, ∀ r c,
    p.dynamics k r c = (qp.getD k .ba).getD (r + c * qp.shape.dynamics k) (0 : Binary64)
  offset_eq : ∀ k ≤ qp.shape.horizon, ∀ r,
    p.offset k r = (qp.getD k .b).getD r (0 : Binary64)

/-- The fields of all stages have the field of each. -/
theorem getD_column (qp : QpInput) (field : InputField) {k : Nat} (hk : k ≤ qp.shape.horizon) :
    (column qp field).getD k #[] = qp.getD k field := by
  have hlt := Nat.lt_succ_of_le hk
  simp [column, Array.getD_eq_getD_getElem?, hlt]

/-- The problem of a program reads its fields. -/
theorem reads_ofInput (qp : QpInput) : (ofInput qp).Reads qp where
  shape_eq := rfl
  hessian_eq _ hk _ _ := congrArg (Array.getD · _ _) (getD_column qp .rsq hk)
  gradient_eq _ hk _ := congrArg (Array.getD · _ _) (getD_column qp .rq hk)
  dynamics_eq _ hk _ _ := congrArg (Array.getD · _ _) (getD_column qp .ba hk)
  offset_eq _ hk _ := congrArg (Array.getD · _ _) (getD_column qp .b hk)

/-- What the system of a problem is, block by block. -/
structure Assembled {F : Type} [Scalar F] (p : Problem F) (s : LinearSystem F p.shape.order) :
    Prop where
  matrix_eq : s.matrix.toMatrix.submatrix p.shape.row p.shape.row =
    Matrix.fromBlocks p.costs p.couplings.transpose p.couplings 0
  rhs_eq : s.rhs.entry ∘ p.shape.row = p.right
  isSymm : (∀ k ≤ p.shape.horizon, ∀ i < p.shape.nv k, ∀ c < p.shape.nv k,
    p.hessian k i c = p.hessian k c i) → s.matrix.toMatrix.IsSymm
  /-- Regularizing touches the diagonal and nothing else. -/
  regularized : ∀ (reg : F) (a b : p.shape.Variable ⊕ p.shape.Equation),
    (regularize p.shape.totalVariables reg s.matrix).entry (p.shape.row a) (p.shape.row b) =
      if a = b then
        Matrix.fromBlocks p.costs p.couplings.transpose p.couplings 0 a b +
          Sum.elim (fun _ => reg) (fun _ => -reg) a
      else Matrix.fromBlocks p.costs p.couplings.transpose p.couplings 0 a b

/-- The system that is assembled is that of the problem, whatever was there before. -/
theorem assembled {F : Type} [Scalar F] (p : Problem F) (before : Coords F p.shape.order) :
    p.Assembled (p.assemble before) where
  matrix_eq := p.assemble_blocks before
  rhs_eq := p.assemble_right before
  isSymm := p.assemble_isSymm before
  regularized := p.regularize_blocks before

end Problem

namespace Dense

open scoped Exact Matrix

/-- The system that is built is that of the optimality conditions: every row is a
variable or an equation, every entry the one of the block matrix, over any scalar
type; over a commutative ring its solutions are the points that meet the conditions
stage by stage; and the scratch holds it column by column, whatever it held before. -/
theorem system_exact :
    (∀ {F : Type} [Scalar F] (p : Problem F) (before : Coords F p.shape.order),
      Function.Bijective p.shape.row ∧ p.Assembled (p.assemble before)) ∧
    (∀ {R : Type} [CommRing R] [Exact.Extras R] (p : Problem R)
        (before x : Coords R p.shape.order),
      (p.assemble before).matrix.toMatrix *ᵥ x.entry = (p.assemble before).rhs.entry ↔
        p.Optimal (StagePoint.ofSolution p.shape x)) ∧
    ∀ (qp : QpInput) (work : Words),
      (DenseScratch.ofOrder qp.shape.order).total ≤ Words.byteSize work →
      let scratch := DenseScratch.ofOrder qp.shape.order
      let p := Problem.ofInput qp
      let system := p.assemble (scratch.rhs.coords qp.shape.order work)
      p.Reads qp ∧ p.Assembled system ∧ scratch.Holds (storeSystem scratch system work) system :=
  ⟨fun p before => ⟨p.shape.row_bijective, p.assembled before⟩,
    fun _ _ _ => Problem.mulVec_eq_rhs_iff rfl,
    fun qp _ hwork => ⟨Problem.reads_ofInput qp, Problem.assembled _ _,
      DenseScratch.holds_storeSystem hwork _⟩⟩

/-- A step from a control and a state to a state. -/
def oneStepShape : Shape := (((Shape.blank 1).edit 0 .nu 1).edit 0 .nx 1).edit 1 .nx 1

/-- The step from `u` and `x` to `y = u + x + 1`, at the cost `u² + ux + 3x²/2 + u - x` and
behind it `y²/2 - y`. -/
def oneStep : QpInput := ⟨.ofShape InputField oneStepShape,
  #[0x4000000000000000, 0x3ff0000000000000, 0x3ff0000000000000, 0x4008000000000000,
    0x3ff0000000000000, 0xbff0000000000000, 0x3ff0000000000000, 0x3ff0000000000000,
    0x3ff0000000000000, 0x3ff0000000000000, 0xbff0000000000000]⟩

/-- The system of a step, over scratch that is not zero. -/
theorem system_exact_oneStep :
    let scratch := DenseScratch.ofOrder oneStep.shape.order
    let work := Words.filled scratch.total 1
    let system := (Problem.ofInput oneStep).assemble (scratch.rhs.coords oneStep.shape.order work)
    scratch.total ≤ Words.byteSize work ∧ scratch.Holds (storeSystem scratch system work) system ∧
      (∀ k ≤ oneStep.shape.horizon, ∀ i < oneStep.shape.nv k, ∀ c < oneStep.shape.nv k,
        (Problem.ofInput oneStep).hessian k i c = (Problem.ofInput oneStep).hessian k c i) ∧
      system.matrix.toMatrix.IsSymm := by
  intro scratch work system
  have hwork : scratch.total ≤ Words.byteSize work := by
    rw [Words.byteSize_filled]
    exact le_alignUp scratch.total
  have hsymm : ∀ k ≤ oneStep.shape.horizon, ∀ i < oneStep.shape.nv k, ∀ c < oneStep.shape.nv k,
      (Problem.ofInput oneStep).hessian k i c = (Problem.ofInput oneStep).hessian k c i := by
    decide +kernel
  obtain ⟨-, hassembled, hholds⟩ := system_exact.2.2 oneStep work hwork
  exact ⟨hwork, hholds, hsymm, hassembled.isSymm hsymm⟩

end Dense

end StageQp
