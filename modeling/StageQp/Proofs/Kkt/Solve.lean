import Mathlib
import StageQp.Kkt.Solve
import StageQp.Proofs.Kkt.Conditions
import StageQp.Proofs.Linear.Refinement

/-!
# StageQp.Proofs.Kkt.Solve

What a solve of the optimality conditions returns over an exact ordered field
(`solve_exact`).  Each solve with the factors multiplies the residual by
`1 - k * kd⁻¹`, where `k` is the matrix of the conditions and `kd` the regularized
one that was factored (`solve_tracks`).  Without a shift of the diagonal the two
are one matrix, so a cold start is done after one solve (`solve_cold`), and a
matrix that is not invertible has no complete factors (`isUnit_of_solve`).
-/

namespace StageQp

open scoped Exact Matrix

namespace Problem

variable {F : Type} [Field F] [LinearOrder F] {n : Nat}

/-- Without a shift the regularized matrix is the matrix. -/
theorem regularize_zero (nz : Nat) {reg : F} (h : reg = 0) (m : Square F n) :
    (regularize nz reg m).toMatrix = m.toMatrix := by
  ext r c
  simp [regularize, h]

/-- The residual before the first solve: of nothing, or of the solution a warm start refines. -/
def startResidual (s : LinearSystem F n) : Option (Coords F n) → Fin n → F
  | none => s.rhs.entry
  | some x => s.rhs.entry - s.matrix.toMatrix *ᵥ x.entry

section Solve

variable [IsStrictOrderedRing F] {p : Problem F} {settings : KktSettings F}
variable {start : Option (Coords F n)} {before : Coords F n}

/-- The matrix that was factored, where every pivot was there, is invertible. -/
theorem isUnit_of_solve (hpivot : 0 ≤ settings.pivotFraction)
    (hc : (p.solve settings start before).factors.complete = true) :
    IsUnit (regularize p.shape.totalVariables settings.staticReg
      (p.assemble before).matrix).toMatrix :=
  Square.isUnit_of_complete (mul_nonneg hpivot (Square.maxEntry_nonneg _)) _ hc

/-- The solution of a solve, and what its solves made of the residual. -/
theorem solve_tracks (hpivot : 0 ≤ settings.pivotFraction)
    (hc : (p.solve settings start before).factors.complete = true) :
    ∃ it, (p.solve settings start before).result = some it ∧
      it.Tracks (p.assemble before)
        (regularize p.shape.totalVariables settings.staticReg
          (p.assemble before).matrix).toMatrix⁻¹
        (startResidual (p.assemble before) start) := by
  have hsolve := Square.solve_entry (mul_nonneg hpivot (Square.maxEntry_nonneg _)) _ hc
  refine ⟨_, if_pos hc, LinearSystem.tracks_refine hsolve _ ?_⟩
  cases start with
  | none => exact LinearSystem.tracks_solve hsolve
  | some x =>
      rw [startResidual, ← LinearSystem.residual_entry]
      exact LinearSystem.tracks_start x

/-- Without a shift, a cold start is done after one solve of the system. -/
theorem solve_cold (hpivot : 0 ≤ settings.pivotFraction) (htol : 0 ≤ settings.refineTol)
    (hreg : settings.staticReg = 0)
    (hc : (p.solve settings none before).factors.complete = true) :
    ∃ it, (p.solve settings none before).result = some it ∧ it.solves = 1 ∧
      (p.assemble before).matrix.toMatrix *ᵥ it.solution.entry =
        (p.assemble before).rhs.entry := by
  obtain ⟨f, hf⟩ : ∃ f, f = (p.solve settings none before).factors := ⟨_, rfl⟩
  have hsolves : (p.assemble before).matrix.toMatrix *ᵥ
      (f.solve (p.assemble before).rhs).entry = (p.assemble before).rhs.entry := by
    have h := Square.factor_solve (mul_nonneg hpivot (Square.maxEntry_nonneg _)) _ hc
      (p.assemble before).rhs
    rw [hf]
    rwa [regularize_zero _ hreg] at h
  have hnorm : ((p.assemble before).iterate (f.solve (p.assemble before).rhs) 1).norm ≤
      settings.refineTol := by
    have hzero : ∀ i, ((p.assemble before).residual
        (f.solve (p.assemble before).rhs)).entry i = 0 := by
      intro i
      rw [LinearSystem.residual_entry, hsolves, sub_self]
      rfl
    rw [LinearSystem.iterate, Coords.maxNorm_eq_zero hzero]
    exact htol
  refine ⟨(p.assemble before).iterate (f.solve (p.assemble before).rhs) 1, ?_, rfl, hsolves⟩
  have hresult : (p.solve settings none before).result =
      some ((p.assemble before).refine f settings.refineTol settings.refineSteps
        ((p.assemble before).iterate (f.solve (p.assemble before).rhs) 1)) := by
    rw [hf]
    exact if_pos hc
  rw [hresult, LinearSystem.refine_of_le _ (Exact.le_iff.2 hnorm)]

end Solve

/-- The residual that a solve ends with, and what that means where nothing is shifted. -/
theorem solve_exact [IsStrictOrderedRing F] (p : Problem F) (settings : KktSettings F)
    (start : Option (Coords F p.shape.order)) (before : Coords F p.shape.order)
    (hpivot : 0 ≤ settings.pivotFraction) (htol : 0 < settings.refineTol) :
    let solved := p.solve settings start before
    let k := solved.system.matrix.toMatrix
    let kd := (regularize p.shape.totalVariables settings.staticReg solved.system.matrix).toMatrix
    (solved.factors.complete = true → ∃ it, solved.result = some it ∧ IsUnit kd ∧
      solved.system.rhs.entry - k *ᵥ it.solution.entry =
        (1 - k * kd⁻¹) ^ it.solves *ᵥ startResidual solved.system start ∧
      (settings.staticReg = 0 → start = none → it.solves = 1 ∧
        p.Optimal (.ofSolution p.shape it.solution) ∧
        ∀ s, p.Optimal s → s.Agree p.shape (.ofSolution p.shape it.solution))) ∧
    (settings.staticReg = 0 → ¬ IsUnit k → solved.result = none) := by
  intro solved k kd
  have hk : settings.staticReg = 0 → kd = k := fun hreg => regularize_zero _ hreg _
  constructor
  · intro hc
    have hunit : IsUnit kd := isUnit_of_solve hpivot hc
    obtain ⟨it, hit, htracks⟩ := solve_tracks hpivot hc
    refine ⟨it, hit, hunit, ?_, ?_⟩
    · have hres := htracks.residual_entry
      rwa [htracks.residual_eq, LinearSystem.residual_entry] at hres
    · rintro hreg rfl
      obtain ⟨once, honce, hsolves, hsolution⟩ := solve_cold hpivot (le_of_lt htol) hreg hc
      obtain rfl : it = once := Option.some.inj (hit.symm.trans honce)
      rw [hk hreg] at hunit
      exact ⟨hsolves, (mulVec_eq_rhs_iff rfl).1 hsolution,
        fun s hs => optimal_unique rfl hunit hsolution hs⟩
  · intro hreg hsingular
    refine if_neg fun hc : solved.factors.complete = true => hsingular ?_
    have hunit : IsUnit kd := isUnit_of_solve hpivot hc
    rwa [hk hreg] at hunit

/-- Two stages, with the costs and dynamics `(u² + x² + y²) / 2 - y` and `y = u + x`. -/
def twoStage : Problem ℚ where
  shape := ⟨#[.free 1 1, .free 1 0], by decide⟩
  hessian _ i j := if i = j then 1 else 0
  gradient k _ := if k = 1 then -1 else 0
  dynamics _ _ _ := 1
  offset _ _ := 0

/-- Settings that shift nothing. -/
def unshifted : KktSettings ℚ where
  pivotFraction := 1 / 10 ^ 14
  staticReg := 0
  refineTol := 1 / 10 ^ 12
  refineSteps := 3

/-- Two coupled stages, solved over the rationals from a cold start. -/
theorem solve_exact_twoStage :
    0 ≤ unshifted.pivotFraction ∧ 0 < unshifted.refineTol ∧
      ∃ it : Iterate ℚ twoStage.shape.order,
        (twoStage.solve unshifted none (.tabulate fun _ => 0)).result = some it ∧
          it.solves = 1 ∧ twoStage.Optimal (.ofSolution twoStage.shape it.solution) := by
  have hpivot : 0 ≤ unshifted.pivotFraction := by decide +kernel
  have htol : 0 < unshifted.refineTol := by decide +kernel
  obtain ⟨it, hit, -, -, hcold⟩ :=
    (solve_exact twoStage unshifted none (.tabulate fun _ => 0) hpivot htol).1 (by decide +kernel)
  obtain ⟨hsolves, hoptimal, -⟩ := hcold rfl rfl
  exact ⟨hpivot, htol, it, hit, hsolves, hoptimal⟩

end Problem

end StageQp
