import StageQp.Proofs.Linear.Elimination

/-!
# StageQp.Proofs.Linear.Triangular

Solving with factors.  Both sweeps take a multiple of one column from the vector
at each step, and the matrix whose system is solved so far gains that column
(`mulVec_column`).  So the sweeps solve with the lower and the upper factor
(`lower_mulVec_forward`, `upper_mulVec_backward`), and with complete factors
`solve` solves the system that was factored (`factor_solve`): the matrix is
invertible (`isUnit_of_complete`) and `solve` multiplies by its inverse
(`solve_entry`).
-/

namespace StageQp

open scoped Exact Matrix

variable {F : Type} [Field F] {n : Nat}

/-- Giving a matrix a column more and taking so much of the column from the
vector as entry `j` of the outcome asks for leaves their product as it is. -/
theorem mulVec_column {m : Matrix (Fin n) (Fin n) F} {v x : Fin n → F} {j : Fin n} {t : F}
    (hv : m *ᵥ v = v) (ht : x j - t * v j = t) :
    (m + Matrix.vecMulVec v (Pi.single j 1)) *ᵥ (x - t • v) = m *ᵥ x := by
  have hdot : Pi.single j 1 ⬝ᵥ (x - t • v) = t := by
    rw [single_dotProduct, one_mul, Pi.sub_apply, Pi.smul_apply, smul_eq_mul, ht]
  rw [Matrix.add_mulVec, Matrix.vecMulVec_mulVec, hdot, Matrix.mulVec_sub, Matrix.mulVec_smul,
    hv]
  simp

/-! ## Sweeps -/

section Sweep

variable {β : Type} {f : β → Fin n → β} {P : Nat → β → Prop} {b : β}

/-- What every step carries from one column to the next holds after the last. -/
theorem foldl_finRange (start : P 0 b) (step : ∀ (j : Fin n) (b : β), P j b → P (j + 1) (f b j)) :
    P n ((List.finRange n).foldl f b) := by
  have htake : ∀ k ≤ n, P k (((List.finRange n).take k).foldl f b) := by
    intro k
    induction k with
    | zero => exact fun _ => start
    | succ k ih =>
        intro hk
        have hget : (List.finRange n)[k]? = some ⟨k, hk⟩ := by simp [Nat.lt_of_succ_le hk]
        rw [List.take_add_one, hget, List.foldl_append]
        exact step ⟨k, hk⟩ _ (ih (Nat.le_of_succ_le hk))
  have hall := htake n (le_refl n)
  rwa [List.take_of_length_le (by simp)] at hall

/-- The same for a sweep from the last column to the first. -/
theorem foldl_finRange_reverse (start : P n b)
    (step : ∀ (j : Fin n) (b : β), P (j + 1) b → P j (f b j)) :
    P 0 ((List.finRange n).reverse.foldl f b) := by
  rw [List.finRange_reverse, List.foldl_map]
  have hsweep := foldl_finRange (P := fun k b => P (n - k) b) (f := fun b j => f b j.rev)
    (b := b) start fun j b h => by
      have hj := j.isLt
      rw [show n - (j.val + 1) = j.rev.val from (Fin.val_rev j).symm]
      refine step j.rev b ?_
      rwa [Fin.val_rev, show n - (j.val + 1) + 1 = n - j.val by omega]
  simpa using hsweep

end Sweep

/-! ## The lower factor -/

namespace Factors

variable [LinearOrder F]

/-- An entry that is zero is skipped, which makes no difference. -/
theorem forwardStep_entry (lu : Square F n) (x : Coords F n) (j : Fin n) :
    (forwardStep lu x j).entry = x.entry - x.entry j • lu.multipliers j := by
  funext i
  simp only [forwardStep, Square.multipliers, Pi.sub_apply, Pi.smul_apply, smul_eq_mul]
  by_cases h0 : x.entry j = 0
  · simp [h0]
  · by_cases hi : j < i
    · simp [h0, hi, mul_comm]
    · simp [h0, hi]

/-- A step forward takes one column of the lower factor into the vector. -/
theorem lower_mulVec_forwardStep (lu : Square F n) (x : Coords F n) (j : Fin n) :
    lu.lower (j + 1) *ᵥ (forwardStep lu x j).entry = lu.lower j *ᵥ x.entry := by
  rw [forwardStep_entry, Square.lower_succ]
  refine mulVec_column (Square.lower_mulVec_multipliers lu lu j) ?_
  simp [Square.multipliers]

/-- The forward sweep solves with the lower factor. -/
theorem lower_mulVec_forward (lu : Square F n) (x : Coords F n) :
    lu.lower n *ᵥ (forward lu x).entry = x.entry := by
  refine foldl_finRange
    (P := fun (j : Nat) (z : Coords F n) => lu.lower j *ᵥ z.entry = x.entry) ?_ ?_
  · rw [Square.lower_zero, Matrix.one_mulVec]
  · intro j z h
    rw [lower_mulVec_forwardStep, h]

end Factors

/-! ## The upper factor -/

namespace Square

/-- The upper factor from column `j` on; before it, the identity. -/
def upperFrom (a : Square F n) (j : Nat) : Matrix (Fin n) (Fin n) F := .of fun i c =>
  if j ≤ c.val then if c < i then 0 else a.entry i c else if i = c then 1 else 0

/-- Column `j` of the upper factor less that of the identity. -/
def excess (a : Square F n) (j : Fin n) : Fin n → F := fun i =>
  if i < j then a.entry i j else if i = j then a.entry j j - 1 else 0

/-- From the first column on, the upper factor is all there. -/
theorem upperFrom_zero (a : Square F n) : a.upperFrom 0 = a.upper n := by
  ext i c
  simp [upperFrom, upper]

/-- From the last column on, nothing of the upper factor is left. -/
theorem upperFrom_order (a : Square F n) : a.upperFrom n = 1 := by
  ext i c
  simp [upperFrom, Matrix.one_apply]

/-- One column more of the upper factor adds its excess over the identity. -/
theorem upperFrom_eq (a : Square F n) (j : Fin n) :
    a.upperFrom j =
      a.upperFrom (j + 1) + Matrix.vecMulVec (a.excess j) (Pi.single j 1) := by
  ext i c
  simp only [upperFrom, excess, Matrix.of_apply, Matrix.add_apply, Matrix.vecMulVec_apply,
    Nat.succ_le_iff, Fin.val_fin_le, Fin.val_fin_lt]
  rcases lt_trichotomy c j with hc | rfl | hc
  · simp [not_le_of_gt hc, not_lt_of_gt hc, ne_of_lt hc]
  · rcases lt_trichotomy i c with hi | rfl | hi
    · simp [hi, ne_of_lt hi, not_lt_of_gt hi]
    · simp
    · simp [hi, ne_of_gt hi, not_lt_of_gt hi]
  · simp [hc, le_of_lt hc, ne_of_gt hc]

/-- The columns from `j + 1` on do not see a vector that ends at entry `j`. -/
theorem upperFrom_mulVec_excess (a : Square F n) (j : Fin n) :
    a.upperFrom (j + 1) *ᵥ a.excess j = a.excess j := by
  funext i
  rw [Matrix.mulVec, dotProduct, Finset.sum_eq_single i]
  · rcases le_or_gt i j with hi | hi
    · simp [upperFrom, not_lt.2 hi]
    · simp [excess, not_lt_of_gt hi, ne_of_gt hi]
  · intro k _ hk
    rcases le_or_gt k j with hkj | hkj
    · simp [upperFrom, not_lt.2 hkj, Ne.symm hk]
    · simp [excess, not_lt_of_gt hkj, ne_of_gt hkj]
  · intro hi
    exact absurd (Finset.mem_univ i) hi

end Square

namespace Factors

theorem sub_div_mul_sub_one (x : F) {d : F} (h : d ≠ 0) : x - x / d * (d - 1) = x / d := by
  field_simp
  ring

variable [LinearOrder F]

/-- A step backward takes a multiple of a column's excess from the vector. -/
theorem backwardStep_entry (lu : Square F n) (x : Coords F n) (j : Fin n)
    (h : lu.entry j j ≠ 0) :
    (backwardStep lu x j).entry =
      x.entry - (x.entry j / lu.entry j j) • lu.excess j := by
  funext i
  simp only [backwardStep, Square.excess, Coords.entry_tabulate, Pi.sub_apply, Pi.smul_apply,
    smul_eq_mul]
  rcases lt_trichotomy i j with hi | rfl | hi
  · simp [hi, mul_comm]
  · rw [if_neg (lt_irrefl i), if_pos rfl, if_neg (lt_irrefl i), if_pos rfl]
    exact (sub_div_mul_sub_one _ h).symm
  · simp [not_lt_of_gt hi, ne_of_gt hi]

/-- A step backward takes one column of the upper factor into the vector. -/
theorem upperFrom_mulVec_backwardStep (lu : Square F n) (x : Coords F n) (j : Fin n)
    (h : lu.entry j j ≠ 0) :
    lu.upperFrom j *ᵥ (backwardStep lu x j).entry = lu.upperFrom (j + 1) *ᵥ x.entry := by
  rw [backwardStep_entry lu x j h, Square.upperFrom_eq]
  refine mulVec_column (Square.upperFrom_mulVec_excess lu j) ?_
  rw [Square.excess, if_neg (lt_irrefl j), if_pos rfl]
  exact sub_div_mul_sub_one _ h

/-- The backward sweep solves with the upper factor. -/
theorem upper_mulVec_backward (lu : Square F n) (h : ∀ j, lu.entry j j ≠ 0) (x : Coords F n) :
    lu.upper n *ᵥ (backward lu x).entry = x.entry := by
  rw [← Square.upperFrom_zero]
  refine foldl_finRange_reverse
    (P := fun (j : Nat) (z : Coords F n) => lu.upperFrom j *ᵥ z.entry = x.entry) ?_ ?_
  · rw [Square.upperFrom_order, Matrix.one_mulVec]
  · intro j z hz
    rw [upperFrom_mulVec_backwardStep lu z j (h j), hz]

end Factors

/-! ## The system that was factored -/

section Solve

variable [LinearOrder F] [IsStrictOrderedRing F] {tol : F}

namespace Square

/-- Complete factors solve the system that was factored. -/
theorem factor_solve (htol : 0 ≤ tol) (a : Square F n) (h : (a.factor tol).complete = true)
    (x : Coords F n) : a.toMatrix *ᵥ ((a.factor tol).solve x).entry = x.entry := by
  obtain ⟨σ, hperm, hprod, hdiag⟩ := a.factor_spec htol h
  have hrows : a.toMatrix.submatrix σ id *ᵥ ((a.factor tol).solve x).entry = x.entry ∘ σ := by
    rw [← hprod, ← Matrix.mulVec_mulVec, Factors.solve, Factors.upper_mulVec_backward _ hdiag,
      Factors.lower_mulVec_forward, hperm]
  funext i
  simpa [Matrix.mulVec, dotProduct] using congrFun hrows (σ.symm i)

/-- A matrix with complete factors is invertible. -/
theorem isUnit_of_complete (htol : 0 ≤ tol) (a : Square F n)
    (h : (a.factor tol).complete = true) : IsUnit a.toMatrix := by
  rw [← Matrix.mulVec_surjective_iff_isUnit]
  intro y
  refine ⟨((a.factor tol).solve (.tabulate y)).entry, ?_⟩
  rw [factor_solve htol a h]
  funext i
  exact Coords.entry_tabulate y i

/-- Complete factors multiply by the inverse. -/
theorem solve_entry (htol : 0 ≤ tol) (a : Square F n) (h : (a.factor tol).complete = true)
    (x : Coords F n) : ((a.factor tol).solve x).entry = a.toMatrix⁻¹ *ᵥ x.entry := by
  have hdet : IsUnit a.toMatrix.det :=
    (Matrix.isUnit_iff_isUnit_det _).1 (isUnit_of_complete htol a h)
  rw [← factor_solve htol a h x, Matrix.mulVec_mulVec, Matrix.nonsing_inv_mul _ hdet,
    Matrix.one_mulVec]

end Square

end Solve

end StageQp
