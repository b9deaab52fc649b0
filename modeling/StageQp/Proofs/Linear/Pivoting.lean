import Mathlib.LinearAlgebra.Matrix.Block
import Mathlib.LinearAlgebra.Matrix.Swap
import Mathlib.Tactic.SplitIfs
import StageQp.Proofs.Linear.Triangular
import StageQp.Proofs.Storage.Record

/-!
# StageQp.Proofs.Linear.Pivoting

What choosing pivots buys over an exact ordered field.  The pivot of a column has
the largest magnitude on or below the diagonal (`abs_entry_le_pivot`), so no
multiplier exceeds one and every diagonal entry of the upper factor is above the
tolerance (`worked_factor`).  A column without a pivot, when every magnitude above
zero would do, makes the matrix singular (`det_eq_zero_of_incomplete`).

Together with the product of the factors and the solves this is all there is to say
of the factors (`factor_exact`).  Passing over a zero saves work and changes nothing
(`factor_eq_fully`, `solve_eq_fully`).
-/

namespace StageQp

open scoped Exact Matrix

variable {F : Type} [Field F] [LinearOrder F] {n : Nat}

/-! ## Without passing over zeros -/

namespace Square

/-- Works off column `j`, a zero in the pivot row like any other entry. -/
def eliminateFully (a : Square F n) (j : Fin n) : Square F n :=
  tabulate fun i c =>
    if j < i then
      if c = j then a.entry i j / a.entry j j
      else if j < c then a.entry i c - a.entry i j / a.entry j j * a.entry j c
      else a.entry i c
    else a.entry i c

/-- Works off the columns `js` as `factorColumns` does, passing over no zero. -/
def factorColumnsFully (tol : F) (a : Square F n) : List (Fin n) → Factors F n
  | [] => ⟨a, [], true⟩
  | j :: js =>
    let (p, magnitude) := a.pivot j
    if tol < magnitude then
      let rest := factorColumnsFully tol ((a.exchangeRows j p).eliminateFully j) js
      { rest with pivots := p :: rest.pivots }
    else ⟨a, [], false⟩

/-- The factors of a matrix, found without passing over a zero. -/
def factorFully (tol : F) (a : Square F n) : Factors F n :=
  factorColumnsFully tol a (List.finRange n)

/-- Leaving rows with a zero multiplier alone makes no difference. -/
theorem eliminate_eq_fully (a : Square F n) (j : Fin n) : a.eliminate j = a.eliminateFully j := by
  unfold eliminate eliminateFully
  congr 1
  funext i c
  by_cases h0 : a.entry j c = 0
  · simp [h0]
  · have hne : Scalar.eq (a.entry j c) 0 = false := decide_eq_false h0
    simp [hne]

/-- So the factors of any columns are those without the shortcut. -/
theorem factorColumns_eq_fully (tol : F) (js : List (Fin n)) (a : Square F n) :
    a.factorColumns tol js = a.factorColumnsFully tol js := by
  induction js generalizing a with
  | nil => rfl
  | cons j js ih =>
      simp only [factorColumns, factorColumnsFully, ih, eliminate_eq_fully, Exact.lt_iff]

/-- Factoring takes its shortcuts without a difference. -/
theorem factor_eq_fully (tol : F) (a : Square F n) : a.factor tol = a.factorFully tol :=
  factorColumns_eq_fully tol (List.finRange n) a

end Square

namespace Factors

/-- Takes the multiple of column `j` that entry `j` asks for, even if that is nothing. -/
def forwardStepFully (lu : Square F n) (x : Coords F n) (j : Fin n) : Coords F n :=
  .tabulate fun i => if j < i then x.entry i - lu.entry i j * x.entry j else x.entry i

/-- The solution of the factored system, found without passing over a zero. -/
def solveFully (f : Factors F n) (x : Coords F n) : Coords F n :=
  backward f.lu ((List.finRange n).foldl (forwardStepFully f.lu) (f.permute x))

/-- Nor does leaving out a zero entry in the forward substitution. -/
theorem forwardStep_eq_fully (lu : Square F n) (x : Coords F n) (j : Fin n) :
    forwardStep lu x j = forwardStepFully lu x j := by
  apply Coords.ext
  intro i
  rw [forwardStep_entry, forwardStepFully, Coords.entry_tabulate]
  by_cases hi : j < i
  · simp [Square.multipliers, hi, mul_comm]
  · simp [Square.multipliers, hi]

/-- A solve takes its shortcuts without a difference. -/
theorem solve_eq_fully (f : Factors F n) (x : Coords F n) : f.solve x = f.solveFully x := by
  have hstep : forwardStep f.lu = forwardStepFully f.lu :=
    funext fun x => funext fun j => forwardStep_eq_fully f.lu x j
  rw [solve, solveFully, forward, hstep]

end Factors

/-! ## The pivot is the largest -/

namespace Square

/-- A magnitude found so far is not given up for a smaller one, and none of the
rows looked at is larger than what was found. -/
theorem foldl_pivot_spec (a : Square F n) (j : Fin n) (rows : List (Fin n)) (best : Fin n × F) :
    let found := rows.foldl
      (fun best i =>
        if j < i ∧ Scalar.lt best.2 (Scalar.abs (a.entry i j)) then
          (i, Scalar.abs (a.entry i j))
        else best) best
    best.2 ≤ found.2 ∧ ∀ i ∈ rows, j < i → |a.entry i j| ≤ found.2 := by
  induction rows generalizing best with
  | nil => exact ⟨le_refl _, fun i hi => absurd hi (List.not_mem_nil)⟩
  | cons r rows ih =>
      rw [List.foldl_cons]
      by_cases hr : j < r ∧ Scalar.lt best.2 (Scalar.abs (a.entry r j)) = true
      · rw [if_pos hr]
        obtain ⟨hbest, hrows⟩ := ih (r, Scalar.abs (a.entry r j))
        refine ⟨le_trans (le_of_lt (Exact.lt_iff.1 hr.2)) hbest, fun i hi hji => ?_⟩
        rcases List.mem_cons.1 hi with rfl | hi
        · exact hbest
        · exact hrows i hi hji
      · rw [if_neg hr]
        obtain ⟨hbest, hrows⟩ := ih best
        refine ⟨hbest, fun i hi hji => ?_⟩
        rcases List.mem_cons.1 hi with rfl | hi
        · have hle : |a.entry i j| ≤ best.2 := not_lt.1 fun hlt => hr ⟨hji, Exact.lt_iff.2 hlt⟩
          exact le_trans hle hbest
        · exact hrows i hi hji

/-- No entry on or below the diagonal has a larger magnitude than the pivot. -/
theorem abs_entry_le_pivot (a : Square F n) {j i : Fin n} (h : j ≤ i) :
    |a.entry i j| ≤ (a.pivot j).2 := by
  obtain ⟨hdiag, hbelow⟩ :=
    foldl_pivot_spec a j (List.finRange n) (j, Scalar.abs (a.entry j j))
  rcases eq_or_lt_of_le h with rfl | hlt
  · exact hdiag
  · exact hbelow i (List.mem_finRange i) hlt

/-- The recorded rows are on or below the diagonal, one for each column. -/
theorem pivots_factorColumns (tol : F) (js : List (Fin n)) (a : Square F n)
    (h : (a.factorColumns tol js).complete = true) :
    List.Forall₂ (· ≤ ·) js (a.factorColumns tol js).pivots := by
  induction js generalizing a with
  | nil => exact .nil
  | cons j js ih =>
      by_cases hlt : Scalar.lt tol (a.pivot j).2 = true
      · simp only [factorColumns, hlt, if_true] at h ⊢
        exact .cons (a.pivot_spec j).1 (ih _ h)
      · simp [factorColumns, hlt] at h

/-! ## Multipliers and diagonal -/

section Worked

variable [IsStrictOrderedRing F] {tol : F} {a : Square F n}

/-- What pivoting has seen to once the columns before `j` are worked off. -/
structure Worked (tol : F) (a : Square F n) (j : Nat) : Prop where
  multiplier_le : ∀ i c : Fin n, c < i → c.val < j → |a.entry i c| ≤ 1
  diagonal_gt : ∀ i : Fin n, i.val < j → tol < |a.entry i i|

/-- Working off one more column. -/
theorem Worked.column {j : Fin n} (h : Worked tol a j)
    (hlt : Scalar.lt tol (a.pivot j).2 = true) :
    Worked tol ((a.exchangeRows j (a.pivot j).1).eliminate j) (j + 1) := by
  obtain ⟨p, hp⟩ : ∃ p, p = (a.pivot j).1 := ⟨_, rfl⟩
  have hjp : j ≤ p := hp ▸ (a.pivot_spec j).1
  have hmax : ∀ i, j ≤ i → |a.entry i j| ≤ |a.entry p j| := fun i hi => by
    rw [hp, ← (a.pivot_spec j).2]
    exact a.abs_entry_le_pivot hi
  have hpivot : tol < |a.entry p j| := by
    rw [hp, ← (a.pivot_spec j).2]
    exact Exact.lt_iff.1 hlt
  rw [← hp]
  constructor
  · intro i c hci hc
    rcases lt_or_eq_of_le (Nat.le_of_lt_succ hc) with hcj | hcj
    · -- multipliers of earlier columns only move with their rows
      rw [eliminate_entry_left _ hcj, entry_exchangeRows]
      exact h.multiplier_le _ c ((lt_swap_iff hjp hcj).2 hci) hcj
    · obtain rfl : c = j := Fin.ext hcj
      have hswap : c ≤ Equiv.swap c p i :=
        not_lt.1 fun hlt => not_lt.2 (le_of_lt hci) ((swap_lt_iff hjp).1 hlt)
      rw [eliminate_entry_multiplier _ hci, entry_exchangeRows, entry_exchangeRows,
        Equiv.swap_apply_left, abs_div]
      exact div_le_one_of_le₀ (hmax _ hswap) (abs_nonneg _)
  · intro i hi
    rw [eliminate_entry_of_le _ (Nat.le_of_lt_succ hi), entry_exchangeRows]
    rcases lt_or_eq_of_le (Nat.le_of_lt_succ hi) with hij | hij
    · rw [swap_of_lt hjp hij]
      exact h.diagonal_gt i hij
    · obtain rfl : i = j := Fin.ext hij
      rwa [Equiv.swap_apply_left]

/-- Complete factors have small multipliers and a large diagonal. -/
theorem worked_factor (a : Square F n) (hc : (a.factor tol).complete = true) :
    Worked tol (a.factor tol).lu n := by
  refine factorColumns_drop_induct (P := fun j a f =>
    Worked tol a j → f.complete = true → Worked tol f.lu n) ?_ ?_ ?_ 0 a ?_ hc
  · exact fun j a hn h _ => ⟨fun i c hci _ => h.multiplier_le i c hci (lt_of_lt_of_le c.isLt hn),
      fun i _ => h.diagonal_gt i (lt_of_lt_of_le i.isLt hn)⟩
  · exact fun j a f hlt ih h hc => ih (h.column hlt) hc
  · exact fun j a _ _ hc => absurd hc Bool.false_ne_true
  · exact ⟨fun _ c _ hc => absurd hc (Nat.not_lt_zero _), fun i hi => absurd hi (Nat.not_lt_zero _)⟩

end Worked

/-! ## A missing pivot -/

/-- A column that has nothing left on or below the diagonal makes what is left singular. -/
theorem det_upper_eq_zero (a : Square F n) (j : Fin n) (h : ∀ i, j ≤ i → a.entry i j = 0) :
    (a.upper j).det = 0 := by
  rw [Matrix.twoBlockTriangular_det (a.upper j) (· < j) ?_]
  · refine mul_eq_zero_of_right _
      (Matrix.det_eq_zero_of_column_eq_zero ⟨j, lt_irrefl j⟩ fun i => ?_)
    rw [Matrix.toSquareBlockProp_def, Matrix.of_apply, upper, Matrix.of_apply,
      if_neg fun hji => lt_irrefl _ hji.2]
    exact h i (not_lt.1 i.property)
  · intro i hi c hc
    exact if_pos ⟨lt_of_lt_of_le hc (not_lt.1 hi), hc⟩

section Singular

variable [IsStrictOrderedRing F]

/-- Factoring that gives up, although any magnitude above zero would do, has met a
matrix without an inverse. -/
theorem det_eq_zero_of_incomplete (a : Square F n) (h : (a.factor 0).complete = false) :
    a.toMatrix.det = 0 := by
  have hprod : (a.lower 0 * a.upper 0).det = 0 := by
    refine factorColumns_drop_induct (P := fun j a f =>
      f.complete = false → (a.lower j * a.upper j).det = 0) ?_ ?_ ?_ 0 a h
    · exact fun j a _ hc => absurd hc.symm Bool.false_ne_true
    · intro j a f hlt ih hc
      have hcolumn := ih hc
      rw [lower_mul_upper_column a (a.pivot_spec j).1 (pivot_ne_zero (le_refl 0) a j hlt),
        Matrix.det_permute] at hcolumn
      rcases Int.units_eq_one_or (Equiv.Perm.sign (Equiv.swap j (a.pivot j).1)) with hs | hs
      · simpa [hs] using hcolumn
      · simpa [hs] using hcolumn
    · intro j a hlt _
      have hnone : ∀ i, j ≤ i → a.entry i j = 0 := fun i hi => by
        have hle : (a.pivot j).2 ≤ 0 := not_lt.1 fun hpos => hlt (Exact.lt_iff.2 hpos)
        exact abs_nonpos_iff.1 (le_trans (a.abs_entry_le_pivot hi) hle)
      rw [Matrix.det_mul, det_upper_eq_zero a j hnone, mul_zero]
  rwa [lower_zero, upper_zero, one_mul] at hprod

end Singular

end Square

/-! ## The factors of a matrix -/

namespace Factors

/-- The row exchanges of a factoring as one matrix; the first is made first. -/
def exchanges (f : Factors F n) : Matrix (Fin n) (Fin n) F :=
  (((List.finRange n).zip f.pivots).map fun s => Matrix.swap F s.1 s.2).reverse.prod

/-- Exchanges one after another are the product of their swap matrices, the last in front. -/
theorem prod_swap_mulVec (steps : List (Fin n × Fin n)) (x : Coords F n) :
    (steps.map fun s => Matrix.swap F s.1 s.2).reverse.prod *ᵥ x.entry =
      (steps.foldl (fun x (j, p) => x.exchange j p) x).entry := by
  induction steps generalizing x with
  | nil => exact Matrix.one_mulVec x.entry
  | cons s steps ih =>
      have hswap : (x.exchange s.1 s.2).entry = Matrix.swap F s.1 s.2 *ᵥ x.entry := by
        funext i
        rw [Matrix.swap_mulVec, x.entry_exchange]
        rfl
      rw [List.map_cons, List.reverse_cons, List.prod_append, List.prod_singleton,
        List.foldl_cons, ← ih, hswap, Matrix.mulVec_mulVec]

/-- The row exchanges do to a column what solving does to a right-hand side first. -/
theorem exchanges_mulVec (f : Factors F n) (x : Coords F n) :
    f.exchanges *ᵥ x.entry = (f.permute x).entry :=
  prod_swap_mulVec ((List.finRange n).zip f.pivots) x

/-- If they give a column its entries in the order `σ`, they do so for the rows of a matrix. -/
theorem exchanges_mul (f : Factors F n) {σ : Equiv.Perm (Fin n)}
    (h : ∀ x : Coords F n, (f.permute x).entry = x.entry ∘ σ) (m : Matrix (Fin n) (Fin n) F) :
    f.exchanges * m = m.submatrix σ id := by
  ext i c
  have hcolumn := congrFun (f.exchanges_mulVec (.tabulate fun r => m r c)) i
  rw [h] at hcolumn
  simpa [Matrix.mul_apply, Matrix.mulVec, dotProduct] using hcolumn

/-- What factors of a matrix with every pivot above `tol` are. -/
structure Decompose (f : Factors F n) (tol : F) (a : Square F n) : Prop where
  /-- For each column a row on or below the diagonal. -/
  pivots_ge : List.Forall₂ (· ≤ ·) (List.finRange n) f.pivots
  /-- Stored as machine words, over anything, the rows can be read back. -/
  pivots_stored : n ≤ 2 ^ 32 → ∀ (b : Block) (w : Words), b.Fits w → b.count UInt32 = n →
    (b.records UInt32
        (b.setRecords w (f.pivots.map fun p => UInt32.ofNat p.val).toArray)).toList.map
      UInt32.toNat = f.pivots.map Fin.val
  exchanges_mul_eq : f.exchanges * a.toMatrix = f.lu.lower n * f.lu.upper n
  abs_lower_le : ∀ i c, |f.lu.lower n i c| ≤ 1
  lt_abs_upper : ∀ j, tol < |f.lu.upper n j j|
  /-- Solving finds the one solution, whatever the right-hand side. -/
  solve_iff : ∀ b x : Coords F n, a.toMatrix *ᵥ x.entry = b.entry ↔ x = f.solve b

end Factors

/-- Row numbers below `2 ^ 32` are read back from a block as they were written. -/
theorem Block.toNat_records_pivots {b : Block} {w : Words} {pivots : List (Fin n)}
    (hn : n ≤ 2 ^ 32) (hb : b.Fits w) (hcount : b.count UInt32 = pivots.length) :
    (b.records UInt32
        (b.setRecords w (pivots.map fun p => UInt32.ofNat p.val).toArray)).toList.map
      UInt32.toNat = pivots.map Fin.val := by
  rw [Block.records_setRecords hb (by simp [hcount]), List.map_map]
  refine List.map_congr_left fun p _ => ?_
  exact UInt32.toNat_ofNat_of_lt (lt_of_lt_of_le p.isLt hn)

namespace Square

section Exact

variable [IsStrictOrderedRing F] {tol : F}

/-- Complete factors decompose the matrix. -/
theorem decompose_factor (htol : 0 ≤ tol) (a : Square F n) (h : (a.factor tol).complete = true) :
    (a.factor tol).Decompose tol a := by
  obtain ⟨σ, hperm, hprod, -⟩ := a.factor_spec htol h
  have hpivots := pivots_factorColumns tol (List.finRange n) a h
  have hworked := a.worked_factor h
  constructor
  · exact hpivots
  · intro hn b w hb hcount
    refine Block.toNat_records_pivots hn hb ?_
    rw [hcount, factor, ← hpivots.length_eq, List.length_finRange]
  · rw [Factors.exchanges_mul _ hperm, hprod]
  · intro i c
    rw [lower, Matrix.of_apply]
    split_ifs with hlow hdiag
    · exact hworked.multiplier_le i c hlow.1 hlow.2
    · exact le_of_eq abs_one
    · rw [abs_zero]
      exact zero_le_one
  · intro j
    rw [upper, Matrix.of_apply, if_neg fun hjj => lt_irrefl j hjj.1]
    exact hworked.diagonal_gt j j.isLt
  · intro b x
    constructor
    · intro hx
      refine Coords.ext (congrFun (Matrix.mulVec_injective_iff_isUnit.2
        (isUnit_of_complete htol a h) (hx.trans ?_)))
      exact (factor_solve htol a h b).symm
    · rintro rfl
      exact factor_solve htol a h b

/-- Factoring with partial pivoting is exact: complete factors decompose the matrix
and solve its systems; every invertible matrix has complete factors if any magnitude
above zero makes a pivot; and passing over zeros changes nothing. -/
theorem factor_exact (htol : 0 ≤ tol) (a : Square F n) :
    ((a.factor tol).complete = true → (a.factor tol).Decompose tol a) ∧
      (tol = 0 → ((a.factor tol).complete = true ↔ IsUnit a.toMatrix)) ∧
      a.factor tol = a.factorFully tol ∧
      ∀ (f : Factors F n) (b : Coords F n), f.solve b = f.solveFully b := by
  refine ⟨decompose_factor htol a, ?_, factor_eq_fully tol a, Factors.solve_eq_fully⟩
  rintro rfl
  refine ⟨isUnit_of_complete (le_refl 0) a, fun hunit => ?_⟩
  by_contra hc
  have hdet := det_eq_zero_of_incomplete a (Bool.eq_false_iff.2 hc)
  exact ((Matrix.isUnit_iff_isUnit_det _).1 hunit).ne_zero hdet

end Exact

/-- A matrix that has no pivot on its diagonal at first. -/
def antidiagonal : Square ℚ 2 := tabulate fun i j => if i = j then 0 else 2

/-- A matrix with zeros on the diagonal, which only exchanges of rows can factor. -/
theorem factor_exact_antidiagonal :
    (0 : ℚ) ≤ 0 ∧ (antidiagonal.factor 0).complete = true ∧
      (antidiagonal.factor 0).pivots = [1, 1] ∧
      (antidiagonal.factor 0).Decompose 0 antidiagonal ∧ IsUnit antidiagonal.toMatrix := by
  have hc : (antidiagonal.factor 0).complete = true := by decide +kernel
  obtain ⟨hdecompose, hunit, -, -⟩ := factor_exact (le_refl (0 : ℚ)) antidiagonal
  exact ⟨le_refl 0, hc, by decide +kernel, hdecompose hc, (hunit rfl).1 hc⟩

end Square

end StageQp
