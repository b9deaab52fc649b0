import Mathlib.GroupTheory.Perm.Basic
import StageQp.Proofs.Linear.Exact
import StageQp.Proofs.Linear.Columns

/-!
# StageQp.Proofs.Linear.Elimination

What factoring does to a matrix.  While columns are worked off, the storage
holds two matrices at once: the lower factor so far (`Square.lower`) and what is
left of the upper one (`Square.upper`).  Working off a column leaves their
product as it is (`lower_mul_upper_eliminate`); an exchange of rows at or below
the diagonal exchanges the rows of the product (`lower_mul_upper_exchange`).

So complete factors multiply to the matrix with its rows in the order that
`permute` gives a right-hand side, and no diagonal entry is zero (`factor_spec`).
-/

namespace StageQp

open scoped Exact Matrix

variable {F : Type} [Field F] {n : Nat}

/-! ## Row exchanges -/

/-- Exchanging two entries is reading through their swap. -/
theorem Coords.entry_exchange {F : Type} (x : Coords F n) (i j k : Fin n) :
    (x.exchange i j).entry k = x.entry (Equiv.swap i j k) := by
  simp only [exchange, entry, Vector.getElem_swap, Equiv.swap_apply_def, Fin.ext_iff]
  split_ifs <;> rfl

namespace Square

/-- Exchanging two rows is reading rows through their swap. -/
theorem entry_exchangeRows {F : Type} (a : Square F n) (i j r c : Fin n) :
    (a.exchangeRows i j).entry r c = a.entry (Equiv.swap i j r) c := by
  rw [exchangeRows, entry_tabulate, Equiv.swap_apply_def]

/-- An exchange at or below the diagonal moves no row from above it. -/
theorem swap_lt_iff {j p r : Fin n} (h : j ≤ p) : Equiv.swap j p r < j ↔ r < j := by
  rw [Equiv.swap_apply_def]
  split
  · next hr => subst hr; exact iff_of_false (not_lt_of_ge h) (lt_irrefl _)
  · split
    · next hr => subst hr; exact iff_of_false (lt_irrefl _) (not_lt_of_ge h)
    · exact Iff.rfl

/-- A swap from `j` on leaves what is in front of `j` in place. -/
theorem swap_of_lt {j p r : Fin n} (h : j ≤ p) (hr : r < j) : Equiv.swap j p r = r :=
  Equiv.swap_apply_of_ne_of_ne (ne_of_lt hr) (ne_of_lt (lt_of_lt_of_le hr h))

/-- A swap from `j` on does not move a row past a column in front of `j`. -/
theorem lt_swap_iff {j p r c : Fin n} (h : j ≤ p) (hc : c < j) :
    c < Equiv.swap j p r ↔ c < r := by
  rcases lt_or_ge r j with hr | hr
  · rw [swap_of_lt h hr]
  · have hs : j ≤ Equiv.swap j p r := not_lt.1 fun hlt => not_lt.2 hr ((swap_lt_iff h).1 hlt)
    exact iff_of_true (lt_of_lt_of_le hc hs) (lt_of_lt_of_le hc hr)

/-! ## The factors so far -/

/-- The lower factor that a matrix holds once the columns before `j` are worked off. -/
def lower (a : Square F n) (j : Nat) : Matrix (Fin n) (Fin n) F := .of fun i c =>
  if c < i ∧ c.val < j then a.entry i c else if i = c then 1 else 0

/-- What the columns before `j` have left of a matrix. -/
def upper (a : Square F n) (j : Nat) : Matrix (Fin n) (Fin n) F := .of fun i c =>
  if c < i ∧ c.val < j then 0 else a.entry i c

/-- The multipliers below the diagonal of column `j`. -/
def multipliers (a : Square F n) (j : Fin n) : Fin n → F := fun i =>
  if j < i then a.entry i j else 0

/-- Before any column is worked off, the lower factor is the identity. -/
theorem lower_zero (a : Square F n) : a.lower 0 = 1 := by
  ext i c
  simp [lower, Matrix.one_apply]

/-- Before any column is worked off, the upper factor is the matrix. -/
theorem upper_zero (a : Square F n) : a.upper 0 = a.toMatrix := by
  ext i c
  simp [upper]

/-- Past the last column there is nothing to add to the lower factor. -/
theorem lower_of_le (a : Square F n) {j : Nat} (h : n ≤ j) : a.lower j = a.lower n := by
  ext i c
  simp [lower, lt_of_lt_of_le c.isLt h]

/-- Past the last column there is nothing to clear from the upper factor. -/
theorem upper_of_le (a : Square F n) {j : Nat} (h : n ≤ j) : a.upper j = a.upper n := by
  ext i c
  simp [upper, lt_of_lt_of_le c.isLt h]

/-- The lower factor so far does not mix multipliers of a column still to come. -/
theorem lower_mulVec_multipliers (a b : Square F n) (j : Fin n) :
    a.lower j *ᵥ b.multipliers j = b.multipliers j := by
  funext i
  rw [Matrix.mulVec, dotProduct, Finset.sum_eq_single i]
  · simp [lower]
  · intro k _ hk
    rcases lt_or_ge j k with hjk | hjk
    · simp [lower, not_lt_of_gt hjk, Ne.symm hk]
    · simp [multipliers, not_lt.2 hjk]
  · intro hi
    exact absurd (Finset.mem_univ i) hi

/-- One more column of multipliers. -/
theorem lower_succ (a : Square F n) (j : Fin n) :
    a.lower (j + 1) = a.lower j + Matrix.vecMulVec (a.multipliers j) (Pi.single j 1) := by
  ext i c
  simp only [lower, multipliers, Matrix.of_apply, Matrix.add_apply, Matrix.vecMulVec_apply,
    Nat.lt_succ_iff, Fin.val_fin_le, Fin.val_fin_lt]
  rcases lt_trichotomy c j with hc | rfl | hc
  · simp [hc, le_of_lt hc, ne_of_lt hc]
  · by_cases hi : c < i
    · simp [hi, ne_of_gt hi]
    · simp [hi]
  · simp [not_lt_of_gt hc, not_le_of_gt hc, ne_of_gt hc]

/-! ## Exchanging rows -/

/-- An exchange of rows not worked off yet permutes the lower factor both ways. -/
theorem lower_exchangeRows (a : Square F n) {j p : Fin n} (h : j ≤ p) :
    (a.exchangeRows j p).lower j =
      (a.lower j).submatrix (Equiv.swap j p) (Equiv.swap j p) := by
  ext i c
  simp only [lower, Matrix.of_apply, Matrix.submatrix_apply, entry_exchangeRows,
    (Equiv.swap j p).injective.eq_iff, Fin.val_fin_lt]
  rcases lt_or_ge c j with hc | hc
  · simp only [swap_of_lt h hc, lt_swap_iff h hc]
  · simp only [swap_lt_iff h, not_lt.2 hc, and_false, if_false]

/-- An exchange of rows not worked off yet permutes the rows of the upper factor. -/
theorem upper_exchangeRows (a : Square F n) {j p : Fin n} (h : j ≤ p) :
    (a.exchangeRows j p).upper j = (a.upper j).submatrix (Equiv.swap j p) id := by
  ext i c
  simp only [upper, Matrix.of_apply, Matrix.submatrix_apply, entry_exchangeRows, id,
    Fin.val_fin_lt]
  by_cases hc : c < j
  · simp only [lt_swap_iff h hc]
  · simp only [hc, and_false, if_false]

/-- Exchanging rows at or below the diagonal exchanges the rows of the product. -/
theorem lower_mul_upper_exchange (a : Square F n) {j p : Fin n} (h : j ≤ p) :
    (a.exchangeRows j p).lower j * (a.exchangeRows j p).upper j =
      (a.lower j * a.upper j).submatrix (Equiv.swap j p) id := by
  rw [lower_exchangeRows a h, upper_exchangeRows a h, Matrix.submatrix_mul_equiv]

/-! ## Working off a column -/

variable [LinearOrder F]

/-- Eliminating a column changes no row up to the pivot's. -/
theorem eliminate_entry_of_le (a : Square F n) {j i : Fin n} (h : i ≤ j) (c : Fin n) :
    (a.eliminate j).entry i c = a.entry i c := by
  rw [eliminate, entry_tabulate, if_neg (not_lt.2 h)]

/-- Eliminating a column changes no column in front of it. -/
theorem eliminate_entry_left (a : Square F n) {j c : Fin n} (h : c < j) (i : Fin n) :
    (a.eliminate j).entry i c = a.entry i c := by
  simp [eliminate, ne_of_lt h, not_lt_of_gt h]

/-- Below the pivot, eliminating a column leaves the multipliers. -/
theorem eliminate_entry_multiplier (a : Square F n) {j i : Fin n} (h : j < i) :
    (a.eliminate j).entry i j = a.entry i j / a.entry j j := by
  simp [eliminate, h]

/-- A zero in the pivot row is skipped, which makes no difference. -/
theorem eliminate_entry_right (a : Square F n) {j i c : Fin n} (hi : j < i) (hc : j < c) :
    (a.eliminate j).entry i c =
      a.entry i c - (a.eliminate j).entry i j * a.entry j c := by
  rw [eliminate_entry_multiplier a hi, eliminate, entry_tabulate, if_pos hi, if_neg (ne_of_gt hc)]
  by_cases h0 : a.entry j c = 0
  · simp [h0]
  · simp [h0, hc]

/-- Eliminating a column leaves the lower factor of the columns in front of it. -/
theorem lower_eliminate (a : Square F n) (j : Fin n) : (a.eliminate j).lower j = a.lower j := by
  ext i c
  simp only [lower, Matrix.of_apply, Fin.val_fin_lt]
  by_cases hc : c < j
  · rw [eliminate_entry_left a hc]
  · simp only [hc, and_false, if_false]

/-- Eliminating a column takes one product of a column and a row from the upper factor. -/
theorem upper_eliminate (a : Square F n) (j : Fin n) (h : a.entry j j ≠ 0) :
    a.upper j = (a.eliminate j).upper (j + 1) +
      Matrix.vecMulVec ((a.eliminate j).multipliers j) ((a.eliminate j).upper (j + 1) j) := by
  ext i c
  simp only [upper, multipliers, Matrix.of_apply, Matrix.add_apply, Matrix.vecMulVec_apply,
    Nat.lt_succ_iff, Fin.val_fin_le, Fin.val_fin_lt, eliminate_entry_of_le a (le_refl j)]
  rcases le_or_gt i j with hi | hi
  · rw [if_neg (not_lt.2 hi), zero_mul, add_zero, eliminate_entry_of_le a hi]
    by_cases hc : c < i
    · simp [hc, lt_of_lt_of_le hc hi, le_of_lt (lt_of_lt_of_le hc hi)]
    · simp [hc]
  · rw [if_pos hi]
    rcases lt_trichotomy c j with hc | rfl | hc
    · simp [hc, lt_trans hc hi, le_of_lt hc]
    · simp [hi, eliminate_entry_multiplier a hi, h]
    · simp [not_lt_of_gt hc, not_le_of_gt hc, eliminate_entry_right a hi hc]

/-- Working off a column leaves the product of the two factors as it is. -/
theorem lower_mul_upper_eliminate (a : Square F n) (j : Fin n) (h : a.entry j j ≠ 0) :
    (a.eliminate j).lower (j + 1) * (a.eliminate j).upper (j + 1) = a.lower j * a.upper j := by
  rw [lower_succ, lower_eliminate, Matrix.add_mul, Matrix.vecMulVec_mul,
    Matrix.single_one_vecMul, upper_eliminate a j h, Matrix.mul_add, Matrix.mul_vecMulVec,
    lower_mulVec_multipliers]
  rfl

/-! ## Whole columns -/

/-- A column with a pivot: its row is exchanged with the diagonal one before the
column is worked off, and the product has its rows exchanged. -/
theorem lower_mul_upper_column (a : Square F n) {j p : Fin n} (hp : j ≤ p)
    (h : a.entry p j ≠ 0) :
    ((a.exchangeRows j p).eliminate j).lower (j + 1) *
        ((a.exchangeRows j p).eliminate j).upper (j + 1) =
      (a.lower j * a.upper j).submatrix (Equiv.swap j p) id := by
  have hpivot : (a.exchangeRows j p).entry j j ≠ 0 := by
    rwa [entry_exchangeRows, Equiv.swap_apply_left]
  rw [lower_mul_upper_eliminate _ j hpivot, lower_mul_upper_exchange a hp]

/-- The diagonal of the columns worked off stays, and the pivot joins it. -/
theorem diagonal_column (a : Square F n) {j p : Fin n} (hp : j ≤ p) (h : a.entry p j ≠ 0)
    (hdiag : ∀ i : Fin n, i < j → a.entry i i ≠ 0) (i : Fin n) (hi : i ≤ j) :
    ((a.exchangeRows j p).eliminate j).entry i i ≠ 0 := by
  rw [eliminate_entry_of_le _ hi, entry_exchangeRows]
  rcases lt_or_eq_of_le hi with hlt | rfl
  · rw [swap_of_lt hp hlt]
    exact hdiag i hlt
  · rwa [Equiv.swap_apply_left]

/-- The pivot is on or below the diagonal, and comes with its magnitude. -/
theorem pivot_spec (a : Square F n) (j : Fin n) :
    j ≤ (a.pivot j).1 ∧ (a.pivot j).2 = |a.entry (a.pivot j).1 j| := by
  refine List.foldlRecOn
    (motive := fun best : Fin n × F => j ≤ best.1 ∧ best.2 = |a.entry best.1 j|)
    (List.finRange n) _ ⟨le_refl j, rfl⟩ ?_
  intro best h i _
  split
  · next hi => exact ⟨le_of_lt hi.1, rfl⟩
  · exact h

section Factor

variable [IsStrictOrderedRing F] {tol : F}

/-- A pivot that passes a tolerance is not zero. -/
theorem pivot_ne_zero (htol : 0 ≤ tol) (a : Square F n) (j : Fin n)
    (h : Scalar.lt tol (a.pivot j).2 = true) : a.entry (a.pivot j).1 j ≠ 0 := by
  have hlt : tol < |a.entry (a.pivot j).1 j| := by
    rw [← (a.pivot_spec j).2]
    exact Exact.lt_iff.1 h
  exact abs_pos.1 (lt_of_le_of_lt htol hlt)

/-- The row exchanges of the columns `js`, in their order. -/
def exchangeAll (js pivots : List (Fin n)) (x : Coords F n) : Coords F n :=
  (js.zip pivots).foldl (fun x (j, p) => x.exchange j p) x

/-- Working off the columns from `j` on keeps the product of the two factors, its
rows in the order that the row exchanges give a right-hand side. -/
theorem factorColumns_spec (htol : 0 ≤ tol) (j : Nat) (a : Square F n) :
    (∀ i : Fin n, i.val < j → a.entry i i ≠ 0) →
    (a.factorColumns tol ((List.finRange n).drop j)).complete = true →
    ∃ σ : Equiv.Perm (Fin n),
      (∀ x : Coords F n, (exchangeAll ((List.finRange n).drop j)
        (a.factorColumns tol ((List.finRange n).drop j)).pivots x).entry = x.entry ∘ σ) ∧
      (a.factorColumns tol ((List.finRange n).drop j)).lu.lower n *
          (a.factorColumns tol ((List.finRange n).drop j)).lu.upper n =
        (a.lower j * a.upper j).submatrix σ id ∧
      ∀ i, (a.factorColumns tol ((List.finRange n).drop j)).lu.entry i i ≠ 0 := by
  refine factorColumns_drop_induct (P := fun j a f =>
    (∀ i : Fin n, i.val < j → a.entry i i ≠ 0) → f.complete = true →
    ∃ σ : Equiv.Perm (Fin n),
      (∀ x : Coords F n,
        (exchangeAll ((List.finRange n).drop j) f.pivots x).entry = x.entry ∘ σ) ∧
      f.lu.lower n * f.lu.upper n = (a.lower j * a.upper j).submatrix σ id ∧
      ∀ i, f.lu.entry i i ≠ 0) ?_ ?_ ?_ j a
  · intro j a hn hdiag _
    refine ⟨1, fun x => ?_, ?_, fun i => hdiag i (lt_of_lt_of_le i.isLt hn)⟩
    · rw [List.drop_eq_nil_of_le (by simpa using hn)]
      rfl
    · simp only [lower_of_le a hn, upper_of_le a hn]
      rfl
  · intro j a f hlt ih hdiag hc
    have hp := (a.pivot_spec j).1
    have hne := pivot_ne_zero htol a j hlt
    obtain ⟨σ, hperm, hprod, hdiag⟩ :=
      ih (fun i hi => diagonal_column a hp hne hdiag i (Nat.le_of_lt_succ hi)) hc
    refine ⟨σ.trans (Equiv.swap j (a.pivot j).1), fun x => ?_, ?_, hdiag⟩
    · have hdrop : (List.finRange n).drop j = j :: (List.finRange n).drop (j + 1) := by
        rw [List.drop_eq_getElem_cons (by simp)]
        simp
      funext i
      rw [hdrop, exchangeAll, List.zip_cons_cons, List.foldl_cons]
      refine (congrFun (hperm (x.exchange j (a.pivot j).1)) i).trans ?_
      exact x.entry_exchange j (a.pivot j).1 (σ i)
    · rw [hprod, lower_mul_upper_column a hp hne, Matrix.submatrix_submatrix]
      rfl
  · exact fun j a _ _ hc => absurd hc Bool.false_ne_true

/-- Complete factors multiply to the matrix with its rows in the order that
`permute` gives a right-hand side, and no pivot is zero. -/
theorem factor_spec (htol : 0 ≤ tol) (a : Square F n) (h : (a.factor tol).complete = true) :
    ∃ σ : Equiv.Perm (Fin n),
      (∀ x : Coords F n, ((a.factor tol).permute x).entry = x.entry ∘ σ) ∧
      (a.factor tol).lu.lower n * (a.factor tol).lu.upper n = a.toMatrix.submatrix σ id ∧
      ∀ i, (a.factor tol).lu.entry i i ≠ 0 := by
  obtain ⟨σ, hperm, hprod, hdiag⟩ := factorColumns_spec htol 0 a
    (fun i hi => absurd hi (Nat.not_lt_zero _)) h
  rw [lower_zero, upper_zero, one_mul] at hprod
  exact ⟨σ, hperm, hprod, hdiag⟩

end Factor

end Square

end StageQp
