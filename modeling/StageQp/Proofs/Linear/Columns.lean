import StageQp.Linear.Factor

/-!
# StageQp.Proofs.Linear.Columns

How far factoring gets, over any scalars.  Columns are worked off one after the other
(`Square.factorColumns_drop_induct`); factors are complete when every column was, and
else the next one has no pivot above the tolerance (`Square.complete_factor_eq_false_iff`).
Over numbers that need not compare this is not to say that there is one below it.
-/

namespace StageQp

variable {F : Type} [Scalar F] {n : Nat}

/-- The column behind those that were worked off has no pivot above `tol`. -/
def Factors.MissesPivot (tol : F) (f : Factors F n) : Prop :=
  ∃ h : f.pivots.length < n, Scalar.lt tol (f.lu.pivot ⟨f.pivots.length, h⟩).2 = false

namespace Square

variable {tol : F}

/-- Working off the columns from `j` on ends past the last column, goes on with the
next, or finds no pivot. -/
theorem factorColumns_drop_induct {P : Nat → Square F n → Factors F n → Prop}
    (done : ∀ j a, n ≤ j → P j a ⟨a, [], true⟩)
    (next : ∀ (j : Fin n) (a : Square F n) (f : Factors F n),
      Scalar.lt tol (a.pivot j).2 = true →
      P (j + 1) ((a.exchangeRows j (a.pivot j).1).eliminate j) f →
      P j a { f with pivots := (a.pivot j).1 :: f.pivots })
    (stop : ∀ (j : Fin n) (a : Square F n), ¬ Scalar.lt tol (a.pivot j).2 = true →
      P j a ⟨a, [], false⟩)
    (j : Nat) (a : Square F n) : P j a (a.factorColumns tol ((List.finRange n).drop j)) := by
  obtain ⟨js, hjs⟩ : ∃ js, js = (List.finRange n).drop j := ⟨_, rfl⟩
  rw [← hjs]
  induction js generalizing j a with
  | nil => exact done j a (by simpa using hjs.symm)
  | cons c js ih =>
      have hj : j < n := by
        refine Nat.lt_of_not_le fun hj => ?_
        rw [List.drop_eq_nil_of_le (by simpa using hj)] at hjs
        cases hjs
      rw [List.drop_eq_getElem_cons (by simpa using hj)] at hjs
      obtain ⟨hc, hjs⟩ := List.cons.inj hjs
      obtain rfl : c.val = j := by simp [hc]
      by_cases hlt : Scalar.lt tol (a.pivot c).2 = true
      · simp only [factorColumns, hlt, if_true]
        exact next c a _ hlt (ih (c + 1) _ hjs)
      · simp only [factorColumns, hlt]
        exact stop c a hlt

/-- From column `j` on, either all columns are worked off, or those before one without a
pivot. -/
theorem factorColumns_drop_reaches (tol : F) (j : Nat) (a : Square F n) :
    let f := a.factorColumns tol ((List.finRange n).drop j)
    (f.complete = true → n ≤ j + f.pivots.length) ∧
      (f.complete = false → ∃ h : j + f.pivots.length < n,
        Scalar.lt tol (f.lu.pivot ⟨j + f.pivots.length, h⟩).2 = false) := by
  refine factorColumns_drop_induct (P := fun j _ f =>
    (f.complete = true → n ≤ j + f.pivots.length) ∧
      (f.complete = false → ∃ h : j + f.pivots.length < n,
        Scalar.lt tol (f.lu.pivot ⟨j + f.pivots.length, h⟩).2 = false)) ?_ ?_ ?_ j a
  · exact fun j a hn => ⟨fun _ => hn, nofun⟩
  · intro j a f _ ih
    simpa only [List.length_cons, Nat.add_assoc, Nat.add_comm 1] using ih
  · exact fun j a hlt => ⟨nofun, fun _ => ⟨j.isLt, Bool.eq_false_iff.2 hlt⟩⟩

/-- Factors are incomplete exactly if some column has no pivot above the tolerance. -/
theorem complete_factor_eq_false_iff (tol : F) (a : Square F n) :
    (a.factor tol).complete = false ↔ (a.factor tol).MissesPivot tol := by
  obtain ⟨hdone, hstop⟩ := a.factorColumns_drop_reaches tol 0
  simp only [List.drop_zero, Nat.zero_add] at hdone hstop
  refine ⟨hstop, fun h => ?_⟩
  obtain ⟨hlt, -⟩ := h
  refine Bool.eq_false_iff.2 fun hc => ?_
  exact absurd (hdone hc) (Nat.not_le.2 hlt)

end Square

end StageQp
