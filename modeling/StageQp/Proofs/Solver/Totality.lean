import StageQp.Proofs.Linear.Columns
import StageQp.Proofs.Solver.OptionStore
import StageQp.Proofs.Solver.ShapeStore
import StageQp.Proofs.Solver.StageMap

/-!
# StageQp.Proofs.Solver.Totality

Every solve gives a verdict.  Whatever calls led to the shape, the options and the
memory, and whatever numbers the program holds, a solve over a horizon that the map of
stages can hold neither stops early nor runs into a fault, and its verdict says exactly
what happened (`evaluate_classifies`).

A column that is not a number has no pivot, so that it counts as a failure; and a longer
horizon may halt the solve (`evaluate_misclassifies`).
-/

namespace StageQp

open Procedure

/-- Some stage has a bound or a general constraint. -/
def Shape.HasInequalities (shape : Shape) : Prop :=
  ∃ k ≤ shape.horizon, 0 < (shape.stage k).nbx.toNat + (shape.stage k).nbu.toNat +
    (shape.stage k).ng.toNat

/-- The backend sees inequalities exactly where some stage has one. -/
theorem Shape.isConstrained_iff (shape : Shape) :
    shape.isConstrained = true ↔ shape.HasInequalities := by
  have hpos := shape.size_pos
  have hstage (k : Nat) (hk : k < shape.stages.size) : shape.stage k = shape.stages[k] := by
    simp [stage, Array.getD_eq_getD_getElem?, hk]
  simp only [isConstrained, Array.any_eq_true, StageDims.isConstrained, StageDims.inequalities,
    StageDims.bounds, HasInequalities]
  constructor
  · rintro ⟨k, hk, h⟩
    refine ⟨k, ?_, ?_⟩
    · unfold horizon
      omega
    · rw [hstage k hk]
      exact of_decide_eq_true h
  · rintro ⟨k, hk, h⟩
    have hk : k < shape.stages.size := by
      unfold horizon at hk
      omega
    rw [hstage k hk] at h
    exact ⟨k, hk, decide_eq_true h⟩

/-- The verdict on a solve: a failure if there are inequalities or a pivot is
missing, else not a number if some entry of the solution is not finite, else
success.

The factors are those of the regularized matrix.  A pivot is missing from a column whose
largest magnitude, on the diagonal and below it, is not above the fraction of the largest
entry of the matrix: it is at most that, or not a number. -/
structure Classifies {n : Nat} (shape : Shape) (staticReg : Binary64)
    (solved : KktSolve Binary64 n) (status : Status) : Prop where
  factors_eq : solved.factors =
    (Problem.regularize shape.totalVariables staticReg solved.system.matrix).factor
      (Dense.pivotFraction * solved.system.matrix.maxEntry)
  incomplete_iff : solved.factors.complete = false ↔
    solved.factors.MissesPivot (Dense.pivotFraction * solved.system.matrix.maxEntry)
  failure_iff : status = .qpFailure ↔
    shape.HasInequalities ∨ solved.factors.complete = false
  nan_iff : status = .nanDetected ↔ ¬shape.HasInequalities ∧ solved.factors.complete = true ∧
    ∃ it, solved.result = some it ∧ ∃ i, (it.solution.entry i).isFinite = false
  success_iff : status = .success ↔ ¬shape.HasInequalities ∧ solved.factors.complete = true ∧
    ∃ it, solved.result = some it ∧ ∀ i, (it.solution.entry i).isFinite = true
  only : status = .qpFailure ∨ status = .nanDetected ∨ status = .success

/-- A solve finds a solution exactly if its factors are complete. -/
theorem Problem.solve_result_isSome {F : Type} [Scalar F] {n : Nat} (p : Problem F)
    (settings : KktSettings F) (start : Option (Coords F n)) (before : Coords F n) :
    (p.solve settings start before).result.isSome =
      (p.solve settings start before).factors.complete := by
  unfold solve
  dsimp only
  split
  · next h => rw [h]; rfl
  · next h => rw [Bool.not_eq_true] at h; rw [h]; rfl

/-- The verdict of the backend is that on its solve of the conditions. -/
theorem Dense.verdict_classifies {qp : QpInput} {m : DenseMemory}
    (hm : m.order = qp.shape.order) (o : DenseOptions) (region : Words)
    (before : Coords Binary64 m.order) :
    Classifies qp.shape o.staticReg (attempt qp o m region before) (verdict qp o m region) := by
  rw [attempt_eq hm]
  have hsome : (attempted qp o m region).result.isSome =
      (attempted qp o m region).factors.complete := Problem.solve_result_isSome ..
  have hincomplete : (attempted qp o m region).factors.complete = false ↔
      (attempted qp o m region).factors.MissesPivot
        (pivotFraction * (attempted qp o m region).system.matrix.maxEntry) :=
    Square.complete_factor_eq_false_iff ..
  have hineq := qp.shape.isConstrained_iff
  unfold verdict iterate?
  cases hc : qp.shape.isConstrained with
  | true =>
      have hineq := hineq.1 hc
      exact ⟨rfl, hincomplete, by simp [hineq], by simp [hineq], by simp [hineq], by simp⟩
  | false =>
      have hineq : ¬qp.shape.HasInequalities := by
        rw [← hineq, hc]
        exact Bool.false_ne_true
      cases hr : (attempted qp o m region).result with
      | none =>
          rw [hr, Option.isSome_none] at hsome
          exact ⟨rfl, hincomplete, by simp [← hsome], by simp [← hsome], by simp [← hsome],
            by simp⟩
      | some it =>
          rw [hr, Option.isSome_some] at hsome
          cases hf : it.solution.isFinite with
          | true =>
              have hall : ∀ i, (it.solution.entry i).isFinite = true :=
                it.solution.isFinite_iff.1 hf
              exact ⟨rfl, hincomplete, by simp [hf, hineq, ← hsome], by simp [hf, hr, hall],
                by simp [hf, hr, hineq, ← hsome, hall], by simp [hf]⟩
          | false =>
              have hany : ∃ i, (it.solution.entry i).isFinite = false :=
                it.solution.isFinite_eq_false_iff.1 hf
              exact ⟨rfl, hincomplete, by simp [hf, hineq, ← hsome],
                by simp [hf, hr, hineq, ← hsome, hany], by simp [hf, hr, hany], by simp [hf]⟩

/-- Whatever calls led to the shape, the options and the memory, and whatever the
records and the scratch hold, a solve over a horizon that the map of stages can hold
(`SolverMemory.stageNumbers_eq_range_iff`) ends with a verdict, and the verdict says
what happened.  Every place a stage has in the system lies inside it. -/
theorem evaluate_classifies {n : Nat} (hn : n < 2 ^ 32) {dims : ShapeStore IdentityDims}
    (hdims : ShapeStore.Reached n dims) :
    ∃ shape, dims.shapes identity = .ok ⟨shape, shape⟩ ∧ shape.horizon = n ∧
      (∀ k ≤ n, (Problem.place shape k).InRange shape.totalVariables shape.order) ∧
      ∀ {options : OptionStore} {memory : SolverMemory IdentityMemory DenseMemory}
        {qp : QpInput} {output : QpOutput},
        OptionStore.Reached ⟨shape, shape⟩ options →
        SolverMemory.Reached ⟨shape, shape⟩ memory →
        qp.Valid → qp.shape = shape → output.Valid → output.shape = shape →
        ∃ so bo region, options.strategyOptions IdentityOptions = .ok so ∧
          options.backendOptions DenseOptions = .ok bo ∧ memory.backendRegion = .ok region ∧
          memory.backend.order = shape.order ∧
          ∀ (env : Environment) (work : Words) (clock : Readings) (j : Journal),
            Overlay.size (.bundled env) ⟨shape, shape⟩ so bo ≤ Words.byteSize work →
            ∃ status after j',
              outcome (Solver.evaluate (.bundled env) qp options clock) ⟨output, memory, work⟩ j =
                (.ok status, ⟨after, j'⟩) ∧
              ∀ before, Classifies shape bo.staticReg
                (Dense.attempt qp bo memory.backend region before) status := by
  obtain ⟨shape, rfl, hholds⟩ := hdims.holds
  refine ⟨shape, hholds.shapes_eq, rfl, fun k hk => Problem.place_inRange hk, ?_⟩
  intro options memory qp output hoptions hmemory hq hqs hv hs
  have ho := hoptions.readable
  have hm := hmemory.intact
  have horder : memory.backend.order = shape.order := by
    rw [hm.backend_eq]
    rfl
  refine ⟨_, _, _, ho.strategyOptions_eq, ho.backendOptions_eq, hm.backend_fits.slice, horder, ?_⟩
  intro env work clock j hwork
  obtain ⟨after, j', hrun, -⟩ := Solver.outcome_evaluate (d := ⟨output, memory, work⟩) hm hn hq hqs
    hv hs ho.strategyOptions_eq ho.backendOptions_eq env hwork clock j
  refine ⟨_, after, j', hrun, fun before => ?_⟩
  have hclass := Dense.verdict_classifies (horder.trans (congrArg Shape.order hqs).symm)
    (Record.get (options.backend.part options.words) 0)
    (memory.layout.backend.part memory.words) before
  rw [hqs] at hclass
  exact hclass

/-- A solve of the zero program over an empty stage and one with a state. -/
theorem evaluate_classifies_lateState :
    1 < 2 ^ 32 ∧ ∃ dims options memory so bo region status after j',
      ShapeStore.Reached 1 dims ∧
      dims.shapes identity = .ok ⟨.lateState, .lateState⟩ ∧
      OptionStore.Reached ⟨.lateState, .lateState⟩ options ∧
      SolverMemory.Reached ⟨.lateState, .lateState⟩ memory ∧
      memory.backendRegion = .ok region ∧
      outcome (Solver.evaluate (.bundled {}) (StageData.blank InputField .lateState) options {})
        ⟨StageData.blank OutputField .lateState, memory,
          .zeroed (Overlay.size (.bundled {}) ⟨.lateState, .lateState⟩ so bo)⟩ {} =
        (.ok status, ⟨after, j'⟩) ∧
      ∀ before, Classifies .lateState bo.staticReg (Dense.attempt
        (StageData.blank InputField .lateState) bo memory.backend region before) status := by
  refine ⟨by decide, ?_⟩
  -- The shape: two empty stages, then one call.
  obtain ⟨dims₀, j₀, hassign, hblank⟩ := ShapeStore.outcome_assign
    (ShapeStore.carve_exact identity 1).byteSize_zeroed () {}
  obtain ⟨dims, hset, hholds⟩ := hblank.outcome_set (Nat.le_refl 1) .nx 1 {}
  have hdims : ShapeStore.Reached 1 dims := by
    have h := (ShapeStore.Reached.assign hassign).set 1 .nx 1 {}
    rwa [hset] at h
  have hshapes : dims.shapes identity = .ok ⟨.lateState, .lateState⟩ := hholds.shapes_eq
  -- Options and memory as they are laid out.
  obtain ⟨options, hoptions, -⟩ := OptionStore.outcome_assign (OptionStore.carve_exact
    (.bundled {}) ⟨.lateState, .lateState⟩).byteSize_zeroed () {}
  obtain ⟨memory, j₁, hmemory, -, -⟩ := SolverMemory.outcome_assign (SolverMemory.carve_exact
    (.bundled {}) ⟨.lateState, .lateState⟩ ⟨0, 0⟩ ⟨0, 0, 0, 0⟩).byteSize_zeroed () {}
  obtain ⟨shape, hshape, -, -, hsolves⟩ := evaluate_classifies (by decide) hdims
  obtain rfl : shape = .lateState := by
    rw [hshapes] at hshape
    cases hshape
    rfl
  obtain ⟨so, bo, region, -, -, hregion, -, hsolve⟩ := hsolves (.assign hoptions)
    (.assign hmemory) (StageData.valid_blank .lateState) rfl (StageData.valid_blank .lateState) rfl
  obtain ⟨status, after, j', hrun, hclass⟩ := hsolve {} _ {} {} (Nat.le_of_eq
    (Overlay.divide_exact (.bundled {}) ⟨.lateState, .lateState⟩ so bo).byteSize_zeroed.symm)
  exact ⟨dims, options, memory, so, bo, region, status, after, j', hdims, hshapes,
    .assign hoptions, .assign hmemory, hregion, hrun, hclass⟩

/-- A quadratic cost that is not a number makes a pivot that does not compare.  There are
no inequalities and no pivot at or below the tolerance, and the solve is a failure.  And
with a horizon that the map of stages cannot hold, a solve may have no verdict. -/
theorem evaluate_misclassifies :
    (∃ qp options d bo region, Solver.Equipped (.firstControl 0) qp options d ∧
      options.backendOptions DenseOptions = .ok bo ∧ d.memory.backendRegion = .ok region ∧
      ¬(Shape.firstControl 0).HasInequalities ∧
      (let solved := Dense.attempted qp bo d.memory.backend region
      ∃ h : solved.factors.pivots.length < d.memory.backend.order,
        Scalar.le (solved.factors.lu.pivot ⟨solved.factors.pivots.length, h⟩).2
          (Dense.pivotFraction * solved.system.matrix.maxEntry) = false) ∧
      (outcome (Solver.evaluate (.bundled {}) qp options {}) d {}).1 = .ok .qpFailure) ∧
    ∃ shape qp options d, shape.horizon = 2 ^ 32 ∧ Solver.Equipped shape qp options d ∧
      ∀ clock, Solver.Halts d (Solver.evaluate (.bundled {}) qp options clock) := by
  constructor
  · refine ⟨_, _, _, (dense {}).optsDefault (.firstControl 0),
      SolverMemory.oneControl.layout.backend.part SolverMemory.oneControl.words,
      Solver.equipped_oneControl ⟨0x7ff8000000000000⟩,
      by decide +kernel, by decide +kernel, ?_, by decide +kernel, by decide +kernel⟩
    rw [← Shape.isConstrained_iff]
    decide +kernel
  · obtain ⟨shape, qp, options, d, hn, hequipped, -, hhalts⟩ := Solver.exists_halting
    exact ⟨shape, qp, options, d, hn, hequipped, (hhalts {}).1⟩

end StageQp
