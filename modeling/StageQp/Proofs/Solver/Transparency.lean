import StageQp.Proofs.Shape.Record
import StageQp.Proofs.Solver.OptionStore
import StageQp.Proofs.Solver.StageMap

/-!
# StageQp.Proofs.Solver.Transparency

The strategy that keeps every stage is not to be seen.  A solve through the solver
and a direct one by the backend, on a copy of the region that the solver's memory
holds, end alike (`evaluate_transparent`): both are what the backend makes of the
program, the options and the region.

That takes a horizon that the map of stages can hold, and a solver that knows which
solves to log; else the backend may have a verdict where the solver has none
(`evaluate_not_transparent`).
-/

namespace StageQp

open Procedure

theorem Identity.handedOn_of_primal (duals : Bool) (shape : Shape) (k : Nat) {field : OutputField}
    (h : field = .ux ∨ field = .t) (entries : Array Binary64) :
    handedOn duals shape k field entries = entries := by
  rcases h with rfl | rfl <;> rfl

theorem Identity.handedOn_true (shape : Shape) (k : Nat) (field : OutputField)
    (entries : Array Binary64) : handedOn true shape k field entries = entries := by
  cases field <;> rfl

theorem Identity.handedOn_false_of_dual (shape : Shape) (k : Nat) {field : OutputField}
    (h : field = .pi ∨ field = .lam) (entries : Array Binary64) :
    handedOn false shape k field entries =
      .replicate (OutputField.count shape k field) ⟨0⟩ := by
  rcases h with rfl | rfl <;> rfl

/-- What the caller of the solver finds, next to what the caller of the backend finds. -/
structure SolvesAlike (shape : Shape) (so : IdentityOptions)
    (through : SolveDesk IdentityMemory DenseMemory) (direct : Desk QpOutput) : Prop where
  primal_eq (k : Nat) (hk : k ≤ shape.horizon) :
    through.output.getD k .ux = direct.record.getD k .ux ∧
      through.output.getD k .t = direct.record.getD k .t
  dual_eq (hduals : so.expandDuals ≠ 0) (k : Nat) (hk : k ≤ shape.horizon) :
    through.output.getD k .pi = direct.record.getD k .pi ∧
      through.output.getD k .lam = direct.record.getD k .lam
  dual_zero (hduals : so.expandDuals = 0) (k : Nat) (hk : k ≤ shape.horizon) :
    through.output.getD k .pi = .replicate (OutputField.count shape k .pi) (⟨0⟩ : Binary64) ∧
      through.output.getD k .lam = .replicate (OutputField.count shape k .lam) (⟨0⟩ : Binary64)
  numIter_eq : through.output.info.numIter = direct.record.info.numIter
  tComputed_eq : through.output.info.tComputed = direct.record.info.tComputed
  region_eq : through.memory.backendRegion = .ok direct.region

/-- What is delivered through the solver is what the backend leaves when it is called directly. -/
theorem SolvesAlike.of_outcomes {shape : Shape} {qp : QpInput} (hqs : qp.shape = shape)
    {so : IdentityOptions} {bo : DenseOptions} {before after : SolveDesk IdentityMemory DenseMemory}
    {directBefore direct : Desk QpOutput} (hd : after.memory.Intact ⟨shape, shape⟩)
    (hregion : directBefore.region = before.memory.layout.backend.part before.memory.words)
    (h : Solver.Delivers qp (so.expandDuals != 0) bo before after)
    (hl : Dense.Leaves qp bo before.memory.backend directBefore direct) :
    SolvesAlike shape so after direct := by
  subst hqs
  have hfield (k : Nat) (field : OutputField) (hk : k ≤ qp.shape.horizon) :
      after.output.getD k field =
        Identity.handedOn (so.expandDuals != 0) qp.shape k field
          (direct.record.getD k field) := by
    rw [h.field_eq k field hk, hl.field_eq k field hk, hregion]
  refine { primal_eq := fun k hk => ?_, dual_eq := fun hduals k hk => ?_,
           dual_zero := fun hduals k hk => ?_, numIter_eq := ?_, tComputed_eq := ?_,
           region_eq := ?_ }
  · exact ⟨(hfield k .ux hk).trans (Identity.handedOn_of_primal _ _ k (.inl rfl) _),
      (hfield k .t hk).trans (Identity.handedOn_of_primal _ _ k (.inr rfl) _)⟩
  · rw [show (so.expandDuals != 0) = true by simpa using hduals] at hfield
    exact ⟨(hfield k .pi hk).trans (Identity.handedOn_true _ k _ _),
      (hfield k .lam hk).trans (Identity.handedOn_true _ k _ _)⟩
  · rw [show (so.expandDuals != 0) = false by simpa using hduals] at hfield
    exact ⟨(hfield k .pi hk).trans (Identity.handedOn_false_of_dual _ k (.inl rfl) _),
      (hfield k .lam hk).trans (Identity.handedOn_false_of_dual _ k (.inr rfl) _)⟩
  · rw [h.numIter_eq, hl.numIter_eq, hregion]
  · rw [h.tComputed_eq, hl.tComputed_eq]
  · rw [SolverMemory.backendRegion, hd.backend_fits.slice, h.region_eq, hl.region_eq, hregion]

/-- A solve through the solver ends like a direct one on a copy of the region that
the memory holds, whatever the memory went through before, whatever scratch and
old solutions hold, and whatever the verdict.  The horizon is one that the map of stages
can hold (`SolverMemory.stageNumbers_eq_range_iff`), and which solves are logged is read
from the environment. -/
theorem evaluate_transparent {shape : Shape} (hn : shape.horizon < 2 ^ 32)
    {memory : SolverMemory IdentityMemory DenseMemory}
    (hm : SolverMemory.Reached ⟨shape, shape⟩ memory) {options : OptionStore}
    {so : IdentityOptions} {bo : DenseOptions}
    (hso : options.strategyOptions IdentityOptions = .ok so)
    (hbo : options.backendOptions DenseOptions = .ok bo) {qp : QpInput} (hq : qp.Valid)
    (hqs : qp.shape = shape) {output directOutput : QpOutput} (hv : output.Valid)
    (hs : output.shape = shape) (hdv : directOutput.Valid) (hds : directOutput.shape = shape)
    (env : Environment) {work directWork : Words}
    (hwork : Overlay.size (.bundled env) ⟨shape, shape⟩ so bo ≤ Words.byteSize work)
    (hdwork : (dense env).workspaceSize shape bo ≤ Words.byteSize directWork)
    (clock : Readings) (directClock : BackendReadings) (j directJ : Journal) :
    ∃ region, memory.backendRegion = .ok region ∧ ∃ status through direct j₁ j₂,
      outcome (Solver.evaluate (.bundled env) qp options clock) ⟨output, memory, work⟩ j =
        (.ok status, ⟨through, j₁⟩) ∧
      outcome ((dense env).evaluate qp bo memory.backend directClock)
        ⟨directOutput, region, directWork⟩ directJ = (.ok status, ⟨direct, j₂⟩) ∧
      SolvesAlike shape so through direct := by
  have hi := hm.intact
  have hready : Dense.Ready qp memory.backend
      ⟨directOutput, memory.layout.backend.part memory.words, directWork⟩ :=
    hi.ready hqs hdv hds hdwork
  obtain ⟨through, j₁, hthrough, hdelivers⟩ := Solver.outcome_evaluate
    (d := ⟨output, memory, work⟩) hi hn hq hqs hv hs hso hbo env hwork clock j
  obtain ⟨direct, j₂, hdirect, hleaves⟩ :=
    Dense.outcome_evaluate (o := bo) hready directClock directJ
  have hafter : through.memory.Intact ⟨shape, shape⟩ := by
    have h := Solver.keeps_evaluate env qp options clock ⟨output, memory, work⟩ j hi
    rwa [hthrough] at h
  exact ⟨_, hi.backend_fits.slice, _, through, direct, j₁, j₂, hthrough, hdirect,
    .of_outcomes hqs hafter rfl hdelivers hleaves⟩

/-- The zero program over an empty stage and one with a state, on a memory that was
used once before, with options as they are laid out. -/
theorem evaluate_transparent_lateState :
    Shape.lateState.horizon < 2 ^ 32 ∧
      ∃ (memory : SolverMemory IdentityMemory DenseMemory) (options : OptionStore)
        (so : IdentityOptions) (bo : DenseOptions) (region : Words) (status : Status)
        (through : SolveDesk IdentityMemory DenseMemory) (direct : Desk QpOutput)
        (j₁ j₂ : Journal),
        SolverMemory.Reached ⟨.lateState, .lateState⟩ memory ∧
        options.strategyOptions IdentityOptions = .ok so ∧
        options.backendOptions DenseOptions = .ok bo ∧ memory.backendRegion = .ok region ∧
        outcome (Solver.evaluate (.bundled {}) (StageData.blank InputField .lateState) options {})
          ⟨StageData.blank OutputField .lateState, memory,
            .zeroed (Overlay.size (.bundled {}) ⟨.lateState, .lateState⟩ so bo)⟩ {} =
          (.ok status, ⟨through, j₁⟩) ∧
        outcome ((dense {}).evaluate (StageData.blank InputField .lateState) bo memory.backend {})
          ⟨StageData.blank OutputField .lateState, region,
            .zeroed ((dense {}).workspaceSize .lateState bo)⟩ {} =
          (.ok status, ⟨direct, j₂⟩) ∧
        SolvesAlike .lateState so through direct := by
  refine ⟨by decide, ?_⟩
  obtain ⟨options, -, hreadable⟩ := OptionStore.outcome_assign (OptionStore.carve_exact
    (.bundled {}) ⟨.lateState, .lateState⟩).byteSize_zeroed () {}
  obtain ⟨fresh, j₀, hassign, -, -⟩ := SolverMemory.outcome_assign (SolverMemory.carve_exact
    (.bundled {}) ⟨.lateState, .lateState⟩ ⟨0, 0⟩ ⟨0, 0, 0, 0⟩).byteSize_zeroed () {}
  have hused := (SolverMemory.Reached.assign hassign).evaluate {}
    (StageData.blank InputField .lateState) options {} (StageData.blank OutputField .lateState)
    (.zeroed (Overlay.size (.bundled {}) ⟨.lateState, .lateState⟩ ⟨0, 0⟩ ⟨0, 0, 0, 0⟩)) {}
  have hso := hreadable.strategyOptions_eq
  have hbo := hreadable.backendOptions_eq
  obtain ⟨region, hregion, status, through, direct, j₁, j₂, hthrough, hdirect, halike⟩ :=
    evaluate_transparent (by decide) hused hso hbo (StageData.valid_blank .lateState) rfl
      (StageData.valid_blank .lateState) rfl (StageData.valid_blank .lateState) rfl {}
      (Nat.le_of_eq (Overlay.divide_exact (.bundled {}) ⟨.lateState, .lateState⟩ _
        _).byteSize_zeroed.symm)
      (Nat.le_trans (le_alignUp _) (Nat.le_of_eq (Words.byteSize_zeroed _).symm)) {} {} {} {}
  exact ⟨_, options, _, _, region, status, through, direct, j₁, j₂, hused, hso, hbo, hregion,
    hthrough, hdirect, halike⟩

/-- Called directly on a copy of the region that the memory holds, the backend has a
verdict. -/
def Dense.Answers (qp : QpInput) (options : OptionStore)
    (d : SolveDesk IdentityMemory DenseMemory) : Prop :=
  ∃ bo region status direct j, options.backendOptions DenseOptions = .ok bo ∧
    d.memory.backendRegion = .ok region ∧
    outcome ((dense {}).evaluate qp bo d.memory.backend {})
      ⟨d.output, region, .zeroed ((dense {}).workspaceSize qp.shape bo)⟩ {} =
      (.ok status, ⟨direct, j⟩)

/-- All that a solve asks for is enough for the backend by itself. -/
theorem Solver.Equipped.answers {shape : Shape} {qp : QpInput} {options : OptionStore}
    {d : SolveDesk IdentityMemory DenseMemory} (h : Equipped shape qp options d) :
    Dense.Answers qp options d := by
  have hm := h.memory.intact
  obtain rfl := h.qp_shape
  obtain ⟨direct, j, hrun, -⟩ := Dense.outcome_evaluate
    (o := Record.get (options.backend.part options.words) 0)
    (hm.ready rfl h.output_valid h.output_shape (Nat.le_trans (le_alignUp _)
      (Nat.le_of_eq (Words.byteSize_zeroed _).symm))) {} {}
  exact ⟨_, _, _, direct, j, h.options.readable.backendOptions_eq, hm.backend_fits.slice, hrun⟩

/-- The backend has a verdict, and a solve through the solver has none: over one control,
when solves whose number is a multiple of zero are to be logged; and for some program with
a horizon that the map of stages cannot hold. -/
theorem evaluate_not_transparent :
    (∃ qp options d, Solver.Equipped (.firstControl 0) qp options d ∧
      Dense.Answers qp options d ∧
      (outcome (Solver.evaluate { Solver.bundled {} with diagnostics := ⟨true, 0⟩ } qp options {})
        d {}).1 = .error .halt) ∧
    ∃ shape qp options d, shape.horizon = 2 ^ 32 ∧ Solver.Equipped shape qp options d ∧
      Dense.Answers qp options d ∧
      ∀ clock, Solver.Halts d (Solver.evaluate (.bundled {}) qp options clock) := by
  constructor
  · have hequipped := Solver.equipped_oneControl ⟨0x3ff0000000000000⟩
    exact ⟨_, _, _, hequipped, hequipped.answers, by decide +kernel⟩
  · obtain ⟨shape, qp, options, d, hn, hequipped, -, hhalts⟩ := Solver.exists_halting
    exact ⟨shape, qp, options, d, hn, hequipped, hequipped.answers, (hhalts {}).1⟩

end StageQp
