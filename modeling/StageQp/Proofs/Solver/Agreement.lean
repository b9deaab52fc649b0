import StageQp.Proofs.Solver.Memory
import StageQp.Proofs.Solver.OptionStore
import StageQp.Proofs.Solver.ShapeStore

/-!
# StageQp.Proofs.Solver.Agreement

Sizes and assignments agree.  Every composite record of any solver is carved
exactly, and the assignments of the bundled solver succeed on the buffers of the
computed size and on no other (`sizes_agree_with_assignments`).
-/

namespace StageQp

open Procedure

/-- The header in a memory is the one of its layout. -/
def SolverMemory.HeaderVerifies {μ ν : Type} (m : SolverMemory μ ν) : Prop :=
  ∃ header, m.header = .ok header ∧
    header.verify tag m.layout.total m.layout.children = .ok ()

/-- The scratch that a solver asks for is divided for the shapes of a memory, and
handed out exactly when there is enough of it. -/
def SolverMemory.DividesScratch {δ ο μ β ν : Type} (s : Solver δ ο μ β ν) (shapes : ShapePair)
    (m : SolverMemory μ ν) : Prop :=
  ∀ so bo j, ∃ overlay,
    outcome (Overlay.carve s m.shapes so bo) () j = (.ok overlay, ⟨(), j⟩) ∧
      overlay.total = Overlay.size s shapes so bo ∧
      ∀ work, overlay.check work = .ok () ↔ overlay.total ≤ Words.byteSize work

/-- The header of intact memory verifies. -/
theorem SolverMemory.Intact.headerVerifies {shapes : ShapePair}
    {m : SolverMemory IdentityMemory DenseMemory} (h : m.Intact shapes) : m.HeaderVerifies := by
  refine ⟨_, ?_, h.header_ok⟩
  have hc : Record.check RecordHeader (m.layout.header.part m.words) 1 = .ok () := by
    rw [Record.check_eq_ok_iff, Block.byteSize_part h.header_fits, h.header_span]
    decide
  rw [header, h.header_fits.slice]
  show (Record.check RecordHeader (m.layout.header.part m.words) 1 >>= fun _ => pure _) = _
  rw [hc]
  rfl

/-- Scratch that is enough for intact memory is divided exactly. -/
theorem SolverMemory.Intact.dividesScratch {shapes : ShapePair}
    {m : SolverMemory IdentityMemory DenseMemory} (h : m.Intact shapes) (env : Environment) :
    m.DividesScratch (.bundled env) shapes := by
  have hshapes : m.shapes = shapes := by
    rw [SolverMemory.shapes, h.full_eq, h.input_eq]
    rfl
  intro so bo j
  rw [hshapes]
  exact ⟨_, Overlay.outcome_carve _ shapes so bo () j, rfl,
    Overlay.check_divide_eq_ok_iff _ shapes so bo⟩

/-- Whatever the sizes that a strategy and a backend ask for, the carves of the
shape, the options, the memory and the scratch tile exactly the computed total;
and the bundled solver lays each out on a buffer of that size and on no other. -/
theorem sizes_agree_with_assignments {δ ο μ β ν : Type} (s : Solver δ ο μ β ν) (so : ο) (bo : β)
    (env : Environment) (idOptions : IdentityOptions) (denseOptions : DenseOptions) (n : Nat)
    (shapes : ShapePair) :
    (ExactCarve [RecordHeader.size, Shape.recordBytes n, s.strategy.dimsSize n]
        [(ShapeStore.carve s.strategy n).1, (ShapeStore.carve s.strategy n).2.1,
          (ShapeStore.carve s.strategy n).2.2.1]
        (ShapeStore.carve s.strategy n).2.2.2 (ShapeStore.size s.strategy n) ∧
      ExactCarve [RecordHeader.size, s.strategy.optsSize shapes,
          s.backend.optsSize shapes.condensed]
        [(OptionStore.carve s shapes).1, (OptionStore.carve s shapes).2.1,
          (OptionStore.carve s shapes).2.2.1]
        (OptionStore.carve s shapes).2.2.2 (OptionStore.size s shapes) ∧
      ExactCarve [RecordHeader.size, s.strategy.memorySize shapes so,
          s.backend.memorySize shapes.condensed bo, shapes.condensed.inputBytes,
          shapes.condensed.outputBytes]
        (SolverMemory.carve s shapes so bo).1.blocks (SolverMemory.carve s shapes so bo).2
        (SolverMemory.size s shapes so bo) ∧
      ExactCarve [s.strategy.workspaceSize shapes so,
          s.backend.workspaceSize shapes.condensed bo]
        [(Overlay.divide s shapes so bo).1.strategy, (Overlay.divide s shapes so bo).1.backend]
        (Overlay.divide s shapes so bo).2 (Overlay.size s shapes so bo)) ∧
    AssignsExactly (ShapeStore.size identity n) (ShapeStore.assign identity n)
      (fun d => d.Holds (.blank n)) ∧
    AssignsExactly (OptionStore.size (.bundled env) shapes)
      (OptionStore.assign (.bundled env) shapes) (fun o => o.Readable) ∧
    AssignsExactly (SolverMemory.size (.bundled env) shapes idOptions denseOptions)
      (SolverMemory.assign (.bundled env) shapes idOptions denseOptions)
      (fun m => m.HeaderVerifies ∧ m.DividesScratch (.bundled env) shapes) := by
  refine ⟨⟨ShapeStore.carve_exact s.strategy n, OptionStore.carve_exact s shapes,
    SolverMemory.carve_exact s shapes so bo, Overlay.divide_exact s shapes so bo⟩, ?_, ?_, ?_⟩
  · refine .of_outcomes (fun h j => ?_) fun h j => ShapeStore.outcome_assign_of_ne h () j
    exact ShapeStore.outcome_assign h () j
  · refine .of_outcomes (fun h j => ?_) fun h j => OptionStore.outcome_assign_of_ne h () j
    obtain ⟨o, ho, hr⟩ := OptionStore.outcome_assign h () j
    exact ⟨o, j, ho, hr⟩
  · refine .of_outcomes (fun h j => ?_) fun h j => SolverMemory.outcome_assign_of_ne h () j
    obtain ⟨m, j', hm, -, hi⟩ := SolverMemory.outcome_assign h () j
    exact ⟨m, j', hm, hi.headerVerifies, hi.dividesScratch env⟩

end StageQp
