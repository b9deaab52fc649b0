import StageQp.Proofs.Solver.Checks

/-!
# StageQp.Proofs.Solver.Reach

The memories that calls lead to.  However a solve or a sensitivity request ends,
and whatever it was handed, an intact memory is intact afterwards
(`keeps_evaluate`, `keeps_evaluateSensitivity`); so every memory that was laid out
and then used by any calls is intact (`SolverMemory.Reached.intact`).
-/

namespace StageQp

open Procedure

namespace SolveDesk

/-- The memory on the desk is intact. -/
def Intact (shapes : ShapePair) (d : SolveDesk IdentityMemory DenseMemory) : Prop :=
  d.memory.Intact shapes

variable {α : Type} {shapes : ShapePair}

/-- On the condensed program: the region of the strategy is put back as it was. -/
theorem keeps_onInput (overlay : Overlay) {act : Procedure (Desk QpInput) α}
    (h : ∀ region size, Keeps (Identity.Stays region size) act) :
    Keeps (Intact shapes) (onInput overlay act) := by
  intro d j hd
  obtain ⟨hregion, hsize⟩ := h (d.memory.layout.strategy.part d.memory.words)
    (d.memory.layout.input.part d.memory.words).size
    { record := ⟨d.memory.input, d.memory.layout.input.part d.memory.words⟩
      region := d.memory.layout.strategy.part d.memory.words
      work := overlay.strategy.part d.work } j ⟨rfl, rfl⟩
  rw [onInput, outcome_focus]
  dsimp only
  rw [hregion, Block.put_part]
  refine SolverMemory.Intact.put hd (by simp) (Nat.le_of_eq ?_)
  rw [hsize, Block.size_part hd.input_fits]

/-- On the condensed solution: the region and the record keep their sizes. -/
theorem keeps_onSolution (overlay : Overlay) {act : Procedure (Desk QpOutput) α}
    (h : ∀ regionSize recordSize, Keeps (Dense.Sizes regionSize recordSize) act) :
    Keeps (Intact shapes) (onSolution overlay act) := by
  intro d j hd
  obtain ⟨hregion, hsize⟩ := h (d.memory.layout.backend.part d.memory.words).size
    (d.memory.layout.output.part d.memory.words).size
    { record := ⟨d.memory.output, d.memory.layout.output.part d.memory.words⟩
      region := d.memory.layout.backend.part d.memory.words
      work := overlay.backend.part d.work } j ⟨rfl, rfl⟩
  rw [Block.size_part hd.backend_fits] at hregion
  rw [Block.size_part hd.output_fits] at hsize
  rw [onSolution, outcome_focus]
  have hput := SolverMemory.Intact.put hd (b := d.memory.layout.backend) (by simp)
    (Nat.le_of_eq hregion)
  exact SolverMemory.Intact.put hput (b := d.memory.layout.output) (by simp) (Nat.le_of_eq hsize)

/-- On the caller's solution: the region of the strategy is put back as it was. -/
theorem keeps_onOutput (overlay : Overlay) {act : Procedure (Desk QpOutput) α}
    (h : ∀ region size, Keeps (Identity.Stays region size) act) :
    Keeps (Intact shapes) (onOutput overlay act) := by
  intro d j hd
  obtain ⟨hregion, -⟩ := h (d.memory.layout.strategy.part d.memory.words) d.output.words.size
    { record := d.output
      region := d.memory.layout.strategy.part d.memory.words
      work := overlay.strategy.part d.work } j ⟨rfl, rfl⟩
  rw [onOutput, outcome_focus]
  dsimp only
  rw [hregion, Block.put_part]
  exact hd

end SolveDesk

namespace Solver

open SolveDesk

variable {shapes : ShapePair}

/-- The bundled modules keep the memory intact, whatever they are handed. -/
theorem carries_intact (env : Environment) (shapes : ShapePair) :
    (bundled env).Carries (Intact shapes) where
  condense _ qp _ _ := keeps_onInput _ fun _ _ => Identity.keeps_condense qp _
  solve _ _ _ _ _ := keeps_onSolution _ fun _ _ => Dense.keeps_evaluate _ _ _ _
  expand _ _ _ _ := keeps_onOutput _ fun _ _ => Identity.keeps_expand _ _ _
  account _ _ h := h

theorem keeps_beginSolve (env : Environment) (qp : QpInput) (so : IdentityOptions)
    (bo : DenseOptions) : Keeps (Intact shapes) (beginSolve (.bundled env) qp so bo) :=
  keeps_beginSolve_of _ (fun _ h => h) (SolverMemory.keeps_beginSolve shapes) (fun _ _ _ h => h)
    qp so bo

/-- A solve keeps the memory intact, however it ends. -/
theorem keeps_evaluate (env : Environment) (qp : QpInput) (options : OptionStore)
    (clock : Readings) : Keeps (Intact shapes) (evaluate (.bundled env) qp options clock) :=
  (carries_intact env shapes).evaluate (keeps_beginSolve env qp) options clock

theorem keeps_evaluateSensitivity (env : Environment) (qp : QpInput) (options : OptionStore) :
    Keeps (Intact shapes) (evaluateSensitivity (.bundled env) qp options) :=
  (carries_intact env shapes).evaluateSensitivity (keeps_beginSolve env qp) options

end Solver

namespace SolverMemory

/-- The memories for a pair of shapes that calls lead to, whatever the calls are handed. -/
inductive Reached (shapes : ShapePair) : SolverMemory IdentityMemory DenseMemory → Prop
  | assign {env : Environment} {so : IdentityOptions} {bo : DenseOptions} {words : Words}
      {j : Journal} {m : SolverMemory IdentityMemory DenseMemory} {s : Noted Unit}
      (h : outcome (assign (.bundled env) shapes so bo words) () j = (.ok m, s)) :
      Reached shapes m
  | evaluate {m : SolverMemory IdentityMemory DenseMemory} (hm : Reached shapes m)
      (env : Environment) (qp : QpInput) (options : OptionStore) (clock : Readings)
      (output : QpOutput) (work : Words) (j : Journal) :
      Reached shapes
        (outcome (Solver.evaluate (.bundled env) qp options clock)
          ⟨output, m, work⟩ j).2.value.memory
  | evaluateSensitivity {m : SolverMemory IdentityMemory DenseMemory} (hm : Reached shapes m)
      (env : Environment) (qp : QpInput) (options : OptionStore) (output : QpOutput)
      (work : Words) (j : Journal) :
      Reached shapes
        (outcome (Solver.evaluateSensitivity (.bundled env) qp options)
          ⟨output, m, work⟩ j).2.value.memory

/-- Memory that calls led to is intact. -/
theorem Reached.intact {shapes : ShapePair} {m : SolverMemory IdentityMemory DenseMemory}
    (h : Reached shapes m) : m.Intact shapes := by
  induction h with
  | assign h => exact (fresh_of_assign h).2.toIntact
  | evaluate hm env qp options clock output work j ih =>
      exact Solver.keeps_evaluate env qp options clock _ j ih
  | evaluateSensitivity hm env qp options output work j ih =>
      exact Solver.keeps_evaluateSensitivity env qp options _ j ih

end SolverMemory

end StageQp
