import StageQp.Proofs.Solver.Memory
import StageQp.Proofs.Solver.OptionStore

/-!
# StageQp.Proofs.Solver.Checks

What a solve checks before it touches anything.  The fault it is refused with is
found by looking at the shapes, at the scratch and at the words of the header, in
this order (`SolveDesk.refusal?`); with such a fault the desk stays as it is, and
without one the solve is counted and goes on to condense (`Solver.ChecksFirst`).

The bundled solver has no other fault to end with: from condensing on, a solve
refuses nothing (`Solver.refusesOnly_of_tabled`).
-/

namespace StageQp

open Procedure SolveDesk

variable {δ ο μ β ν : Type}

namespace SolveDesk

/-- The fault that a solve is refused with, on memory that lies like `layout` for
programs of one shape, when it asks for `total` bytes of scratch. -/
def refusal? (d : SolveDesk μ ν) (shape : Shape) (layout : MemoryLayout) (total : Nat)
    (qp : QpInput) : Option Fault :=
  if qp.shape ≠ shape ∨ d.output.shape ≠ shape then some (.invalidDimension (.notCarvedFor shape))
  else if Words.byteSize d.work < total then some (.bufferSize (Words.byteSize d.work) total)
  else (d.memory.flaw? layout).map .header

/-- The desk with one more solve counted. -/
def counted (d : SolveDesk μ ν) : SolveDesk μ ν := { d with memory := d.memory.counted }

/-- If all else is right, a flaw of the header is what a call is refused with. -/
theorem refusal?_eq_of_flaw (d : SolveDesk μ ν) {shape : Shape} {layout : MemoryLayout}
    {total : Nat} {qp : QpInput} {part : HeaderPart} (hqs : qp.shape = shape)
    (hs : d.output.shape = shape) (hw : total ≤ Words.byteSize d.work)
    (hf : d.memory.flaw? layout = some part) :
    d.refusal? shape layout total qp = some (.header part) := by
  rw [refusal?, if_neg (by simp [hqs, hs]), if_neg (Nat.not_lt.2 hw), hf, Option.map_some]

/-- Nothing is refused exactly if the shapes agree, the scratch is large enough and the
header has no flaw. -/
theorem refusal?_eq_none_iff {d : SolveDesk μ ν} {shape : Shape} {layout : MemoryLayout}
    {total : Nat} {qp : QpInput} : d.refusal? shape layout total qp = none ↔
      (qp.shape = shape ∧ d.output.shape = shape) ∧ total ≤ Words.byteSize d.work ∧
        d.memory.flaw? layout = none := by
  rw [refusal?]
  split
  · next h =>
      simp only [false_iff, not_and, reduceCtorEq]
      exact fun hs => absurd hs (by simpa [imp_iff_not_or] using h)
  · next h =>
      have hs : qp.shape = shape ∧ d.output.shape = shape := by simpa [not_or] using h
      split
      · next hw => simp only [reduceCtorEq, false_iff, not_and]; omega
      · next hw => simp [hs, Nat.not_lt.1 hw]

end SolveDesk

/-! ## Memory with any words in it -/

namespace SolverMemory

/-- The memory was laid out by a solver, and then any words were written to it. -/
def Overwritten (s : Solver δ ο μ β ν) (shapes : ShapePair) (so : ο) (bo : β)
    (m : SolverMemory μ ν) : Prop :=
  ∃ (fresh : Words) (j : Journal) (laid : SolverMemory μ ν) (t : Noted Unit),
    outcome (assign s shapes so bo fresh) () j = (.ok laid, t) ∧
      m.words.size = laid.words.size ∧ m = { laid with words := m.words }

namespace Overwritten

variable {s : Solver δ ο μ β ν} {shapes : ShapePair} {so : ο} {bo : β} {m : SolverMemory μ ν}

theorem laid (h : m.Overwritten s shapes so bo) : m.layout = (carve s shapes so bo).1 ∧
    m.Laid shapes (s.strategy.memorySize shapes so) (s.backend.memorySize shapes.condensed bo) := by
  obtain ⟨fresh, j, laid, t, hrun, hsize, heq⟩ := h
  obtain ⟨hlayout, hlaid⟩ := laid_of_assign hrun
  rw [heq]
  exact ⟨hlayout, hlaid.withWords hsize⟩

/-- The table of memory with any words in it is that of fresh memory. -/
theorem tabled {env : Environment} {so : IdentityOptions} {bo : DenseOptions}
    {m : SolverMemory IdentityMemory DenseMemory}
    (h : m.Overwritten (.bundled env) shapes so bo) : m.Tabled shapes := by
  obtain ⟨fresh, j, laid, t, hrun, hsize, heq⟩ := h
  obtain ⟨-, hi⟩ := fresh_of_assign hrun
  rw [heq]
  exact hi.withWords hsize

end Overwritten

end SolverMemory

namespace Solver

/-! ## Before the solve is counted -/

/-- Whatever its modules, a solver counts a solve unless there is a fault to refuse it with. -/
theorem outcome_beginSolve_of_laid (s : Solver δ ο μ β ν) {shapes : ShapePair}
    {strategyBytes backendBytes : Nat} {d : SolveDesk μ ν}
    (hd : d.memory.Laid shapes strategyBytes backendBytes) (qp : QpInput) (so : ο) (bo : β)
    (j : Journal) :
    outcome (s.beginSolve qp so bo) d j =
      match d.refusal? shapes.full d.memory.layout (Overlay.size s shapes so bo) qp with
      | none => (.ok (d.memory.word 2 + 1, (Overlay.divide s shapes so bo).1), ⟨d.counted, j⟩)
      | some f => (.error (.fault f), ⟨d, j⟩) := by
  by_cases hs : qp.shape ≠ shapes.full ∨ d.output.shape ≠ shapes.full
  · have hshapes : d.memory.checkShapes qp.shape d.output.shape =
        .error (.invalidDimension (.notCarvedFor shapes.full)) := by
      rw [SolverMemory.checkShapes, hd.full_eq, if_pos hs]
    simp only [refusal?, if_pos hs, beginSolve, outcome_bind, outcome_fetch, hshapes,
      outcome_check_error]
  have hshapes : d.memory.checkShapes qp.shape d.output.shape = .ok () := by
    rw [SolverMemory.checkShapes, hd.full_eq, if_neg hs]
  by_cases hw : Words.byteSize d.work < Overlay.size s shapes so bo
  · simp only [refusal?, if_neg hs, if_pos hw, beginSolve, outcome_bind, outcome_fetch, hshapes,
      outcome_check_ok, hd.shapes_eq, Overlay.outcome_carve,
      Overlay.check_divide_of_lt s shapes so bo hw, outcome_check_error]
  have hwork := (Overlay.check_divide_eq_ok_iff s shapes so bo d.work).2 (Nat.not_lt.1 hw)
  have hbegin := hd.outcome_beginSolve j
  cases hf : d.memory.flaw? d.memory.layout with
  | none =>
      rw [hf] at hbegin
      simp only [refusal?, if_neg hs, if_neg hw, hf, Option.map_none, beginSolve, outcome_bind,
        outcome_fetch, hshapes, outcome_check_ok, hd.shapes_eq, Overlay.outcome_carve, hwork,
        outcome_focus, hbegin, outcome_pure, counted]
  | some part =>
      rw [hf] at hbegin
      simp only [refusal?, if_neg hs, if_neg hw, hf, Option.map_some, beginSolve, outcome_bind,
        outcome_fetch, hshapes, outcome_check_ok, hd.shapes_eq, Overlay.outcome_carve, hwork,
        outcome_focus, hbegin]

/-! ## Once it is counted -/

/-- What a solve does with the condensed program; `memory` has the tables. -/
def solveCondensed (s : Solver δ ο μ β ν) (so : ο) (bo : β) (clock : Readings) (solve : UInt64)
    (overlay : Overlay) (memory : SolverMemory μ ν) : Procedure (SolveDesk μ ν) Status := do
  let condensed := StageData.mk memory.input (memory.layout.input.part (← fetch).memory.words)
  let status ← onSolution overlay (s.backend.evaluate condensed bo memory.backend clock.backend)
  unless status.isSuccess do
    note (.backendVerdict status solve)
  s.deliver so overlay clock solve status
  return status

/-- What a sensitivity request does with the condensed program. -/
def refuseCondensed : Procedure (SolveDesk μ ν) Status := do
  note .sensitivityRequested
  fail (.unsupported .sensitivity)

/-- A solve that is counted condenses the program and goes on with that. -/
def proceed (s : Solver δ ο μ β ν) (qp : QpInput) (so : ο) (overlay : Overlay)
    (next : SolverMemory μ ν → Procedure (SolveDesk μ ν) Status) :
    Procedure (SolveDesk μ ν) Status := do
  let memory := (← fetch).memory
  onInput overlay (s.strategy.condense qp so memory.strategy)
  next memory

/-! ## What is kept all the way -/

/-- Whatever the modules do with their parts of the desk keeps a property of it, and so
does the account that the caller gets. -/
structure Carries (s : Solver δ ο μ β ν) (P : SolveDesk μ ν → Prop) : Prop where
  condense (overlay : Overlay) (qp : QpInput) (so : ο) (memory : μ) :
    Keeps P (onInput overlay (s.strategy.condense qp so memory))
  solve (overlay : Overlay) (qp : QpInput) (bo : β) (memory : ν) (clock : BackendReadings) :
    Keeps P (onSolution overlay (s.backend.evaluate qp bo memory clock))
  expand (overlay : Overlay) (condensed : QpOutput) (so : ο) (memory : μ) :
    Keeps P (onOutput overlay (s.strategy.expand condensed so memory))
  account (d : SolveDesk μ ν) (info : SolveInfo) (h : P d) :
    P { d with output := d.output.setInfo info }

namespace Carries

variable {s : Solver δ ο μ β ν} {P : SolveDesk μ ν → Prop}

theorem deliver (h : s.Carries P) (so : ο) (overlay : Overlay) (clock : Readings)
    (solve : UInt64) (status : Status) : Keeps P (s.deliver so overlay clock solve status) :=
  .fetch_bind fun _ _ => .bind (h.expand _ _ _ _) fun _ => .bind (.need _) fun _ =>
    .bind (.update fun d hd => h.account d _ hd) fun _ => .bind (.need _) fun _ =>
    .ite (fun _ => .note _) fun _ => .pure _

theorem solveCondensed (h : s.Carries P) (so : ο) (bo : β) (clock : Readings) (solve : UInt64)
    (overlay : Overlay) (memory : SolverMemory μ ν) :
    Keeps P (s.solveCondensed so bo clock solve overlay memory) := by
  refine .fetch_bind fun _ _ => .bind (h.solve _ _ _ _ _) fun status => ?_
  have hrest : Keeps P (s.deliver so overlay clock solve status >>= fun _ => pure status) :=
    .bind (h.deliver so overlay clock solve status) fun _ => .pure _
  exact .ite (fun _ => hrest) fun _ => .bind (.note _) fun _ => hrest

/-- Condensing keeps the property, and so does what comes after it. -/
theorem proceed (h : s.Carries P) (qp : QpInput) (so : ο) (overlay : Overlay)
    {next : SolverMemory μ ν → Procedure (SolveDesk μ ν) Status}
    (hnext : ∀ memory, Keeps P (next memory)) : Keeps P (s.proceed qp so overlay next) :=
  .fetch_bind fun d _ => .bind (h.condense _ _ _ _) fun _ => hnext d.memory

theorem refuseCondensed : Keeps P (refuseCondensed (μ := μ) (ν := ν)) :=
  .bind (.note _) fun _ => .fail _

end Carries

/-- The checks keep what counting in the memory keeps. -/
theorem keeps_beginSolve_of (s : Solver δ ο μ β ν) {P : SolveDesk μ ν → Prop}
    {Q : SolverMemory μ ν → Prop} (hmemory : ∀ d, P d → Q d.memory)
    (hbegin : Keeps Q SolverMemory.beginSolve)
    (hput : ∀ d memory, P d → Q memory → P { d with memory }) (qp : QpInput) (so : ο) (bo : β) :
    Keeps P (s.beginSolve qp so bo) := by
  have hcarve (pair : ShapePair) : Keeps P (Overlay.carve s pair so bo) :=
    .bind (.finish _ _ _) fun _ => .pure _
  exact .fetch_bind fun _ _ => .bind (.check _) fun _ => .bind (hcarve _) fun _ =>
    .bind (.check _) fun _ => .bind (.focus hmemory hbegin hput) fun _ => .pure _

variable [Record ο] [Record β]

/-- A solve is its checks, and then the rest. -/
theorem evaluate_eq (s : Solver δ ο μ β ν) (qp : QpInput) (options : OptionStore)
    (clock : Readings) : s.evaluate qp options clock = (do
      let so ← check (options.strategyOptions ο)
      let bo ← check (options.backendOptions β)
      let (solve, overlay) ← s.beginSolve qp so bo
      s.proceed qp so overlay (s.solveCondensed so bo clock solve overlay)) := rfl

theorem evaluateSensitivity_eq (s : Solver δ ο μ β ν) (qp : QpInput) (options : OptionStore) :
    s.evaluateSensitivity qp options = (do
      let so ← check (options.strategyOptions ο)
      let bo ← check (options.backendOptions β)
      let (_, overlay) ← s.beginSolve qp so bo
      s.proceed qp so overlay fun _ => refuseCondensed) := rfl

namespace Carries

variable {s : Solver δ ο μ β ν} {P : SolveDesk μ ν → Prop} {qp : QpInput}

/-- A solve keeps what its checks keep, too. -/
theorem evaluate (h : s.Carries P) (hbegin : ∀ so bo, Keeps P (s.beginSolve qp so bo))
    (options : OptionStore) (clock : Readings) : Keeps P (s.evaluate qp options clock) := by
  rw [evaluate_eq]
  exact .bind (.check _) fun so => .bind (.check _) fun bo => .bind (hbegin so bo) fun _ =>
    h.proceed _ _ _ fun _ => h.solveCondensed _ _ _ _ _ _

theorem evaluateSensitivity (h : s.Carries P)
    (hbegin : ∀ so bo, Keeps P (s.beginSolve qp so bo)) (options : OptionStore) :
    Keeps P (s.evaluateSensitivity qp options) := by
  rw [evaluateSensitivity_eq]
  exact .bind (.check _) fun so => .bind (.check _) fun bo => .bind (hbegin so bo) fun _ =>
    h.proceed _ _ _ fun _ => refuseCondensed

end Carries

/-! ## Both kinds of call -/

/-- A solve and a sensitivity request end with a fault that there is to refuse them
with, and leave everything as it was; else they count, and go on to condense. -/
structure ChecksFirst (s : Solver δ ο μ β ν) (shapes : ShapePair) (layout : MemoryLayout)
    (qp : QpInput) (options : OptionStore) (so : ο) (bo : β) (d : SolveDesk μ ν) : Prop where
  refused (f : Fault)
    (h : d.refusal? shapes.full layout (Overlay.size s shapes so bo) qp = some f)
    (clock : Readings) (j : Journal) :
    outcome (s.evaluate qp options clock) d j = (.error (.fault f), ⟨d, j⟩) ∧
      outcome (s.evaluateSensitivity qp options) d j = (.error (.fault f), ⟨d, j⟩)
  begun (h : d.refusal? shapes.full layout (Overlay.size s shapes so bo) qp = none)
    (clock : Readings) (j : Journal) :
    let overlay := (Overlay.divide s shapes so bo).1
    outcome (s.evaluate qp options clock) d j =
        outcome (s.proceed qp so overlay
          (s.solveCondensed so bo clock (d.memory.word 2 + 1) overlay)) d.counted j ∧
      outcome (s.evaluateSensitivity qp options) d j =
        outcome (s.proceed qp so overlay fun _ => refuseCondensed) d.counted j

/-- Memory that was laid out is all that the checks take. -/
theorem checksFirst_of_laid (s : Solver δ ο μ β ν) {shapes : ShapePair}
    {strategyBytes backendBytes : Nat} {d : SolveDesk μ ν}
    (hd : d.memory.Laid shapes strategyBytes backendBytes) {options : OptionStore} {so : ο} {bo : β}
    (hso : options.strategyOptions ο = .ok so) (hbo : options.backendOptions β = .ok bo)
    (qp : QpInput) : s.ChecksFirst shapes d.memory.layout qp options so bo d where
  refused f h clock j := by
    have hbegin := s.outcome_beginSolve_of_laid hd qp so bo j
    rw [h] at hbegin
    constructor
    · rw [evaluate_eq]
      simp only [outcome_bind, hso, hbo, outcome_check_ok, hbegin]
    · rw [evaluateSensitivity_eq]
      simp only [outcome_bind, hso, hbo, outcome_check_ok, hbegin]
  begun h clock j := by
    have hbegin := s.outcome_beginSolve_of_laid hd qp so bo j
    rw [h] at hbegin
    constructor
    · rw [evaluate_eq]
      simp only [outcome_bind, hso, hbo, outcome_check_ok, hbegin]
    · rw [evaluateSensitivity_eq]
      simp only [outcome_bind, hso, hbo, outcome_check_ok, hbegin]

end Solver

/-! ## The bundled solver -/

/-- The backend's part of enough scratch is enough for its system. -/
theorem Overlay.byteSize_backend_part {env : Environment} {shapes : ShapePair}
    {so : IdentityOptions} {bo : DenseOptions} {work : Words}
    (h : size (.bundled env) shapes so bo ≤ Words.byteSize work) :
    (DenseScratch.ofOrder shapes.condensed.order).total ≤
      Words.byteSize ((divide (.bundled env) shapes so bo).1.backend.part work) := by
  have hfits : (divide (.bundled env) shapes so bo).1.backend.Fits work :=
    (spaced_divide _ _ so bo h).fits (by simp)
  rw [Block.byteSize_part hfits]
  exact le_alignUp _

/-- The memory lies as the modules made it, the caller's record has the shape, and there
are so many bytes of scratch. -/
structure SolveDesk.Handed (shape : Shape) (bytes : Nat)
    (d : SolveDesk IdentityMemory DenseMemory) : Prop where
  tabled : d.memory.Tabled ⟨shape, shape⟩
  shape_eq : d.output.shape = shape
  work_le : bytes ≤ Words.byteSize d.work

namespace Solver

variable {F : Fault → Prop} {shape : Shape} {bytes : Nat}

theorem keeps_onInput_handed {α : Type} (overlay : Overlay) (act : Procedure (Desk QpInput) α) :
    Keeps (Handed shape bytes) (onInput overlay act) := by
  intro d j h
  rw [onInput, outcome_focus]
  exact ⟨h.tabled.withWords (by simp), h.shape_eq, by simpa [Words.byteSize] using h.work_le⟩

theorem keeps_onSolution_handed {α : Type} (overlay : Overlay)
    (act : Procedure (Desk QpOutput) α) : Keeps (Handed shape bytes) (onSolution overlay act) := by
  intro d j h
  rw [onSolution, outcome_focus]
  exact ⟨h.tabled.withWords (by simp), h.shape_eq, by simpa [Words.byteSize] using h.work_le⟩

/-- Nor does handing out the solution have any. -/
theorem onlyFaults_deliver (env : Environment) (so : IdentityOptions) (overlay : Overlay)
    (clock : Readings) (solve : UInt64) (status : Status) :
    OnlyFaults F (Handed shape bytes) (deliver (.bundled env) so overlay clock solve status) := by
  refine .fetch_bind fun d h => .bind_any ?_ fun _ => .bind_any (.need _) fun _ =>
    .bind_any (.update _) fun _ => .bind_any (.need _) fun _ =>
    .ite (fun _ => .note _) fun _ => .pure _
  have hexpand := Identity.onlyFaults_expand F
    ⟨d.memory.output, d.memory.layout.output.part d.memory.words⟩ so (shape.horizon + 1)
  rw [← h.tabled.strategy_eq] at hexpand
  refine .focus (fun e he => ⟨?_, ?_⟩) hexpand
  · show e.output.shape = d.memory.output.shape
    exact he.shape_eq.trans h.tabled.output_shape.symm
  · show Words.byteSize (e.memory.layout.strategy.part e.memory.words) = _
    rw [Block.byteSize_part he.tabled.strategy_fits, he.tabled.strategy_span]
    exact alignUp_alignUp _

/-- Once a program is condensed there is no fault left for a solve to have. -/
theorem onlyFaults_solveCondensed (env : Environment) (so : IdentityOptions) (bo : DenseOptions)
    (clock : Readings) (solve : UInt64) {memory : SolverMemory IdentityMemory DenseMemory}
    (hm : memory.Tabled ⟨shape, shape⟩)
    (hb : Overlay.size (.bundled env) ⟨shape, shape⟩ so bo ≤ bytes) :
    OnlyFaults F (Handed shape bytes) (solveCondensed (.bundled env) so bo clock solve
      (Overlay.divide (.bundled env) ⟨shape, shape⟩ so bo).1 memory) := by
  refine .fetch_bind fun d _ => .bind (.of_outcome fun e j he => ?_)
    (keeps_onSolution_handed _ _) fun status => ?_
  · have hprogram : StageData.shape
        (⟨memory.input, memory.layout.input.part d.memory.words⟩ : QpInput) = shape :=
      hm.input_shape
    have hready := he.tabled.ready hprogram he.tabled.output_valid he.tabled.output_shape
      (Overlay.byteSize_backend_part (Nat.le_trans hb he.work_le))
    rw [he.tabled.backend_eq, ← hm.backend_eq] at hready
    obtain ⟨after, j', hrun, -⟩ := Dense.outcome_evaluate (o := bo) hready clock.backend j
    rw [onSolution, outcome_focus]
    exact ⟨_, _, by rw [show outcome ((bundled env).backend.evaluate _ bo memory.backend
      clock.backend) _ j = _ from hrun]⟩
  · have hdeliver (overlay : Overlay) : OnlyFaults F (Handed shape bytes)
        (deliver (.bundled env) so overlay clock solve status >>= fun _ => pure status) :=
      .bind_any (onlyFaults_deliver env so overlay clock solve status) fun _ => .pure _
    exact .ite (fun _ => hdeliver _) fun _ => .bind (.note _) (Keeps.note _) fun _ => hdeliver _

theorem onlyFaults_refuseCondensed {P : SolveDesk IdentityMemory DenseMemory → Prop} :
    OnlyFaults (· = .unsupported .sensitivity) P refuseCondensed :=
  .bind_any (.note _) fun _ => .fail rfl

/-- Condensing a program of the shape is not refused, and what follows finds the desk as
it was handed over. -/
theorem onlyFaults_proceed (env : Environment) {qp : QpInput} (hqs : qp.shape = shape)
    (so : IdentityOptions) (overlay : Overlay)
    {next : SolverMemory IdentityMemory DenseMemory →
      Procedure (SolveDesk IdentityMemory DenseMemory) Status}
    (hn : ∀ memory, memory.Tabled ⟨shape, shape⟩ →
      OnlyFaults F (Handed shape bytes) (next memory)) :
    OnlyFaults F (Handed shape bytes) (proceed (.bundled env) qp so overlay next) := by
  refine .fetch_bind fun d h => .bind ?_ (keeps_onInput_handed _ _) fun _ =>
    hn d.memory h.tabled
  have hcondense := Identity.onlyFaults_condense F qp (shape.horizon + 1)
  rw [← h.tabled.strategy_eq] at hcondense
  refine .focus (fun e he => ⟨?_, ?_⟩) hcondense
  · exact he.tabled.input_shape.trans hqs.symm
  · show Words.byteSize (e.memory.layout.strategy.part e.memory.words) = _
    rw [Block.byteSize_part he.tabled.strategy_fits, he.tabled.strategy_span]
    exact alignUp_alignUp _

/-- A solve and a sensitivity request end with a fault exactly when there is one to
refuse them with; but a sensitivity request that is not refused is not supported. -/
structure RefusesOnly [Record ο] [Record β] (s : Solver δ ο μ β ν) (qp : QpInput)
    (options : OptionStore) (d : SolveDesk μ ν) (refusal? : Option Fault) : Prop where
  evaluate_iff (clock : Readings) (j : Journal) (f : Fault) :
    (∃ t, outcome (s.evaluate qp options clock) d j = (.error (.fault f), t)) ↔
      refusal? = some f
  sensitivity_iff (j : Journal) (f : Fault) (h : f ≠ .unsupported .sensitivity) :
    (∃ t, outcome (s.evaluateSensitivity qp options) d j = (.error (.fault f), t)) ↔
      refusal? = some f

/-- The bundled solver has no fault but those of the checks. -/
theorem refusesOnly_of_tabled (env : Environment) {d : SolveDesk IdentityMemory DenseMemory}
    (hd : d.memory.Tabled ⟨shape, shape⟩) {options : OptionStore} {so : IdentityOptions}
    {bo : DenseOptions} (hso : options.strategyOptions IdentityOptions = .ok so)
    (hbo : options.backendOptions DenseOptions = .ok bo) (qp : QpInput) :
    RefusesOnly (.bundled env) qp options d (d.refusal? shape d.memory.layout
      (Overlay.size (.bundled env) ⟨shape, shape⟩ so bo) qp) := by
  have hfirst := checksFirst_of_laid (.bundled env) hd.toLaid hso hbo qp
  cases hr : d.refusal? shape d.memory.layout
      (Overlay.size (.bundled env) ⟨shape, shape⟩ so bo) qp with
  | some f =>
      refine ⟨fun clock j g => ?_, fun j g _ => ?_⟩
      · rw [(hfirst.refused f hr clock j).1]
        simp
      · rw [(hfirst.refused f hr {} j).2]
        simp
  | none =>
      obtain ⟨⟨hqs, hs⟩, hw, -⟩ := refusal?_eq_none_iff.1 hr
      have hhanded : d.counted.Handed shape
          (Overlay.size (.bundled env) ⟨shape, shape⟩ so bo) :=
        ⟨hd.withWords (by simp), hs, hw⟩
      refine ⟨fun clock j g => ?_, fun j g hg => ?_⟩
      · rw [(hfirst.begun hr clock j).1]
        have honly := onlyFaults_proceed (F := fun _ => False) env hqs so
          (Overlay.divide (.bundled env) ⟨shape, shape⟩ so bo).1
          fun memory hm => onlyFaults_solveCondensed env so bo clock (d.memory.word 2 + 1) hm
            (Nat.le_refl _)
        simp only [reduceCtorEq, iff_false, not_exists]
        exact fun t ht => honly d.counted j hhanded g (congrArg Prod.fst ht)
      · rw [(hfirst.begun hr {} j).2]
        simp only [reduceCtorEq, iff_false, not_exists]
        exact fun t ht => hg (onlyFaults_proceed env hqs so _
          (fun _ _ => onlyFaults_refuseCondensed) d.counted j hhanded g (congrArg Prod.fst ht))

end Solver

/-- Every solver checks exactly the shapes of the records, the size of the scratch and
the header of its memory, in this order, whatever words were written to the memory
and whatever the records and the scratch hold.  A call that fails a check changes
nothing; one that passes them adds one to the epoch (modulo `2 ^ 64`) and condenses.
The bundled solver ends with no other fault. -/
theorem checks_exact :
    (∀ {δ ο μ β ν : Type} [Record ο] [Record β] (s : Solver δ ο μ β ν) (shapes : ShapePair)
      (so₀ so : ο) (bo₀ bo : β) (options : OptionStore) (d : SolveDesk μ ν) (qp : QpInput),
      options.strategyOptions ο = .ok so → options.backendOptions β = .ok bo →
      d.memory.Overwritten s shapes so₀ bo₀ →
      s.ChecksFirst shapes (SolverMemory.carve s shapes so₀ bo₀).1 qp options so bo d) ∧
    ∀ (env : Environment) (shape : Shape) (so₀ so : IdentityOptions) (bo₀ bo : DenseOptions)
      (options : OptionStore) (d : SolveDesk IdentityMemory DenseMemory) (qp : QpInput),
      options.strategyOptions IdentityOptions = .ok so →
      options.backendOptions DenseOptions = .ok bo →
      d.memory.Overwritten (.bundled env) ⟨shape, shape⟩ so₀ bo₀ →
      (Solver.bundled env).RefusesOnly qp options d
        (d.refusal? shape (SolverMemory.carve (.bundled env) ⟨shape, shape⟩ so₀ bo₀).1
          (Overlay.size (.bundled env) ⟨shape, shape⟩ so bo) qp) := by
  constructor
  · intro δ ο μ β ν _ _ s shapes so₀ so bo₀ bo options d qp hso hbo hd
    obtain ⟨hlayout, hlaid⟩ := hd.laid
    rw [← hlayout]
    exact s.checksFirst_of_laid hlaid hso hbo qp
  · intro env shape so₀ so bo₀ bo options d qp hso hbo hd
    rw [← hd.laid.1]
    exact Solver.refusesOnly_of_tabled env hd.tabled hso hbo qp

/-- Over an empty stage and one with a state, memory with all its words set to zero is
refused by its tag. -/
theorem checks_exact_zeroedWords :
    ∃ (options : OptionStore) (so : IdentityOptions) (bo : DenseOptions)
      (d : SolveDesk IdentityMemory DenseMemory),
      options.strategyOptions IdentityOptions = .ok so ∧
      options.backendOptions DenseOptions = .ok bo ∧
      d.memory.Overwritten (.bundled {}) ⟨.lateState, .lateState⟩ ⟨0, 0⟩ ⟨0, 0, 0, 0⟩ ∧
      outcome ((Solver.bundled {}).evaluate (StageData.blank InputField .lateState) options {})
        d {} = (.error (.fault (.header .tag)), ⟨d, {}⟩) ∧
      (Solver.bundled {}).RefusesOnly (StageData.blank InputField .lateState) options d
        (some (.header .tag)) := by
  obtain ⟨fresh, j₀, hassign⟩ := SolverMemory.exists_assign {} ⟨.lateState, .lateState⟩ ⟨0, 0⟩
    ⟨0, 0, 0, 0⟩
  let options : OptionStore := .zeroed
  have hso := OptionStore.readable_zeroed.strategyOptions_eq
  have hbo := OptionStore.readable_zeroed.backendOptions_eq
  let zero : SolverMemory IdentityMemory DenseMemory :=
    { fresh with words := .replicate fresh.words.size 0 }
  have hzero : zero.Overwritten (.bundled {}) ⟨.lateState, .lateState⟩ ⟨0, 0⟩ ⟨0, 0, 0, 0⟩ :=
    ⟨_, _, fresh, _, hassign, by simp [zero], rfl⟩
  have hword (i : Nat) : zero.word i = 0 := by
    simp only [SolverMemory.word, zero, Array.getD_eq_getD_getElem?, Array.getElem?_replicate]
    split <;> rfl
  let d : SolveDesk IdentityMemory DenseMemory :=
    ⟨StageData.blank OutputField .lateState, zero,
      .zeroed (Overlay.size (.bundled {}) ⟨.lateState, .lateState⟩ ⟨0, 0⟩ ⟨0, 0, 0, 0⟩)⟩
  have hflaw : d.memory.flaw? (SolverMemory.carve (.bundled {}) ⟨.lateState, .lateState⟩ ⟨0, 0⟩
      ⟨0, 0, 0, 0⟩).1 = some .tag := by
    have htag : (0 : UInt64) ≠ SolverMemory.tag := by decide +kernel
    rw [SolverMemory.flaw?, RecordHeader.flaw?, if_neg, if_pos]
    · rw [hword]
      exact htag
    · intro h
      have h0 := h 0 (by decide) (by decide)
      rw [hword] at h0
      exact htag h0
  have hwork := (Overlay.divide_exact (.bundled {}) ⟨.lateState, .lateState⟩ (Record.get
    (options.strategy.part options.words) 0) (Record.get (options.backend.part options.words)
    0)).byteSize_zeroed
  have hrefusal : d.refusal? .lateState _ _ (StageData.blank InputField .lateState) =
      some (.header .tag) := d.refusal?_eq_of_flaw rfl rfl (Nat.le_of_eq hwork.symm) hflaw
  obtain ⟨hfirst, honly⟩ := checks_exact
  have hfirst := hfirst (.bundled {}) ⟨.lateState, .lateState⟩ ⟨0, 0⟩ _ ⟨0, 0, 0, 0⟩ _ options d
    (StageData.blank InputField .lateState) hso hbo hzero
  have honly := honly {} .lateState ⟨0, 0⟩ _ ⟨0, 0, 0, 0⟩ _ options d
    (StageData.blank InputField .lateState) hso hbo hzero
  rw [hrefusal] at honly
  exact ⟨options, _, _, d, hso, hbo, hzero, (hfirst.refused _ hrefusal {} {}).1, honly⟩

end StageQp
