import StageQp.Proofs.Solver.OptionStore
import StageQp.Proofs.Solver.Solve

/-!
# StageQp.Proofs.Solver.Request

The calls that the bundled solver takes on an intact memory.  A request is a solve
or a sensitivity request, with a program and options; it passes its checks exactly
when there is nothing to refuse it with (`Request.begins_eq`), and what it leaves
follows from that (`outcome_refused`, `outcome_solve`, `outcome_sensitivity`).  There
is no fourth way to end (`ends`).
-/

namespace StageQp

open Procedure

/-- A solve or a sensitivity request, with what both are handed to read. -/
structure Request where
  env : Environment
  /-- A sensitivity is asked for, and not a solve. -/
  sensitivity : Bool
  qp : QpInput
  options : OptionStore
  qp_valid : qp.Valid
  options_readable : options.Readable

namespace Request

/-- The strategy's options. -/
def so (r : Request) : IdentityOptions := Record.get (r.options.strategy.part r.options.words) 0

/-- The backend's options. -/
def bo (r : Request) : DenseOptions := Record.get (r.options.backend.part r.options.words) 0

theorem so_eq (r : Request) : r.options.strategyOptions IdentityOptions = .ok r.so :=
  r.options_readable.strategyOptions_eq

theorem bo_eq (r : Request) : r.options.backendOptions DenseOptions = .ok r.bo :=
  r.options_readable.backendOptions_eq

/-- What the solver does; only a solve looks at the clock. -/
def procedure (r : Request) (clock : Readings) :
    Procedure (SolveDesk IdentityMemory DenseMemory) Status :=
  if r.sensitivity then Solver.evaluateSensitivity (.bundled r.env) r.qp r.options
  else Solver.evaluate (.bundled r.env) r.qp r.options clock

/-- What the solver does before it condenses. -/
def checks (r : Request) : Procedure (SolveDesk IdentityMemory DenseMemory) Unit := do
  let so ← check (r.options.strategyOptions IdentityOptions)
  let bo ← check (r.options.backendOptions DenseOptions)
  let _ ← Solver.beginSolve (.bundled r.env) r.qp so bo

/-- Whether the request passes its checks. -/
def begins (r : Request) (d : SolveDesk IdentityMemory DenseMemory) (j : Journal) : Bool :=
  (outcome r.checks d j).1.isOk

/-- The scratch that the request asks for on memory of a shape. -/
def scratchBytes (r : Request) (shape : Shape) : Nat :=
  Overlay.size (.bundled r.env) ⟨shape, shape⟩ r.so r.bo

/-- The fault that the request is refused with on memory of a shape. -/
def refusal? (r : Request) (shape : Shape) (d : SolveDesk IdentityMemory DenseMemory) :
    Option Fault := d.refusal? shape d.memory.layout (r.scratchBytes shape) r.qp

/-- However a request ends, an intact memory is intact afterwards. -/
theorem keeps_procedure (r : Request) (shapes : ShapePair) (clock : Readings) :
    Keeps (SolveDesk.Intact shapes) (r.procedure clock) := by
  refine .ite (fun _ => ?_) fun _ => ?_
  · exact Solver.keeps_evaluateSensitivity r.env r.qp r.options
  · exact Solver.keeps_evaluate r.env r.qp r.options clock

variable {r : Request} {shape : Shape} {d : SolveDesk IdentityMemory DenseMemory}
  (hd : d.memory.Intact ⟨shape, shape⟩)

include hd

theorem checksFirst : (Solver.bundled r.env).ChecksFirst ⟨shape, shape⟩ d.memory.layout r.qp
    r.options r.so r.bo d :=
  Solver.checksFirst_of_laid (.bundled r.env) hd.toLaid r.so_eq r.bo_eq r.qp

/-- A request begins exactly if there is nothing to refuse it with. -/
theorem begins_eq (j : Journal) : r.begins d j = (r.refusal? shape d).isNone := by
  have hbegin := Solver.outcome_beginSolve_of_laid (.bundled r.env) hd.toLaid r.qp r.so r.bo j
  rw [begins, refusal?]
  simp only [checks, outcome_bind, r.so_eq, r.bo_eq, outcome_check_ok]
  rw [hbegin, scratchBytes]
  cases d.refusal? shape d.memory.layout _ r.qp with
  | none => rfl
  | some f => rfl

/-- A request that is refused leaves everything as it was. -/
theorem outcome_refused {f : Fault} (h : r.refusal? shape d = some f) (clock : Readings)
    (j : Journal) : outcome (r.procedure clock) d j = (.error (.fault f), ⟨d, j⟩) := by
  rw [procedure]
  split
  · exact ((checksFirst hd).refused f h clock j).2
  · exact ((checksFirst hd).refused f h clock j).1

variable (hn : shape.horizon < 2 ^ 32) (h : r.refusal? shape d = none)

include hn h

/-- A sensitivity request that is not refused leaves a copy of its program. -/
theorem outcome_sensitivity (hr : r.sensitivity = true) (clock : Readings) (j : Journal) :
    ∃ (after : SolveDesk IdentityMemory DenseMemory) (j' : Journal),
      outcome (r.procedure clock) d j = (.error (.fault (.unsupported .sensitivity)), ⟨after, j'⟩) ∧
      Solver.Prepares d after ∧
      ∀ k field, (Solver.programIn after.memory).getD k field = r.qp.getD k field := by
  obtain ⟨⟨hqs, hs⟩, hw, -⟩ := SolveDesk.refusal?_eq_none_iff.1 h
  obtain ⟨after, hrun, hp, hfields⟩ := Solver.outcome_evaluateSensitivity hd hn r.qp_valid hqs hs
    r.so_eq r.bo_eq r.env hw j
  rw [procedure, hr]
  exact ⟨after, _, hrun, hp, hfields⟩

/-- A solve that is not refused gives the verdict of the backend. -/
theorem outcome_solve (hr : r.sensitivity = false) (hv : d.output.Valid) (clock : Readings)
    (j : Journal) :
    ∃ (after : SolveDesk IdentityMemory DenseMemory) (j' : Journal),
      outcome (r.procedure clock) d j = (.ok (Dense.verdict r.qp r.bo d.memory.backend
        (d.memory.layout.backend.part d.memory.words)), ⟨after, j'⟩) ∧
      Solver.Delivers r.qp (r.so.expandDuals != 0) r.bo d after := by
  obtain ⟨⟨hqs, hs⟩, hw, -⟩ := SolveDesk.refusal?_eq_none_iff.1 h
  rw [procedure, hr]
  exact Solver.outcome_evaluate hd hn r.qp_valid hqs hv hs r.so_eq r.bo_eq r.env hw clock j

omit hn h

/-- The ways that a request ends on memory that is intact: refused with everything as it
was, unsupported with a copy of its program in the memory, or with the verdict of the
backend. -/
inductive Ends (r : Request) (shape : Shape) (d : SolveDesk IdentityMemory DenseMemory)
    (clock : Readings) (j : Journal) : Prop
  | refused (f : Fault) (hbegins : r.begins d j = false)
      (hrun : outcome (r.procedure clock) d j = (.error (.fault f), ⟨d, j⟩))
  | unsupported (after : SolveDesk IdentityMemory DenseMemory) (j' : Journal)
      (hs : r.sensitivity = true) (hbegins : r.begins d j = true)
      (hrun : outcome (r.procedure clock) d j =
        (.error (.fault (.unsupported .sensitivity)), ⟨after, j'⟩))
      (hafter : after.memory.Intact ⟨shape, shape⟩) (hprepares : Solver.Prepares d after)
      (hprogram : ∀ k field, (Solver.programIn after.memory).getD k field = r.qp.getD k field)
  | solved (after : SolveDesk IdentityMemory DenseMemory) (j' : Journal)
      (hs : r.sensitivity = false) (hbegins : r.begins d j = true)
      (hrun : outcome (r.procedure clock) d j =
        (.ok (Dense.verdict r.qp r.bo d.memory.backend
          (d.memory.layout.backend.part d.memory.words)), ⟨after, j'⟩))
      (hafter : after.memory.Intact ⟨shape, shape⟩) (hqs : r.qp.shape = shape)
      (hdelivers : Solver.Delivers r.qp (r.so.expandDuals != 0) r.bo d after)

theorem ends (hn : shape.horizon < 2 ^ 32) (hv : d.output.Valid) (clock : Readings)
    (j : Journal) : r.Ends shape d clock j := by
  have hkeep := r.keeps_procedure ⟨shape, shape⟩ clock d j hd
  have hbegins := begins_eq (r := r) hd j
  cases hr : r.refusal? shape d with
  | some f =>
      rw [hr] at hbegins
      exact .refused f hbegins (outcome_refused hd hr clock j)
  | none =>
      rw [hr] at hbegins
      cases hs : r.sensitivity with
      | true =>
          obtain ⟨after, j', hrun, hprepares, hprogram⟩ :=
            outcome_sensitivity hd hn hr hs clock j
          rw [hrun] at hkeep
          exact .unsupported after j' hs hbegins hrun hkeep hprepares hprogram
      | false =>
          obtain ⟨after, j', hrun, hdelivers⟩ := outcome_solve hd hn hr hs hv clock j
          rw [hrun] at hkeep
          exact .solved after j' hs hbegins hrun hkeep
            (SolveDesk.refusal?_eq_none_iff.1 hr).1.1 hdelivers

end Request

end StageQp
