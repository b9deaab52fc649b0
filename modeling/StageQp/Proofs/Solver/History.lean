import Mathlib.Data.List.Basic
import StageQp.Probe.Strategy
import StageQp.Proofs.Shape.Record
import StageQp.Proofs.Solver.Agreement
import StageQp.Proofs.Solver.Equipped
import StageQp.Proofs.Solver.Request

/-!
# StageQp.Proofs.Solver.History

What the memory of a solver says about the calls it went through.  A history keeps
the programs of the calls that were begun and the verdicts of the solves; after any
calls the memory accounts for its history (`accounts_after`): it holds
the last of the programs, counts the successes since the last other verdict, and,
if there are any, keeps the solution that it handed out last.

One call is followed by `Tracks.step`, any number of them by induction on the list.

A memory for a horizon that the map of stages cannot hold does not account for its history
from the start, nor does one that is used with a strategy that refuses to expand
(`accounts_not_kept`).
-/

namespace StageQp

open Procedure
open StageFields (EntryOf)

/-! ## Calls and their history -/

/-- A request with what it is handed to write. -/
structure Call extends Request where
  clock : Readings
  output : QpOutput
  output_valid : output.Valid
  work : Words
  journal : Journal

namespace Call

def desk (c : Call) (m : SolverMemory IdentityMemory DenseMemory) :
    SolveDesk IdentityMemory DenseMemory := ⟨c.output, m, c.work⟩

def run (c : Call) (m : SolverMemory IdentityMemory DenseMemory) :
    Except Stop Status × Noted (SolveDesk IdentityMemory DenseMemory) :=
  outcome (c.procedure c.clock) (c.desk m) c.journal

/-- However a call ends, an intact memory is intact afterwards. -/
theorem intact_run {shapes : ShapePair} {m : SolverMemory IdentityMemory DenseMemory}
    (hm : m.Intact shapes) (c : Call) : (c.run m).2.value.memory.Intact shapes :=
  c.keeps_procedure shapes c.clock (c.desk m) c.journal hm

end Call

/-- What happened to a memory, the last first. -/
structure History where
  /-- The programs of the calls that passed their checks. -/
  programs : List QpInput := []
  /-- The verdicts of the solves that gave one. -/
  verdicts : List Status := []

namespace History

/-- The successes since the last other verdict. -/
def successes (h : History) : Nat := (h.verdicts.takeWhile (· == .success)).length

/-- A field of the last program, zero if there was none. -/
def field (h : History) (shape : Shape) (k : Nat) (field : InputField) : Array (EntryOf field) :=
  match h.programs with
  | [] => .replicate (InputField.count shape k field) (StageFields.kind field).zero
  | qp :: _ => qp.getD k field

/-- The history after a call on a memory. -/
def after (h : History) (c : Call) (m : SolverMemory IdentityMemory DenseMemory) : History where
  programs := if c.begins (c.desk m) c.journal then c.qp :: h.programs else h.programs
  verdicts :=
    match c.sensitivity, (c.run m).1 with
    | false, .ok status => status :: h.verdicts
    | _, _ => h.verdicts

/-- A success is counted, and any other verdict starts the count anew. -/
theorem successes_cons (h : History) (programs : List QpInput) (status : Status) :
    successes ⟨programs, status :: h.verdicts⟩ =
      if status = .success then h.successes + 1 else 0 := by
  by_cases hs : status = .success <;> simp [successes, hs]

end History

/-- A memory and its history, one call later. -/
def Call.step (s : SolverMemory IdentityMemory DenseMemory × History) (c : Call) :
    SolverMemory IdentityMemory DenseMemory × History :=
  ((c.run s.1).2.value.memory, s.2.after c s.1)

/-! ## What one call preserves -/

/-- The variables of all stages of a solution, and behind them the multipliers of the
dynamics of all stages. -/
def StageData.stacked (d : QpOutput) : List Binary64 :=
  ((List.range (d.shape.horizon + 1)).flatMap fun k => (d.getD k .ux).toList) ++
    (List.range (d.shape.horizon + 1)).flatMap fun k => (d.getD k .pi).toList

namespace SolverMemory

open Solver

/-- The intact memory tells its history. -/
structure Tracks (shape : Shape) (h : History)
    (m : SolverMemory IdentityMemory DenseMemory) : Prop extends Intact ⟨shape, shape⟩ m where
  program_eq (k : Nat) (hk : k ≤ shape.horizon) (field : InputField) :
    (programIn m).getD k field = h.field shape k field
  solves_eq : (m.backend.stateOf (backendIn m)).solves = UInt64.ofNat h.successes
  /-- A program with inequalities never gets as far as the count. -/
  solves_eq_zero (hc : shape.isConstrained = true) :
    (m.backend.stateOf (backendIn m)).solves = 0
  kept (hs : (m.backend.stateOf (backendIn m)).solves ≠ 0) :
    (∀ x ∈ m.backend.solutionOf (backendIn m), x.isFinite = true) ∧
      (m.backend.solutionOf (backendIn m)).toList = (solutionIn m).stacked

variable {shape : Shape} {h : History} {m : SolverMemory IdentityMemory DenseMemory}

/-- Fresh memory has no history. -/
theorem Fresh.tracks (hm : m.Fresh ⟨shape, shape⟩) : m.Tracks shape {} := by
  have hzero : (m.backend.stateOf (backendIn m)).solves = 0 := hm.solves_eq_zero
  refine { hm.toIntact with
    program_eq := fun k hk field => ?_
    solves_eq := hzero
    solves_eq_zero := fun _ => hzero
    kept := fun hs => absurd hzero hs }
  have hshape : (programIn m).shape = shape := hm.input_shape
  have h := StageData.getD_zeroed (d := programIn m) hm.input_valid (hm.part_eq (by simp))
    (hshape.symm ▸ hk) field
  rw [hshape] at h
  exact h

/-- What was prepared for the backend has the program in it, and all else as before. -/
theorem Tracks.prepared (hm : m.Tracks shape h) {d after : SolveDesk IdentityMemory DenseMemory}
    (hd : d.memory = m) (hi : after.memory.Intact ⟨shape, shape⟩) (hp : Prepares d after)
    {qp : QpInput} (hq : ∀ k field, (programIn after.memory).getD k field = qp.getD k field) :
    after.memory.Tracks shape { h with programs := qp :: h.programs } := by
  subst hd
  have hstate : after.memory.backend.stateOf (backendIn after.memory) =
      d.memory.backend.stateOf (backendIn d.memory) := by rw [hp.backend_eq, hp.backendIn_eq]
  refine { hi with
    program_eq := fun k _ field => hq k field
    solves_eq := ?_
    solves_eq_zero := fun hc => ?_
    kept := fun hs => ?_ }
  · rw [hstate, hm.solves_eq]
    rfl
  · rw [hstate, hm.solves_eq_zero hc]
  · rw [hstate] at hs
    rw [hp.backend_eq, hp.backendIn_eq, hp.solutionIn_eq]
    exact hm.kept hs

/-- Behind one another, the fields of the condensed solution are the solution that was found. -/
theorem stacked_solutionIn {qp : QpInput} {duals : Bool} {bo : DenseOptions}
    {d after : SolveDesk IdentityMemory DenseMemory} (hdel : Delivers qp duals bo d after)
    (hd : d.memory.Tabled ⟨qp.shape, qp.shape⟩) (ha : after.memory.Tabled ⟨qp.shape, qp.shape⟩)
    {it : Iterate Binary64 d.memory.backend.order}
    (hit : Dense.iterate? qp bo d.memory.backend (backendIn d.memory) = some it) :
    (solutionIn after.memory).stacked = it.solution.toArray.toList := by
  have hshape : (solutionIn after.memory).shape = qp.shape := ha.output_shape
  have hfield (field : OutputField) : ∀ k ∈ List.range (qp.shape.horizon + 1),
      ((solutionIn after.memory).getD k field).toList =
        (Dense.fieldAfter qp bo d.memory.backend (backendIn d.memory) k field).toList :=
    fun k hk => congrArg Array.toList
      (hdel.solution_eq k field (Nat.le_of_lt_succ (List.mem_range.1 hk)))
  rw [StageData.stacked, hshape, List.flatMap_congr (hfield .ux), List.flatMap_congr (hfield .pi)]
  exact Dense.stacked_fieldAfter hd.fitted.order_eq hit

/-- What a solve delivers counts if it is a success, and is kept then. -/
theorem Tracks.delivered (hm : m.Tracks shape h) {d after : SolveDesk IdentityMemory DenseMemory}
    (hd : d.memory = m) (hi : after.memory.Intact ⟨shape, shape⟩) {qp : QpInput}
    (hqs : qp.shape = shape) {duals : Bool} {bo : DenseOptions}
    (hdel : Delivers qp duals bo d after) :
    after.memory.Tracks shape ⟨qp :: h.programs,
      Dense.verdict qp bo m.backend (backendIn m) :: h.verdicts⟩ := by
  subst hd hqs
  have hsolves : (after.memory.backend.stateOf (backendIn after.memory)).solves =
      if qp.shape.isConstrained then (d.memory.backend.stateOf (backendIn d.memory)).solves
      else if Dense.verdict qp bo d.memory.backend (backendIn d.memory) = .success then
        (d.memory.backend.stateOf (backendIn d.memory)).solves + 1
      else 0 := by
    have hregion : backendIn after.memory =
        Dense.regionAfter qp bo d.memory.backend (backendIn d.memory) := hdel.region_eq
    rw [hi.backend_eq.trans hm.backend_eq.symm, hregion]
    exact Dense.solves_regionAfter hm.fitted
  refine { hi with
    program_eq := fun k _ field => hdel.program_eq k field
    solves_eq := ?_
    solves_eq_zero := fun hc => ?_
    kept := fun hs => ?_ }
  · rw [hsolves, History.successes_cons]
    cases hc : qp.shape.isConstrained with
    | true => simp [Dense.verdict_of_constrained hc, hm.solves_eq_zero hc]
    | false =>
        rw [if_neg Bool.false_ne_true]
        split
        · rw [hm.solves_eq, UInt64.ofNat_add]
          rfl
        · rfl
  · rw [hsolves, if_pos hc, hm.solves_eq_zero hc]
  · rw [hsolves] at hs
    cases hc : qp.shape.isConstrained with
    | true => simp [hc, hm.solves_eq_zero hc] at hs
    | false =>
        -- Without inequalities only a success leaves a count.
        have hv : Dense.verdict qp bo d.memory.backend (backendIn d.memory) = .success := by
          by_contra hv
          simp [hc, hv] at hs
        obtain ⟨it, hit, hfinite⟩ := Dense.verdict_eq_success_iff.1 hv
        rw [hdel.solutionOf_eq hm.toTabled hi.toTabled hit,
          stacked_solutionIn hdel hm.toTabled hi.toTabled hit]
        refine ⟨fun x hx => ?_, rfl⟩
        obtain ⟨i, hi, rfl⟩ := Array.mem_iff_getElem.1 hx
        exact it.solution.isFinite_iff.1 hfinite ⟨i, by simpa using hi⟩

/-- A call takes a memory that tells its history to one that tells the call, too. -/
theorem Tracks.step (hn : shape.horizon < 2 ^ 32) (hm : m.Tracks shape h) (c : Call) :
    (Call.step (m, h) c).1.Tracks shape (Call.step (m, h) c).2 := by
  have hd : (c.desk m).memory.Intact ⟨shape, shape⟩ := hm.toIntact
  show (c.run m).2.value.memory.Tracks shape (h.after c m)
  rw [History.after]
  cases Request.ends (r := c.toRequest) hd hn c.output_valid c.clock c.journal with
  | refused f hbegins hrun =>
      rw [hbegins, show c.run m = _ from hrun]
      cases c.sensitivity <;> exact hm
  | unsupported after j' hs hbegins hrun hafter hprepares hprogram =>
      rw [hbegins, hs, show c.run m = _ from hrun]
      exact hm.prepared rfl hafter hprepares hprogram
  | solved after j' hs hbegins hrun hafter hqs hdelivers =>
      rw [hbegins, hs, show c.run m = _ from hrun]
      exact hm.delivered rfl hafter hqs hdelivers

/-- Any calls do. -/
theorem Tracks.run (hn : shape.horizon < 2 ^ 32) (hm : m.Tracks shape h) (calls : List Call) :
    (calls.foldl Call.step (m, h)).1.Tracks shape (calls.foldl Call.step (m, h)).2 := by
  induction calls generalizing m h with
  | nil => exact hm
  | cons c calls ih => exact ih (hm.step hn c)

/-! ## What it amounts to -/

/-- The memory accounts for its history: it carries its header and the map of stages, the
last program that was begun, and the count of successes since the last other verdict;
and while that is not zero, the solution that its condensed solution was taken from,
which has no entry that is not finite. -/
structure Accounts (shape : Shape) (h : History)
    (m : SolverMemory IdentityMemory DenseMemory) : Prop where
  header : m.HeaderVerifies
  stages : ∃ region, m.strategyRegion = .ok region ∧
    m.strategy.stages region = .ok (List.range (shape.horizon + 1))
  program : ∃ d, m.condensedInput = .ok d ∧ d.shape = shape ∧
    ∀ k ≤ shape.horizon, ∀ field, d.getD k field = h.field shape k field
  state : ∃ s, m.backendState = .ok s ∧ s.solves = UInt64.ofNat h.successes ∧
    (s.solves ≠ 0 → ∃ x d, m.keptSolution = .ok x ∧ m.condensedOutput = .ok d ∧
      d.shape = shape ∧ (∀ entry ∈ x, entry.isFinite = true) ∧ x.toList = d.stacked)

/-- Memory that tells its history accounts for it, up to a horizon that the map holds. -/
theorem Tracks.accounts (hn : shape.horizon < 2 ^ 32) (hm : m.Tracks shape h) :
    m.Accounts shape h where
  header := hm.headerVerifies
  stages := by
    refine ⟨_, hm.strategy_fits.slice, ?_⟩
    rw [hm.stages_eq]
    exact congrArg Except.ok (stageNumbers_eq_range_iff.2 hn)
  program := ⟨programIn m, hm.condensedInput_eq, hm.input_shape, hm.program_eq⟩
  state := ⟨_, hm.backendState_eq, hm.solves_eq, fun hs => ⟨_, solutionIn m, hm.keptSolution_eq,
    hm.condensedOutput_eq, hm.output_shape, hm.kept hs⟩⟩

end SolverMemory

/-- From the moment it is laid out by the bundled solver and through any calls to it,
whatever these are handed and however they end, a memory accounts for its history.  The
horizon is one that the map of stages can hold
(`SolverMemory.stageNumbers_eq_range_iff`). -/
theorem accounts_after {shape : Shape} (hn : shape.horizon < 2 ^ 32) {env : Environment}
    {so : IdentityOptions} {bo : DenseOptions} {words : Words} {j : Journal}
    {m : SolverMemory IdentityMemory DenseMemory} {s : Noted Unit}
    (hm : outcome (SolverMemory.assign (.bundled env) ⟨shape, shape⟩ so bo words) () j =
      (.ok m, s)) (calls : List Call) :
    (calls.foldl Call.step (m, {})).1.Accounts shape (calls.foldl Call.step (m, {})).2 :=
  ((SolverMemory.fresh_of_assign hm).2.tracks.run hn calls).accounts hn

/-- A call for the zero program over an empty stage and one with a state, with all options
zero and no more scratch than it asks for. -/
def Call.lateState (sensitivity : Bool) : Call where
  env := {}
  sensitivity
  qp := StageData.blank InputField .lateState
  options := .zeroed
  qp_valid := StageData.valid_blank .lateState
  options_readable := OptionStore.readable_zeroed
  clock := {}
  output := StageData.blank OutputField .lateState
  output_valid := StageData.valid_blank .lateState
  work := .zeroed (Overlay.size (.bundled {}) ⟨.lateState, .lateState⟩ ⟨0, 0⟩ ⟨0, 0, 0, 0⟩)
  journal := {}

/-- Over an empty stage and one with a state: a sensitivity request, then a solve, both
for the zero program. -/
theorem accounts_after_lateState :
    Shape.lateState.horizon < 2 ^ 32 ∧
      ∃ (m : SolverMemory IdentityMemory DenseMemory) (s : Noted Unit) (calls : List Call),
        outcome (SolverMemory.assign (.bundled {}) ⟨.lateState, .lateState⟩ ⟨0, 0⟩ ⟨0, 0, 0, 0⟩
          (.zeroed (SolverMemory.size (.bundled {}) ⟨.lateState, .lateState⟩ ⟨0, 0⟩
            ⟨0, 0, 0, 0⟩))) () {} = (.ok m, s) ∧
        calls.map (·.sensitivity) = [true, false] ∧
        (calls.foldl Call.step (m, {})).1.Accounts .lateState
          (calls.foldl Call.step (m, {})).2 := by
  refine ⟨by decide, ?_⟩
  obtain ⟨m, j, hassign⟩ := SolverMemory.exists_assign {} ⟨.lateState, .lateState⟩ ⟨0, 0⟩
    ⟨0, 0, 0, 0⟩
  exact ⟨m, _, [.lateState true, .lateState false], hassign, rfl,
    accounts_after (by decide) hassign [.lateState true, .lateState false]⟩

/-- The bundled solver, but for a strategy that refuses to expand. -/
def Solver.unexpanding :
    Solver IdentityDims IdentityOptions IdentityMemory DenseOptions DenseMemory :=
  { bundled {} with strategy := identity.scripted { failing := some .expand } }

/-- Fresh memory for a horizon that the map of stages cannot hold does not account for its
history.  And where the strategy refuses to expand, the backend has counted a success, and
the solve had no verdict. -/
theorem accounts_not_kept :
    (∃ shape m s, shape.horizon = 2 ^ 32 ∧
      outcome (SolverMemory.assign (.bundled {}) ⟨shape, shape⟩ ⟨0, 0⟩ ⟨0, 0, 0, 0⟩
        (.zeroed (SolverMemory.size (.bundled {}) ⟨shape, shape⟩ ⟨0, 0⟩ ⟨0, 0, 0, 0⟩))) () {} =
        (.ok m, s) ∧ ¬m.Accounts shape {}) ∧
    ∃ m s qp options output work after j,
      outcome (SolverMemory.assign .unexpanding ⟨.firstControl 0, .firstControl 0⟩ ⟨0, 0⟩
        ⟨0, 0, 0, 0⟩ (.zeroed (SolverMemory.size .unexpanding
          ⟨.firstControl 0, .firstControl 0⟩ ⟨0, 0⟩ ⟨0, 0, 0, 0⟩))) () {} = (.ok m, s) ∧
      outcome (Solver.unexpanding.evaluate qp options {}) ⟨output, m, work⟩ {} =
        (.error (.fault (.unsupported .expand)), ⟨after, j⟩) ∧
      ¬after.memory.Accounts (.firstControl 0) ⟨[qp], []⟩ := by
  constructor
  · obtain ⟨n, hn⟩ : ∃ n, n = 2 ^ 32 := ⟨_, rfl⟩
    obtain ⟨m, j, hassign⟩ := SolverMemory.exists_assign {} ⟨.blank n, .blank n⟩ ⟨0, 0⟩
      ⟨0, 0, 0, 0⟩
    have hhorizon : (Shape.blank n).horizon = 2 ^ 32 := (Shape.horizon_blank n).trans hn
    refine ⟨_, m, _, hhorizon, hassign, fun h => ?_⟩
    have hstages : m.NamesEveryStage (.blank n) := h.stages
    exact Nat.ne_of_lt hstages.horizon_lt hhorizon
  · have hassign : (outcome (SolverMemory.assign .unexpanding
        ⟨.firstControl 0, .firstControl 0⟩ ⟨0, 0⟩ ⟨0, 0, 0, 0⟩ (.zeroed (SolverMemory.size
          .unexpanding ⟨.firstControl 0, .firstControl 0⟩ ⟨0, 0⟩ ⟨0, 0, 0, 0⟩))) () {}).1 =
        .ok .oneControl := by decide +kernel
    let d : SolveDesk IdentityMemory DenseMemory :=
      ⟨SolveDesk.oneControl.output, .oneControl, SolveDesk.oneControl.work⟩
    have hrun : (outcome (Solver.unexpanding.evaluate (.oneControl ⟨0x3ff0000000000000⟩)
        .oneControl {}) d {}).1 = .error (.fault (.unsupported .expand)) := by decide +kernel
    have hstate : (outcome (Solver.unexpanding.evaluate (.oneControl ⟨0x3ff0000000000000⟩)
        .oneControl {}) d {}).2.value.memory.backendState.map DenseState.solves = .ok 1 := by
      decide +kernel
    refine ⟨_, _, _, _, d.output, d.work, _, _,
      Prod.ext hassign rfl, Prod.ext hrun rfl, fun h => ?_⟩
    obtain ⟨s, hs, hsolves, -⟩ := h.state
    rw [hs] at hstate
    have hone : s.solves = 1 := Except.ok.inj hstate
    rw [hsolves] at hone
    exact absurd hone (by decide)

end StageQp
