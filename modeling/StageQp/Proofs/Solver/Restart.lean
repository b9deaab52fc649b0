import StageQp.Proofs.Backend.Refined
import StageQp.Proofs.Solver.ColdStart
import StageQp.Proofs.Solver.History
import StageQp.Proofs.Solver.StageMap
import StageQp.Proofs.Solver.Transparency

/-!
# StageQp.Proofs.Solver.Restart

A warm start from a solution that is good enough finds it again.  A success leaves the
solution and its residual with the backend.  A later solve of the same program with the
same shift has the same factors, starts from what is kept, and computes the residual
that the success ended with; within the tolerance, it stops there without a solve of
its own (`Dense.iterate?_regionAfter`).

Sensitivity requests and rejected calls never get to the backend and leave what it keeps
(`SolverMemory.Idled.leaves`), so the restart may come any number of them later
(`restart_fixpoint`).
-/

namespace StageQp

open Procedure

/-! ## On the region of the backend -/

namespace Dense

variable {qp : QpInput} {o o' : DenseOptions} {m : DenseMemory} {region : Words}

/-- A warm start from where a solve ended, with the same shift and a tolerance that the
residual is within, finds the same solution again, and without a solve. -/
theorem iterate?_regionAfter {shape : Shape} (hfit : Fitted shape m region)
    {it : Iterate Binary64 m.order} (hit : iterate? qp o m region = some it)
    (hreg : o'.staticReg = o.staticReg)
    (hwarm : startsWarm o' m (regionAfter qp o m region) = true)
    (htol : Scalar.le it.norm o'.refineTol = true) :
    iterate? qp o' m (regionAfter qp o m region) =
      some ((systemOf qp m.order).iterate it.solution 0) := by
  obtain ⟨hq, hr⟩ := iterate?_eq_some_iff.1 hit
  exact iterate?_eq_some_iff.2
    ⟨hq, attempted_again hr hreg hwarm (kept_regionAfter hfit hq hr) htol⟩

/-- Solves that find the same solution leave the same fields. -/
theorem fieldAfter_of_solution_eq {region' : Words} {it it' : Iterate Binary64 m.order}
    (hit : iterate? qp o m region = some it) (hit' : iterate? qp o' m region' = some it')
    (h : it'.solution = it.solution) (k : Nat) (field : OutputField) :
    fieldAfter qp o' m region' k field = fieldAfter qp o m region k field := by
  cases field with
  | ux => rw [fieldAfter_ux hit, fieldAfter_ux hit', h]
  | pi => rw [fieldAfter_pi hit, fieldAfter_pi hit', h]
  | lam =>
      rw [fieldAfter_of_inequality _ _ (.inl rfl), fieldAfter_of_inequality _ _ (.inl rfl)]
  | t => rw [fieldAfter_of_inequality _ _ (.inr rfl), fieldAfter_of_inequality _ _ (.inr rfl)]

/-- A solve with the options `o'`, from where one with the options `o` ended, comes to the
same end without a solve with the factors. -/
structure Repeats (qp : QpInput) (o o' : DenseOptions) (m : DenseMemory) (region : Words) :
    Prop where
  verdict_eq : verdict qp o' m (regionAfter qp o m region) = .success
  solvesAfter_eq : solvesAfter qp o' m (regionAfter qp o m region) = 0
  fieldAfter_eq (k : Nat) (field : OutputField) :
    fieldAfter qp o' m (regionAfter qp o m region) k field = fieldAfter qp o m region k field
  solutionOf_eq : m.solutionOf (regionAfter qp o' m (regionAfter qp o m region)) =
    m.solutionOf (regionAfter qp o m region)
  residual_eq : (m.stateOf (regionAfter qp o' m (regionAfter qp o m region))).residual =
    (m.stateOf (regionAfter qp o m region)).residual
  solves_eq : (m.stateOf (regionAfter qp o' m (regionAfter qp o m region))).solves =
    (m.stateOf (regionAfter qp o m region)).solves + 1

/-- A success is repeated by a warm start with the same shift and a tolerance that the
residual is within. -/
theorem repeats_of_success {shape : Shape} (hfit : Fitted shape m region)
    (hv : verdict qp o m region = .success) (hreg : o'.staticReg = o.staticReg)
    (hwarm : o'.warmStart ≠ 0) (hcount : (m.stateOf (regionAfter qp o m region)).solves ≠ 0)
    (htol : Scalar.le (m.stateOf (regionAfter qp o m region)).residual o'.refineTol = true) :
    Repeats qp o o' m region := by
  obtain ⟨it, hit, hfinite⟩ := verdict_eq_success_iff.1 hv
  obtain ⟨hq, hr⟩ := iterate?_eq_some_iff.1 hit
  have hfit' : Fitted shape m (regionAfter qp o m region) := hfit.congr (size_regionAfter ..)
  have hstart : startsWarm o' m (regionAfter qp o m region) = true := by
    simp [startsWarm, hwarm, hcount]
  have hnorm : (m.stateOf (regionAfter qp o m region)).residual = it.norm := by
    rw [stateOf_regionAfter_of_some hfit hq hr]
  have hagain := iterate?_regionAfter hfit hit hreg hstart (hnorm ▸ htol)
  have hr' := (iterate?_eq_some_iff.1 hagain).2
  have hstate := stateOf_regionAfter_of_some hfit' hq hr'
  constructor
  · exact verdict_eq_success_iff.2 ⟨_, hagain, hfinite⟩
  · rw [solvesAfter, hagain]
    rfl
  · exact fieldAfter_of_solution_eq hit hagain rfl
  · rw [solutionOf_regionAfter_of_some hfit' hq hr', solutionOf_regionAfter_of_some hfit hq hr]
    rfl
  · -- Both are the norm of the residual of one solution.
    rw [hnorm, hstate]
    exact (of_attempted_result hr).2.consistent.norm_eq.symm
  · rw [hstate]
    exact if_pos hfinite

end Dense

/-! ## Calls and the backend -/

namespace Call

open Solver

/-- Whether the call gets to the backend of a memory: it is a solve and passes its checks. -/
def reachesBackend (c : Call) (m : SolverMemory IdentityMemory DenseMemory) : Bool :=
  !c.sensitivity && c.begins (c.desk m) c.journal

variable {shape : Shape} {m : SolverMemory IdentityMemory DenseMemory}
  (hn : shape.horizon < 2 ^ 32) (hm : m.Intact ⟨shape, shape⟩) (c : Call)

/-- Exactly the solves that are not refused reach the backend. -/
theorem reachesBackend_iff (hm : m.Intact ⟨shape, shape⟩) (c : Call) :
    c.reachesBackend m = true ↔
      c.sensitivity = false ∧ c.refusal? shape (c.desk m) = none := by
  rw [reachesBackend, Request.begins_eq (r := c.toRequest) (d := c.desk m) hm c.journal]
  simp

/-- A solve with an answer found no flaw in the header. -/
theorem flaw?_eq_none_of_run_eq_ok (hm : m.Tabled ⟨shape, shape⟩) (c : Call) {status : Status}
    {s : Noted (SolveDesk IdentityMemory DenseMemory)} (h : c.run m = (.ok status, s)) :
    m.flaw? m.layout = none := by
  have hfirst := checksFirst_of_laid (d := c.desk m) (.bundled c.env) hm.toLaid c.so_eq c.bo_eq c.qp
  cases hr : c.refusal? shape (c.desk m) with
  | none => exact (SolveDesk.refusal?_eq_none_iff.1 hr).2.2
  | some f =>
      obtain ⟨hsolve, hsensitivity⟩ := hfirst.refused f hr c.clock c.journal
      rw [run, Request.procedure] at h
      split at h
      · rw [hsensitivity] at h
        cases h
      · rw [hsolve] at h
        cases h

include hn hm

/-- A call that does not get to the backend ends in a fault, and leaves what the backend
keeps. -/
theorem run_of_not_reachesBackend (hc : c.reachesBackend m = false) :
    (∃ f, (c.run m).1 = .error (.fault f)) ∧
      (c.run m).2.value.memory.backend = m.backend ∧
      backendIn (c.run m).2.value.memory = backendIn m := by
  have hd : (c.desk m).memory.Intact ⟨shape, shape⟩ := hm
  cases Request.ends (r := c.toRequest) hd hn c.output_valid c.clock c.journal with
  | refused f _ hrun =>
      rw [show c.run m = _ from hrun]
      exact ⟨⟨f, rfl⟩, rfl, rfl⟩
  | unsupported after j' _ _ hrun _ hprepares =>
      rw [show c.run m = _ from hrun]
      exact ⟨⟨_, rfl⟩, hprepares.backend_eq, hprepares.backendIn_eq⟩
  | solved after j' hs hbegins =>
      rw [reachesBackend, hs, hbegins] at hc
      cases hc

/-- A call that does gives the verdict of the backend. -/
theorem run_of_reachesBackend (hc : c.reachesBackend m = true) :
    c.qp.shape = shape ∧ ∃ (after : SolveDesk IdentityMemory DenseMemory) (j' : Journal),
      c.run m = (.ok (Dense.verdict c.qp c.bo m.backend (backendIn m)), ⟨after, j'⟩) ∧
      after.memory.Intact ⟨shape, shape⟩ ∧
      Delivers c.qp (c.so.expandDuals != 0) c.bo (c.desk m) after := by
  have hd : (c.desk m).memory.Intact ⟨shape, shape⟩ := hm
  cases Request.ends (r := c.toRequest) hd hn c.output_valid c.clock c.journal with
  | refused f hbegins =>
      rw [reachesBackend, hbegins, Bool.and_false] at hc
      cases hc
  | unsupported after j' hs =>
      rw [reachesBackend, hs] at hc
      cases hc
  | solved after j' hs hbegins hrun hafter hqs hdelivers =>
      exact ⟨hqs, after, j', hrun, hafter, hdelivers⟩

/-- Only a call that gets to the backend gives a verdict. -/
theorem reachesBackend_of_run_eq_ok {status : Status}
    {s : Noted (SolveDesk IdentityMemory DenseMemory)} (h : c.run m = (.ok status, s)) :
    c.reachesBackend m = true := by
  by_contra hc
  obtain ⟨⟨f, hf⟩, -⟩ := run_of_not_reachesBackend hn hm c (Bool.eq_false_iff.2 hc)
  rw [h] at hf
  cases hf

end Call

namespace SolverMemory

open Solver

/-- What a memory becomes through sensitivity requests and rejected calls, none of which
gets to the backend. -/
inductive Idled (m : SolverMemory IdentityMemory DenseMemory) :
    SolverMemory IdentityMemory DenseMemory → Prop
  | refl : Idled m m
  | call {m' : SolverMemory IdentityMemory DenseMemory} (h : Idled m m') (c : Call)
      (hc : c.reachesBackend m' = false) : Idled m (c.run m').2.value.memory

/-- Idling leaves an intact memory intact, and what the backend keeps as it was. -/
theorem Idled.leaves {shape : Shape} (hn : shape.horizon < 2 ^ 32)
    {m m' : SolverMemory IdentityMemory DenseMemory} (h : Idled m m')
    (hm : m.Intact ⟨shape, shape⟩) :
    m'.Intact ⟨shape, shape⟩ ∧ m'.backend = m.backend ∧ backendIn m' = backendIn m := by
  induction h with
  | refl => exact ⟨hm, rfl, rfl⟩
  | call h c hc ih =>
      obtain ⟨hi, hbackend, hregion⟩ := ih
      obtain ⟨-, hbackend', hregion'⟩ := Call.run_of_not_reachesBackend hn hi c hc
      exact ⟨c.intact_run hi, hbackend'.trans hbackend, hregion'.trans hregion⟩

end SolverMemory

/-! ## The restart -/

/-- What a restart leaves: `found` is the memory after the solve that found the solution,
`after` the desk after the restart. -/
structure Restarted (shape : Shape) (duals : Bool)
    (found : SolverMemory IdentityMemory DenseMemory)
    (after : SolveDesk IdentityMemory DenseMemory) : Prop where
  numIter_eq : after.output.info.numIter = 0
  /-- The fields are those of the condensed solution, the multipliers only if asked for. -/
  fields_eq : ∃ condensed, found.condensedOutput = .ok condensed ∧ ∀ k ≤ shape.horizon,
    after.output.getD k .ux = condensed.getD k .ux ∧
      (duals = true → after.output.getD k .pi = condensed.getD k .pi ∧
        after.output.getD k .lam = condensed.getD k .lam)
  solution_eq : ∃ x, found.keptSolution = .ok x ∧ after.memory.keptSolution = .ok x
  state_eq : ∃ s t, found.backendState = .ok s ∧ after.memory.backendState = .ok t ∧
    t.residual = s.residual ∧ t.solves = s.solves + 1

namespace Solver

variable {qp : QpInput} {duals duals' : Bool} {bo bo' : DenseOptions}
  {before found later after : SolveDesk IdentityMemory DenseMemory}

/-- Two solves of one program, of which the second repeats the first. -/
theorem Delivers.restarted (h : Delivers qp duals bo before found)
    (h' : Delivers qp duals' bo' later after)
    (hb : before.memory.Tabled ⟨qp.shape, qp.shape⟩)
    (hf : found.memory.Tabled ⟨qp.shape, qp.shape⟩)
    (hl : later.memory.Tabled ⟨qp.shape, qp.shape⟩)
    (ha : after.memory.Tabled ⟨qp.shape, qp.shape⟩)
    (hregion : backendIn later.memory = backendIn found.memory)
    (hrep : Dense.Repeats qp bo bo' before.memory.backend (backendIn before.memory)) :
    Restarted qp.shape duals' found.memory after := by
  have hmf : found.memory.backend = before.memory.backend := hf.backend_eq.trans hb.backend_eq.symm
  have hml : later.memory.backend = before.memory.backend := hl.backend_eq.trans hb.backend_eq.symm
  have hma : after.memory.backend = before.memory.backend := ha.backend_eq.trans hb.backend_eq.symm
  have hfound : backendIn found.memory =
      Dense.regionAfter qp bo before.memory.backend (backendIn before.memory) := h.region_eq
  have hlater : later.memory.layout.backend.part later.memory.words =
      Dense.regionAfter qp bo before.memory.backend (backendIn before.memory) :=
    hregion.trans hfound
  have hafter : backendIn after.memory = Dense.regionAfter qp bo' before.memory.backend
      (Dense.regionAfter qp bo before.memory.backend (backendIn before.memory)) := by
    rw [← hlater, ← hml]
    exact h'.region_eq
  have hfields (k : Nat) (field : OutputField) (hk : k ≤ qp.shape.horizon) :
      after.output.getD k field = Identity.handedOn duals' qp.shape k field
        ((solutionIn found.memory).getD k field) := by
    rw [h'.field_eq k field hk, hml, hlater, h.solution_eq k field hk]
    exact congrArg _ (hrep.fieldAfter_eq k field)
  constructor
  · rw [h'.numIter_eq, hml, hlater, hrep.solvesAfter_eq]
    rfl
  · refine ⟨solutionIn found.memory, hf.condensedOutput_eq, fun k hk => ⟨?_, ?_⟩⟩
    · rw [hfields k .ux hk, Identity.handedOn_of_primal _ _ k (.inl rfl)]
    · rintro rfl
      exact ⟨by rw [hfields k .pi hk, Identity.handedOn_true],
        by rw [hfields k .lam hk, Identity.handedOn_true]⟩
  · refine ⟨_, hf.keptSolution_eq, ha.keptSolution_eq.trans (congrArg Except.ok ?_)⟩
    show after.memory.backend.solutionOf (backendIn after.memory) =
      found.memory.backend.solutionOf (backendIn found.memory)
    rw [hma, hmf, hafter, hfound]
    exact hrep.solutionOf_eq
  · refine ⟨_, _, hf.backendState_eq, ha.backendState_eq, ?_⟩
    show (after.memory.backend.stateOf (backendIn after.memory)).residual =
        (found.memory.backend.stateOf (backendIn found.memory)).residual ∧
      (after.memory.backend.stateOf (backendIn after.memory)).solves =
        (found.memory.backend.stateOf (backendIn found.memory)).solves + 1
    rw [hma, hmf, hafter, hfound]
    exact ⟨hrep.residual_eq, hrep.solves_eq⟩

end Solver

/-- A solve that succeeds can be restarted.  Whatever sensitivity requests and rejected
calls come in between: the next solve of the same program, with the same shift, a warm
start and a tolerance that the residual is within, succeeds without a solve of its own.
It hands out the condensed solution as it was, and the backend keeps the solution and the
residual that it kept, and counts one solve more.

The memory may hold any words, if only its map names every stage; that of memory that
calls led to does, up to a horizon that it can hold
(`SolverMemory.Intact.namesEveryStage_iff`).  And the success must be counted: the count
has 64 bits and comes round to zero, from which no solve starts warm. -/
theorem restart_fixpoint {shape : Shape} {m later : SolverMemory IdentityMemory DenseMemory}
    (hm : m.Tabled ⟨shape, shape⟩) (hstages : m.NamesEveryStage shape) {first again : Call}
    {found : SolveDesk IdentityMemory DenseMemory} {j : Journal} {s : DenseState}
    (hfirst : first.run m = (.ok .success, ⟨found, j⟩))
    (hs : found.memory.backendState = .ok s) (hcount : s.solves ≠ 0)
    (hidle : SolverMemory.Idled found.memory later) (hreach : again.reachesBackend later = true)
    (hqp : ∀ k field, again.qp.getD k field = first.qp.getD k field)
    (hreg : again.bo.staticReg = first.bo.staticReg) (hwarm : again.bo.warmStart ≠ 0)
    (htol : Scalar.le s.residual again.bo.refineTol = true) :
    ∃ after j', again.run later = (.ok .success, ⟨after, j'⟩) ∧
      Restarted shape (again.so.expandDuals != 0) found.memory after := by
  have hi := hm.intact (Call.flaw?_eq_none_of_run_eq_ok hm first hfirst) hstages
  have hn := hstages.horizon_lt
  obtain ⟨hshape, after₁, j₁, hrun, hf, hdel⟩ := Call.run_of_reachesBackend hn hi first
    (Call.reachesBackend_of_run_eq_ok hn hi first hfirst)
  rw [hfirst] at hrun
  obtain ⟨hverdict, rfl, rfl⟩ : Status.success = _ ∧ found = after₁ ∧ j = j₁ := by
    simpa using hrun
  obtain ⟨hl, hbackend, hregion⟩ := hidle.leaves hn hf
  obtain ⟨hshape', after, j', hrun', ha, hdel'⟩ :=
    Call.run_of_reachesBackend hn hl again hreach
  subst hshape
  have hstate : found.memory.backend.stateOf (Solver.backendIn found.memory) = s :=
    Except.ok.inj (hf.backendState_eq.symm.trans hs)
  rw [hf.backend_eq.trans hi.backend_eq.symm,
    show Solver.backendIn found.memory = _ from hdel.region_eq] at hstate
  have hrep : Dense.Repeats first.qp first.bo again.bo m.backend (Solver.backendIn m) :=
    Dense.repeats_of_success hi.fitted hverdict.symm hreg hwarm (hstate ▸ hcount) (hstate ▸ htol)
  have hlater : Solver.backendIn later =
      Dense.regionAfter first.qp first.bo m.backend (Solver.backendIn m) :=
    hregion.trans hdel.region_eq
  have hdel' : Solver.Delivers first.qp (again.so.expandDuals != 0) again.bo (again.desk later)
      after := hdel'.of_prepares (.refl _) hshape' hqp
  refine ⟨after, j', ?_, hdel.restarted hdel' hi.toTabled hf.toTabled hl.toTabled ha.toTabled
    hregion hrep⟩
  rw [hrun', Dense.verdict_congr hshape' hqp, hbackend, hf.backend_eq.trans hi.backend_eq.symm,
    hlater, hrep.verdict_eq]

/-- Over an empty stage and one with a state, for the zero program and with options that
ask for a warm start and for multipliers: a solve on fresh memory, a sensitivity request,
a call that is handed no scratch, and the solve once more. -/
theorem restart_fixpoint_lateState :
    ∃ (m later : SolverMemory IdentityMemory DenseMemory) (first again : Call)
      (found after : SolveDesk IdentityMemory DenseMemory) (j j' : Journal) (s : DenseState),
      SolverMemory.Reached ⟨.lateState, .lateState⟩ m ∧ m.NamesEveryStage .lateState ∧
      first.run m = (.ok .success, ⟨found, j⟩) ∧ found.memory.backendState = .ok s ∧
      s.solves ≠ 0 ∧ SolverMemory.Idled found.memory later ∧
      again.reachesBackend later = true ∧
      (∀ k field, again.qp.getD k field = first.qp.getD k field) ∧
      again.bo.staticReg = first.bo.staticReg ∧ again.bo.warmStart ≠ 0 ∧
      Scalar.le s.residual again.bo.refineTol = true ∧
      again.run later = (.ok .success, ⟨after, j'⟩) ∧
      Restarted .lateState (again.so.expandDuals != 0) found.memory after := by
  have hn : Shape.lateState.horizon < 2 ^ 32 := by decide
  obtain ⟨m, j₀, hassign⟩ := SolverMemory.exists_assign {} ⟨.lateState, .lateState⟩ ⟨0, 0⟩
    ⟨0, 0, 0, 0⟩
  obtain ⟨hlayout, hm⟩ := SolverMemory.fresh_of_assign hassign
  let call (sensitivity : Bool) (work : Words) : Call :=
    { Call.lateState sensitivity with
      options := { OptionStore.zeroed with words := #[0, 1, 0, 0, 0, 1] }
      options_readable := ⟨by decide, rfl, by decide, rfl⟩
      work }
  let scratch := (Call.lateState false).work
  let first := call false scratch
  have hreach {m : SolverMemory IdentityMemory DenseMemory}
      (hm : m.Intact ⟨.lateState, .lateState⟩) : first.reachesBackend m = true := by
    refine (Call.reachesBackend_iff hm _).2 ⟨rfl, ?_⟩
    exact Solver.refusal?_eq_none (d := first.desk m) hm rfl rfl
      (Nat.le_of_eq (Overlay.divide_exact (.bundled {}) ⟨.lateState, .lateState⟩ _
        _).byteSize_zeroed.symm)
  obtain ⟨-, found, j, hfirst, hf, hdel⟩ :=
    Call.run_of_reachesBackend hn hm.toIntact first (hreach hm.toIntact)
  -- What the solve on fresh memory comes to is computed.
  have hregion : Solver.backendIn m = .zeroed (Dense.memorySize .lateState) := by
    rw [Solver.backendIn, hm.part_eq (by simp), hlayout]
    rfl
  have hverdict : Dense.verdict first.qp first.bo
      (Dense.carveMemory .lateState).1 (.zeroed (Dense.memorySize .lateState)) = .success := by
    decide +kernel
  have hstate : (Dense.carveMemory .lateState).1.stateOf (Dense.regionAfter first.qp first.bo
      (Dense.carveMemory .lateState).1 (.zeroed (Dense.memorySize .lateState))) = ⟨1, 0⟩ := by
    decide +kernel
  have hbackend : m.backend = (Dense.carveMemory .lateState).1 := hm.backend_eq
  have hs : found.memory.backendState = .ok ⟨1, 0⟩ := by
    have hafter : found.memory.layout.backend.part found.memory.words =
        Dense.regionAfter _ first.bo m.backend (Solver.backendIn m) := hdel.region_eq
    rw [hf.backendState_eq, hafter, hf.backend_eq, hbackend, hregion]
    exact congrArg Except.ok hstate
  rw [hbackend, hregion, hverdict] at hfirst
  have hasked := (call true scratch).intact_run hf
  have hrejected : (call false #[]).reachesBackend
      ((call true scratch).run found.memory).2.value.memory = false := by
    refine Bool.eq_false_iff.2 fun h => ?_
    have hwork : (call false #[]).scratchBytes .lateState ≤ 0 :=
      (SolveDesk.refusal?_eq_none_iff.1 ((Call.reachesBackend_iff hasked _).1 h).2).2.1
    exact absurd hwork (by decide +kernel)
  have hidle := SolverMemory.Idled.call (.call .refl (call true scratch) rfl) _ hrejected
  have hstages : m.NamesEveryStage .lateState := hm.namesEveryStage_iff.2 hn
  have hagain := hreach (hidle.leaves hn hf).1
  obtain ⟨after, j', hrun, hrestarted⟩ := restart_fixpoint hm.toTabled hstages hfirst hs
    (by decide) hidle hagain (fun _ _ => rfl) rfl (by decide +kernel) (by decide +kernel)
  exact ⟨m, _, _, _, found, after, j, j', _, .assign hassign, hstages, hfirst, hs, by decide,
    hidle, hagain, fun _ _ => rfl, rfl, by decide +kernel, by decide +kernel, hrun, hrestarted⟩

/-- Two stages with a control each, and nothing that ties them. -/
def Shape.twoControls : Shape := ((blank 1).edit 0 .nu 1).edit 1 .nu 1

/-- A solve that minimizes `u²/2 - u` over the first control and `u²/2 - 2u` over the
second, with a warm start and all else zero. -/
def Call.twoControls : Call where
  env := {}
  sensitivity := false
  qp := ⟨.ofShape InputField .twoControls, #[0x3ff0000000000000, 0xbff0000000000000,
    0x3ff0000000000000, 0xc000000000000000]⟩
  options := { OptionStore.zeroed with words := #[0, 0, 0, 0, 0, 1] }
  qp_valid := ⟨rfl, by decide +kernel⟩
  options_readable := ⟨by decide, rfl, by decide, rfl⟩
  clock := {}
  output := StageData.blank OutputField .twoControls
  output_valid := StageData.valid_blank .twoControls
  work := .zeroed (Overlay.size (.bundled {}) ⟨.twoControls, .twoControls⟩ ⟨0, 0⟩ ⟨0, 0, 0, 1⟩)
  journal := {}

/-- Memory over two controls with this map of stages and this count of solves. -/
def SolverMemory.twoControls (map solves : UInt64) : SolverMemory IdentityMemory DenseMemory :=
  let layout := (carve (.bundled {}) ⟨.twoControls, .twoControls⟩ ⟨0, 0⟩ ⟨0, 0, 0, 0⟩).1
  onWords ⟨.twoControls, .twoControls⟩ layout
    ((laidOut layout #[map]).setIfInBounds layout.backend.firstWord solves)

theorem SolverMemory.overwritten_twoControls (map solves : UInt64) :
    (twoControls map solves).Overwritten (.bundled {}) ⟨.twoControls, .twoControls⟩ ⟨0, 0⟩
      ⟨0, 0, 0, 0⟩ := by
  refine overwritten_onWords {} _ _ _ ?_
  rw [Words.byteSize, Array.size_setIfInBounds, ← Words.byteSize, byteSize_laidOut]
  decide +kernel

/-- Two runs of one call, and what there is to say about what they leave. -/
theorem Call.exists_runs {c : Call} {m : SolverMemory IdentityMemory DenseMemory}
    {P : SolveDesk IdentityMemory DenseMemory → SolveDesk IdentityMemory DenseMemory → Prop}
    {first again : Status} (hfirst : (c.run m).1 = .ok first)
    (hagain : (c.run (c.run m).2.value.memory).1 = .ok again)
    (hp : P (c.run m).2.value (c.run (c.run m).2.value.memory).2.value) :
    ∃ found after j j', c.run m = (.ok first, ⟨found, j⟩) ∧
      c.run found.memory = (.ok again, ⟨after, j'⟩) ∧ P found after :=
  ⟨_, _, _, _, Prod.ext hfirst rfl, Prod.ext hagain rfl, hp⟩

/-- A success and a warm start for the same program, over memory that was written over.
Where the map names the stages the other way round, the second call hands the control of
the last stage out as that of the first.  Where the count of solves was the largest one, the
success comes round to zero, and the second call solves once more. -/
theorem restart_not_fixpoint :
    (∃ (m : SolverMemory IdentityMemory DenseMemory) (c : Call) (s : DenseState),
      m.Overwritten (.bundled {}) ⟨.twoControls, .twoControls⟩ ⟨0, 0⟩ ⟨0, 0, 0, 0⟩ ∧
      (m.strategyRegion >>= m.strategy.stages) = .ok [1, 0] ∧ c.bo.warmStart ≠ 0 ∧
      s.solves ≠ 0 ∧ Scalar.le s.residual c.bo.refineTol = true ∧
      ∃ found after j j', c.run m = (.ok .success, ⟨found, j⟩) ∧
        c.run found.memory = (.ok .success, ⟨after, j'⟩) ∧
        found.memory.backendState = .ok s ∧
        found.memory.condensedOutput = .ok (Solver.solutionIn found.memory) ∧
        after.output.getD 0 .ux ≠ (Solver.solutionIn found.memory).getD 0 .ux) ∧
    ∃ (m : SolverMemory IdentityMemory DenseMemory) (c : Call) (s : DenseState),
      m.Overwritten (.bundled {}) ⟨.twoControls, .twoControls⟩ ⟨0, 0⟩ ⟨0, 0, 0, 0⟩ ∧
      (m.strategyRegion >>= m.strategy.stages) = .ok [0, 1] ∧ c.bo.warmStart ≠ 0 ∧
      Scalar.le s.residual c.bo.refineTol = true ∧
      ∃ found after j j', c.run m = (.ok .success, ⟨found, j⟩) ∧
        c.run found.memory = (.ok .success, ⟨after, j'⟩) ∧
        found.memory.backendState = .ok s ∧ after.output.info.numIter = 1 := by
  constructor
  · exact ⟨.twoControls 1 0, .twoControls, ⟨1, 0⟩, SolverMemory.overwritten_twoControls 1 0,
      by decide +kernel, by decide, by decide, by decide +kernel,
      Call.exists_runs (by decide +kernel) (by decide +kernel) (by decide +kernel)⟩
  · exact ⟨.twoControls 0x100000000 0xffffffffffffffff, .twoControls, ⟨0, 0⟩,
      SolverMemory.overwritten_twoControls _ _, by decide +kernel, by decide, by decide +kernel,
      Call.exists_runs (by decide +kernel) (by decide +kernel) (by decide +kernel)⟩

end StageQp
