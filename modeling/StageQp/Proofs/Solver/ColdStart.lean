import StageQp.Proofs.Shape.Record
import StageQp.Proofs.Solver.OptionStore
import StageQp.Proofs.Solver.StageMap

/-!
# StageQp.Proofs.Solver.ColdStart

A cold solve has no history.  Two memories for one shape may have gone through any
calls, failed ones too, and the two solutions handed in may hold anything: without
a warm start the two solves end alike (`evaluate_cold`).  And no failure hands out
what an earlier solve found.

That there are two verdicts to compare takes a horizon that the map of stages can hold,
and a solver that knows which solves to log (`evaluate_without_verdict`).
-/

namespace StageQp

open Procedure

/-! ## Two solves -/

/-- What two solves leave that end with the same verdict: the same entries in every
field, the same account but for the times, and, if there was a solution at all, the
same solution and residual in the backend's memory. -/
structure EndAlike (shape : Shape) (status : Status)
    (one other : SolveDesk IdentityMemory DenseMemory) : Prop where
  field_eq (k : Nat) (hk : k ≤ shape.horizon) (field : OutputField) :
    one.output.getD k field = other.output.getD k field
  numIter_eq : one.output.info.numIter = other.output.info.numIter
  tComputed_eq : one.output.info.tComputed = other.output.info.tComputed
  kept_eq (h : status ≠ .qpFailure) : ∃ x s t,
    one.memory.keptSolution = .ok x ∧ other.memory.keptSolution = .ok x ∧
      one.memory.backendState = .ok s ∧ other.memory.backendState = .ok t ∧
        s.residual = t.residual

/-- The solution holds zeros only, and counts no solve. -/
structure StageData.Blank (d : QpOutput) (shape : Shape) : Prop where
  field_eq (k : Nat) (hk : k ≤ shape.horizon) (field : OutputField) :
    d.getD k field = .replicate (OutputField.count shape k field) (⟨0⟩ : Binary64)
  numIter_eq : d.info.numIter = 0

/-- Zero fields are handed on as zero fields, with multipliers or without. -/
theorem Identity.handedOn_replicate (duals : Bool) (shape : Shape) (k : Nat)
    (field : OutputField) :
    handedOn duals shape k field (.replicate (OutputField.count shape k field) ⟨0⟩) =
      .replicate (OutputField.count shape k field) ⟨0⟩ := by
  cases field <;> cases duals <;> rfl

namespace Solver

variable {qp : QpInput} {duals : Bool} {bo : DenseOptions}

/-- A failure leaves zeros, whatever the memory holds. -/
theorem Delivers.blank {before after : SolveDesk IdentityMemory DenseMemory}
    (h : Delivers qp duals bo before after)
    (hv : Dense.verdict qp bo before.memory.backend
      (before.memory.layout.backend.part before.memory.words) = .qpFailure) :
    after.output.Blank qp.shape where
  field_eq k hk field := by
    rw [h.field_eq k field hk, Dense.fieldAfter_of_none (Dense.verdict_eq_qpFailure_iff.1 hv),
      Identity.handedOn_replicate]
  numIter_eq := by
    rw [h.numIter_eq, Dense.solvesAfter, Dense.verdict_eq_qpFailure_iff.1 hv]
    rfl

/-- What the backend keeps after a solve that found a solution. -/
theorem Delivers.kept {before after : SolveDesk IdentityMemory DenseMemory}
    (h : Delivers qp duals bo before after) (hb : before.memory.Tabled ⟨qp.shape, qp.shape⟩)
    (ha : after.memory.Tabled ⟨qp.shape, qp.shape⟩) {m : DenseMemory}
    (hm : before.memory.backend = m) {it : Iterate Binary64 m.order}
    (hit : Dense.iterate? qp bo m
      (before.memory.layout.backend.part before.memory.words) = some it) :
    after.memory.keptSolution = .ok it.solution.toArray ∧
      ∃ s, after.memory.backendState = .ok s ∧ s.residual = it.norm := by
  subst hm
  obtain ⟨hq, hr⟩ := Dense.iterate?_eq_some_iff.1 hit
  have htable : after.memory.backend = before.memory.backend :=
    ha.backend_eq.trans hb.backend_eq.symm
  refine ⟨ha.keptSolution_eq.trans (congrArg Except.ok (h.solutionOf_eq hb ha hit)), _,
    ha.backendState_eq, ?_⟩
  rw [htable, h.region_eq, Dense.stateOf_regionAfter_of_some hb.fitted hq hr]

/-- Solves that attempt the same end alike. -/
theorem Delivers.endAlike {before after before' after' : SolveDesk IdentityMemory DenseMemory}
    (h : Delivers qp duals bo before after) (h' : Delivers qp duals bo before' after')
    (hb : before.memory.Tabled ⟨qp.shape, qp.shape⟩)
    (hb' : before'.memory.Tabled ⟨qp.shape, qp.shape⟩)
    (ha : after.memory.Tabled ⟨qp.shape, qp.shape⟩)
    (ha' : after'.memory.Tabled ⟨qp.shape, qp.shape⟩)
    (hsame : Dense.attempted qp bo before.memory.backend
        (before'.memory.layout.backend.part before'.memory.words) =
      Dense.attempted qp bo before.memory.backend
        (before.memory.layout.backend.part before.memory.words)) :
    EndAlike qp.shape (Dense.verdict qp bo before.memory.backend
      (before.memory.layout.backend.part before.memory.words)) after after' := by
  have htable : before'.memory.backend = before.memory.backend :=
    hb'.backend_eq.trans hb.backend_eq.symm
  refine ⟨fun k hk field => ?_, ?_, h.tComputed_eq.trans h'.tComputed_eq.symm, fun hv => ?_⟩
  · rw [h.field_eq k field hk, h'.field_eq k field hk, htable,
      Dense.fieldAfter_of_attempted_eq hsame]
  · rw [h.numIter_eq, h'.numIter_eq, htable, Dense.solvesAfter_of_attempted_eq hsame]
  · rw [Ne, Dense.verdict_eq_qpFailure_iff] at hv
    obtain ⟨it, hit⟩ := Option.ne_none_iff_exists'.1 hv
    obtain ⟨hx, s, hs, hsr⟩ := h.kept hb ha rfl hit
    obtain ⟨hy, t, ht, htr⟩ := h'.kept hb' ha' htable
      ((Dense.iterate?_of_attempted_eq hsame).trans hit)
    exact ⟨_, s, t, hx, hy, hs, ht, hsr.trans htr.symm⟩

end Solver

/-! ## Histories -/

/-- No solve of this memory succeeded since the last that did not. -/
def SolverMemory.Unstarted (m : SolverMemory IdentityMemory DenseMemory) : Prop :=
  ∃ s, m.backendState = .ok s ∧ s.solves = 0

theorem SolverMemory.Tabled.solves_eq_zero {shapes : ShapePair}
    {m : SolverMemory IdentityMemory DenseMemory} (h : m.Tabled shapes) (hu : m.Unstarted) :
    (m.backend.stateOf (m.layout.backend.part m.words)).solves = 0 := by
  obtain ⟨s, hs, hz⟩ := hu
  rw [h.backendState_eq] at hs
  cases hs
  exact hz

/-- Whatever calls led to two memories for a shape, and whatever the records, the scratch
and the clocks say: two solves of one program with the same options give verdicts.
If the options ask for no warm start, or no memory has a solve to start from, the
verdicts are the same and the solves end alike.  And a failure leaves zeros.

The horizon is one that the map of stages can hold
(`SolverMemory.stageNumbers_eq_range_iff`), and which solves are logged is read from the
environment. -/
theorem evaluate_cold {shape : Shape} (hn : shape.horizon < 2 ^ 32)
    {m m' : SolverMemory IdentityMemory DenseMemory}
    (hm : SolverMemory.Reached ⟨shape, shape⟩ m) (hm' : SolverMemory.Reached ⟨shape, shape⟩ m')
    {options : OptionStore} {so : IdentityOptions} {bo : DenseOptions}
    (hso : options.strategyOptions IdentityOptions = .ok so)
    (hbo : options.backendOptions DenseOptions = .ok bo) {qp : QpInput} (hq : qp.Valid)
    (hqs : qp.shape = shape) {output output' : QpOutput} (hv : output.Valid)
    (hs : output.shape = shape) (hv' : output'.Valid) (hs' : output'.shape = shape)
    (env env' : Environment) {work work' : Words}
    (hwork : Overlay.size (.bundled env) ⟨shape, shape⟩ so bo ≤ Words.byteSize work)
    (hwork' : Overlay.size (.bundled env') ⟨shape, shape⟩ so bo ≤ Words.byteSize work')
    (clock clock' : Readings) (j j' : Journal) :
    ∃ status status' after after' k k',
      outcome (Solver.evaluate (.bundled env) qp options clock) ⟨output, m, work⟩ j =
        (.ok status, ⟨after, k⟩) ∧
      outcome (Solver.evaluate (.bundled env') qp options clock') ⟨output', m', work'⟩ j' =
        (.ok status', ⟨after', k'⟩) ∧
      (bo.warmStart = 0 ∨ m.Unstarted ∧ m'.Unstarted →
        status' = status ∧ EndAlike shape status after after') ∧
      (status = .qpFailure → after.output.Blank shape) ∧
      (status' = .qpFailure → after'.output.Blank shape) := by
  subst hqs
  obtain ⟨after, k, hrun, hdelivers⟩ := Solver.outcome_evaluate (d := ⟨output, m, work⟩)
    hm.intact hn hq rfl hv hs hso hbo env hwork clock j
  obtain ⟨after', k', hrun', hdelivers'⟩ := Solver.outcome_evaluate (d := ⟨output', m', work'⟩)
    hm'.intact hn hq rfl hv' hs' hso hbo env' hwork' clock' j'
  have hkeep := Solver.keeps_evaluate env qp options clock ⟨output, m, work⟩ j hm.intact
  have hkeep' := Solver.keeps_evaluate env' qp options clock' ⟨output', m', work'⟩ j' hm'.intact
  rw [hrun] at hkeep
  rw [hrun'] at hkeep'
  refine ⟨_, _, after, after', k, k', hrun, hrun', fun hcold => ?_, hdelivers.blank,
    hdelivers'.blank⟩
  have ht := hm.intact.toTabled
  have ht' := hm'.intact.toTabled
  have htable : m'.backend = m.backend := ht'.backend_eq.trans ht.backend_eq.symm
  have hsame : Dense.attempted qp bo m.backend (m'.layout.backend.part m'.words) =
      Dense.attempted qp bo m.backend (m.layout.backend.part m.words) := by
    rw [Dense.attempted_of_cold (hcold.imp_right fun h => ht.solves_eq_zero h.1),
      Dense.attempted_of_cold (hcold.imp_right fun h => htable ▸ ht'.solves_eq_zero h.2)]
  refine ⟨?_, hdelivers.endAlike hdelivers' ht ht' hkeep.toTabled hkeep'.toTabled hsame⟩
  rw [htable, Dense.verdict_of_attempted_eq hsame]

/-- The zero program over an empty stage and one with a state, on fresh memory and on
memory that was used before. -/
theorem evaluate_cold_lateState :
    ∃ (m m' : SolverMemory IdentityMemory DenseMemory) (options : OptionStore)
      (so : IdentityOptions) (bo : DenseOptions) (status : Status)
      (after after' : SolveDesk IdentityMemory DenseMemory) (k k' : Journal),
      Shape.lateState.horizon < 2 ^ 32 ∧
      SolverMemory.Reached ⟨.lateState, .lateState⟩ m ∧
      SolverMemory.Reached ⟨.lateState, .lateState⟩ m' ∧
      options.strategyOptions IdentityOptions = .ok so ∧
      options.backendOptions DenseOptions = .ok bo ∧ bo.warmStart = 0 ∧
      outcome (Solver.evaluate (.bundled {}) (StageData.blank InputField .lateState) options {})
        ⟨StageData.blank OutputField .lateState, m,
          .zeroed (Overlay.size (.bundled {}) ⟨.lateState, .lateState⟩ so bo)⟩ {} =
        (.ok status, ⟨after, k⟩) ∧
      outcome (Solver.evaluate (.bundled {}) (StageData.blank InputField .lateState) options {})
        ⟨StageData.blank OutputField .lateState, m',
          .zeroed (Overlay.size (.bundled {}) ⟨.lateState, .lateState⟩ so bo)⟩ {} =
        (.ok status, ⟨after', k'⟩) ∧
      EndAlike .lateState status after after' := by
  obtain ⟨fresh, j₀, hassign⟩ := SolverMemory.exists_assign {} ⟨.lateState, .lateState⟩ ⟨0, 0⟩
    ⟨0, 0, 0, 0⟩
  have hfresh := SolverMemory.Reached.assign hassign
  have hused := hfresh.evaluate {} (StageData.blank InputField .lateState)
    OptionStore.zeroed {} (StageData.blank OutputField .lateState)
    (.zeroed (Overlay.size (.bundled {}) ⟨.lateState, .lateState⟩ ⟨0, 0⟩ ⟨0, 0, 0, 0⟩)) {}
  have hso := OptionStore.readable_zeroed.strategyOptions_eq
  have hbo := OptionStore.readable_zeroed.backendOptions_eq
  have hscratch (so bo) := Nat.le_of_eq (Overlay.divide_exact (.bundled {})
    ⟨.lateState, .lateState⟩ so bo).byteSize_zeroed.symm
  obtain ⟨status, status', after, after', k, k', hrun, hrun', halike, -⟩ :=
    evaluate_cold (by decide) hfresh hused hso hbo (StageData.valid_blank .lateState) rfl
      (StageData.valid_blank .lateState) rfl (StageData.valid_blank .lateState) rfl {} {}
      (hscratch _ _) (hscratch _ _) {} {} {} {}
  obtain ⟨rfl, halike⟩ := halike (.inl OptionStore.warmStart_zeroed)
  exact ⟨fresh, _, _, _, _, status', after, after', k, k', by decide, hfresh, hused, hso, hbo,
    OptionStore.warmStart_zeroed, hrun, hrun', halike⟩

/-- Two solves of one program on fresh memory, with no warm start, have no verdict to
compare: over one control, when solves whose number is a multiple of zero are to be logged;
and for some program with a horizon that the map of stages cannot hold. -/
theorem evaluate_without_verdict :
    (∃ qp options d, Solver.Equipped (.firstControl 0) qp options d ∧
      (options.backendOptions DenseOptions).map DenseOptions.warmStart = .ok 0 ∧
      (outcome (Solver.evaluate { Solver.bundled {} with diagnostics := ⟨true, 0⟩ } qp options {})
        d {}).1 = .error .halt) ∧
    ∃ shape qp options d, shape.horizon = 2 ^ 32 ∧ Solver.Equipped shape qp options d ∧
      d.memory.Unstarted ∧
      ∀ clock, Solver.Halts d (Solver.evaluate (.bundled {}) qp options clock) := by
  constructor
  · exact ⟨_, _, _, Solver.equipped_oneControl ⟨0x3ff0000000000000⟩, by decide +kernel,
      by decide +kernel⟩
  · obtain ⟨shape, qp, options, d, hn, hequipped, hfresh, hhalts⟩ := Solver.exists_halting
    exact ⟨shape, qp, options, d, hn, hequipped,
      ⟨_, hfresh.backendState_eq, hfresh.solves_eq_zero⟩, (hhalts {}).1⟩

end StageQp
