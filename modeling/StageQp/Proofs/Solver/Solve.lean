import StageQp.Proofs.Solver.Checks
import StageQp.Proofs.Solver.Reach

/-!
# StageQp.Proofs.Solver.Solve

A solve of the bundled solver, phase by phase: condensing copies the program into
the memory, the backend solves the copy, and the result is copied to the caller.
Each phase is followed on a desk with an intact memory; together they give the
outcome of the whole solve in terms of the backend alone (`outcome_evaluate`).
-/

namespace StageQp

open Procedure SolveDesk

/-! ## What never stops a solve -/

/-- With diagnostics from the environment it is known of every solve whether it is logged. -/
theorem Diagnostics.logs?_ofEnvironment (env : Environment) (solve : UInt64) :
    ∃ b, (ofEnvironment env).logs? solve = some b := by
  have hpos : (ofEnvironment env).every ≠ 0 := by
    unfold ofEnvironment Environment.readOr
    dsimp only
    cases hb : (env.bindings.lookup "XCOND_DIAGNOSTICS_EVERY").bind
        (fun text => (Numeral.count? text).filter (0 < ·)) with
    | none => decide
    | some n =>
        obtain ⟨text, -, hn⟩ := Option.bind_eq_some_iff.1 hb
        have hn := (Option.filter_eq_some_iff.1 hn).2
        intro h
        rw [Option.getD_some] at h
        subst h
        exact absurd hn (by decide)
  cases he : (ofEnvironment env).enabled with
  | false => exact ⟨false, by simp [logs?, he]⟩
  | true => exact ⟨_, by simp [logs?, he, hpos]; rfl⟩

theorem PhaseTimers.condensing?_timers (clock : Readings) :
    ∃ span, clock.timers.condensing? = some span := by
  have hc := clock.condense.toNat_lt
  have he := clock.expand.toNat_lt
  have hfits : clock.condense.toNat + clock.expand.toNat < 2 ^ 64 * 10 ^ 9 := by omega
  exact ⟨_, dif_pos hfits⟩

namespace Solver

variable {shape : Shape} {d : SolveDesk IdentityMemory DenseMemory} {qp : QpInput}

/-- The map of intact memory names every stage, up to a horizon that it holds. -/
theorem stages_eq (hd : d.memory.Intact ⟨shape, shape⟩) (hn : shape.horizon < 2 ^ 32) :
    d.memory.strategy.stages (d.memory.layout.strategy.part d.memory.words) =
      .ok (List.range (shape.horizon + 1)) := by
  rw [hd.stages_eq]
  exact congrArg Except.ok (SolverMemory.stageNumbers_eq_range_iff.2 hn)

/-! ## The phases -/

def programIn (m : SolverMemory IdentityMemory DenseMemory) : QpInput :=
  ⟨m.input, m.layout.input.part m.words⟩

def solutionIn (m : SolverMemory IdentityMemory DenseMemory) : QpOutput :=
  ⟨m.output, m.layout.output.part m.words⟩

def backendIn (m : SolverMemory IdentityMemory DenseMemory) : Words :=
  m.layout.backend.part m.words

/-- What the phases in front of the backend leave as it was. -/
structure Prepares (before after : SolveDesk IdentityMemory DenseMemory) : Prop where
  layout_eq : after.memory.layout = before.memory.layout
  backend_eq : after.memory.backend = before.memory.backend
  backendIn_eq : backendIn after.memory = backendIn before.memory
  solutionIn_eq : solutionIn after.memory = solutionIn before.memory
  output_eq : after.output = before.output
  work_eq : after.work = before.work

theorem Prepares.refl (d : SolveDesk IdentityMemory DenseMemory) : Prepares d d :=
  ⟨rfl, rfl, rfl, rfl, rfl, rfl⟩

theorem Prepares.trans {d e f : SolveDesk IdentityMemory DenseMemory} (h : Prepares d e)
    (g : Prepares e f) : Prepares d f where
  layout_eq := g.layout_eq.trans h.layout_eq
  backend_eq := g.backend_eq.trans h.backend_eq
  backendIn_eq := g.backendIn_eq.trans h.backendIn_eq
  solutionIn_eq := g.solutionIn_eq.trans h.solutionIn_eq
  output_eq := g.output_eq.trans h.output_eq
  work_eq := g.work_eq.trans h.work_eq

theorem Prepares.counted (hd : d.memory.Intact ⟨shape, shape⟩) : Prepares d d.counted where
  layout_eq := rfl
  backend_eq := rfl
  backendIn_eq :=
    hd.part_counted (b := d.memory.layout.backend) (by simp [MemoryLayout.children])
  solutionIn_eq := congrArg (StageData.mk d.memory.output)
    (hd.part_counted (b := d.memory.layout.output) (by simp [MemoryLayout.children]))
  output_eq := rfl
  work_eq := rfl

/-- Nothing stands against a solve that is handed what it asks for. -/
theorem refusal?_eq_none (hd : d.memory.Intact ⟨shape, shape⟩) (hqs : qp.shape = shape)
    (hs : d.output.shape = shape) {total : Nat} (hwork : total ≤ Words.byteSize d.work) :
    d.refusal? shape d.memory.layout total qp = none :=
  refusal?_eq_none_iff.2 ⟨⟨hqs, hs⟩, hwork, hd.flaw?_eq_none⟩

/-- Condensing leaves a copy of the program in the memory. -/
theorem outcome_condense (hd : d.memory.Intact ⟨shape, shape⟩) (hn : shape.horizon < 2 ^ 32)
    (hq : qp.Valid) (hqs : qp.shape = shape) (overlay : Overlay) (j : Journal) :
    ∃ after : SolveDesk IdentityMemory DenseMemory,
      outcome (onInput overlay (Identity.condense qp d.memory.strategy)) d j =
        (.ok (), ⟨after, j⟩) ∧
      after.memory.Intact ⟨shape, shape⟩ ∧ Prepares d after ∧
      after.memory.input = d.memory.input ∧
      ∀ k field, (programIn after.memory).getD k field = qp.getD k field := by
  have hinput : d.memory.input.shape = shape := hd.input_shape
  let desk : Desk QpInput :=
    { record := ⟨d.memory.input, d.memory.layout.input.part d.memory.words⟩
      region := d.memory.layout.strategy.part d.memory.words
      work := overlay.strategy.part d.work }
  obtain ⟨r, hrun, hframe, hfields⟩ := Identity.outcome_condense desk hq
    hd.input_valid (hqs.trans hinput.symm) (by rw [hqs]; exact stages_eq hd hn) j
  have hsize : r.words.size = d.memory.layout.input.span / 8 :=
    hframe.size.trans (Block.size_part hd.input_fits)
  obtain ⟨words, hwords⟩ : ∃ w, w = d.memory.layout.input.put d.memory.words r.words := ⟨_, rfl⟩
  refine ⟨{ d with memory := { d.memory with words := words } }, ?_, ?_,
    ⟨rfl, rfl, ?_, congrArg (StageData.mk d.memory.output) ?_, rfl, rfl⟩, rfl, ?_⟩
  · rw [onInput, outcome_focus,
      show outcome (Identity.condense qp d.memory.strategy) _ j = _ from hrun]
    simp only [desk, Block.put_part, hwords]
  · rw [hwords]
    exact hd.put (by simp) (Nat.le_of_eq hsize)
  · show d.memory.layout.backend.part words = _
    rw [hwords]
    exact Block.part_put_of_apart hd.input_fits.1 hd.backend_fits
      (hd.spaced.apart (i := 3) (j := 2) rfl rfl (by decide)) (Nat.le_of_eq hsize)
  · rw [hwords]
    exact Block.part_put_of_apart hd.input_fits.1 hd.output_fits
      (hd.spaced.apart (i := 3) (j := 4) rfl rfl (by decide)) (Nat.le_of_eq hsize)
  · have hrecord : StageData.mk d.memory.input (d.memory.layout.input.part words) = r := by
      rw [hwords, Block.part_put hd.input_fits hsize, ← show r.layout = d.memory.input from
        hframe.layout]
    intro k field
    show (StageData.mk d.memory.input (d.memory.layout.input.part words)).getD k field = _
    rw [hrecord, hfields]

/-- The backend leaves its region and the solution of the program in the memory. -/
theorem outcome_solve (hd : d.memory.Intact ⟨shape, shape⟩) (hqs : qp.shape = shape)
    (env : Environment) (so : IdentityOptions) (bo : DenseOptions)
    (hwork : Overlay.size (.bundled env) ⟨shape, shape⟩ so bo ≤ Words.byteSize d.work)
    (clock : BackendReadings) (j : Journal) :
    ∃ (after : SolveDesk IdentityMemory DenseMemory) (work : Words) (j' : Journal),
      outcome (onSolution (Overlay.divide (.bundled env) ⟨shape, shape⟩ so bo).1
          (Dense.evaluate qp bo d.memory.backend clock)) d j =
        (.ok (Dense.verdict qp bo d.memory.backend (backendIn d.memory)), ⟨after, j'⟩) ∧
      after.memory.Intact ⟨shape, shape⟩ ∧
      after.memory.layout = d.memory.layout ∧ after.output = d.output ∧
      programIn after.memory = programIn d.memory ∧
      Dense.Leaves qp bo d.memory.backend
        ⟨solutionIn d.memory, backendIn d.memory,
          (Overlay.divide (.bundled env) ⟨shape, shape⟩ so bo).1.backend.part d.work⟩
        ⟨solutionIn after.memory, backendIn after.memory, work⟩ := by
  have houtput : d.memory.output.shape = shape := hd.output_shape
  obtain ⟨overlay, hoverlay⟩ : ∃ o, o = (Overlay.divide (.bundled env) ⟨shape, shape⟩ so bo).1 :=
    ⟨_, rfl⟩
  have hscratch := Overlay.byteSize_backend_part hwork
  rw [← hoverlay] at hscratch ⊢
  obtain ⟨after, j', hrun, hleaves⟩ :=
    Dense.outcome_evaluate (o := bo) (hd.ready hqs hd.output_valid houtput hscratch) clock j
  have hregion : after.region.size = d.memory.layout.backend.span / 8 := by
    rw [hleaves.region_eq, Dense.size_regionAfter, Block.size_part hd.backend_fits]
  have hrecord : after.record.words.size = d.memory.layout.output.span / 8 :=
    hleaves.size_eq.trans (Block.size_part hd.output_fits)
  obtain ⟨words, hwords⟩ : ∃ w, w = d.memory.layout.output.put
    (d.memory.layout.backend.put d.memory.words after.region) after.record.words := ⟨_, rfl⟩
  have hsolution : StageData.mk d.memory.output (d.memory.layout.output.part words) =
      after.record := by
    rw [hwords, Block.part_put hd.output_fits.put hrecord, ← show after.record.layout =
      d.memory.output from hleaves.layout_eq]
  have hbackend : d.memory.layout.backend.part words = after.region := by
    rw [hwords, Block.part_put_of_apart hd.output_fits.1 hd.backend_fits.put
      (hd.spaced.apart (i := 4) (j := 2) rfl rfl (by decide)) (Nat.le_of_eq hrecord),
      Block.part_put hd.backend_fits hregion]
  refine ⟨{ d with memory := { d.memory with words := words }
                   work := overlay.backend.put d.work after.work }, after.work, j', ?_, ?_, rfl,
    rfl, congrArg (StageData.mk d.memory.input) ?_, ?_⟩
  · rw [onSolution, outcome_focus, hrun, hwords]
    rfl
  · have hput := hd.put (b := d.memory.layout.backend) (by simp) (Nat.le_of_eq hregion)
    rw [hwords]
    exact hput.put (b := d.memory.layout.output) (by simp) (Nat.le_of_eq hrecord)
  · rw [hwords, Block.part_put_of_apart hd.output_fits.1 hd.input_fits.put
      (hd.spaced.apart (i := 4) (j := 3) rfl rfl (by decide)) (Nat.le_of_eq hrecord),
      Block.part_put_of_apart hd.backend_fits.1 hd.input_fits
      (hd.spaced.apart (i := 2) (j := 3) rfl rfl (by decide)) (Nat.le_of_eq hregion)]
  · show Dense.Leaves qp bo d.memory.backend _ ⟨StageData.mk d.memory.output
      (d.memory.layout.output.part words), d.memory.layout.backend.part words, after.work⟩
    rw [hsolution, hbackend]
    exact hleaves

/-- Delivering writes what expanding makes of the condensed solution, and its
account with other times. -/
theorem outcome_deliver (hd : d.memory.Intact ⟨shape, shape⟩) (hn : shape.horizon < 2 ^ 32)
    (hv : d.output.Valid) (hs : d.output.shape = shape) (env : Environment)
    (so : IdentityOptions) (overlay : Overlay) (clock : Readings) (solve : UInt64)
    (status : Status) (j : Journal) :
    ∃ (e : QpOutput) (j' : Journal),
      outcome (deliver (.bundled env) so overlay clock solve status) d j =
        (.ok (), ⟨{ d with output := e }, j'⟩) ∧
      (∀ k field, k ≤ shape.horizon → e.getD k field =
        Identity.expanded (so.expandDuals != 0) (solutionIn d.memory) k field) ∧
      e.info.numIter = (solutionIn d.memory).info.numIter ∧
      e.info.tComputed = (solutionIn d.memory).info.tComputed := by
  have houtput : (solutionIn d.memory).shape = shape := hd.output_shape
  let desk : Desk QpOutput :=
    { record := d.output
      region := d.memory.layout.strategy.part d.memory.words
      work := overlay.strategy.part d.work }
  obtain ⟨r, hrun, hframe, hfields⟩ := Identity.outcome_expand (o := so) desk
    (show (solutionIn d.memory).Valid from hd.output_valid) hv (houtput.trans hs.symm)
    (by rw [houtput]; exact stages_eq hd hn) j
  have hrv : r.Valid := hframe.valid hv
  obtain ⟨span, hspan⟩ := PhaseTimers.condensing?_timers clock
  obtain ⟨b, hb⟩ := Diagnostics.logs?_ofEnvironment env solve
  let info : SolveInfo := { (solutionIn d.memory).info with
    condensingTime := span.seconds
    totalTime := (Duration.ofWord clock.total).seconds }
  have honOutput : outcome (onOutput overlay ((Solver.bundled env).strategy.expand
      ⟨d.memory.output, d.memory.layout.output.part d.memory.words⟩ so d.memory.strategy)) d j =
      (.ok (), ⟨{ d with output := r }, j⟩) := by
    have hrun : outcome ((Solver.bundled env).strategy.expand
        ⟨d.memory.output, d.memory.layout.output.part d.memory.words⟩ so d.memory.strategy)
        ⟨d.output, d.memory.layout.strategy.part d.memory.words, overlay.strategy.part d.work⟩ j =
        (.ok (), ⟨{ desk with record := r }, j⟩) := hrun
    rw [onOutput, outcome_focus, hrun]
    simp only [desk, Block.put_part]
  refine ⟨r.setInfo info, if b then j.note (.solved solve status info.numIter clock.timers
    (Duration.ofWord clock.total)) else j, ?_, ?_, ?_, ?_⟩
  · have hlogs : (Solver.bundled env).diagnostics.logs? solve = some b := hb
    simp only [deliver, outcome_bind, outcome_fetch, honOutput, hspan, outcome_need_some,
      outcome_update, hlogs]
    cases b <;> rfl
  · intro k field hk
    rw [StageData.setInfo_sameFields hrv, hfields k field (houtput ▸ hk)]
  · rw [StageData.info_setInfo hrv]
  · rw [StageData.info_setInfo hrv]

/-- What a solve leaves on the desk, in terms of what the backend makes of the program. -/
structure Delivers (qp : QpInput) (duals : Bool) (bo : DenseOptions)
    (before after : SolveDesk IdentityMemory DenseMemory) : Prop where
  layout_eq : after.memory.layout = before.memory.layout
  region_eq : after.memory.layout.backend.part after.memory.words =
    Dense.regionAfter qp bo before.memory.backend
      (before.memory.layout.backend.part before.memory.words)
  program_eq (k : Nat) (field : InputField) :
    (programIn after.memory).getD k field = qp.getD k field
  solution_eq (k : Nat) (field : OutputField) (hk : k ≤ qp.shape.horizon) :
    (solutionIn after.memory).getD k field = Dense.fieldAfter qp bo before.memory.backend
      (before.memory.layout.backend.part before.memory.words) k field
  field_eq (k : Nat) (field : OutputField) (hk : k ≤ qp.shape.horizon) :
    after.output.getD k field = Identity.handedOn duals qp.shape k field
      (Dense.fieldAfter qp bo before.memory.backend
        (before.memory.layout.backend.part before.memory.words) k field)
  numIter_eq : after.output.info.numIter = UInt64.ofNat (Dense.solvesAfter qp bo
    before.memory.backend (before.memory.layout.backend.part before.memory.words))
  tComputed_eq : after.output.info.tComputed = 1

namespace Delivers

variable {duals : Bool} {bo : DenseOptions} {before after : SolveDesk IdentityMemory DenseMemory}

/-- What was prepared is delivered as it would be from the start. -/
theorem of_prepares {e : SolveDesk IdentityMemory DenseMemory} {program : QpInput}
    (h : Delivers program duals bo e after) (hp : Prepares before e)
    (hs : program.shape = qp.shape) (hf : ∀ k field, program.getD k field = qp.getD k field) :
    Delivers qp duals bo before after := by
  have hregion : e.memory.layout.backend.part e.memory.words =
      before.memory.layout.backend.part before.memory.words := hp.backendIn_eq
  refine
    { layout_eq := h.layout_eq.trans hp.layout_eq
      region_eq := ?_
      program_eq := fun k field => (h.program_eq k field).trans (hf k field)
      solution_eq := fun k field hk => ?_
      field_eq := fun k field hk => ?_
      numIter_eq := ?_
      tComputed_eq := h.tComputed_eq }
  · rw [h.region_eq, Dense.regionAfter_congr hs hf, hp.backend_eq, hregion]
  · rw [h.solution_eq k field (hs ▸ hk), Dense.fieldAfter_congr hs hf, hp.backend_eq, hregion]
  · rw [h.field_eq k field (hs ▸ hk), Dense.fieldAfter_congr hs hf, hp.backend_eq, hregion, hs]
  · rw [h.numIter_eq, Dense.solvesAfter_congr hs hf, hp.backend_eq, hregion]

/-- A solve that finds a solution keeps it. -/
theorem solutionOf_eq (h : Delivers qp duals bo before after)
    (hb : before.memory.Tabled ⟨qp.shape, qp.shape⟩)
    (ha : after.memory.Tabled ⟨qp.shape, qp.shape⟩)
    {it : Iterate Binary64 before.memory.backend.order}
    (hit : Dense.iterate? qp bo before.memory.backend (backendIn before.memory) = some it) :
    after.memory.backend.solutionOf (backendIn after.memory) = it.solution.toArray := by
  obtain ⟨hq, hr⟩ := Dense.iterate?_eq_some_iff.1 hit
  have hregion : backendIn after.memory =
      Dense.regionAfter qp bo before.memory.backend (backendIn before.memory) := h.region_eq
  rw [ha.backend_eq.trans hb.backend_eq.symm, hregion]
  exact Dense.solutionOf_regionAfter_of_some hb.fitted hq hr

end Delivers

/-- From the backend on, a solve delivers what the backend makes of the condensed program;
`memory` has the tables. -/
theorem outcome_solveCondensed (hd : d.memory.Intact ⟨shape, shape⟩) (hn : shape.horizon < 2 ^ 32)
    (hv : d.output.Valid) (hs : d.output.shape = shape) (env : Environment) (so : IdentityOptions)
    (bo : DenseOptions)
    (hwork : Overlay.size (.bundled env) ⟨shape, shape⟩ so bo ≤ Words.byteSize d.work)
    (clock : Readings) (solve : UInt64) {memory : SolverMemory IdentityMemory DenseMemory}
    (hlayout : d.memory.layout = memory.layout) (hinput : d.memory.input = memory.input)
    (hbackend : d.memory.backend = memory.backend) (j : Journal) :
    ∃ (after : SolveDesk IdentityMemory DenseMemory) (j' : Journal),
      outcome (solveCondensed (.bundled env) so bo clock solve
          (Overlay.divide (.bundled env) ⟨shape, shape⟩ so bo).1 memory) d j =
        (.ok (Dense.verdict (programIn d.memory) bo d.memory.backend (backendIn d.memory)),
          ⟨after, j'⟩) ∧
      Delivers (programIn d.memory) (so.expandDuals != 0) bo d after := by
  have hshape : (programIn d.memory).shape = shape := hd.input_shape
  obtain ⟨status, hstatus⟩ : ∃ x, x = Dense.verdict (programIn d.memory) bo d.memory.backend
    (backendIn d.memory) := ⟨_, rfl⟩
  obtain ⟨e, work, j₁, hsolve, he, helayout, heoutput, heprogram, hleaves⟩ :=
    outcome_solve hd hshape env so bo hwork clock.backend j
  rw [← hstatus] at hsolve ⊢
  obtain ⟨output, j₂, hdeliver, hfields, hnum, htc⟩ := outcome_deliver (d := e) he hn
    (by rw [heoutput]; exact hv) (by rw [heoutput]; exact hs) env so
    (Overlay.divide (.bundled env) ⟨shape, shape⟩ so bo).1 clock solve status
    (if status.isSuccess then j₁ else j₁.note (.backendVerdict status solve))
  have hsolution : (solutionIn e.memory).shape = shape := he.output_shape
  refine ⟨{ e with output }, j₂, ?_,
    { layout_eq := helayout
      region_eq := hleaves.region_eq
      program_eq := fun k field => congrArg (StageData.getD · k field) heprogram
      solution_eq := fun k field hk => hleaves.field_eq k field hk
      field_eq := fun k field hk => ?_
      numIter_eq := hnum.trans hleaves.numIter_eq
      tComputed_eq := htc.trans hleaves.tComputed_eq }⟩
  · have hprogram : StageData.mk memory.input (memory.layout.input.part d.memory.words) =
        programIn d.memory := by rw [programIn, hinput, hlayout]
    have hsolve : outcome (onSolution (Overlay.divide (.bundled env) ⟨shape, shape⟩ so bo).1
        ((Solver.bundled env).backend.evaluate (programIn d.memory) bo memory.backend
          clock.backend)) d j = (.ok status, ⟨e, j₁⟩) := by
      rw [← hbackend]
      exact hsolve
    simp only [solveCondensed, outcome_bind, outcome_fetch, hprogram, hsolve]
    cases hsuccess : status.isSuccess with
    | true =>
        rw [hsuccess, if_pos rfl] at hdeliver
        simp only [if_true, outcome_bind, hdeliver, outcome_pure]
    | false =>
        rw [hsuccess, if_neg Bool.false_ne_true] at hdeliver
        simp only [Bool.false_eq_true, if_false, outcome_bind, outcome_note, hdeliver,
          outcome_pure]
  · rw [hshape] at hk ⊢
    show output.getD k field = _
    rw [hfields k field hk, Identity.expanded_eq_handedOn, hsolution]
    exact congrArg (Identity.handedOn _ shape k field) (hleaves.field_eq k field (hshape ▸ hk))

/-- A solve gives the verdict of the backend on the program itself. -/
theorem outcome_evaluate (hd : d.memory.Intact ⟨shape, shape⟩) (hn : shape.horizon < 2 ^ 32)
    (hq : qp.Valid) (hqs : qp.shape = shape) (hv : d.output.Valid) (hs : d.output.shape = shape)
    {options : OptionStore} {so : IdentityOptions} {bo : DenseOptions}
    (hso : options.strategyOptions IdentityOptions = .ok so)
    (hbo : options.backendOptions DenseOptions = .ok bo) (env : Environment)
    (hwork : Overlay.size (.bundled env) ⟨shape, shape⟩ so bo ≤ Words.byteSize d.work)
    (clock : Readings) (j : Journal) :
    ∃ (after : SolveDesk IdentityMemory DenseMemory) (j' : Journal),
      outcome (evaluate (.bundled env) qp options clock) d j =
        (.ok (Dense.verdict qp bo d.memory.backend
          (d.memory.layout.backend.part d.memory.words)), ⟨after, j'⟩) ∧
      Delivers qp (so.expandDuals != 0) bo d after := by
  have hbegin := ((checksFirst_of_laid (.bundled env) hd.toLaid hso hbo qp).begun
    (refusal?_eq_none hd hqs hs hwork) clock j).1
  obtain ⟨e, hcondense, he, hprepares, hinput, hfields⟩ := outcome_condense (d := d.counted)
    hd.counted hn hq hqs (Overlay.divide (.bundled env) ⟨shape, shape⟩ so bo).1 j
  have hp := (Prepares.counted hd).trans hprepares
  have hshape : (programIn e.memory).shape = qp.shape := he.input_shape.trans hqs.symm
  obtain ⟨after, j', hsolve, hdelivers⟩ := outcome_solveCondensed he hn
    (by rw [hp.output_eq]; exact hv) (by rw [hp.output_eq]; exact hs) env so bo
    (by rw [hp.work_eq]; exact hwork) clock (d.memory.word 2 + 1) hprepares.layout_eq hinput
    hprepares.backend_eq j
  rw [Dense.verdict_congr hshape hfields, hp.backend_eq, hp.backendIn_eq] at hsolve
  refine ⟨after, j', ?_, hdelivers.of_prepares hp hshape hfields⟩
  have hcondense : outcome (onInput (Overlay.divide (.bundled env) ⟨shape, shape⟩ so bo).1
      ((Solver.bundled env).strategy.condense qp so d.counted.memory.strategy)) d.counted j =
      (.ok (), ⟨e, j⟩) := hcondense
  rw [hbegin]
  simp only [proceed, outcome_bind, outcome_fetch, hcondense]
  exact hsolve

/-- A sensitivity request leaves a copy of the program in the memory, and is not supported. -/
theorem outcome_evaluateSensitivity (hd : d.memory.Intact ⟨shape, shape⟩)
    (hn : shape.horizon < 2 ^ 32) (hq : qp.Valid) (hqs : qp.shape = shape)
    (hs : d.output.shape = shape) {options : OptionStore} {so : IdentityOptions}
    {bo : DenseOptions} (hso : options.strategyOptions IdentityOptions = .ok so)
    (hbo : options.backendOptions DenseOptions = .ok bo) (env : Environment)
    (hwork : Overlay.size (.bundled env) ⟨shape, shape⟩ so bo ≤ Words.byteSize d.work)
    (j : Journal) :
    ∃ after : SolveDesk IdentityMemory DenseMemory,
      outcome (evaluateSensitivity (.bundled env) qp options) d j =
        (.error (.fault (.unsupported .sensitivity)), ⟨after, j.note .sensitivityRequested⟩) ∧
      Prepares d after ∧
      ∀ k field, (programIn after.memory).getD k field = qp.getD k field := by
  obtain ⟨overlay, hoverlay⟩ : ∃ o, o = (Overlay.divide (.bundled env) ⟨shape, shape⟩ so bo).1 :=
    ⟨_, rfl⟩
  have hbegin := ((checksFirst_of_laid (.bundled env) hd.toLaid hso hbo qp).begun
    (refusal?_eq_none hd hqs hs hwork) {} j).2
  rw [← hoverlay] at hbegin
  obtain ⟨after, hcondense, -, hp, -, hfields⟩ :=
    outcome_condense (d := d.counted) hd.counted hn hq hqs overlay j
  have hcondense : outcome (onInput overlay
      ((Solver.bundled env).strategy.condense qp so d.counted.memory.strategy)) d.counted j =
      (.ok (), ⟨after, j⟩) := hcondense
  refine ⟨after, ?_, (Prepares.counted hd).trans hp, hfields⟩
  rw [hbegin]
  simp only [proceed, refuseCondensed, outcome_bind, outcome_fetch, hcondense, outcome_note,
    outcome_fail]

end Solver

end StageQp
