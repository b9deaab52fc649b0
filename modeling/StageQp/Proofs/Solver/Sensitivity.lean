import StageQp.Proofs.Shape.Record
import StageQp.Proofs.Solver.Condensing
import StageQp.Proofs.Solver.History
import StageQp.Proofs.Solver.Scratch
import StageQp.Proofs.Solver.StageMap

/-!
# StageQp.Proofs.Solver.Sensitivity

Sensitivity requests are inert apart from condensing (`sensitivity_inert`): what they
leave in a memory is not looked at before it is written again.

Two runs are compared, one with sensitivity requests and one without.  Their memories
differ in the epoch, in times and in fields of the condensed program; a sensitivity
request on one side keeps that, and so does a solve on both, which forgets the condensed
program as soon as it is begun (`Call.solve_alike`).
-/

namespace StageQp

open Procedure

/-! ## Memories with other condensed programs -/

namespace SolverMemory

/-- Both memories lie like `m`, and hold the same but for the epoch, the fields of the
condensed program and the times of the condensed solution. -/
structure SameButCondensed (m a b : SolverMemory IdentityMemory DenseMemory) : Prop where
  eq : a = { m with words := a.words }
  other_eq : b = { m with words := b.words }
  size_eq : a.words.size = m.words.size
  halves : Words.ChangesOnly (fun i => m.CondensesHalf i ∨ ¬m.Untimed (i / 2)) a.words b.words

namespace SameButCondensed

variable {m a b c : SolverMemory IdentityMemory DenseMemory}

theorem refl (m : SolverMemory IdentityMemory DenseMemory) : SameButCondensed m m m :=
  ⟨rfl, rfl, rfl, .refl _ _⟩

theorem symm (h : SameButCondensed m a b) : SameButCondensed m b a :=
  ⟨h.other_eq, h.eq, h.halves.size_eq.trans h.size_eq, h.halves.symm⟩

theorem trans (h : SameButCondensed m a b) (g : SameButCondensed m b c) : SameButCondensed m a c :=
  ⟨h.eq, g.other_eq, h.size_eq, h.halves.trans g.halves⟩

/-- What condensing changes is allowed for. -/
theorem of_condensesHalf (ha : a = { m with words := a.words })
    (hs : a.words.size = m.words.size) {w : Words}
    (h : Words.ChangesOnly a.CondensesHalf a.words w) :
    SameButCondensed m a { a with words := w } where
  eq := ha
  other_eq := by rw [ha]
  size_eq := hs
  halves := by
    rw [ha] at h
    exact h.mono fun _ hi => .inl hi

variable {shapes : ShapePair}

theorem tabled (h : SameButCondensed m a b) (hm : m.Tabled shapes) : a.Tabled shapes := by
  rw [h.eq]
  exact hm.withWords h.size_eq

theorem other_tabled (h : SameButCondensed m a b) (hm : m.Tabled shapes) : b.Tabled shapes :=
  h.symm.tabled hm

/-- Counting a solve in both. -/
theorem counted (h : SameButCondensed m a b) : SameButCondensed m a.counted b.counted := by
  have ha := of_condensesHalf h.eq h.size_eq (Laid.changesOnly_counted (m := a))
  have hb := of_condensesHalf h.other_eq h.symm.size_eq (Laid.changesOnly_counted (m := b))
  exact (ha.symm.trans h).trans hb

/-- Writing a condensed program to both, field by field. -/
theorem withProgram (h : SameButCondensed m a b) (hm : m.Tabled shapes) {r s : QpInput}
    (hr : (Solver.programIn a).OnlyFields r) (hs : (Solver.programIn b).OnlyFields s) :
    SameButCondensed m (a.withProgram r) (b.withProgram s) := by
  have ha := of_condensesHalf h.eq h.size_eq ((h.tabled hm).changesOnly_withProgram hr)
  have hb := of_condensesHalf h.other_eq h.symm.size_eq
    ((h.other_tabled hm).changesOnly_withProgram hs)
  exact (ha.symm.trans h).trans hb

/-- The regions of the modules are the same. -/
theorem part_eq (h : SameButCondensed m a b) (hm : m.Tabled shapes) {c : Block}
    (hc : c ∈ [m.layout.strategy, m.layout.backend]) : c.part b.words = c.part a.words := by
  refine Block.part_eq_of_changesOnly h.halves fun i hlo hhi => ?_
  have hfront : c ∈ [m.layout.header, m.layout.strategy, m.layout.backend, m.layout.input] :=
    List.mem_cons_of_mem _ (List.mem_append_left [m.layout.input] hc)
  have hout := hm.lt_output hfront hhi
  have hcond := hm.not_condensesHalf (List.mem_append_left [m.layout.output] hc) hlo hhi
  rw [not_or, not_not]
  exact ⟨hcond, .inl hout⟩

/-- The condensed programs differ in fields only. -/
theorem refills (h : SameButCondensed m a b) (hm : m.Tabled shapes) :
    (Solver.programIn a).Refills (Solver.programIn b) where
  layout_eq := by
    show b.input = a.input
    rw [h.eq, h.other_eq]
  valid := (h.tabled hm).input_valid
  halves := by
    rw [h.eq, h.other_eq]
    show Words.ChangesOnly m.input.HoldsHalf (m.layout.input.part a.words)
      (m.layout.input.part b.words)
    refine Block.changesOnly_part (hm.input_fits.congr h.size_eq) h.halves fun k hk hchanged => ?_
    have hheader := hm.le_firstWord (b := m.layout.input) (by simp [MemoryLayout.children])
    have hpast := Block.pastWord_eq hm.input_fits.1
    have hmod := m.layout.input.span_mod
    rcases hchanged with (hepoch | ⟨i, hi, heq⟩) | hout
    · omega
    · exact Nat.add_left_cancel heq ▸ hi
    · exact absurd (.inl (hm.lt_output (c := m.layout.input) (by simp) (by omega))) hout

/-- If the condensed programs are the same, no more than the epoch and times differs. -/
theorem sameBut (h : SameButCondensed m a b) (hm : m.Tabled shapes)
    (hp : Solver.programIn b = Solver.programIn a) : SameBut (· = 2) m a b where
  eq := h.eq
  other_eq := h.other_eq
  size_eq := h.size_eq
  words := by
    have hpart : m.layout.input.part b.words = m.layout.input.part a.words := by
      rw [h.eq, h.other_eq] at hp
      exact congrArg StageData.words hp
    refine .of_part (hm.input_fits.congr h.size_eq) (h.halves.agreeOn fun i hi => ?_) hpart
    have hhalf {n : Nat} (hn : n / 2 = i) : ¬(m.CondensesHalf n ∨ ¬m.Untimed (n / 2)) := by
      rw [not_or, not_not, hn]
      refine ⟨fun hc => ?_, hi.1.1⟩
      rcases hm.input_of_condensesHalf hc with hepoch | hin
      · exact hi.1.2 (hn.symm.trans hepoch)
      · exact hi.2 (hn ▸ hin)
    exact ⟨hhalf (by omega), hhalf (by omega)⟩

end SameButCondensed

/-- Memories that differ in no more than the epoch and times. -/
theorem SameBut.sameButCondensed {m a b : SolverMemory IdentityMemory DenseMemory}
    (h : SameBut (· = 2) m a b) : SameButCondensed m a b where
  eq := h.eq
  other_eq := h.other_eq
  size_eq := h.size_eq
  halves := .of_agreeOn h.words fun i hi => ⟨by
    by_contra hu
    exact hi (.inr hu), fun he => hi (.inl (.inl he))⟩

end SolverMemory

/-! ## Two solves -/

namespace Solver

open SolverMemory SolveDesk

variable {m : SolverMemory IdentityMemory DenseMemory} {l : Layout OutputField} {shape : Shape}
variable {d e : SolveDesk IdentityMemory DenseMemory}

/-- Two solves came to the same end and left solutions that differ in times only.  With an
answer, the condensed programs are the same again. -/
structure EndsAlike (m : SolverMemory IdentityMemory DenseMemory) (l : Layout OutputField)
    (r s : Except Stop Status × Noted (SolveDesk IdentityMemory DenseMemory)) : Prop where
  answer_eq : s.1 = r.1
  output : StageData.SameButTimes l r.2.value.output s.2.value.output
  memory : SameButCondensed m r.2.value.memory s.2.value.memory
  answered (status : Status) (h : r.1 = .ok status) :
    SameBut (· = 2) m r.2.value.memory s.2.value.memory

section Both

variable (hm : m.Tabled ⟨shape, shape⟩) (h : SameButCondensed m d.memory e.memory)

include hm h

/-- Condensing is handed records that differ in fields only. -/
theorem inputDesk_refills (o : Overlay) : (d.inputDesk o).Refills (e.inputDesk o) := by
  refine ⟨?_, h.refills hm⟩
  show e.memory.layout.strategy.part e.memory.words = d.memory.layout.strategy.part d.memory.words
  rw [h.eq, h.other_eq]
  exact h.part_eq hm (by simp)

/-- Once condensing has come through, what was condensed before is forgotten. -/
theorem sameBut_of_condense (hd : d.memory.Intact ⟨shape, shape⟩) {o : Overlay} {qp : QpInput}
    {j k : Journal} {s t : Noted (Desk QpInput)}
    (hs : (programIn d.memory).OnlyFields s.value.record)
    (ht : (programIn e.memory).OnlyFields t.value.record)
    (hrun : outcome (Identity.condense qp d.memory.strategy) (d.inputDesk o) j = (.ok (), s))
    (hother : outcome (Identity.condense qp d.memory.strategy) (e.inputDesk o) k = (.ok (), t)) :
    SameBut (· = 2) m (d.memory.withProgram s.value.record)
      (e.memory.withProgram t.value.record) := by
  have hlen : (stageNumbers (shape.horizon + 1)).length =
      (d.inputDesk o).record.shape.horizon + 1 := by
    show _ = d.memory.input.shape.horizon + 1
    rw [hd.input_shape]
    simp [stageNumbers]
  have hrecord : t.value.record = s.value.record :=
    Identity.condense_forgets (inputDesk_refills hm h o) hd.stages_eq hlen hrun hother
  have hprogram : programIn (e.memory.withProgram t.value.record) =
      programIn (d.memory.withProgram s.value.record) :=
    ((h.other_tabled hm).program_withProgram ht).trans
      (hrecord.trans (hd.program_withProgram hs).symm)
  exact (h.withProgram hm hs ht).sameBut hm hprogram

/-- From condensing on, a solve does not know what was condensed before. -/
theorem proceed_endsAlike (hd : d.memory.Intact ⟨shape, shape⟩)
    (ho : StageData.SameButTimes l d.output e.output) (hw : e.work.size = d.work.size)
    (env : Environment) (qp : QpInput) (so : IdentityOptions) (bo : DenseOptions)
    (hwork : Overlay.size (.bundled env) ⟨shape, shape⟩ so bo ≤ Words.byteSize d.work)
    (clock clock' : Readings) (solve solve' : UInt64) (j k : Journal) :
    let o := (Overlay.divide (.bundled env) ⟨shape, shape⟩ so bo).1
    EndsAlike m l
      (outcome (proceed (.bundled env) qp so o (solveCondensed (.bundled env) so bo clock solve o))
        d j)
      (outcome (proceed (.bundled env) qp so o
        (solveCondensed (.bundled env) so bo clock' solve' o)) e k) := by
  intro o
  have htable : e.memory.strategy = d.memory.strategy := by rw [h.eq, h.other_eq]
  have hscratch (work : Words) (hs : work.size = d.work.size ∨ work.size = d.work.size) :
      (DenseScratch.ofOrder m.backend.order).total ≤ Words.byteSize (o.backend.part work) := by
    rw [hm.backend_eq]
    refine Overlay.byteSize_backend_part ?_
    rwa [Words.byteSize, hs.elim id id]
  obtain ⟨hs, hdrun⟩ := outcome_proceed d hd.input_valid env qp so o
    (solveCondensed (.bundled env) so bo clock solve o) j
  obtain ⟨ht, herun⟩ := outcome_proceed e (h.other_tabled hm).input_valid env qp so o
    (solveCondensed (.bundled env) so bo clock' solve' o) k
  rw [htable] at ht herun
  rw [hdrun, herun]
  obtain ⟨hresult, -⟩ := Identity.alike_condense_over qp d.memory.strategy _ _ j k
    (inputDesk_refills hm h o)
  cases hrun : outcome (Identity.condense qp d.memory.strategy) (d.inputDesk o) j with
  | mk result s =>
      cases hother : outcome (Identity.condense qp d.memory.strategy) (e.inputDesk o) k with
      | mk result' t =>
          rw [hrun] at hs hresult
          rw [hother] at ht hresult
          obtain rfl : result = result' := hresult.symm
          cases result with
          -- fields that condensing reached are the same, the others as different as before
          | error stop => exact ⟨rfl, ho, h.withProgram hm hs ht, fun _ hok => by cases hok⟩
          | ok =>
              have hsame := sameBut_of_condense hm h hd hs ht hrun hother
              have halike : Alike (MatchesBut (· = 2) m l d.work.size d.work.size)
                  (solveCondensed (.bundled env) so bo clock solve o d.memory)
                  (solveCondensed (.bundled env) so bo clock' solve' o e.memory) :=
                alike_solveCondensed (by simp) hm env so bo o hscratch _ _ _ _ h.eq h.other_eq
              obtain ⟨hanswer, hmatch⟩ := halike (d.withProgram s.value.record)
                (e.withProgram t.value.record) s.journal t.journal ⟨hsame, ho, rfl, hw⟩
              exact ⟨hanswer, hmatch.output, hmatch.memory.sameButCondensed,
                fun _ _ => hmatch.memory⟩

end Both

end Solver

/-! ## Calls, with and without sensitivity requests -/

namespace Call

open SolverMemory

/-- The solves among calls: the answer to each, and what it leaves. -/
def solves (m : SolverMemory IdentityMemory DenseMemory) :
    List Call → List (Except Stop Status × Noted (SolveDesk IdentityMemory DenseMemory))
  | [] => []
  | c :: calls =>
    if c.sensitivity then solves (c.run m).2.value.memory calls
    else c.run m :: solves (c.run m).2.value.memory calls

/-- The second call is the first once more: the same request with a solution of the same
fields to write and as much scratch. -/
structure Repeats (c c' : Call) : Prop where
  request_eq : c'.toRequest = c.toRequest
  output : StageData.SameButTimes c.output.layout c.output c'.output
  work_eq : c'.work.size = c.work.size

theorem Repeats.refl (c : Call) : Repeats c c := ⟨rfl, .refl c.output, rfl⟩

/-- Two solves gave the same answer and the same solution, counted the same iterations,
and left the same region of the backend.  Their memories lie like `m` and differ in the
epoch, in fields of the condensed program and in times; with an answer, in the epoch and
in times only. -/
structure SolvedAlike (m : SolverMemory IdentityMemory DenseMemory)
    (r s : Except Stop Status × Noted (SolveDesk IdentityMemory DenseMemory)) : Prop where
  answer_eq : s.1 = r.1
  output : StageData.SameButTimes r.2.value.output.layout r.2.value.output s.2.value.output
  field_eq (k : Nat) (field : OutputField) :
    s.2.value.output.get? k field = r.2.value.output.get? k field
  numIter_eq : s.2.value.output.info.numIter = r.2.value.output.info.numIter
  tComputed_eq : s.2.value.output.info.tComputed = r.2.value.output.info.tComputed
  backend_eq : s.2.value.memory.backendRegion = r.2.value.memory.backendRegion
  memory : SameButCondensed m r.2.value.memory s.2.value.memory
  answered (status : Status) (h : r.1 = .ok status) :
    SameBut (· = 2) m r.2.value.memory s.2.value.memory

variable {m a b : SolverMemory IdentityMemory DenseMemory} {shape : Shape} {c c' : Call}

/-- Solves that end alike hand out the same and leave the backend the same. -/
theorem solvedAlike_of_endsAlike (hm : m.Tabled ⟨shape, shape⟩) {l : Layout OutputField}
    (hl : l = .ofShape OutputField l.shape)
    {r s : Except Stop Status × Noted (SolveDesk IdentityMemory DenseMemory)}
    (h : Solver.EndsAlike m l r s) : SolvedAlike m r s where
  answer_eq := h.answer_eq
  output := by
    rw [h.output.layout_eq]
    exact h.output
  field_eq := h.output.get?_eq_of_layout hl
  numIter_eq := h.output.numIter_eq
  tComputed_eq := h.output.tComputed_eq
  backend_eq := by
    rw [backendRegion, backendRegion, (h.memory.tabled hm).backend_fits.slice,
      (h.memory.other_tabled hm).backend_fits.slice, h.memory.eq, h.memory.other_eq]
    exact congrArg Except.ok (h.memory.part_eq hm (by simp))
  memory := h.memory
  answered := h.answered

/-- A solve forgets what a sensitivity request left in the memory. -/
theorem solve_alike (hc : c.Repeats c') (hs : c.sensitivity = false)
    (hm : m.Tabled ⟨shape, shape⟩) (ha : a.Intact ⟨shape, shape⟩) (hb : b.Intact ⟨shape, shape⟩)
    (h : SameButCondensed m a b) : SolvedAlike m (c.run a) (c'.run b) := by
  refine solvedAlike_of_endsAlike hm c.output_valid.layout_eq ?_
  have hd : (c.desk a).memory.Intact ⟨shape, shape⟩ := ha
  have he : (c'.desk b).memory.Intact ⟨shape, shape⟩ := hb
  have hrefusal : c.refusal? shape (c'.desk b) = c.refusal? shape (c.desk a) := by
    have hshape : (c'.desk b).output.shape = (c.desk a).output.shape := hc.output.shape_eq
    have hwork : Words.byteSize (c'.desk b).work = Words.byteSize (c.desk a).work :=
      congrArg (· * 8) hc.work_eq
    rw [Request.refusal?, Request.refusal?, SolveDesk.refusal?, SolveDesk.refusal?,
      hd.flaw?_eq_none, he.flaw?_eq_none, hshape, hwork]
  have hrun : c'.run b = outcome (c.procedure c'.clock) (c'.desk b) c'.journal := by
    rw [run, hc.request_eq]
  rw [hrun, run]
  cases hr : c.refusal? shape (c.desk a) with
  | some f =>
      rw [Request.outcome_refused hd hr, Request.outcome_refused he (hrefusal.trans hr)]
      exact ⟨rfl, hc.output, h, fun _ hok => by cases hok⟩
  | none =>
      have hbegun := ((Request.checksFirst hd).begun hr c.clock c.journal).1
      have hbegun' := ((Request.checksFirst he).begun (hrefusal.trans hr) c'.clock c'.journal).1
      have hwork := (SolveDesk.refusal?_eq_none_iff.1 hr).2.1
      rw [Request.procedure, Request.procedure, hs, if_neg Bool.false_ne_true,
        if_neg Bool.false_ne_true, hbegun, hbegun']
      exact Solver.proceed_endsAlike (d := (c.desk a).counted) (e := (c'.desk b).counted) hm
        h.counted hd.counted hc.output hc.work_eq c.env c.qp c.so c.bo hwork _ _ _ _ _ _

/-- To a sensitivity request the run without it has nothing to match. -/
theorem sensitivity_condensed (hs : c.sensitivity = true) (ha : a.Intact ⟨shape, shape⟩)
    (h : SameButCondensed m a b) : SameButCondensed m (c.run a).2.value.memory b := by
  have hinert := Solver.evaluateSensitivity_inert (d := c.desk a) c.env ha.toTabled c.so_eq c.bo_eq
    c.qp
  rw [run, Request.procedure, hs, if_pos rfl]
  cases hr : c.refusal? shape (c.desk a) with
  | some f =>
      rw [hinert.refused f hr]
      exact h
  | none =>
      obtain ⟨stop, after, j', hrun, -, honly⟩ := hinert.begun hr c.journal
      rw [hrun, honly.memory_eq]
      exact (SameButCondensed.of_condensesHalf h.eq h.size_eq honly.halves).symm.trans h

/-- The solves of any calls, and of those without sensitivity requests. -/
theorem solves_alike (hm : m.Tabled ⟨shape, shape⟩) (ha : a.Intact ⟨shape, shape⟩)
    (hb : b.Intact ⟨shape, shape⟩) (h : SameButCondensed m a b) {calls repeated : List Call}
    (hr : List.Forall₂ Repeats (calls.filter fun c => !c.sensitivity) repeated) :
    List.Forall₂ (SolvedAlike m) (solves a calls) (solves b repeated) := by
  -- at a sensitivity request the first run goes on alone, so what holds of the two memories
  -- has to outlast a step of one side
  induction calls generalizing a b repeated with
  | nil =>
      cases hr
      exact .nil
  | cons c calls ih =>
      cases hs : c.sensitivity with
      | true =>
          rw [List.filter_cons_of_neg (by simp [hs])] at hr
          rw [solves, hs, if_pos rfl]
          exact ih (c.intact_run ha) hb (sensitivity_condensed hs ha h) hr
      | false =>
          rw [List.filter_cons_of_pos (by simp [hs])] at hr
          cases hr with
          | @cons _ c' _ rest hc hrest =>
              have hs' : c'.sensitivity = false := by rw [hc.request_eq, hs]
              have halike := solve_alike hc hs hm ha hb h
              rw [solves, solves, hs, hs', if_neg Bool.false_ne_true, if_neg Bool.false_ne_true]
              exact .cons halike (ih (c.intact_run ha) (c'.intact_run hb) halike.memory hrest)

end Call

/-! ## Sensitivity requests -/

/-- The condensed program in the memory has the fields of this one. -/
def SolverMemory.HoldsProgram (m : SolverMemory IdentityMemory DenseMemory) (qp : QpInput) :
    Prop :=
  ∃ p, m.condensedInput = .ok p ∧ ∀ k field, p.get? k field = qp.get? k field

namespace Solver

open SolveDesk

variable {shape : Shape} {d : SolveDesk IdentityMemory DenseMemory} {qp : QpInput}

/-- Intact memory holds a program if it has its fields. -/
theorem holdsProgram_of_getD {m : SolverMemory IdentityMemory DenseMemory}
    (hm : m.Intact ⟨shape, shape⟩) (hq : qp.Valid) (hqs : qp.shape = shape)
    (h : ∀ k field, (programIn m).getD k field = qp.getD k field) : m.HoldsProgram qp := by
  have hvalid : (programIn m).Valid := hm.input_valid
  have hshape : (programIn m).shape = qp.shape := hm.input_shape.trans hqs.symm
  exact ⟨programIn m, hm.condensedInput_eq, fun k field => hq.get?_congr hvalid hshape (h k field)⟩

/-- A sensitivity request that passes its checks leaves its program in the memory. -/
theorem evaluateSensitivity_condenses (hd : d.memory.Intact ⟨shape, shape⟩)
    (hn : shape.horizon < 2 ^ 32) (hq : qp.Valid) {options : OptionStore} {so : IdentityOptions}
    {bo : DenseOptions} (hso : options.strategyOptions IdentityOptions = .ok so)
    (hbo : options.backendOptions DenseOptions = .ok bo) (env : Environment)
    (hr : d.refusal? shape d.memory.layout (Overlay.size (.bundled env) ⟨shape, shape⟩ so bo) qp =
      none) (j : Journal) :
    ∃ after, outcome (evaluateSensitivity (.bundled env) qp options) d j =
        (.error (.fault (.unsupported .sensitivity)), ⟨after, j.note .sensitivityRequested⟩) ∧
      d.OnlyCondenses after ∧ after.memory.HoldsProgram qp := by
  obtain ⟨⟨hqs, hs⟩, hw, -⟩ := refusal?_eq_none_iff.1 hr
  obtain ⟨after, hrun, -, hfields⟩ :=
    outcome_evaluateSensitivity hd hn hq hqs hs hso hbo env hw j
  obtain ⟨stop, after', j', hrun', -, honly⟩ :=
    (evaluateSensitivity_inert env hd.toTabled hso hbo qp).begun hr j
  have hafter : after'.memory.Intact ⟨shape, shape⟩ := by
    have hkeep : Keeps (Intact ⟨shape, shape⟩) (evaluateSensitivity (.bundled env) qp options) :=
      keeps_evaluateSensitivity env qp options
    have hintact := hkeep d j hd
    rwa [hrun'] at hintact
  rw [hrun] at hrun'
  cases hrun'
  exact ⟨after, hrun, honly, holdsProgram_of_getD hafter hq hqs hfields⟩

end Solver

/-- No solver answers a sensitivity request.  On the bundled solver, whatever words its
memory holds, one that is refused changes nothing, and one that is not changes the epoch
and fields of the condensed program and nothing else.  If the map of stages names every
stage, it is then unsupported, and the condensed program is the one of the request.  The
map of memory that calls led to does, up to a horizon that it can hold
(`SolverMemory.Intact.namesEveryStage_iff`); over one that was written over a request may
halt.

Whatever calls a memory goes through, the solves among them end the same without the
sensitivity requests in between: with the same answers, solutions and regions of the
backend, and with memories that differ in the epoch and the times only.  Nothing ends the
run: what holds of all calls holds of those up to one that halts. -/
theorem sensitivity_inert :
    (∀ {δ ο μ β ν : Type} [Record ο] [Record β] (s : Solver δ ο μ β ν) (qp : QpInput)
      (options : OptionStore) (d : SolveDesk μ ν) (j : Journal) (status : Status),
      (outcome (s.evaluateSensitivity qp options) d j).1 ≠ .ok status) ∧
    (∀ (env : Environment) (shape : Shape) (so₀ so : IdentityOptions) (bo₀ bo : DenseOptions)
      (options : OptionStore) (d : SolveDesk IdentityMemory DenseMemory) (qp : QpInput),
      options.strategyOptions IdentityOptions = .ok so →
      options.backendOptions DenseOptions = .ok bo →
      d.memory.Overwritten (.bundled env) ⟨shape, shape⟩ so₀ bo₀ →
      Solver.InertOn d (d.refusal? shape d.memory.layout
        (Overlay.size (.bundled env) ⟨shape, shape⟩ so bo) qp)
        (Solver.evaluateSensitivity (.bundled env) qp options)) ∧
    (∀ (env : Environment) (shape : Shape) (so : IdentityOptions) (bo : DenseOptions)
      (options : OptionStore) (d : SolveDesk IdentityMemory DenseMemory) (qp : QpInput),
      options.strategyOptions IdentityOptions = .ok so →
      options.backendOptions DenseOptions = .ok bo →
      d.memory.Tabled ⟨shape, shape⟩ → d.memory.NamesEveryStage shape → qp.Valid →
      d.refusal? shape d.memory.layout (Overlay.size (.bundled env) ⟨shape, shape⟩ so bo) qp =
        none →
      ∀ j, ∃ after, outcome (Solver.evaluateSensitivity (.bundled env) qp options) d j =
          (.error (.fault (.unsupported .sensitivity)), ⟨after, j.note .sensitivityRequested⟩) ∧
        d.OnlyCondenses after ∧ after.memory.HoldsProgram qp) ∧
    ∀ (shape : Shape) (m : SolverMemory IdentityMemory DenseMemory) (calls repeated : List Call),
      SolverMemory.Reached ⟨shape, shape⟩ m →
      List.Forall₂ Call.Repeats (calls.filter fun c => !c.sensitivity) repeated →
      List.Forall₂ (Call.SolvedAlike m) (Call.solves m calls) (Call.solves m repeated) := by
  refine ⟨fun s qp options d j status h => ?_, ?_, ?_, ?_⟩
  · exact s.evaluateSensitivity_neverEnds qp options d j status _ (Prod.ext h rfl)
  · intro env shape so₀ so bo₀ bo options d qp hso hbo hd
    exact Solver.evaluateSensitivity_inert env hd.tabled hso hbo qp
  · intro env shape so bo options d qp hso hbo hd hstages hq hr j
    have hi := hd.intact (SolveDesk.refusal?_eq_none_iff.1 hr).2.2 hstages
    exact Solver.evaluateSensitivity_condenses hi hstages.horizon_lt hq hso hbo env hr j
  · intro shape m calls repeated hm hr
    exact Call.solves_alike hm.intact.toTabled hm.intact hm.intact (.refl m) hr

/-- Over an empty stage and one with a state: a sensitivity request on fresh memory, and
two solves without the one in between. -/
theorem sensitivity_inert_lateState :
    ∃ (m : SolverMemory IdentityMemory DenseMemory) (solve request : Call)
      (after : SolveDesk IdentityMemory DenseMemory),
      SolverMemory.Reached ⟨.lateState, .lateState⟩ m ∧ m.NamesEveryStage .lateState ∧
      solve.sensitivity = false ∧ request.sensitivity = true ∧
      m.Overwritten (.bundled {}) ⟨.lateState, .lateState⟩ ⟨0, 0⟩ ⟨0, 0, 0, 0⟩ ∧
      Solver.InertOn (request.desk m) none
        (Solver.evaluateSensitivity (.bundled {}) request.qp request.options) ∧
      (request.run m).1 = .error (.fault (.unsupported .sensitivity)) ∧
      (request.run m).2.value = after ∧ (request.desk m).OnlyCondenses after ∧
      after.memory.HoldsProgram request.qp ∧
      List.Forall₂ (Call.SolvedAlike m) (Call.solves m [solve, request, solve])
        (Call.solves m [solve, solve]) := by
  obtain ⟨m, j, hassign⟩ := SolverMemory.exists_assign {} ⟨.lateState, .lateState⟩ ⟨0, 0⟩
    ⟨0, 0, 0, 0⟩
  have hm := SolverMemory.Reached.assign hassign
  have hstages : m.NamesEveryStage .lateState := hm.intact.namesEveryStage_iff.2 (by decide)
  let call := Call.lateState
  have hwritten : m.Overwritten (.bundled {}) ⟨.lateState, .lateState⟩ ⟨0, 0⟩ ⟨0, 0, 0, 0⟩ :=
    ⟨_, _, m, _, hassign, rfl, rfl⟩
  obtain ⟨-, hinert, hcondenses, hdeleted⟩ := sensitivity_inert
  let d := (call true).desk m
  have hrefusal : d.refusal? .lateState d.memory.layout _ (call true).qp = none :=
    Solver.refusal?_eq_none (d := d) hm.intact rfl rfl
      (Nat.le_of_eq (Overlay.divide_exact (.bundled {}) ⟨.lateState, .lateState⟩ (call true).so
        (call true).bo).byteSize_zeroed.symm)
  have hinert := hinert {} .lateState ⟨0, 0⟩ _ ⟨0, 0, 0, 0⟩ _ .zeroed d (call true).qp
    (call true).so_eq (call true).bo_eq hwritten
  rw [hrefusal] at hinert
  obtain ⟨after, hrun, honly, hholds⟩ := hcondenses {} .lateState _ _ .zeroed d
    (call true).qp (call true).so_eq (call true).bo_eq hm.intact.toTabled hstages
    (call true).qp_valid hrefusal {}
  refine ⟨m, call false, call true, after, hm, hstages, rfl, rfl, hwritten, hinert,
    congrArg Prod.fst hrun, congrArg (fun r => r.2.value) hrun, honly, hholds, ?_⟩
  exact hdeleted .lateState m [call false, call true, call false] _ hm
    (.cons (.refl _) (.cons (.refl _) .nil))

/-- Over an empty stage and one with a state, the map of stages written over so that it
names the first stage twice: a sensitivity request passes its checks and halts.  So does
one over memory that nothing was written over, with a horizon that the map cannot hold. -/
theorem sensitivity_halts :
    (∃ (m : SolverMemory IdentityMemory DenseMemory) (region : Words) (c : Call),
      m.Overwritten (.bundled {}) ⟨.lateState, .lateState⟩ ⟨0, 0⟩ ⟨0, 0, 0, 0⟩ ∧
      m.strategyRegion = .ok region ∧ m.strategy.stages region = .ok [0, 0] ∧
      c.sensitivity = true ∧ c.refusal? .lateState (c.desk m) = none ∧
      (c.run m).1 = .error .halt) ∧
    ∃ shape qp options d, shape.horizon = 2 ^ 32 ∧ Solver.Equipped shape qp options d ∧
      Solver.Halts d (Solver.evaluateSensitivity (.bundled {}) qp options) := by
  constructor
  · obtain ⟨m, j, hassign⟩ := SolverMemory.exists_assign {} ⟨.lateState, .lateState⟩ ⟨0, 0⟩
      ⟨0, 0, 0, 0⟩
    have hm := (SolverMemory.Reached.assign hassign).intact
    have hspan : m.layout.strategy.span / 8 = 1 := by
      rw [hm.strategy_span]
      decide +kernel
    let c := Call.lateState true
    have ht : (m.withMap #[0]).Tabled ⟨.lateState, .lateState⟩ := hm.tabled_withMap #[0]
    have hpart : (m.withMap #[0]).layout.strategy.part (m.withMap #[0]).words = #[0] :=
      hm.strategy_part_withMap hspan.symm
    have hstages : (m.withMap #[0]).strategy.stages #[0] = .ok [0, 0] := by
      rw [ht.strategy_eq]
      decide +kernel
    have hrefusal : c.refusal? .lateState (c.desk (m.withMap #[0])) = none :=
      SolveDesk.refusal?_eq_none_iff.2 ⟨⟨rfl, rfl⟩, Nat.le_of_eq (Overlay.divide_exact
        (.bundled {}) ⟨.lateState, .lateState⟩ c.so c.bo).byteSize_zeroed.symm,
        hm.flaw?_withMap (Nat.le_of_eq hspan.symm)⟩
    have hmisfits : Identity.Misfits [0, 0] c.qp :=
      ⟨1, 0, .rq, by decide, rfl, by decide +kernel⟩
    refine ⟨m.withMap #[0], #[0], c, ⟨_, _, m, _, hassign, Block.size_put .., rfl⟩, ?_, hstages,
      rfl, hrefusal, ?_⟩
    · rw [SolverMemory.strategyRegion, ht.strategy_fits.slice, hpart]
    · exact (Solver.halts_of_misfits (d := c.desk (m.withMap #[0])) {} ht c.so_eq c.bo_eq hrefusal
        ((congrArg _ hpart).trans hstages) hmisfits).2 {}
  · obtain ⟨shape, qp, options, d, hn, hequipped, -, hhalts⟩ := Solver.exists_halting
    exact ⟨shape, qp, options, d, hn, hequipped, (hhalts {}).2⟩

end StageQp
