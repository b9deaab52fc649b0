import StageQp.Proofs.Solver.Request
import StageQp.Proofs.Solver.SolveLog

/-!
# StageQp.Proofs.Solver.Epoch

What the epoch in the header of a solver's memory counts.  Every solve and every
sensitivity request that passes its checks adds one to it, however it ends then, and
nothing else does (`SolveCall.run_cases`, `Numbered.run`).  So the epoch is the number of
solves that gave a verdict, of solves that were begun and gave none, and of sensitivity
requests that were begun (`epoch_counts_begun`); and a solve is logged by this number.
With the bundled modules no solve is begun and gives no verdict
(`stopped_eq_zero`), but the sensitivity requests remain (`epoch_ahead_of_verdicts`).
-/

namespace StageQp

open Procedure SolveDesk

variable {δ ο μ β ν : Type}

/-! ## The word that counts -/

namespace SolverMemory

/-- The memory is laid out, and its epoch is a given number. -/
structure Numbered (shapes : ShapePair) (strategyBytes backendBytes : Nat) (epoch : UInt64)
    (m : SolverMemory μ ν) : Prop extends Laid shapes strategyBytes backendBytes m where
  word_eq : m.word 2 = epoch

variable {shapes : ShapePair} {strategyBytes backendBytes : Nat} {epoch : UInt64}
  {m : SolverMemory μ ν}

theorem Laid.lt_size (h : m.Laid shapes strategyBytes backendBytes) {i : Nat} (hi : i < 12) :
    i < m.words.size := by
  have hsize := h.header_fits.words_le
  have hspan : m.layout.header.span = 96 := h.header_span
  rw [h.header_firstWord] at hsize
  omega

/-- The epoch is the third word. -/
theorem Laid.epoch_eq (h : m.Laid shapes strategyBytes backendBytes) :
    m.epoch = .ok (m.word 2) := by
  have hcheck : Record.check RecordHeader (m.layout.header.part m.words) 1 = .ok () := by
    rw [Record.check_eq_ok_iff, Block.byteSize_part h.header_fits, h.header_span]
    exact Nat.le_of_eq rfl
  have hheader : m.header = .ok (.ofWords m.word) := by
    rw [header, h.header_fits.slice, ← h.header_eq]
    show (Record.check RecordHeader _ 1 >>= fun _ => pure _) = _
    rw [hcheck]
    rfl
  rw [epoch, hheader]
  rfl

namespace Numbered

/-- Whatever is put into one of the other parts does not reach the header. -/
theorem put (h : m.Numbered shapes strategyBytes backendBytes epoch) {b : Block}
    (hb : b ∈ m.layout.children) (part : Words) :
    Numbered shapes strategyBytes backendBytes epoch { m with words := b.put m.words part } := by
  have hlt : 2 < b.firstWord := Nat.lt_of_lt_of_le (by decide) (h.le_firstWord hb)
  refine ⟨h.withWords (by simp), ?_⟩
  rw [← h.word_eq]
  exact Record.getD_of_getElem?_eq (Words.getElem?_paste_of_outside _ _ _ _ (.inl hlt))

/-- Counting a solve moves the epoch by one. -/
theorem counted (h : m.Numbered shapes strategyBytes backendBytes epoch) :
    m.counted.Numbered shapes strategyBytes backendBytes (epoch + 1) := by
  have hlt := h.lt_size (by decide : 2 < 12)
  refine ⟨h.withWords (by simp), ?_⟩
  rw [← h.word_eq]
  simp [SolverMemory.counted, word, hlt, Array.getElem_modify_self]

end Numbered

/-- Fresh memory has counted nothing, whatever the modules wrote to their regions. -/
theorem numbered_of_assign {σ : Type} {s : Solver δ ο μ β ν} {so : ο} {bo : β} {words : Words}
    {value : σ} {j : Journal} {t : Noted σ}
    (h : outcome (assign s shapes so bo words) value j = (.ok m, t)) :
    m.Numbered shapes (s.strategy.memorySize shapes so)
      (s.backend.memorySize shapes.condensed bo) 0 := by
  obtain ⟨hlayout, hlaid⟩ := laid_of_assign h
  obtain ⟨⟨⟩, t₁, -, h⟩ := of_outcome_bind h
  obtain ⟨⟨⟩, t₂, -, h⟩ := of_outcome_bind h
  obtain ⟨⟨⟩, t₃, -, h⟩ := of_outcome_bind h
  obtain ⟨⟨strategyTable, strategyRegion⟩, t₄, -, h⟩ := of_outcome_bind h
  obtain ⟨⟨backendTable, backendRegion⟩, t₅, -, h⟩ := of_outcome_bind h
  obtain ⟨⟨⟩, t₆, -, h⟩ := of_outcome_bind h
  simp only [outcome_bind, Layout.outcome_assign, outcome_pure] at h
  cases h
  let l := (carve s shapes so bo).1
  let led := l.header.setRecords (words.fill 0) #[headerOf l]
  let m : SolverMemory μ ν := ⟨shapes.full, l, strategyTable, backendTable,
    .ofShape InputField shapes.condensed, .ofShape OutputField shapes.condensed, led⟩
  have hm : m.Laid shapes (s.strategy.memorySize shapes so)
      (s.backend.memorySize shapes.condensed bo) :=
    hlaid.withWords (by simp [led, l])
  have hfits : l.header.Fits (words.fill 0) := hm.header_fits.congr (by simp [m, led])
  have hheader : (.ofWords m.word : RecordHeader) = headerOf l := by
    rw [← hm.header_eq]
    exact Block.get_setRecords_singleton hfits (by rw [hm.header_span]; decide) _
  have hnumbered : m.Numbered shapes (s.strategy.memorySize shapes so)
      (s.backend.memorySize shapes.condensed bo) 0 :=
    ⟨hm, congrArg RecordHeader.epoch hheader⟩
  exact (hnumbered.put (b := l.strategy) (by simp [m, MemoryLayout.children]) strategyRegion).put
    (b := l.backend) (by simp [m, MemoryLayout.children]) backendRegion

end SolverMemory

/-! ## One call -/

/-- A solve or a sensitivity request on the memory of any solver, with what it is handed. -/
structure SolveCall where
  sensitivity : Bool
  qp : QpInput
  options : OptionStore
  clock : Readings
  output : QpOutput
  work : Words
  journal : Journal

namespace SolveCall

variable [Record ο] [Record β] (s : Solver δ ο μ β ν)

def desk (c : SolveCall) (m : SolverMemory μ ν) : SolveDesk μ ν := ⟨c.output, m, c.work⟩

def procedure (c : SolveCall) : Procedure (SolveDesk μ ν) Status :=
  if c.sensitivity then s.evaluateSensitivity c.qp c.options
  else s.evaluate c.qp c.options c.clock

/-- What the solver does before it condenses. -/
def checks (c : SolveCall) : Procedure (SolveDesk μ ν) Unit := do
  let so ← check (c.options.strategyOptions ο)
  let bo ← check (c.options.backendOptions β)
  let _ ← s.beginSolve c.qp so bo

/-- What the solver does then. -/
def rest (c : SolveCall) (so : ο) (bo : β) (solve : UInt64) (overlay : Overlay) :
    Procedure (SolveDesk μ ν) Status :=
  s.proceed c.qp so overlay
    (if c.sensitivity then fun _ => Solver.refuseCondensed
      else s.solveCondensed so bo c.clock solve overlay)

def run (c : SolveCall) (m : SolverMemory μ ν) : Except Stop Status × Noted (SolveDesk μ ν) :=
  outcome (c.procedure s) (c.desk m) c.journal

/-- Whether the call passes its checks. -/
def begins (c : SolveCall) (m : SolverMemory μ ν) : Bool :=
  (outcome (c.checks s) (c.desk m) c.journal).1.isOk

theorem procedure_eq (c : SolveCall) : c.procedure s = (do
    let so ← check (c.options.strategyOptions ο)
    let bo ← check (c.options.backendOptions β)
    let (solve, overlay) ← s.beginSolve c.qp so bo
    c.rest s so bo solve overlay) := by
  unfold procedure rest
  cases c.sensitivity <;> rfl

variable {s} {shapes : ShapePair} {strategyBytes backendBytes : Nat} {m : SolverMemory μ ν}

/-- A call fails its checks with a fault, and changes nothing; or it passes them, is
counted, and goes on under its number. -/
theorem run_cases (hm : m.Laid shapes strategyBytes backendBytes) (c : SolveCall) :
    (c.begins s m = false ∧ ∃ f, c.run s m = (.error (.fault f), ⟨c.desk m, c.journal⟩)) ∨
      (c.begins s m = true ∧ ∃ so bo overlay, c.run s m =
        outcome (c.rest s so bo (m.word 2 + 1) overlay) (c.desk m).counted c.journal) := by
  rw [begins, run, procedure_eq]
  simp only [checks, outcome_bind]
  cases c.options.strategyOptions ο with
  | error f => exact .inl ⟨rfl, f, rfl⟩
  | ok so =>
      cases c.options.backendOptions β with
      | error f => exact .inl ⟨rfl, f, rfl⟩
      | ok bo =>
          have hbegin := s.outcome_beginSolve_of_laid (d := c.desk m) hm c.qp so bo c.journal
          simp only [outcome_check_ok, hbegin]
          cases (c.desk m).refusal? shapes.full (c.desk m).memory.layout _ c.qp with
          | some f => exact .inl ⟨rfl, f, rfl⟩
          | none => exact .inr ⟨rfl, so, bo, _, rfl⟩

end SolveCall

/-! ## What is left of the number -/

namespace Solver

/-- The memory on the desk has a given number. -/
def Numbered (shapes : ShapePair) (strategyBytes backendBytes : Nat) (epoch : UInt64)
    (d : SolveDesk μ ν) : Prop := d.memory.Numbered shapes strategyBytes backendBytes epoch

variable {α : Type} {shapes : ShapePair} {strategyBytes backendBytes : Nat} {epoch : UInt64}

/-- Whatever its modules do, a solver reaches the header only to count. -/
theorem carries_numbered (s : Solver δ ο μ β ν) (shapes : ShapePair)
    (strategyBytes backendBytes : Nat) (epoch : UInt64) :
    s.Carries (Numbered shapes strategyBytes backendBytes epoch) where
  condense overlay qp so memory d j h := by
    rw [onInput, outcome_focus]
    exact (SolverMemory.Numbered.put h (b := d.memory.layout.strategy)
      (by simp [MemoryLayout.children]) _).put (b := d.memory.layout.input)
      (by simp [MemoryLayout.children]) _
  solve overlay qp bo memory clock d j h := by
    rw [onSolution, outcome_focus]
    exact (SolverMemory.Numbered.put h (b := d.memory.layout.backend)
      (by simp [MemoryLayout.children]) _).put (b := d.memory.layout.output)
      (by simp [MemoryLayout.children]) _
  expand overlay condensed so memory d j h := by
    rw [onOutput, outcome_focus]
    exact SolverMemory.Numbered.put h (b := d.memory.layout.strategy)
      (by simp [MemoryLayout.children]) _
  account _ _ h := h

/-- What follows the checks leaves the epoch. -/
theorem keeps_numbered_rest [Record ο] [Record β] (s : Solver δ ο μ β ν) (c : SolveCall) (so : ο)
    (bo : β) (solve : UInt64) (overlay : Overlay) :
    Keeps (Numbered shapes strategyBytes backendBytes epoch) (c.rest s so bo solve overlay) := by
  have hcarries := s.carries_numbered shapes strategyBytes backendBytes epoch
  refine hcarries.proceed _ _ _ fun memory => ?_
  split
  · exact Carries.refuseCondensed
  · exact hcarries.solveCondensed so bo c.clock solve overlay memory

end Solver

/-! ## Any calls -/

/-- What became of the calls that were made on a memory. -/
structure Tally where
  /-- Solves that gave a verdict. -/
  completed : Nat := 0
  /-- Solves that passed their checks and gave none. -/
  stopped : Nat := 0
  /-- Sensitivity requests that passed their checks. -/
  sensitivities : Nat := 0

namespace Tally

/-- All calls that passed their checks. -/
def begun (t : Tally) : Nat := t.completed + t.stopped + t.sensitivities

section

variable [Record ο] [Record β] (s : Solver δ ο μ β ν)

/-- The tally after a call on a memory. -/
def after (t : Tally) (c : SolveCall) (m : SolverMemory μ ν) : Tally :=
  let solved := (c.run s m).1.isOk
  { completed := if !c.sensitivity && solved then t.completed + 1 else t.completed
    stopped := if !c.sensitivity && c.begins s m && !solved then t.stopped + 1 else t.stopped
    sensitivities :=
      if c.sensitivity && c.begins s m then t.sensitivities + 1 else t.sensitivities }

end

end Tally

/-- A memory and the tally of its calls, one call later. -/
def SolveCall.step [Record ο] [Record β] (s : Solver δ ο μ β ν) (r : SolverMemory μ ν × Tally)
    (c : SolveCall) : SolverMemory μ ν × Tally :=
  ((c.run s r.1).2.value.memory, r.2.after s c r.1)

section Run

variable [Record ο] [Record β] {s : Solver δ ο μ β ν} {shapes : ShapePair}
  {strategyBytes backendBytes : Nat} {m : SolverMemory μ ν}

/-- The calls that pass their checks are those that are begun. -/
theorem Tally.begun_after (hm : m.Laid shapes strategyBytes backendBytes) (t : Tally)
    (c : SolveCall) : (t.after s c m).begun = if c.begins s m then t.begun + 1 else t.begun := by
  rcases SolveCall.run_cases (s := s) hm c with ⟨hbegins, f, hrun⟩ | ⟨hbegins, -⟩
  · simp [begun, after, hbegins, hrun, Except.isOk, Except.toBool]
  · cases hs : c.sensitivity <;> cases hok : (c.run s m).1.isOk <;>
      simp [begun, after, hbegins, hs, hok] <;> omega

/-- A call adds to the number of the memory what it adds to the calls begun. -/
theorem SolverMemory.Numbered.step {t : Tally}
    (hm : m.Numbered shapes strategyBytes backendBytes (.ofNat t.begun)) (c : SolveCall) :
    (c.step s (m, t)).1.Numbered shapes strategyBytes backendBytes
      (.ofNat (c.step s (m, t)).2.begun) := by
  have hbegun := t.begun_after (s := s) hm.toLaid c
  show (c.run s m).2.value.memory.Numbered _ _ _ (.ofNat (t.after s c m).begun)
  rw [hbegun]
  rcases SolveCall.run_cases (s := s) hm.toLaid c with ⟨hbegins, f, hrun⟩ |
    ⟨hbegins, so, bo, overlay, hrun⟩
  · rw [hbegins, hrun]
    exact hm
  · rw [hbegins, hrun, if_pos rfl, UInt64.ofNat_add]
    exact Solver.keeps_numbered_rest s c so bo _ overlay (c.desk m).counted c.journal hm.counted

/-- After any calls the epoch is the number of those that began. -/
theorem SolverMemory.Numbered.run {t : Tally}
    (hm : m.Numbered shapes strategyBytes backendBytes (.ofNat t.begun)) (calls : List SolveCall) :
    (calls.foldl (SolveCall.step s) (m, t)).1.Numbered shapes strategyBytes backendBytes
      (.ofNat (calls.foldl (SolveCall.step s) (m, t)).2.begun) := by
  induction calls generalizing m t with
  | nil => exact hm
  | cons c calls ih => exact ih (hm.step c)

/-- With quiet modules, a solve that gives a verdict leaves the record of its number, and
no other call leaves one. -/
theorem SolveCall.solves_run (hs : s.Quiet) (hm : m.Laid shapes strategyBytes backendBytes)
    (c : SolveCall) : (c.run s m).2.journal.solves = c.journal.solves ++
      if !c.sensitivity && (c.run s m).1.isOk then s.recordOf (m.word 2 + 1) else [] := by
  rcases run_cases (s := s) hm c with ⟨-, f, hrun⟩ | ⟨-, so, bo, overlay, hrun⟩
  · simp [hrun, Except.isOk, Except.toBool]
  have hcondense (d : SolveDesk μ ν) : Quiet (onInput overlay
      (s.strategy.condense c.qp so d.memory.strategy) : Procedure (SolveDesk μ ν) Unit) :=
    .focus (hs.condense _ _ _)
  rw [hrun, rest]
  cases c.sensitivity with
  | true =>
      have hquiet : Quiet (s.proceed c.qp so overlay fun _ => Solver.refuseCondensed) :=
        .fetch_bind fun d => .bind (hcondense d) fun _ => .bind (.note rfl) fun _ => .fail _
      simp [hquiet _ _]
  | false =>
      have hrecords : Records (s.recordOf (m.word 2 + 1)) (s.proceed c.qp so overlay
          (s.solveCondensed so bo c.clock (m.word 2 + 1) overlay)) :=
        .quiet_bind (fun _ _ => rfl) fun d => .quiet_bind (hcondense d) fun _ =>
          Solver.records_solveCondensed hs so bo c.clock _ overlay _
      simpa using hrecords (c.desk m).counted c.journal

end Run

/-! ## The bundled modules -/

/-- The records that the call is handed lie as they were laid out. -/
structure SolveCall.Proper (c : SolveCall) : Prop where
  qp_valid : c.qp.Valid
  output_valid : c.output.Valid
  options_readable : c.options.Readable

section Bundled

variable {env : Environment} {shape : Shape} {m : SolverMemory IdentityMemory DenseMemory}
  {c : SolveCall}

/-- The request of a call. -/
def SolveCall.Proper.request (hc : c.Proper) (env : Environment) : Request :=
  { c with env, qp_valid := hc.qp_valid, options_readable := hc.options_readable }

/-- A solve that passes its checks gives a verdict. -/
theorem SolveCall.Proper.isOk_run (hc : c.Proper) (hn : shape.horizon < 2 ^ 32)
    (hm : m.Intact ⟨shape, shape⟩) :
    (c.run (.bundled env) m).1.isOk = (!c.sensitivity && c.begins (.bundled env) m) := by
  have hd : (c.desk m).memory.Intact ⟨shape, shape⟩ := hm
  cases Request.ends (r := hc.request env) hd hn hc.output_valid c.clock c.journal with
  | refused f hbegins hrun =>
      rw [show c.run (.bundled env) m = _ from hrun,
        show c.begins (.bundled env) m = _ from hbegins, Bool.and_false]
      rfl
  | unsupported after j' hs hbegins hrun =>
      rw [show c.run (.bundled env) m = _ from hrun, show c.sensitivity = true from hs]
      rfl
  | solved after j' hs hbegins hrun =>
      rw [show c.run (.bundled env) m = _ from hrun,
        show c.begins (.bundled env) m = _ from hbegins, show c.sensitivity = false from hs]
      rfl

/-- A proper call that begins gives a verdict or is a sensitivity request. -/
theorem SolveCall.Proper.after_eq (hc : c.Proper) (hn : shape.horizon < 2 ^ 32)
    (hm : m.Intact ⟨shape, shape⟩) (t : Tally) : t.after (.bundled env) c m =
      if c.begins (.bundled env) m then
        if c.sensitivity then { t with sensitivities := t.sensitivities + 1 }
        else { t with completed := t.completed + 1 }
      else t := by
  rw [Tally.after, hc.isOk_run hn hm]
  cases c.sensitivity <;> cases c.begins (.bundled env) m <;> rfl

theorem SolveCall.Proper.intact_step (hc : c.Proper) (hm : m.Intact ⟨shape, shape⟩) (t : Tally) :
    (c.step (.bundled env) (m, t)).1.Intact ⟨shape, shape⟩ :=
  (hc.request env).keeps_procedure ⟨shape, shape⟩ c.clock (c.desk m) c.journal hm

/-- No solve of the bundled modules is begun and gives no verdict: what the epoch counts
besides the completed solves are sensitivity requests. -/
theorem stopped_eq_zero (hn : shape.horizon < 2 ^ 32) (hm : m.Intact ⟨shape, shape⟩)
    {calls : List SolveCall} (hc : ∀ c ∈ calls, c.Proper) {t : Tally} (ht : t.stopped = 0) :
    (calls.foldl (SolveCall.step (.bundled env)) (m, t)).2.stopped = 0 := by
  induction calls generalizing m t with
  | nil => exact ht
  | cons c calls ih =>
      have hproper := hc c (List.mem_cons_self ..)
      refine ih (hproper.intact_step hm t) (fun c h => hc c (List.mem_cons_of_mem _ h)) ?_
      show (t.after (.bundled env) c m).stopped = 0
      rw [hproper.after_eq hn hm]
      split
      · split <;> exact ht
      · exact ht

end Bundled

/-- A call for the zero program over an empty stage and one with a state. -/
def SolveCall.lateState (sensitivity : Bool) : SolveCall where
  sensitivity
  qp := StageData.blank InputField .lateState
  options := .zeroed
  clock := {}
  output := StageData.blank OutputField .lateState
  work := .zeroed (Overlay.size (.bundled {}) ⟨.lateState, .lateState⟩ ⟨0, 0⟩ ⟨0, 0, 0, 0⟩)
  journal := {}

namespace SolveCall

theorem proper_lateState (sensitivity : Bool) : (lateState sensitivity).Proper where
  qp_valid := StageData.valid_blank .lateState
  output_valid := StageData.valid_blank .lateState
  options_readable := OptionStore.readable_zeroed

variable {env : Environment} {m : SolverMemory IdentityMemory DenseMemory}
  (hm : m.Intact ⟨.lateState, .lateState⟩)

include hm

theorem begins_lateState (sensitivity : Bool) :
    (lateState sensitivity).begins (.bundled env) m = true := by
  have hwork := (Overlay.divide_exact (.bundled env) ⟨.lateState, .lateState⟩ (Record.get
    (OptionStore.zeroed.strategy.part OptionStore.zeroed.words) 0) (Record.get
    (OptionStore.zeroed.backend.part OptionStore.zeroed.words) 0)).byteSize_zeroed
  have hrefusal : ((proper_lateState sensitivity).request env).refusal? .lateState
      ((lateState sensitivity).desk m) = none :=
    Solver.refusal?_eq_none (d := (lateState sensitivity).desk m) hm rfl rfl
      (Nat.le_of_eq hwork.symm)
  have hbegins := Request.begins_eq (r := (proper_lateState sensitivity).request env)
    (d := (lateState sensitivity).desk m) hm {}
  rw [hrefusal] at hbegins
  exact hbegins

theorem tally_lateState (sensitivity : Bool) (t : Tally) :
    ((lateState sensitivity).step (.bundled env) (m, t)).2 =
      if sensitivity then { t with sensitivities := t.sensitivities + 1 }
      else { t with completed := t.completed + 1 } := by
  show t.after _ _ m = _
  rw [(proper_lateState sensitivity).after_eq (by decide) hm, begins_lateState hm]
  rfl

end SolveCall

/-- After one sensitivity request the epoch is one, and no solve has given a verdict. -/
theorem epoch_ahead_of_verdicts :
    ∃ (m : SolverMemory IdentityMemory DenseMemory) (t : Noted Unit),
      outcome (SolverMemory.assign (.bundled {}) ⟨.lateState, .lateState⟩ ⟨0, 0⟩ ⟨0, 0, 0, 0⟩
        (.zeroed (SolverMemory.size (.bundled {}) ⟨.lateState, .lateState⟩ ⟨0, 0⟩
          ⟨0, 0, 0, 0⟩))) () {} = (.ok m, t) ∧
      ((SolveCall.lateState true).step (.bundled {}) (m, {})).1.epoch = .ok 1 ∧
      ((SolveCall.lateState true).step (.bundled {}) (m, {})).2.completed = 0 := by
  obtain ⟨m, j, hassign⟩ := SolverMemory.exists_assign {} ⟨.lateState, .lateState⟩ ⟨0, 0⟩
    ⟨0, 0, 0, 0⟩
  have hm := (SolverMemory.fresh_of_assign hassign).2.toIntact
  have hafter : ((SolveCall.lateState true).step (.bundled {}) (m, {})).2 = ⟨0, 0, 1⟩ :=
    SolveCall.tally_lateState hm true {}
  have hstep := (SolverMemory.numbered_of_assign hassign).step (s := .bundled {}) (t := {})
    (.lateState true)
  rw [hafter] at hstep
  refine ⟨m, _, hassign, ?_, by rw [hafter]⟩
  rw [hstep.toLaid.epoch_eq, hstep.word_eq]
  rfl

/-- The epoch of a memory counts the calls on it that passed their checks, the solves and
the sensitivity requests among them, however they ended then.  By this number the next
solve is logged: if it gives a verdict, and its number is a multiple of the stride. -/
theorem epoch_counts_begun [Record ο] [Record β] (s : Solver δ ο μ β ν) {shapes : ShapePair}
    {so : ο} {bo : β} {words : Words} {j : Journal} {m : SolverMemory μ ν} {t : Noted Unit}
    (hm : outcome (SolverMemory.assign s shapes so bo words) () j = (.ok m, t))
    (calls : List SolveCall) :
    let r := calls.foldl (SolveCall.step s) (m, {})
    r.1.epoch = .ok (.ofNat (r.2.completed + r.2.stopped + r.2.sensitivities)) ∧
      (s.Quiet → ∀ c : SolveCall, (c.run s r.1).2.journal.solves = c.journal.solves ++
        if !c.sensitivity && (c.run s r.1).1.isOk then
          s.recordOf (.ofNat (r.2.completed + r.2.stopped + r.2.sensitivities + 1))
        else []) := by
  intro r
  have hr := (SolverMemory.numbered_of_assign hm).run (s := s) (t := {}) calls
  refine ⟨?_, fun hs c => ?_⟩
  · rw [hr.toLaid.epoch_eq, hr.word_eq]
    rfl
  · rw [c.solves_run hs hr.toLaid, hr.word_eq, UInt64.ofNat_add]
    rfl

/-- Every second solve is to be logged, and after one sensitivity request the first solve is. -/
theorem epoch_counts_begun_lateState :
    ∃ (env : Environment) (m : SolverMemory IdentityMemory DenseMemory) (t : Noted Unit),
      Diagnostics.ofEnvironment env = ⟨true, 2⟩ ∧
      outcome (SolverMemory.assign (.bundled env) ⟨.lateState, .lateState⟩ ⟨0, 0⟩ ⟨0, 0, 0, 0⟩
        (.zeroed (SolverMemory.size (.bundled env) ⟨.lateState, .lateState⟩ ⟨0, 0⟩
          ⟨0, 0, 0, 0⟩))) () {} = (.ok m, t) ∧
      let r := [SolveCall.lateState true].foldl (SolveCall.step (.bundled env)) (m, {})
      r.1.epoch = .ok 1 ∧ r.2 = ⟨0, 0, 1⟩ ∧
        ((SolveCall.lateState false).run (.bundled env) r.1).2.journal.solves = [2] := by
  let env : Environment := ⟨[("XCOND_DIAGNOSTICS", "1"), ("XCOND_DIAGNOSTICS_EVERY", "2")]⟩
  have henv : Diagnostics.ofEnvironment env = ⟨true, 2⟩ := by decide +kernel
  obtain ⟨m, j, hassign⟩ := SolverMemory.exists_assign env ⟨.lateState, .lateState⟩ ⟨0, 0⟩
    ⟨0, 0, 0, 0⟩
  have hm := (SolverMemory.fresh_of_assign hassign).2.toIntact
  have htally : ([SolveCall.lateState true].foldl (SolveCall.step (.bundled env)) (m, {})).2 =
      ⟨0, 0, 1⟩ := SolveCall.tally_lateState hm true {}
  have hm' : ((SolveCall.lateState true).step (.bundled env) (m, {})).1.Intact
      ⟨.lateState, .lateState⟩ := (SolveCall.proper_lateState true).intact_step hm {}
  obtain ⟨hepoch, hlog⟩ := epoch_counts_begun (.bundled env) hassign [.lateState true]
  have hlog := hlog (Solver.quiet_bundled env) (.lateState false)
  have hok : (((SolveCall.lateState false).run (.bundled env)
      ((SolveCall.lateState true).step (.bundled env) (m, {})).1).1).isOk = true :=
    ((SolveCall.proper_lateState false).isOk_run (by decide) hm').trans
      (SolveCall.begins_lateState hm' false)
  have hrecord : (Solver.bundled env).recordOf 2 = [2] := by
    have hdiagnostics : (Solver.bundled env).diagnostics = ⟨true, 2⟩ := henv
    rw [Solver.recordOf, hdiagnostics]
    rfl
  rw [htally] at hepoch hlog
  exact ⟨env, m, _, henv, hassign, hepoch, htally, hlog.trans ((if_pos hok).trans hrecord)⟩

end StageQp
