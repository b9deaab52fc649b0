import StageQp.Proofs.Solver.Request
import StageQp.Proofs.Strategy.Moves

/-!
# StageQp.Proofs.Solver.Condensing

What a sensitivity request changes.  Condensing writes fields of the condensed program
and nothing else of a memory (`Solver.outcome_onInput_condense`); with the count of
solves that is all there is (`SolveDesk.OnlyCondenses`), whatever words the memory holds
and however the request ends (`Solver.evaluateSensitivity_inert`).
-/

namespace StageQp

open Procedure

/-! ## The memory -/

namespace SolverMemory

variable {μ ν : Type} {m : SolverMemory μ ν} {w : Words}

/-- The half word is one of the epoch, or of a field of the condensed program. -/
def CondensesHalf (m : SolverMemory μ ν) (i : Nat) : Prop :=
  i / 2 = 2 ∨ ∃ k, m.input.HoldsHalf k ∧ i = 2 * m.layout.input.firstWord + k

/-- The memory with another condensed program. -/
def withProgram (m : SolverMemory μ ν) (r : QpInput) : SolverMemory μ ν :=
  { m with words := m.layout.input.put m.words r.words }

namespace Laid

variable {shapes : ShapePair} {strategyBytes backendBytes : Nat}
  (hm : m.Laid shapes strategyBytes backendBytes)

include hm

/-- A field of the condensed program is in its part of the memory. -/
theorem input_of_condensesHalf {i : Nat} (h : m.CondensesHalf i) : i / 2 = 2 ∨
    m.layout.input.firstWord ≤ i / 2 ∧ i / 2 < m.layout.input.pastWord := by
  refine h.imp_right ?_
  rintro ⟨k, ⟨stage, field, b, hb, -, hhi⟩, rfl⟩
  rw [hm.input_eq] at hb
  have hstop := (Layout.bounds_of_block? hb).2.2
  have hsize : StageFields.size InputField shapes.condensed = shapes.condensed.inputBytes := rfl
  have hlen : b.len ≤ b.span := le_alignUp _
  rw [Layout.total_eq_size, hsize, ← hm.input_span] at hstop
  rw [Block.pastWord_eq hm.input_fits.1]
  have hmod := m.layout.input.span_mod
  unfold Block.stop at hstop
  omega

/-- The other parts hold nothing that condensing writes. -/
theorem not_condensesHalf {c : Block}
    (hc : c ∈ [m.layout.strategy, m.layout.backend, m.layout.output]) {i : Nat}
    (hlo : c.firstWord ≤ i / 2) (hhi : i / 2 < c.pastWord) : ¬m.CondensesHalf i := by
  have hchild : c ∈ m.layout.children := by
    simp only [List.mem_cons, List.not_mem_nil, or_false] at hc
    rcases hc with rfl | rfl | rfl <;> simp [MemoryLayout.children]
  have hapart : m.layout.input.Apart c := by
    simp only [List.mem_cons, List.not_mem_nil, or_false] at hc
    rcases hc with rfl | rfl | rfl
    · exact hm.spaced.apart (i := 3) (j := 1) rfl rfl (by decide)
    · exact hm.spaced.apart (i := 3) (j := 2) rfl rfl (by decide)
    · exact hm.spaced.apart (i := 3) (j := 4) rfl rfl (by decide)
  intro h
  rcases hm.input_of_condensesHalf h with hepoch | ⟨hin, hpast⟩
  · have hheader := hm.le_firstWord hchild
    omega
  · unfold Block.firstWord Block.pastWord at *
    rcases hapart with hapart | hapart <;> omega

/-- Condensing leaves the regions of the modules and the condensed solution. -/
theorem part_eq_of_changesOnly (h : Words.ChangesOnly m.CondensesHalf m.words w) {c : Block}
    (hc : c ∈ [m.layout.strategy, m.layout.backend, m.layout.output]) :
    c.part w = c.part m.words :=
  Block.part_eq_of_changesOnly h fun _ => hm.not_condensesHalf hc

omit hm in
/-- Counting a solve. -/
theorem changesOnly_counted : Words.ChangesOnly m.CondensesHalf m.words m.counted.words := by
  have hagree : Words.AgreeOn (· ≠ 2) m.words m.counted.words :=
    ⟨by simp [counted], fun i hi => by
      rw [counted, Array.getElem?_modify, if_neg (Ne.symm hi)]⟩
  exact .of_agreeOn hagree fun i hi h => hi (.inl h)

/-- Writing fields of the condensed program. -/
theorem changesOnly_withProgram {r : QpInput}
    (h : StageData.OnlyFields ⟨m.input, m.layout.input.part m.words⟩ r) :
    Words.ChangesOnly m.CondensesHalf m.words (m.withProgram r).words :=
  Block.changesOnly_put hm.input_fits h.halves fun i hi => .inr ⟨i, hi, rfl⟩

/-- The condensed program is read back as it was written. -/
theorem program_withProgram {r : QpInput}
    (h : StageData.OnlyFields ⟨m.input, m.layout.input.part m.words⟩ r) :
    (⟨m.input, m.layout.input.part (m.withProgram r).words⟩ : QpInput) = r := by
  have hsize : r.words.size = m.layout.input.span / 8 :=
    h.halves.size_eq.trans (Block.size_part hm.input_fits)
  have hlayout : r.layout = m.input := h.layout_eq
  rw [withProgram, Block.part_put hm.input_fits hsize, ← hlayout]

end Laid

end SolverMemory

/-! ## The desk -/

namespace SolveDesk

open SolverMemory

/-- What condensing is handed. -/
def inputDesk {μ ν : Type} (d : SolveDesk μ ν) (o : Overlay) : Desk QpInput where
  record := ⟨d.memory.input, d.memory.layout.input.part d.memory.words⟩
  region := d.memory.layout.strategy.part d.memory.words
  work := o.strategy.part d.work

/-- The desk with another condensed program in the memory. -/
def withProgram {μ ν : Type} (d : SolveDesk μ ν) (r : QpInput) : SolveDesk μ ν :=
  { d with memory := d.memory.withProgram r }

/-- On the second desk one more solve is counted and some program condensed, and nothing
else is different. -/
structure OnlyCondenses (d e : SolveDesk IdentityMemory DenseMemory) : Prop where
  output_eq : e.output = d.output
  work_eq : e.work = d.work
  memory_eq : e.memory = { d.memory with words := e.memory.words }
  halves : Words.ChangesOnly d.memory.CondensesHalf d.memory.words e.memory.words
  epoch_eq : e.memory.word 2 = d.memory.word 2 + 1
  strategy_eq : e.memory.strategyRegion = d.memory.strategyRegion
  backend_eq : e.memory.backendRegion = d.memory.backendRegion
  solution_eq : e.memory.condensedOutput = d.memory.condensedOutput

variable {d : SolveDesk IdentityMemory DenseMemory} {shapes : ShapePair}
variable {strategyBytes backendBytes : Nat}

/-- A program that is put into counted memory changes no more than condensing may. -/
theorem onlyCondenses_withProgram (hd : d.memory.Laid shapes strategyBytes backendBytes)
    {r : QpInput} (hr : (Solver.programIn d.counted.memory).OnlyFields r) :
    d.OnlyCondenses (d.counted.withProgram r) := by
  have hcounted : d.counted.memory.Laid shapes strategyBytes backendBytes := hd.withWords (by simp)
  have hhalves : Words.ChangesOnly d.memory.CondensesHalf d.memory.words
      (d.counted.withProgram r).memory.words :=
    Laid.changesOnly_counted.trans (hcounted.changesOnly_withProgram hr)
  have hslice {b : Block}
      (hb : b ∈ [d.memory.layout.strategy, d.memory.layout.backend, d.memory.layout.output])
      (hfits : b.Fits d.memory.words) :
      b.slice (d.counted.withProgram r).memory.words = b.slice d.memory.words := by
    rw [hfits.slice, (hfits.congr hhalves.size_eq).slice, hd.part_eq_of_changesOnly hhalves hb]
  refine
    { output_eq := rfl
      work_eq := rfl
      memory_eq := rfl
      halves := hhalves
      epoch_eq := ?_
      strategy_eq := hslice (b := d.memory.layout.strategy) (by simp) hd.strategy_fits
      backend_eq := hslice (b := d.memory.layout.backend) (by simp) hd.backend_fits
      solution_eq := congrArg (· >>= StageData.ofWords d.memory.output)
        (hslice (b := d.memory.layout.output) (by simp) hd.output_fits) }
  have hinput := hd.le_firstWord (b := d.memory.layout.input) (by simp [MemoryLayout.children])
  have hsize := hd.header_fits.words_le
  rw [hd.header_span, hd.header_firstWord] at hsize
  have hput : (d.counted.withProgram r).memory.words[2]? = (d.memory.words.modify 2 (· + 1))[2]? :=
    Words.getElem?_paste_of_outside _ _ _ _ (.inl (by exact Nat.lt_of_lt_of_le (by decide) hinput))
  have htwo : 2 < d.memory.words.size := Nat.lt_of_lt_of_le (by decide) hsize
  rw [word, word, Array.getD_eq_getD_getElem?, hput, Array.getElem?_modify, if_pos rfl,
    Array.getD_eq_getD_getElem?, Array.getElem?_eq_getElem htwo]
  rfl

end SolveDesk

namespace Solver

open SolveDesk

variable {d : SolveDesk IdentityMemory DenseMemory} {shapes : ShapePair}
variable {strategyBytes backendBytes : Nat}

/-- Condensing writes fields of the condensed program, and nothing else. -/
theorem outcome_onInput_condense (d : SolveDesk IdentityMemory DenseMemory)
    (hd : (programIn d.memory).Valid) (o : Overlay) (qp : QpInput) (table : IdentityMemory)
    (j : Journal) :
    let run := outcome (Identity.condense qp table) (d.inputDesk o) j
    outcome (onInput o (Identity.condense qp table)) d j =
        (run.1, ⟨d.withProgram run.2.value.record, run.2.journal⟩) ∧
      (programIn d.memory).OnlyFields run.2.value.record := by
  have hdv : (d.inputDesk o).record.Valid := hd
  obtain ⟨hr, hdesk⟩ := Identity.condense_onlyFields hdv
    (rfl : outcome (Identity.condense qp table) (d.inputDesk o) j = _)
  refine ⟨?_, hr⟩
  rw [onInput, outcome_focus]
  show ((outcome (Identity.condense qp table) (d.inputDesk o) j).1, Noted.mk _ _) = _
  rw [← inputDesk, hdesk]
  simp only [inputDesk, withProgram, SolverMemory.withProgram, Block.put_part]

/-- What comes after condensing is done if that comes through. -/
theorem outcome_proceed (d : SolveDesk IdentityMemory DenseMemory)
    (hd : (programIn d.memory).Valid) (env : Environment) (qp : QpInput) (so : IdentityOptions)
    (o : Overlay)
    (next : SolverMemory IdentityMemory DenseMemory →
      Procedure (SolveDesk IdentityMemory DenseMemory) Status) (j : Journal) :
    let run := outcome (Identity.condense qp d.memory.strategy) (d.inputDesk o) j
    (programIn d.memory).OnlyFields run.2.value.record ∧
      outcome (proceed (.bundled env) qp so o next) d j =
        match run.1 with
        | .ok () => outcome (next d.memory) (d.withProgram run.2.value.record) run.2.journal
        | .error stop => (.error stop, ⟨d.withProgram run.2.value.record, run.2.journal⟩) := by
  obtain ⟨hrun, hr⟩ := outcome_onInput_condense d hd o qp d.memory.strategy j
  replace hrun : outcome (onInput o ((bundled env).strategy.condense qp so d.memory.strategy)) d j =
    _ := hrun
  refine ⟨hr, ?_⟩
  simp only [proceed, outcome_bind, outcome_fetch, hrun]
  cases (outcome (Identity.condense qp d.memory.strategy) (d.inputDesk o) j).1 <;> rfl

/-- However condensing ends, a sensitivity request does no more. -/
theorem outcome_refuseCondensed (d : SolveDesk IdentityMemory DenseMemory)
    (hd : (programIn d.memory).Valid) (env : Environment) (qp : QpInput) (so : IdentityOptions)
    (o : Overlay) (j : Journal) :
    ∃ stop r j', outcome (proceed (.bundled env) qp so o fun _ => refuseCondensed) d j =
        (.error stop, ⟨d.withProgram r, j'⟩) ∧
      (programIn d.memory).OnlyFields r := by
  obtain ⟨hr, hrun⟩ := outcome_proceed d hd env qp so o (fun _ => refuseCondensed) j
  rw [hrun]
  cases (outcome (Identity.condense qp d.memory.strategy) (d.inputDesk o) j).1 with
  | error stop => exact ⟨stop, _, _, rfl, hr⟩
  | ok => exact ⟨_, _, _, rfl, hr⟩

/-- No solver has an answer to a sensitivity request. -/
theorem evaluateSensitivity_neverEnds {δ ο μ β ν : Type} [Record ο] [Record β]
    (s : Solver δ ο μ β ν) (qp : QpInput) (options : OptionStore) :
    NeverEnds (s.evaluateSensitivity qp options) := by
  rw [evaluateSensitivity_eq]
  exact .after fun so => .after fun bo => .after fun begun => .after fun d => .after fun _ =>
    .after fun _ => .fail _

/-- A sensitivity request changes nothing if there is a fault to refuse it with.  Without
one it is not supported, unless condensing halts over a map of stages that names none of
the program; either way only the epoch and the condensed program are others. -/
structure InertOn (d : SolveDesk IdentityMemory DenseMemory) (refusal? : Option Fault)
    (request : Procedure (SolveDesk IdentityMemory DenseMemory) Status) : Prop where
  refused (f : Fault) (h : refusal? = some f) (j : Journal) :
    outcome request d j = (.error (.fault f), ⟨d, j⟩)
  begun (h : refusal? = none) (j : Journal) : ∃ stop after j',
    outcome request d j = (.error stop, ⟨after, j'⟩) ∧
      (stop = .fault (.unsupported .sensitivity) ∨ stop = .halt) ∧ d.OnlyCondenses after

/-- A sensitivity request over any words changes no more than condensing may. -/
theorem evaluateSensitivity_inert (env : Environment) {shape : Shape}
    (hd : d.memory.Tabled ⟨shape, shape⟩) {options : OptionStore} {so : IdentityOptions}
    {bo : DenseOptions} (hso : options.strategyOptions IdentityOptions = .ok so)
    (hbo : options.backendOptions DenseOptions = .ok bo) (qp : QpInput) :
    InertOn d
      (d.refusal? shape d.memory.layout (Overlay.size (.bundled env) ⟨shape, shape⟩ so bo) qp)
      (evaluateSensitivity (.bundled env) qp options) := by
  have hfirst := checksFirst_of_laid (.bundled env) hd.toLaid hso hbo qp
  refine ⟨fun f h j => (hfirst.refused f h {} j).2, fun h j => ?_⟩
  obtain ⟨⟨hqs, hs⟩, hw, -⟩ := refusal?_eq_none_iff.1 h
  have hcounted : d.counted.memory.Tabled ⟨shape, shape⟩ := hd.withWords (by simp)
  obtain ⟨stop, r, j', hrun, hr⟩ := outcome_refuseCondensed d.counted hcounted.input_valid env qp so
    (Overlay.divide (.bundled env) ⟨shape, shape⟩ so bo).1 j
  refine ⟨stop, _, j', (hfirst.begun h {} j).2.trans hrun, ?_,
    onlyCondenses_withProgram hd.toLaid hr⟩
  have honly := onlyFaults_proceed env hqs so (Overlay.divide (.bundled env) ⟨shape, shape⟩ so bo).1
    (fun _ _ => onlyFaults_refuseCondensed) d.counted j ⟨hcounted, hs, hw⟩
  cases stop with
  | halt => exact .inr rfl
  | fault f =>
      rw [hrun] at honly
      exact .inl (congrArg Stop.fault (honly f rfl))

end Solver

end StageQp
