import StageQp.Proofs.Procedure
import StageQp.Proofs.Qp.StageData
import StageQp.Proofs.Storage.Header
import StageQp.Solver.Memory
import StageQp.Solver.OptionStore
import StageQp.Solver.Overlay
import StageQp.Solver.ShapeStore

/-!
# StageQp.Proofs.Solver.Carving

The composite records of a solver are carved exactly.  The size of each is a sum
that is written down apart from the carve; whatever sizes the strategy and the
backend ask for, the carve ends on that sum and leaves no gap (`ExactCarve`).
Scratch is divided the same way, and handed out exactly when it is large enough
(`Overlay.check_divide_eq_ok_iff`).

A memory that was laid out keeps its places whatever is written to its words
(`SolverMemory.Laid`).  Counting a solve checks the words of the header and
changes one of them (`Laid.outcome_beginSolve`).
-/

namespace StageQp

/-- A carve that gives out blocks of these lengths, one behind the other from
byte zero to byte `total`, and passes the check for that total. -/
structure ExactCarve (lengths : List Nat) (blocks : List Block) (c : Carver) (total : Nat) :
    Prop where
  lengths_eq : blocks.map Block.len = lengths
  tiles : Tiles 0 blocks total
  finishes : c.finish total = .ok total

theorem ExactCarve.of_takeAll {lengths : List Nat} {total : Nat}
    (h : (lengths.map alignUp).sum = total) :
    ExactCarve lengths (Carver.takeAll {} lengths).1 (Carver.takeAll {} lengths).2 total := by
  have hc : (Carver.takeAll {} lengths).2.cursor = total := by
    rw [Carver.cursor_takeAll, h]
    exact Nat.zero_add _
  refine ⟨Carver.map_len_takeAll _ _, ?_, Carver.finish_eq_ok hc⟩
  rw [← hc]
  exact Carver.tiles_takeAll (c := {}) rfl lengths

theorem ExactCarve.cursor_eq {lengths : List Nat} {blocks : List Block} {c : Carver} {total : Nat}
    (h : ExactCarve lengths blocks c total) : c.cursor = total := by
  have hf := h.finishes
  unfold Carver.finish at hf
  split at hf
  · cases hf
  · next hc => exact Decidable.not_not.1 hc

/-- A fresh buffer of the total has no byte more. -/
theorem ExactCarve.byteSize_zeroed {lengths : List Nat} {blocks : List Block} {c : Carver}
    {total : Nat} (h : ExactCarve lengths blocks c total) :
    Words.byteSize (.zeroed total) = total := by
  rw [Words.byteSize_zeroed, alignUp_of_mod (h.tiles.stop_mod rfl)]

theorem ExactCarve.spaced_zeroed {lengths : List Nat} {blocks : List Block} {c : Carver}
    {total : Nat} (h : ExactCarve lengths blocks c total) :
    Spaced 0 blocks (Words.byteSize (.zeroed total)) := by
  rw [h.byteSize_zeroed]
  exact h.tiles.spaced

variable {δ ο μ β ν : Type}

/-- Shapes are carved exactly, whatever the strategy. -/
theorem ShapeStore.carve_exact (s : Strategy δ ο μ) (n : Nat) :
    ExactCarve [RecordHeader.size, Shape.recordBytes n, s.dimsSize n]
      [(carve s n).1, (carve s n).2.1, (carve s n).2.2.1] (carve s n).2.2.2 (size s n) := by
  have hr : alignUp (Shape.recordBytes n) = Shape.recordBytes n := alignUp_alignUp _
  have hsum : ([RecordHeader.size, Shape.recordBytes n, s.dimsSize n].map alignUp).sum =
      size s n := by
    simp only [List.map_cons, List.map_nil, List.sum_cons, List.sum_nil, hr, size,
      RecordHeader.size, Record.paddedBytes, alignUp_alignUp]
    omega
  exact .of_takeAll hsum

/-- Options are carved exactly, whatever the solver. -/
theorem OptionStore.carve_exact (s : Solver δ ο μ β ν) (shapes : ShapePair) :
    ExactCarve [RecordHeader.size, s.strategy.optsSize shapes,
        s.backend.optsSize shapes.condensed]
      [(carve s shapes).1, (carve s shapes).2.1, (carve s shapes).2.2.1] (carve s shapes).2.2.2
      (size s shapes) := by
  have hsum : ([RecordHeader.size, s.strategy.optsSize shapes,
      s.backend.optsSize shapes.condensed].map alignUp).sum = size s shapes := by
    simp only [List.map_cons, List.map_nil, List.sum_cons, List.sum_nil, size,
      RecordHeader.size, Record.paddedBytes, alignUp_alignUp]
    omega
  exact .of_takeAll hsum

/-- Memory is carved exactly, whatever the solver. -/
theorem SolverMemory.carve_exact (s : Solver δ ο μ β ν) (shapes : ShapePair) (so : ο) (bo : β) :
    ExactCarve [RecordHeader.size, s.strategy.memorySize shapes so,
        s.backend.memorySize shapes.condensed bo, shapes.condensed.inputBytes,
        shapes.condensed.outputBytes]
      (carve s shapes so bo).1.blocks (carve s shapes so bo).2 (size s shapes so bo) := by
  have hi : alignUp shapes.condensed.inputBytes = shapes.condensed.inputBytes :=
    alignUp_of_mod (Layout.size_mod InputField shapes.condensed)
  have ho : alignUp shapes.condensed.outputBytes = shapes.condensed.outputBytes :=
    alignUp_of_mod (Layout.size_mod OutputField shapes.condensed)
  have hsum : ([RecordHeader.size, s.strategy.memorySize shapes so,
      s.backend.memorySize shapes.condensed bo, shapes.condensed.inputBytes,
      shapes.condensed.outputBytes].map alignUp).sum = size s shapes so bo := by
    simp only [List.map_cons, List.map_nil, List.sum_cons, List.sum_nil, hi, ho, size,
      RecordHeader.size, Record.paddedBytes, alignUp_alignUp]
    omega
  exact .of_takeAll hsum

/-- Scratch is divided exactly, whatever the solver. -/
theorem Overlay.divide_exact (s : Solver δ ο μ β ν) (shapes : ShapePair) (so : ο) (bo : β) :
    ExactCarve [s.strategy.workspaceSize shapes so, s.backend.workspaceSize shapes.condensed bo]
      [(divide s shapes so bo).1.strategy, (divide s shapes so bo).1.backend]
      (divide s shapes so bo).2 (size s shapes so bo) := by
  have hsum : ([s.strategy.workspaceSize shapes so,
      s.backend.workspaceSize shapes.condensed bo].map alignUp).sum = size s shapes so bo := by
    simp only [List.map_cons, List.map_nil, List.sum_cons, List.sum_nil, size, Nat.add_zero]
  exact .of_takeAll hsum

/-! ## The overlay -/

namespace Overlay

variable (s : Solver δ ο μ β ν) (shapes : ShapePair) (so : ο) (bo : β)

theorem outcome_carve {σ : Type} (value : σ) (j : Journal) :
    Procedure.outcome (carve s shapes so bo) value j =
      (.ok (divide s shapes so bo).1, ⟨value, j⟩) := by
  have hc := (divide_exact s shapes so bo).cursor_eq
  rw [carve]
  exact (Procedure.outcome_bind_ok (Procedure.outcome_finish hc ..) _).trans
    (Procedure.outcome_pure ..)

/-- The two parts lie in scratch that is large enough. -/
theorem spaced_divide {work : Words} (h : size s shapes so bo ≤ Words.byteSize work) :
    Spaced 0 [(divide s shapes so bo).1.strategy, (divide s shapes so bo).1.backend]
      (Words.byteSize work) :=
  (divide_exact s shapes so bo).tiles.spaced.mono (Nat.le_refl 0) h

/-- Scratch is handed out exactly when it is large enough. -/
theorem check_divide_eq_ok_iff (work : Words) :
    (divide s shapes so bo).1.check work = .ok () ↔
      size s shapes so bo ≤ Words.byteSize work := by
  have htotal : (divide s shapes so bo).1.total = size s shapes so bo := rfl
  constructor
  · intro h
    rcases Nat.lt_or_ge (Words.byteSize work) (size s shapes so bo) with hlt | hge
    · rw [check, htotal, if_pos hlt] at h
      cases h
    · exact hge
  · intro h
    rw [check, htotal, if_neg (Nat.not_lt.2 h)]
    exact checkSplit_of_spaced (spaced_divide s shapes so bo h)

/-- Scratch that is not enough is refused with both sizes. -/
theorem check_divide_of_lt {work : Words} (h : Words.byteSize work < size s shapes so bo) :
    (divide s shapes so bo).1.check work =
      .error (.bufferSize (Words.byteSize work) (size s shapes so bo)) := by
  have htotal : (divide s shapes so bo).1.total = size s shapes so bo := rfl
  rw [check, htotal, if_pos h]
  rfl

end Overlay

/-! ## Memory that was laid out -/

namespace SolverMemory

open Procedure

/-- The parts of the memory for a pair of shapes lie one behind the other and fill its
words; the modules have so many bytes. -/
structure Laid (shapes : ShapePair) (strategyBytes backendBytes : Nat) (m : SolverMemory μ ν) :
    Prop where
  full_eq : m.full = shapes.full
  lengths_eq : m.layout.blocks.map Block.len =
    [RecordHeader.size, strategyBytes, backendBytes, shapes.condensed.inputBytes,
      shapes.condensed.outputBytes]
  tiles : Tiles 0 m.layout.blocks m.layout.total
  input_eq : m.input = .ofShape InputField shapes.condensed
  output_eq : m.output = .ofShape OutputField shapes.condensed
  size_eq : Words.byteSize m.words = m.layout.total

/-- The memory lies in its words from the moment it is laid out, whatever modules
wrote to their regions. -/
theorem laid_of_assign {σ : Type} {s : Solver δ ο μ β ν} {shapes : ShapePair} {so : ο} {bo : β}
    {words : Words} {value : σ} {j : Journal} {m : SolverMemory μ ν} {t : Noted σ}
    (h : outcome (assign s shapes so bo words) value j = (.ok m, t)) :
    m.layout = (carve s shapes so bo).1 ∧
      m.Laid shapes (s.strategy.memorySize shapes so)
        (s.backend.memorySize shapes.condensed bo) := by
  have hcarve := carve_exact s shapes so bo
  obtain ⟨⟨⟩, t₁, hexpect, h⟩ := of_outcome_bind h
  obtain ⟨⟨⟩, t₂, -, h⟩ := of_outcome_bind h
  obtain ⟨⟨⟩, t₃, -, h⟩ := of_outcome_bind h
  obtain ⟨⟨strategyTable, strategyRegion⟩, t₄, -, h⟩ := of_outcome_bind h
  obtain ⟨⟨backendTable, backendRegion⟩, t₅, -, h⟩ := of_outcome_bind h
  obtain ⟨⟨⟩, t₆, -, h⟩ := of_outcome_bind h
  simp only [outcome_bind, Layout.outcome_assign, outcome_pure] at h
  cases h
  have hsize := (Words.expectBytes_eq_ok_iff _ _).1 (of_outcome_check hexpect).1
  exact ⟨rfl, rfl, hcarve.lengths_eq, hcarve.tiles, rfl, rfl, by
    simpa [Words.byteSize, Words.fill] using hsize⟩

namespace Laid

variable {shapes : ShapePair} {strategyBytes backendBytes : Nat} {m : SolverMemory μ ν}

/-- Other words of the same number are laid out alike. -/
theorem withWords (h : m.Laid shapes strategyBytes backendBytes) {words : Words}
    (hs : words.size = m.words.size) :
    Laid shapes strategyBytes backendBytes { m with words } := by
  refine { h with size_eq := ?_ }
  rw [Words.byteSize, hs]
  exact h.size_eq

theorem shapes_eq (h : m.Laid shapes strategyBytes backendBytes) : m.shapes = shapes := by
  rw [SolverMemory.shapes, h.full_eq, h.input_eq]
  rfl

/-- The blocks of the memory are spaced within its words. -/
theorem spaced (h : m.Laid shapes strategyBytes backendBytes) :
    Spaced 0 m.layout.blocks (Words.byteSize m.words) := by
  rw [h.size_eq]
  exact h.tiles.spaced

theorem fits (h : m.Laid shapes strategyBytes backendBytes) {b : Block}
    (hb : b ∈ m.layout.blocks) : b.Fits m.words := h.spaced.fits hb

theorem header_fits (h : m.Laid shapes strategyBytes backendBytes) :
    m.layout.header.Fits m.words := h.fits (List.mem_cons_self ..)

theorem strategy_fits (h : m.Laid shapes strategyBytes backendBytes) :
    m.layout.strategy.Fits m.words :=
  h.fits (by simp [MemoryLayout.blocks, MemoryLayout.children])

theorem backend_fits (h : m.Laid shapes strategyBytes backendBytes) :
    m.layout.backend.Fits m.words :=
  h.fits (by simp [MemoryLayout.blocks, MemoryLayout.children])

theorem input_fits (h : m.Laid shapes strategyBytes backendBytes) :
    m.layout.input.Fits m.words :=
  h.fits (by simp [MemoryLayout.blocks, MemoryLayout.children])

theorem output_fits (h : m.Laid shapes strategyBytes backendBytes) :
    m.layout.output.Fits m.words :=
  h.fits (by simp [MemoryLayout.blocks, MemoryLayout.children])

/-- Each block has the bytes that it was carved with. -/
theorem span_eq (h : m.Laid shapes strategyBytes backendBytes) {b : Block} {i bytes : Nat}
    (hb : m.layout.blocks[i]? = some b)
    (hl : [RecordHeader.size, strategyBytes, backendBytes, shapes.condensed.inputBytes,
      shapes.condensed.outputBytes][i]? = some bytes) : b.span = alignUp bytes := by
  rw [← h.lengths_eq, List.getElem?_map, hb, Option.map_some] at hl
  rw [Block.span, Option.some.inj hl]

theorem header_span (h : m.Laid shapes strategyBytes backendBytes) :
    m.layout.header.span = RecordHeader.size := h.span_eq (i := 0) rfl rfl

/-- The twelve words of the header come before the other parts. -/
theorem le_firstWord (h : m.Laid shapes strategyBytes backendBytes) {b : Block}
    (hb : b ∈ m.layout.children) : 12 ≤ b.firstWord := by
  have hpairwise : m.layout.blocks.Pairwise fun b c => b.stop ≤ c.offset := h.spaced.pairwise
  have hstop := (List.pairwise_cons.1 hpairwise).1 b hb
  have hspan : m.layout.header.span = 96 := h.header_span
  unfold Block.stop at hstop
  unfold Block.firstWord
  omega

theorem strategy_span (h : m.Laid shapes strategyBytes backendBytes) :
    m.layout.strategy.span = alignUp strategyBytes := h.span_eq (i := 1) rfl rfl

theorem backend_span (h : m.Laid shapes strategyBytes backendBytes) :
    m.layout.backend.span = alignUp backendBytes := h.span_eq (i := 2) rfl rfl

theorem input_span (h : m.Laid shapes strategyBytes backendBytes) :
    m.layout.input.span = shapes.condensed.inputBytes :=
  (h.span_eq (i := 3) rfl rfl).trans (alignUp_of_mod (Layout.size_mod InputField _))

theorem output_span (h : m.Laid shapes strategyBytes backendBytes) :
    m.layout.output.span = shapes.condensed.outputBytes :=
  (h.span_eq (i := 4) rfl rfl).trans (alignUp_of_mod (Layout.size_mod OutputField _))

theorem input_shape (h : m.Laid shapes strategyBytes backendBytes) :
    m.input.shape = shapes.condensed := by
  rw [h.input_eq]
  rfl

theorem output_shape (h : m.Laid shapes strategyBytes backendBytes) :
    m.output.shape = shapes.condensed := by
  rw [h.output_eq]
  rfl

/-- The condensed program in the memory is a valid record. -/
theorem input_valid (h : m.Laid shapes strategyBytes backendBytes) :
    StageData.Valid ⟨m.input, m.layout.input.part m.words⟩ where
  layout_eq := by
    show m.input = .ofShape InputField m.input.shape
    rw [h.input_eq]
    rfl
  total_le := by
    show m.input.total ≤ Words.byteSize (m.layout.input.part m.words)
    rw [Block.byteSize_part h.input_fits, h.input_span, h.input_eq, Layout.total_eq_size]
    exact Nat.le_refl _

/-- The condensed solution in the memory is a valid record. -/
theorem output_valid (h : m.Laid shapes strategyBytes backendBytes) :
    StageData.Valid ⟨m.output, m.layout.output.part m.words⟩ where
  layout_eq := by
    show m.output = .ofShape OutputField m.output.shape
    rw [h.output_eq]
    rfl
  total_le := by
    show m.output.total ≤ Words.byteSize (m.layout.output.part m.words)
    rw [Block.byteSize_part h.output_fits, h.output_span, h.output_eq, Layout.total_eq_size]
    exact Nat.le_refl _

theorem condensedInput_eq (h : m.Laid shapes strategyBytes backendBytes) :
    m.condensedInput = .ok ⟨m.input, m.layout.input.part m.words⟩ := by
  rw [condensedInput, h.input_fits.slice]
  exact h.input_valid.ofWords_eq

theorem condensedOutput_eq (h : m.Laid shapes strategyBytes backendBytes) :
    m.condensedOutput = .ok ⟨m.output, m.layout.output.part m.words⟩ := by
  rw [condensedOutput, h.output_fits.slice]
  exact h.output_valid.ofWords_eq

end Laid

/-! ## Counting a solve -/

/-- The words of the memory, by number; those of the header come first. -/
def word (m : SolverMemory μ ν) (i : Nat) : UInt64 := m.words.getD i 0

/-- The part of the header that does not describe this layout. -/
def flaw? (m : SolverMemory μ ν) (l : MemoryLayout) : Option HeaderPart :=
  RecordHeader.flaw? m.word (RecordHeader.prescribed tag l.total l.children)

/-- The memory with one more solve counted, in the epoch of its header. -/
def counted (m : SolverMemory μ ν) : SolverMemory μ ν :=
  { m with words := m.words.modify 2 (· + 1) }

namespace Laid

variable {shapes : ShapePair} {strategyBytes backendBytes : Nat} {m : SolverMemory μ ν}

theorem header_firstWord (h : m.Laid shapes strategyBytes backendBytes) :
    m.layout.header.firstWord = 0 := by
  rw [Block.firstWord, h.tiles.1]

theorem size_header_part (h : m.Laid shapes strategyBytes backendBytes) :
    (m.layout.header.part m.words).size = 12 := by
  rw [Block.size_part h.header_fits, h.header_span]
  rfl

/-- The header is read from the first words. -/
theorem header_eq (h : m.Laid shapes strategyBytes backendBytes) :
    (Record.get (m.layout.header.part m.words) 0 : RecordHeader) = .ofWords m.word := by
  refine RecordHeader.ofWords_eq_iff.2 fun i hi => Record.getD_of_getElem?_eq ?_
  rw [Nat.mul_zero, Nat.zero_add,
    Block.getElem?_part h.header_fits (by rw [h.header_span]; exact hi), h.header_firstWord,
    Nat.zero_add]

/-- The header verifies unless the memory has a flaw, which is reported. -/
theorem verify_header (h : m.Laid shapes strategyBytes backendBytes) :
    (Record.get (m.layout.header.part m.words) 0 : RecordHeader).verify tag m.layout.total
        m.layout.children =
      match m.flaw? m.layout with
      | none => .ok ()
      | some part => .error (.header part) := by
  rw [h.header_eq, RecordHeader.verify_ofWords]
  rfl

/-- The header has no flaw exactly if it verifies. -/
theorem flaw?_eq_none_iff (h : m.Laid shapes strategyBytes backendBytes) :
    m.flaw? m.layout = none ↔
      (Record.get (m.layout.header.part m.words) 0 : RecordHeader).verify tag m.layout.total
        m.layout.children = .ok () := by
  rw [h.verify_header]
  cases m.flaw? m.layout <;> simp

/-- Writing back the header with the next epoch changes one word. -/
theorem setRecords_header (h : m.Laid shapes strategyBytes backendBytes) {header : RecordHeader}
    (hh : header = Record.get (m.layout.header.part m.words) 0) :
    m.layout.header.setRecords m.words #[{ header with epoch := header.epoch + 1 }] =
      m.counted.words := by
  subst hh
  show m.layout.header.put m.words (Record.set (m.layout.header.part m.words) 0 _) = _
  rw [RecordHeader.set_epoch h.size_header_part (· + 1), Block.put_modify h.header_fits
    (by rw [h.header_span]; decide), h.header_firstWord]
  rfl

/-- Counting a solve checks every word of the header but the epoch, and then adds one
to that; a header that is refused stays as it is. -/
theorem outcome_beginSolve (h : m.Laid shapes strategyBytes backendBytes) (j : Journal) :
    outcome beginSolve m j =
      match m.flaw? m.layout with
      | none => (.ok (m.word 2 + 1), ⟨m.counted, j⟩)
      | some part => (.error (.fault (.header part)), ⟨m, j⟩) := by
  have hsplit : m.words.checkSplit m.layout.blocks = .ok () := checkSplit_of_spaced h.spaced
  have hin : m.input.check (m.layout.input.part m.words) = .ok () :=
    if_neg (Nat.not_lt.2 h.input_valid.total_le)
  have hout : m.output.check (m.layout.output.part m.words) = .ok () :=
    if_neg (Nat.not_lt.2 h.output_valid.total_le)
  have hverify := h.verify_header
  have hepoch : (Record.get (m.layout.header.part m.words) 0 : RecordHeader).epoch = m.word 2 := by
    rw [h.header_eq]
    rfl
  have hcounted := h.setRecords_header rfl
  rw [hepoch] at hcounted
  cases hf : m.flaw? m.layout with
  | none =>
      rw [hf] at hverify
      simp only [beginSolve, outcome_bind, outcome_fetch, hsplit, outcome_check_ok, hverify,
        outcome_store, hin, hout, outcome_pure, hepoch, hcounted]
      rfl
  | some part =>
      rw [hf] at hverify
      simp only [beginSolve, outcome_bind, outcome_fetch, hsplit, outcome_check_ok, hverify,
        outcome_check_error]

end Laid

end SolverMemory

end StageQp
