import StageQp.Proofs.Backend.Kept
import StageQp.Proofs.Procedure
import StageQp.Proofs.Solver.Carving
import StageQp.Proofs.Strategy.Identity
import StageQp.Solver.Bundled

/-!
# StageQp.Proofs.Solver.Memory

The memory of the bundled solver.  It is intact when its tables are those of its
shapes and its words hold a header that verifies and the map of stages
(`SolverMemory.Intact`).  Memory is intact when it is laid out
(`outcome_assign`), and stays so when a solve is counted (`Intact.outcome_beginSolve`)
and when the parts that a solve writes are written (`Intact.put`).
-/

namespace StageQp

open Procedure

namespace SolverMemory

/-- The entries of a map of so many stages. -/
def stageNumbers (stages : Nat) : List Nat :=
  (List.range stages).map fun k => (UInt32.ofNat k).toNat

/-- The map names every stage exactly if the horizon fits: past 32 bits the numbers
start over, and the first stage stands in the place of another. -/
theorem stageNumbers_eq_range_iff {horizon : Nat} :
    stageNumbers (horizon + 1) = List.range (horizon + 1) ↔ horizon < 2 ^ 32 :=
  Identity.map_toNat_ofNat_iff horizon

def backendState (m : SolverMemory IdentityMemory DenseMemory) : Except Fault DenseState := do
  m.backend.readState (← m.backendRegion)

def keptSolution (m : SolverMemory IdentityMemory DenseMemory) :
    Except Fault (Array Binary64) := do
  return m.backend.solutionOf (← m.backendRegion)

/-- The tables are those that the bundled modules make for the shapes. -/
structure Tabled (shapes : ShapePair) (m : SolverMemory IdentityMemory DenseMemory) : Prop
    extends Laid shapes (Identity.memorySize shapes) (Dense.memorySize shapes.condensed) m where
  strategy_eq : m.strategy = (Identity.carveMemory (shapes.condensed.horizon + 1)).1
  backend_eq : m.backend = (Dense.carveMemory shapes.condensed).1

namespace Tabled

variable {shapes : ShapePair} {m : SolverMemory IdentityMemory DenseMemory}

theorem withWords (h : m.Tabled shapes) {words : Words} (hs : words.size = m.words.size) :
    Tabled shapes { m with words } :=
  { h with toLaid := h.toLaid.withWords hs }

theorem backend_span (h : m.Tabled shapes) :
    m.layout.backend.span = Dense.memorySize shapes.condensed :=
  h.toLaid.backend_span.trans (Dense.alignUp_memorySize _)

/-- Any record of the condensed shape is solved on the backend's region, in scratch
of the size asked for. -/
theorem ready (h : m.Tabled shapes) {qp : QpInput} (hqs : qp.shape = shapes.condensed)
    {record : QpOutput} (hv : record.Valid) (hs : record.shape = shapes.condensed) {work : Words}
    (hwork : (DenseScratch.ofOrder shapes.condensed.order).total ≤ Words.byteSize work) :
    Dense.Ready qp m.backend ⟨record, m.layout.backend.part m.words, work⟩ where
  table_eq := by rw [hqs, h.backend_eq]
  valid := hv
  shape_eq := hs.trans hqs.symm
  region_eq := by rw [Block.byteSize_part h.backend_fits, h.backend_span, hqs]
  work_le := by
    rw [h.backend_eq]
    exact hwork

/-- The backend's table fits its region. -/
theorem fitted (h : m.Tabled shapes) :
    Dense.Fitted shapes.condensed m.backend (m.layout.backend.part m.words) where
  table_eq := h.backend_eq
  region_le := by rw [Block.byteSize_part h.backend_fits, h.backend_span]

theorem backendState_eq (h : m.Tabled shapes) :
    m.backendState = .ok (m.backend.stateOf (m.layout.backend.part m.words)) := by
  rw [backendState, backendRegion, h.backend_fits.slice]
  exact h.fitted.readState_eq

/-- The solution that the backend keeps is there to be read. -/
theorem keptSolution_eq (h : m.Tabled shapes) :
    m.keptSolution = .ok (m.backend.solutionOf (m.layout.backend.part m.words)) := by
  rw [keptSolution, backendRegion, h.backend_fits.slice]
  rfl

end Tabled

/-- The tables are those of the shapes, and the words hold the header and the map of stages. -/
structure Intact (shapes : ShapePair) (m : SolverMemory IdentityMemory DenseMemory) : Prop
    extends Tabled shapes m where
  header_ok : RecordHeader.verify (Record.get (m.layout.header.part m.words) 0) tag
    m.layout.total m.layout.children = .ok ()
  stages_eq : m.strategy.stages (m.layout.strategy.part m.words) =
    .ok (stageNumbers (shapes.condensed.horizon + 1))

/-- The map of stages names every stage of a shape at its own place. -/
def NamesEveryStage (shape : Shape) (m : SolverMemory IdentityMemory DenseMemory) : Prop :=
  ∃ region, m.strategyRegion = .ok region ∧
    m.strategy.stages region = .ok (List.range (shape.horizon + 1))

/-- Only numbers of 32 bits can be named. -/
theorem NamesEveryStage.horizon_lt {shape : Shape}
    {m : SolverMemory IdentityMemory DenseMemory} (h : m.NamesEveryStage shape) :
    shape.horizon < 2 ^ 32 := by
  obtain ⟨region, -, hstages⟩ := h
  exact Identity.lt_of_stages_eq_ok hstages (by simp)

/-- Where no part of the header is flawed, a map that names every stage is the one that
was laid out. -/
theorem Tabled.intact {shape : Shape} {m : SolverMemory IdentityMemory DenseMemory}
    (h : m.Tabled ⟨shape, shape⟩) (hf : m.flaw? m.layout = none) (hm : m.NamesEveryStage shape) :
    m.Intact ⟨shape, shape⟩ where
  toTabled := h
  header_ok := h.flaw?_eq_none_iff.1 hf
  stages_eq := by
    obtain ⟨region, hregion, hstages⟩ := id hm
    rw [strategyRegion, h.strategy_fits.slice] at hregion
    cases hregion
    rw [hstages]
    exact congrArg Except.ok (stageNumbers_eq_range_iff.2 hm.horizon_lt).symm

namespace Intact

variable {shapes : ShapePair} {m : SolverMemory IdentityMemory DenseMemory}

/-- The map that was laid out names every stage exactly if the horizon fits. -/
theorem namesEveryStage_iff {shape : Shape} (h : m.Intact ⟨shape, shape⟩) :
    m.NamesEveryStage shape ↔ shape.horizon < 2 ^ 32 := by
  refine ⟨NamesEveryStage.horizon_lt, fun hn => ⟨_, h.strategy_fits.slice, ?_⟩⟩
  rw [h.stages_eq]
  exact congrArg Except.ok (stageNumbers_eq_range_iff.2 hn)

/-- Parts that a solve writes have no word of the header or of the map of stages. -/
theorem apart (h : m.Intact shapes) {b : Block}
    (hb : b ∈ [m.layout.backend, m.layout.input, m.layout.output]) :
    b.Apart m.layout.header ∧ b.Apart m.layout.strategy := by
  obtain ⟨i, hi, rfl⟩ := List.mem_iff_getElem.1 hb
  have hget : m.layout.blocks[i + 2]? =
      some [m.layout.backend, m.layout.input, m.layout.output][i] :=
    List.getElem?_eq_getElem hi
  exact ⟨h.spaced.apart hget (j := 0) rfl (by omega),
    h.spaced.apart hget (j := 1) rfl (by omega)⟩

/-- Writing a part that a solve writes. -/
theorem put (h : m.Intact shapes) {b : Block} {part : Words}
    (hb : b ∈ [m.layout.backend, m.layout.input, m.layout.output])
    (hp : part.size ≤ b.span / 8) :
    Intact shapes { m with words := b.put m.words part } := by
  have hf : b.Fits m.words := h.fits (List.mem_cons_of_mem _ (List.mem_cons_of_mem _ hb))
  obtain ⟨hheader, hstrategy⟩ := h.apart hb
  refine { h with toTabled := h.withWords (Block.size_put ..), header_ok := ?_, stages_eq := ?_ }
  · show RecordHeader.verify (Record.get (m.layout.header.part (b.put m.words part)) 0) _ _ _ = _
    rw [Block.part_put_of_apart hf.1 h.header_fits hheader hp]
    exact h.header_ok
  · show m.strategy.stages (m.layout.strategy.part (b.put m.words part)) = _
    rw [Block.part_put_of_apart hf.1 h.strategy_fits hstrategy hp]
    exact h.stages_eq

/-! ## Counting a solve -/

/-- The memory with another header of the same layout. -/
theorem setHeader (h : m.Intact shapes) {header : RecordHeader}
    (hv : header.verify tag m.layout.total m.layout.children = .ok ()) :
    Intact shapes { m with words := m.layout.header.setRecords m.words #[header] } := by
  have hapart : m.layout.header.Apart m.layout.strategy :=
    h.spaced.apart (i := 0) (j := 1) rfl rfl (by decide)
  refine { h with toTabled := h.withWords (Block.size_setRecords ..), header_ok := ?_,
                  stages_eq := ?_ }
  · show RecordHeader.verify
      (Record.get (m.layout.header.part (m.layout.header.setRecords m.words #[header])) 0) _ _ _ = _
    rw [Block.get_setRecords_singleton h.header_fits (by rw [h.header_span]; decide)]
    exact hv
  · show m.strategy.stages
      (m.layout.strategy.part (m.layout.header.setRecords m.words #[header])) = _
    rw [Block.part_setRecords_of_apart h.header_fits h.strategy_fits hapart]
    exact h.stages_eq

theorem flaw?_eq_none (h : m.Intact shapes) : m.flaw? m.layout = none :=
  h.flaw?_eq_none_iff.2 h.header_ok

/-- Counting a solve on an intact memory succeeds. -/
theorem outcome_beginSolve (h : m.Intact shapes) (j : Journal) :
    outcome beginSolve m j = (.ok (m.word 2 + 1), ⟨m.counted, j⟩) := by
  rw [h.toLaid.outcome_beginSolve, h.flaw?_eq_none]

/-- Counting a solve keeps the memory intact. -/
theorem counted (h : m.Intact shapes) : m.counted.Intact shapes := by
  obtain ⟨header, hh⟩ : ∃ r : RecordHeader, r = Record.get (m.layout.header.part m.words) 0 :=
    ⟨_, rfl⟩
  have hnext : { header with epoch := header.epoch + 1 }.verify tag m.layout.total
      m.layout.children = .ok () := by
    rw [RecordHeader.verify_with_epoch, hh]
    exact h.header_ok
  have hset := h.setHeader hnext
  rwa [h.setRecords_header hh] at hset

/-- Counting a solve leaves every other part as it was. -/
theorem part_counted (h : m.Intact shapes) {b : Block} (hb : b ∈ m.layout.children) :
    b.part m.counted.words = b.part m.words := by
  have hf : b.Fits m.words := h.fits (List.mem_cons_of_mem _ hb)
  obtain ⟨i, hi, rfl⟩ := List.mem_iff_getElem.1 hb
  have hapart : m.layout.header.Apart m.layout.children[i] :=
    h.spaced.apart (i := 0) (j := i + 1) rfl (List.getElem?_eq_getElem hi) (by omega)
  rw [← h.setRecords_header rfl]
  exact Block.part_setRecords_of_apart h.header_fits hf hapart _

end Intact

/-- A solve that is not begun on good terms leaves an intact memory intact, too. -/
theorem keeps_beginSolve (shapes : ShapePair) : Keeps (Intact shapes) beginSolve := by
  intro m j h
  rw [h.outcome_beginSolve]
  exact h.counted

/-! ## Laying out -/

/-- The words with the header written over zeros. -/
def headed (l : MemoryLayout) : Words := l.header.setRecords (.zeroed l.total) #[headerOf l]

/-- The words with the header and then the region of the strategy written over zeros. -/
def laidOut (l : MemoryLayout) (region : Words) : Words := l.strategy.put (headed l) region

section LaidOut

variable {l : MemoryLayout} {region : Words}
  (hs : Spaced 0 l.blocks (Words.byteSize (.zeroed l.total)))

include hs

theorem header_fits_zeroed : l.header.Fits (.zeroed l.total) := hs.fits (List.mem_cons_self ..)

theorem strategy_fits_headed : l.strategy.Fits (headed l) :=
  (hs.fits (b := l.strategy) (by simp [MemoryLayout.blocks, MemoryLayout.children])).setRecords

/-- The strategy's region is read back as it was written. -/
theorem strategy_part_laidOut (hr : region.size = l.strategy.span / 8) :
    l.strategy.part (laidOut l region) = region := by
  rw [laidOut, Block.part_put (strategy_fits_headed hs) hr]

/-- Writing the region of the strategy leaves the other parts. -/
theorem part_laidOut_of_apart {b : Block} (hb : b.Fits (.zeroed l.total))
    (hapart : l.strategy.Apart b) (hr : region.size ≤ l.strategy.span / 8) :
    b.part (laidOut l region) = b.part (headed l) :=
  Block.part_put_of_apart (strategy_fits_headed hs).1 hb.setRecords hapart hr

/-- The header is read back as it was written. -/
theorem header_laidOut (hh : Record.bytes RecordHeader ≤ l.header.span)
    (hr : region.size ≤ l.strategy.span / 8) :
    Record.get (l.header.part (laidOut l region)) 0 = headerOf l := by
  have hf := header_fits_zeroed hs
  have hapart : l.strategy.Apart l.header := hs.apart (i := 1) (j := 0) rfl rfl (by decide)
  rw [part_laidOut_of_apart hs hf hapart hr, headed, Block.get_setRecords_singleton hf hh]

/-- The parts behind the region of the strategy are still zero. -/
theorem part_laidOut_eq_zeroed {b : Block} (hb : b ∈ [l.backend, l.input, l.output])
    (hr : region.size ≤ l.strategy.span / 8) : b.part (laidOut l region) = .zeroed b.len := by
  obtain ⟨i, hi, rfl⟩ := List.mem_iff_getElem.1 hb
  have hget : l.blocks[i + 2]? = some [l.backend, l.input, l.output][i] :=
    List.getElem?_eq_getElem hi
  have hf := hs.fits (List.mem_of_getElem? hget)
  have hhb := hs.apart (i := 0) (j := i + 2) rfl hget (by omega)
  have hsb := hs.apart (i := 1) (j := i + 2) rfl hget (by omega)
  rw [part_laidOut_of_apart hs hf hsb hr, headed,
    Block.part_setRecords_of_apart (header_fits_zeroed hs) hf hhb, Block.part_zeroed hf]

end LaidOut

theorem byteSize_laidOut (l : MemoryLayout) (region : Words) :
    Words.byteSize (laidOut l region) = Words.byteSize (.zeroed l.total) := by
  rw [laidOut, Words.byteSize, Block.size_put, ← Words.byteSize, headed, Block.byteSize_setRecords]

/-- The memory of the bundled modules that lies like this on these words. -/
def onWords (shapes : ShapePair) (l : MemoryLayout) (words : Words) :
    SolverMemory IdentityMemory DenseMemory where
  full := shapes.full
  layout := l
  strategy := (Identity.carveMemory (shapes.condensed.horizon + 1)).1
  backend := (Dense.carveMemory shapes.condensed).1
  input := .ofShape InputField shapes.condensed
  output := .ofShape OutputField shapes.condensed
  words

/-- The memory is intact, and nothing was written to it that a solve writes. -/
structure Fresh (shapes : ShapePair) (m : SolverMemory IdentityMemory DenseMemory) : Prop
    extends Intact shapes m where
  part_eq {b : Block} (hb : b ∈ [m.layout.backend, m.layout.input, m.layout.output]) :
    b.part m.words = .zeroed b.len

/-- No solve is counted in it. -/
theorem Fresh.solves_eq_zero {shapes : ShapePair} {m : SolverMemory IdentityMemory DenseMemory}
    (hm : m.Fresh shapes) : (m.backend.stateOf (m.layout.backend.part m.words)).solves = 0 := by
  have hf := hm.fitted.fits (b := m.backend.state) (by simp [DenseMemory.blocks])
  rw [hm.part_eq (by simp)] at hf
  rw [DenseMemory.stateOf, hm.part_eq (by simp), Block.part_zeroed hf]
  exact congrArg Binary64.bits (StageData.get_zeroed .double m.backend.state.len 0)

/-- Freshly laid out memory is intact once its strategy's region holds the map of stages,
and zero behind that. -/
theorem fresh_laidOut {shapes : ShapePair} {l : MemoryLayout} {c : Carver} {region : Words}
    (hc : ExactCarve [RecordHeader.size, Identity.memorySize shapes,
      Dense.memorySize shapes.condensed, shapes.condensed.inputBytes, shapes.condensed.outputBytes]
      l.blocks c l.total)
    (hr : region.size = l.strategy.span / 8)
    (hstages : (Identity.carveMemory (shapes.condensed.horizon + 1)).1.stages region =
      .ok (stageNumbers (shapes.condensed.horizon + 1))) :
    (onWords shapes l (laidOut l region)).Fresh shapes := by
  have hs := hc.spaced_zeroed
  have hh : Record.bytes RecordHeader ≤ l.header.span := by
    have hlen : l.header.len = RecordHeader.size := (List.cons.inj hc.lengths_eq).1
    rw [Block.span, hlen]
    decide
  refine { full_eq := rfl, lengths_eq := hc.lengths_eq, tiles := hc.tiles, strategy_eq := rfl,
           backend_eq := rfl, input_eq := rfl, output_eq := rfl, size_eq := ?_,
           header_ok := ?_, stages_eq := ?_,
           part_eq := fun hb => part_laidOut_eq_zeroed hs hb (Nat.le_of_eq hr) }
  · exact (byteSize_laidOut l region).trans hc.byteSize_zeroed
  · show RecordHeader.verify (Record.get (l.header.part (laidOut l region)) 0) tag l.total
      l.children = .ok ()
    rw [header_laidOut hs hh (Nat.le_of_eq hr)]
    exact RecordHeader.verify_make tag l.total l.children 0
  · show (Identity.carveMemory _).1.stages (l.strategy.part (laidOut l region)) = _
    rw [strategy_part_laidOut hs hr]
    exact hstages

section Assign

variable {σ : Type} {env : Environment} {shapes : ShapePair} {so : IdentityOptions}
variable {bo : DenseOptions} {words : Words}

/-- Memory that is laid out is fresh, and lies as it was carved. -/
theorem outcome_assign (h : Words.byteSize words = size (.bundled env) shapes so bo) (value : σ)
    (j : Journal) :
    ∃ m j', outcome (assign (.bundled env) shapes so bo words) value j = (.ok m, ⟨value, j'⟩) ∧
      m.layout = (carve (.bundled env) shapes so bo).1 ∧ m.Fresh shapes := by
  have hexpect := (Words.expectBytes_eq_ok_iff _ _).2 h
  have hcarve := carve_exact (.bundled env) shapes so bo
  have hspan : (carve (.bundled env) shapes so bo).1.strategy.span = Identity.memorySize shapes :=
    alignUp_alignUp _
  have hlen : (carve (.bundled env) shapes so bo).1.backend.len =
      Dense.memorySize shapes.condensed := rfl
  obtain ⟨layout, hlayout⟩ : ∃ l, l = (carve (.bundled env) shapes so bo).1 := ⟨_, rfl⟩
  have htotal : layout.total = size (.bundled env) shapes so bo := by rw [hlayout]; rfl
  rw [← hlayout, ← htotal] at hcarve
  rw [← hlayout] at hspan hlen
  have hcursor := hcarve.cursor_eq
  have hs := hcarve.spaced_zeroed
  have hz : words.fill 0 = .zeroed layout.total := by rw [Words.fill_zero, h, htotal]
  have hsplit : (Words.zeroed layout.total).checkSplit
      [layout.header, layout.strategy, layout.backend] = .ok () :=
    checkSplit_of_spaced (hs.sublist (by simp [MemoryLayout.blocks, MemoryLayout.children]))
  have hregion : Words.byteSize (layout.strategy.part (headed layout)) =
      Identity.memorySize shapes := by
    rw [Block.byteSize_part (strategy_fits_headed hs), hspan]
  obtain ⟨region, hmap, hsize, hstages⟩ := Identity.outcome_memoryAssign hregion j
  rw [Block.size_part (strategy_fits_headed hs)] at hsize
  have hzero : layout.backend.part (laidOut layout region) =
      .zeroed (Dense.memorySize shapes.condensed) := by
    rw [part_laidOut_eq_zeroed hs (by simp) (Nat.le_of_eq hsize), hlen]
  have hback : layout.backend.put (laidOut layout region)
      (.zeroed (Dense.memorySize shapes.condensed)) = laidOut layout region := by
    rw [← hzero, Block.put_part]
  obtain ⟨j', hdense⟩ := Dense.outcome_memoryAssign shapes.condensed j
  refine ⟨onWords shapes layout (laidOut layout region),
    j'.note (.solverMemoryCarved layout.total layout.strategy.len layout.backend.len
      layout.input.len layout.output.len), ?_, hlayout, fresh_laidOut hcarve hsize hstages⟩
  have hstrategy : (Solver.bundled env).strategy.memoryAssign shapes so =
      Identity.memoryAssign shapes := rfl
  have hbackend : (Solver.bundled env).backend.memoryAssign shapes.condensed bo =
      Dense.memoryAssign shapes.condensed := rfl
  simp only [assign, outcome_bind, hexpect, outcome_check_ok, ← hlayout, outcome_finish hcursor,
    hz, hsplit, ← headed.eq_1, hstrategy, outcome_within_ok hmap, ← laidOut.eq_1, hbackend, hzero,
    outcome_within_ok hdense, hback, outcome_note, Layout.outcome_assign, outcome_pure]
  rfl

/-- A buffer of another size is refused. -/
theorem outcome_assign_of_ne (h : Words.byteSize words ≠ size (.bundled env) shapes so bo)
    (value : σ) (j : Journal) :
    outcome (assign (.bundled env) shapes so bo words) value j =
      (.error (.fault (.bufferSize (Words.byteSize words) (size (.bundled env) shapes so bo))),
        ⟨value, j⟩) := by
  simp only [assign, outcome_bind, Words.expectBytes_of_ne h, outcome_check_error]

/-- Memory that could be laid out is fresh, and lies as it was carved. -/
theorem fresh_of_assign {value : σ} {j : Journal}
    {m : SolverMemory IdentityMemory DenseMemory} {t : Noted σ}
    (h : outcome (assign (.bundled env) shapes so bo words) value j = (.ok m, t)) :
    m.layout = (carve (.bundled env) shapes so bo).1 ∧ m.Fresh shapes := by
  by_cases hw : Words.byteSize words = size (.bundled env) shapes so bo
  · obtain ⟨m', j', hm, hlayout, hi⟩ := outcome_assign hw value j
    rw [hm] at h
    cases h
    exact ⟨hlayout, hi⟩
  · rw [outcome_assign_of_ne hw] at h
    cases h

end Assign

/-- A zeroed buffer of the right size is laid out. -/
theorem exists_assign (env : Environment) (shapes : ShapePair) (so : IdentityOptions)
    (bo : DenseOptions) :
    ∃ m j, outcome (assign (.bundled env) shapes so bo (.zeroed (size (.bundled env) shapes so bo)))
      () {} = (.ok m, ⟨(), j⟩) := by
  obtain ⟨m, j, h, -⟩ :=
    outcome_assign (carve_exact (.bundled env) shapes so bo).byteSize_zeroed () {}
  exact ⟨m, j, h⟩

end SolverMemory

end StageQp
