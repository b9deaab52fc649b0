import StageQp.Proofs.Qp.Times
import StageQp.Proofs.Solver.Request

/-!
# StageQp.Proofs.Solver.Scratch

What a call does not look at: the words of its scratch, the clock, the times of the
solutions that it is handed, and how many solves there were before.  Two calls of one
request, on desks that differ in nothing but scratch and times, come to the same end and
leave desks that differ in nothing else (`Request.ends_alike`), also when they stop on
the way.

The modules go side by side on what each is handed (`Identity.alike_expand`,
`Dense.alike_evaluate`), and so do the phases of the solver that run them.
-/

namespace StageQp

open Procedure

/-! ## The modules -/

/-- What two runs of a module are handed for the solution: the same region, solutions
that lie like `l` and differ in times only, and so many bytes of scratch at least. -/
structure Desk.Matches (l : Layout OutputField) (bytes : Nat) (d e : Desk QpOutput) : Prop where
  record : StageData.SameButTimes l d.record e.record
  region_eq : e.region = d.region
  work_le : bytes ≤ Words.byteSize d.work
  other_work_le : bytes ≤ Words.byteSize e.work

variable {l : Layout OutputField} {bytes : Nat}

namespace Identity

/-- Condensing looks at the program and at the map of stages. -/
theorem alike_condense (qp : QpInput) (m : IdentityMemory) :
    Alike (fun d e : Desk QpInput => e.record = d.record ∧ e.region = d.region)
      (condense qp m) (condense qp m) := by
  refine .fetch_bind fun d e h => ?_
  rw [h.1, h.2]
  exact .bind (.check _) fun _ => .bind (.check _) fun _ => .bind (.need _) fun _ =>
    .store ⟨rfl, rfl⟩

section Expand

variable {m : Layout OutputField} {one other : QpOutput}
  (hs : StageData.SameButTimes m one other) (hv : one.Valid)

include hs hv

theorem rel_expandStage? (duals : Bool) {d e : QpOutput} (h : StageData.SameButTimes l d e)
    (target k : Nat) : Option.Rel (StageData.SameButTimes l)
      (expandStage? duals one d target k) (expandStage? duals other e target k) := by
  rw [expandStage?, expandStage?]
  refine rel_bind (h.copyField? hs hv target k .ux) fun d e h =>
    rel_bind (h.copyField? hs hv target k .t) fun d e h => ?_
  split
  · exact rel_bind (h.copyField? hs hv target k .pi) fun d e h => h.copyField? hs hv target k .lam
  · exact rel_bind (h.fill? target .pi _) fun d e h => h.fill? target .lam _

/-- Expanding copies fields, and these hold no times. -/
theorem alike_expand (o : IdentityOptions) (im : IdentityMemory) :
    Alike (Desk.Matches l bytes) (expand one o im) (expand other o im) := by
  refine .fetch_bind fun d e h => ?_
  rw [hs.shape_eq, h.record.shape_eq, h.region_eq]
  exact .bind (.check _) fun _ => .bind (.check _) fun stages => .need_bind
    (rel_foldlM (R := StageData.SameButTimes l)
      (fun _ _ i hr => rel_expandStage? hs hv _ hr i.1 i.2) h.record _) fun _ _ hr => .store ⟨hr, rfl, h.work_le, h.other_work_le⟩

end Expand

end Identity

namespace Dense

theorem rel_scatter? (shape : Shape) (x : Array Binary64) {d e : QpOutput}
    (h : StageData.SameButTimes l d e) :
    Option.Rel (StageData.SameButTimes l) (scatter? shape x d) (scatter? shape x e) :=
  rel_foldlM (fun _ _ k hr => rel_bind (hr.set? k .ux _) fun _ _ hr => hr.set? k .pi _) h _

theorem alike_account {info info' : SolveInfo} (hn : info'.numIter = info.numIter)
    (ht : info'.tComputed = info.tComputed) :
    Alike (Desk.Matches l bytes) (account info) (account info') :=
  .update fun _ _ h => { h with record := h.record.setInfo hn ht }

/-- Solves on regions that are the same differ in times only. -/
theorem alike_solve {qp : QpInput} (o : DenseOptions) {m : DenseMemory}
    (hm : m.order = qp.shape.order) (hb : (DenseScratch.ofOrder m.order).total ≤ bytes)
    (clock clock' : BackendReadings) :
    Alike (Desk.Matches l bytes) (solve qp o m clock) (solve qp o m clock') := by
  have hsplit {work : Words} (h : bytes ≤ Words.byteSize work) :
      Words.checkSplit work (DenseScratch.ofOrder m.order).blocks = .ok () :=
    checkSplit_of_spaced ((tiles_scratch m.order).spaced.mono (Nat.le_refl 0) (Nat.le_trans hb h))
  refine .fetch_bind fun d e h => ?_
  rw [hsplit h.work_le, hsplit h.other_work_le, attempt_eq hm, attempt_eq hm, h.region_eq]
  refine .bind (.check _) fun _ => .bind (.check _) fun _ => ?_
  cases hr : (attempted qp o m d.region).result with
  | none =>
      simp only [hr]
      refine .bind (.note _ _) fun _ => .bind (.store ?_) fun _ =>
        .bind (alike_account rfl rfl) fun _ => .pure _
      refine ⟨h.record, rfl, ?_, ?_⟩
      · simpa [storeSystem] using h.work_le
      · simpa [storeSystem] using h.other_work_le
  | some it =>
      simp only [hr]
      refine .need_bind (rel_scatter? qp.shape it.solution.toArray h.record) fun _ _ hr =>
        .bind (.store ⟨hr, rfl, ?_, ?_⟩) fun _ => .bind (alike_account rfl rfl) fun _ => .pure _
      · simpa [storeSystem] using h.work_le
      · simpa [storeSystem] using h.other_work_le

/-- The system is assembled over whatever the scratch holds, and the clock shows in the
times of the account only. -/
theorem alike_evaluate (qp : QpInput) (o : DenseOptions) (m : DenseMemory)
    (hb : (DenseScratch.ofOrder m.order).total ≤ bytes) (clock clock' : BackendReadings) :
    Alike (Desk.Matches l bytes) (evaluate qp o m clock) (evaluate qp o m clock') := by
  have hclear : Alike (Desk.Matches l bytes)
      (update fun desk => { desk with record := desk.record.clear })
      (update fun desk => { desk with record := desk.record.clear }) :=
    .update fun _ _ h => { h with record := h.record.clear }
  refine .ite (fun _ => .fail _) fun horder => ?_
  refine .bind hclear fun _ => .ite (fun _ => ?_) fun _ => ?_
  · exact .bind (.note _ _) fun _ => .bind (alike_account rfl rfl) fun _ => .pure _
  · exact alike_solve o (Decidable.not_not.1 horder).symm hb clock clock'

end Dense

/-! ## The memory -/

namespace SolverMemory

variable {μ ν : Type}

/-- The places of a memory that hold no time of the condensed solution. -/
def Untimed (m : SolverMemory μ ν) (i : Nat) : Prop :=
  i < m.layout.output.firstWord ∨ m.output.Untimed (i - m.layout.output.firstWord)

theorem untimed_add_iff {m : SolverMemory μ ν} {i : Nat} :
    m.Untimed (m.layout.output.firstWord + i) ↔ m.output.Untimed i := by
  rw [Untimed, Nat.add_sub_cancel_left, or_iff_right (Nat.not_lt.2 (Nat.le_add_right _ _))]

variable {shapes : ShapePair} {strategyBytes backendBytes : Nat}

/-- The condensed solution comes behind the other parts. -/
theorem Laid.lt_output {m : SolverMemory μ ν} (hm : m.Laid shapes strategyBytes backendBytes)
    {c : Block} (hc : c ∈ [m.layout.header, m.layout.strategy, m.layout.backend, m.layout.input])
    {i : Nat} (hi : i < c.pastWord) : i < m.layout.output.firstWord := by
  have hspaced : ([m.layout.header, m.layout.strategy, m.layout.backend, m.layout.input] ++
      [m.layout.output]).Pairwise fun b c => b.stop ≤ c.offset := hm.spaced.pairwise
  have hstop := (List.pairwise_append.1 hspaced).2.2 c hc m.layout.output (by simp)
  unfold Block.pastWord at hi
  unfold Block.firstWord
  omega

/-- Both memories lie like `m`, and hold the same words but for the four times. -/
structure SameButTimes (m a b : SolverMemory μ ν) : Prop where
  eq : a = { m with words := a.words }
  other_eq : b = { m with words := b.words }
  size_eq : a.words.size = m.words.size
  words : Words.AgreeOn m.Untimed a.words b.words

theorem SameButTimes.refl (m : SolverMemory μ ν) : SameButTimes m m m :=
  ⟨rfl, rfl, rfl, .refl _ _⟩

/-- Both memories lie like `m`, and hold the same words but for the four times and what
is skipped. -/
structure SameBut (skip : Nat → Prop) (m a b : SolverMemory μ ν) : Prop where
  eq : a = { m with words := a.words }
  other_eq : b = { m with words := b.words }
  size_eq : a.words.size = m.words.size
  words : Words.AgreeOn (fun i => m.Untimed i ∧ ¬skip i) a.words b.words

theorem sameButTimes_iff {m a b : SolverMemory μ ν} :
    SameButTimes m a b ↔ SameBut (fun _ => False) m a b :=
  ⟨fun h => ⟨h.eq, h.other_eq, h.size_eq, h.words.mono fun _ hi => hi.1⟩,
    fun h => ⟨h.eq, h.other_eq, h.size_eq, h.words.mono fun _ hi => ⟨hi, not_false⟩⟩⟩

namespace SameBut

variable {skip : Nat → Prop} {m a b : SolverMemory μ ν}

/-- Writing words that agree in turn. -/
theorem withWords (h : SameBut skip m a b) {v w : Words} (hs : v.size = a.words.size)
    (hvw : Words.AgreeOn (fun i => m.Untimed i ∧ ¬skip i) v w) :
    SameBut skip m { a with words := v } { b with words := w } where
  eq := by rw [h.eq]
  other_eq := by rw [h.other_eq]
  size_eq := hs.trans h.size_eq
  words := hvw

theorem layout_eq (h : SameBut skip m a b) : b.layout = a.layout := by rw [h.eq, h.other_eq]

theorem table_eq (h : SameBut skip m a b) : b.strategy = a.strategy := by rw [h.eq, h.other_eq]

/-- Writing the same to one part of both. -/
theorem put_same (h : SameBut skip m a b) (c : MemoryLayout → Block) (part : Words) :
    SameBut skip m { a with words := (c a.layout).put a.words part }
      { b with words := (c b.layout).put b.words part } := by
  refine h.withWords (by simp) ?_
  rw [h.layout_eq]
  exact h.words.put_same _ part

/-- Writing condensed solutions that differ in times only. -/
theorem put_solution (h : SameBut skip m a b) {d e : QpOutput}
    (hs : StageData.SameButTimes m.output d e) :
    SameBut skip m { a with words := a.layout.output.put a.words d.words }
      { b with words := b.layout.output.put b.words e.words } := by
  refine h.withWords (by simp) ?_
  rw [h.eq, h.other_eq]
  exact h.words.put _ (hs.words.mono fun i hi => untimed_add_iff.1 hi.1)

/-- Counting one more solve in both. -/
theorem counted (h : SameBut skip m a b) : SameBut skip m a.counted b.counted :=
  h.withWords (by simp) (h.words.modify 2 _)

theorem tabled {m a b : SolverMemory IdentityMemory DenseMemory} (h : SameBut skip m a b)
    (hm : m.Tabled shapes) : a.Tabled shapes := by
  rw [h.eq]
  exact hm.withWords h.size_eq

section Header

variable (hskip : ∀ i, skip i → i < 12) (hm : m.Laid shapes strategyBytes backendBytes)

include hskip hm

/-- Behind the header nothing is skipped. -/
theorem not_skip {c : Block} (hc : c ∈ m.layout.children) {i : Nat} (hi : c.firstWord ≤ i) :
    ¬skip i :=
  fun h => Nat.not_lt.2 (Nat.le_trans (hm.le_firstWord hc) hi) (hskip i h)

/-- The condensed solutions differ in times only. -/
theorem solution (h : SameBut skip m a b) : StageData.SameButTimes m.output
    ⟨a.output, a.layout.output.part a.words⟩ ⟨b.output, b.layout.output.part b.words⟩ := by
  rw [h.eq, h.other_eq]
  exact ⟨rfl, rfl, (h.words.part m.layout.output).mono fun i hi => ⟨untimed_add_iff.2 hi,
    not_skip hskip hm (by simp [MemoryLayout.children]) (Nat.le_add_right _ i)⟩⟩

/-- The parts between the header and the condensed solution are the same. -/
theorem part_eq (h : SameBut skip m a b) {c : Block}
    (hc : c ∈ [m.layout.strategy, m.layout.backend, m.layout.input]) :
    c.part b.words = c.part a.words := by
  refine h.words.part_eq fun i hlo hi => ⟨.inl (hm.lt_output (List.mem_cons_of_mem _ hc) hi),
    not_skip hskip hm ?_ hlo⟩
  exact List.mem_append_left [m.layout.output] hc

/-- The regions of the strategy are the same. -/
theorem strategy_eq (h : SameBut skip m a b) :
    b.layout.strategy.part b.words = a.layout.strategy.part a.words := by
  rw [h.eq, h.other_eq]
  exact h.part_eq hskip hm (c := m.layout.strategy) (by simp)

/-- The regions of the backend are the same. -/
theorem backend_eq (h : SameBut skip m a b) :
    b.layout.backend.part b.words = a.layout.backend.part a.words := by
  rw [h.eq, h.other_eq]
  exact h.part_eq hskip hm (c := m.layout.backend) (by simp)

/-- The condensed programs are the same. -/
theorem program_eq (h : SameBut skip m a b) :
    (⟨b.input, b.layout.input.part b.words⟩ : QpInput) =
      ⟨a.input, a.layout.input.part a.words⟩ := by
  rw [h.eq, h.other_eq]
  exact congrArg (StageData.mk m.input) (h.part_eq hskip hm (c := m.layout.input) (by simp))

end Header

end SameBut

end SolverMemory

/-! ## The solver -/

/-- Two desks with memories that lie like `m` and solutions that lie like `l`, the same
but for the times; one has `size` words of scratch, the other `otherSize`. -/
structure SolveDesk.Matches (m : SolverMemory IdentityMemory DenseMemory) (l : Layout OutputField)
    (size otherSize : Nat) (d e : SolveDesk IdentityMemory DenseMemory) : Prop where
  memory : SolverMemory.SameButTimes m d.memory e.memory
  output : StageData.SameButTimes l d.output e.output
  work_eq : d.work.size = size
  other_work_eq : e.work.size = otherSize

/-- Such desks, but for what is skipped of the memory. -/
structure SolveDesk.MatchesBut (skip : Nat → Prop) (m : SolverMemory IdentityMemory DenseMemory)
    (l : Layout OutputField) (size otherSize : Nat)
    (d e : SolveDesk IdentityMemory DenseMemory) : Prop where
  memory : SolverMemory.SameBut skip m d.memory e.memory
  output : StageData.SameButTimes l d.output e.output
  work_eq : d.work.size = size
  other_work_eq : e.work.size = otherSize

theorem SolveDesk.matches_iff {m : SolverMemory IdentityMemory DenseMemory}
    {l : Layout OutputField} {size otherSize : Nat}
    {d e : SolveDesk IdentityMemory DenseMemory} : d.Matches m l size otherSize e ↔
      d.MatchesBut (fun _ => False) m l size otherSize e :=
  ⟨fun h => { h with memory := SolverMemory.sameButTimes_iff.1 h.memory },
    fun h => { h with memory := SolverMemory.sameButTimes_iff.2 h.memory }⟩

namespace Solver

open SolveDesk

variable {m : SolverMemory IdentityMemory DenseMemory} {size otherSize : Nat} {α : Type}
variable {shapes : ShapePair} {skip : Nat → Prop} (hskip : ∀ i, skip i → i < 12)
  (hm : m.Tabled shapes)

include hskip hm

theorem alike_onInput (o : Overlay) {act other : Procedure (Desk QpInput) α}
    (h : Alike (fun d e => e.record = d.record ∧ e.region = d.region) act other) :
    Alike (MatchesBut skip m l size otherSize) (onInput o act) (onInput o other) := by
  refine .focus (fun d e hd => ⟨hd.memory.program_eq hskip hm.toLaid,
    hd.memory.strategy_eq hskip hm.toLaid⟩) h fun d e t u hd htu => ?_
  dsimp only
  rw [htu.1, htu.2]
  exact ⟨(hd.memory.put_same MemoryLayout.strategy _).put_same MemoryLayout.input _, hd.output,
    by simpa using hd.work_eq, by simpa using hd.other_work_eq⟩

/-- What the backend does on two memories shows in times only. -/
theorem alike_onSolution (o : Overlay) {bytes : Nat}
    (hb : ∀ work : Words, work.size = size ∨ work.size = otherSize →
      bytes ≤ Words.byteSize (o.backend.part work))
    {act other : Procedure (Desk QpOutput) α} (h : Alike (Desk.Matches m.output bytes) act other) :
    Alike (MatchesBut skip m l size otherSize) (onSolution o act) (onSolution o other) := by
  refine .focus (fun d e hd => ⟨hd.memory.solution hskip hm.toLaid,
    hd.memory.backend_eq hskip hm.toLaid, hb _ (.inl hd.work_eq), hb _ (.inr hd.other_work_eq)⟩) h
    fun d e t u hd htu => ?_
  dsimp only
  rw [htu.region_eq]
  exact ⟨(hd.memory.put_same MemoryLayout.backend _).put_solution htu.record, hd.output,
    by simpa using hd.work_eq, by simpa using hd.other_work_eq⟩

theorem alike_onOutput (o : Overlay) {act other : Procedure (Desk QpOutput) α}
    (h : Alike (Desk.Matches l 0) act other) :
    Alike (MatchesBut skip m l size otherSize) (onOutput o act) (onOutput o other) := by
  refine .focus (fun d e hd => ⟨hd.output, hd.memory.strategy_eq hskip hm.toLaid, Nat.zero_le _,
    Nat.zero_le _⟩) h fun d e t u hd htu => ?_
  dsimp only
  rw [htu.region_eq]
  exact ⟨hd.memory.put_same MemoryLayout.strategy _, htu.record, by simpa using hd.work_eq,
    by simpa using hd.other_work_eq⟩

/-- The account takes over the counts of the condensed solution, and its own times; the
number of the solve decides on no more than an event. -/
theorem alike_deliver (env : Environment) (so : IdentityOptions) (o : Overlay)
    (clock clock' : Readings) (solve solve' : UInt64) (status : Status) :
    Alike (MatchesBut skip m l size otherSize)
      (deliver (.bundled env) so o clock solve status)
      (deliver (.bundled env) so o clock' solve' status) := by
  refine .fetch_bind fun d e h => ?_
  have hs := h.memory.solution hskip hm.toLaid
  have hexpand : Alike (MatchesBut skip m l size otherSize)
      (onOutput o ((bundled env).strategy.expand
        ⟨d.memory.output, d.memory.layout.output.part d.memory.words⟩ so d.memory.strategy))
      (onOutput o ((bundled env).strategy.expand
        ⟨e.memory.output, e.memory.layout.output.part e.memory.words⟩ so e.memory.strategy)) := by
    rw [h.memory.table_eq]
    exact alike_onOutput hskip hm o
      (Identity.alike_expand hs (h.memory.tabled hm).output_valid so _)
  have hspan : Option.Rel (fun _ _ => True) clock.timers.condensing? clock'.timers.condensing? := by
    obtain ⟨span, hspan⟩ := PhaseTimers.condensing?_timers clock
    obtain ⟨span', hspan'⟩ := PhaseTimers.condensing?_timers clock'
    rw [hspan, hspan']
    exact .some trivial
  have hlogs : Option.Rel (fun _ _ => True) ((bundled env).diagnostics.logs? solve)
      ((bundled env).diagnostics.logs? solve') := by
    obtain ⟨b, hb⟩ := Diagnostics.logs?_ofEnvironment env solve
    obtain ⟨b', hb'⟩ := Diagnostics.logs?_ofEnvironment env solve'
    rw [show (bundled env).diagnostics.logs? solve = some b from hb,
      show (bundled env).diagnostics.logs? solve' = some b' from hb']
    exact .some trivial
  exact .bind hexpand fun _ => .need_bind hspan fun _ _ _ =>
    .bind (.update fun _ _ hd =>
        { hd with output := hd.output.setInfo hs.numIter_eq hs.tComputed_eq })
      fun _ => .need_bind hlogs fun _ _ _ => .note_if _ _

/-- From the backend on; `a` and `b` have the tables. -/
theorem alike_solveCondensed (env : Environment) (so : IdentityOptions) (bo : DenseOptions)
    (o : Overlay)
    (hwork : ∀ work : Words, work.size = size ∨ work.size = otherSize →
      (DenseScratch.ofOrder m.backend.order).total ≤ Words.byteSize (o.backend.part work))
    (clock clock' : Readings) (solve solve' : UInt64)
    {a b : SolverMemory IdentityMemory DenseMemory} (ha : a = { m with words := a.words })
    (hb : b = { m with words := b.words }) :
    Alike (MatchesBut skip m l size otherSize)
      (solveCondensed (.bundled env) so bo clock solve o a)
      (solveCondensed (.bundled env) so bo clock' solve' o b) := by
  refine .fetch_bind fun d e h => ?_
  have hprogram := h.memory.program_eq hskip hm.toLaid
  rw [h.memory.eq, h.memory.other_eq] at hprogram
  rw [ha, hb, hprogram]
  have hdeliver (status : Status) : Alike (MatchesBut skip m l size otherSize)
      (deliver (.bundled env) so o clock solve status >>= fun _ => pure status)
      (deliver (.bundled env) so o clock' solve' status >>= fun _ => pure status) :=
    .bind (alike_deliver hskip hm env so o clock clock' solve solve' status) fun _ => .pure _
  refine .bind (alike_onSolution hskip hm o hwork
    (Dense.alike_evaluate _ bo _ (Nat.le_refl _) _ _)) fun status => ?_
  exact .ite (fun _ => hdeliver status) fun _ => .bind (.note _ _) fun _ => hdeliver status

/-- Condensing finds the same on both desks; what comes after has to go on alike. -/
theorem alike_proceed (env : Environment) (qp : QpInput) (so : IdentityOptions) (o : Overlay)
    {next other : SolverMemory IdentityMemory DenseMemory →
      Procedure (SolveDesk IdentityMemory DenseMemory) Status}
    (hn : ∀ a b, a = { m with words := a.words } → b = { m with words := b.words } →
      Alike (MatchesBut skip m l size otherSize) (next a) (other b)) :
    Alike (MatchesBut skip m l size otherSize) (proceed (.bundled env) qp so o next)
      (proceed (.bundled env) qp so o other) := by
  refine .fetch_bind fun d e h => .bind ?_ fun _ => hn _ _ h.memory.eq h.memory.other_eq
  rw [h.memory.table_eq]
  exact alike_onInput hskip hm o (Identity.alike_condense qp _)

end Solver

/-! ## Calls -/

namespace Request

variable {r : Request} {shape : Shape} {m : SolverMemory IdentityMemory DenseMemory}
variable {size otherSize : Nat} {d e : SolveDesk IdentityMemory DenseMemory}

/-- A call ends the same on desks that match, and leaves desks that match. -/
theorem ends_alike (hm : m.Tabled ⟨shape, shape⟩) (hd : d.memory.Intact ⟨shape, shape⟩)
    (he : e.memory.Intact ⟨shape, shape⟩) (h : d.Matches m l size otherSize e)
    (hsize : r.scratchBytes shape ≤ size * 8) (hother : r.scratchBytes shape ≤ otherSize * 8)
    (clock clock' : Readings) (j k : Journal) :
    (outcome (r.procedure clock') e k).1 = (outcome (r.procedure clock) d j).1 ∧
      (outcome (r.procedure clock) d j).2.value.Matches m l size otherSize
        (outcome (r.procedure clock') e k).2.value := by
  have hrefusal : r.refusal? shape e = r.refusal? shape d := by
    have hw : ¬ Words.byteSize d.work < r.scratchBytes shape := by
      rw [Words.byteSize, h.work_eq]
      exact Nat.not_lt.2 hsize
    have hw' : ¬ Words.byteSize e.work < r.scratchBytes shape := by
      rw [Words.byteSize, h.other_work_eq]
      exact Nat.not_lt.2 hother
    rw [refusal?, refusal?, SolveDesk.refusal?, SolveDesk.refusal?, if_neg hw, if_neg hw',
      hd.flaw?_eq_none, he.flaw?_eq_none, h.output.shape_eq]
  cases hr : r.refusal? shape d with
  | some f =>
      rw [outcome_refused hd hr, outcome_refused he (hrefusal.trans hr)]
      exact ⟨rfl, h⟩
  | none =>
      have hbegun := (checksFirst hd).begun hr clock j
      have hbegun' := (checksFirst he).begun (hrefusal.trans hr) clock' k
      have hmatch := SolveDesk.matches_iff.1 h
      have hskip : ∀ i : Nat, False → i < 12 := fun _ => False.elim
      have hcounted : d.counted.MatchesBut (fun _ => False) m l size otherSize e.counted :=
        { hmatch with memory := hmatch.memory.counted }
      rw [SolveDesk.matches_iff]
      cases hs : r.sensitivity with
      | true =>
          rw [procedure, procedure, hs, if_pos rfl, if_pos rfl, hbegun.2, hbegun'.2]
          exact Solver.alike_proceed hskip hm r.env r.qp r.so _
            (fun _ _ _ _ => .bind (.note _ _) fun _ => .fail _) _ _ j k hcounted
      | false =>
          have hwork (work : Words) (hw : work.size = size ∨ work.size = otherSize) :
              (DenseScratch.ofOrder m.backend.order).total ≤
                Words.byteSize ((Overlay.divide (.bundled r.env) ⟨shape, shape⟩ r.so
                  r.bo).1.backend.part work) := by
            rw [hm.backend_eq]
            refine Overlay.byteSize_backend_part ?_
            rcases hw with hw | hw <;> rwa [Words.byteSize, hw]
          rw [procedure, procedure, hs, if_neg Bool.false_ne_true, if_neg Bool.false_ne_true,
            hbegun.1, hbegun'.1]
          exact Solver.alike_proceed hskip hm r.env r.qp r.so _
            (fun _ _ ha hb => Solver.alike_solveCondensed hskip hm r.env r.so r.bo _ hwork clock
              clock' _ _ ha hb) _ _ j k hcounted

end Request

end StageQp
