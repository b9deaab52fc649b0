import StageQp.Proofs.Solver.Condensing
import StageQp.Proofs.Solver.Equipped
import StageQp.Proofs.Strategy.Refill

/-!
# StageQp.Proofs.Solver.StageMap

Where a solve has no answer.  Condensing copies the stages that the map of stages names.
Over a map that names a stage with other numbers of entries, or none of the program, it
halts (`Identity.outcome_condense_of_misfits`), and with it every call that passes its
checks (`Solver.halts_of_misfits`).

Such maps need not have been written over.  From a horizon of `2 ^ 32` on the numbers of
the stages start over, so that the map of fresh memory names the first stage for a later
one.  Over a shape where these two differ, whatever a solve is handed, it halts
(`Solver.exists_halting`).
-/

namespace StageQp

open Procedure

/-! ## Maps that do not fit -/

namespace Identity

/-- For some stage the map names one that has a field with another number of entries, or
that the program does not have. -/
def Misfits (stages : List Nat) (qp : QpInput) : Prop :=
  ∃ k source field, k ≤ qp.shape.horizon ∧ stages[k]? = some source ∧
    (qp.get? source field).map Array.size ≠ some (InputField.count qp.shape k field)

/-- Condensing halts or comes through, and nothing is noted. -/
theorem condense_halts_or_returns {qp : QpInput} {m : IdentityMemory} {d : Desk QpInput}
    (hs : qp.shape = d.record.shape) {stages : List Nat} (hm : m.stages d.region = .ok stages)
    (j : Journal) :
    (outcome (condense qp m) d j).1 = .error .halt ∨
      ∃ record, outcome (condense qp m) d j = (.ok (), ⟨{ d with record }, j⟩) := by
  simp only [condense, outcome_bind, outcome_fetch, sameShape_self hs, hm, outcome_check_ok]
  generalize (stages.zipIdx.foldlM _ d.record : Option QpInput) = copied
  cases copied with
  | none => exact .inl (by simp only [outcome_need_none])
  | some record => exact .inr ⟨record, by simp only [outcome_need_some, outcome_store]⟩

/-- Such a stage cannot be copied. -/
theorem outcome_condense_of_misfits {qp : QpInput} {m : IdentityMemory} {d : Desk QpInput}
    (hv : d.record.Valid) (hs : qp.shape = d.record.shape) {stages : List Nat}
    (hm : m.stages d.region = .ok stages) (h : Misfits stages qp) (j : Journal) :
    (outcome (condense qp m) d j).1 = .error .halt := by
  rcases condense_halts_or_returns hs hm j with hhalt | ⟨record, hrun⟩
  · exact hhalt
  · -- a copy that came through would have the entries that the map names
    obtain ⟨k, source, field, hk, hsource, hsize⟩ := h
    have honly := (condense_onlyFields hv hrun).1
    have hshape : record.shape = qp.shape := honly.shape_eq.trans hs.symm
    have hvalid : record.Valid := honly.valid hv
    have hget : record.get? k field = qp.get? source field :=
      get?_of_condense hv hm hrun hsource field
    rw [← hshape] at hk
    rw [← hget, hvalid.get?_eq hk, Option.map_some, hvalid.size_getD hk, hshape] at hsize
    exact absurd rfl hsize

end Identity

namespace Solver

open SolverMemory SolveDesk

variable {shape : Shape} {d : SolveDesk IdentityMemory DenseMemory} {qp : QpInput}

/-- The call halts, whatever was noted before. -/
def Halts (d : SolveDesk IdentityMemory DenseMemory)
    (call : Procedure (SolveDesk IdentityMemory DenseMemory) Status) : Prop :=
  ∀ j, (outcome call d j).1 = .error .halt

/-- A call that condenses over a map that does not fit the program halts. -/
theorem halts_proceed (hd : d.memory.Tabled ⟨shape, shape⟩) (hqs : qp.shape = shape)
    {stages : List Nat}
    (hm : d.memory.strategy.stages (d.memory.layout.strategy.part d.memory.words) = .ok stages)
    (h : Identity.Misfits stages qp) (env : Environment) (so : IdentityOptions) (o : Overlay)
    (next : SolverMemory IdentityMemory DenseMemory →
      Procedure (SolveDesk IdentityMemory DenseMemory) Status) :
    Halts d (proceed (.bundled env) qp so o next) := by
  intro j
  have hcondense := Identity.outcome_condense_of_misfits (d := d.inputDesk o) hd.input_valid
    (hqs.trans hd.input_shape.symm) hm h j
  rw [(outcome_proceed d hd.input_valid env qp so o next j).2, hcondense]

/-- Over memory with such a map, neither a solve nor a sensitivity request that passes its
checks is answered. -/
theorem halts_of_misfits (env : Environment) (hd : d.memory.Tabled ⟨shape, shape⟩)
    {options : OptionStore} {so : IdentityOptions} {bo : DenseOptions}
    (hso : options.strategyOptions IdentityOptions = .ok so)
    (hbo : options.backendOptions DenseOptions = .ok bo)
    (hr : d.refusal? shape d.memory.layout (Overlay.size (.bundled env) ⟨shape, shape⟩ so bo) qp =
      none) {stages : List Nat}
    (hm : d.memory.strategy.stages (d.memory.layout.strategy.part d.memory.words) = .ok stages)
    (h : Identity.Misfits stages qp) :
    (∀ clock, Halts d (evaluate (.bundled env) qp options clock)) ∧
      Halts d (evaluateSensitivity (.bundled env) qp options) := by
  have hfirst := checksFirst_of_laid (.bundled env) hd.toLaid hso hbo qp
  have hcounted : d.counted.memory.Tabled ⟨shape, shape⟩ := hd.withWords (by simp)
  have hpart : d.memory.layout.strategy.part d.counted.memory.words =
      d.memory.layout.strategy.part d.memory.words :=
    hd.part_eq_of_changesOnly Laid.changesOnly_counted (by simp)
  have hproceed (next) := halts_proceed hcounted (refusal?_eq_none_iff.1 hr).1.1
    ((congrArg d.memory.strategy.stages hpart).trans hm) h env so
    (Overlay.divide (.bundled env) ⟨shape, shape⟩ so bo).1 next
  constructor
  · intro clock j
    rw [(hfirst.begun hr clock j).1]
    exact hproceed _ j
  · intro j
    rw [(hfirst.begun hr {} j).2]
    exact hproceed _ j

end Solver

/-! ## Maps that are written over -/

namespace SolverMemory

/-- The memory with another region of the strategy. -/
def withMap (m : SolverMemory IdentityMemory DenseMemory) (region : Words) :
    SolverMemory IdentityMemory DenseMemory :=
  { m with words := m.layout.strategy.put m.words region }

namespace Intact

variable {shapes : ShapePair} {m : SolverMemory IdentityMemory DenseMemory} {region : Words}

theorem tabled_withMap (h : m.Intact shapes) (region : Words) :
    (m.withMap region).Tabled shapes :=
  h.toTabled.withWords (Block.size_put ..)

/-- The header is none of the words that are written over. -/
theorem flaw?_withMap (h : m.Intact shapes) (hr : region.size ≤ m.layout.strategy.span / 8) :
    (m.withMap region).flaw? m.layout = none := by
  refine (h.tabled_withMap region).flaw?_eq_none_iff.2 ?_
  have hapart : m.layout.strategy.Apart m.layout.header :=
    h.spaced.apart (i := 1) (j := 0) rfl rfl (by decide)
  show RecordHeader.verify (Record.get (m.layout.header.part (m.layout.strategy.put m.words
    region)) 0) tag m.layout.total m.layout.children = .ok ()
  rw [Block.part_put_of_apart h.strategy_fits.1 h.header_fits hapart hr]
  exact h.header_ok

/-- The region of the strategy is the map that was written. -/
theorem strategy_part_withMap (h : m.Intact shapes)
    (hr : region.size = m.layout.strategy.span / 8) :
    m.layout.strategy.part (m.withMap region).words = region :=
  Block.part_put h.strategy_fits hr

end Intact

/-- Any words of the right number lie like a memory that was laid out. -/
theorem overwritten_onWords (env : Environment) (shapes : ShapePair) (so : IdentityOptions)
    (bo : DenseOptions) {words : Words}
    (h : Words.byteSize words = size (.bundled env) shapes so bo) :
    (onWords shapes (carve (.bundled env) shapes so bo).1 words).Overwritten (.bundled env) shapes
      so bo := by
  obtain ⟨laid, j, hassign⟩ := exists_assign env shapes so bo
  obtain ⟨hlayout, hi⟩ := fresh_of_assign hassign
  have hsize : words.size = laid.words.size := by
    have hlaid := hi.size_eq
    rw [hlayout] at hlaid
    unfold Words.byteSize at h hlaid
    exact Nat.eq_of_mul_eq_mul_right (by decide) (h.trans hlaid.symm)
  refine ⟨_, _, laid, _, hassign, hsize, ?_⟩
  rw [onWords, ← hi.full_eq, ← hlayout, ← hi.strategy_eq, ← hi.backend_eq, ← hi.input_eq,
    ← hi.output_eq]

end SolverMemory

/-! ## Long horizons -/

/-- The number of a stage in the map is what 32 bits hold of it. -/
theorem SolverMemory.getElem?_stageNumbers {stages k : Nat} (hk : k < stages) :
    (stageNumbers stages)[k]? = some (k % 2 ^ 32) := by
  simp [stageNumbers, hk]

/-- Where a stage and the one that has its number in 32 bits differ, the map does not fit. -/
theorem Identity.misfits_stageNumbers {qp : QpInput} (hq : qp.Valid) {k : Nat}
    (hk : k ≤ qp.shape.horizon) {field : InputField}
    (h : InputField.count qp.shape (k % 2 ^ 32) field ≠ InputField.count qp.shape k field) :
    Misfits (SolverMemory.stageNumbers (qp.shape.horizon + 1)) qp := by
  have hmod : k % 2 ^ 32 ≤ qp.shape.horizon := Nat.le_trans (Nat.mod_le ..) hk
  refine ⟨k, k % 2 ^ 32, field, hk, SolverMemory.getElem?_stageNumbers (Nat.lt_succ_of_le hk), ?_⟩
  rw [hq.get?_eq hmod, Option.map_some, hq.size_getD hmod]
  exact fun he => h (Option.some.inj he)

namespace Solver

open SolveDesk

/-- What is equipped over memory whose map does not fit halts. -/
theorem Equipped.halts {shape : Shape} {qp : QpInput} {options : OptionStore}
    {d : SolveDesk IdentityMemory DenseMemory} (h : Equipped shape qp options d) {k : Nat}
    (hk : k ≤ shape.horizon) (field : InputField)
    (hne : InputField.count shape (k % 2 ^ 32) field ≠ InputField.count shape k field)
    (env : Environment) :
    (∀ clock, Halts d (evaluate (.bundled env) qp options clock)) ∧
      Halts d (evaluateSensitivity (.bundled env) qp options) := by
  have hm := h.memory.intact
  obtain rfl := h.qp_shape
  exact halts_of_misfits env hm.toTabled h.options.readable.strategyOptions_eq
    h.options.readable.backendOptions_eq
    (refusal?_eq_none hm rfl h.output_shape (h.work env _ _)) hm.stages_eq
    (Identity.misfits_stageNumbers h.qp_valid hk hne)

/-- With a horizon of `2 ^ 32`, calls lead to all that a solve asks for, with memory just laid
out, and it halts: in 32 bits the number of the last stage is that of the first, which has a
control more. -/
theorem exists_halting : ∃ shape qp options d, shape.horizon = 2 ^ 32 ∧
    Equipped shape qp options d ∧ d.memory.Fresh ⟨shape, shape⟩ ∧ ∀ env,
      (∀ clock, Halts d (evaluate (.bundled env) qp options clock)) ∧
        Halts d (evaluateSensitivity (.bundled env) qp options) := by
  obtain ⟨n, hn⟩ : ∃ n, n = 2 ^ 32 := ⟨_, rfl⟩
  obtain ⟨qp, options, d, h, hfresh⟩ := exists_equipped_firstControl n
  have hhorizon := Shape.horizon_firstControl n
  refine ⟨_, qp, options, d, hhorizon.trans hn, h, hfresh, h.halts (Nat.le_of_eq hhorizon.symm) .rq
    ?_⟩
  show (Shape.firstControl n).nv (n % 2 ^ 32) ≠ (Shape.firstControl n).nv n
  rw [Shape.nv_firstControl (Nat.mod_le ..), Shape.nv_firstControl (Nat.le_refl n),
    if_pos (by rw [hn, Nat.mod_self]), if_neg (by rw [hn]; exact Nat.ne_of_gt (Nat.two_pow_pos 32))]
  decide

end Solver

end StageQp
