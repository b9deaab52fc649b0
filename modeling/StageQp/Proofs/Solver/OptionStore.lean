import StageQp.Proofs.Backend.Dense
import StageQp.Proofs.Procedure
import StageQp.Proofs.Solver.Carving
import StageQp.Proofs.Strategy.Identity
import StageQp.Solver.Bundled

/-!
# StageQp.Proofs.Solver.OptionStore

The stored options of the bundled solver.  They lie as they were laid out, whatever
calls are made (`Reached.bundled`), and so both records can always be read
(`Reached.readable`).
-/

namespace StageQp

open Procedure

namespace OptionStore

/-- Both records are where they can be read. -/
structure Readable (o : OptionStore) : Prop where
  strategy_fits : o.strategy.Fits o.words
  strategy_len : o.strategy.len = Record.bytes IdentityOptions
  backend_fits : o.backend.Fits o.words
  backend_len : o.backend.len = Record.bytes DenseOptions

theorem readAt_eq_ok {ρ : Type} [Record ρ] {o : OptionStore} {b : Block} (hf : b.Fits o.words)
    (hl : b.len = Record.bytes ρ) : o.readAt ρ b = .ok (Record.get (b.part o.words) 0) := by
  have hc : Record.check ρ (b.part o.words) 1 = .ok () := by
    rw [Record.check_eq_ok_iff, Block.byteSize_part hf, Nat.one_mul, ← hl]
    exact le_alignUp _
  rw [readAt, hf.slice]
  show (Record.check ρ (b.part o.words) 1 >>= fun _ => pure _) = _
  rw [hc]
  rfl

namespace Readable

variable {o : OptionStore}

theorem strategyOptions_eq (h : o.Readable) : o.strategyOptions IdentityOptions =
    .ok (Record.get (o.strategy.part o.words) 0) := readAt_eq_ok h.strategy_fits h.strategy_len

theorem backendOptions_eq (h : o.Readable) : o.backendOptions DenseOptions =
    .ok (Record.get (o.backend.part o.words) 0) := readAt_eq_ok h.backend_fits h.backend_len

end Readable

/-- Options with all words zero, and no header. -/
def zeroed : OptionStore := ⟨⟨0, 16⟩, ⟨16, 32⟩, .zeroed 48⟩

theorem readable_zeroed : zeroed.Readable where
  strategy_fits := by decide
  strategy_len := rfl
  backend_fits := by decide
  backend_len := rfl

/-- They ask for no warm start. -/
theorem warmStart_zeroed :
    (Record.get (zeroed.backend.part zeroed.words) 0 : DenseOptions).warmStart = 0 := by
  rw [zeroed, Block.part_zeroed (by decide)]
  rfl

/-- The store lies as it is laid out for the bundled modules, with any words in it. -/
structure Bundled (o : OptionStore) : Prop where
  strategy_eq : o.strategy = ⟨96, 16⟩
  backend_eq : o.backend = ⟨112, 32⟩
  size_eq : o.words.size = 18

theorem Bundled.readable {o : OptionStore} (h : o.Bundled) : o.Readable where
  strategy_fits := by
    rw [h.strategy_eq, Block.Fits, Words.byteSize, h.size_eq]
    decide
  strategy_len := by
    rw [h.strategy_eq]
    rfl
  backend_fits := by
    rw [h.backend_eq, Block.Fits, Words.byteSize, h.size_eq]
    decide
  backend_len := by
    rw [h.backend_eq]
    rfl

/-! ## Laying out -/

section Assign

variable {σ : Type} {env : Environment} {shapes : ShapePair} {words : Words}

/-- Options that are laid out can be read. -/
theorem outcome_assign (h : Words.byteSize words = size (.bundled env) shapes) (value : σ)
    (j : Journal) :
    ∃ o : OptionStore, outcome (assign (.bundled env) shapes words) value j =
      (.ok o, ⟨value, j⟩) ∧ o.Readable := by
  have hexpect := (Words.expectBytes_eq_ok_iff _ _).2 h
  have hcarve := carve_exact (.bundled env) shapes
  have hspaced := hcarve.tiles.spaced
  rw [← h, ← Words.byteSize_fill words 0] at hspaced
  have hheader := hspaced.fits (b := (carve (.bundled env) shapes).1) (by simp)
  have hstrategy := hspaced.fits (b := (carve (.bundled env) shapes).2.1) (by simp)
  have hbackend := hspaced.fits (b := (carve (.bundled env) shapes).2.2.1) (by simp)
  let header := RecordHeader.make tag (size (.bundled env) shapes)
    [(carve (.bundled env) shapes).2.1, (carve (.bundled env) shapes).2.2.1]
  let o : OptionStore := ⟨(carve (.bundled env) shapes).2.1, (carve (.bundled env) shapes).2.2.1,
    (carve (.bundled env) shapes).1.setRecords (words.fill 0) #[header]⟩
  have ho : o.Readable := ⟨hstrategy.setRecords, rfl, hbackend.setRecords, rfl⟩
  refine ⟨o, ?_, ho⟩
  simp only [assign, outcome_bind, hexpect, outcome_check_ok, outcome_finish hcarve.cursor_eq,
    hheader.check]
  rw [show OptionStore.mk (carve (.bundled env) shapes).2.1 (carve (.bundled env) shapes).2.2.1
    ((carve (.bundled env) shapes).1.setRecords (words.fill 0) #[header]) = o from rfl,
    ho.strategyOptions_eq, ho.backendOptions_eq]
  rfl

/-- A buffer of another size is refused. -/
theorem outcome_assign_of_ne (h : Words.byteSize words ≠ size (.bundled env) shapes) (value : σ)
    (j : Journal) :
    outcome (assign (.bundled env) shapes words) value j =
      (.error (.fault (.bufferSize (Words.byteSize words) (size (.bundled env) shapes))),
        ⟨value, j⟩) := by
  simp only [assign, outcome_bind, Words.expectBytes_of_ne h, outcome_check_error]

end Assign

/-! ## Every store -/

/-- Options are laid out behind a header of twelve words. -/
theorem bundled_of_assign {σ : Type} {env : Environment} {shapes : ShapePair} {words : Words}
    {value : σ} {j : Journal} {o : OptionStore} {s : Noted σ}
    (h : outcome (assign (.bundled env) shapes words) value j = (.ok o, s)) : o.Bundled := by
  obtain ⟨_, _, hexpect, h⟩ := of_outcome_bind h
  have hbytes := (Words.expectBytes_eq_ok_iff _ _).1 (of_outcome_check hexpect).1
  have htotal : size (.bundled env) shapes = 144 :=
    (rfl : RecordHeader.size + alignUp 16 + alignUp 32 = 144)
  rw [htotal, Words.byteSize] at hbytes
  obtain ⟨_, _, -, h⟩ := of_outcome_bind h
  obtain ⟨_, _, -, h⟩ := of_outcome_bind h
  obtain ⟨_, _, -, h⟩ := of_outcome_bind h
  obtain ⟨_, _, -, h⟩ := of_outcome_bind h
  cases h
  exact {
    strategy_eq := rfl
    backend_eq := (rfl : Block.mk (0 + alignUp 96 + alignUp 16) 32 = _)
    size_eq := by
      rw [Block.size_setRecords, Words.size_fill]
      omega }

/-- Whatever a procedure does to a record, the store lies as before. -/
theorem keeps_edit {α ρ : Type} [Record ρ] (b : Block) (act : Procedure ρ α) :
    Keeps Bundled (edit ρ b act) := by
  refine .fetch_bind fun o ho => .bind (.check _) fun _ => ?_
  intro o j ho
  rw [outcome_focus]
  exact ⟨ho.strategy_eq, ho.backend_eq, (Block.size_setRecords ..).trans ho.size_eq⟩

/-- The options that calls lead to, laid out and defaulted for some pair of shapes. -/
inductive Reached (shapes : ShapePair) : OptionStore → Prop
  | assign {env : Environment} {words : Words} {j : Journal} {o : OptionStore} {s : Noted Unit}
      (h : outcome (assign (.bundled env) shapes words) () j = (.ok o, s)) : Reached shapes o
  | setDefaults {o : OptionStore} (ho : Reached shapes o) (env : Environment) (j : Journal) :
      Reached shapes (outcome (setDefaults (Solver.bundled env) shapes) o j).2.value
  | set {o : OptionStore} (ho : Reached shapes o) (env : Environment) (key : String)
      (value : OptionValue) (j : Journal) :
      Reached shapes (outcome (set (Solver.bundled env) key value) o j).2.value
  | refresh {o : OptionStore} (ho : Reached shapes o) (env : Environment) (j : Journal) :
      Reached shapes (outcome (refresh (Solver.bundled env) shapes) o j).2.value

theorem Reached.bundled {shapes : ShapePair} {o : OptionStore} (h : Reached shapes o) :
    o.Bundled := by
  induction h with
  | assign h => exact bundled_of_assign h
  | @setDefaults o ho env j ih =>
      have hk : Keeps Bundled (OptionStore.setDefaults (Solver.bundled env) shapes) :=
        .fetch_bind fun _ _ => .bind (keeps_edit _ _) fun _ =>
          .fetch_bind fun _ _ => keeps_edit _ _
      exact hk o j ih
  | @set o ho env key value j ih =>
      have hk : Keeps Bundled (OptionStore.set (Solver.bundled env) key value) := by
        refine .bind (.check _) fun route => .bind (.note _) fun _ => ?_
        cases route with
        | strategy name => exact .fetch_bind fun _ _ => keeps_edit _ _
        | backend name => exact .fetch_bind fun _ _ => keeps_edit _ _
      exact hk o j ih
  | @refresh o ho env j ih =>
      have hk : Keeps Bundled (OptionStore.refresh (Solver.bundled env) shapes) :=
        .fetch_bind fun _ _ => .bind (keeps_edit _ _) fun _ =>
          .fetch_bind fun _ _ => keeps_edit _ _
      exact hk o j ih

/-- Options that calls led to can be read. -/
theorem Reached.readable {shapes : ShapePair} {o : OptionStore} (h : Reached shapes o) :
    o.Readable := h.bundled.readable

end OptionStore

end StageQp
