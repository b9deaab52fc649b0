import StageQp.Proofs.Solver.Checks

/-!
# StageQp.Proofs.Solver.SolveLog

Which solves leave a record in the journal.  Most procedures leave none
(`Procedure.Quiet`), among them all of the bundled modules (`Solver.quiet_bundled`).  A
solve with quiet modules leaves one at its very end, if its number is one to be logged;
a solve that does not come to its end leaves none (`Solver.records_solveCondensed`).
-/

namespace StageQp

open Procedure SolveDesk

/-- The number of the solve that the event is the record of. -/
def Event.solve? : Event → Option UInt64
  | solved solve .. => some solve
  | _ => none

/-- The numbers of the solves with a record in the journal, the oldest first. -/
def Journal.solves (j : Journal) : List UInt64 := j.events.toList.filterMap Event.solve?

@[simp] theorem Journal.solves_note (j : Journal) (e : Event) :
    (j.note e).solves = j.solves ++ e.solve?.toList := by
  cases h : e.solve? <;> simp [solves, Journal.note, h]

/-- A solve is logged if logging is on and its number is a multiple of the stride. -/
theorem Diagnostics.logs?_eq_some_true_iff {d : Diagnostics} {solve : UInt64} :
    d.logs? solve = some true ↔ d.enabled = true ∧ d.every ≠ 0 ∧ d.every.toNat ∣ solve.toNat := by
  have hmod : solve % d.every = 0 ↔ d.every.toNat ∣ solve.toNat := by
    rw [← UInt64.toNat_inj, UInt64.toNat_mod, Nat.dvd_iff_mod_eq_zero]
    rfl
  by_cases he : d.enabled = true <;> by_cases hz : d.every = 0 <;> simp [logs?, he, hz, hmod]

namespace Procedure

variable {σ τ α β : Type}

/-! ## Procedures that leave no record -/

/-- However the procedure ends, it has left no record of a solve. -/
def Quiet (act : Procedure σ α) : Prop :=
  ∀ value j, (outcome act value j).2.journal.solves = j.solves

namespace Quiet

theorem bind {act : Procedure σ α} {next : α → Procedure σ β} (h : Quiet act)
    (hn : ∀ a, Quiet (next a)) : Quiet (act >>= next) := by
  intro value j
  have hact := h value j
  rw [outcome_bind]
  cases hr : outcome act value j with
  | mk r s =>
      rw [hr] at hact
      cases r with
      | ok a => exact (hn a s.value s.journal).trans hact
      | error e => exact hact

theorem fetch_bind {next : σ → Procedure σ β} (hn : ∀ value, Quiet (next value)) :
    Quiet (fetch >>= next) := fun value j => hn value value j

theorem pure (a : α) : Quiet (Pure.pure a : Procedure σ α) := fun _ _ => rfl

theorem fail (f : Fault) : Quiet (Procedure.fail f : Procedure σ α) := fun _ _ => rfl

theorem store (value : σ) : Quiet (Procedure.store value) := fun _ _ => rfl

theorem update (f : σ → σ) : Quiet (Procedure.update f) := fun _ _ => rfl

theorem note {e : Event} (h : e.solve? = none) : Quiet (Procedure.note e : Procedure σ Unit) := by
  intro value j
  simp [h]

theorem check (r : Except Fault α) : Quiet (Procedure.check r : Procedure σ α) := by
  cases r <;> exact fun _ _ => rfl

theorem need (a : Option α) : Quiet (Procedure.need a : Procedure σ α) := by
  cases a <;> exact fun _ _ => rfl

theorem ite {c : Prop} [Decidable c] {act other : Procedure σ α} (h : Quiet act)
    (ho : Quiet other) : Quiet (if c then act else other) := by
  split
  · exact h
  · exact ho

theorem focus {part : σ → τ} {put : σ → τ → σ} {act : Procedure τ α} (h : Quiet act) :
    Quiet (Procedure.focus part put act) := by
  intro value j
  rw [outcome_focus]
  exact h _ j

end Quiet

/-! ## Procedures that leave records at their end -/

/-- If the procedure comes to its end, it has left these records of solves, and else none. -/
def Records (solves : List UInt64) (act : Procedure σ α) : Prop :=
  ∀ value j, (outcome act value j).2.journal.solves =
    j.solves ++ if (outcome act value j).1.isOk then solves else []

namespace Records

variable {solves : List UInt64}

/-- What comes before leaves none. -/
theorem quiet_bind {act : Procedure σ α} {next : α → Procedure σ β} (h : Quiet act)
    (hn : ∀ a, Records solves (next a)) : Records solves (act >>= next) := by
  intro value j
  have hact := h value j
  rw [outcome_bind]
  cases hr : outcome act value j with
  | mk r s =>
      rw [hr] at hact
      cases r with
      | ok a =>
          have hnext := hn a s.value s.journal
          rwa [hact] at hnext
      | error e => exact hact.trans (List.append_nil _).symm

theorem bind_pure {act : Procedure σ α} (h : Records solves act) (b : β) :
    Records solves (act >>= fun _ => Pure.pure b) := by
  intro value j
  have hact := h value j
  rw [outcome_bind]
  cases hr : outcome act value j with
  | mk r s =>
      rw [hr] at hact
      cases r <;> exact hact

end Records

end Procedure

/-! ## Solves -/

namespace Solver

variable {δ ο μ β ν : Type}

/-- What the modules do in a solve leaves no record of a solve. -/
structure Quiet (s : Solver δ ο μ β ν) : Prop where
  condense (qp : QpInput) (so : ο) (m : μ) : Procedure.Quiet (s.strategy.condense qp so m)
  expand (condensed : QpOutput) (so : ο) (m : μ) :
    Procedure.Quiet (s.strategy.expand condensed so m)
  evaluate (qp : QpInput) (bo : β) (m : ν) (clock : BackendReadings) :
    Procedure.Quiet (s.backend.evaluate qp bo m clock)

/-- The bundled modules log no solve of their own. -/
theorem quiet_bundled (env : Environment) : (Solver.bundled env).Quiet where
  condense _ _ _ :=
    .fetch_bind fun _ => .bind (.check _) fun _ => .bind (.check _) fun _ =>
      .bind (.need _) fun _ => .store _
  expand _ _ _ :=
    .fetch_bind fun _ => .bind (.check _) fun _ => .bind (.check _) fun _ =>
      .bind (.need _) fun _ => .store _
  evaluate qp bo m clock := by
    have hsolve : Procedure.Quiet (Dense.solve qp bo m clock) := by
      refine .fetch_bind fun _ => .bind (.check _) fun _ => .bind (.check _) fun _ => ?_
      dsimp only
      split
      · exact .bind (.note rfl) fun _ => .bind (.store _) fun _ => .bind (.update _) fun _ =>
          .pure _
      · exact .bind (.need _) fun _ => .bind (.store _) fun _ => .bind (.update _) fun _ => .pure _
    have hconstrained : Procedure.Quiet (do
        note .constraintsIgnored
        Dense.account (Dense.infoOf 0 0 0 clock.total)
        return Status.qpFailure) :=
      .bind (.note rfl) fun _ => .bind (.update _) fun _ => .pure _
    exact .ite (.fail _) (.bind (.update _) fun _ => .ite hconstrained hsolve)

variable {s : Solver δ ο μ β ν} (hs : s.Quiet)

/-- The record that solve number `solve` leaves: if logging is on, one for each multiple
of the stride. -/
def recordOf (s : Solver δ ο μ β ν) (solve : UInt64) : List UInt64 :=
  if s.diagnostics.enabled = true ∧ s.diagnostics.every ≠ 0 ∧
    s.diagnostics.every.toNat ∣ solve.toNat then [solve] else []

include hs

/-- Handing out a solution logs the solve if it is one to be logged. -/
theorem records_deliver (so : ο) (overlay : Overlay) (clock : Readings) (solve : UInt64)
    (status : Status) :
    Records (s.recordOf solve) (s.deliver so overlay clock solve status) := by
  refine .quiet_bind (fun _ _ => rfl) fun _ => .quiet_bind (.focus (hs.expand _ _ _)) fun _ =>
    .quiet_bind (.need _) fun _ => .quiet_bind (.update _) fun _ => ?_
  simp only [recordOf, ← Diagnostics.logs?_eq_some_true_iff]
  cases s.diagnostics.logs? solve with
  | none => exact fun _ _ => (List.append_nil _).symm
  | some b =>
      cases b with
      | true => exact fun value j => Journal.solves_note j _
      | false => exact fun _ _ => (List.append_nil _).symm

/-- A counted solve leaves its record if it comes to its end and is one to be logged. -/
theorem records_solveCondensed (so : ο) (bo : β) (clock : Readings) (solve : UInt64)
    (overlay : Overlay) (memory : SolverMemory μ ν) :
    Records (s.recordOf solve) (s.solveCondensed so bo clock solve overlay memory) := by
  refine .quiet_bind (fun _ _ => rfl) fun _ => .quiet_bind (.focus (hs.evaluate _ _ _ _))
    fun status => ?_
  have hrest : Records (s.recordOf solve)
      (s.deliver so overlay clock solve status >>= fun _ => pure status) :=
    (records_deliver hs so overlay clock solve status).bind_pure status
  split
  · exact hrest
  · exact .quiet_bind (.note rfl) fun _ => hrest

end Solver

end StageQp
