import StageQp.Journal
import StageQp.Storage.Carver

/-!
# StageQp.Procedure

Operations that work in place.  A procedure on a value of type `σ` may change the
value, add to the journal, give a result, and stop early.  What was changed or
noted before it stopped stays, for the caller looks at it.

There are two ways to stop.  A fault is an answer to the caller.  A halt is the
end of a program that broke a contract it was not checked against, such as an
index past the end of a record; nothing goes on from there.

`Procedure.outcome` is how a procedure is looked at from outside, and
`Procedure.outcome_bind` takes a sequence apart into the outcomes of its steps.
-/

namespace StageQp

/-- Why a procedure stopped early. -/
inductive Stop where
  | fault (f : Fault)
  | halt
deriving DecidableEq

/-- A value that is worked on, with the journal of the work. -/
structure Noted (σ : Type) where
  value : σ
  journal : Journal := {}

/-- An operation on a value of type `σ` with a result of type `α`. -/
abbrev Procedure (σ : Type) := EStateM Stop (Noted σ)

namespace Procedure

variable {σ τ α : Type}

/-- The result of a procedure on a value, with what it leaves of the value and
of the journal. -/
def outcome (act : Procedure σ α) (value : σ) (journal : Journal) : Except Stop α × Noted σ :=
  match act ⟨value, journal⟩ with
  | .ok a s => (.ok a, s)
  | .error e s => (.error e, s)

def fetch : Procedure σ σ := do return (← get).value

def store (value : σ) : Procedure σ Unit := modify fun s => { s with value }

def update (f : σ → σ) : Procedure σ Unit := modify fun s => { s with value := f s.value }

def note (e : Event) : Procedure σ Unit := modify fun s => { s with journal := s.journal.note e }

def noteCall (c : OptionCall) : Procedure σ Unit :=
  modify fun s => { s with journal := s.journal.noteCall c }

def fail (f : Fault) : Procedure σ α := throw (.fault f)

/-- Stops for good. -/
def halt : Procedure σ α := throw .halt

/-- The result of a check, or its fault. -/
def check (r : Except Fault α) : Procedure σ α :=
  match r with
  | .ok a => return a
  | .error f => fail f

/-- What is promised to be there; without it the procedure halts. -/
def need (a : Option α) : Procedure σ α :=
  match a with
  | some a => return a
  | none => halt

/-- Runs a procedure on a part of the value.  The part is put back also when the
procedure stops early. -/
def focus (part : σ → τ) (put : σ → τ → σ) (act : Procedure τ α) : Procedure σ α := fun s =>
  match act ⟨part s.value, s.journal⟩ with
  | .ok a t => .ok a ⟨put s.value t.value, t.journal⟩
  | .error e t => .error e ⟨put s.value t.value, t.journal⟩

/-- Runs a procedure on a value of its own and gives that value back with the
result.  When the procedure stops early its value is lost, and the journal stays. -/
def within (value : τ) (act : Procedure τ α) : Procedure σ (α × τ) := fun s =>
  match act ⟨value, s.journal⟩ with
  | .ok a t => .ok (a, t.value) ⟨s.value, t.journal⟩
  | .error e t => .error e ⟨s.value, t.journal⟩

/-- Ends a carve: its bytes must be those computed beforehand.  A mismatch is
noted under the name of what was carved. -/
def finish (c : Carver) (expected : Nat) (what : String) : Procedure σ Unit :=
  match c.finish expected with
  | .ok _ => return
  | .error f => do
    note (.layoutMismatch what c.cursor expected)
    fail f

/-! ## What each step leaves

A sequence is read from the front: the outcome of its first step decides
whether there is a second, and what that starts from. -/

/-- A sequence runs its second act from where the first ended, unless that stopped. -/
theorem outcome_bind {β : Type} (act : Procedure σ α) (next : α → Procedure σ β) (value : σ)
    (j : Journal) :
    outcome (act >>= next) value j =
      match outcome act value j with
      | (.ok a, s) => outcome (next a) s.value s.journal
      | (.error e, s) => (.error e, s) := by
  simp only [outcome, bind, EStateM.bind]
  cases act ⟨value, j⟩ <;> rfl

/-- After a first act with an answer, a sequence is the second. -/
theorem outcome_bind_ok {β : Type} {act : Procedure σ α} {value : σ} {j : Journal} {a : α}
    {s : Noted σ} (h : outcome act value j = (.ok a, s)) (next : α → Procedure σ β) :
    outcome (act >>= next) value j = outcome (next a) s.value s.journal := by
  rw [outcome_bind, h]

@[simp] theorem outcome_pure (a : α) (value : σ) (j : Journal) :
    outcome (pure a : Procedure σ α) value j = (.ok a, ⟨value, j⟩) := rfl

@[simp] theorem outcome_fetch (value : σ) (j : Journal) :
    outcome fetch value j = (.ok value, ⟨value, j⟩) := rfl

@[simp] theorem outcome_store (new value : σ) (j : Journal) :
    outcome (store new) value j = (.ok (), ⟨new, j⟩) := rfl

@[simp] theorem outcome_update (f : σ → σ) (value : σ) (j : Journal) :
    outcome (update f) value j = (.ok (), ⟨f value, j⟩) := rfl

@[simp] theorem outcome_note (e : Event) (value : σ) (j : Journal) :
    outcome (note e) value j = (.ok (), ⟨value, j.note e⟩) := rfl

@[simp] theorem outcome_fail (f : Fault) (value : σ) (j : Journal) :
    outcome (fail f : Procedure σ α) value j = (.error (.fault f), ⟨value, j⟩) := rfl

@[simp] theorem outcome_check_ok (a : α) (value : σ) (j : Journal) :
    outcome (check (.ok a)) value j = (.ok a, ⟨value, j⟩) := rfl

@[simp] theorem outcome_check_error (f : Fault) (value : σ) (j : Journal) :
    outcome (check (.error f) : Procedure σ α) value j = (.error (.fault f), ⟨value, j⟩) := rfl

@[simp] theorem outcome_halt (value : σ) (j : Journal) :
    outcome (halt : Procedure σ α) value j = (.error .halt, ⟨value, j⟩) := rfl

@[simp] theorem outcome_need_some (a : α) (value : σ) (j : Journal) :
    outcome (need (some a)) value j = (.ok a, ⟨value, j⟩) := rfl

@[simp] theorem outcome_need_none (value : σ) (j : Journal) :
    outcome (need none : Procedure σ α) value j = (.error .halt, ⟨value, j⟩) := rfl

@[simp] theorem outcome_ite (c : Prop) [Decidable c] (act other : Procedure σ α) (value : σ)
    (j : Journal) :
    outcome (if c then act else other) value j =
      if c then outcome act value j else outcome other value j := by
  split <;> rfl

/-- An act on another value leaves the outer value as it is and hands the inner one back. -/
theorem outcome_within (inner : τ) (act : Procedure τ α) (value : σ) (j : Journal) :
    outcome (within inner act) value j =
      match outcome act inner j with
      | (.ok a, t) => (.ok (a, t.value), ⟨value, t.journal⟩)
      | (.error e, t) => (.error e, ⟨value, t.journal⟩) := by
  simp only [outcome, within]
  cases act ⟨inner, j⟩ <;> rfl

theorem outcome_within_ok {inner : τ} {act : Procedure τ α} {j : Journal} {a : α} {t : Noted τ}
    (h : outcome act inner j = (.ok a, t)) (value : σ) :
    outcome (within inner act) value j = (.ok (a, t.value), ⟨value, t.journal⟩) := by
  rw [outcome_within, h]

/-- A carve that ends where it should leaves no trace. -/
theorem outcome_finish {c : Carver} {expected : Nat} (h : c.cursor = expected) (what : String)
    (value : σ) (j : Journal) :
    outcome (finish c expected what) value j = (.ok (), ⟨value, j⟩) := by
  simp [finish, Carver.finish, h]

/-- An act on a part writes the part back, however it ends. -/
@[simp] theorem outcome_focus (part : σ → τ) (put : σ → τ → σ) (act : Procedure τ α) (value : σ)
    (j : Journal) :
    outcome (focus part put act) value j =
      let r := outcome act (part value) j
      (r.1, ⟨put value r.2.value, r.2.journal⟩) := by
  simp only [outcome, focus]
  cases act ⟨part value, j⟩ <;> rfl

end Procedure

end StageQp
