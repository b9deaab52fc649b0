import StageQp.Procedure
import StageQp.Proofs.Storage.Block

/-!
# StageQp.Proofs.Procedure

Properties of the value worked on that a procedure keeps, however it ends
(`Procedure.Keeps`).  A sequence keeps what its steps keep, and what a step
fetched may be relied on in the steps after it.

A procedure that comes to its end went through all its steps
(`Procedure.of_outcome_bind`), so that none does with a step that never ends
(`Procedure.NeverEnds`).  The faults it can stop with, from a value with some property,
are those of its steps (`Procedure.OnlyFaults`).  Two procedures go side by side when
they come to the same result and keep a relation of their values (`Procedure.Alike`);
they do if their steps do.

Procedures that lay out a buffer take one size and no other (`AssignsExactly`).
-/

namespace StageQp

namespace Procedure

variable {σ τ α β : Type} {P : σ → Prop}

/-- If the property holds of the value before, it holds of what is left, also when the
procedure stops early. -/
def Keeps (P : σ → Prop) (act : Procedure σ α) : Prop :=
  ∀ value j, P value → P (outcome act value j).2.value

namespace Keeps

/-- A sequence keeps what both of its acts keep. -/
theorem bind {act : Procedure σ α} {next : α → Procedure σ β} (h : Keeps P act)
    (hn : ∀ a, Keeps P (next a)) : Keeps P (act >>= next) := by
  intro value j hv
  have hact := h value j hv
  rw [outcome_bind]
  cases hr : outcome act value j with
  | mk r s =>
      rw [hr] at hact
      cases r with
      | ok a => exact hn a s.value s.journal hact
      | error e => exact hact

/-- The steps after a fetch are about a value that has the property. -/
theorem fetch_bind {next : σ → Procedure σ β} (hn : ∀ value, P value → Keeps P (next value)) :
    Keeps P (fetch >>= next) :=
  fun value j hv => hn value hv value j hv

theorem pure (a : α) : Keeps P (Pure.pure a : Procedure σ α) := fun _ _ hv => hv

theorem note (e : Event) : Keeps P (Procedure.note e) := fun _ _ hv => hv

theorem fail (f : Fault) : Keeps P (Procedure.fail f : Procedure σ α) := fun _ _ hv => hv

/-- A check changes nothing, whether it passes or not. -/
theorem check (r : Except Fault α) : Keeps P (Procedure.check r : Procedure σ α) := by
  intro value j hv
  cases r with
  | ok a => exact hv
  | error f => exact hv

theorem need (a : Option α) : Keeps P (Procedure.need a : Procedure σ α) := by
  intro value j hv
  cases a with
  | some a => exact hv
  | none => exact hv

/-- The steps after a need are about what was there. -/
theorem need_bind {a : Option α} {next : α → Procedure σ β}
    (hn : ∀ b, a = some b → Keeps P (next b)) : Keeps P (Procedure.need a >>= next) := by
  intro value j hv
  cases a with
  | some b => exact hn b rfl value j hv
  | none => exact hv

/-- A store keeps what holds of the value that is stored. -/
theorem store {new : σ} (h : P new) : Keeps P (Procedure.store new) := fun _ _ _ => h

theorem update {f : σ → σ} (h : ∀ value, P value → P (f value)) : Keeps P (Procedure.update f) :=
  fun value _ hv => h value hv

/-- A choice keeps what each of its acts keeps where it is chosen. -/
theorem ite {c : Prop} [Decidable c] {act other : Procedure σ α} (h : c → Keeps P act)
    (ho : ¬c → Keeps P other) : Keeps P (if c then act else other) := by
  split
  · next hc => exact h hc
  · next hc => exact ho hc

theorem finish (c : Carver) (expected : Nat) (what : String) :
    Keeps P (Procedure.finish c expected what) := by
  intro value j hv
  unfold Procedure.finish
  cases c.finish expected with
  | ok n => exact hv
  | error f => exact hv

/-- Working on a part keeps what putting back a part of that kind keeps. -/
theorem focus {Q : τ → Prop} {part : σ → τ} {put : σ → τ → σ} {act : Procedure τ α}
    (hpart : ∀ value, P value → Q (part value)) (h : Keeps Q act)
    (hput : ∀ value t, P value → Q t → P (put value t)) :
    Keeps P (Procedure.focus part put act) := by
  intro value j hv
  rw [outcome_focus]
  exact hput value _ hv (h _ j (hpart value hv))

end Keeps

/-! ## Procedures that come to their end -/

/-- A sequence that ends with an answer had one from its first act. -/
theorem of_outcome_bind {act : Procedure σ α} {next : α → Procedure σ β} {value : σ} {j : Journal}
    {b : β} {s : Noted σ} (h : outcome (act >>= next) value j = (.ok b, s)) :
    ∃ a t, outcome act value j = (.ok a, t) ∧ outcome (next a) t.value t.journal = (.ok b, s) := by
  rw [outcome_bind] at h
  cases hr : outcome act value j with
  | mk r t =>
      rw [hr] at h
      cases r with
      | ok a => exact ⟨a, t, rfl, h⟩
      | error e => cases h

/-- A check that passes was handed the answer, and changed nothing. -/
theorem of_outcome_check {r : Except Fault α} {value : σ} {j : Journal} {a : α} {s : Noted σ}
    (h : outcome (check r) value j = (.ok a, s)) : r = .ok a ∧ s = ⟨value, j⟩ := by
  cases r with
  | ok b =>
      cases h
      exact ⟨rfl, rfl⟩
  | error f => cases h

/-- What was needed and found was there, and nothing has changed. -/
theorem of_outcome_need {a : Option α} {value : σ} {j : Journal} {b : α} {s : Noted σ}
    (h : outcome (need a) value j = (.ok b, s)) : a = some b ∧ s = ⟨value, j⟩ := by
  cases a with
  | some c =>
      cases h
      exact ⟨rfl, rfl⟩
  | none => cases h

/-- From no value does the procedure come to its end. -/
def NeverEnds (act : Procedure σ α) : Prop := ∀ value j a s, outcome act value j ≠ (.ok a, s)

namespace NeverEnds

/-- A sequence does not, if what comes after its first step does not. -/
theorem after {act : Procedure σ α} {next : α → Procedure σ β} (h : ∀ a, NeverEnds (next a)) :
    NeverEnds (act >>= next) := by
  intro value j b s hrun
  obtain ⟨a, t, -, hnext⟩ := of_outcome_bind hrun
  exact h a t.value t.journal b s hnext

theorem fail (f : Fault) : NeverEnds (Procedure.fail f : Procedure σ α) := fun _ _ _ _ => nofun

end NeverEnds

/-! ## The faults a procedure can stop with -/

/-- From a value with the property, the procedure stops with no fault but these. -/
def OnlyFaults (F : Fault → Prop) (P : σ → Prop) (act : Procedure σ α) : Prop :=
  ∀ value j, P value → ∀ f, (outcome act value j).1 = .error (.fault f) → F f

namespace OnlyFaults

variable {F : Fault → Prop}

/-- The steps after the first are about what that leaves. -/
theorem bind {Q : σ → Prop} {act : Procedure σ α} {next : α → Procedure σ β}
    (h : OnlyFaults F P act) (hq : ∀ value j, P value → Q (outcome act value j).2.value)
    (hn : ∀ a, OnlyFaults F Q (next a)) : OnlyFaults F P (act >>= next) := by
  intro value j hv f
  have hact := h value j hv f
  have hkept := hq value j hv
  rw [outcome_bind]
  cases hr : outcome act value j with
  | mk r s =>
      rw [hr] at hact hkept
      cases r with
      | ok a => exact hn a s.value s.journal hkept f
      | error e =>
          rintro ⟨⟩
          exact hact rfl

/-- The steps after the first do not depend on what that leaves. -/
theorem bind_any {act : Procedure σ α} {next : α → Procedure σ β} (h : OnlyFaults F P act)
    (hn : ∀ a, OnlyFaults F (fun _ => True) (next a)) : OnlyFaults F P (act >>= next) :=
  h.bind (fun _ _ _ => trivial) hn

/-- The value that is fetched is one that the faults are claimed for. -/
theorem fetch_bind {next : σ → Procedure σ β}
    (hn : ∀ value, P value → OnlyFaults F P (next value)) :
    OnlyFaults F P (fetch >>= next) :=
  fun value j hv => hn value hv value j hv

theorem pure (a : α) : OnlyFaults F P (Pure.pure a : Procedure σ α) := fun _ _ _ _ => nofun

theorem note (e : Event) : OnlyFaults F P (Procedure.note e) := fun _ _ _ _ => nofun

theorem fail {f : Fault} (h : F f) : OnlyFaults F P (Procedure.fail f : Procedure σ α) := by
  rintro value j - g ⟨⟩
  exact h

theorem check {r : Except Fault α} {a : α} (h : r = .ok a) :
    OnlyFaults F P (Procedure.check r : Procedure σ α) := by
  subst h
  exact fun _ _ _ _ => nofun

theorem need (a : Option α) : OnlyFaults F P (Procedure.need a : Procedure σ α) := by
  intro value j _ f
  cases a with
  | some a => exact nofun
  | none => exact nofun

theorem store (new : σ) : OnlyFaults F P (Procedure.store new) := fun _ _ _ _ => nofun

theorem update (g : σ → σ) : OnlyFaults F P (Procedure.update g) := fun _ _ _ _ => nofun

theorem ite {c : Prop} [Decidable c] {act other : Procedure σ α} (h : c → OnlyFaults F P act)
    (ho : ¬c → OnlyFaults F P other) : OnlyFaults F P (if c then act else other) := by
  split
  · next hc => exact h hc
  · next hc => exact ho hc

/-- On a part, the faults are those of the act on the part. -/
theorem focus {Q : τ → Prop} {part : σ → τ} {put : σ → τ → σ} {act : Procedure τ α}
    (hpart : ∀ value, P value → Q (part value)) (h : OnlyFaults F Q act) :
    OnlyFaults F P (Procedure.focus part put act) := by
  intro value j hv f
  rw [outcome_focus]
  exact h _ j (hpart value hv) f

/-- An act that always has an answer has no fault. -/
theorem of_outcome {act : Procedure σ α}
    (h : ∀ value j, P value → ∃ a s, outcome act value j = (.ok a, s)) : OnlyFaults F P act := by
  intro value j hv f
  obtain ⟨a, s, hr⟩ := h value j hv
  rw [hr]
  exact nofun

end OnlyFaults

/-! ## Two procedures side by side -/

/-- From related values the procedures come to the same result and leave related
values, whatever was noted before or is noted on the way. -/
def Alike (R : σ → σ → Prop) (act other : Procedure σ α) : Prop :=
  ∀ v w j k, R v w → (outcome other w k).1 = (outcome act v j).1 ∧
    R (outcome act v j).2.value (outcome other w k).2.value

namespace Alike

variable {R : σ → σ → Prop}

/-- Sequences are alike if their acts are, answer for answer. -/
theorem bind {act other : Procedure σ α} {next after : α → Procedure σ β} (h : Alike R act other)
    (hn : ∀ a, Alike R (next a) (after a)) : Alike R (act >>= next) (other >>= after) := by
  intro v w j k hvw
  obtain ⟨hresult, hvalue⟩ := h v w j k hvw
  rw [outcome_bind, outcome_bind]
  cases hv : outcome act v j with
  | mk r s =>
      cases hw : outcome other w k with
      | mk r' t =>
          rw [hv, hw] at hresult hvalue
          cases hresult
          cases r with
          | ok a => exact hn a s.value t.value s.journal t.journal hvalue
          | error e => exact ⟨rfl, hvalue⟩

/-- The steps after a fetch are about related values. -/
theorem fetch_bind {next after : σ → Procedure σ β}
    (hn : ∀ v w, R v w → Alike R (next v) (after w)) : Alike R (fetch >>= next) (fetch >>= after) :=
  fun v w j k h => hn v w h v w j k h

theorem pure (a : α) : Alike R (Pure.pure a) (Pure.pure a) := fun _ _ _ _ h => ⟨rfl, h⟩

theorem note (e f : Event) : Alike R (Procedure.note e) (Procedure.note f) :=
  fun _ _ _ _ h => ⟨rfl, h⟩

theorem fail (f : Fault) : Alike R (Procedure.fail f : Procedure σ α) (Procedure.fail f) :=
  fun _ _ _ _ h => ⟨rfl, h⟩

theorem check (r : Except Fault α) :
    Alike R (Procedure.check r : Procedure σ α) (Procedure.check r) := by
  intro v w j k h
  cases r with
  | ok a => exact ⟨rfl, h⟩
  | error f => exact ⟨rfl, h⟩

theorem need (a : Option α) :
    Alike R (Procedure.need a : Procedure σ α) (Procedure.need a) := by
  intro v w j k h
  cases a with
  | some a => exact ⟨rfl, h⟩
  | none => exact ⟨rfl, h⟩

/-- The steps after a need are about related things, or there are none. -/
theorem need_bind {S : α → α → Prop} {a b : Option α} (h : Option.Rel S a b)
    {next after : α → Procedure σ β} (hn : ∀ x y, S x y → Alike R (next x) (after y)) :
    Alike R (Procedure.need a >>= next) (Procedure.need b >>= after) := by
  intro v w j k hvw
  cases h with
  | some hxy => exact hn _ _ hxy v w j k hvw
  | none => exact ⟨rfl, hvw⟩

theorem store {v w : σ} (h : R v w) : Alike R (Procedure.store v) (Procedure.store w) :=
  fun _ _ _ _ _ => ⟨rfl, h⟩

/-- Updates that keep two values related are alike. -/
theorem update {f g : σ → σ} (h : ∀ v w, R v w → R (f v) (g w)) :
    Alike R (Procedure.update f) (Procedure.update g) := fun v w _ _ hvw => ⟨rfl, h v w hvw⟩

theorem ite {c : Prop} [Decidable c] {act other : Procedure σ α} {act' other' : Procedure σ α}
    (h : c → Alike R act act') (ho : ¬c → Alike R other other') :
    Alike R (if c then act else other) (if c then act' else other') := by
  split
  · next hc => exact h hc
  · next hc => exact ho hc

/-- Whether an event is added is nothing that shows. -/
theorem note_if {b c : Bool} (e f : Event) :
    Alike R (if b then Procedure.note e else Pure.pure ())
      (if c then Procedure.note f else Pure.pure ()) := by
  intro v w j k h
  cases b <;> cases c <;> exact ⟨rfl, h⟩

/-- Working on parts that are related, and putting back such parts. -/
theorem focus {Q : τ → τ → Prop} {part : σ → τ} {put : σ → τ → σ} {act other : Procedure τ α}
    (hpart : ∀ v w, R v w → Q (part v) (part w)) (h : Alike Q act other)
    (hput : ∀ v w t u, R v w → Q t u → R (put v t) (put w u)) :
    Alike R (Procedure.focus part put act) (Procedure.focus part put other) := by
  intro v w j k hvw
  obtain ⟨hresult, hvalue⟩ := h _ _ j k (hpart v w hvw)
  rw [outcome_focus, outcome_focus]
  exact ⟨hresult, hput v w _ _ hvw hvalue⟩

end Alike

end Procedure

/-! ## Laying out a buffer -/

open Procedure

/-- The assignment succeeds, with a result of some kind, on a fresh buffer whose
bytes rounded up to words are `total`; every other is refused with both sizes. -/
def AssignsExactly {α : Type} (total : Nat) (assign : Words → Procedure Unit α) (kind : α → Prop) :
    Prop :=
  ∀ bytes j,
    if alignUp bytes = total then
      ∃ a j', outcome (assign (.zeroed bytes)) () j = (.ok a, ⟨(), j'⟩) ∧ kind a
    else
      outcome (assign (.zeroed bytes)) () j =
        (.error (.fault (.bufferSize (alignUp bytes) total)), ⟨(), j⟩)

/-- Assigning is exact if it answers on the computed size and reports every other. -/
theorem AssignsExactly.of_outcomes {α : Type} {total : Nat} {assign : Words → Procedure Unit α}
    {kind : α → Prop}
    (h : ∀ {words : Words}, Words.byteSize words = total → ∀ j,
      ∃ a j', outcome (assign words) () j = (.ok a, ⟨(), j'⟩) ∧ kind a)
    (hne : ∀ {words : Words}, Words.byteSize words ≠ total → ∀ j,
      outcome (assign words) () j =
        (.error (.fault (.bufferSize (Words.byteSize words) total)), ⟨(), j⟩)) :
    AssignsExactly total assign kind := by
  intro bytes j
  have hs := Words.byteSize_zeroed bytes
  split
  · next hb => exact h (hs.trans hb) j
  · next hb =>
      rw [← hs] at hb ⊢
      exact hne hb j

end StageQp
