import Mathlib.Data.List.Forall2
import Mathlib.Logic.Function.Basic
import StageQp.Proofs.Shape.Record
import StageQp.Proofs.Solver.Scratch

/-!
# StageQp.Proofs.Solver.Sharing

Solvers may share their scratch.  A pool has the memories of any solvers and the
solutions that they are handed to write.  Turns are run over one buffer, with
whatever was left in it or written to it between the calls (`Pool.runShared`), and
again with zeroed scratch of its own for every call (`Pool.runAlone`); each call
ends the same, and leaves the same but for the times (`scratch_shared`).

One turn is followed by `Pool.Abreast.call`, any number of them by induction on the list.
-/

namespace StageQp

open Procedure

variable {ι κ : Type}

/-! ## Pools and turns -/

/-- The memories of solvers, and the solutions that their callers have. -/
structure Pool (ι κ : Type) where
  memory : ι → SolverMemory IdentityMemory DenseMemory
  output : κ → QpOutput

/-- A call of one of the solvers, with one of the solutions to write. -/
structure Turn (ι κ : Type) extends Request where
  solver : ι
  output : κ
  /-- What becomes of a shared buffer before the call. -/
  overwrite : Words → Words
  size_overwrite (buffer : Words) : (overwrite buffer).size = buffer.size
  clock : Readings
  /-- The clock of the call when it has scratch of its own. -/
  ownClock : Readings

/-- The answer to a call, and what it leaves. -/
structure Left (ι κ : Type) where
  answer : Except Stop Status
  pool : Pool ι κ

namespace Pool

/-- The scratch that a turn asks for. -/
def scratchBytes (p : Pool ι κ) (t : Turn ι κ) : Nat :=
  t.toRequest.scratchBytes (p.memory t.solver).full

/-- Both pools lie like the first, and hold the same but for the times. -/
structure SameButTimes (like p q : Pool ι κ) : Prop where
  memory (i : ι) : SolverMemory.SameButTimes (like.memory i) (p.memory i) (q.memory i)
  output (k : κ) : StageData.SameButTimes (like.output k).layout (p.output k) (q.output k)

theorem SameButTimes.refl (p : Pool ι κ) : SameButTimes p p p :=
  ⟨fun i => .refl (p.memory i), fun k => .refl (p.output k)⟩

variable [DecidableEq ι] [DecidableEq κ]

/-- What a turn leaves, and behind it its scratch. -/
def call (p : Pool ι κ) (t : Turn ι κ) (clock : Readings) (work : Words) : Left ι κ × Words :=
  let r := outcome (t.procedure clock) ⟨p.output t.output, p.memory t.solver, work⟩ {}
  ({ answer := r.1
     pool :=
       { memory := Function.update p.memory t.solver r.2.value.memory
         output := Function.update p.output t.output r.2.value.output } },
    r.2.value.work)

/-- Turns over one buffer. -/
def runShared (p : Pool ι κ) (buffer : Words) : List (Turn ι κ) → List (Left ι κ)
  | [] => []
  | t :: ts =>
    let r := p.call t t.clock (t.overwrite buffer)
    r.1 :: r.1.pool.runShared r.2 ts

/-- Turns with zeroed scratch for each, of the size that it asks for. -/
def runAlone (p : Pool ι κ) : List (Turn ι κ) → List (Left ι κ)
  | [] => []
  | t :: ts =>
    let r := p.call t t.ownClock (.zeroed (p.scratchBytes t))
    r.1 :: r.1.pool.runAlone ts

end Pool

/-- Two calls gave the same answer, and left the same but for the times. -/
structure Left.SameButTimes (like : Pool ι κ) (a b : Left ι κ) : Prop where
  answer_eq : b.answer = a.answer
  pool : Pool.SameButTimes like a.pool b.pool

/-! ## One turn -/

namespace Pool

/-- The pools hold the same but for the times, and all their memories are intact. -/
structure Abreast (shape : ι → Shape) (like p q : Pool ι κ) : Prop
    extends SameButTimes like p q where
  tabled (i : ι) : (like.memory i).Tabled ⟨shape i, shape i⟩
  intact (i : ι) : (p.memory i).Intact ⟨shape i, shape i⟩
  other_intact (i : ι) : (q.memory i).Intact ⟨shape i, shape i⟩

variable {shape : ι → Shape} {like p q : Pool ι κ}

theorem scratchBytes_eq {t : Turn ι κ} {shapes : ShapePair}
    (h : (p.memory t.solver).Tabled shapes) :
    p.scratchBytes t = t.toRequest.scratchBytes shapes.full := by rw [scratchBytes, h.full_eq]

theorem byteSize_zeroed_scratchBytes (t : Turn ι κ) :
    Words.byteSize (.zeroed (p.scratchBytes t)) = p.scratchBytes t :=
  (Overlay.divide_exact (.bundled t.env) ⟨_, _⟩ t.so t.bo).byteSize_zeroed

variable [DecidableEq ι] [DecidableEq κ]

/-- A turn takes pools that go abreast to such pools, and leaves as much scratch as there was. -/
theorem Abreast.call (h : Abreast shape like p q) (t : Turn ι κ) {work own : Words}
    (hw : p.scratchBytes t ≤ Words.byteSize work) (ho : p.scratchBytes t ≤ Words.byteSize own) :
    (q.call t t.ownClock own).1.answer = (p.call t t.clock work).1.answer ∧
      Abreast shape like (p.call t t.clock work).1.pool (q.call t t.ownClock own).1.pool ∧
      (p.call t t.clock work).2.size = work.size := by
  rw [scratchBytes_eq (h.intact t.solver).toTabled] at hw ho
  let desk : SolveDesk IdentityMemory DenseMemory := ⟨p.output t.output, p.memory t.solver, work⟩
  let other : SolveDesk IdentityMemory DenseMemory := ⟨q.output t.output, q.memory t.solver, own⟩
  have hmatch : desk.Matches (like.memory t.solver) (like.output t.output).layout work.size own.size
      other := ⟨h.memory t.solver, h.output t.output, rfl, rfl⟩
  obtain ⟨hanswer, hleft⟩ := Request.ends_alike (h.tabled t.solver) (h.intact t.solver)
    (h.other_intact t.solver) hmatch hw ho t.clock t.ownClock {} {}
  have hintact : (outcome (t.procedure t.clock) desk {}).2.value.memory.Intact _ :=
    t.keeps_procedure _ t.clock desk {} (h.intact t.solver)
  have hother : (outcome (t.procedure t.ownClock) other {}).2.value.memory.Intact _ :=
    t.keeps_procedure _ t.ownClock other {} (h.other_intact t.solver)
  refine ⟨hanswer, ⟨⟨fun i => ?_, fun k => ?_⟩, h.tabled, ?_, ?_⟩, hleft.work_eq⟩
  · by_cases hi : i = t.solver
    · subst hi
      simpa [Pool.call] using hleft.memory
    · simpa [Pool.call, hi] using h.memory i
  · by_cases hk : k = t.output
    · subst hk
      simpa [Pool.call] using hleft.output
    · simpa [Pool.call, hk] using h.output k
  · exact (Function.forall_update_iff p.memory fun i m => m.Intact ⟨shape i, shape i⟩).2
      ⟨hintact, fun i _ => h.intact i⟩
  · exact (Function.forall_update_iff q.memory fun i m => m.Intact ⟨shape i, shape i⟩).2
      ⟨hother, fun i _ => h.other_intact i⟩

/-! ## Any number of turns -/

/-- Pools that go abreast do so to the end. -/
theorem Abreast.run (h : Abreast shape like p q) {buffer : Words} {turns : List (Turn ι κ)}
    (hb : ∀ t ∈ turns, t.toRequest.scratchBytes (shape t.solver) ≤ Words.byteSize buffer) :
    List.Forall₂ (Left.SameButTimes like) (p.runShared buffer turns) (q.runAlone turns) := by
  induction turns generalizing p q buffer with
  | nil => exact .nil
  | cons t ts ih =>
      have hp := scratchBytes_eq (h.intact t.solver).toTabled
      have hq := scratchBytes_eq (h.other_intact t.solver).toTabled
      have hbuffer : p.scratchBytes t ≤ Words.byteSize (t.overwrite buffer) := by
        rw [hp, Words.byteSize, t.size_overwrite]
        exact hb t (List.mem_cons_self ..)
      have hown : p.scratchBytes t ≤ Words.byteSize (.zeroed (q.scratchBytes t)) := by
        rw [byteSize_zeroed_scratchBytes, hp, hq]
      obtain ⟨hanswer, hpools, hsize⟩ := h.call t hbuffer hown
      refine .cons ⟨hanswer, hpools.toSameButTimes⟩ (ih hpools fun u hu => ?_)
      rw [Words.byteSize, hsize, t.size_overwrite]
      exact hb u (List.mem_cons_of_mem _ hu)

end Pool

/-- Over one buffer that is large enough for every call, with any words in it to begin
with and any words written to it between the calls, each call gives the answer that it
gives with zeroed scratch of just the size it asks for, and leaves the same memories
and solutions but for the times.

Nothing ends the run: what holds of all turns holds of those up to a call that halts. -/
theorem scratch_shared [DecidableEq ι] [DecidableEq κ] {shape : ι → Shape} {p : Pool ι κ}
    (hp : ∀ i, SolverMemory.Reached ⟨shape i, shape i⟩ (p.memory i)) {buffer : Words}
    {turns : List (Turn ι κ)} (hb : ∀ t ∈ turns, p.scratchBytes t ≤ Words.byteSize buffer) :
    List.Forall₂ (Left.SameButTimes p) (p.runShared buffer turns) (p.runAlone turns) := by
  have hintact (i : ι) := (hp i).intact
  have habreast : Pool.Abreast shape p p p :=
    ⟨.refl p, fun i => (hintact i).toTabled, hintact, hintact⟩
  refine habreast.run fun t ht => ?_
  rw [← Pool.scratchBytes_eq (hintact t.solver).toTabled]
  exact hb t ht

/-- Over an empty stage and one with a state: two solvers take turns, one on fresh memory
and one on memory that was used before, with one solution to write and a buffer that is
longer than either asks for and full of ones again before every call. -/
theorem scratch_shared_lateState :
    ∃ (p : Pool Bool Unit) (buffer : Words) (turns : List (Turn Bool Unit)),
      (∀ i, SolverMemory.Reached ⟨.lateState, .lateState⟩ (p.memory i)) ∧
      (∀ t ∈ turns, p.scratchBytes t ≤ Words.byteSize buffer) ∧
      turns.map (fun t => (t.solver, t.sensitivity)) =
        [(false, false), (true, true), (true, false)] ∧
      List.Forall₂ (Left.SameButTimes p) (p.runShared buffer turns) (p.runAlone turns) := by
  obtain ⟨fresh, j, hassign⟩ := SolverMemory.exists_assign {} ⟨.lateState, .lateState⟩ ⟨0, 0⟩
    ⟨0, 0, 0, 0⟩
  have hfresh := SolverMemory.Reached.assign hassign
  obtain ⟨used, hused⟩ : ∃ m, SolverMemory.Reached ⟨.lateState, .lateState⟩ m :=
    ⟨_, hfresh.evaluate {} (StageData.blank InputField .lateState) OptionStore.zeroed {}
      (StageData.blank OutputField .lateState)
      (.zeroed (Overlay.size (.bundled {}) ⟨.lateState, .lateState⟩ ⟨0, 0⟩ ⟨0, 0, 0, 0⟩)) {}⟩
  let request (sensitivity : Bool) : Request :=
    { env := {}
      sensitivity
      qp := StageData.blank InputField .lateState
      options := .zeroed
      qp_valid := StageData.valid_blank .lateState
      options_readable := OptionStore.readable_zeroed }
  let turn (solver sensitivity : Bool) : Turn Bool Unit :=
    { request sensitivity with
      solver
      output := ()
      overwrite := fun buffer => buffer.fill 1
      size_overwrite := fun buffer => Words.size_fill buffer 1
      clock := {}
      ownClock := { total := 1 } }
  let p : Pool Bool Unit :=
    ⟨fun i => if i then used else fresh, fun _ => StageData.blank OutputField .lateState⟩
  have hp : ∀ i, SolverMemory.Reached ⟨.lateState, .lateState⟩ (p.memory i) := by
    intro i
    cases i with
    | false => exact hfresh
    | true => exact hused
  let turns := [turn false false, turn true true, turn true false]
  let bytes := (request false).scratchBytes .lateState
  have hb : ∀ t ∈ turns, p.scratchBytes t ≤ Words.byteSize (.filled (bytes + 64) 1) := by
    intro t ht
    have hbytes : t.toRequest.scratchBytes .lateState = bytes := by
      simp only [turns, List.mem_cons, List.not_mem_nil, or_false] at ht
      rcases ht with rfl | rfl | rfl <;> rfl
    rw [Pool.scratchBytes_eq (hp t.solver).intact.toTabled, Words.byteSize_filled]
    exact Nat.le_trans (Nat.le_of_eq hbytes) (Nat.le_trans (Nat.le_add_right _ _) (le_alignUp _))
  exact ⟨p, _, turns, hp, hb, rfl, scratch_shared hp hb⟩

end StageQp
