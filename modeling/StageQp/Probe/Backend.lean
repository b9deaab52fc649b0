import StageQp.Backend.Basic

/-!
# StageQp.Probe.Backend

Backends that deviate from one they are built on, as a script says: they ask
for other sizes than they use, refuse to solve, or give a verdict and an answer
made up beforehand.
-/

namespace StageQp

/-- An answer that is made up beforehand. -/
structure MadeUpAnswer where
  status : Status
  numIter : UInt64
  tComputed : UInt64
deriving DecidableEq

/-- How a backend deviates. -/
structure BackendScript where
  /-- Bytes that the options are larger than needed. -/
  optsExtra : Nat := 0
  /-- Bytes that the memory is larger than needed. -/
  memoryExtra : Nat := 0
  /-- Bytes that the scratch is larger than needed. -/
  workExtra : Nat := 0
  /-- Option calls are taken down before they are carried out. -/
  recordsCalls : Bool := false
  /-- Solving is refused. -/
  fails : Bool := false
  /-- What is answered instead of solving. -/
  answer : Option MadeUpAnswer := none
deriving DecidableEq

namespace BackendScript

open Procedure

/-- Fills a field with consecutive numbers from `next` on; gives the number after the last. -/
def countUp? (out : QpOutput) (next k : Nat) (field : OutputField) :
    Option (QpOutput × Nat) := do
  let count := OutputField.count out.shape k field
  let numbers := (Array.range count).map fun i => Binary64.ofNat (next + i)
  return (← out.set? k field numbers, next + count)

/-- Writes consecutive numbers through all fields of all stages. -/
def countThrough? (out : QpOutput) : Option QpOutput := do
  let (out, _) ← (List.range (out.shape.horizon + 1)).foldlM
    (fun (out, next) k =>
      OutputField.all.foldlM (fun (out, next) field => countUp? out next k field) (out, next))
    (out, 1)
  return out

/-- Halves of odd numbers as times. -/
def answerInfo (a : MadeUpAnswer) : SolveInfo where
  condensingTime := .ofQuotient false 1 2
  solveTime := .ofQuotient false 3 2
  interfaceTime := .ofQuotient false 5 2
  totalTime := .ofQuotient false 7 2
  numIter := a.numIter
  tComputed := a.tComputed

def give (a : MadeUpAnswer) : Procedure (Desk QpOutput) Status := do
  let desk ← fetch
  let record ← need (countThrough? desk.record)
  store { desk with record := record.setInfo (answerInfo a) }
  return a.status

end BackendScript

open BackendScript in
/-- The backend with the deviations of a script. -/
def Backend.scripted {ο μ : Type} (b : Backend ο μ) (script : BackendScript) : Backend ο μ where
  optsSize shape := b.optsSize shape + script.optsExtra
  optsDefault := b.optsDefault
  optsUpdate := b.optsUpdate
  optsSet key value := do
    if script.recordsCalls then Procedure.noteCall ⟨"backend", key, value.text⟩
    b.optsSet key value
  memorySize shape o := b.memorySize shape o + script.memoryExtra
  memoryAssign := b.memoryAssign
  workspaceSize shape o := b.workspaceSize shape o + script.workExtra
  evaluate qp o m clock := do
    if script.fails then Procedure.fail (.unsupported .backend)
    match script.answer with
    | some a => give a
    | none => b.evaluate qp o m clock

end StageQp
