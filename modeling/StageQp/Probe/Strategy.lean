import StageQp.Shape.Record
import StageQp.Strategy.Basic

/-!
# StageQp.Probe.Strategy

Strategies that deviate from one they are built on, as a script says.  They
show what a solver does when a module asks for other sizes than it uses, drops
stages, or fails.
-/

namespace StageQp

/-- How a strategy deviates. -/
structure StrategyScript where
  /-- Bytes that the record of shapes is larger than needed. -/
  dimsExtra : Nat := 0
  /-- Bytes that the options are larger than needed. -/
  optsExtra : Nat := 0
  /-- Bytes that the memory is larger than needed. -/
  memoryExtra : Nat := 0
  /-- The bytes of scratch, if other than usual. -/
  work : Option Nat := none
  /-- Option calls are taken down and not carried out. -/
  recordsCalls : Bool := false
  /-- The memory is laid out against a wrong size. -/
  miscounts : Bool := false
  /-- The phase that is refused. -/
  failing : Option Phase := none
  /-- The last stage that is kept. -/
  lastKept : Option Nat := none
deriving DecidableEq

namespace StrategyScript

open Procedure

variable {σ ρ δ ο μ : Type}

/-- What condensing leaves in its scratch. -/
def condenseMark : UInt64 := 0xC0

/-- What expanding leaves in its scratch. -/
def expandMark : UInt64 := 0xE0

/-- Fills the scratch with a word. -/
def mark (word : UInt64) : Procedure (Desk ρ) Unit :=
  update fun desk => { desk with work := desk.work.fill word }

/-- A layout that takes more than it is checked against. -/
def miscount : Procedure σ Unit := do
  let (_, c) := Carver.take {} 24
  finish c 16 "miscounting memory"

/-- Copies what the stages up to the last kept one have without constraints,
the dynamics only between kept stages. -/
def condenseKept (qp : QpInput) : Procedure (Desk QpInput) Unit := do
  let desk ← fetch
  let last := desk.record.shape.horizon
  let fields (k : Nat) : List InputField :=
    if k < last then [.rsq, .rq, .ba, .b] else [.rsq, .rq]
  let record ← need ((List.range (last + 1)).foldlM
    (fun r k => (fields k).foldlM (fun r field => r.copyField? k qp k field) r) desk.record)
  store { desk with record }

/-- Copies the variables of the kept stages. -/
def expandKept (condensed : QpOutput) : Procedure (Desk QpOutput) Unit := do
  let desk ← fetch
  let record ← need ((List.range (condensed.shape.horizon + 1)).foldlM
    (fun r k => r.copyField? k condensed k .ux) desk.record)
  store { desk with record }

end StrategyScript

open StrategyScript in
/-- The strategy with the deviations of a script. -/
def Strategy.scripted {δ ο μ : Type} (s : Strategy δ ο μ) (script : StrategyScript) :
    Strategy δ ο μ where
  tag := s.tag
  dimsSize n := s.dimsSize n + script.dimsExtra
  dimsAssign := s.dimsAssign
  dimsSet := s.dimsSet
  dimsGet table region key := do
    let shape ← s.dimsGet table region key
    match script.lastKept with
    | some last => return if key = condensedKey then shape.upTo last else shape
    | none => return shape
  optsSize shapes := s.optsSize shapes + script.optsExtra
  optsDefault := s.optsDefault
  optsUpdate shapes :=
    s.optsUpdate (if script.lastKept.isSome then ⟨shapes.full, shapes.full⟩ else shapes)
  optsSet key value :=
    if script.recordsCalls then Procedure.noteCall ⟨"strategy", key, value.text⟩
    else s.optsSet key value
  memorySize shapes o := s.memorySize shapes o + script.memoryExtra
  memoryAssign shapes o := do
    if script.miscounts then miscount
    s.memoryAssign shapes o
  workspaceSize shapes o := script.work.getD (s.workspaceSize shapes o)
  condense qp o m := do
    mark condenseMark
    if script.failing = some .condense then Procedure.fail (.unsupported .condense)
    if script.lastKept.isSome then condenseKept qp else s.condense qp o m
  expand condensed o m := do
    mark expandMark
    if script.failing = some .expand then Procedure.fail (.unsupported .expand)
    if script.lastKept.isSome then expandKept condensed else s.expand condensed o m

end StageQp
