import StageQp.Shape.Record
import StageQp.Strategy.Basic

/-!
# StageQp.Strategy.Identity

The strategy that keeps every stage, so that the condensed program is the
full one.  It keeps a copy of either shape, and moves data through a map of
stages in its memory.
-/

namespace StageQp

/-- Where the strategy keeps its two shapes. -/
structure IdentityDims where
  horizon : Nat
  full : Block
  condensed : Block
deriving DecidableEq

structure IdentityOptions where
  /-- The horizon of the condensed program, which has to be that of the full one. -/
  n2 : UInt64
  /-- Multipliers are copied back unless this is zero. -/
  expandDuals : UInt64
deriving DecidableEq

/-- Where the strategy keeps its map of stages. -/
structure IdentityMemory where
  stageMap : Block
deriving DecidableEq

namespace IdentityDims

def text (d : IdentityDims) : String :=
  Text.labelled "IdentityDims"
    [("n", toString d.horizon), ("orig", d.full.text), ("cond", d.condensed.text)]

end IdentityDims

namespace IdentityOptions

def toWords (o : IdentityOptions) : List UInt64 := [o.n2, o.expandDuals]

def ofWords (word : Nat → UInt64) : IdentityOptions := ⟨word 0, word 1⟩

instance : Record IdentityOptions := Record.ofWords 2 "IdentityOpts" ofWords toWords

def text (o : IdentityOptions) : String :=
  Text.labelled "IdentityOpts"
    [("n2", toString o.n2), ("expand_dual_sol", toString o.expandDuals)]

end IdentityOptions

namespace IdentityMemory

/-- The stage of the full program behind each condensed stage. -/
def stages (m : IdentityMemory) (region : Words) : Except Fault (List Nat) := do
  m.stageMap.check (Words.byteSize region)
  return (m.stageMap.records UInt32 region).toList.map UInt32.toNat

def text (m : IdentityMemory) : String :=
  Text.labelled "IdentityMemory" [("stage_map", m.stageMap.text)]

end IdentityMemory

namespace Identity

open Procedure

/-- Refuses two shapes that are not the same. -/
def sameShape (a b : Shape) (demand : ShapeDemand) : Except Fault Unit :=
  if a ≠ b then .error (.invalidDimension (.shapesDiffer demand a b)) else .ok ()

/-! ## Shapes -/

def dimsSize (n : Nat) : Nat := 2 * Shape.recordBytes n

/-- Where the two shapes go, and what is left of the carver. -/
def carveDims (n : Nat) : IdentityDims × Carver :=
  let (full, c) := Carver.take {} (Shape.recordBytes n)
  let (condensed, c) := c.take (Shape.recordBytes n)
  ({ horizon := n, full, condensed }, c)

/-- Lays out the two shapes, both of empty stages. -/
def dimsAssign (n : Nat) : Procedure Words IdentityDims := do
  let (dims, c) := carveDims n
  finish c (dimsSize n) "identity dims"
  store (← check (Block.clearAll [dims.full, dims.condensed] (← fetch)))
  return dims

/-- Sets a dimension of the shape in a block of the record. -/
def setIn (n : Nat) (b : Block) (stage : Nat) (field : DimField) (value : UInt64) :
    Procedure Words Unit := do
  let region ← fetch
  let own ← check (b.slice region)
  let own ← check (Shape.setField n own stage field value)
  store (b.put region own)

/-- Sets a dimension of both shapes, the full one first. -/
def dimsSet (d : IdentityDims) (stage : Nat) (field : DimField) (value : UInt64) :
    Procedure Words Unit := do
  setIn d.horizon d.full stage field value
  setIn d.horizon d.condensed stage field value

def dimsGet (d : IdentityDims) (region : Words) (key : String) : Except Fault Shape :=
  if key = condensedKey then do Shape.ofWords d.horizon (← d.condensed.slice region)
  else if key = fullKey then do Shape.ofWords d.horizon (← d.full.slice region)
  else .error (.unknownKey key)

/-! ## Options -/

/-- Every stage is kept, and multipliers are copied back. -/
def optsDefault (shapes : ShapePair) : IdentityOptions where
  n2 := UInt64.ofNat shapes.full.horizon
  expandDuals := 1

/-- Refuses shapes that differ, and options that ask for another horizon. -/
def optsUpdate (shapes : ShapePair) : Procedure IdentityOptions Unit := do
  check (sameShape shapes.full shapes.condensed .update)
  if (← fetch).n2 ≠ UInt64.ofNat shapes.full.horizon then
    fail (.invalidOption "n2" .droppedStages)

def optsSet (key : String) (value : OptionValue) : Procedure IdentityOptions Unit := do
  if key = "n2" then
    let n2 ← check (value.toWord key)
    update fun o => { o with n2 }
  else if key = "expand_dual_sol" then
    let flag ← check (value.toFlag key)
    update fun o => { o with expandDuals := flag.toUInt64 }
  else
    fail (.unknownOption key)

/-! ## Memory -/

def memorySize (shapes : ShapePair) : Nat := indexBytes (shapes.condensed.horizon + 1)

/-- Where a map of so many stages goes, and what is left of the carver. -/
def carveMemory (stages : Nat) : IdentityMemory × Carver :=
  let (stageMap, c) := Carver.takeRecords UInt32 {} stages
  ({ stageMap }, c)

/-- Lays out the map of stages, each to itself. -/
def memoryAssign (shapes : ShapePair) : Procedure Words IdentityMemory := do
  let stages := shapes.condensed.horizon + 1
  let (memory, c) := carveMemory stages
  finish c (memorySize shapes) "identity memory"
  let region ← check (memory.stageMap.clear (← fetch))
  store (memory.stageMap.setRecords region ((Array.range stages).map UInt32.ofNat))
  return memory

/-! ## Data -/

/-- The record with all fields of stage `k` copied from stage `source` of another. -/
def copyStage? (qp : QpInput) (record : QpInput) (source k : Nat) : Option QpInput :=
  InputField.all.foldlM (fun record field => record.copyField? k qp source field) record

/-- Copies every stage that the map names. -/
def condense (qp : QpInput) (m : IdentityMemory) : Procedure (Desk QpInput) Unit := do
  let desk ← fetch
  check (sameShape qp.shape desk.record.shape .condense)
  let stages ← check (m.stages desk.region)
  let record ← need (stages.zipIdx.foldlM (fun r (source, k) => copyStage? qp r source k)
    desk.record)
  store { desk with record }

/-- The solution with stage `target` taken from stage `k` of the condensed one;
multipliers are zero unless asked for. -/
def expandStage? (duals : Bool) (condensed out : QpOutput) (target k : Nat) : Option QpOutput := do
  let out ← out.copyField? target condensed k .ux
  let out ← out.copyField? target condensed k .t
  if duals then
    let out ← out.copyField? target condensed k .pi
    out.copyField? target condensed k .lam
  else
    let out ← out.fill? target .pi (0 : Binary64)
    out.fill? target .lam (0 : Binary64)

/-- Copies the solution back to every stage that the map names. -/
def expand (condensed : QpOutput) (o : IdentityOptions) (m : IdentityMemory) :
    Procedure (Desk QpOutput) Unit := do
  let desk ← fetch
  check (sameShape condensed.shape desk.record.shape .expand)
  let stages ← check (m.stages desk.region)
  let duals := o.expandDuals != 0
  let record ← need (stages.zipIdx.foldlM
    (fun r (target, k) => expandStage? duals condensed r target k) desk.record)
  store { desk with record }

end Identity

/-- The strategy that keeps every stage. -/
def identity : Strategy IdentityDims IdentityOptions IdentityMemory where
  tag := "cond"
  dimsSize := Identity.dimsSize
  dimsAssign := Identity.dimsAssign
  dimsSet := Identity.dimsSet
  dimsGet := Identity.dimsGet
  optsSize _ := Record.paddedBytes IdentityOptions 1
  optsDefault := Identity.optsDefault
  optsUpdate := Identity.optsUpdate
  optsSet := Identity.optsSet
  memorySize shapes _ := Identity.memorySize shapes
  memoryAssign shapes _ := Identity.memoryAssign shapes
  workspaceSize _ _ := 0
  condense qp _ m := Identity.condense qp m
  expand condensed o m := Identity.expand condensed o m

end StageQp
