import StageQp.Backend.Basic
import StageQp.Diagnostics
import StageQp.Kkt.Solve
import StageQp.Storage.Split

/-!
# StageQp.Backend.Dense

The backend that solves the optimality conditions as one dense linear system.
Its memory keeps the factors and the last solution, from which a warm start
goes on; its scratch holds the system itself and the residual.

Bounds and general constraints are not handled: the verdict on a shape that has
any is a failure.
-/

namespace StageQp

structure DenseOptions where
  /-- The shift of the diagonal of the factored matrix. -/
  staticReg : Binary64
  /-- Refinement stops at a residual within this. -/
  refineTol : Binary64
  /-- Most corrections of a solution. -/
  refineIters : UInt64
  /-- Refine the last solution instead of solving anew, unless zero. -/
  warmStart : UInt64
deriving DecidableEq

/-- What the dense backend keeps in front of its memory. -/
structure DenseState where
  /-- Solves since the last that failed. -/
  solves : UInt64
  /-- The largest magnitude of the residual of the last solution. -/
  residual : Binary64
deriving DecidableEq

/-- Where the dense backend keeps its state, factors, row exchanges and solution. -/
structure DenseMemory where
  /-- Variables of all stages. -/
  nz : Nat
  /-- Equations between stages. -/
  ne : Nat
  state : Block
  factors : Block
  pivots : Block
  solution : Block
deriving DecidableEq

namespace DenseState

def toWords (s : DenseState) : List UInt64 := [s.solves, s.residual.bits]

def ofWords (word : Nat → UInt64) : DenseState := ⟨word 0, ⟨word 1⟩⟩

instance : Record DenseState := Record.ofWords 2 "DenseState" ofWords toWords

end DenseState

namespace DenseOptions

def toWords (o : DenseOptions) : List UInt64 :=
  [o.staticReg.bits, o.refineTol.bits, o.refineIters, o.warmStart]

def ofWords (word : Nat → UInt64) : DenseOptions := ⟨⟨word 0⟩, ⟨word 1⟩, word 2, word 3⟩

instance : Record DenseOptions := Record.ofWords 4 "DenseKktOpts" ofWords toWords

def text (o : DenseOptions) : String :=
  Text.labelled "DenseKktOpts"
    [("static_reg", Decimal.general.render o.staticReg),
     ("refine_tol", Decimal.general.render o.refineTol),
     ("refine_iters", toString o.refineIters), ("warm_start", toString o.warmStart)]

end DenseOptions

namespace DenseMemory

def order (m : DenseMemory) : Nat := m.nz + m.ne

def blocks (m : DenseMemory) : List Block := [m.state, m.factors, m.pivots, m.solution]

/-- The state that a region holds, without a check. -/
def stateOf (m : DenseMemory) (region : Words) : DenseState :=
  Record.get (m.state.part region) 0

def readState (m : DenseMemory) (region : Words) : Except Fault DenseState := do
  Record.read DenseState (← m.state.slice region)

def text (m : DenseMemory) : String :=
  Text.labelled "DenseKktMemory"
    [("nz", toString m.nz), ("ne", toString m.ne), ("state", m.state.text),
     ("kkt", m.factors.text), ("piv", m.pivots.text), ("sol", m.solution.text)]

end DenseMemory

/-- Where the scratch of the dense backend has the matrix, the right-hand side
and the residual. -/
structure DenseScratch where
  matrix : Block
  rhs : Block
  residual : Block
  /-- Bytes of all three. -/
  total : Nat

namespace DenseScratch

/-- The scratch for a system of some order. -/
def ofOrder (order : Nat) : DenseScratch :=
  let (matrix, c) := Carver.takeRecords Binary64 {} (order * order)
  let (rhs, c) := c.takeRecords Binary64 order
  let (residual, c) := c.takeRecords Binary64 order
  { matrix, rhs, residual, total := c.cursor }

def blocks (s : DenseScratch) : List Block := [s.matrix, s.rhs, s.residual]

end DenseScratch

/-- The first doubles of a block. -/
def Block.coords (b : Block) (n : Nat) (w : Words) : Coords Binary64 n :=
  let part := b.part w
  .tabulate fun i => Record.get part i.val

namespace Dense

open Procedure

/-! ## Options -/

/-- The shift unless the environment has another. -/
def defaultReg : Binary64 := .ofQuotient false 1 (10 ^ 10)

/-- The tolerance of the refinement. -/
def defaultTol : Binary64 := .ofQuotient false 1 (10 ^ 12)

/-- The corrections unless the environment has another number. -/
def defaultIters : UInt64 := 3

/-- The options to start from. -/
def optsDefault (env : Environment) : DenseOptions where
  staticReg := env.readOr "XCOND_STATIC_REG" Numeral.double? defaultReg
  refineTol := defaultTol
  refineIters := env.readOr "XCOND_REFINE_ITERS" Numeral.count? defaultIters
  warmStart := 0

/-- Refuses a shift that is not finite or negative, and a tolerance that is not
finite or not positive. -/
def optsUpdate : Procedure DenseOptions Unit := do
  let o ← fetch
  unless o.staticReg.isFinite && Scalar.le 0 o.staticReg do
    fail (.invalidOption "static_reg" .notFiniteNonNegative)
  unless o.refineTol.isFinite && Scalar.lt 0 o.refineTol do
    fail (.invalidOption "refine_tol" .notFinitePositive)

def optsSet (key : String) (value : OptionValue) : Procedure DenseOptions Unit := do
  if key = "static_reg" then
    let staticReg ← check (value.toFloat key)
    update fun o => { o with staticReg }
  else if key = "refine_tol" then
    let refineTol ← check (value.toFloat key)
    update fun o => { o with refineTol }
  else if key = "iter_max" ∨ key = "maxiter" then
    let refineIters ← check (value.toWord key)
    update fun o => { o with refineIters }
  else if key = "warm_start" then
    let flag ← check (value.toFlag key)
    update fun o => { o with warmStart := flag.toUInt64 }
  else
    fail (.unknownOption key)

/-! ## Memory -/

def memorySize (shape : Shape) : Nat :=
  let order := shape.order
  Record.paddedBytes DenseState 1 + doubleBytes (order * order) + indexBytes order
    + doubleBytes order

/-- Where the parts of the memory for a shape go, and what is left of the carver. -/
def carveMemory (shape : Shape) : DenseMemory × Carver :=
  let order := shape.order
  let (state, c) := Carver.takeRecords DenseState {} 1
  let (factors, c) := c.takeRecords Binary64 (order * order)
  let (pivots, c) := c.takeRecords UInt32 order
  let (solution, c) := c.takeRecords Binary64 order
  ({ nz := shape.totalVariables, ne := shape.totalDynamics, state, factors, pivots, solution }, c)

/-- Lays out the memory for a shape, all zero. -/
def memoryAssign (shape : Shape) : Procedure Words DenseMemory := do
  let (memory, c) := carveMemory shape
  finish c (memorySize shape) "dense kkt memory"
  store (← check (Block.clearAll memory.blocks (← fetch)))
  note (.denseMemoryCarved memory.order memory.nz memory.ne c.cursor)
  return memory

/-! ## Solving -/

/-- The fraction of the largest entry that a pivot has to pass. -/
def pivotFraction : Binary64 := .ofQuotient false 1 (10 ^ 14)

/-- How the options have the conditions solved; a warm start gets one correction more. -/
def settings (o : DenseOptions) (warm : Bool) : KktSettings Binary64 where
  pivotFraction := pivotFraction
  staticReg := o.staticReg
  refineTol := o.refineTol
  refineSteps := (o.refineIters + warm.toUInt64).toNat

/-- The account of a solve. -/
def infoOf (solves : Nat) (interface solve total : UInt64) : SolveInfo where
  condensingTime := 0
  solveTime := (Duration.ofWord solve).seconds
  interfaceTime := (Duration.ofWord interface).seconds
  totalTime := (Duration.ofWord total).seconds
  numIter := UInt64.ofNat solves
  tComputed := 1

def account (info : SolveInfo) : Procedure (Desk QpOutput) Unit :=
  update fun desk => { desk with record := desk.record.setInfo info }

/-- The solution with the variables and multipliers of every stage taken from
the solution of the linear system. -/
def scatter? (shape : Shape) (solution : Array Binary64) (out : QpOutput) : Option QpOutput :=
  (List.range (shape.horizon + 1)).foldlM
    (fun out k => do
      let s := Problem.place shape k
      let out ← out.set? k .ux (solution.extract s.z (s.z + s.nv))
      out.set? k .pi (solution.extract s.e (s.e + s.ne)))
    out

/-- The region with the factors, and the row exchanges of the columns worked off. -/
def storeFactors {n : Nat} (m : DenseMemory) (f : Factors Binary64 n) (region : Words) : Words :=
  let region := m.factors.setRecords region f.lu.entries.toArray
  m.pivots.setRecords region (f.pivots.map fun p => UInt32.ofNat p.val).toArray

/-- The scratch with the system. -/
def storeSystem {n : Nat} (s : DenseScratch) (system : LinearSystem Binary64 n) (work : Words) :
    Words :=
  let work := s.matrix.setRecords work system.matrix.entries.toArray
  s.rhs.setRecords work system.rhs.toArray

/-- The solve of the conditions that the options ask for, given what the region
keeps; `before` is what the right-hand side is written over. -/
def attempt (qp : QpInput) (o : DenseOptions) (m : DenseMemory) (region : Words)
    (before : Coords Binary64 m.order) : KktSolve Binary64 m.order :=
  let warm := o.warmStart != 0 && (m.stateOf region).solves != 0
  let start := if warm then some (m.solution.coords m.order region) else none
  (Problem.ofInput qp).solve (settings o warm) start before

/-- Solves a program without inequalities. -/
def solve (qp : QpInput) (o : DenseOptions) (m : DenseMemory) (clock : BackendReadings) :
    Procedure (Desk QpOutput) Status := do
  let n := m.order
  let scratch := DenseScratch.ofOrder n
  let desk ← fetch
  check (Words.checkSplit desk.region m.blocks)
  check (Words.checkSplit desk.work scratch.blocks)
  let state := m.stateOf desk.region
  let solved := attempt qp o m desk.region (scratch.rhs.coords n desk.work)
  let region := storeFactors m solved.factors desk.region
  let work := storeSystem scratch solved.system desk.work
  match solved.result with
  | none =>
    note (.systemSingular n)
    store { desk with region := m.state.setRecords region #[{ state with solves := 0 }], work }
    account (infoOf 0 clock.interface clock.solve clock.total)
    return .qpFailure
  | some it =>
    let finite := it.solution.isFinite
    let state : DenseState := ⟨if finite then state.solves + 1 else 0, it.norm⟩
    let region := m.solution.setRecords (m.state.setRecords region #[state]) it.solution.toArray
    let work := scratch.residual.setRecords work it.residual.toArray
    let record ← need (scatter? qp.shape it.solution.toArray desk.record)
    store { record, region, work }
    account (infoOf it.solves clock.interface clock.solve clock.total)
    return if finite then .success else .nanDetected

def evaluate (qp : QpInput) (o : DenseOptions) (m : DenseMemory) (clock : BackendReadings) :
    Procedure (Desk QpOutput) Status := do
  if qp.shape.order ≠ m.order then
    fail (.invalidDimension (.orderDiffers qp.shape.order m.order))
  update fun desk => { desk with record := desk.record.clear }
  if qp.shape.isConstrained then
    note .constraintsIgnored
    account (infoOf 0 0 0 clock.total)
    return .qpFailure
  solve qp o m clock

end Dense

/-- The dense backend; its defaults depend on the environment. -/
def dense (env : Environment) : Backend DenseOptions DenseMemory where
  optsSize _ := Record.paddedBytes DenseOptions 1
  optsDefault _ := Dense.optsDefault env
  optsUpdate _ := Dense.optsUpdate
  optsSet := Dense.optsSet
  memorySize shape _ := Dense.memorySize shape
  memoryAssign shape _ := Dense.memoryAssign shape
  workspaceSize shape _ := (DenseScratch.ofOrder shape.order).total
  evaluate := Dense.evaluate

end StageQp
