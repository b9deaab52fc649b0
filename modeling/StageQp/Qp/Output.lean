import StageQp.Qp.StageData

/-!
# StageQp.Qp.Output

The solution of a quadratic program: the variables and multipliers of every
stage, behind a record that tells how the solve went.
-/

namespace StageQp

/-! ## How a solve went -/

/-- How a solve went; times are in seconds. -/
structure SolveInfo where
  /-- Condensing and expanding. -/
  condensingTime : Binary64 := 0
  /-- The numerical solve. -/
  solveTime : Binary64 := 0
  /-- Moving data into the backend's own form. -/
  interfaceTime : Binary64 := 0
  /-- The whole call. -/
  totalTime : Binary64 := 0
  /-- Linear solves with the factored matrix. -/
  numIter : UInt64 := 0
  /-- Not zero when the slacks were filled in. -/
  tComputed : UInt64 := 0
deriving DecidableEq, Repr

namespace SolveInfo

def toWords (i : SolveInfo) : List UInt64 :=
  [i.condensingTime.bits, i.solveTime.bits, i.interfaceTime.bits, i.totalTime.bits,
    i.numIter, i.tComputed]

def ofWords (word : Nat → UInt64) : SolveInfo :=
  ⟨⟨word 0⟩, ⟨word 1⟩, ⟨word 2⟩, ⟨word 3⟩, word 4, word 5⟩

instance : Record SolveInfo := Record.ofWords 6 "SolveInfo" ofWords toWords

end SolveInfo

/-! ## The record -/

/-- The fields of the solution at one stage. -/
inductive OutputField where
  /-- Controls, then states. -/
  | ux
  /-- Multipliers of the dynamics. -/
  | pi
  /-- Multipliers of bounds and general constraints, lower sides, then upper. -/
  | lam
  /-- Slacks of bounds and general constraints, lower sides, then upper. -/
  | t
deriving DecidableEq, Repr

namespace OutputField

def all : List OutputField := [ux, pi, lam, t]

def index : OutputField → Nat
  | ux => 0
  | pi => 1
  | lam => 2
  | t => 3

/-- Entries of a field at stage `k`. -/
def count (shape : Shape) (k : Nat) : OutputField → Nat
  | ux => shape.nv k
  | pi => shape.dynamics k
  | lam | t => 2 * (shape.stage k).inequalities

end OutputField

def Shape.outputStageBytes (shape : Shape) (k : Nat) : Nat :=
  doubleBytes (shape.nv k) + doubleBytes (shape.dynamics k)
    + 2 * doubleBytes (2 * (shape.stage k).inequalities)

/-- Bytes of the solution of a program, which can be addressed under the same condition. -/
def Shape.outputBytes (shape : Shape) : Nat :=
  Record.paddedBytes SolveInfo 1 + sumBefore shape.outputStageBytes (shape.horizon + 1)

instance : StageFields OutputField where
  all := OutputField.all
  index := OutputField.index
  kind _ := .double
  count := OutputField.count
  leadBytes := Record.bytes SolveInfo
  size := Shape.outputBytes
  title := "qp_out"

/-- The solution of a quadratic program. -/
abbrev QpOutput := StageData OutputField

namespace StageData

def info (d : QpOutput) : SolveInfo := Record.get (d.layout.lead.part d.words) 0

/-- The solution with another account of how the solve went. -/
def setInfo (d : QpOutput) (info : SolveInfo) : QpOutput :=
  { d with words := d.layout.lead.setRecords d.words #[info] }

/-- The solution with all entries zero, and the account as it was. -/
def clear (d : QpOutput) : QpOutput :=
  let first := d.layout.lead.pastWord
  { d with words := d.words.paste first (.replicate (d.layout.total / 8 - first) 0) }

end StageData

end StageQp
