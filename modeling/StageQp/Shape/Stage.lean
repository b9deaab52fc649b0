import StageQp.Text.Labelled

/-!
# StageQp.Shape.Stage

The dimensions of one stage of a stage-wise quadratic program.  A stage stacks
its controls on its states, so it has `nu + nx` variables; bounds act on single
variables, general constraints on combinations of them.

Dimensions are machine words, and what is counted from them are natural numbers.  The
machine counts in words as well, which is the same as long as the records of the shape
are addressable (`Layout.Addressable`); `StageQp.Qp.Wrapping` has its counts.
-/

namespace StageQp

/-- The dimensions of one stage, each a machine word. -/
structure StageDims where
  /-- States. -/
  nx : UInt64 := 0
  /-- Controls. -/
  nu : UInt64 := 0
  /-- Bounds on states. -/
  nbx : UInt64 := 0
  /-- Bounds on controls. -/
  nbu : UInt64 := 0
  /-- General constraints. -/
  ng : UInt64 := 0
deriving DecidableEq, Repr, Inhabited

inductive DimField where
  | nx
  | nu
  | nbx
  | nbu
  | ng
deriving DecidableEq, Repr

namespace DimField

/-- All dimensions, in the order a stage lists them. -/
def all : List DimField := [nx, nu, nbx, nbu, ng]

def name : DimField → String
  | nx => "nx"
  | nu => "nu"
  | nbx => "nbx"
  | nbu => "nbu"
  | ng => "ng"

/-- The dimension with this name. -/
def ofName? (name : String) : Option DimField := all.find? fun field => field.name == name

end DimField

namespace StageDims

/-- A stage without bounds and constraints. -/
def free (nx nu : UInt64) : StageDims := { nx, nu }

def get (s : StageDims) : DimField → UInt64
  | .nx => s.nx
  | .nu => s.nu
  | .nbx => s.nbx
  | .nbu => s.nbu
  | .ng => s.ng

def set (s : StageDims) (field : DimField) (value : UInt64) : StageDims :=
  match field with
  | .nx => { s with nx := value }
  | .nu => { s with nu := value }
  | .nbx => { s with nbx := value }
  | .nbu => { s with nbu := value }
  | .ng => { s with ng := value }

/-- Variables of the stage: controls, then states.  Their number is not bounded by a machine
word; it is one if the records of the shape are addressable. -/
def nv (s : StageDims) : Nat := s.nu.toNat + s.nx.toNat

def bounds (s : StageDims) : Nat := s.nbx.toNat + s.nbu.toNat

/-- One-sided inequalities come in pairs; this counts the pairs, without wrapping as `nv`. -/
def inequalities (s : StageDims) : Nat := s.bounds + s.ng.toNat

def isConstrained (s : StageDims) : Bool := 0 < s.inequalities

def text (s : StageDims) : String :=
  Text.labelled "StageDims" (DimField.all.map fun field => (field.name, toString (s.get field)))

end StageDims

end StageQp
