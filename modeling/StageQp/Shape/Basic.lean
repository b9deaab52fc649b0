import StageQp.Shape.Stage

/-!
# StageQp.Shape.Basic

The shape of a program over stages `0 .. N`: the dimensions of each stage, and
the counts that follow from them.  Stage `k` is tied to stage `k + 1` by one
equation for each state of stage `k + 1`.
-/

namespace StageQp

/-- The dimensions of every stage; there is at least one. -/
structure Shape where
  stages : Array StageDims
  /-- The last stage has an index. -/
  size_pos : 0 < stages.size
deriving DecidableEq

namespace Shape

/-- The shape with these stages, if there is one at all. -/
def ofStages? (stages : Array StageDims) : Option Shape :=
  if h : 0 < stages.size then some ⟨stages, h⟩ else none

/-- The index of the last stage. -/
def horizon (s : Shape) : Nat := s.stages.size - 1

/-- The dimensions of a stage; past the last stage there is nothing. -/
def stage (s : Shape) (k : Nat) : StageDims := s.stages.getD k default

def nv (s : Shape) (k : Nat) : Nat := (s.stage k).nv

/-- Equations between stage `k` and the next: the states of the next, none at the end. -/
def dynamics (s : Shape) (k : Nat) : Nat :=
  if k < s.horizon then (s.stage (k + 1)).nx.toNat else 0

/-- The sum of a count over the stages before `k`. -/
def sumBefore (count : Nat → Nat) : Nat → Nat
  | 0 => 0
  | k + 1 => sumBefore count k + count k

def variablesBefore (s : Shape) (k : Nat) : Nat := sumBefore s.nv k

def dynamicsBefore (s : Shape) (k : Nat) : Nat := sumBefore s.dynamics k

def totalVariables (s : Shape) : Nat := s.variablesBefore (s.horizon + 1)

def totalDynamics (s : Shape) : Nat := s.dynamicsBefore s.horizon

def isConstrained (s : Shape) : Bool := s.stages.any StageDims.isConstrained

theorem size_extract_pos (s : Shape) (last : Nat) : 0 < (s.stages.extract 0 (last + 1)).size := by
  have h := s.size_pos
  rw [Array.size_extract]
  omega

/-- The first stages, up to and including stage `last`; all of them if there are not so many. -/
def upTo (s : Shape) (last : Nat) : Shape :=
  ⟨s.stages.extract 0 (last + 1), s.size_extract_pos last⟩

def text (s : Shape) : String :=
  Text.labelled "QpDims"
    [("n", toString s.horizon),
     ("stages", Text.bracketed (s.stages.toList.map StageDims.text))]

end Shape

/-- The full shape, in which a program is given, and the shape it is condensed to. -/
structure ShapePair where
  full : Shape
  condensed : Shape
deriving DecidableEq

end StageQp
