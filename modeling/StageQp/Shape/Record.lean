import StageQp.Storage.Record

/-!
# StageQp.Shape.Record

Shapes in storage.  A shape over stages `0 .. N` is `N + 1` stage records in a
row; a region that was carved for it is read as a shape, and single dimensions
are set in place.
-/

namespace StageQp

namespace StageDims

/-- The words of the dimensions of a stage, in the order they are stored. -/
def toWords (s : StageDims) : List UInt64 := [s.nx, s.nu, s.nbx, s.nbu, s.ng]

/-- The dimensions stored in the words `word 0`, `word 1`, and so on. -/
def ofWords (word : Nat → UInt64) : StageDims := ⟨word 0, word 1, word 2, word 3, word 4⟩

instance : Record StageDims := Record.ofWords 5 "xcond_core::dims::StageDims" ofWords toWords

end StageDims

namespace Shape

/-- Bytes of the record of a shape with horizon `n`. -/
def recordBytes (n : Nat) : Nat := Record.paddedBytes StageDims (n + 1)

/-- The shape with horizon `n` that a region starts with, without a check. -/
def getRecord (n : Nat) (w : Words) : Shape :=
  ⟨Record.getAll StageDims w (n + 1), by simp [Record.getAll]⟩

/-- The shape with horizon `n` that a region starts with. -/
def ofWords (n : Nat) (w : Words) : Except Fault Shape := do
  Record.check StageDims w (n + 1)
  return getRecord n w

/-- The region with one dimension of one stage replaced. -/
def setField (n : Nat) (w : Words) (stage : Nat) (field : DimField) (value : UInt64) :
    Except Fault Words := do
  if n < stage then throw (.invalidDimension (.stageOutOfRange stage n))
  Record.check StageDims w (n + 1)
  return Record.set w stage ((Record.get w stage : StageDims).set field value)

end Shape

end StageQp
