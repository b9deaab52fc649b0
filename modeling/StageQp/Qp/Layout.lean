import StageQp.Procedure
import StageQp.Qp.Field

/-!
# StageQp.Qp.Layout

Where the fields of a stage-wise record lie.  The record is carved field by
field and stage by stage, behind a block of its own at the front.

Offsets and lengths are natural numbers here.  They are those of the machine for shapes
whose records have a size that is a machine word (`Layout.Addressable`).
-/

namespace StageQp

/-- The block table of a record with fields `Φ` over a shape. -/
structure Layout (Φ : Type) where
  shape : Shape
  /-- The block in front of the first stage. -/
  lead : Block
  /-- The blocks of all fields, stage by stage. -/
  blocks : List Block
  /-- Bytes of the whole record. -/
  total : Nat
deriving DecidableEq

namespace Layout

variable {σ Φ : Type} [StageFields Φ]

/-- The layout of a record over a shape, whatever its size; in the machine it is
`ofShapeWrapping`, which is this one if the record is addressable. -/
def ofShape (Φ : Type) [StageFields Φ] (shape : Shape) : Layout Φ :=
  let (lead, front) := Carver.take {} (StageFields.leadBytes Φ)
  let (blocks, back) := front.takeAll (StageFields.lengths Φ shape)
  { shape, lead, blocks, total := back.cursor }

/-- The layout of a record over a shape, which has to end on the size in closed form. -/
def assign (Φ : Type) [StageFields Φ] (shape : Shape) : Procedure σ (Layout Φ) := do
  let layout := ofShape Φ shape
  Procedure.finish ⟨layout.total⟩ (StageFields.size Φ shape) (StageFields.title Φ)
  return layout

/-- The block of a field at a stage, if there is such a stage. -/
def block? (l : Layout Φ) (k : Nat) (field : Φ) : Option Block :=
  if k ≤ l.shape.horizon then
    l.blocks[k * (StageFields.all : List Φ).length + StageFields.index field]?
  else none

/-- Refuses words that are too few for the record. -/
def check (l : Layout Φ) (w : Words) : Except Fault Unit :=
  if Words.byteSize w < l.total then .error (.bufferSize (Words.byteSize w) l.total) else .ok ()

end Layout

end StageQp
