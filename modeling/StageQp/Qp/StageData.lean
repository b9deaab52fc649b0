import StageQp.Qp.Layout

/-!
# StageQp.Qp.StageData

A record with fields at every stage: a layout together with the words it
describes.  The words may be more than the layout asks for; what lies past its
end is never touched.

A field that is read or written at a stage past the horizon or in words that end
before its block does, or written with another number of entries than it has, gives no
answer.
-/

namespace StageQp

/-- A record with fields `Φ` at every stage. -/
structure StageData (Φ : Type) where
  layout : Layout Φ
  words : Words
deriving DecidableEq

namespace StageData

variable {σ Φ : Type} [StageFields Φ]

open StageFields (EntryOf)

/-- The record that words hold, if they are enough for its layout. -/
def ofWords (layout : Layout Φ) (words : Words) : Except Fault (StageData Φ) := do
  layout.check words
  return { layout, words }

/-- A record of its own over a shape, on words that are exactly enough. -/
def assign (Φ : Type) [StageFields Φ] (shape : Shape) (words : Words) :
    Procedure σ (StageData Φ) := do
  let layout ← Layout.assign Φ shape
  Procedure.check (words.expectBytes layout.total)
  return { layout, words }

/-- A zero record of its own over a shape. -/
def zeroed (Φ : Type) [StageFields Φ] (shape : Shape) : Procedure σ (StageData Φ) :=
  assign Φ shape (.zeroed (StageFields.size Φ shape))

def shape (d : StageData Φ) : Shape := d.layout.shape

/-- The block of a field at a stage, if there is such a stage and the words reach to the
end of the block. -/
def block? (d : StageData Φ) (k : Nat) (field : Φ) : Option Block :=
  (d.layout.block? k field).filter fun block => block.pastWord ≤ d.words.size

/-- The entries of a field at a stage. -/
def get? (d : StageData Φ) (k : Nat) (field : Φ) : Option (Array (EntryOf field)) :=
  (d.block? k field).map fun block => block.records (EntryOf field) d.words

/-- The entries of a field at a stage, none past the horizon. -/
def getD (d : StageData Φ) (k : Nat) (field : Φ) : Array (EntryOf field) :=
  (d.get? k field).getD #[]

/-- The record with the entries of a field at a stage replaced by as many others. -/
def set? (d : StageData Φ) (k : Nat) (field : Φ) (entries : Array (EntryOf field)) :
    Option (StageData Φ) := do
  let block ← d.block? k field
  if entries.size ≠ block.count (EntryOf field) then none
  return { d with words := block.setRecords d.words entries }

/-- The record with every entry of a field at a stage replaced by one value. -/
def fill? (d : StageData Φ) (k : Nat) (field : Φ) (entry : EntryOf field) :
    Option (StageData Φ) := do
  let block ← d.block? k field
  let entries := Array.replicate (block.count (EntryOf field)) entry
  return { d with words := block.setRecords d.words entries }

/-- The record with a field at a stage replaced by that field of another record,
there at stage `source`. -/
def copyField? (d : StageData Φ) (k : Nat) (other : StageData Φ) (source : Nat) (field : Φ) :
    Option (StageData Φ) := do
  d.set? k field (← other.get? source field)

/-- The words of the layout. -/
def content (d : StageData Φ) : Words := d.words.extract 0 (d.layout.total / 8)

/-- The record with everything replaced by what another record of the same shape holds. -/
def copyFrom (d other : StageData Φ) : Except Fault (StageData Φ) :=
  if other.shape ≠ d.shape then .error (.invalidDimension .recordsDiffer)
  else .ok { d with words := d.words.paste 0 other.content }

end StageData

end StageQp
