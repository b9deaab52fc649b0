import StageQp.Shape.Basic
import StageQp.Storage.Record

/-!
# StageQp.Qp.Field

What a stage-wise record holds.  A family of stage fields lists its fields in
storage order, says how many entries each has at each stage of a shape, and of
which kind.  Two families are used: the data of a program and its solution.

`StageFields.size` is the size in closed form; a layout is carved field by
field and has to end on it.
-/

namespace StageQp

/-- What the entries of a field are. -/
inductive EntryKind where
  | double
  | index
deriving DecidableEq, Repr

namespace EntryKind

@[reducible] def Entry : EntryKind → Type
  | double => Binary64
  | index => UInt32

instance (kind : EntryKind) : Record kind.Entry :=
  match kind with
  | double => inferInstanceAs (Record Binary64)
  | index => inferInstanceAs (Record UInt32)

instance (kind : EntryKind) : DecidableEq kind.Entry :=
  match kind with
  | double => inferInstanceAs (DecidableEq Binary64)
  | index => inferInstanceAs (DecidableEq UInt32)

/-- The entry that zero words hold. -/
def zero : (kind : EntryKind) → kind.Entry
  | double => ⟨0⟩
  | index => 0

end EntryKind

/-- A family of fields that a record has at every stage. -/
class StageFields (Φ : Type) where
  /-- The fields, in storage order. -/
  all : List Φ
  /-- The place of a field in `all`. -/
  index : Φ → Nat
  /-- What the entries of a field are. -/
  kind : Φ → EntryKind
  /-- Entries of a field at a stage. -/
  count : Shape → Nat → Φ → Nat
  /-- Bytes in front of the first stage. -/
  leadBytes : Nat
  /-- Bytes of a record of the shape, in closed form. -/
  size : Shape → Nat
  /-- What a layout of such a record is called. -/
  title : String

namespace StageFields

variable {Φ : Type} [StageFields Φ]

abbrev EntryOf (field : Φ) : Type := (kind field).Entry

/-- Bytes of a field at a stage, without padding. -/
def bytes (shape : Shape) (k : Nat) (field : Φ) : Nat :=
  count shape k field * Record.bytes (EntryOf field)

/-- Bytes of every field of every stage, in storage order. -/
def lengths (Φ : Type) [StageFields Φ] (shape : Shape) : List Nat :=
  (List.range (shape.horizon + 1)).flatMap fun k => (all : List Φ).map (bytes shape k)

end StageFields

end StageQp
