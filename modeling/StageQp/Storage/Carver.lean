import StageQp.Storage.Record

/-!
# StageQp.Storage.Carver

Laying out blocks one behind the other.  A carver is the byte at which the next
block starts; taking a block moves it past the padded span.  Carving a whole
list of lengths is the same step repeated.
-/

namespace StageQp

/-- The state of a layout in progress: the first byte not given out yet. -/
structure Carver where
  cursor : Nat := 0
deriving DecidableEq, Repr

namespace Carver

/-- Gives out a block of `bytes` bytes. -/
def take (c : Carver) (bytes : Nat) : Block × Carver :=
  let block : Block := ⟨c.cursor, bytes⟩
  (block, ⟨block.stop⟩)

/-- Gives out a block of `count` records. -/
def takeRecords (α : Type) [Record α] (c : Carver) (count : Nat) : Block × Carver :=
  c.take (count * Record.bytes α)

/-- Gives out a block for each length, in order. -/
def takeAll (c : Carver) : List Nat → List Block × Carver
  | [] => ([], c)
  | bytes :: rest =>
    let (block, c) := c.take bytes
    let (blocks, c) := c.takeAll rest
    (block :: blocks, c)

/-- The bytes given out, if they are as many as were computed beforehand. -/
def finish (c : Carver) (expected : Nat) : Except Fault Nat :=
  if c.cursor ≠ expected then .error (.sizeMismatch c.cursor expected) else .ok c.cursor

end Carver

/-- The blocks of the given lengths, carved from the start of a region. -/
def carve (lengths : List Nat) : List Block := (Carver.takeAll {} lengths).1

end StageQp
