import StageQp.Fault
import StageQp.Storage.Words

/-!
# StageQp.Storage.Block

A block is a range of bytes inside a region.  Its length is exact; it spans its
length rounded up to whole words, and no other block may start inside the span.
-/

namespace StageQp

/-- A range of bytes inside a region. -/
structure Block where
  /-- The first byte. -/
  offset : Nat
  /-- The exact length in bytes. -/
  len : Nat
deriving DecidableEq, Repr, Inhabited

namespace Block

/-- Bytes up to the end of the last word the block reaches into. -/
def span (b : Block) : Nat := alignUp b.len

/-- The first byte past the span. -/
def stop (b : Block) : Nat := b.offset + b.span

def isEmpty (b : Block) : Bool := b.len == 0

/-- The first word of the span. -/
def firstWord (b : Block) : Nat := b.offset / 8

/-- The first word past the span. -/
def pastWord (b : Block) : Nat := b.stop / 8

/-- Refuses a block that starts inside a word, and one that ends past `capacity` bytes. -/
def check (b : Block) (capacity : Nat) : Except Fault Unit :=
  if b.offset % 8 ≠ 0 then .error (.misaligned b.offset)
  else if capacity < b.stop then .error (.outOfBounds b.offset b.len capacity)
  else .ok ()

/-- The words of the span. -/
def part (b : Block) (w : Words) : Words := w.extract b.firstWord b.pastWord

/-- The words of the span, if the block fits. -/
def slice (b : Block) (w : Words) : Except Fault Words := do
  b.check (Words.byteSize w)
  return b.part w

/-- The region with the words of the span replaced. -/
def put (b : Block) (w part : Words) : Words := Words.paste w b.firstWord part

/-- The region with the span zeroed, if the block fits. -/
def clear (b : Block) (w : Words) : Except Fault Words := do
  b.check (Words.byteSize w)
  return b.put w (.replicate (b.span / 8) 0)

/-- The region with the spans of all blocks zeroed, if they fit. -/
def clearAll (blocks : List Block) (w : Words) : Except Fault Words :=
  blocks.foldlM (fun w b => b.clear w) w

def text (b : Block) : String :=
  Text.labelled "Block" [("offset", toString b.offset), ("len", toString b.len)]

end Block

/-- Refuses a region that does not have exactly `required` bytes. -/
def Words.expectBytes (w : Words) (required : Nat) : Except Fault Unit :=
  if Words.byteSize w ≠ required then .error (.bufferSize (Words.byteSize w) required) else .ok ()

end StageQp
