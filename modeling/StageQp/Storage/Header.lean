import StageQp.Storage.Record

/-!
# StageQp.Storage.Header

The header in front of every composite record: what kind of record it is, its
total size and its table of child blocks, so that a descriptor can check that
the buffer it is handed carries its layout.  The epoch is a counter that belongs
to the owner and that no check looks at.
-/

namespace StageQp

/-- A row of a header's block table. -/
structure HeaderEntry where
  offset : UInt64
  len : UInt64
deriving DecidableEq, Repr, Inhabited

/-- The header of a composite record. -/
structure RecordHeader where
  /-- The kind of record. -/
  tag : UInt64
  /-- Carved bytes of the whole record. -/
  total : UInt64
  /-- A counter of the owner. -/
  epoch : UInt64
  /-- How many rows of the table are in use. -/
  children : UInt64
  /-- The child blocks; rows not in use are zero. -/
  table : Vector HeaderEntry 4
deriving DecidableEq

namespace RecordHeader

/-- The tag made of the bytes of a name, the first byte lowest. -/
def tagOfBytes (name : List UInt8) : UInt64 :=
  UInt64.ofNat (name.foldr (fun byte rest => byte.toNat + 256 * rest) 0)

/-- The tag made of a name of eight bytes. -/
def tagOf (name : String) : UInt64 := tagOfBytes name.toUTF8.toList

/-- The table row that describes a block. -/
def entry (b : Block) : HeaderEntry := ⟨UInt64.ofNat b.offset, UInt64.ofNat b.len⟩

/-- The header of a record of `total` bytes with these child blocks, at epoch zero. -/
def make (tag : UInt64) (total : Nat) (children : List Block) : RecordHeader where
  tag := tag
  total := UInt64.ofNat total
  epoch := 0
  children := UInt64.ofNat children.length
  table := Vector.ofFn fun i => (children[i.val]?.map entry).getD ⟨0, 0⟩

/-- Refuses a header that describes another layout: by its tag, else by its
total size, else by its block table. -/
def verify (h : RecordHeader) (tag : UInt64) (total : Nat) (children : List Block) :
    Except Fault Unit :=
  let expected := make tag total children
  if h.tag ≠ expected.tag then .error (.header .tag)
  else if h.total ≠ expected.total then .error (.header .totalSize)
  else if h.children ≠ expected.children ∨ h.table ≠ expected.table then
    .error (.header .blockTable)
  else .ok ()

def toWords (h : RecordHeader) : List UInt64 :=
  [h.tag, h.total, h.epoch, h.children] ++ h.table.toList.flatMap fun e => [e.offset, e.len]

def ofWords (word : Nat → UInt64) : RecordHeader where
  tag := word 0
  total := word 1
  epoch := word 2
  children := word 3
  table := Vector.ofFn fun i => ⟨word (4 + 2 * i.val), word (5 + 2 * i.val)⟩

instance : Record RecordHeader :=
  Record.ofWords 12 "xcond_core::mem::RecordHeader" ofWords toWords

def size : Nat := Record.paddedBytes RecordHeader 1

end RecordHeader

end StageQp
