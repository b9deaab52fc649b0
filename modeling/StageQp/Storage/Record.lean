import StageQp.Number.Binary64
import StageQp.Storage.Block

/-!
# StageQp.Storage.Record

Typed views of words.  A type of records has a size in bytes and a way to read
and to replace record number `i` of a run of records that starts with a region.
Words are little endian: the first byte and the first 32-bit half of a word are
its low ones.
-/

namespace StageQp

/-- Types whose values are stored one after the other in words. -/
class Record (α : Type) where
  /-- Bytes of one record. -/
  bytes : Nat
  /-- What a fault calls the type. -/
  name : String
  /-- Record number `i` of the region. -/
  get : Words → Nat → α
  /-- The region with record number `i` replaced. -/
  set : Words → Nat → α → Words

namespace Record

@[reducible] def ofWords {α : Type} (count : Nat) (name : String)
    (read : (Nat → UInt64) → α) (write : α → List UInt64) : Record α where
  bytes := 8 * count
  name := name
  get w i := read fun j => w.getD (count * i + j) 0
  set w i a := Words.paste w (count * i) (write a).toArray

/-! ## Parts of a word -/

def lowHalf (word : UInt64) : UInt32 := UInt32.ofNat (word.toNat % 2 ^ 32)

def highHalf (word : UInt64) : UInt32 := UInt32.ofNat (word.toNat / 2 ^ 32)

def joinHalves (low high : UInt32) : UInt64 := UInt64.ofNat (low.toNat + high.toNat * 2 ^ 32)

/-- Byte number `i` of a word, counted from the low end. -/
def byteOf (word : UInt64) (i : Nat) : UInt8 := UInt8.ofNat (word.toNat / 256 ^ i % 256)

/-- The word with byte number `i` replaced. -/
def setByteOf (word : UInt64) (i : Nat) (byte : UInt8) : UInt64 :=
  UInt64.ofNat (word.toNat - (byteOf word i).toNat * 256 ^ i + byte.toNat * 256 ^ i)

instance : Record UInt8 where
  bytes := 1
  name := "u8"
  get w i := byteOf (w.getD (i / 8) 0) (i % 8)
  set w i byte := w.modify (i / 8) fun word => setByteOf word (i % 8) byte

instance : Record UInt32 where
  bytes := 4
  name := "u32"
  get w i :=
    let word := w.getD (i / 2) 0
    if i % 2 = 0 then lowHalf word else highHalf word
  set w i half :=
    w.modify (i / 2) fun word =>
      if i % 2 = 0 then joinHalves half (highHalf word) else joinHalves (lowHalf word) half

instance : Record Binary64 where
  bytes := 8
  name := "f64"
  get w i := ⟨w.getD i 0⟩
  set w i x := w.setIfInBounds i x.bits

/-! ## Runs of records -/

/-- Padded bytes of `count` records. -/
def paddedBytes (α : Type) [Record α] (count : Nat) : Nat := alignUp (count * bytes α)

/-- The first `count` records, without a check. -/
def getAll (α : Type) [Record α] (w : Words) (count : Nat) : Array α :=
  (Array.range count).map (get w)

/-- The region with the records from number `i` on replaced. -/
def setFrom {α : Type} [Record α] (w : Words) (i : Nat) : List α → Words
  | [] => w
  | a :: as => setFrom (set w i a) (i + 1) as

/-- The region with its first records replaced. -/
def setAll {α : Type} [Record α] (w : Words) (records : List α) : Words := setFrom w 0 records

/-- Refuses a region that is too short for `count` records. -/
def check (α : Type) [Record α] (w : Words) (count : Nat) : Except Fault Unit :=
  if Words.byteSize w < count * bytes α then .error (.cast (Words.byteSize w) (name α))
  else .ok ()

/-- The first `count` records of a region. -/
def readAll (α : Type) [Record α] (w : Words) (count : Nat) : Except Fault (Array α) := do
  check α w count
  return getAll α w count

/-- The first record of a region. -/
def read (α : Type) [Record α] (w : Words) : Except Fault α := do
  check α w 1
  return get w 0

/-- The region with its first record replaced. -/
def write {α : Type} [Record α] (w : Words) (a : α) : Except Fault Words := do
  check α w 1
  return set w 0 a

end Record

namespace Block

/-- How many whole records the block holds. -/
def count (α : Type) [Record α] (b : Block) : Nat := b.len / Record.bytes α

def records (α : Type) [Record α] (b : Block) (w : Words) : Array α :=
  Record.getAll α (b.part w) (b.count α)

/-- The region with the first records of the block replaced. -/
def setRecords {α : Type} [Record α] (b : Block) (w : Words) (records : Array α) : Words :=
  b.put w (Record.setAll (b.part w) records.toList)

end Block

end StageQp
