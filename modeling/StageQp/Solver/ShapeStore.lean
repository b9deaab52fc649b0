import StageQp.Shape.Record
import StageQp.Solver.Basic

/-!
# StageQp.Solver.ShapeStore

The shape of a program in storage: a header, the full shape, and the
strategy's record, which holds the condensed one.
-/

namespace StageQp

/-- A stored shape, with `δ` the strategy's table. -/
structure ShapeStore (δ : Type) where
  horizon : Nat
  /-- Where the full shape is. -/
  full : Block
  /-- Where the strategy's record is. -/
  condensed : Block
  /-- What is where in the strategy's record. -/
  table : δ
  words : Words
deriving DecidableEq

namespace ShapeStore

variable {σ δ ο μ β ν : Type}

open Procedure

def tag : UInt64 := RecordHeader.tagOf "XCDIMS\x00\x00"

def size (s : Strategy δ ο μ) (n : Nat) : Nat :=
  RecordHeader.size + Shape.recordBytes n + alignUp (s.dimsSize n)

/-- The blocks of the header, of the full shape and of the strategy's record,
and what is left of the carver. -/
def carve (s : Strategy δ ο μ) (n : Nat) : Block × Block × Block × Carver :=
  let (header, c) := Carver.take {} RecordHeader.size
  let (full, c) := c.take (Shape.recordBytes n)
  let (condensed, c) := c.take (s.dimsSize n)
  (header, full, condensed, c)

/-- Lays out a shape with horizon `n`, all stages empty. -/
def assign (s : Strategy δ ο μ) (n : Nat) (words : Words) : Procedure σ (ShapeStore δ) := do
  let total := size s n
  check (words.expectBytes total)
  let (header, full, condensed, c) := carve s n
  finish c total "xcond dims"
  let words := words.fill 0
  check (words.checkSplit [header, condensed])
  let words := header.setRecords words #[RecordHeader.make tag total [full, condensed]]
  let (table, region) ← within (condensed.part words) (s.dimsAssign n)
  note (.shapeStoreCarved n total condensed.len)
  return { horizon := n, full, condensed, table, words := condensed.put words region }

def header (d : ShapeStore δ) : Except Fault RecordHeader := Record.read RecordHeader d.words

def fullShape (d : ShapeStore δ) : Except Fault Shape := do
  Shape.ofWords d.horizon (← d.full.slice d.words)

/-- The shape under a key; all but the full one are the strategy's. -/
def get (s : Strategy δ ο μ) (d : ShapeStore δ) (key : String) : Except Fault Shape := do
  if key = fullKey then d.fullShape
  else s.dimsGet d.table (← d.condensed.slice d.words) key

def shapes (s : Strategy δ ο μ) (d : ShapeStore δ) : Except Fault ShapePair := do
  let full ← d.fullShape
  let condensed ← d.get s condensedKey
  return { full, condensed }

/-- Sets a dimension of a stage, first of the full shape, then in the
strategy's record. -/
def set (s : Strategy δ ο μ) (stage : Nat) (field : DimField) (value : UInt64) :
    Procedure (ShapeStore δ) Unit := do
  let d ← fetch
  let own ← check (d.full.slice d.words)
  let own ← check (Shape.setField d.horizon own stage field value)
  store { d with words := d.full.put d.words own }
  check (d.condensed.check (Words.byteSize d.words))
  focus (fun d => d.condensed.part d.words)
    (fun d part => { d with words := d.condensed.put d.words part })
    (s.dimsSet d.table stage field value)

end ShapeStore

end StageQp
