import StageQp.Solver.Basic

/-!
# StageQp.Solver.OptionStore

The options of a solver in storage: a header, the strategy's record and the
backend's.
-/

namespace StageQp

structure OptionStore where
  /-- Where the strategy's record is. -/
  strategy : Block
  /-- Where the backend's record is. -/
  backend : Block
  words : Words
deriving DecidableEq

namespace OptionStore

variable {σ α δ ο μ β ν : Type}

open Procedure

def tag : UInt64 := RecordHeader.tagOf "XCOPTS\x00\x00"

def size (s : Solver δ ο μ β ν) (shapes : ShapePair) : Nat :=
  RecordHeader.size + alignUp (s.strategy.optsSize shapes)
    + alignUp (s.backend.optsSize shapes.condensed)

/-- The blocks of the header and of the records of both modules, and what is
left of the carver. -/
def carve (s : Solver δ ο μ β ν) (shapes : ShapePair) : Block × Block × Block × Carver :=
  let (header, c) := Carver.take {} RecordHeader.size
  let (strategy, c) := c.take (s.strategy.optsSize shapes)
  let (backend, c) := c.take (s.backend.optsSize shapes.condensed)
  (header, strategy, backend, c)

def readAt (ρ : Type) [Record ρ] (o : OptionStore) (b : Block) : Except Fault ρ := do
  Record.read ρ (← b.slice o.words)

def strategyOptions (ο : Type) [Record ο] (o : OptionStore) : Except Fault ο :=
  o.readAt ο o.strategy

def backendOptions (β : Type) [Record β] (o : OptionStore) : Except Fault β :=
  o.readAt β o.backend

/-- Lays out the options for a pair of shapes, all zero. -/
def assign [Record ο] [Record β] (s : Solver δ ο μ β ν) (shapes : ShapePair) (words : Words) :
    Procedure σ OptionStore := do
  let total := size s shapes
  check (words.expectBytes total)
  let (header, strategy, backend, c) := carve s shapes
  finish c total "xcond opts"
  let words := words.fill 0
  check (header.check (Words.byteSize words))
  let words := header.setRecords words #[RecordHeader.make tag total [strategy, backend]]
  let options : OptionStore := { strategy, backend, words }
  let _ ← check (options.strategyOptions ο)
  let _ ← check (options.backendOptions β)
  return options

/-- Runs a procedure on the record of a block. -/
def edit (ρ : Type) [Record ρ] (b : Block) (act : Procedure ρ α) : Procedure OptionStore α := do
  let _ ← check ((← fetch).readAt ρ b)
  focus (fun o => Record.get (b.part o.words) 0)
    (fun o value => { o with words := b.setRecords o.words #[value] }) act

/-- Sets all options to what they start from, the strategy's first. -/
def setDefaults [Record ο] [Record β] (s : Solver δ ο μ β ν) (shapes : ShapePair) :
    Procedure OptionStore Unit := do
  edit ο (← fetch).strategy (store (s.strategy.optsDefault shapes))
  edit β (← fetch).backend (store (s.backend.optsDefault shapes.condensed))

/-- Has both modules check their options and bring derived ones up to date. -/
def refresh [Record ο] [Record β] (s : Solver δ ο μ β ν) (shapes : ShapePair) :
    Procedure OptionStore Unit := do
  edit ο (← fetch).strategy (s.strategy.optsUpdate shapes)
  edit β (← fetch).backend (s.backend.optsUpdate shapes.condensed)

/-- Hands an option to the module it belongs to. -/
def set [Record ο] [Record β] (s : Solver δ ο μ β ν) (key : String) (value : OptionValue) :
    Procedure OptionStore Unit := do
  let route ← check (s.router.route key)
  note (.optionRouted key value s.router.strategyTag route)
  match route with
  | .strategy name => edit ο (← fetch).strategy (s.strategy.optsSet name value)
  | .backend name => edit β (← fetch).backend (s.backend.optsSet name value)

end OptionStore

end StageQp
