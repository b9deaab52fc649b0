import StageQp.Shape.Basic
import StageQp.Text.Quoted

/-!
# StageQp.Fault

Why an operation was refused.  A fault is a cause; `Fault.message` is the only
place that words it.
-/

namespace StageQp

/-- The part of a record header that does not match a layout. -/
inductive HeaderPart where
  | tag
  | totalSize
  | blockTable
deriving DecidableEq, Repr

/-- Why an option key is malformed, or its stored value is not acceptable. -/
inductive OptionFlaw where
  | emptyKey
  | emptyModuleTag
  | missingOptionName
  | droppedStages
  | notFiniteNonNegative
  | notFinitePositive
deriving DecidableEq, Repr

/-- What an option expects of its value. -/
inductive ValueKind where
  | number
  | nonNegativeInteger
  | flag
deriving DecidableEq, Repr

/-- An activity that demands equal shapes of the full and the condensed program. -/
inductive ShapeDemand where
  | update
  | condense
  | expand
deriving DecidableEq, Repr

/-- What is wrong with a dimension, a stage or the shapes of records. -/
inductive ShapeFlaw where
  /-- No stage dimension has this name. -/
  | unknownField (name : String)
  /-- The stage lies past the horizon. -/
  | stageOutOfRange (stage horizon : Nat)
  /-- Two input records that are copied have different shapes. -/
  | recordsDiffer
  /-- The records handed in do not have the shape the memory was carved for. -/
  | notCarvedFor (expected : Shape)
  /-- The strategy keeps every stage, and the two shapes differ. -/
  | shapesDiffer (demand : ShapeDemand) (left right : Shape)
  /-- The linear system has another order than its memory. -/
  | orderDiffers (order carved : Nat)
deriving DecidableEq

inductive Operation where
  | sensitivity
  | condense
  | expand
  | backend
deriving DecidableEq, Repr

/-- Why an operation was refused. -/
inductive Fault where
  /-- A carve ended on another byte than the size computed beforehand. -/
  | sizeMismatch (carved expected : Nat)
  /-- A buffer does not have the bytes its layout asks for. -/
  | bufferSize (actual required : Nat)
  /-- A block does not start on a word boundary. -/
  | misaligned (offset : Nat)
  /-- A block ends past its region. -/
  | outOfBounds (offset len capacity : Nat)
  /-- A block starts before an earlier one ends. -/
  | overlap (offset : Nat)
  /-- A record header does not describe the layout it is checked against. -/
  | header (part : HeaderPart)
  /-- A region is too short to hold the records it is read as. -/
  | cast (len : Nat) (record : String)
  /-- A key cannot be routed, or a stored option is not acceptable. -/
  | invalidOption (key : String) (flaw : OptionFlaw)
  /-- The module does not know the option. -/
  | unknownOption (key : String)
  /-- The option expects another kind of value. -/
  | optionType (key : String) (expected : ValueKind)
  /-- A dimension, a stage or a shape is not acceptable. -/
  | invalidDimension (flaw : ShapeFlaw)
  /-- The shape is published under no such key. -/
  | unknownKey (key : String)
  /-- The operation is offered and not carried out. -/
  | unsupported (operation : Operation)
deriving DecidableEq

namespace HeaderPart

def text : HeaderPart → String
  | tag => "tag"
  | totalSize => "total size"
  | blockTable => "block table"

end HeaderPart

namespace OptionFlaw

def text : OptionFlaw → String
  | emptyKey => "empty key"
  | emptyModuleTag => "empty module tag"
  | missingOptionName => "missing option name"
  | droppedStages => "identity condensing keeps every stage"
  | notFiniteNonNegative => "must be finite and non-negative"
  | notFinitePositive => "must be finite and positive"

end OptionFlaw

namespace ValueKind

def text : ValueKind → String
  | number => "a number"
  | nonNegativeInteger => "a non-negative integer"
  | flag => "a flag"

end ValueKind

namespace ShapeDemand

def text : ShapeDemand → String
  | update => "update"
  | condense => "condense"
  | expand => "expand"

end ShapeDemand

namespace ShapeFlaw

def text : ShapeFlaw → String
  | unknownField name => s!"unknown field {Text.quoted name}"
  | stageOutOfRange stage horizon => s!"stage {stage} out of range (N={horizon})"
  | recordsDiffer => "input records differ in shape"
  | notCarvedFor expected =>
    s!"records do not match the shape the memory was carved for: {expected.text}"
  | shapesDiffer demand left right =>
    s!"{demand.text}: identity condensing needs equal shapes, got {left.text} and {right.text}"
  | orderDiffers order carved => s!"KKT order {order} does not match memory carved for {carved}"

end ShapeFlaw

namespace Operation

def text : Operation → String
  | sensitivity => "sensitivity evaluation"
  | condense => "condense"
  | expand => "expand"
  | backend => "backend"

end Operation

/-- The fault as a sentence for the caller. -/
def Fault.message : Fault → String
  | sizeMismatch carved expected =>
    s!"layout mismatch: carved {carved} bytes, expected {expected}"
  | bufferSize actual required => s!"buffer holds {actual} bytes, layout requires {required}"
  | misaligned offset => s!"block at offset {offset} is not 8-byte aligned"
  | outOfBounds offset len capacity =>
    s!"block [{offset}, {offset}+{len}) exceeds region of {capacity} bytes"
  | overlap offset => s!"blocks overlap at offset {offset}"
  | header part => s!"record header mismatch: {part.text}"
  | cast len record => s!"cannot view {len} bytes as {record}"
  | invalidOption key flaw => s!"invalid option key {Text.quoted key}: {flaw.text}"
  | unknownOption key => s!"unknown option {Text.quoted key}"
  | optionType key expected => s!"option {Text.quoted key} expects {expected.text}"
  | invalidDimension flaw => s!"invalid dimension: {flaw.text}"
  | unknownKey key => s!"unknown shape key {Text.quoted key}"
  | unsupported operation => s!"operation not supported: {operation.text}"

/-- The dimension with this name, or the fault that there is none. -/
def DimField.parse (name : String) : Except Fault DimField :=
  match DimField.ofName? name with
  | some field => .ok field
  | none => .error (.invalidDimension (.unknownField name))

end StageQp
