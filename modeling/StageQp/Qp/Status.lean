/-!
# StageQp.Qp.Status

The verdict of a solve.  Every verdict is an answer and none a fault: the
caller decides whether to trust what was written.
-/

namespace StageQp

/-- The verdict of a solve. -/
inductive Status where
  | success
  | nanDetected
  | maxIter
  | minStep
  | qpFailure
  | ready
  | unbounded
deriving DecidableEq, Repr

namespace Status

def all : List Status := [success, nanDetected, maxIter, minStep, qpFailure, ready, unbounded]

def code : Status → Int
  | success => 0
  | nanDetected => 1
  | maxIter => 2
  | minStep => 3
  | qpFailure => 4
  | ready => 5
  | unbounded => 6

def ofCode? (code : Int) : Option Status := all.find? fun status => status.code == code

/-- Whether the solve did what was asked. -/
def isSuccess (s : Status) : Bool := s == success

def text : Status → String
  | success => "Success"
  | nanDetected => "NaN detected"
  | maxIter => "MaxIter"
  | minStep => "MinStep"
  | qpFailure => "QP failure"
  | ready => "Ready"
  | unbounded => "Unbounded"

end Status

end StageQp
