import StageQp.Fault

/-!
# StageQp.Options.Router

Which module an option key belongs to.  A key that opens with the strategy's
tag and the separator belongs to the strategy, under the name behind the
separator.  Every other well-formed key belongs to the backend and stays whole,
so a backend option may have separators in its name.
-/

namespace StageQp

/-- Where an option goes, and under which name. -/
inductive Route where
  /-- To the condensing strategy, under the name without the tag. -/
  | strategy (name : String)
  /-- To the backend, under the whole key. -/
  | backend (key : String)
deriving DecidableEq, Repr

/-- The routing rule of one solver. -/
structure Router where
  /-- The module tag of the strategy. -/
  strategyTag : String
deriving DecidableEq, Repr

namespace Router

/-- Stands between the module tag and the option name. -/
def separator : Char := '_'

/-- The characters before and behind the first separator, if there is one. -/
def splitFirst? : List Char → Option (List Char × List Char)
  | [] => none
  | c :: cs =>
    if c = separator then some ([], cs)
    else (splitFirst? cs).map fun (tag, name) => (c :: tag, name)

/-- The destination of a key, or what is wrong with it. -/
def route (r : Router) (key : String) : Except Fault Route :=
  let refuse (flaw : OptionFlaw) : Except Fault Route := .error (.invalidOption key flaw)
  if key.isEmpty then refuse .emptyKey
  else
    match splitFirst? key.toList with
    | none => if key = r.strategyTag then refuse .missingOptionName else .ok (.backend key)
    | some ([], _) => refuse .emptyModuleTag
    | some (tag, name) =>
      if String.ofList tag ≠ r.strategyTag then .ok (.backend key)
      else if name.isEmpty then refuse .missingOptionName
      else .ok (.strategy (String.ofList name))

end Router

end StageQp
