/-!
# StageQp.Text.Labelled

The text of structured values: lists in brackets, records with a name and
labelled fields in braces.
-/

namespace StageQp.Text

/-- The items with a comma and a blank between neighbours. -/
def commaSeparated (items : List String) : String := ", ".intercalate items

def bracketed (items : List String) : String := "[" ++ commaSeparated items ++ "]"

/-- A record: its name, then each field with its label, in braces. -/
def labelled (name : String) (fields : List (String × String)) : String :=
  name ++ " \x7b " ++ commaSeparated (fields.map fun (label, text) => label ++ ": " ++ text)
    ++ " \x7d"

/-- A name applied to one text, in parentheses. -/
def applied (name text : String) : String := name ++ "(" ++ text ++ ")"

def truth (b : Bool) : String := if b then "true" else "false"

end StageQp.Text
