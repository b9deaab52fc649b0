import StageQp.Text.Visible

/-!
# StageQp.Text.Quoted

Text in double quotes.  The quote and the backslash stand behind a backslash;
NUL, tab, newline and carriage return have letters; a character that cannot be
shown as it is stands as its code point in hexadecimal, in braces behind `\\u`.
Every other character stands for itself.
-/

namespace StageQp.Text

/-- The letter that names a character behind a backslash, if it has one. -/
def escapeLetter? : Char → Option Char
  | '"' => some '"'
  | '\\' => some '\\'
  | '\x00' => some '0'
  | '\t' => some 't'
  | '\n' => some 'n'
  | '\r' => some 'r'
  | _ => none

/-- A code point in hexadecimal, in braces behind a backslash and a `u`. -/
def codePoint (c : Char) : List Char :=
  '\\' :: 'u' :: '\x7b' :: Nat.toDigits 16 c.toNat ++ ['\x7d']

/-- How a character is written between the quotes. -/
def escaped (c : Char) : List Char :=
  match escapeLetter? c with
  | some letter => ['\\', letter]
  | none => if isVisible c then [c] else codePoint c

/-- The text in double quotes. -/
def quoted (text : String) : String :=
  String.ofList ('"' :: text.toList.flatMap escaped ++ ['"'])

end StageQp.Text
