import TradeTape.Text.GraphemeExtend
import TradeTape.Text.Printable

/-
  Texts and records as a log shows them.

  A quoted text stands between quotation marks, and a
  character that a reader could not make out is written by its
  code point.

  Key definitions include:
    * `Quoted.char`
    * `Quoted.text`
    * `Quoted.record`
-/

namespace TradeTape

namespace Quoted

/- Whether a character is written by its code point. -/
def Hidden (c : Char) : Prop :=
  CharSet.graphemeExtend.Contains c ∨ CharSet.unprintable.Contains c

instance (c : Char) : Decidable (Hidden c) := by
  unfold Hidden
  infer_instance

/- A code point in braces, with the digits it needs. -/
def codePoint (c : Char) : List Char :=
  '\\' :: 'u' :: '\x7b' :: Nat.toDigits 16 c.toNat ++ ['\x7d']

/- A character of a quoted text. -/
def char (c : Char) : List Char :=
  if c = '\x00' then ['\\', '0']
  else if c = '\t' then ['\\', 't']
  else if c = '\r' then ['\\', 'r']
  else if c = '\n' then ['\\', 'n']
  else if c = '"' ∨ c = '\\' then ['\\', c]
  else if Hidden c then codePoint c
  else [c]

/- A text between quotation marks. -/
def text (s : String) : String :=
  String.ofList ('"' :: s.toList.flatMap char ++ ['"'])

/- A value that may not be there. -/
def optional : Option String → String
  | none => "None"
  | some s => "Some(" ++ s ++ ")"

/- A record with its name and its members. -/
def record
    (name : String)
    (members : List (String × String)) : String :=
  name ++ " \x7b "
    ++ ", ".intercalate (members.map fun m => m.1 ++ ": " ++ m.2)
    ++ " \x7d"

end Quoted

end TradeTape
