import TradeTape.Text.Form

/-
  Paths of files and directories.

  A path keeps the text it was built from, and is read part
  by part.  A place is where it leads: the names of the
  directories down to an entry.

  Key definitions include:
    * `Place`
    * `Name.Acceptable`
    * `Path.Acceptable`
    * `Path.parts`
    * `Path.join`
    * `Path.parent`
-/

namespace TradeTape

------------------------------------------------------------
-- Names and places
------------------------------------------------------------

/- The greatest number of bytes of a name. -/
def Name.maxBytes : Nat := 255

/- The names that an entry can have. -/
def Name.Acceptable (name : String) : Prop :=
  name.utf8ByteSize ≤ maxBytes ∧ '\x00' ∉ name.toList

instance (name : String) : Decidable (Name.Acceptable name) := by
  unfold Name.Acceptable
  infer_instance

/-
  The names from the root down to an entry.  Their number is
  kept, so that places of different depth are told apart at
  once.
-/
structure Place where
  depth : Nat
  names : List String
  depth_eq : depth = names.length
deriving DecidableEq, Repr

namespace Place

/- The place with some names. -/
def ofNames (names : List String) : Place :=
  { depth := names.length, names := names, depth_eq := rfl }

/- The place above all others. -/
def root : Place := ofNames []

/- The place with a name below this one. -/
def child
    (p : Place)
    (name : String) : Place :=
  { depth := p.depth + 1
    names := p.names ++ [name]
    depth_eq := by simp [p.depth_eq] }

/- The place above this one, or the root itself. -/
def parent (p : Place) : Place :=
  { depth := p.depth - 1
    names := p.names.dropLast
    depth_eq := by simp [p.depth_eq] }

/- The last name of a place. -/
def name? (p : Place) : Option String :=
  p.names.getLast?

end Place

------------------------------------------------------------
-- Paths
------------------------------------------------------------

/- A path as it is written. -/
structure Path where
  text : String
deriving DecidableEq, Repr

namespace Path

/- The text of an entry below a directory. -/
def joinText
    (base below : List Char) : List Char :=
  if below.head? = some '/' then below
  else if base = [] ∨ base.getLast? = some '/' then base ++ below
  else base ++ '/' :: below

/- The path of an entry below this one. -/
def join
    (p : Path)
    (below : String) : Path :=
  { text := String.ofList (joinText p.text.toList below.toList) }

/- The path with some text after it. -/
def withSuffix
    (p : Path)
    (suffix : String) : Path :=
  { text := p.text ++ suffix }

/-
  The text before the last part of a path, written backward;
  slashes and parts of one dot do not count.
-/
def trimEnd : List Char → List Char
  | '/' :: rest => trimEnd rest
  | ['.'] => ['.']
  | '.' :: '/' :: rest => trimEnd ('/' :: rest)
  | cs => cs

/- The path of the directory that holds an entry. -/
def parent (p : Path) : Path :=
  let above :=
    (trimEnd p.text.toList.reverse).dropWhile fun c => c ≠ '/'
  let bare := trimEnd above
  { text :=
      if above ≠ [] ∧ bare = [] then "/"
      else String.ofList bare.reverse }

/- The parts of a path between its slashes. -/
def parts (p : Path) : List (List Char) :=
  Form.splitAtChar '/' p.text.toList

/- The greatest number of bytes of a path. -/
def maxBytes : Nat := 4095

/- The paths that can lead anywhere. -/
def Acceptable (p : Path) : Prop :=
  p.text.utf8ByteSize ≤ maxBytes ∧ '\x00' ∉ p.text.toList

instance (p : Path) : Decidable p.Acceptable := by
  unfold Acceptable
  infer_instance

end Path

end TradeTape
