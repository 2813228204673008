import TradeTape.Store.Column
import TradeTape.Store.Path

/-
  Trees of files.

  A tree maps places to files and directories; the root is
  always a directory.  A path is followed part by part, and
  leads nowhere where a directory on its way is missing.  Each
  operation fails exactly where a file system turns it down.

  Key definitions include:
    * `FileTree.entry?`
    * `FileTree.locate?`
    * `FileTree.writeFile?`
    * `FileTree.rename?`
    * `FileTree.removeFile`
    * `FileTree.createDirectories`
    * `FileTree.children?`
-/

namespace TradeTape

------------------------------------------------------------
-- Entries
------------------------------------------------------------

/- What a file holds: a text, or the rows of a table. -/
inductive Content where
  | text (t : String)
  | table (rows : List (List Cell))
deriving DecidableEq, Repr

/- What stands at a place. -/
inductive Entry where
  | file (c : Content)
  | directory
deriving DecidableEq, Repr

/- The entries of a tree below its root. -/
structure FileTree where
  entries : List (Place × Entry)
deriving DecidableEq, Repr

namespace FileTree

/- The tree without entries. -/
def empty : FileTree :=
  { entries := [] }

/- What stands at a place. -/
def entry?
    (t : FileTree)
    (p : Place) : Option Entry :=
  if p = Place.root then some .directory
  else (t.entries.find? fun e => e.1 = p).map Prod.snd

/- The tree without what stands at a place. -/
def erase
    (t : FileTree)
    (p : Place) : FileTree :=
  { entries := t.entries.filter fun e => e.1 ≠ p }

/- The tree in which an entry stands at a place. -/
def set
    (t : FileTree)
    (p : Place)
    (e : Entry) : FileTree :=
  { entries := (t.erase p).entries ++ [(p, e)] }

/- Whether a directory stands at a place. -/
def IsDirectory
    (t : FileTree)
    (p : Place) : Prop :=
  t.entry? p = some .directory

instance (t : FileTree) (p : Place) : Decidable (t.IsDirectory p) := by
  unfold IsDirectory
  infer_instance

/-
  Whether a file can stand at a place: below a directory,
  under a name that an entry can have, and where there is no
  directory.
-/
def HasRoom
    (t : FileTree)
    (p : Place) : Prop :=
  ¬t.IsDirectory p
    ∧ t.IsDirectory p.parent
    ∧ (p.name?.any fun n => decide (Name.Acceptable n)) = true

instance (t : FileTree) (p : Place) : Decidable (t.HasRoom p) := by
  unfold HasRoom
  infer_instance

------------------------------------------------------------
-- Following paths
------------------------------------------------------------

/-
  The place that a part of a path leads to: the same one, the
  one above, or one below, which need not be there.
-/
def step
    (here : Place)
    (part : List Char) : Place :=
  if part = [] ∨ part = ['.'] then here
  else if part = ['.', '.'] then here.parent
  else here.child (String.ofList part)

/- The directory that a part of a path leads to. -/
def enter?
    (t : FileTree)
    (here : Place)
    (part : List Char) : Option Place :=
  let next := step here part
  if t.IsDirectory next then some next else none

/-
  The place that a path leads to.  Something need not be
  there, but the way to it leads through directories.
-/
def locate?
    (t : FileTree)
    (p : Path) : Option Place :=
  if p.Acceptable then
    (p.parts.dropLast.foldlM t.enter? Place.root).map fun here =>
      step here (p.parts.getLastD [])
  else
    none

/- What stands where a path leads to. -/
def entryAt?
    (t : FileTree)
    (p : Path) : Option Entry :=
  (t.locate? p).bind t.entry?

------------------------------------------------------------
-- Files
------------------------------------------------------------

/- The content of the file at a place. -/
def content?
    (t : FileTree)
    (p : Place) : Option Content :=
  match t.entry? p with
  | some (.file c) => some c
  | _ => none

/- The content of the file that a path leads to. -/
def contentAt?
    (t : FileTree)
    (p : Path) : Option Content :=
  (t.locate? p).bind t.content?

/- The tree in which a file is written or written anew. -/
def writeFile?
    (t : FileTree)
    (path : Path)
    (c : Content) : Option FileTree := do
  let p ← t.locate? path
  if t.HasRoom p then some (t.set p (.file c)) else none

/-
  The tree in which a file has moved, in place of the file
  that stood there before.
-/
def rename?
    (t : FileTree)
    (source target : Path) : Option FileTree := do
  let p ← t.locate? source
  let q ← t.locate? target
  let c ← t.content? p
  if t.HasRoom q then some ((t.erase p).set q (.file c)) else none

/- The tree without the file that a path leads to. -/
def removeFile
    (t : FileTree)
    (path : Path) : FileTree :=
  match t.locate? path with
  | some p => if (t.content? p).isSome then t.erase p else t
  | none => t

------------------------------------------------------------
-- Directories
------------------------------------------------------------

/-
  Follows the parts of a path from a place and creates the
  directories that are missing; tells whether it came through.
-/
def createFrom
    (t : FileTree)
    (here : Place) : List (List Char) → Bool × FileTree
  | [] => (true, t)
  | part :: rest =>
      let next := step here part
      match t.entry? next with
      | some .directory => createFrom t next rest
      | some (.file _) => (false, t)
      | none =>
          if (next.name?.any fun n => decide (Name.Acceptable n)) then
            createFrom (t.set next .directory) next rest
          else
            (false, t)

/- Creates a directory and those that lead down to it. -/
def createDirectories
    (t : FileTree)
    (p : Path) : Bool × FileTree :=
  if p.Acceptable then createFrom t Place.root p.parts
  else (false, t)

/- The names and entries of the directory at a path. -/
def children?
    (t : FileTree)
    (path : Path) : Option (List (String × Entry)) := do
  let p ← t.locate? path
  if t.IsDirectory p then
    some
      (t.entries.filterMap fun e =>
        if e.1.parent = p then e.1.name?.map (·, e.2) else none)
  else
    none

end FileTree

end TradeTape
