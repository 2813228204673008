import Std.Time.DateTime.Timestamp
import TradeTape.Command.Action
import TradeTape.Text.Utf8

/-
  The program.

  It reads the files below the directory that a command works
  in, carries the command out over them, writes what changed
  and prints the lines of the ledger.

  Key definitions include:
    * `Command.directory`
    * `FileTree.load`
    * `FileTree.save`
    * `main`
-/

namespace TradeTape

------------------------------------------------------------
-- Directories
------------------------------------------------------------

/- The directory below which a command reads and writes. -/
def Command.directory : Command → Path
  | .fetch s _ => s.scope.baseDirectory
  | .instruments s => s.scope.baseDirectory
  | .consolidate directory => directory

/- The text of a table: one line a row, cells between tabs. -/
def Content.render : Content → String
  | .text t => t
  | .table rows =>
      let shown := fun
        | Cell.null => ""
        | Cell.int n => toString n
        | Cell.double encoding => Binary64.hex encoding
        | Cell.text t => t
      String.join
        (rows.map fun row =>
          "\t".intercalate (row.map shown) ++ "\n")

namespace FileTree

/- The path of a place below that of a directory. -/
def pathBelow
    (directory : Path)
    (here p : Place) : Path :=
  (p.names.drop here.depth).foldl Path.join directory

/- The entries of a directory and of those below it. -/
partial def load
    (path : Path)
    (t : FileTree) : IO FileTree := do
  let mut t := (t.createDirectories path).2
  for e in ← (← IO.FS.realPath path.text).readDir do
    let below := path.join e.fileName
    if ← e.path.isDir then
      t ← load below t
    else
      let bytes ← IO.FS.readBinFile e.path
      let text := String.ofList (Utf8.lossy bytes.toList)
      t := (t.writeFile? below (.text text)).getD t
  return t

/- Makes the files below a directory those of a tree. -/
def save
    (directory : Path)
    (before after : FileTree) : IO Unit := do
  let some here := after.locate? directory | return
  for e in after.entries do
    if here.names.isPrefixOf e.1.names
        && before.entry? e.1 != some e.2 then
      let path := (pathBelow directory here e.1).text
      match e.2 with
      | .directory => IO.FS.createDirAll path
      | .file c => IO.FS.writeFile path c.render
  for e in before.entries do
    if after.entry? e.1 == none then
      IO.FS.removeFile (pathBelow directory here e.1).text

end FileTree

------------------------------------------------------------
-- Commands
------------------------------------------------------------

/-
  Carries out a command.  No server can be reached: what asks
  one for anything fails as an unanswered request does.
-/
def Command.perform (c : Command) : IO UInt32 := do
  let directory := c.directory
  let before ←
    try FileTree.load directory .empty
    catch _ => pure .empty
  let environment ← IO.getEnv Deribit.urlVariable
  let now := (← Std.Time.Timestamp.now).toMillisecondsSinceUnixEpoch
  let wire := Deribit.Wire.unreachable "no server can be reached"
  let causes : FileTree.Causes := fun _ _ => "not possible here"
  let (result, l) :=
    c.run wire causes environment now.val (Ledger.start () before)
  FileTree.save directory before l.files
  for line in l.lines do
    IO.println line
  match result with
  | .ok _ => return 0
  | .error .crashed => return 101
  | .error f =>
      IO.eprintln ("Error: " ++ f.report (causes before))
      return 1

/- The ways to call the program. -/
def usage : String :=
  "Usage: tapefill [-v] fetch --currency <CURRENCY> [OPTIONS]\n"
    ++ "       tapefill [-v] instruments --currency <CURRENCY> [OPTIONS]\n"
    ++ "       tapefill [-v] consolidate <DIR>"

/- Says why a line is not carried out. -/
def LineFault.report (f : LineFault) : IO UInt32 := do
  match f with
  | .help =>
      IO.println usage
      return 0
  | .version =>
      IO.println ("tapefill " ++ TradeTape.version)
      return 0
  | f =>
      IO.eprintln ("error: " ++ f.message)
      IO.eprintln usage
      return 2

end TradeTape

/- Carries out the command of a line. -/
def main (words : List String) : IO UInt32 :=
  match TradeTape.CommandLine.parse words with
  | .ok line => line.command.perform
  | .error f => f.report
