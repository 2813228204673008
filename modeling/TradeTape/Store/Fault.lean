import TradeTape.Store.Path

/-
  Why keeping or reading results failed.

  Key definitions include:
    * `StoreFault`
    * `StoreFault.message`
-/

namespace TradeTape

/- The step that failed, and where. -/
inductive StoreFault where
  | createDirectory (p : Path)
  | create (p : Path)
  | move (source target : Path)
  | openFile (p : Path)
  | readDirectory (p : Path)
  | invalidRow (p : Path)
  | invalidTable (p : Path)
deriving DecidableEq, Repr

/- What a person reads about a fault. -/
def StoreFault.message : StoreFault → String
  | .createDirectory p => "Failed to create directory " ++ p.text
  | .create p => "Failed to create " ++ p.text
  | .move p q => "Failed to move " ++ p.text ++ " to " ++ q.text
  | .openFile p => "Failed to open " ++ p.text
  | .readDirectory p => "Failed to read " ++ p.text
  | .invalidRow p => "Invalid row in " ++ p.text
  | .invalidTable p => "Invalid CSV " ++ p.text

end TradeTape
