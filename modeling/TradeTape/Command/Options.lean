import TradeTape.Backfill.Settings
import TradeTape.Command.Line
import TradeTape.Deribit.Market
import TradeTape.Number.Word
import TradeTape.Store.Path
import TradeTape.Text.Digits

/-
  The commands and their options.

  Key definitions include:
    * `Selection`
    * `FetchRules`
    * `Command`
    * `CommandLine.parse`
-/

namespace TradeTape

------------------------------------------------------------
-- Choices
------------------------------------------------------------

/- The kinds of instrument that are asked for. -/
inductive KindChoice where
  | option
  | future
  | all
deriving DecidableEq, Repr

instance : Named KindChoice where
  all := [.option, .future, .all]
  name
    | .option => "option"
    | .future => "future"
    | .all => "all"

/- The kinds of a choice, in the order of work. -/
def KindChoice.kinds : KindChoice → List InstrumentKind
  | .option => [.option]
  | .future => [.future]
  | .all => [.option, .future]

/- The states of expiry that are asked for. -/
inductive ExpiryChoice where
  | expired
  | active
  | all
deriving DecidableEq, Repr

instance : Named ExpiryChoice where
  all := [.expired, .active, .all]
  name
    | .expired => "true"
    | .active => "false"
    | .all => "all"

/- The states of a choice; expired instruments come first. -/
def ExpiryChoice.states : ExpiryChoice → List Bool
  | .expired => [true]
  | .active => [false]
  | .all => [true, false]

------------------------------------------------------------
-- Options
------------------------------------------------------------

/- Which instruments to ask for, where, and how often. -/
structure Scope where
  kinds : KindChoice
  expiry : ExpiryChoice
  baseDirectory : Path
  baseUrl : Option String
  timeoutSecs : Option Nat
  maxRetries : Nat
deriving DecidableEq, Repr

/- The scope without any option. -/
def Scope.standard : Scope :=
  { kinds := .option
    expiry := .expired
    baseDirectory := { text := "./data" }
    baseUrl := none
    timeoutSecs := none
    maxRetries := 4 }

/- A scope for a currency. -/
structure Selection where
  currency : Deribit.Currency
  scope : Scope
deriving DecidableEq, Repr

/- How trades are fetched. -/
structure FetchRules where
  pagination : Pagination
  boundary : Boundary
  windowHours : Option Nat
  perWindow : Bool
  pageSize : Option Nat
  maxInFlight : Nat
  maxInstruments : Option Nat
  maxWindows : Option Nat
  taskTimeoutSecs : Option Nat
  saveTable : Bool
deriving DecidableEq, Repr

/- The rules without any option. -/
def FetchRules.standard : FetchRules :=
  { pagination := .time
    boundary := .inclusive
    windowHours := none
    perWindow := false
    pageSize := none
    maxInFlight := 200
    maxInstruments := none
    maxWindows := none
    taskTimeoutSecs := none
    saveTable := false }

/- What is to be done. -/
inductive Command where
  | fetch (selection : Selection) (rules : FetchRules)
  | instruments (selection : Selection)
  | consolidate (directory : Path)
deriving DecidableEq, Repr

/- A command, and whether its progress is shown. -/
structure CommandLine where
  command : Command
  verbose : Bool
deriving DecidableEq, Repr

------------------------------------------------------------
-- Values
------------------------------------------------------------

namespace Assign

variable {σ α : Type}

/- A value that is read, or a fault. -/
def reading
    (fault : LineFault)
    (read : String → Option α)
    (change : α → σ → σ) : Assign σ :=
  fun text =>
    match read text with
    | some a => .ok (change a)
    | none => .error fault

/- A name in any case of letters. -/
def named
    [Named α]
    (change : α → σ → σ) : Assign σ :=
  reading .valueValidation Named.ofAnyCase? change

/- A name as it is spelled. -/
def spelled
    [Named α]
    (change : α → σ → σ) : Assign σ :=
  reading .invalidValue Named.ofName? change

/- A word of 32 bits, whose zero may carry a minus sign. -/
def word32 (change : Nat → σ → σ) : Assign σ :=
  reading .valueValidation
    (fun text => do
      let n ← Digits.int? text.toList
      if 0 ≤ n ∧ n ≤ Word.uint32Max then some n.toNat else none)
    change

/- A word of 64 bits. -/
def word64 (change : Nat → σ → σ) : Assign σ :=
  reading .valueValidation
    (fun text => do
      let n ← Digits.signedNat? text.toList
      if n ≤ Word.uint64Max then some n else none)
    change

/- A path, which is not empty. -/
def path (change : Path → σ → σ) : Assign σ :=
  reading .invalidValue
    (fun text => if text = "" then none else some { text := text })
    change

/- Any text. -/
def text (change : String → σ → σ) : Assign σ :=
  fun t => .ok (change t)

end Assign

------------------------------------------------------------
-- Grammars
------------------------------------------------------------

/- What is known of a command while its line is read. -/
structure Draft where
  verbose : Bool
  currency : Option Deribit.Currency
  scope : Scope
  rules : FetchRules
  directory : Option Path
deriving DecidableEq, Repr

namespace Draft

/- Nothing known but what the line before said. -/
def start (verbose : Bool) : Draft :=
  { verbose := verbose
    currency := none
    scope := .standard
    rules := .standard
    directory := none }

/- An option that changes the scope. -/
def inScope
    {α : Type}
    (change : α → Scope → Scope)
    (a : α)
    (d : Draft) : Draft :=
  { d with scope := change a d.scope }

/- An option that changes the rules. -/
def inRules
    {α : Type}
    (change : α → FetchRules → FetchRules)
    (a : α)
    (d : Draft) : Draft :=
  { d with rules := change a d.rules }

/- The options of a selection. -/
def selectionOptions : List (String × Assign Draft) :=
  [("currency", Assign.named fun a d => { d with currency := some a }),
    ("kind", Assign.spelled (inScope fun a s => { s with kinds := a })),
    ("expired", Assign.spelled (inScope fun a s => { s with expiry := a })),
    ("base-dir",
      Assign.path (inScope fun a s => { s with baseDirectory := a })),
    ("base-url",
      Assign.text (inScope fun a s => { s with baseUrl := some a })),
    ("timeout-secs",
      Assign.word64 (inScope fun a s => { s with timeoutSecs := some a })),
    ("max-retries",
      Assign.word32 (inScope fun a s => { s with maxRetries := a }))]

/- The options of the rules for fetching. -/
def fetchOptions : List (String × Assign Draft) :=
  [("pagination", Assign.named (inRules fun a r => { r with pagination := a })),
    ("boundary", Assign.named (inRules fun a r => { r with boundary := a })),
    ("window-hours",
      Assign.word32 (inRules fun a r => { r with windowHours := some a })),
    ("page-size",
      Assign.word64 (inRules fun a r => { r with pageSize := some a })),
    ("max-in-flight",
      Assign.word64 (inRules fun a r => { r with maxInFlight := a })),
    ("max-instruments",
      Assign.word64 (inRules fun a r => { r with maxInstruments := some a })),
    ("max-windows",
      Assign.word64 (inRules fun a r => { r with maxWindows := some a })),
    ("task-timeout-secs",
      Assign.word64 (inRules fun a r => { r with taskTimeoutSecs := some a }))]

/- The flags of the rules for fetching. -/
def fetchFlags : List (String × (Draft → Draft)) :=
  [("per-window",
      fun d => { d with rules := { d.rules with perWindow := true } }),
    ("save-parquet",
      fun d => { d with rules := { d.rules with saveTable := true } })]

/- The flag that every line knows. -/
def verboseFlag : String × (Draft → Draft) :=
  ("verbose", fun d => { d with verbose := true })

/- A grammar of flags, options and an operand. -/
def grammar
    (flags : List (String × (Draft → Draft)))
    (options : List (String × Assign Draft))
    (operand? : Option (Assign Draft)) : Grammar Draft :=
  { letter? := fun c =>
      if c = 'v' then some "verbose"
      else if c = 'h' then some "help"
      else none
    stop? := fun name =>
      if name = "help" then some .help else none
    flag? := fun name => (verboseFlag :: flags).lookup name
    option? := fun name => options.lookup name
    operand? := operand? }

/- The grammar of a line before its command. -/
def outerGrammar : Grammar Draft :=
  let g := grammar [] [] none
  { g with
    letter? := fun c =>
      if c = 'V' then some "version" else g.letter? c
    stop? := fun name =>
      if name = "version" then some .version else g.stop? name }

/- The selection of a line, which names a currency. -/
def selection (d : Draft) : Except LineFault Selection :=
  match d.currency with
  | some c => .ok { currency := c, scope := d.scope }
  | none => .error .missingArgument

end Draft

------------------------------------------------------------
-- Lines
------------------------------------------------------------

namespace CommandLine

/- The names of the commands, and of the one for help. -/
def names : List String :=
  ["fetch", "instruments", "consolidate", "help"]

/- Fetching trades. -/
def parseFetch
    (d : Draft)
    (words : List String) : Except LineFault CommandLine := do
  let g :=
    Draft.grammar Draft.fetchFlags
      (Draft.selectionOptions ++ Draft.fetchOptions) none
  let d := (← g.read d words).known
  let selection ← d.selection
  .ok
    { command := .fetch selection d.rules, verbose := d.verbose }

/- Listing instruments. -/
def parseInstruments
    (d : Draft)
    (words : List String) : Except LineFault CommandLine := do
  let g := Draft.grammar [] Draft.selectionOptions none
  let d := (← g.read d words).known
  let selection ← d.selection
  .ok { command := .instruments selection, verbose := d.verbose }

/- Consolidating a directory. -/
def parseConsolidate
    (d : Draft)
    (words : List String) : Except LineFault CommandLine := do
  let operand : Assign Draft :=
    Assign.path fun p d => { d with directory := some p }
  let d := (← (Draft.grammar [] [] (some operand)).read d words).known
  match d.directory with
  | some p => .ok { command := .consolidate p, verbose := d.verbose }
  | none => .error .missingArgument

/- Help, for one command at most. -/
def helpFault : List String → LineFault
  | [] => .help
  | [name] => if name ∈ names then .help else .invalidSubcommand
  | _ => .invalidSubcommand

/- The words before and after the name of the command. -/
def parseFrom
    (r : Reading Draft) :
    List String → Except LineFault CommandLine
  | [] =>
      .error
        (if r.flags = [] then .helpInstead else .missingSubcommand)
  | text :: rest =>
      if r.operandsOnly then
        .error
          (if text ∈ names then .unknownArgument
          else .invalidSubcommand)
      else
        match text with
        | "fetch" => parseFetch r.known rest
        | "instruments" => parseInstruments r.known rest
        | "consolidate" => parseConsolidate r.known rest
        | "help" => .error (helpFault rest)
        | _ =>
            match Argument.ofText text with
            | .plain _ => .error .invalidSubcommand
            | _ => do
                let r ← r.step Draft.outerGrammar text
                parseFrom r rest

/-
  The command line of the words after the program's name.
-/
def parse (words : List String) : Except LineFault CommandLine :=
  parseFrom (.start (.start false)) words

end CommandLine

end TradeTape
