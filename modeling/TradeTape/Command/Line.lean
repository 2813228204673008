import TradeTape.Text.Named

/-
  Reading the words of a command line.

  A word that starts with two dashes names an option or a
  flag, and may carry its value after an equals sign.  A word
  that starts with one dash is a row of flags of one letter.
  Two dashes alone say that all further words are operands.

  The value of an option is looked at when the next word is,
  so that a word which nobody knows is found first.

  Key definitions include:
    * `LineFault`
    * `Argument`
    * `Grammar`
    * `Reading.step`
    * `Grammar.read`
-/

namespace TradeTape

------------------------------------------------------------
-- Faults
------------------------------------------------------------

/- Why a command line is not carried out. -/
inductive LineFault where
  | help
  | helpInstead
  | version
  | unknownArgument
  | invalidSubcommand
  | missingSubcommand
  | missingArgument
  | repeatedArgument
  | surplusValue
  | invalidValue
  | valueValidation
deriving DecidableEq, Repr

/- What a person reads about a fault. -/
def LineFault.message : LineFault → String
  | .help => "help was asked for"
  | .helpInstead => "no command was given"
  | .version => "the version was asked for"
  | .unknownArgument => "unexpected argument"
  | .invalidSubcommand => "unrecognized command"
  | .missingSubcommand => "a command is required"
  | .missingArgument => "a required argument was not given"
  | .repeatedArgument => "an argument was given more than once"
  | .surplusValue => "a flag takes no value"
  | .invalidValue => "an argument has no such value"
  | .valueValidation => "a value cannot be read"

------------------------------------------------------------
-- Words
------------------------------------------------------------

/- A word, by the dashes it starts with. -/
inductive Argument where
  | escape
  | long (name : String) (value : Option String)
  | short (letters : List Char)
  | plain (text : String)
deriving DecidableEq, Repr

/- The word that a text is. -/
def Argument.ofText (text : String) : Argument :=
  match text.toList with
  | ['-', '-'] => .escape
  | '-' :: '-' :: rest =>
      let name := rest.takeWhile (· != '=')
      .long (String.ofList name)
        (match rest.drop name.length with
          | [] => none
          | _ :: value => some (String.ofList value))
  | '-' :: c :: rest => .short (c :: rest)
  | _ => .plain text

------------------------------------------------------------
-- Grammars
------------------------------------------------------------

/- What takes a value: an option by its name, or the operand. -/
inductive Slot where
  | option (name : String)
  | operand
deriving DecidableEq, Repr

/- What a value does to what has been read so far. -/
abbrev Assign (σ : Type) :=
  String → Except LineFault (σ → σ)

/- The flags, options and operands that a command knows. -/
structure Grammar (σ : Type) where
  letter? : Char → Option String
  stop? : String → Option LineFault
  flag? : String → Option (σ → σ)
  option? : String → Option (Assign σ)
  operand? : Option (Assign σ)

/- What takes the value of a slot. -/
def Grammar.slot?
    {σ : Type}
    (g : Grammar σ) : Slot → Option (Assign σ)
  | .option name => g.option? name
  | .operand => g.operand?

/-
  How far a line has been read: what is known, which flags
  and slots were given, the slot whose value is open or not
  yet looked at, and whether only operands follow.
-/
structure Reading (σ : Type) where
  known : σ
  flags : List String
  slots : List Slot
  waiting : Option (Slot × Option String)
  operandsOnly : Bool

namespace Reading

variable {σ : Type}

/- Nothing read. -/
def start (known : σ) : Reading σ :=
  { known := known
    flags := []
    slots := []
    waiting := none
    operandsOnly := false }

/- Gives a value to a slot, which takes only one. -/
def assign
    (g : Grammar σ)
    (r : Reading σ)
    (slot : Slot)
    (value : String) : Except LineFault (Reading σ) :=
  if slot ∈ r.slots then
    .error .repeatedArgument
  else
    match g.slot? slot with
    | none => .error .unknownArgument
    | some assign => do
        let change ← assign value
        .ok
          { r with
            known := change r.known
            slots := slot :: r.slots }

/- Looks at the value that waits; an open slot is a fault. -/
def settle
    (g : Grammar σ)
    (r : Reading σ) : Except LineFault (Reading σ) :=
  match r.waiting with
  | none => .ok r
  | some (_, none) => .error .invalidValue
  | some (slot, some value) =>
      { r with waiting := none }.assign g slot value

/- A flag, or a request to stop. -/
def flag
    (g : Grammar σ)
    (r : Reading σ)
    (name : String) : Except LineFault (Reading σ) :=
  match g.stop? name, g.flag? name with
  | some fault, _ => do
      let _ ← r.settle g
      .error fault
  | none, some change => do
      let r ← r.settle g
      if name ∈ r.flags then
        .error .repeatedArgument
      else
        .ok
          { r with
            known := change r.known
            flags := name :: r.flags }
  | none, none => .error .unknownArgument

/- Flags of one letter. -/
def letters
    (g : Grammar σ)
    (r : Reading σ) : List Char → Except LineFault (Reading σ)
  | [] => .ok r
  | c :: rest =>
      match g.letter? c with
      | none => .error .unknownArgument
      | some name => do
          let r ← r.flag g name
          letters g r rest

/- A name with two dashes and the value it carries. -/
def long
    (g : Grammar σ)
    (r : Reading σ)
    (name : String)
    (value : Option String) : Except LineFault (Reading σ) :=
  match g.option? name, value with
  | some _, some v => do
      let r ← r.settle g
      r.assign g (.option name) v
  | some _, none => do
      let r ← r.settle g
      .ok { r with waiting := some (.option name, none) }
  | none, none => r.flag g name
  | none, some _ =>
      if (g.stop? name).isSome ∨ (g.flag? name).isSome then
        .error .surplusValue
      else
        .error .unknownArgument

/- A word that stands for itself. -/
def operand
    (g : Grammar σ)
    (r : Reading σ)
    (text : String) : Except LineFault (Reading σ) :=
  let known := g.operand?.isSome
  let taken :=
    Slot.operand ∈ r.slots
      ∨ r.waiting.any (fun w => w.1 = .operand) = true
  if known ∧ ¬taken then do
    let r ← r.settle g
    .ok { r with waiting := some (.operand, some text) }
  else
    .error .unknownArgument

/- One more word. -/
def step
    (g : Grammar σ)
    (r : Reading σ)
    (text : String) : Except LineFault (Reading σ) :=
  if r.operandsOnly then
    r.operand g text
  else
    match Argument.ofText text with
    | .escape => .ok { r with operandsOnly := true }
    | .long name value => r.long g name value
    | .short cs => r.letters g cs
    | .plain text =>
        match r.waiting with
        | some (slot, none) =>
            .ok { r with waiting := some (slot, some text) }
        | _ => r.operand g text

/- All further words. -/
def steps
    (g : Grammar σ)
    (r : Reading σ) : List String → Except LineFault (Reading σ)
  | [] => r.settle g
  | text :: rest => do
      let r ← r.step g text
      steps g r rest

end Reading

/- What the words after a command say. -/
def Grammar.read
    {σ : Type}
    (g : Grammar σ)
    (known : σ)
    (words : List String) : Except LineFault (Reading σ) :=
  (Reading.start known).steps g words

end TradeTape
