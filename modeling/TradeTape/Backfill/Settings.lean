import TradeTape.Json.Decode
import TradeTape.Json.Printer
import TradeTape.Text.Named

/-
  The settings of a run and the checks on them.

  Key definitions include:
    * `Pagination`
    * `Boundary`
    * `Partitioning`
    * `Settings`
    * `Settings.problem?`
-/

namespace TradeTape

------------------------------------------------------------
-- Choices
------------------------------------------------------------

/- The space in which windows are planned and walked. -/
inductive Pagination where
  | time
  | sequence
deriving DecidableEq, Repr

instance : Named Pagination where
  all := [.time, .sequence]
  name
    | .time => "time"
    | .sequence => "sequence"

/-
  Where the next page ends after a full page of instants: at
  the oldest instant seen, or one millisecond before it.
-/
inductive Boundary where
  | inclusive
  | exclusive
deriving DecidableEq, Repr

instance : Named Boundary where
  all := [.inclusive, .exclusive]
  name
    | .inclusive => "inclusive"
    | .exclusive => "exclusive"

/- Which trades are kept together. -/
inductive Partitioning where
  | perInstrument
  | perWindow
deriving DecidableEq, Repr

instance : Named Partitioning where
  all := [.perInstrument, .perWindow]
  name
    | .perInstrument => "per_instrument"
    | .perWindow => "per_window"

------------------------------------------------------------
-- Settings
------------------------------------------------------------

/- The greatest page that a venue serves. -/
def maxPageSize : Nat := 10000

/- The settings of a run. -/
structure Settings where
  pageSize : Nat
  chunkMs : Option Int
  pagination : Pagination
  boundary : Boundary
  partitioning : Partitioning
  maxInFlight : Nat
  maxInstruments : Nat
  maxWindows : Nat
  taskTimeoutMs : Option Nat
  maxPages : Nat
deriving DecidableEq, Repr

namespace Settings

/- The settings of a run that asks for nothing special. -/
def standard : Settings :=
  { pageSize := maxPageSize
    chunkMs := none
    pagination := .time
    boundary := .inclusive
    partitioning := .perInstrument
    maxInFlight := 200
    maxInstruments := 20
    maxWindows := 10
    taskTimeoutMs := some 1800000
    maxPages := 100000 }

/- The number of trades that one window of numbers spans. -/
def seqSpan (s : Settings) : Int :=
  if (s.pageSize : Int) ≤ Word.int64Max then s.pageSize
  else (s.pageSize : Int) - UInt64.size

------------------------------------------------------------
-- Checks
------------------------------------------------------------

/- What is wrong with settings. -/
inductive Problem where
  | notPositive (field : String)
  | pageSizeTooLarge (size : Nat)
  | fanOutExceedsBudget (instruments windows inFlight : Nat)
deriving DecidableEq, Repr

/- What a person reads about a problem. -/
def Problem.message : Problem → String
  | .notPositive field => s!"'{field}' must be positive"
  | .pageSizeTooLarge size =>
      s!"page_size {size} exceeds the venue maximum of {maxPageSize}"
  | .fanOutExceedsBudget i w g =>
      s!"max_instruments ({i}) * max_windows_per_instrument ({w})"
        ++ s!" exceeds max_in_flight ({g})"

/- The first problem of settings, in the order of the checks. -/
def problem? (s : Settings) : Option Problem :=
  if s.pageSize = 0 then some (.notPositive "page_size")
  else if maxPageSize < s.pageSize then
    some (.pageSizeTooLarge s.pageSize)
  else if s.chunkMs.any (· ≤ 0) then
    some (.notPositive "chunk_ms")
  else if s.maxInFlight = 0 then
    some (.notPositive "max_in_flight")
  else if s.maxInstruments = 0 then
    some (.notPositive "max_instruments")
  else if s.maxWindows = 0 then
    some (.notPositive "max_windows_per_instrument")
  else if s.taskTimeoutMs = some 0 then
    some (.notPositive "task_timeout_ms")
  else if s.maxPages = 0 then
    some (.notPositive "max_pages_per_window")
  else if s.maxInFlight
      < Word.mulSat s.maxInstruments s.maxWindows then
    some
      (.fanOutExceedsBudget s.maxInstruments s.maxWindows
        s.maxInFlight)
  else
    none

/- The settings with which a run may start. -/
def Valid (s : Settings) : Prop :=
  s.problem? = none

instance (s : Settings) : Decidable s.Valid := by
  unfold Valid
  infer_instance

------------------------------------------------------------
-- Documents
------------------------------------------------------------

/- The names of the settings, in order. -/
def fieldNames : List String :=
  ["page_size", "chunk_ms", "pagination", "boundary",
    "partitioning", "max_in_flight", "max_instruments",
    "max_windows_per_instrument", "task_timeout_ms",
    "max_pages_per_window"]

/- Settings from a document; what it leaves out is standard. -/
def ofDoc? (d : Json.Doc) : Option Settings := do
  let base := standard
  match ← d.slots? fieldNames with
  | [pageSize, chunkMs, pagination, boundary, partitioning,
      maxInFlight, maxInstruments, maxWindows, taskTimeoutMs,
      maxPages] => do
      let count := Json.Doc.nat64?
      let pageSize ← pageSize.withDefault base.pageSize count
      let chunkMs ←
        chunkMs.withDefault base.chunkMs
          (Json.Doc.orNull? Json.Doc.int64?)
      let pagination ←
        pagination.withDefault base.pagination Json.Doc.named?
      let boundary ←
        boundary.withDefault base.boundary Json.Doc.named?
      let partitioning ←
        partitioning.withDefault base.partitioning Json.Doc.named?
      let maxInFlight ←
        maxInFlight.withDefault base.maxInFlight count
      let maxInstruments ←
        maxInstruments.withDefault base.maxInstruments count
      let maxWindows ← maxWindows.withDefault base.maxWindows count
      let taskTimeoutMs ←
        taskTimeoutMs.withDefault base.taskTimeoutMs
          (Json.Doc.orNull? count)
      let maxPages ← maxPages.withDefault base.maxPages count
      some
        { pageSize := pageSize
          chunkMs := chunkMs
          pagination := pagination
          boundary := boundary
          partitioning := partitioning
          maxInFlight := maxInFlight
          maxInstruments := maxInstruments
          maxWindows := maxWindows
          taskTimeoutMs := taskTimeoutMs
          maxPages := maxPages }
  | _ => none

/- Settings as a JSON value. -/
def toValue (s : Settings) : Json.Value :=
  let count := fun (n : Nat) => Json.Value.int n
  .object
    (fieldNames.zip
      [count s.pageSize, s.chunkMs.elim .null .int,
        .string (Named.name s.pagination),
        .string (Named.name s.boundary),
        .string (Named.name s.partitioning), count s.maxInFlight,
        count s.maxInstruments, count s.maxWindows,
        s.taskTimeoutMs.elim .null count, count s.maxPages])

end Settings

end TradeTape
