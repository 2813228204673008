/-
  Records of comma-separated fields.

  A field that holds a comma, a quote or a line break is put
  between quotes, and a quote inside it is written twice.  A
  record without any character is written as two quotes, so
  that it is not taken for a blank line.

  A reader takes a quote at the start of a field as an
  opening one, skips blank lines, and ends a record at either
  character of a line break.

  Key definitions include:
    * `Csv.quoted`
    * `Csv.line`
    * `Csv.render`
    * `Csv.parse`
-/

namespace TradeTape

namespace Csv

------------------------------------------------------------
-- Characters
------------------------------------------------------------

/- A field, as its characters. -/
abbrev Field := List Char

/- The characters that end a record. -/
def IsBreak (c : Char) : Prop :=
  c = '\n' ∨ c = '\r'

instance (c : Char) : Decidable (IsBreak c) := by
  unfold IsBreak
  infer_instance

/- The characters that put a field between quotes. -/
def IsSpecial (c : Char) : Prop :=
  c = ',' ∨ c = '"' ∨ IsBreak c

instance (c : Char) : Decidable (IsSpecial c) := by
  unfold IsSpecial
  infer_instance

------------------------------------------------------------
-- Writing
------------------------------------------------------------

/- The characters of a field with every quote twice. -/
def doubled : Field → List Char
  | [] => []
  | c :: rest =>
      if c = '"' then '"' :: '"' :: doubled rest
      else c :: doubled rest

/- A field as it is written. -/
def quoted (f : Field) : List Char :=
  if f.any fun c => IsSpecial c then '"' :: (doubled f ++ ['"']) else f

/- Fields as they are written, with commas between them. -/
def joined : List Field → List Char
  | [] => []
  | [f] => quoted f
  | f :: rest => quoted f ++ ',' :: joined rest

/- A record as it is written. -/
def line (fields : List Field) : List Char :=
  let text := joined fields
  (if text = [] then ['"', '"'] else text) ++ ['\n']

/- Records as they are written, one after the other. -/
def render (records : List (List Field)) : List Char :=
  records.flatMap line

/- Records of texts as one text. -/
def text (records : List (List String)) : String :=
  String.ofList (render (records.map (·.map String.toList)))

------------------------------------------------------------
-- Reading
------------------------------------------------------------

/- Where a reader stands. -/
inductive Position where
  | record
  | field
  | plain
  | quotes
  | quoteSeen
deriving DecidableEq, Repr

/-
  What a reader has taken of a record: the fields that are
  complete and the characters of the next one, both with the
  last one first.
-/
structure Taken where
  position : Position
  fields : List Field
  current : Field
deriving DecidableEq, Repr

namespace Taken

/- Nothing taken. -/
def start : Taken :=
  { position := .record, fields := [], current := [] }

/- The record that ends here. -/
def close (t : Taken) : List Field :=
  (t.current.reverse :: t.fields).reverse

/- The next field of the same record. -/
def next (t : Taken) : Taken :=
  { position := .field
    fields := t.current.reverse :: t.fields
    current := [] }

/- One more character of the field. -/
def push
    (t : Taken)
    (position : Position)
    (c : Char) : Taken :=
  { t with position := position, current := c :: t.current }

/-
  A character outside of quotes: the end of a record, the
  end of a field or a part of the field.
-/
def outside
    (t : Taken)
    (c : Char) : Option (List Field) × Taken :=
  if IsBreak c then (some t.close, start)
  else if c = ',' then (none, t.next)
  else (none, t.push .plain c)

/- One character, and the record that it ends. -/
def step
    (t : Taken)
    (c : Char) : Option (List Field) × Taken :=
  match t.position with
  | .record =>
      if IsBreak c then (none, t)
      else if c = '"' then (none, { t with position := .quotes })
      else t.outside c
  | .field =>
      if c = '"' then (none, { t with position := .quotes })
      else t.outside c
  | .plain => t.outside c
  | .quotes =>
      if c = '"' then (none, { t with position := .quoteSeen })
      else (none, t.push .quotes c)
  | .quoteSeen =>
      if c = '"' then (none, t.push .quotes c)
      else t.outside c

end Taken

/- The records that the rest of a text completes. -/
def parseFrom (t : Taken) : List Char → List (List Field)
  | [] => if t.position = .record then [] else [t.close]
  | c :: rest =>
      let (done, t) := t.step c
      done.toList ++ parseFrom t rest

/- A text without a mark of its byte order. -/
def unmarked : List Char → List Char
  | '\uFEFF' :: rest => rest
  | cs => cs

/- The records of a text. -/
def parse (cs : List Char) : List (List Field) :=
  parseFrom .start (unmarked cs)

end Csv

end TradeTape
