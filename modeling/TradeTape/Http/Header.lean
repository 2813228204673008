/-
  Header fields of requests.

  Key definitions include:
    * `Http.Header`
    * `Http.Header.problem?`
-/

namespace TradeTape

namespace Http

/- A header field. -/
structure Header where
  name : String
  value : String
deriving DecidableEq, Repr

namespace Header

/- The characters of which a name is made. -/
def isNameChar (c : Char) : Bool :=
  ('a' ≤ c && c ≤ 'z') || ('A' ≤ c && c ≤ 'Z')
    || ('0' ≤ c && c ≤ '9')
    || "!#$%&'*+-.^_\x60|~".toList.contains c

/- A name: not empty, and of the characters of a name. -/
def NameOk (name : String) : Prop :=
  name ≠ "" ∧ name.toList.all isNameChar = true

instance (name : String) : Decidable (NameOk name) := by
  unfold NameOk
  infer_instance

/- The characters that a value may hold. -/
def isValueChar (c : Char) : Bool :=
  c == '\t' || (32 ≤ c.toNat && c.toNat != 127)

/- A value: without control characters except the tabulator. -/
def ValueOk (value : String) : Prop :=
  value.toList.all isValueChar = true

instance (value : String) : Decidable (ValueOk value) := by
  unfold ValueOk
  infer_instance

/- What is wrong with a header field. -/
def problem? (h : Header) : Option String :=
  if ¬NameOk h.name then
    some s!"header '{h.name}': invalid HTTP header name"
  else if ¬ValueOk h.value then
    some s!"header '{h.name}': failed to parse header value"
  else
    none

end Header

end Http

end TradeTape
