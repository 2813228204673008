/-
  Types whose few values are known by name.

  A name is matched exactly in documents and without regard
  to the case of ASCII letters where a person types it.

  Key definitions include:
    * `Named`
    * `Named.ofName?`
    * `Named.ofAnyCase?`
-/

namespace TradeTape

/- A type that lists its values and names them. -/
class Named (α : Type) where
  all : List α
  name : α → String

namespace Named

variable {α : Type} [Named α]

/- The letters of a text with ASCII capitals lowered. -/
def lowerAscii (text : String) : List Char :=
  text.toList.map Char.toLower

/- The value of exactly this name. -/
def ofName? (text : String) : Option α :=
  (all : List α).find? fun a => name a = text

/- The value of this name in whatever case. -/
def ofAnyCase? (text : String) : Option α :=
  (all : List α).find? fun a =>
    lowerAscii (name a) = lowerAscii text

end Named

end TradeTape
