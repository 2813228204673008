import TradeTape.Text.Columns
import TradeTape.Text.Emoji
import TradeTape.Text.GraphemeExtend

/-
  The columns that a line of text takes in a terminal.

  Most characters take one or two columns wherever they stand.
  Some join the ones after them: a picture and its tone or its
  selector, pictures that are joined to one, and the ligatures
  of a few scripts.  So a line is read from its end, and what
  has been read tells how the character before it may join.

  Key definitions include:
    * `Width.single`
    * `Width.Follower`
    * `Width.joining?`
    * `Width.step`
    * `Width.columns`
-/

namespace TradeTape

namespace Width

------------------------------------------------------------
-- Single characters
------------------------------------------------------------

/- The characters that are written over others. -/
def Covering (c : Char) : Prop :=
  (CharSet.graphemeExtend.Contains c ∨ CharSet.invisible.Contains c)
    ∧ c.toNat ≠ 0x2d7f

instance (c : Char) : Decidable (Covering c) := by
  unfold Covering
  infer_instance

/- The columns of a character that stands by itself. -/
def single (c : Char) : Nat :=
  if c.toNat ≤ 0xa0 then 1
  else if c.toNat = 0x17d8 then 3
  else if Covering c then 0
  else if CharSet.wide.Contains c then 2
  else 1

/- Whether a character lies between two code points. -/
def Within
    (low high : Nat)
    (c : Char) : Prop :=
  low ≤ c.toNat ∧ c.toNat ≤ high

instance (low high : Nat) (c : Char) : Decidable (Within low high c) := by
  unfold Within
  infer_instance

/- The joiner of zero width. -/
def joiner : Char := Char.ofNat 0x200d

/- The characters of which two spell a flag. -/
def FlagLetter (c : Char) : Prop :=
  Within 0x1f1e6 0x1f1ff c

instance (c : Char) : Decidable (FlagLetter c) := by
  unfold FlagLetter
  infer_instance

/- The tones of skin. -/
def Tone (c : Char) : Prop :=
  Within 0x1f3fb 0x1f3ff c

instance (c : Char) : Decidable (Tone c) := by
  unfold Tone
  infer_instance

/- The Arabic letters of the shape of Alef. -/
def alefs : CharSet :=
  { bounds :=
      [0x622, 0x624, 0x625, 0x626, 0x627, 0x628, 0x671, 0x674,
       0x675, 0x676, 0x773, 0x775, 0x870, 0x883] }

/- The Arabic letters of the shape of Lam. -/
def lams : CharSet :=
  { bounds :=
      [0x644, 0x645, 0x6b5, 0x6b9, 0x76a, 0x76b, 0x8a6, 0x8a7,
       0x8c7, 0x8c8] }

/- The Khmer letters that may be written below another. -/
def subscripts : CharSet :=
  { bounds :=
      [0x1780, 0x1783, 0x1784, 0x1788, 0x1789, 0x178d, 0x178e,
       0x1794, 0x1795, 0x1799, 0x179b, 0x179e, 0x17a0, 0x17a1,
       0x17a2, 0x17a3, 0x17a7, 0x17a8, 0x17ab, 0x17ad, 0x17af,
       0x17b0] }

/- The Tifinagh consonants. -/
def tifinaghs : CharSet :=
  { bounds := [0x2d31, 0x2d66, 0x2d6f, 0x2d70] }

/- The marks that may stand inside a ligature. -/
def ligatureMarks : CharSet :=
  { bounds :=
      [0x34f, 0x350, 0x17b4, 0x17b6, 0x180b, 0x180e, 0x180f,
       0x1810, 0x200d, 0x200e, 0xfe00, 0xfe10, 0xe0100,
       0xe01f0] }

/- The quotation marks that a selector widens. -/
def quotes : CharSet :=
  { bounds := [0x2018, 0x201a, 0x201c, 0x201e] }

------------------------------------------------------------
-- What follows a character
------------------------------------------------------------

/-
  What the text after a place begins with, as far as the
  character before it may join.  The states of a ligature tell
  whether a joiner stands before them.
-/
inductive Follower where
  | plain
  | lineFeed
  | picture
  | tone
  | flagLetter
  | flagLetters
  | joinedPicture
  | joinedKeycap
  | joinedFlagLetter
  | joinedFlagPairs
  | joinedFlagOdd
  | tags (letters digits : Nat)
  | vowelE
  | vowelAi
  | alef (joined : Bool)
  | lamed (joined : Bool)
  | ya (joined : Bool)
  | vowelYa
  | tifinagh (joined : Bool)
  | tifinaghPair
  | toneLetter
  | orkhonI (joined : Bool)
  | subscript
deriving DecidableEq, Repr

/- The states inside of which marks may stand. -/
def Follower.inLigature : Follower → Bool
  | .alef _ | .lamed _ | .ya _ | .vowelYa | .tifinagh _
  | .tifinaghPair | .toneLetter | .orkhonI _ | .subscript => true
  | _ => false

/- The state after a joiner. -/
def Follower.join : Follower → Follower
  | .alef _ => .alef true
  | .lamed _ => .lamed true
  | .ya _ => .ya true
  | .tifinagh _ => .tifinagh true
  | .orkhonI _ => .orkhonI true
  | f => f

/- What a character is to the one before it. -/
def follower (c : Char) : Follower :=
  if c = '\n' then .lineFeed
  else if c.toNat ≤ 0xa0 then .plain
  else if Tone c then .tone
  else if FlagLetter c then .flagLetter
  else if CharSet.emojiPresentation.Contains c then .picture
  else if alefs.Contains c then .alef false
  else if c.toNat = 0x5dc then .lamed false
  else if c.toNat = 0x1a10 then .ya false
  else if tifinaghs.Contains c then .tifinagh false
  else if Within 0xa4fc 0xa4fd c then .toneLetter
  else if c.toNat = 0x10c03 then .orkhonI false
  else if subscripts.Contains c then .subscript
  else if c.toNat = 0x16d67 then .vowelE
  else if c.toNat = 0x16d68 then .vowelAi
  else .plain

------------------------------------------------------------
-- Joining
------------------------------------------------------------

/-
  The marks that leave the joining of Arabic letters as it
  is.
-/
def Transparent (c : Char) : Prop :=
  Covering c ∧ ¬CharSet.unjoining.Contains c

instance (c : Char) : Decidable (Transparent c) := by
  unfold Transparent
  infer_instance

/-
  How a character joins a ligature that follows: the columns
  it adds, which may be negative, and the new state.
-/
def ligature?
    (c : Char) : Follower → Option (Int × Follower)
  | .alef false =>
      if lams.Contains c then some (0, .plain)
      else if Transparent c then some (0, .alef false)
      else none
  | .lamed true =>
      if c.toNat = 0x5d0 then some (0, .plain) else none
  | .ya true =>
      if c.toNat = 0x1a17 then some (0, .vowelYa) else none
  | .vowelYa =>
      if c.toNat = 0x1a15 then some (0, .plain) else none
  | .tifinagh joined =>
      if c.toNat = 0x2d7f then some (1, .tifinaghPair)
      else if joined ∧ tifinaghs.Contains c then some (0, .plain)
      else none
  | .tifinaghPair =>
      if tifinaghs.Contains c then some (-1, .plain) else none
  | .toneLetter =>
      if Within 0xa4f8 0xa4fb c then some (0, .plain) else none
  | .orkhonI true =>
      if c.toNat = 0x10c32 then some (0, .plain) else none
  | .subscript =>
      if c.toNat = 0x17d2 then some (-1, .plain) else none
  | .vowelE =>
      if c.toNat = 0x16d63 ∨ c.toNat = 0x16d69 then some (0, .plain)
      else if c.toNat = 0x16d67 then some (0, .vowelAi)
      else if c.toNat = 0x16d68 then some (1, .vowelE)
      else none
  | .vowelAi =>
      if c.toNat = 0x16d63 then some (0, .plain) else none
  | _ => none

/-
  How a character joins the tags of a flag, of which a number
  of letters and digits have been read.  A flag has three to
  six letters, or three digits first.
-/
def tags?
    (c : Char)
    (letters digits : Nat) : Option (Int × Follower) :=
  if Within 0xe0061 0xe007a c ∧ digits = 0 ∧ letters < 6 then
    some (0, .tags (letters + 1) 0)
  else if Within 0xe0030 0xe0039 c
      ∧ ((digits = 0 ∧ letters ≤ 4) ∨ digits = 1 ∨ digits = 2) then
    some (0, .tags letters (digits + 1))
  else if c.toNat = 0x1f3f4
      ∧ ((digits = 0 ∧ 3 ≤ letters) ∨ digits = 3) then
    some (0, .picture)
  else
    none

/- How a character joins a picture that a joiner precedes. -/
def beforeJoiner?
    (c : Char) : Option (Int × Follower) :=
  if c.toNat = 0x20e3 then some (0, .joinedKeycap)
  else if FlagLetter c then some (1, .joinedFlagLetter)
  else if Tone c then some (0, .tone)
  else if c.toNat = 0xe007f then some (0, .tags 0 0)
  else if CharSet.emojiPresentation.Contains c then
    some (0, .picture)
  else none

/-
  How a character joins a picture that follows.  Letters of
  flags pair up from the end where a joiner follows them.
-/
def picture?
    (c : Char)
    (f : Follower) : Option (Int × Follower) :=
  let joined :=
    if c = joiner then some ((0 : Int), Follower.joinedPicture)
    else none
  match f with
  | .picture => joined
  | .tone =>
      if CharSet.emojiModifierBase.Contains c then some (0, .picture)
      else joined
  | .flagLetter =>
      if FlagLetter c then some (1, .flagLetters) else none
  | .flagLetters =>
      if FlagLetter c then some (1, .flagLetters) else joined
  | .joinedFlagLetter =>
      if FlagLetter c then some (-1, .joinedFlagPairs) else joined
  | .joinedFlagPairs =>
      if FlagLetter c then some (3, .joinedFlagOdd) else joined
  | .joinedFlagOdd =>
      if FlagLetter c then some (-1, .joinedFlagPairs) else none
  | .joinedPicture => beforeJoiner? c
  | .tags letters digits => tags? c letters digits
  | _ => none

/- How a character joins what follows, if it does. -/
def joining?
    (c : Char)
    (f : Follower) : Option (Int × Follower) :=
  if f = .lineFeed ∧ c = '\r' then some (0, .plain)
  else (ligature? c f).or (picture? c f)

------------------------------------------------------------
-- Selectors
------------------------------------------------------------

/-
  A selector asks for the look of the character before it: as
  text, as a picture, or as a wide quotation mark.
-/
inductive Selector where
  | text
  | picture
  | wideQuote
deriving DecidableEq, Repr

/- The selector that a character is. -/
def selector? (c : Char) : Option Selector :=
  if c.toNat = 0xfe0e then some .text
  else if c.toNat = 0xfe0f then some .picture
  else if c.toNat = 0xfe01 then some .wideQuote
  else none

/- Whether a state outlasts a selector before it. -/
def Selector.keeps
    (s : Selector)
    (f : Follower) : Bool :=
  f.inLigature
    || (s = .picture && (f = .joinedPicture || f = .joinedKeycap))

/- The text after a place: a selector or none, and the rest. -/
structure Ahead where
  selector : Option Selector
  follower : Follower
deriving DecidableEq, Repr

/-
  The columns of a character with a selector that it knows,
  and the new state.
-/
def selected?
    (c : Char)
    (f : Follower) : Selector → Option (Int × Follower)
  | .picture =>
      if CharSet.emojiVariation.Contains c then
        some
          (if f = .joinedPicture ∨ f = .joinedKeycap then 0 else 2,
            .picture)
      else
        none
  | .text =>
      if CharSet.textVariation.Contains c then some (1, .plain)
      else none
  | .wideQuote =>
      if quotes.Contains c then some (2, .plain) else none

------------------------------------------------------------
-- Lines
------------------------------------------------------------

/-
  The columns that a character adds before a text without a
  selector, and the new state.
-/
def addColumns
    (c : Char)
    (f : Follower) : Int × Ahead :=
  let alone := fun (r : Int × Follower) =>
    (r.1, { selector := none, follower := r.2 : Ahead })
  match selector? c with
  | some s =>
      (0,
        { selector := some s
          follower := if s.keeps f then f else .plain })
  | none =>
      if f.inLigature ∧ c = joiner then
        alone (0, f.join)
      else if f.inLigature ∧ ligatureMarks.Contains c then
        alone (0, f)
      else
        alone ((joining? c f).getD ((single c : Int), follower c))

/-
  The columns that a character adds before a text, and the new
  state.  A selector that the character does not know has no
  effect, but parts it from all but a ligature.
-/
def step
    (c : Char)
    (a : Ahead) : Int × Ahead :=
  match a.selector with
  | none => addColumns c a.follower
  | some s =>
      match selected? c a.follower s with
      | some (n, f) => (n, { selector := none, follower := f })
      | none =>
          addColumns c
            (if a.follower.inLigature then a.follower else .plain)

/- The columns of a text and its state, read from its end. -/
def measure : List Char → Int × Ahead
  | [] => (0, { selector := none, follower := .plain })
  | c :: rest =>
      let (n, a) := measure rest
      let (m, a) := step c a
      (m + n, a)

/- The columns that a line takes. -/
def columns (line : List Char) : Nat :=
  (measure line).1.toNat

end Width

end TradeTape
