import TradeTape.Trade.Instrument

/-
  The markets of the venue: what instruments are settled in
  and which kinds of instrument are listed.

  Key definitions include:
    * `Deribit.Currency`
    * `Deribit.Listing`
    * `Deribit.Listing.kind?`
-/

namespace TradeTape

namespace Deribit

/- The currencies whose history is served. -/
inductive Currency where
  | btc
  | eth
  | usdc
  | usdt
deriving DecidableEq, Repr

instance : Named Currency where
  all := [.btc, .eth, .usdc, .usdt]
  name
    | .btc => "BTC"
    | .eth => "ETH"
    | .usdc => "USDC"
    | .usdt => "USDT"

/- The kinds of instrument that the venue lists. -/
inductive Listing where
  | future
  | option
  | spot
  | futureCombo
  | optionCombo
deriving DecidableEq, Repr

instance : Named Listing where
  all := [.future, .option, .spot, .futureCombo, .optionCombo]
  name
    | .future => "future"
    | .option => "option"
    | .spot => "spot"
    | .futureCombo => "future_combo"
    | .optionCombo => "option_combo"

namespace Listing

/- The listing of a kind whose trades are collected. -/
def ofKind : InstrumentKind → Listing
  | .option => .option
  | .future => .future

/- The kind of a listing whose trades are collected. -/
def kind? : Listing → Option InstrumentKind
  | .option => some .option
  | .future => some .future
  | _ => none

/- The message for a listing whose trades are not collected. -/
def unsupportedMessage (l : Listing) : String :=
  s!"unsupported instrument kind '{Named.name l}'"

end Listing

end Deribit

end TradeTape
