import TradeTape.Command.Options
import TradeTape.Deribit.Client
import TradeTape.Text.Environment

/-
  Markets: what lists instruments and serves their trades.

  Key definitions include:
    * `Market`
    * `Market.ofClient`
    * `Scope.client?`
-/

namespace TradeTape

/-
  A market: the instruments of a kind and a state of expiry,
  and the venue that serves the trades of those in a state.
-/
structure Market (σ : Type) where
  listing :
    InstrumentKind → Bool → σ →
      Except Deribit.ApiFault (List Deribit.ListedInstrument) × σ
  venue : Bool → Venue σ

/-
  The market that a client speaks to.  Trades of expired
  instruments are old ones, which have to be asked for.
-/
def Market.ofClient
    {σ : Type}
    (c : Deribit.Client)
    (w : Deribit.Wire σ)
    (currency : Deribit.Currency) : Market σ :=
  { listing := fun kind expired s =>
      let answer := c.instruments w currency kind expired s
      (answer.result, answer.state)
    venue := fun expired =>
      Deribit.Client.venue { c with includeOld := expired } w }

/-
  The client of a scope, at the address that it or else the
  environment names.
-/
def Scope.client?
    (s : Scope)
    (environment : Option String) :
    Except Deribit.ApiFault Deribit.Client :=
  Deribit.Client.make?
    (Environment.optional s.baseUrl environment) s.timeoutSecs
    { RetryPolicy.standard with maxRetries := s.maxRetries }

end TradeTape
