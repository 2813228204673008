/-
  Where the venue is reached and what it allows.

  Key definitions include:
    * `Deribit.historyUrl`
    * `Deribit.maxCount`
    * `Deribit.retryableCodes`
-/

namespace TradeTape

/- The version that a caller of a venue states. -/
def version : String := "0.3.0"

/- How a caller of a venue presents itself. -/
def userAgent : String := "tapefill/" ++ version

namespace Deribit

/- The address under which expired instruments are served. -/
def historyUrl : String := "https://history.deribit.com/api/v2"

/- The variable of the environment that replaces the address. -/
def urlVariable : String := "TAPEFILL_BASE_URL"

/- The greatest number of trades of one answer. -/
def maxCount : Nat := 10000

/- The codes by which the venue asks to try again later. -/
def retryableCodes : List Int := [10028, 10040]

/- The seconds after which a request is given up. -/
def defaultTimeoutSecs : Nat := 60

end Deribit

end TradeTape
