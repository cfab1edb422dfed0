import OnvifSdk.Gsoap.Context
import OnvifSdk.Lib.Decimal
import OnvifSdk.Lib.Utf8

namespace OnvifSdk.Gsoap

open OnvifSdk.Lib

section Output

end Output

section Input

def eof : ℤ := -1
/-- The input that is left, and what `soap_unget` has put back in front of it. -/
structure Source where
  input : List UInt8
  ahead : ℤ := 0
  cdata : Bool := false
  latin : Bool := false
  deriving DecidableEq

/-- Either a step ends the function with a character, or it goes on with one. -/
inductive Turn
  | done (c : ℤ) (src : Source)
  | more (c : ℤ) (src : Source)

end Input

end OnvifSdk.Gsoap
