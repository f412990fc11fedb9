import Waitress.Python

/-!
# Adjustments

The tunable parameters that the modelled functions read, with their defaults.
Integers are not checked, so any integer may be configured.
-/

namespace Waitress

/-- Leading slashes become one slash, trailing slashes are stripped. -/
def slashFixedStr (s : Str) : Str :=
  let s := Str.strip s
  if s = [] then s else '/' :: Str.rstripChars ['/'] (Str.lstripChars ['/'] s)

structure Adjustments where
  urlScheme : Str := "http".toList
  ident : Option Str := some "waitress".toList
  sendBytes : Int := 1
  outbufOverflow : Int := 1048576
  outbufHighWatermark : Int := 16777216
  inbufOverflow : Int := 524288
  logSocketErrors : Bool := true
  maxRequestHeaderSize : Int := 262144
  maxRequestBodySize : Int := 1073741824
  exposeTracebacks : Bool := false
  channelRequestLookahead : Int := 0
  urlPrefix : Str := []
  deriving DecidableEq, Repr

end Waitress
