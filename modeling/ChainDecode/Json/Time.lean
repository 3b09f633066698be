import ChainDecode.Json.Compare
import ChainDecode.Number.Calendar

/-! # Times in values

A time is a number of seconds. A fraction is rounded to millionths first, so that a time just below
a second may count as that second, and is not shown.
-/
namespace ChainDecode.Json

/-- The whole seconds of a time with a fraction. A half of a millionth is rounded to the even side,
which is up before a second and to zero before zero. -/
def wholeSeconds? (x : Number.Binary64) : Option Int :=
  match x.form with
  | .finite negative mantissa exponent =>
    let size : Int := Number.Binary64.integerPart mantissa exponent
    let whole := if negative then -size else size
    let millionths := x.fraction * 1000000.0
    some (if 999999.5 ≤ millionths then whole + 1
      else if millionths < -0.5 then whole - 1
      else whole)
  | _ => none

def isoTime (v : Json) : Except Fault String :=
  match v with
  | .real x =>
    match (wholeSeconds? x).bind Number.isoText? with
    | some text => .ok text
    | none => .error (.timestampRange x.text)
  | _ =>
    match v.whole? with
    | some seconds => Number.isoTime seconds
    | none => .error .wrongShape

end ChainDecode.Json
