import MarkupGrammar.Name
import MarkupGrammar.Value
import MarkupGrammar.Value.Binary
import MarkupGrammar.Value.Uri

/-! # Invalid values

Why a text is not the lexical form of a value of a simple type. -/

namespace MarkupGrammar

/-- The sides of an order that a bound cuts off. -/
inductive BoundSide where
  | minInclusive
  | maxInclusive
  | minExclusive
  | maxExclusive
  deriving DecidableEq, Repr, Inhabited

namespace BoundSide

/-- The name of a bound. -/
def text : BoundSide → String
  | minInclusive => "minInclusive"
  | maxInclusive => "maxInclusive"
  | minExclusive => "minExclusive"
  | maxExclusive => "maxExclusive"

/-- Whether a value that compares to the bound like this is within it. -/
def admits : BoundSide → Ordering → Bool
  | minInclusive, o => o != .lt
  | maxInclusive, o => o != .gt
  | minExclusive, o => o == .gt
  | maxExclusive, o => o == .lt

end BoundSide

/-- The ways to bound a length. -/
inductive LengthBound where
  | exactly
  | atLeast
  | atMost
  deriving DecidableEq, Repr, Inhabited

/-- Whether a length is within the bound `n`. -/
def LengthBound.admits (b : LengthBound) (n length : Nat) : Bool :=
  match b with
  | .exactly => length == n
  | .atLeast => n ≤ length
  | .atMost => length ≤ n

/-- Why a text is no value of a type. -/
inductive Value.Fault where
  /-- The text does not have the form of the type. -/
  | wrongForm (value type : String)
  /-- A language tag that is none. -/
  | notLanguage (value : String)
  /-- A decimal number beyond the bounds. -/
  | badDecimal (value : String) (fault : Decimal.Fault)
  /-- A whole number below those of its type. -/
  | belowMinimum (value : String) (minimum : Int) (type : String)
  /-- A whole number above those of its type. -/
  | aboveMaximum (value : String) (maximum : Int) (type : String)
  /-- A floating-point number with digits of another script. -/
  | badDouble (value : String)
  /-- A time zone whose fields are no numbers. -/
  | badZone (value : String)
  /-- A time zone that does not exist. -/
  | zoneOutOfRange (value : String)
  /-- A text that is no date or time. -/
  | badCalendar (value type : String) (fault : Calendar.Fault)
  /-- A point in time that cannot be represented at the reference. -/
  | dateTimeOutOfRange (value : String)
  /-- A resource identifier with a wrong authority. -/
  | badUri (value : String) (fault : Uri.Fault)
  /-- A text that is not in base 64. -/
  | badBase64 (fault : Base64.Fault)
  /-- A text that is not in base 16. -/
  | badHex (fault : Hex.Fault)
  /-- A name with an unbound prefix. -/
  | unbound (u : UnboundPrefix)
  /-- A list without items where the type requires one. -/
  | emptyList (type : String)
  /-- The type is derived from an unknown one. -/
  | unknownBase (base type : Name)
  /-- The value is none of those enumerated. -/
  | notEnumerated (value : String) (type : Name)
  /-- The text matches none of the patterns. -/
  | noMatch (value : String) (patterns : List String)
  /-- The length is not within a bound. -/
  | wrongLength (value : String) (bound : LengthBound) (n : Nat)
  /-- The value is not within a bound. -/
  | outOfBounds (value : String) (side : BoundSide) (bound : Value)
  /-- An assertion does not hold. -/
  | failedAssertion (value expression : String)
  /-- An assertion could not be evaluated. -/
  | unevaluated (expression reason : String)
  deriving Repr, Inhabited, DecidableEq

/-- The report of a fault. -/
def Value.Fault.message : Value.Fault → String
  | wrongForm value type => s!"'{value}' is not a valid {type}"
  | notLanguage value => s!"'{value}' is not a valid language tag"
  | badDecimal value fault => s!"decimal '{value}' out of range: {fault.message}"
  | belowMinimum value minimum type => s!"{value} is below the minimum {minimum} of {type}"
  | aboveMaximum value maximum type => s!"{value} is above the maximum {maximum} of {type}"
  | badDouble value => s!"'{value}' is not a valid double: invalid float literal"
  | badZone value => s!"invalid timezone in '{value}'"
  | zoneOutOfRange value => s!"timezone out of range in '{value}'"
  | badCalendar value type fault => s!"'{value}' is not a valid {type}: {fault.message}"
  | dateTimeOutOfRange value => s!"dateTime '{value}' out of range"
  | badUri value fault => s!"'{value}' is not a valid anyURI: {fault.message}"
  | badBase64 fault => s!"invalid base64Binary value: {fault.message}"
  | badHex fault => fault.message
  | unbound u => u.message
  | emptyList type => s!"{type} value must not be empty"
  | unknownBase base type => s!"base type '{base.text}' of '{type.text}' is unknown"
  | notEnumerated value type => s!"value '{value}' is not in the enumeration of '{type.text}'"
  | noMatch value patterns =>
    let alternatives := Text.joined "|" patterns
    s!"value '{value}' does not match pattern '{alternatives}'"
  | wrongLength value .exactly n => s!"length of '{value}' is not {n}"
  | wrongLength value .atLeast n => s!"length of '{value}' is less than {n}"
  | wrongLength value .atMost n => s!"length of '{value}' is greater than {n}"
  | outOfBounds value side bound => s!"value '{value}' violates {side.text} {bound.text}"
  | failedAssertion value expression => s!"value '{value}' fails assertion '{expression}'"
  | unevaluated expression reason =>
    s!"assertion '{expression}' could not be evaluated: {reason}"

end MarkupGrammar
