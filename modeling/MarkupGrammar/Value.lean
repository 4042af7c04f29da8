import MarkupGrammar.Name
import MarkupGrammar.Value.Binary64
import MarkupGrammar.Value.Calendar

/-! # Typed values

The values of the simple types. A value is an *atom* of one of the primitive spaces, or a list of
values. Values of different spaces differ, and are not ordered relative to each other; numbers and
points in time are ordered within their space. A date or time without a time zone is not ordered
relative to one with a time zone. -/

namespace MarkupGrammar

/-- A value that is no list. -/
inductive Atom where
  | string (s : String)
  | boolean (b : Bool)
  | decimal (d : Decimal)
  | double (x : Binary64)
  /-- A date where it is observed, with the distance of its zone from the reference in minutes. -/
  | date (d : Date) (zone : Option Int)
  /-- A date and time, at the reference if it has a zone. -/
  | dateTime (d : DateTime) (zoned : Bool)
  /-- A time of day, at the reference if it has a zone. -/
  | time (t : TimeOfDay) (zoned : Bool)
  | binary (bytes : List UInt8)
  | uri (s : String)
  | name (n : Name)
  deriving DecidableEq, Repr, Inhabited

namespace Atom

/-- The order of two values, if they are in one ordered space. -/
def compare? : Atom → Atom → Option Ordering
  | decimal a, decimal b => some (a.compare b)
  | double a, double b => a.compare? b
  | date a za, date b zb => if za.isSome = zb.isSome then some (a.compare b) else none
  | dateTime a za, dateTime b zb => if za = zb then some (a.compare b) else none
  | time a za, time b zb => if za = zb then some (a.compare b) else none
  | _, _ => none

/-- The length, for values that have one: characters of a text, bytes of a binary value. -/
def length? : Atom → Option Nat
  | string s | uri s => some s.length
  | binary bytes => some bytes.length
  | _ => none

/-- The written form. -/
def text : Atom → String
  | string s | uri s => s
  | boolean b => if b then "true" else "false"
  | decimal d => d.text
  | double x => x.text
  | date d _ => d.text
  | dateTime d _ => d.text
  | time t _ => t.text
  | binary bytes => s!"[{bytes.length} bytes]"
  | name n => n.text

end Atom

/-- A typed value. -/
inductive Value where
  | atom (a : Atom)
  | list (items : List Value)
  deriving Repr, Inhabited

namespace Value

mutual
/-- Equality is decided by comparing parts. -/
def decEq : (v w : Value) → Decidable (v = w)
  | .atom a, .atom b =>
    if h : a = b then isTrue (by rw [h]) else isFalse (by intro e; cases e; exact h rfl)
  | .list vs, .list ws =>
    match decEqItems vs ws with
    | isTrue h => isTrue (by rw [h])
    | isFalse h => isFalse (by intro e; cases e; exact h rfl)
  | .atom _, .list _ => isFalse (by intro e; cases e)
  | .list _, .atom _ => isFalse (by intro e; cases e)

/-- Equality of lists of values is decided item by item. -/
def decEqItems : (vs ws : List Value) → Decidable (vs = ws)
  | [], [] => isTrue rfl
  | [], _ :: _ => isFalse (by intro e; cases e)
  | _ :: _, [] => isFalse (by intro e; cases e)
  | v :: vs, w :: ws =>
    match decEq v w, decEqItems vs ws with
    | isTrue h, isTrue hs => isTrue (by rw [h, hs])
    | isFalse h, _ => isFalse (by intro e; cases e; exact h rfl)
    | _, isFalse hs => isFalse (by intro e; cases e; exact hs rfl)
end

instance : DecidableEq Value := decEq

/-- A text as a value. -/
def string (s : String) : Value := .atom (.string s)

/-- The order of two values, if they are in one ordered space; lists are not ordered. -/
def compare? : Value → Value → Option Ordering
  | .atom a, .atom b => a.compare? b
  | _, _ => none

/-- The length: items of a list, or as for atoms. -/
def length? : Value → Option Nat
  | .atom a => a.length?
  | .list items => some items.length

mutual
/-- The written form; the items of a list are separated by spaces. -/
def text : Value → String
  | .atom a => a.text
  | .list items => Text.joined " " (itemTexts items)

/-- The written forms of several values. -/
def itemTexts : List Value → List String
  | [] => []
  | v :: vs => v.text :: itemTexts vs
end

end Value

end MarkupGrammar
