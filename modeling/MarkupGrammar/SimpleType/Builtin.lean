import MarkupGrammar.Name.Lexical
import MarkupGrammar.Text.Blank
import MarkupGrammar.Value.Fault

/-! # Built-in simple types

The simple types that every grammar knows. Each has a base, a treatment of white space and a *form*,
which says how literals are read. They are known by their local names, in the schema namespace and
in no namespace. -/

namespace MarkupGrammar

/-- A question about a value that an assertion asks. -/
structure Assertion where
  /-- The assertion. -/
  expression : String
  /-- The type that asserts it. -/
  type : Name
  /-- The literal after the treatment of white space. -/
  lexical : String
  /-- The values that the expression may refer to, by name. -/
  bindings : List (String × Value)
  deriving Repr, Inhabited

/-- What a literal is read with. -/
structure ValueContext where
  /-- The bindings of prefixes; without them prefixes do not count. -/
  bindings? : Option Bindings := none
  /-- What evaluates assertions; without it they do not count. -/
  evaluate? : Option (Assertion → Except String Bool) := none

namespace Builtin

/-- How literals are read. -/
inductive Form where
  | text
  | language
  | name
  | uncolonizedName
  | nameToken
  | boolean
  | decimal
  /-- Whole numbers between bounds. -/
  | integer (minimum? maximum? : Option Int)
  | double
  | date
  | dateTime
  | time
  | uri
  | base64
  | hex
  | qualifiedName
  deriving DecidableEq, Repr, Inhabited

/-- Whether values are atoms or lists of them. -/
inductive Kind where
  | atomic (form : Form)
  /-- Nonempty lists of values of a type, given by name and form. -/
  | listOf (item : String) (form : Form)
  deriving DecidableEq, Repr, Inhabited

end Builtin

/-- A built-in simple type. -/
structure Builtin where
  /-- The local name. -/
  name : String
  /-- The local name of the type that it is derived from. -/
  base? : Option String
  /-- The treatment of white space. -/
  spacing : Spacing
  /-- How literals are read. -/
  kind : Builtin.Kind
  deriving DecidableEq, Repr, Inhabited

namespace Builtin

/-! ## The table -/

/-- A type of atoms with white space collapsed. -/
def atomic (name base : String) (form : Form) : Builtin :=
  ⟨name, some base, .collapse, .atomic form⟩

/-- A type of lists. -/
def list (name item : String) (form : Form) : Builtin :=
  ⟨name, some "anySimpleType", .collapse, .listOf item form⟩

/-- The whole numbers with the given number of bits, one of them for the sign. -/
def signed (bits : Nat) : Form :=
  .integer (some (-Int.pow 2 (bits - 1))) (some (Int.pow 2 (bits - 1) - 1))

/-- The whole numbers from zero with the given number of bits. -/
def unsigned (bits : Nat) : Form := .integer (some 0) (some (Int.pow 2 bits - 1))

/-- All built-in types; bases precede the types derived from them. -/
def all : List Builtin := [
  ⟨"anySimpleType", none, .preserve, .atomic .text⟩,
  ⟨"string", some "anySimpleType", .preserve, .atomic .text⟩,
  ⟨"normalizedString", some "string", .replace, .atomic .text⟩,
  atomic "token" "normalizedString" .text,
  atomic "language" "token" .language,
  atomic "Name" "token" .name,
  atomic "NCName" "Name" .uncolonizedName,
  atomic "ID" "NCName" .uncolonizedName,
  atomic "IDREF" "NCName" .uncolonizedName,
  atomic "ENTITY" "NCName" .uncolonizedName,
  atomic "NMTOKEN" "token" .nameToken,
  list "NMTOKENS" "NMTOKEN" .nameToken,
  list "IDREFS" "IDREF" .uncolonizedName,
  list "ENTITIES" "ENTITY" .uncolonizedName,
  atomic "boolean" "anySimpleType" .boolean,
  atomic "decimal" "anySimpleType" .decimal,
  atomic "integer" "decimal" (.integer none none),
  atomic "nonNegativeInteger" "integer" (.integer (some 0) none),
  atomic "positiveInteger" "nonNegativeInteger" (.integer (some 1) none),
  atomic "nonPositiveInteger" "integer" (.integer none (some 0)),
  atomic "negativeInteger" "nonPositiveInteger" (.integer none (some (-1))),
  atomic "long" "integer" (signed 64),
  atomic "int" "long" (signed 32),
  atomic "short" "int" (signed 16),
  atomic "byte" "short" (signed 8),
  atomic "unsignedLong" "nonNegativeInteger" (unsigned 64),
  atomic "unsignedInt" "unsignedLong" (unsigned 32),
  atomic "unsignedShort" "unsignedInt" (unsigned 16),
  atomic "unsignedByte" "unsignedShort" (unsigned 8),
  atomic "double" "anySimpleType" .double,
  atomic "float" "anySimpleType" .double,
  atomic "date" "anySimpleType" .date,
  atomic "dateTime" "anySimpleType" .dateTime,
  atomic "time" "anySimpleType" .time,
  atomic "anyURI" "anySimpleType" .uri,
  atomic "base64Binary" "anySimpleType" .base64,
  atomic "hexBinary" "anySimpleType" .hex,
  atomic "QName" "anySimpleType" .qualifiedName,
  atomic "NOTATION" "anySimpleType" .qualifiedName]

/-- The built-in type with the given local name. -/
def find? (name : String) : Option Builtin := all.find? (·.name == name)

/-- The built-in type that a name stands for. -/
def ofName? (n : Name) : Option Builtin :=
  if n.space = none ∨ n.space = some schemaSpace then find? n.localPart else none

/-- The expanded name. -/
def expandedName (b : Builtin) : Name := .qualified schemaSpace b.name

/-- Whether values are lists. -/
def isList (b : Builtin) : Bool :=
  match b.kind with
  | .listOf _ _ => true
  | .atomic _ => false

/-- Whether `ancestor` is met on the way from a type to its bases; each step uses up one unit of
fuel. -/
def derivesFromWithin (ancestor : String) : (fuel : Nat) → Builtin → Bool
  | 0, _ => false
  | fuel + 1, b =>
    b.name == ancestor ||
      match b.base?.bind find? with
      | some base => derivesFromWithin ancestor fuel base
      | none => false

/-- Whether the type is `ancestor` or derived from it. -/
def derivesFrom (b : Builtin) (ancestor : String) : Bool :=
  derivesFromWithin ancestor all.length b

/-! ## Reading literals -/

/-- Groups of at most eight letters, in groups after the first also digits, with hyphens between. -/
def isLanguage (s : List Char) : Bool :=
  match Text.pieces (· == '-') s with
  | [] => false
  | first :: rest =>
    let isShort (p : List Char) : Bool := 1 ≤ p.length && p.length ≤ 8
    isShort first && first.all Char.isAlpha && rest.all fun p => isShort p && p.all Char.isAlphanum

/-- Reads a decimal number. -/
def readDecimal (s : String) (reader : Decimal.Reader := Decimal.boundedReader) :
    Except Value.Fault Decimal :=
  if Decimal.isForm s.toList then
    (Decimal.read reader s.toList).mapError fun e => .badDecimal s e
  else .error (.wrongForm s "decimal")

/-- Reads a whole number between bounds. -/
def readInteger (type s : String) (minimum? maximum? : Option Int)
    (reader : Decimal.Reader := Decimal.boundedReader) : Except Value.Fault Decimal := do
  if !Decimal.isWholeForm s.toList then throw (.wrongForm s type)
  let d ← readDecimal s reader
  if let some minimum := minimum? then
    if d.compare (.ofInt minimum) = .lt then throw (.belowMinimum s minimum type)
  if let some maximum := maximum? then
    if d.compare (.ofInt maximum) = .gt then throw (.aboveMaximum s maximum type)
  return d

/-- Reads a floating-point number. -/
def readDouble (s : String) : Except Value.Fault Binary64 :=
  if s = "INF" ∨ s = "+INF" then .ok .infinity
  else if s = "-INF" then .ok .negativeInfinity
  else if s = "NaN" then .ok .nan
  else if !Binary64.isForm s.toList then .error (.wrongForm s "double")
  else match Binary64.read? s.toList with
    | some x => .ok x
    | none => .error (.badDouble s)

/-- Splits off a time zone. -/
def splitZone (s : String) : Except Value.Fault (List Char × Option Int) :=
  (Zone.split s.toList).mapError fun e =>
    match e with
    | .noNumber => .badZone s
    | .outOfRange => .zoneOutOfRange s

/-- Reads a date; it stays where it is observed. -/
def readDate (s : String) : Except Value.Fault Atom := do
  let (literal, zone) ← splitZone s
  let date ← (Calendar.readDate literal).mapError fun e => .badCalendar s "date" e
  return .date date zone

/-- Reads a date and time; with a time zone it is moved to the reference. -/
def readDateTime (s : String) : Except Value.Fault Atom := do
  let (literal, zone) ← splitZone s
  let dateTime ← (Calendar.readDateTime literal).mapError fun e => .badCalendar s "dateTime" e
  match zone with
  | none => return .dateTime dateTime false
  | some offset =>
    match dateTime.minusMinutes? offset with
    | some dateTime => return .dateTime dateTime true
    | none => throw (.dateTimeOutOfRange s)

/-- Reads a time of day; with a time zone it is moved to the reference, past midnight if need be. -/
def readTime (s : String) : Except Value.Fault Atom := do
  let (literal, zone) ← splitZone s
  let time ← (Calendar.readTime literal).mapError fun e => .badCalendar s "time" e
  match zone with
  | none => return .time time false
  | some offset => return .time (time.minusMinutes offset).1 true

/-- Reads a qualified name. Without bindings its prefix does not count. -/
def readName (ctx : ValueContext) (s : String) : Except Value.Fault Name :=
  if !Lexical.isQualified s.toList then .error (.wrongForm s "QName")
  else match ctx.bindings? with
    | some bindings => (bindings.resolve s).mapError .unbound
    | none => .ok (.unqualified (Lexical.splitQualified s).2)

/-- A text that has to be of a lexical class. -/
def readText (type s : String) (isInClass : List Char → Bool) : Except Value.Fault Atom :=
  if isInClass s.toList then .ok (.string s) else .error (.wrongForm s type)

/-- Reads a literal of the given form. The name of the type is for reports. -/
def Form.read (type : String) (ctx : ValueContext) (s : String) (form : Form)
    (reader : Decimal.Reader := Decimal.boundedReader) : Except Value.Fault Atom :=
  match form with
  | text => .ok (.string s)
  | language => if isLanguage s.toList then .ok (.string s) else .error (.notLanguage s)
  | name => readText "Name" s Lexical.isName
  | uncolonizedName => readText type s Lexical.isUncolonized
  | nameToken => readText "NMTOKEN" s Lexical.isNameToken
  | boolean =>
    if s = "true" ∨ s = "1" then .ok (.boolean true)
    else if s = "false" ∨ s = "0" then .ok (.boolean false)
    else .error (.wrongForm s "boolean")
  | decimal => (readDecimal s reader).map .decimal
  | integer minimum? maximum? => (readInteger type s minimum? maximum? reader).map .decimal
  | double => (readDouble s).map .double
  | date => readDate s
  | dateTime => readDateTime s
  | time => readTime s
  | uri =>
    if s.toList.any Text.isBlank then .error (.wrongForm s "anyURI")
    else match Uri.check s.toList with
      | .ok _ => .ok (.uri s)
      | .error e => .error (.badUri s e)
  | base64 => ((Base64.read s.toList).mapError .badBase64).map .binary
  | hex => ((Hex.read s).mapError .badHex).map .binary
  | qualifiedName => (readName ctx s).map .name

/-- Reads a literal after the treatment of white space. -/
def read (b : Builtin) (ctx : ValueContext) (s : String)
    (reader : Decimal.Reader := Decimal.boundedReader) : Except Value.Fault Value :=
  match b.kind with
  | .atomic form => (form.read b.name ctx s reader).map .atom
  | .listOf item form => do
    let items ← (Text.words s).mapM fun word => form.read item ctx word reader
    if items.isEmpty then throw (.emptyList b.name)
    return .list (items.map .atom)

/-- The value of a literal. -/
def validate (b : Builtin) (ctx : ValueContext) (s : String)
    (reader : Decimal.Reader := Decimal.boundedReader) : Except Value.Fault Value :=
  b.read ctx (b.spacing.normalize s) reader

end Builtin

end MarkupGrammar
