import MarkupGrammar.Value.Domain

/-! # Resource identifiers

Whether a text can be understood as the address of a resource. Only its *authority* can be wrong:
the host and the port after two slashes. Paths, queries and fragments are free.

A text that begins with a scheme is read by the rules of its scheme. The *special* schemes have an
authority even without slashes, and their hosts are domains or network addresses; the hosts of other
schemes are opaque. A text without a scheme is read as relative to an address with the special
scheme `http`; it has an authority only after two slashes. In special schemes a backslash is as good
as a slash. -/

namespace MarkupGrammar.Uri

/-- What is wrong with an authority. -/
inductive Fault where
  | emptyHost
  | badPort
  | badAddress6
  | badAddress4
  | badDomain
  | badHostCharacter
  deriving DecidableEq, Repr, Inhabited

/-- The report of a fault. -/
def Fault.message : Fault → String
  | .emptyHost => "empty host"
  | .badPort => "invalid port number"
  | .badAddress6 => "invalid IPv6 address"
  | .badAddress4 => "invalid IPv4 address"
  | .badDomain => "invalid international domain name"
  | .badHostCharacter => "invalid domain character"

/-! ## Addresses of 128 bits -/

/-- Four numbers up to 255 without leading zeros, with full stops between them; `seen` numbers have
been read. -/
def isEmbedded4 (s : List Char) : Bool :=
  let parts := Text.pieces (· == '.') s
  let isByte (p : List Char) : Bool :=
    p.all Char.isDigit && (p.length == 1 || p.head? != some '0') &&
      (match Text.digits? 10 p with
      | some n => n ≤ 255
      | none => false)
  parts.length == 4 && parts.all isByte

/-- Reads the groups of an address: `count` groups of 16 bits have been read, and a run of zero
groups has been left out already if `compressed`. Each group uses up one unit of fuel. -/
def isGroups : (fuel count : Nat) → (compressed : Bool) → List Char → Bool
  | 0, _, _, _ => false
  | _ + 1, count, compressed, [] => compressed || count == 8
  | fuel + 1, count, compressed, c :: s =>
    if count ≥ 8 then false
    else if c = ':' then !compressed && isGroups fuel (count + 1) true s
    else
      let digits := ((c :: s).take 4).takeWhile fun d => (Text.digitValue? 16 d).isSome
      match (c :: s).drop digits.length with
      | [] => isGroups fuel (count + 1) compressed []
      | '.' :: _ =>
        !digits.isEmpty && count ≤ 6 && isEmbedded4 (c :: s) && (compressed || count == 6)
      | ':' :: rest => !rest.isEmpty && isGroups fuel (count + 1) compressed rest
      | _ => false

/-- Up to eight groups of hexadecimal digits with colons between them, one run of zero groups left
out; the last two groups may be written as four numbers. -/
def isAddress6 (s : List Char) : Bool :=
  match s with
  | ':' :: ':' :: rest => isGroups 10 1 true rest
  | ':' :: _ => false
  | [] | [_] => false
  | s => isGroups 10 0 false s

/-! ## Addresses of 32 bits -/

/-- The value of a number of an address: octal after a zero, hexadecimal after `0x`. The outer
option is absent for what is no number, the inner one for a number of more than 32 bits. -/
def number4? (s : List Char) : Option (Option Nat) :=
  let (radix, digits) := match s with
    | '0' :: 'x' :: r | '0' :: 'X' :: r => (16, r)
    | '0' :: c :: r => (8, c :: r)
    | s => (10, s)
  if s.isEmpty then none
  else if digits.isEmpty then some (some 0)
  else (Text.digits? radix digits).map fun n => if n < Nat.pow 2 32 then some n else none

/-- The labels of a domain, a full stop at its end left out. -/
def labels (s : List Char) : List (List Char) :=
  let parts := Text.pieces (· == '.') s
  if parts.getLast? == some [] then parts.dropLast else parts

/-- Whether a domain is to be read as an address: its last label looks like a number. -/
def endsInNumber (s : List Char) : Bool :=
  match (labels s).getLast? with
  | none => false
  | some last => (!last.isEmpty && last.all Char.isDigit) || (number4? last).isSome

/-- Up to four numbers, each but the last a byte, the last one filling the remaining bytes. -/
def isAddress4 (s : List Char) : Bool :=
  let parts := labels s
  match parts.mapM (fun p => (number4? p).join) with
  | none => false
  | some numbers =>
    parts.length ≤ 4 && numbers.dropLast.all (· ≤ 255) &&
      (match numbers.getLast? with
      | some last => last < Nat.pow 256 (4 - (numbers.length - 1))
      | none => false)

/-! ## Hosts -/

/-- The characters that no opaque host may contain. -/
def isForbiddenInOpaque (c : Char) : Bool :=
  c.toNat == 0 || Text.isMarkupBlank c || "#/:<>?@[\\]^|".toList.contains c

/-- Replaces each percent sign with two hexadecimal digits after it by the byte they stand for. -/
def percentDecoded : List UInt8 → List UInt8
  | 37 :: a :: b :: s =>
    let digit? (b : UInt8) : Option Nat := Text.digitValue? 16 (Char.ofNat b.toNat)
    match digit? a, digit? b with
    | some x, some y => (x * 16 + y).toUInt8 :: percentDecoded s
    | _, _ => 37 :: percentDecoded (a :: b :: s)
  | b :: s => b :: percentDecoded s
  | [] => []
  termination_by s => s.length

/-- Accepts an address in square brackets. -/
def checkBracketed (host : List Char) : Except Fault Unit :=
  if host.getLast? == some ']' && isAddress6 (host.drop 1).dropLast then .ok ()
  else .error .badAddress6

/-- Accepts the host of a special scheme. -/
def checkHost (host : List Char) : Except Fault Unit :=
  if host.head? == some '[' then checkBracketed host
  else
    let bytes := percentDecoded (String.ofList host).toUTF8.toList
    match (String.fromUTF8? ⟨bytes.toArray⟩).bind fun s => Domain.read? s.toList with
    | none => .error .badDomain
    | some domain =>
      if domain.isEmpty then .error .emptyHost
      else if endsInNumber domain && !isAddress4 domain then .error .badAddress4
      else .ok ()

/-- Accepts an opaque host. -/
def checkOpaque (host : List Char) : Except Fault Unit :=
  if host.head? == some '[' then checkBracketed host
  else if host.any isForbiddenInOpaque then .error .badHostCharacter
  else .ok ()

/-! ## Authorities -/

/-- The characters that end an authority. -/
def endsAuthority (special : Bool) (c : Char) : Bool :=
  c == '/' || c == '?' || c == '#' || (special && c == '\\')

/-- The text up to a colon outside of square brackets or the end of the authority, and the rest. -/
def takeHost (special : Bool) : (bracketed : Bool) → List Char → List Char × List Char
  | _, [] => ([], [])
  | bracketed, c :: s =>
    if endsAuthority special c || (c == ':' && !bracketed) then ([], c :: s)
    else
      let bracketed := if c = '[' then true else if c = ']' then false else bracketed
      let (host, rest) := takeHost special bracketed s
      (c :: host, rest)

/-- Accepts digits of a number below 65536, up to the end of the authority; `value` has been
read. -/
def checkPort (value : Nat) : List Char → Except Fault Unit
  | [] => .ok ()
  | c :: s =>
    if c.isDigit then
      let value := value * 10 + (c.toNat - 48)
      if value > 65535 then .error .badPort else checkPort value s
    else if endsAuthority true c then .ok ()
    else .error .badPort

/-- Splits the user information off an authority: the text before the last at sign in it. -/
def splitUser (special : Bool) (s : List Char) : Option (List Char) × List Char :=
  let authority := s.takeWhile (!endsAuthority special ·)
  match Text.cut '@' authority.reverse with
  | none => (none, s)
  | some (_, userReversed) =>
    let user := userReversed.reverse
    (some user, s.drop (user.length + 1))

/-- Accepts an authority at the beginning of a text. -/
def checkAuthority (special : Bool) (s : List Char) : Except Fault Unit := do
  let (user?, s) := splitUser special s
  if user? == some [] && s.head?.any (endsAuthority special) then throw .emptyHost
  let (host, rest) := takeHost special false s
  if special then
    if host.isEmpty then throw .emptyHost
    checkHost host
  else
    checkOpaque host
    if host.isEmpty && rest.head? == some ':' then throw .emptyHost
  if rest.head? == some ':' then checkPort 0 (rest.drop 1)
  -- Only a colon and nothing else before the at sign counts as no user information.
  let hasUser := match user? with
    | none | some [] | some [':'] => false
    | some _ => true
  if host.isEmpty && hasUser then throw .emptyHost

/-! ## Whole identifiers -/

/-- The scheme that a text begins with, in lower case, and the text after its colon. -/
def scheme? (s : List Char) : Option (List Char × List Char) :=
  match Text.cut ':' s with
  | some (c :: scheme, rest) =>
    if c.isAlpha && scheme.all (fun d => d.isAlphanum || d == '+' || d == '-' || d == '.') then
      some ((c :: scheme).map Char.toLower, rest)
    else none
  | _ => none

/-- The special schemes, except the one for files. -/
def specialSchemes : List String := ["http", "https", "ws", "wss", "ftp"]

/-- A slash of either kind. -/
def isSlash (c : Char) : Bool := c == '/' || c == '\\'

/-- The drive of a file name: a letter with a colon or a bar. -/
def isDrive (s : List Char) : Bool :=
  match s with
  | [c, d] => c.isAlpha && (d == ':' || d == '|')
  | _ => false

/-- Accepts the host of a file, which is what two slashes are followed by. -/
def checkFile (s : List Char) : Except Fault Unit :=
  match s with
  | a :: b :: s =>
    if isSlash a && isSlash b then
      let host := s.takeWhile (!endsAuthority true ·)
      if host.isEmpty || isDrive host then .ok () else checkHost host
    else .ok ()
  | _ => .ok ()

/-- Accepts a text without a scheme. -/
def checkRelative (s : List Char) : Except Fault Unit :=
  let slashes := s.takeWhile isSlash
  if slashes.length < 2 then .ok ()
  else match Text.after? ['/', '/'] s with
    | some rest => checkAuthority true rest
    | none => checkAuthority true (s.drop slashes.length)

/-- Accepts a resource identifier. -/
def check (s : List Char) : Except Fault Unit :=
  let isOuter (c : Char) : Bool := c.toNat ≤ 0x20
  let s := ((s.dropWhile isOuter).reverse.dropWhile isOuter).reverse
  match scheme? s with
  | none => checkRelative s
  | some (scheme, rest) =>
    if scheme = "file".toList then checkFile rest
    else if specialSchemes.contains (String.ofList scheme) then
      checkAuthority true (rest.dropWhile isSlash)
    else match Text.after? ['/', '/'] rest with
      | some rest => checkAuthority false rest
      | none => .ok ()

end MarkupGrammar.Uri
