import BenchReport.Json.Token
set_option autoImplicit false

namespace BenchReport.Address

/-- The schemes of server addresses. -/
def schemes : List String := ["redis", "rediss", "redis+unix", "unix"]

/-- The address itself: controls and spaces around it do not count, nor do tabs and line breaks
inside it. -/
def clean (cs : List Char) : List Char :=
  let around (c : Char) : Bool := c.toNat ≤ 32
  ((cs.dropWhile around).reverse.dropWhile around).reverse.filter fun c =>
    c ≠ '\t' && c ≠ '\n' && c ≠ '\r'

/-- The pieces between separators. -/
def pieces (separator : Char) : List Char → List (List Char)
  | [] => [[]]
  | c :: cs =>
    if c = separator then [] :: pieces separator cs
    else match pieces separator cs with
      | [] => [[c]]
      | p :: ps => (c :: p) :: ps

/-- A byte in decimal without leading zeros. -/
def isByte (cs : List Char) : Bool :=
  !cs.isEmpty && cs.length ≤ 3 && cs.all Json.Token.isDigit && Json.Token.natOfDigits cs ≤ 255 &&
    (cs.length = 1 || cs.head? ≠ some '0')

/-- How many groups of 16 bits a piece of a numeric host stands for. Only the last piece of all may
be four bytes in decimal. -/
def groups? (last : Bool) (piece : List Char) : Option Nat :=
  if !piece.isEmpty && piece.length ≤ 4 && piece.all fun c => (Json.Token.hexDigit? c).isSome then
    some 1
  else if last then
    let bytes := pieces '.' piece
    if bytes.length = 4 ∧ bytes.all isByte = true then some 2 else none
  else none

/-- How many groups pieces stand for together. -/
def width? (last : Bool) : List (List Char) → Option Nat
  | [] => some 0
  | [p] => groups? last p
  | p :: ps => do return (← groups? false p) + (← width? last ps)

/-- What stands before and behind the first two colons in a row. -/
def gap? : List Char → Option (List Char × List Char)
  | ':' :: ':' :: rest => some ([], rest)
  | c :: rest => (gap? rest).map fun (before, behind) => (c :: before, behind)
  | [] => none

def widthOf? (last : Bool) (cs : List Char) : Option Nat :=
  if cs.isEmpty then some 0 else width? last (pieces ':' cs)

/-- Eight groups of 16 bits; two colons in a row stand for the groups of zeros that are missing. -/
def isNumericHost (cs : List Char) : Bool :=
  match gap? cs with
  | none => widthOf? true cs == some 8
  | some (before, behind) => match widthOf? false before, widthOf? true behind with
    | some m, some n => m + n < 8
    | _, _ => false

/-- Whether a character cannot be in the name of a host. -/
def isBarred (c : Char) : Bool :=
  c.toNat = 0 || c = ' ' || c = '<' || c = '>' || c = '@' || c = '[' || c = '\\' || c = ']' ||
    c = '^' || c = '|'

def isHost (cs : List Char) : Bool :=
  match cs with
  | '[' :: rest => rest.getLast? == some ']' && isNumericHost rest.dropLast
  | cs => !cs.any isBarred

/-- The host in front, and the rest from the colon before a port on. A colon in brackets belongs to
the host. -/
def splitHost : Bool → List Char → List Char × List Char
  | _, [] => ([], [])
  | inside, c :: cs =>
    if c = ':' && !inside then ([], c :: cs)
    else
      let (host, rest) := splitHost (if c = '[' then true else if c = ']' then false else inside) cs
      (c :: host, rest)

/-- The port behind a colon; a backslash ends it. -/
def isPort (cs : List Char) : Bool :=
  let (ds, rest) := cs.span Json.Token.isDigit
  Json.Token.natOfDigits ds ≤ 65535 && (rest.isEmpty || rest.head? == some '\\')

/-- The user in front of the last `@`, if there is one, and the host and port behind it. -/
def splitUser (cs : List Char) : Option (List Char) × List Char :=
  match (cs.reverse.dropWhile (· ≠ '@')) with
  | [] => (none, cs)
  | _ :: user => (some user.reverse, (cs.reverse.takeWhile (· ≠ '@')).reverse)

/-- Whether the text between the slashes and the path says where a server is. A user and a port
need a host. -/
def isAuthority (cs : List Char) (ended : Bool) : Bool :=
  let (user, place) := splitUser cs
  let (host, port) := splitHost false place
  let named := match user with
    | none => false
    | some [] => place.isEmpty && !ended
    | some user => user ≠ [':']
  isHost host && !(host.isEmpty && (named || !port.isEmpty)) && isPort (port.drop 1)

/-- Whether a text is the address of a server. -/
def isAddress (url : String) : Bool :=
  let cs := clean url.toList
  let scheme := cs.takeWhile (· ≠ ':')
  schemes.contains (String.ofList (scheme.map Char.toLower)) &&
    match cs.drop scheme.length with
    | ':' :: '/' :: '/' :: rest =>
      let (authority, path) := rest.span fun c => c ≠ '/' && c ≠ '?' && c ≠ '#'
      isAuthority authority path.isEmpty
    | ':' :: _ => true
    | _ => false

example : isAddress "redis://127.0.0.1:6379/" = true := by decide +kernel
example : isAddress "redis://[::1]:6379/0" = true := by decide +kernel
example : isAddress "http://127.0.0.1:6379/" = false := by decide +kernel
example : isAddress "redis://host:port/" = false := by decide +kernel

end BenchReport.Address
