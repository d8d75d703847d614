import LogRelay.Http.Host
import LogRelay.Text.Blank

/-!
Addresses of web resources, `http` or `https`. Reading one repairs what can be repaired: characters
that cannot stand in an address take their percent form, and steps to a parent are carried out. What
is read is a host, a port, a path that begins with a slash, a query and a fragment.
-/

namespace LogRelay.Http

structure Url where
  secure : Bool
  /-- The account named before the host, with its password. -/
  account : Option (String × String)
  host : Host
  /-- The port, unless it is the usual one. -/
  port : Option Nat
  path : String
  query : Option String
  fragment : Option String
  deriving DecidableEq, Repr

namespace Url

/-- Why nothing can be asked for at an address. -/
inductive Error where
  | malformed
  /-- The address is of another kind, or its host does not fit a request. -/
  | unusable (address : String)
  deriving DecidableEq, Repr

/-- A reader of addresses. Which texts are addresses, and where they lead, is for the library to say that
makes the requests. -/
abbrev Reader := String → Except Error Url

def percentByte (b : UInt8) : List Char :=
  ['%', (Nat.digitChar (b.toNat / 16)).toUpper, (Nat.digitChar (b.toNat % 16)).toUpper]

/-- Puts the characters outside printable ASCII, and those in `reserved`, into percent form. -/
def percentEncode (reserved : List Char) (cs : List Char) : List Char :=
  cs.flatMap fun c =>
    if c.toNat < 0x20 ∨ 0x7E < c.toNat ∨ c ∈ reserved then
      (String.utf8EncodeChar c).flatMap percentByte
    else [c]

def pathReserved : List Char := [' ', '"', '<', '>', '\x60', '#', '?', '\x7b', '\x7d']

def queryReserved : List Char := [' ', '"', '#', '<', '>', '\'']

def fragmentReserved : List Char := [' ', '"', '<', '>', '\x60']

/-- The text without what is ignored: blanks around it, tabs and line ends within. -/
def strip (s : String) : List Char :=
  (Text.trimWhile (fun c => c.toNat ≤ 0x20) s.toList).filter (· ∉ ['\t', '\n', '\r'])

/-- The scheme, in lower case, and what follows its colon. -/
def scheme? (cs : List Char) : Option (List Char × List Char) :=
  let name := cs.takeWhile fun c => c.isAlphanum || c ∈ ['+', '-', '.']
  match name, cs.drop name.length with
  | first :: _, ':' :: rest => if first.isAlpha then some (name.map Char.toLower, rest) else none
  | _, _ => none

def isSlash (c : Char) : Bool := c = '/' || c = '\\'

/-- What stands before the last `@`, if there is one, and what follows. -/
def cutAccount (cs : List Char) : Option (List Char) × List Char :=
  if '@' ∈ cs then
    (some ((cs.reverse.dropWhile (· ≠ '@')).drop 1).reverse,
      (cs.reverse.takeWhile (· ≠ '@')).reverse)
  else (none, cs)

/-- Account and password of the text before the `@`. -/
def accountOf? (cs : List Char) : Option (String × String) := do
  let decode (cs : List Char) : Option String :=
    Text.Utf8.decode? (percentDecode (Text.Utf8.encode (String.ofList cs)))
  let password := (cs.dropWhile (· ≠ ':')).drop 1
  if cs = [] ∨ cs = [':'] then none
  else return (← decode (cs.takeWhile (· ≠ ':')), ← decode password)

def hostAndPort? (usual : Nat) (cs : List Char) : Option (Host × Option Nat) := do
  let inside := if cs.head? = some '[' then (cs.takeWhile (· ≠ ']')).length else 0
  let tail := (cs.drop inside).dropWhile (· ≠ ':')
  let host ← Host.parse? (cs.take (cs.length - tail.length))
  let digits := tail.drop 1
  if digits = [] then return (host, none)
  if digits.all Char.isDigit then
    let port ← (digitsValue? 10 digits).filter (· < 65536)
    return (host, if port = usual then none else some port)
  else none

/-- Whether a step stays where it is. -/
def staysHere (step : List Char) : Bool :=
  step.map Char.toLower ∈ [['.'], ['%', '2', 'e']]

/-- Whether a step leads to the parent. -/
def leadsUp (step : List Char) : Bool :=
  step.map Char.toLower ∈
    [['.', '.'], ['.', '%', '2', 'e'], ['%', '2', 'e', '.'], ['%', '2', 'e', '%', '2', 'e']]

/-- The steps of a path, with those that move within it carried out; `done` holds the steps so far,
the last first. -/
def resolve (done : List (List Char)) : List (List Char) → List (List Char)
  | [] => done.reverse
  | step :: rest =>
    if leadsUp step then resolve (if rest = [] then [] :: done.drop 1 else done.drop 1) rest
    else if staysHere step then resolve (if rest = [] then [] :: done else done) rest
    else resolve (step :: done) rest

/-- The path of the characters after the host; it begins with a slash. -/
def pathOf (cs : List Char) : String :=
  let steps := resolve [] (((cs.map fun c => if isSlash c then '/' else c).drop 1).splitOn '/')
  String.ofList (steps.flatMap fun step => '/' :: percentEncode pathReserved step)

/-- A part after its sign, if it is there. -/
def renderPart (sign : String) : Option String → String
  | some s => sign ++ s
  | none => ""

/-- What a server is asked for: path and query. -/
def target (u : Url) : String := u.path ++ renderPart "?" u.query

def authority (u : Url) : String :=
  u.host.render ++ renderPart ":" (u.port.map fun (n : Nat) => toString n)

/-- The text of the address, without the account. -/
def render (u : Url) : String :=
  (if u.secure then "https://" else "http://") ++ u.authority ++ u.target ++
    renderPart "#" u.fragment

def parse (s : String) : Except Error Url :=
  match scheme? (strip s) with
  | none => .error .malformed
  | some (scheme, rest) =>
    let secure := scheme = "https".toList
    if ¬ secure ∧ scheme ≠ "http".toList then
      .error (.unusable (String.ofList (scheme ++ ':' :: percentEncode [] rest)))
    else
      let rest := rest.dropWhile isSlash
      let authority := rest.takeWhile fun c => !isSlash c && c ≠ '?' && c ≠ '#'
      let rest := rest.drop authority.length
      let (account, place) := cutAccount authority
      match hostAndPort? (if secure then 443 else 80) place with
      | none => .error .malformed
      | some (host, port) =>
        let beforeFragment := rest.takeWhile (· ≠ '#')
        let path := beforeFragment.takeWhile (· ≠ '?')
        let part (reserved cs : List Char) : Option String :=
          if cs = [] then none else some (String.ofList (percentEncode reserved (cs.drop 1)))
        let url : Url := {
          secure := secure, account := account.bind accountOf?, host := host, port := port
          path := pathOf path
          query := part queryReserved (beforeFragment.drop path.length)
          fragment := part fragmentReserved (rest.drop beforeFragment.length) }
        if host.fitsRequest then .ok url else .error (.unusable url.render)

end Url

end LogRelay.Http
