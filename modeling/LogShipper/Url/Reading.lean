import LogShipper.Url.Host
import LogShipper.Url.Syntax

/-!
# Reading URLs

A reader of URLs for programs that have no other. It reads from left to right what counts of a text.
In the schemes of the web any number of slashes, also backslashes, may stand before the authority; in
other schemes there is an authority only after two slashes. The parts that follow are each cut off at
the first character that ends them, so that the reading is a row of cuts: user name and password,
host, port, path, query, fragment.

It knows the names of hosts only as far as `Domain` does, and goes no further into URLs of files, or
without an authority, than to find their host.
-/

namespace LogShipper.Url

/-! ## Authority -/

/-- The text before and after the last character of a kind. -/
def cutAtLast? (p : Char → Bool) (t : Text) : Option (Text × Text) :=
  (Text.cutAt? p t.reverse).map fun halves => (halves.2.reverse, halves.1.reverse)

/-- The user name and password in an authority, encoded, and what follows them. They end at the
last `@`, and the password starts after the first colon; an empty one counts as none. -/
def readUserinfo (authority : Text) : Text × Option Text × Text :=
  match cutAtLast? (· = '@') authority with
  | none => ([], none, authority)
  | some (userinfo, rest) =>
    match Text.cutAt? (· = ':') userinfo with
    | none => (encode .userinfo userinfo, none, rest)
    | some (username, password) =>
      (encode .userinfo username,
        if password.isEmpty then none else some (encode .userinfo password), rest)

/-- The host in an authority, up to the colon outside of brackets, and what follows it. -/
def spanHost (bracketed : Bool) : Text → Text × Text
  | [] => ([], [])
  | c :: t =>
    if c = ':' ∧ bracketed = false then ([], c :: t)
    else
      let rest := spanHost (if c = '[' then true else if c = ']' then false else bracketed) t
      (c :: rest.1, rest.2)

/-- Reads the port after its colon. A backslash ends it, and the port that the scheme implies
counts as none. -/
def readPort (scheme : Text) (t : Text) : Except Fault (Option Nat) :=
  let digits := t.takeWhile Char.isDigit
  let rest := t.dropWhile Char.isDigit
  if 65535 < Decimal.value digits then .error .portNumber
  else if rest.head?.any (· ≠ '\\') then .error .portNumber
  else if digits.isEmpty || defaultPort? scheme = some (Decimal.value digits) then .ok none
  else .ok (some (Decimal.value digits))

/-- Reads the host and the port of an authority, after the user name and password. An empty host
is none; only a scheme that is not one of the web may do without. -/
def readHostPort (scheme : Text) (hasUserinfo : Bool) (t : Text) :
    Except Fault (Option Host × Option Nat) := do
  let (hostText, rest) := spanHost false t
  if hostText.isEmpty then
    if isWebScheme scheme || rest.head? = some ':' || hasUserinfo then .error .emptyHost
    else return (none, none)
  else
    let host ← if isWebScheme scheme then Host.readSpecial hostText else Host.readOpaque hostText
    let port ← match rest with
      | ':' :: digits => readPort scheme digits
      | _ => .ok none
    return (some host, port)

/-! ## Path -/

/-- Whether an encoded segment stands for the present directory. -/
def isDot (segment : Text) : Bool := segment.lower = ".".toList || segment.lower = "%2e".toList

/-- Whether an encoded segment stands for the directory above. -/
def isDoubleDot (segment : Text) : Bool :=
  ["..", "%2e.", ".%2e", "%2e%2e"].any fun dots => segment.lower = dots.toList

/-- Whether a segment names a drive, which no segment leads out of. -/
def isDrive : Text → Bool
  | [letter, mark] => letter.isAlpha && (mark = ':' || mark = '|')
  | _ => false

/-- The segments, latest first, without the latest unless it names a drive. -/
def leave : List Text → List Text
  | [] => []
  | segment :: above => if isDrive segment then segment :: above else above

/-- The segments, latest first, after a directory. -/
def enter (above : List Text) (segment : Text) : List Text :=
  if isDoubleDot segment then leave above
  else if isDot segment then above
  else segment :: above

/-- The segments, latest first, after the last segment. -/
def finish (above : List Text) (segment : Text) : List Text :=
  if isDoubleDot segment then [] :: leave above
  else if isDot segment then [] :: above
  else segment :: above

/-- A path of encoded segments, with the directories that dots stand for. -/
def resolve (segments : List Text) : List Text :=
  match segments.getLast? with
  | none => []
  | some last => (finish (segments.dropLast.foldl enter []) last).reverse

/-- Reads a path, which a slash may start. -/
def readPath (web : Bool) (t : Text) : Text :=
  match t with
  | [] => if web then ['/'] else []
  | c :: rest =>
    let relative := if isSlash web c then rest else c :: rest
    let segments := relative.splitOnP (isSlash web)
    '/' :: List.intercalate ['/'] (resolve (segments.map (encode .path)))

/-! ## Query and fragment -/

/-- Cuts off what follows the first character of a kind. -/
def cutOff (p : Char → Bool) (t : Text) : Text × Option Text :=
  match Text.cutAt? p t with
  | none => (t, none)
  | some (before, after) => (before, some after)

/-! ## Everything together -/

/-- Reads what follows the slashes before an authority. -/
def readAuthority (scheme : Text) (t : Text) : Except Fault Url := do
  let web := isWebScheme scheme
  let authority := t.takeWhile fun c => !endsAuthority web c
  let rest := t.dropWhile fun c => !endsAuthority web c
  let (username, password, hostPort) := readUserinfo authority
  if authority = ['@'] && !rest.isEmpty then .error .emptyHost
  let (host, port) ← readHostPort scheme (!username.isEmpty || password.isSome) hostPort
  let (beforeFragment, fragment) := cutOff (· = '#') rest
  let (path, query) := cutOff (· = '?') beforeFragment
  return {
    scheme, username, password, port
    host := host.map Host.text
    path := readPath web path
    query := query.map (encode (if web then .specialQuery else .query))
    fragment := fragment.map (encode .fragment) }

/-- Reads a URL of files after its colon. Only its host can be at fault. -/
def readFile (t : Text) : Except Fault Url :=
  match t with
  | a :: b :: rest =>
    if isSlash true a && isSlash true b then
      let host := rest.takeWhile fun c => !endsAuthority true c
      if host.isEmpty || isDrive host then .ok { scheme := "file", host := none }
      else (Host.readSpecial host).map fun host => { scheme := "file", host := some host.text }
    else .ok { scheme := "file", host := none }
  | _ => .ok { scheme := "file", host := none }

/-- Reads a URL. -/
def read (t : Text) : Except Fault Url :=
  match scheme? (significant t) with
  | none => .error .relative
  | some (scheme, rest) =>
    if scheme = "file" then readFile rest
    else if isWebScheme scheme then readAuthority scheme (rest.dropWhile (isSlash true))
    else match rest with
      | '/' :: '/' :: rest => readAuthority scheme rest
      | _ => .ok { scheme, host := none }

/-- Reading as readers do it. -/
def reader : UrlReader := fun t => (read t).mapError Fault.message

end LogShipper.Url
