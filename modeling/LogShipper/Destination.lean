import LogShipper.Text.Literal
import LogShipper.Url.Basic
import LogShipper.Url.Percent

/-!
# Destinations

The URL of the collector: its scheme selects how lines travel, and the rest says where to. For
`tcp` and `udp` only host and port count. For `http` and `https` the URL itself is kept, with a
default path, but user name and password are taken out of it.
-/

namespace LogShipper

/-- A user name and perhaps a password. -/
structure Credentials where
  username : Text
  password : Option Text
deriving DecidableEq, Repr

/-- Where lines are sent, and how. -/
inductive Destination where
  | tcp (host : Text) (port : Nat)
  | udp (host : Text) (port : Nat)
  | http (url : Url) (credentials : Option Credentials)
deriving DecidableEq, Repr

/-- Why a text is not a destination. -/
inductive DestinationError where
  | malformed (uri reason : Text)
  | missingHost (uri : Text)
  | unsupportedScheme (scheme : Text)
deriving DecidableEq, Repr

/-- The wording of the error. -/
def DestinationError.message : DestinationError → Text
  | .malformed uri reason => "Invalid destination '" ++ uri ++ "': " ++ reason
  | .missingHost uri => "Invalid destination '" ++ uri ++ "': missing host"
  | .unsupportedScheme scheme =>
    "Unsupported destination scheme '" ++ scheme ++ "', expected one of tcp, udp, http, https"

/-- What a diagnostic shows of credentials: the password is hidden. -/
def Credentials.diagnostic (c : Credentials) : Text :=
  "Credentials \x7b username: " ++ Literal.quote c.username ++ ", password: "
    ++ (match c.password with
      | none => "None".toList
      | some _ => "Some(" ++ Literal.quote "***" ++ ")")
    ++ " \x7d"

namespace Destination

def defaultTcpPort : Nat := 8081

def defaultUdpPort : Nat := 8082

/-- The path to which lines are posted when the URL gives none. -/
def defaultPath : Text := "/api/v1/command"

/-- The credentials in a URL; a password without user name is none. -/
def credentialsOf (url : Url) : Option Credentials :=
  if url.username.isEmpty then none
  else some ⟨Url.decode url.username, url.password.map Url.decode⟩

/-- The URL without its credentials, and with the default path if it has none. -/
def requestUrl (url : Url) : Url :=
  let bare := url.withoutUserinfo
  if bare.path = [] ∨ bare.path = ['/'] then { bare with path := defaultPath } else bare

/-- Reads a destination with the help of a reader of URLs. -/
def read (urls : UrlReader) (uri : Text) : Except DestinationError Destination :=
  match urls uri.trim with
  | .error reason => .error (.malformed uri reason)
  | .ok url =>
    let scheme := url.scheme.lower
    let supported := ["tcp".toList, "udp".toList, "http".toList, "https".toList]
    if !supported.contains scheme then .error (.unsupportedScheme scheme)
    else
      match url.host with
      | none => .error (.missingHost uri)
      | some host =>
        if host.isEmpty then .error (.missingHost uri)
        else if scheme = "tcp" then .ok (.tcp host (url.port.getD defaultTcpPort))
        else if scheme = "udp" then .ok (.udp host (url.port.getD defaultUdpPort))
        else .ok (.http (requestUrl url) (credentialsOf url))

/-- The scheme of the destination. -/
def scheme : Destination → Text
  | .tcp .. => "tcp"
  | .udp .. => "udp"
  | .http url _ => url.scheme

end Destination

end LogShipper
