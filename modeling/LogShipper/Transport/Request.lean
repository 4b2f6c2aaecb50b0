import LogShipper.Destination
import LogShipper.Text.Base64
import LogShipper.Transport.Basic

/-!
# Streaming requests

A request writer posts its payloads into the body of one request, which stays open across writes.
The collector's verdict comes when the body ends, that is when the writer is closed, or earlier: a
write that finds its request answered fails with the verdict, unless that is a success, in which
case it opens the next request.
-/

namespace LogShipper

namespace Transport

/-- The collector's verdict about a request, or why there is none. -/
inductive Verdict where
  | accepted
  | refused (code : Nat) (reason : Text)
  /-- The request itself failed. -/
  | failed
  | lost
  | stalled
deriving DecidableEq, Repr

/-- The error that a verdict stands for, if it is not a success. -/
def Verdict.error? (url : Text) : Verdict → Option TransportError
  | .accepted => none
  | .refused code reason => some (.status code reason)
  | .failed => some (.request url)
  | .lost => some (.closed url)
  | .stalled => some (.timeout url)

/-- What becomes of the opening of a request. -/
inductive OpenFate where
  | opened
  /-- The request ended before any of its body was taken. -/
  | ended (verdict : Verdict)
  | stalled
deriving DecidableEq, Repr

/-- What becomes of the chunks of a payload, and how many of them were taken in a failure. -/
inductive BodyFate where
  | taken
  | dropped (chunks : Nat) (verdict : Verdict)
  | stalled (chunks : Nat)
deriving DecidableEq, Repr

/-- What the network and the collector do to a write or a closing. -/
structure RequestFate where
  /-- The verdict on the open request, if there is one before its end. -/
  answered : Option Verdict := none
  opening : OpenFate := .opened
  body : BodyFate := .taken
  /-- The verdict when the body ends. -/
  closing : Verdict := .accepted
deriving DecidableEq, Repr

/-- The size of the chunks of a body. -/
def chunkSize : Nat := 1024

/-- A list in pieces of a size, the last of which may be shorter; `fuel` bounds their number. -/
def chunksFor (size : Nat) : Nat → List UInt8 → List (List UInt8)
  | 0, _ => []
  | fuel + 1, octets =>
    if octets.isEmpty then [] else octets.take size :: chunksFor size fuel (octets.drop size)

/-- The chunks of a payload. -/
def chunks (payload : List UInt8) : List (List UInt8) :=
  chunksFor chunkSize payload.length payload

end Transport

/-- The header that carries credentials: user name and password, a missing one being empty, with a
colon between them. -/
def Credentials.authorization (c : Credentials) : Text :=
  "Basic " ++ Base64.encode (Utf8.encode (c.username ++ ':' :: c.password.getD []))

namespace Transport

/-- A connection to a collector that takes requests. -/
structure RequestWriter where
  url : Url
  credentials : Option Credentials
  isOpen : Bool := false
  /-- The number of attempts to open a request. -/
  attempts : Nat := 0
  /-- The chunks that went into each request, latest request first. -/
  requests : List (List (List UInt8)) := []
deriving DecidableEq, Repr

namespace RequestWriter

/-- Looks whether the open request was answered, and gives it up if so. -/
def review (w : RequestWriter) (answered : Option Verdict) :
    RequestWriter × Except TransportError Unit :=
  if w.isOpen then
    match answered with
    | none => (w, .ok ())
    | some verdict =>
      ({ w with isOpen := false },
        match verdict.error? w.url.text with
        | none => .ok ()
        | some e => .error e)
  else (w, .ok ())

/-- Opens a request, unless one is open. -/
def openRequest (w : RequestWriter) (fate : OpenFate) : RequestWriter × Except TransportError Unit :=
  if w.isOpen then (w, .ok ())
  else
    let tried := { w with attempts := w.attempts + 1 }
    match fate with
    | .opened => ({ tried with isOpen := true, requests := [] :: w.requests }, .ok ())
    | .ended verdict =>
      (tried, .error ((verdict.error? w.url.text).getD (.closed w.url.text)))
    | .stalled => (tried, .error (.timeout w.url.text))

/-- Adds chunks to the latest request. -/
def feed (added : List (List UInt8)) : List (List (List UInt8)) → List (List (List UInt8))
  | [] => []
  | latest :: earlier => (latest ++ added) :: earlier

/-- Sends a payload into the body of the open request. -/
def send (w : RequestWriter) (fate : BodyFate) (payload : List UInt8) :
    RequestWriter × Except TransportError Nat :=
  let put (added : List (List UInt8)) := { w with requests := feed added w.requests }
  match fate with
  | .taken => (put (chunks payload), .ok payload.length)
  | .dropped n verdict =>
    ({ put ((chunks payload).take n) with isOpen := false },
      .error ((verdict.error? w.url.text).getD (.closed w.url.text)))
  | .stalled n =>
    ({ put ((chunks payload).take n) with isOpen := false }, .error (.timeout w.url.text))

/-- Writes a payload, opening a request if need be. -/
def write (w : RequestWriter) (fate : RequestFate) (payload : List UInt8) :
    RequestWriter × Except TransportError Nat :=
  let reviewed := w.review fate.answered
  match reviewed.2 with
  | .error e => (reviewed.1, .error e)
  | .ok _ =>
    let opened := reviewed.1.openRequest fate.opening
    match opened.2 with
    | .error e => (opened.1, .error e)
    | .ok _ => opened.1.send fate.body payload

/-- Ends the body of the open request, if there is one, and waits for the verdict. -/
def close (w : RequestWriter) (fate : RequestFate) : RequestWriter × Except TransportError Unit :=
  if w.isOpen then
    ({ w with isOpen := false },
      match fate.closing.error? w.url.text with
      | none => .ok ()
      | some e => .error e)
  else (w, .ok ())

/-- The target of a request: path and query of the URL. -/
def target (w : RequestWriter) : Text := w.url.path ++ w.url.query.elim [] ('?' :: ·)

/-- The first line of a request. -/
def requestLine (w : RequestWriter) : Text := "POST " ++ w.target ++ " HTTP/1.1"

/-- The headers of a request: who asks, if there are credentials, what is sent, and how. -/
def headers (w : RequestWriter) : List (Text × Text) :=
  let fixed : List (Text × Text) :=
    [("content-type", "text/plain; charset=utf-8"), ("transfer-encoding", "chunked")]
  match w.credentials with
  | none => fixed
  | some c => ("authorization", c.authorization) :: fixed

/-- What a diagnostic shows of the writer. -/
def diagnostic (w : RequestWriter) : Text :=
  "HttpTransport \x7b url: " ++ Literal.quote w.url.text ++ ", credentials: "
    ++ (match w.credentials with
      | none => "None".toList
      | some c => "Some(" ++ c.diagnostic ++ ")")
    ++ ", open: " ++ Decimal.ofBool w.isOpen ++ " \x7d"

end RequestWriter

end Transport

end LogShipper
