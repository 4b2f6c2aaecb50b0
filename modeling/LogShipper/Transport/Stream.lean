import LogShipper.Transport.Basic

/-!
# Streams

A stream writer keeps one connection to the collector. It connects at the first write and again
after every failure; a failed write ends the connection. What the network does to a write is its
fate, which the writer does not choose.
-/

namespace LogShipper.Transport

/-- What becomes of an attempt to connect. -/
inductive ConnectFate where
  | connected
  | failed (cause : IoError)
  | stalled
deriving DecidableEq, Repr

/-- What becomes of the octets of a payload, and how many of them got through in a failure. -/
inductive SendFate where
  | sent
  | failed (octets : Nat) (cause : IoError)
  | stalled (octets : Nat)
deriving DecidableEq, Repr

/-- What the network does to a write or a closing. -/
structure StreamFate where
  connect : ConnectFate := .connected
  send : SendFate := .sent
  /-- The failure of the closing, if it fails. -/
  shutdown : Option IoError := none
deriving DecidableEq, Repr

/-- A connection to a collector that takes a stream. -/
structure StreamWriter where
  address : Text
  isOpen : Bool := false
  /-- The number of attempts to connect. -/
  attempts : Nat := 0
  /-- The octets that went into each connection, latest connection first. -/
  connections : List (List UInt8) := []
deriving DecidableEq, Repr

namespace StreamWriter

/-- The writer for a host and a port. -/
def new (host : Text) (port : Nat) : StreamWriter := { address := host ++ ':' :: Decimal.ofNat port }

/-- Adds octets to the latest connection. -/
def feed (octets : List UInt8) : List (List UInt8) → List (List UInt8)
  | [] => []
  | latest :: earlier => (latest ++ octets) :: earlier

/-- Connects, unless there is a connection. -/
def connect (w : StreamWriter) (fate : ConnectFate) : StreamWriter × Except TransportError Unit :=
  if w.isOpen then (w, .ok ())
  else
    let tried := { w with attempts := w.attempts + 1 }
    match fate with
    | .connected => ({ tried with isOpen := true, connections := [] :: w.connections }, .ok ())
    | .failed cause => (tried, .error (.connect w.address cause))
    | .stalled => (tried, .error (.timeout w.address))

/-- Sends a payload over the connection. -/
def send (w : StreamWriter) (fate : SendFate) (payload : List UInt8) :
    StreamWriter × Except TransportError Nat :=
  let put (octets : List UInt8) := { w with connections := feed octets w.connections }
  match fate with
  | .sent => (put payload, .ok payload.length)
  | .failed n cause => ({ put (payload.take n) with isOpen := false }, .error (.io cause))
  | .stalled n => ({ put (payload.take n) with isOpen := false }, .error (.timeout w.address))

/-- Writes a payload, connecting if need be. -/
def write (w : StreamWriter) (fate : StreamFate) (payload : List UInt8) :
    StreamWriter × Except TransportError Nat :=
  let connected := w.connect fate.connect
  match connected.2 with
  | .error e => (connected.1, .error e)
  | .ok _ => connected.1.send fate.send payload

/-- Ends the connection, if there is one. -/
def close (w : StreamWriter) (fate : StreamFate) : StreamWriter × Except TransportError Unit :=
  if w.isOpen then
    ({ w with isOpen := false },
      match fate.shutdown with
      | none => .ok ()
      | some cause => .error (.io cause))
  else (w, .ok ())

end StreamWriter

end LogShipper.Transport
