import LogShipper.Transport.Basic
import LogShipper.Transport.Packing

/-!
# Datagrams

A datagram writer sends each payload as datagrams of whole lines. Nothing that goes wrong is an
error: it is reported, and the write counts the octets that were sent before.
-/

namespace LogShipper.Transport

/-- The two families of addresses. -/
inductive Family where
  | ipv4
  | ipv6
deriving DecidableEq, Repr

/-- What the network does to a write. -/
structure DatagramFate where
  /-- The family of the address, if there is one, or why it could not be looked up. -/
  resolve : Except Text (Option Family) := .ok (some .ipv4)
  /-- The failure of making a socket, if it fails. -/
  bind : Option IoError := none
  /-- The failure of a datagram by its number in the write, if it fails. -/
  send : Nat → Option IoError := fun _ => none

/-- The greatest datagram that takes a further line. -/
def maxDatagram : Nat := 8192

/-- A socket for datagrams to a collector. -/
structure DatagramWriter where
  address : Text
  /-- The family of the socket, if there is one. -/
  socket : Option Family := none
  /-- The datagrams that were sent, latest first. -/
  sent : List (List UInt8) := []
deriving DecidableEq, Repr

namespace DatagramWriter

/-- The writer for a host and a port. -/
def new (host : Text) (port : Nat) : DatagramWriter :=
  { address := host ++ ':' :: Decimal.ofNat port }

/-- Sends datagrams up to the first that fails. -/
def sendAll (send : Nat → Option IoError) : Nat → List (List UInt8) → List (List UInt8) × Option IoError
  | _, [] => ([], none)
  | n, packet :: packets =>
    match send n with
    | some cause => ([], some cause)
    | none =>
      let rest := sendAll send (n + 1) packets
      (packet :: rest.1, rest.2)

/-- The writer with a socket of a family. -/
def bind (w : DatagramWriter) (family : Family) (fate : DatagramFate) :
    DatagramWriter × Option IoError :=
  if w.socket = some family then (w, none)
  else match fate.bind with
    | some cause => (w, some cause)
    | none => ({ w with socket := some family }, none)

/-- Writes a payload. -/
def write (w : DatagramWriter) (fate : DatagramFate) (payload : List UInt8) :
    Written DatagramWriter :=
  match fate.resolve with
  | .error reason => { transport := w, notices := [.unresolved w.address reason], result := .ok 0 }
  | .ok none => { transport := w, notices := [.noAddress w.address], result := .ok 0 }
  | .ok (some family) =>
    let bound := w.bind family fate
    match bound.2 with
    | some cause =>
      { transport := bound.1, notices := [.bindFailed w.address cause], result := .ok 0 }
    | none =>
      let sending := sendAll fate.send 0 (datagrams payload maxDatagram)
      { transport := { bound.1 with sent := sending.1.reverse ++ w.sent }
        notices := sending.2.toList.map (.datagramFailed w.address)
        result := .ok sending.1.flatten.length }

/-- Gives the socket up. -/
def close (w : DatagramWriter) : DatagramWriter := { w with socket := none }

/-- Whether there is a socket. -/
def isOpen (w : DatagramWriter) : Bool := w.socket.isSome

end DatagramWriter

end LogShipper.Transport
