import LogShipper.Transport.Datagram
import LogShipper.Transport.Request
import LogShipper.Transport.Stream

/-!
# Networks

A network decides the fate of every write and closing, by its number. A link is the writer for a
destination on a network.
-/

namespace LogShipper.Transport

/-- The fates of writes and closings. -/
structure Network where
  stream : Nat → StreamFate := fun _ => {}
  datagram : Nat → DatagramFate := fun _ => {}
  request : Nat → RequestFate := fun _ => {}

/-- The network that reaches nobody. -/
def Network.unreachable : Network where
  stream _ := { connect := .failed .networkUnreachable }
  datagram _ := { send := fun _ => some .networkUnreachable }
  request _ := { opening := .ended .failed }

/-- The writer for a destination. -/
inductive Writer where
  | stream (writer : StreamWriter)
  | datagram (writer : DatagramWriter)
  | request (writer : RequestWriter)
deriving DecidableEq, Repr

/-- The writer for a destination; it has no connection yet. -/
def Writer.ofDestination : Destination → Writer
  | .tcp host port => .stream (.new host port)
  | .udp host port => .datagram (.new host port)
  | .http url credentials => .request { url, credentials }

/-- Whether the writer has a connection. -/
def Writer.isOpen : Writer → Bool
  | .stream w => w.isOpen
  | .datagram w => w.isOpen
  | .request w => w.isOpen

/-- What the collector has received, in order. -/
def Writer.received : Writer → List UInt8
  | .stream w => w.connections.reverse.flatten
  | .datagram w => w.sent.reverse.flatten
  | .request w => (w.requests.reverse.map List.flatten).flatten

/-- A writer on a network. -/
structure Link where
  writer : Writer
  network : Network
  /-- The number of writes and closings so far. -/
  calls : Nat := 0

namespace Link

/-- Writes a payload. -/
def write (l : Link) (payload : List UInt8) : Written Link :=
  let keep (writer : Writer) : Link := { l with writer, calls := l.calls + 1 }
  match l.writer with
  | .stream w =>
    let written := w.write (l.network.stream l.calls) payload
    { transport := keep (.stream written.1), result := written.2 }
  | .datagram w =>
    let written := w.write (l.network.datagram l.calls) payload
    { written with transport := keep (.datagram written.transport) }
  | .request w =>
    let written := w.write (l.network.request l.calls) payload
    { transport := keep (.request written.1), result := written.2 }

/-- Ends the connection. -/
def close (l : Link) : Link × Except TransportError Unit :=
  let keep (writer : Writer) : Link := { l with writer, calls := l.calls + 1 }
  match l.writer with
  | .stream w =>
    let closed := w.close (l.network.stream l.calls)
    (keep (.stream closed.1), closed.2)
  | .datagram w => (keep (.datagram w.close), .ok ())
  | .request w =>
    let closed := w.close (l.network.request l.calls)
    (keep (.request closed.1), closed.2)

instance : Transport Link := ⟨write, close, fun l => l.writer.isOpen⟩

end Link

end LogShipper.Transport
