import LogShipper.Transport.Basic

/-!
# Recorded transports

A recorded transport does what the transport does that it is made of, and keeps a record of how it
was used. What changes the transport from outside is no use of it.
-/

namespace LogShipper.Transport

/-- One use of a transport. -/
inductive Use where
  /-- A payload was written; if that failed, with an error. -/
  | write (payload : List UInt8) (error : Option TransportError)
  | close (result : Except TransportError Unit)

namespace Use

/-- The payload that was written. -/
def payload? : Use → Option (List UInt8)
  | write payload _ => some payload
  | close _ => none

/-- Whether the transport was closed. -/
def isClose : Use → Bool
  | write .. => false
  | close _ => true

end Use

/-- A transport with a record of its uses. -/
structure Recorded (τ : Type) where
  transport : τ
  /-- How it was used, latest first. -/
  uses : List Use := []

namespace Recorded

variable {τ : Type}

/-- A transport that was not used yet. -/
def of (transport : τ) : Recorded τ := { transport }

/-- The transport is changed from outside. -/
def lift (change : τ → τ) (t : Recorded τ) : Recorded τ := { t with transport := change t.transport }

/-- The payloads that were written, in order. -/
def payloads (t : Recorded τ) : List (List UInt8) := (t.uses.filterMap Use.payload?).reverse

/-- How often the transport was closed. -/
def closings (t : Recorded τ) : Nat := t.uses.countP Use.isClose

/-- The error of a result. -/
def error? {α : Type} : Except TransportError α → Option TransportError
  | .ok _ => none
  | .error e => some e

variable [Transport τ]

def write (t : Recorded τ) (payload : List UInt8) : Written (Recorded τ) :=
  let written := Transport.write t.transport payload
  { transport := ⟨written.transport, .write payload (error? written.result) :: t.uses⟩
    notices := written.notices
    result := written.result }

def close (t : Recorded τ) : Recorded τ × Except TransportError Unit :=
  let closed := Transport.close t.transport
  (⟨closed.1, .close closed.2 :: t.uses⟩, closed.2)

instance : Transport (Recorded τ) := ⟨write, close, fun t => Transport.isOpen t.transport⟩

end Recorded

end LogShipper.Transport
