import LogShipper.Transport.Basic

/-!
# A transport with failures laid down beforehand

The failures of a scripted transport are chosen from outside: the next so many writes fail, and
closing fails or does not. It keeps no connection.
-/

namespace LogShipper.Transport

/-- A transport whose failures are chosen. -/
structure Scripted where
  /-- The number of writes that will fail. -/
  failures : Nat := 0
  closeFails : Bool := false
deriving DecidableEq, Repr

namespace Scripted

/-- The reason of every chosen failure. -/
def failure : TransportError := .io (.other "collector down")

/-- One write less will fail, if any would. -/
def write (t : Scripted) (payload : List UInt8) : Written Scripted :=
  if t.failures = 0 then { transport := t, result := .ok payload.length }
  else { transport := { t with failures := t.failures - 1 }, result := .error failure }

/-- Closing changes nothing. -/
def close (t : Scripted) : Scripted × Except TransportError Unit :=
  (t, if t.closeFails then .error failure else .ok ())

instance : Transport Scripted := ⟨write, close, fun _ => true⟩

/-- The next `n` writes fail, and then none. -/
def failNext (n : Nat) (t : Scripted) : Scripted := { t with failures := n }

/-- Closing fails from now on. -/
def failClose (t : Scripted) : Scripted := { t with closeFails := true }

end Scripted

end LogShipper.Transport
