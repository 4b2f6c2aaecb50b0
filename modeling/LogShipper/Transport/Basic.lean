import LogShipper.Severity
import LogShipper.Text.Decimal

/-!
# Transports

A transport brings payloads to the collector. A write sends one payload or fails, closing ends the
connection, and after a failure the next write connects anew. No transport retries: whoever writes
decides what is sent next.
-/

namespace LogShipper.Transport

/-- What the operating system says about a failure. -/
inductive IoError where
  | connectionRefused
  | networkUnreachable
  | connectionReset
  | brokenPipe
  | other (message : Text)
deriving DecidableEq, Repr

/-- The wording of the operating system. -/
def IoError.message : IoError → Text
  | .connectionRefused => "Connection refused (os error 111)"
  | .networkUnreachable => "Network is unreachable (os error 101)"
  | .connectionReset => "Connection reset by peer (os error 104)"
  | .brokenPipe => "Broken pipe (os error 32)"
  | .other message => message

/-- The seconds after which connecting and writing are given up. -/
def timeoutSeconds : Nat := 5

/-- Why a payload was not sent, or a connection not ended. -/
inductive TransportError where
  | connect (address : Text) (cause : IoError)
  | timeout (address : Text)
  | io (cause : IoError)
  /-- The request itself failed. -/
  | request (url : Text)
  | status (code : Nat) (reason : Text)
  | closed (url : Text)
deriving DecidableEq, Repr

/-- The wording of the error. -/
def TransportError.message : TransportError → Text
  | .connect address cause => "failed to connect to " ++ address ++ ": " ++ cause.message
  | .timeout address =>
    "operation on " ++ address ++ " timed out after " ++ Decimal.ofNat timeoutSeconds ++ "s"
  | .io cause => "I/O error: " ++ cause.message
  | .request url => "HTTP error: error sending request for url (" ++ url ++ ")"
  | .status code reason =>
    "collector responded with status " ++ Decimal.ofNat code ++ ' ' :: reason
  | .closed url => "request stream to " ++ url ++ " was closed by the peer"

/-- What a transport reports by itself; sending goes on as if nothing had happened. -/
inductive TransportNotice where
  | unresolved (address : Text) (reason : Text)
  | noAddress (address : Text)
  | bindFailed (address : Text) (cause : IoError)
  | datagramFailed (address : Text) (cause : IoError)
deriving DecidableEq, Repr

/-- The wording of the notice. -/
def TransportNotice.message : TransportNotice → Text
  | .unresolved address reason =>
    "Failed to resolve collector address " ++ address ++ ": " ++ reason
  | .noAddress address => "Collector address " ++ address ++ " did not resolve"
  | .bindFailed address cause =>
    "Failed to bind UDP socket for " ++ address ++ ": " ++ cause.message
  | .datagramFailed address cause =>
    "Failed to send datagram to " ++ address ++ ": " ++ cause.message

/-- What a write did. -/
structure Written (τ : Type) where
  transport : τ
  notices : List TransportNotice := []
  /-- The number of octets that were sent. -/
  result : Except TransportError Nat

end LogShipper.Transport

namespace LogShipper

/-- A connection to the collector. -/
class Transport (τ : Type) where
  write : τ → List UInt8 → Transport.Written τ
  close : τ → τ × Except Transport.TransportError Unit
  isOpen : τ → Bool

end LogShipper
