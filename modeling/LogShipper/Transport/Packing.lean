/-!
# Packing lines into datagrams

A payload is cut into datagrams between its lines, each datagram taking as many lines as fit. A
line that does not fit into any datagram travels alone.
-/

namespace LogShipper.Transport

/-- The octet that ends a line. -/
def lineFeed : UInt8 := 10

/-- The lines of a payload, each with the line feed that ends it. -/
def linesOf : List UInt8 → List (List UInt8)
  | [] => []
  | b :: rest =>
    if b = lineFeed then [b] :: linesOf rest
    else match linesOf rest with
      | [] => [[b]]
      | line :: lines => (b :: line) :: lines

/-- Adds lines to a datagram until one does not fit; it starts the next datagram. -/
def pack (limit : Nat) (packet : List UInt8) : List (List UInt8) → List (List UInt8)
  | [] => if packet.isEmpty then [] else [packet]
  | line :: lines =>
    if !packet.isEmpty && limit < packet.length + line.length then
      packet :: pack limit line lines
    else pack limit (packet ++ line) lines

/-- The datagrams of a payload. -/
def datagrams (payload : List UInt8) (limit : Nat) : List (List UInt8) :=
  pack limit [] (linesOf payload)

/-- Nothing is lost in the cutting into lines. -/
@[simp] theorem flatten_linesOf (payload : List UInt8) : (linesOf payload).flatten = payload := by
  induction payload with
  | nil => rfl
  | cons b rest ih =>
    simp only [linesOf]
    split
    · simp [ih]
    · split <;> simp_all

theorem flatten_pack (limit : Nat) (packet : List UInt8) (lines : List (List UInt8)) :
    (pack limit packet lines).flatten = packet ++ lines.flatten := by
  induction lines generalizing packet with
  | nil => cases packet <;> simp [pack]
  | cons line lines ih =>
    simp only [pack]
    split <;> simp [ih]

/-- Nothing is lost in the packing. -/
@[simp] theorem flatten_datagrams (payload : List UInt8) (limit : Nat) :
    (datagrams payload limit).flatten = payload := by
  simp [datagrams, flatten_pack]

end LogShipper.Transport
