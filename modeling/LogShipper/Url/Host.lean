import LogShipper.Text.Decimal
import LogShipper.Url.Domain
import LogShipper.Url.Percent

/-!
# Hosts

The host of a URL is a name, an IPv4 address or an IPv6 address. In the special schemes of the
web a name is percent-decoded and put in ASCII and lower case, and a name that ends in a number has
to be an IPv4 address; in all other schemes a name is kept as it is written.
-/

namespace LogShipper.Url

/-- Why a text is not a URL. -/
inductive Fault where
  | relative
  | emptyHost
  | portNumber
  | ipv4Address
  | ipv6Address
  | domainCharacter
  | internationalName
deriving DecidableEq, Repr

/-- The wording of a fault. -/
def Fault.message : Fault → Text
  | .relative => "relative URL without a base"
  | .emptyHost => "empty host"
  | .portNumber => "invalid port number"
  | .ipv4Address => "invalid IPv4 address"
  | .ipv6Address => "invalid IPv6 address"
  | .domainCharacter => "invalid domain character"
  | .internationalName => "invalid international domain name"

/-- Where a URL points. -/
inductive Host where
  | name (name : Text)
  | ipv4 (address : Nat)
  /-- The eight groups of an address. -/
  | ipv6 (groups : List Nat)
deriving DecidableEq, Repr

/-! ## Numbers in a base -/

/-- The number that a row of digits in a base stands for; no digits stand for zero. -/
def numeral? (base : Nat) (t : Text) : Option Nat :=
  t.foldlM (fun n c => match hexValue? c with
    | some d => if d < base then some (n * base + d) else none
    | none => none) 0

/-! ## IPv4 -/

/-- One part of an IPv4 address: decimal, octal after `0`, hexadecimal after `0x`. -/
def ipv4Part? (t : Text) : Option Nat :=
  match t with
  | [] => none
  | ['0'] => some 0
  | '0' :: x :: rest => if x = 'x' ∨ x = 'X' then numeral? 16 rest else numeral? 8 (x :: rest)
  | _ => numeral? 10 t

/-- The parts of a name between its dots, without the empty one after a final dot. -/
def dottedParts (t : Text) : List Text :=
  let parts := t.splitOn '.'
  if parts.getLast? = some [] then parts.dropLast else parts

/-- Whether a name ends in a number, and so has to be an IPv4 address. -/
def endsInNumber (t : Text) : Bool :=
  match (dottedParts t).getLast? with
  | none => false
  | some last => (!last.isEmpty && last.all Char.isDigit) || (ipv4Part? last).isSome

/-- The number of all parts but the last, each of which is one octet. -/
def ipv4Octets : List Nat → Nat
  | [] => 0
  | n :: rest => n * Nat.pow 256 rest.length + ipv4Octets rest

/-- Reads an IPv4 address of one to four parts, where the last one fills all octets that the
others leave. -/
def readIpv4 (t : Text) : Except Fault Nat :=
  let parts := dottedParts t
  match parts.mapM ipv4Part? with
  | none => .error .ipv4Address
  | some numbers =>
    match numbers.getLast? with
    | none => .error .ipv4Address
    | some last =>
      let leading := numbers.dropLast
      if 4 < parts.length || leading.any (255 < ·) || Nat.pow 256 (4 - leading.length) ≤ last then
        .error .ipv4Address
      else .ok (ipv4Octets leading * Nat.pow 256 (4 - leading.length) + last)

/-- An IPv4 address as four octets. -/
def ipv4Text (address : Nat) : Text :=
  List.intercalate ['.'] ([3, 2, 1, 0].map fun k => Decimal.ofNat (address / Nat.pow 256 k % 256))

/-! ## IPv6 -/

/-- One octet in decimal, without leading zeros. -/
def decimalOctet? (t : Text) : Option Nat :=
  if t.isEmpty || !t.all Char.isDigit || (1 < t.length && t.head? = some '0') then none
  else if Decimal.value t < 256 then some (Decimal.value t) else none

/-- The last two groups of an address, written as an IPv4 address of four decimal octets. -/
def dottedGroups? (t : Text) : Option (List Nat) :=
  match (t.splitOn '.').mapM decimalOctet? with
  | some [a, b, c, d] => some [a * 256 + b, c * 256 + d]
  | _ => none

/-- One group: one to four hexadecimal digits. -/
def group? (t : Text) : Option Nat :=
  if t.isEmpty || 4 < t.length then none else numeral? 16 t

/-- The groups of a part of an address; the last two may be written as an IPv4 address if the part
is the last one. -/
def groups? (last : Bool) (t : Text) : Option (List Nat) :=
  if t.isEmpty then some []
  else
    let parts := t.splitOn ':'
    match parts.getLast? with
    | none => none
    | some final =>
      if last && final.contains '.' then do
        let leading ← parts.dropLast.mapM group?
        let dotted ← dottedGroups? final
        return leading ++ dotted
      else parts.mapM group?

/-- Reads an IPv6 address. Two colons stand for as many groups of zero as are missing, at least
one. -/
def readIpv6 (t : Text) : Except Fault (List Nat) :=
  let groups := match Text.cutAtText? "::" t with
    | none => (groups? true t).filter fun all => all.length = 8
    | some (before, after) => do
      let leading ← groups? false before
      let trailing ← groups? true after
      if leading.length + trailing.length ≤ 7 then
        some (leading ++ List.replicate (8 - leading.length - trailing.length) 0 ++ trailing)
      else none
  match groups with
  | some groups => .ok groups
  | none => .error .ipv6Address

/-- The number of zeros at the start of a list of groups. -/
def zerosAtStart (groups : List Nat) : Nat := (groups.takeWhile (· = 0)).length

/-- The start and the length of the first of the longest rows of zeros, if it is of two or more. -/
def longestZeros? (groups : List Nat) : Option (Nat × Nat) :=
  let rows := (List.range groups.length).map fun i => (i, zerosAtStart (groups.drop i))
  rows.foldl (fun best row =>
    if 2 ≤ row.2 && best.all (fun b => b.2 < row.2) then some row else best) none

/-- Groups between colons, in lower case. -/
def groupsText (groups : List Nat) : Text :=
  List.intercalate [':'] (groups.map (Nat.toDigits 16))

/-- An IPv6 address between brackets. -/
def ipv6Text (groups : List Nat) : Text :=
  '[' :: (match longestZeros? groups with
    | none => groupsText groups
    | some (start, length) =>
      groupsText (groups.take start) ++ "::" ++ groupsText (groups.drop (start + length))) ++ [']']

/-! ## Reading and writing -/

/-- The characters that a name outside of the special schemes may not hold. -/
def forbiddenInOpaque : Text := "\x00\t\n\x0d #/:<>?@[\\]^|"

/-- The address between brackets. -/
def bracketed? : Text → Option Text
  | '[' :: rest => some rest
  | _ => none

/-- Reads an address in brackets, after the opening one. -/
def readBracketed (rest : Text) : Except Fault Host :=
  if rest.getLast? = some ']' then (readIpv6 rest.dropLast).map .ipv6 else .error .ipv6Address

/-- Reads the host of a special scheme. -/
def Host.readSpecial (t : Text) : Except Fault Host :=
  match bracketed? t with
  | some rest => readBracketed rest
  | none =>
    match Domain.toAscii? (decode t) with
    | none => .error .internationalName
    | some domain =>
      if domain.isEmpty then .error .emptyHost
      else if endsInNumber domain then (readIpv4 domain).map .ipv4
      else .ok (.name domain)

/-- Reads the host of any other scheme. -/
def Host.readOpaque (t : Text) : Except Fault Host :=
  match bracketed? t with
  | some rest => readBracketed rest
  | none =>
    if t.any fun c => forbiddenInOpaque.contains c then .error .domainCharacter
    else .ok (.name (encode .controls t))

/-- A host as it stands in a URL. -/
def Host.text : Host → Text
  | .name n => n
  | .ipv4 address => ipv4Text address
  | .ipv6 groups => ipv6Text groups

end LogShipper.Url
