import LogShipper.Text.Alphanumeric
import LogShipper.Text.Extender
import LogShipper.Text.Graphic
import LogShipper.Url.Punycode

/-!
# Domain names

A name of a special scheme is a row of labels between dots. In a URL it stands in ASCII: a label
with other characters is put in Punycode after the mark `xn--`, and what follows the mark in a label
has to be the Punycode of such characters.

First letters lose their case, other forms of ASCII, such as wide or circled ones, give way to ASCII
itself, and what is not seen is dropped. The tables hold the case of the Latin, Greek, Cyrillic and
Armenian letters and the most common forms; any other form stands for itself, unless it stands for
text that no name may hold.
-/

namespace LogShipper.Url.Domain

/-- Whether a character lies within one of some ranges of code points. -/
def liesIn (ranges : List (Nat × Nat)) (c : Char) : Bool :=
  ranges.any fun range => range.1 ≤ c.toNat && c.toNat ≤ range.2

/-! ## Characters -/

/-- The characters that are not seen: hyphens for the end of a line, joints of words, and what
chooses a variant of a character. -/
def unseen : List (Nat × Nat) :=
  [(0xAD, 0xAD), (0x34F, 0x34F), (0x180B, 0x180D), (0x180F, 0x180F), (0x200B, 0x200B),
   (0x2060, 0x2060), (0x2064, 0x2064), (0xFE00, 0xFE0F), (0xFEFF, 0xFEFF), (0x1BCA0, 0x1BCA3),
   (0xE0100, 0xE01EF)]

/-- The characters that stand for text with a blank, a dot, or one of the signs that divide a URL,
and those that describe or replace others. -/
def unfit : List (Nat × Nat) :=
  [(0xA8, 0xA8), (0xAF, 0xAF), (0xB4, 0xB4), (0xB8, 0xB8), (0x2D8, 0x2DD), (0x37A, 0x37A),
   (0x384, 0x385), (0x1FBD, 0x1FBD), (0x1FBF, 0x1FC1), (0x1FCD, 0x1FCF), (0x1FDD, 0x1FDF),
   (0x1FED, 0x1FEE), (0x1FFD, 0x1FFE), (0x2017, 0x2017), (0x2024, 0x2026), (0x203E, 0x203E),
   (0x2047, 0x2049), (0x2100, 0x2101), (0x2105, 0x2106), (0x2488, 0x249B), (0x2A74, 0x2A74),
   (0x2FF0, 0x2FFF), (0x309B, 0x309C), (0x31EF, 0x31EF), (0x33C2, 0x33C2), (0x33C7, 0x33C7),
   (0x33D8, 0x33D8), (0xFC5E, 0xFC63), (0xFDFA, 0xFDFB), (0xFE13, 0xFE13), (0xFE16, 0xFE16),
   (0xFE19, 0xFE19), (0xFE30, 0xFE30), (0xFE47, 0xFE4C), (0xFE52, 0xFE52), (0xFE55, 0xFE56),
   (0xFE5F, 0xFE5F), (0xFE64, 0xFE65), (0xFE68, 0xFE68), (0xFE6A, 0xFE6B), (0xFE70, 0xFE70),
   (0xFE72, 0xFE72), (0xFE74, 0xFE74), (0xFE76, 0xFE76), (0xFE78, 0xFE78), (0xFE7A, 0xFE7A),
   (0xFE7C, 0xFE7C), (0xFE7E, 0xFE7E), (0xFFE3, 0xFFE3), (0xFFFC, 0xFFFD), (0x1F100, 0x1F100)]

/-- Whether a character stands for a dot. -/
def isWideDot (c : Char) : Bool := c = '\u3002' || c = '\uff61'

/-- Other forms of rows of ASCII: the first and the last of the forms, and the character for which
the first one stands. -/
def asciiForms : List (Nat × Nat × Char) :=
  [(0xAA, 0xAA, 'a'), (0xB2, 0xB3, '2'), (0xB9, 0xB9, '1'), (0xBA, 0xBA, 'o'), (0x2070, 0x2070, '0'),
   (0x2071, 0x2071, 'i'), (0x2074, 0x2079, '4'), (0x207F, 0x207F, 'n'), (0x2080, 0x2089, '0'),
   (0x212A, 0x212A, 'k'), (0x2460, 0x2468, '1'), (0x24B6, 0x24CF, 'a'), (0x24D0, 0x24E9, 'a'),
   (0x24EA, 0x24EA, '0'), (0xFF01, 0xFF5E, '!'), (0x1D400, 0x1D419, 'a'), (0x1D41A, 0x1D433, 'a'),
   (0x1D7CE, 0x1D7D7, '0'), (0x1D7D8, 0x1D7E1, '0'), (0x1D7E2, 0x1D7EB, '0'),
   (0x1D7EC, 0x1D7F5, '0'), (0x1D7F6, 0x1D7FF, '0')]

/-- Rows of capitals beyond ASCII: the first and the last of them, and how far behind them their
small letters are. -/
def capitals : List (Nat × Nat × Nat) :=
  [(0xC0, 0xD6, 0x20), (0xD8, 0xDE, 0x20), (0x386, 0x386, 0x26),
   (0x388, 0x38A, 0x25), (0x38C, 0x38C, 0x40), (0x38E, 0x38F, 0x3F), (0x391, 0x3A1, 0x20),
   (0x3A3, 0x3AB, 0x20), (0x400, 0x40F, 0x50), (0x410, 0x42F, 0x20), (0x531, 0x556, 0x30)]

/-- Rows in which each capital stands before its small letter. -/
def alternating : List (Nat × Nat) :=
  [(0x100, 0x12F), (0x134, 0x137), (0x139, 0x13E), (0x141, 0x148), (0x14A, 0x177), (0x179, 0x17E),
   (0x370, 0x373), (0x460, 0x481), (0x48A, 0x4BF), (0x4D0, 0x52F), (0x1E00, 0x1E95),
   (0x1EA0, 0x1EFF)]

/-- A letter in lower case. -/
def small (c : Char) : Char :=
  let n := c.toNat
  match capitals.find? fun (first, last, _) => first ≤ n && n ≤ last with
  | some (_, _, distance) => Char.ofNat (n + distance)
  | none =>
    match alternating.find? fun (first, last) => first ≤ n && n ≤ last with
    | some (first, _) => if (n - first) % 2 = 0 then Char.ofNat (n + 1) else c
    | none => c.toLower

/-- What a character stands for in a name. -/
def fold (c : Char) : Text :=
  if liesIn unseen c then []
  else if isWideDot c then ['.']
  else
    match asciiForms.find? fun (first, last, _) => first ≤ c.toNat && c.toNat ≤ last with
    | some (first, _, plain) => [(Char.ofNat (c.toNat - first + plain.toNat)).toLower]
    | none => [small c]

/-- Whether a character joins its neighbours, or keeps them from being joined. -/
def isJoiner (c : Char) : Bool := c = '\u200c' || c = '\u200d'

/-- Whether a label may hold a character. -/
def isFit (c : Char) : Bool :=
  if c.toNat < 0x80 then 0x20 < c.toNat && c.toNat ≠ 0x7F && !"%#/:<>?@[\\]^|".toList.contains c
  else isJoiner c || (Graphic.isGraphic c && !liesIn unfit c)

/-! ## Joiners -/

/-- The signs after which a joiner has a meaning: those that take the vowel from a letter. -/
def vowelKillers : List (Nat × Nat) :=
  [(0x94D, 0x94D), (0x9CD, 0x9CD), (0xA4D, 0xA4D), (0xACD, 0xACD), (0xB4D, 0xB4D), (0xBCD, 0xBCD),
   (0xC4D, 0xC4D), (0xCCD, 0xCCD), (0xD3B, 0xD3C), (0xD4D, 0xD4D), (0xDCA, 0xDCA), (0xE3A, 0xE3A),
   (0xEBA, 0xEBA), (0xF84, 0xF84), (0x1039, 0x103A), (0x1714, 0x1715), (0x1734, 0x1734),
   (0x17D2, 0x17D2), (0x1A60, 0x1A60), (0x1B44, 0x1B44), (0x1BAA, 0x1BAB), (0x1BF2, 0x1BF3),
   (0x2D7F, 0x2D7F), (0xA806, 0xA806), (0xA82C, 0xA82C), (0xA8C4, 0xA8C4), (0xA953, 0xA953),
   (0xA9C0, 0xA9C0), (0xAAF6, 0xAAF6), (0xABED, 0xABED), (0x10A3F, 0x10A3F), (0x11046, 0x11046),
   (0x11070, 0x11070), (0x1107F, 0x1107F), (0x110B9, 0x110B9), (0x11133, 0x11134),
   (0x111C0, 0x111C0), (0x11235, 0x11235), (0x112EA, 0x112EA), (0x1134D, 0x1134D),
   (0x11442, 0x11442), (0x114C2, 0x114C2), (0x115BF, 0x115BF), (0x1163F, 0x1163F),
   (0x116B6, 0x116B6), (0x1172B, 0x1172B), (0x11839, 0x11839), (0x1193D, 0x1193E),
   (0x119E0, 0x119E0), (0x11A34, 0x11A34), (0x11A47, 0x11A47), (0x11A99, 0x11A99),
   (0x11C3F, 0x11C3F), (0x11D44, 0x11D45), (0x11D97, 0x11D97), (0x11F41, 0x11F42)]

/-- Whether every joiner of a text follows a sign after which it has a meaning, given the character
before the text. -/
def joinsWell (before : Option Char) : Text → Bool
  | [] => true
  | c :: t => (!isJoiner c || before.any (liesIn vowelKillers)) && joinsWell (some c) t

/-! ## Directions -/

/-- The ranges of the scripts that are written from right to left. -/
def rightToLeft : List (Nat × Nat) :=
  [(0x590, 0x8FF), (0xFB1D, 0xFDFF), (0xFE70, 0xFEFE), (0x10800, 0x10FFF), (0x1E800, 0x1EFFF)]

/-- Whether a character is written from right to left. -/
def isRightToLeft (c : Char) : Bool := liesIn rightToLeft c && !Extender.isExtender c

/-- Whether a character is a letter that is written from left to right. -/
def isLeftToRight (c : Char) : Bool :=
  Alphanumeric.isAlphanumeric c && !c.isDigit && !isRightToLeft c

/-- Whether a label runs in one direction from its first letter to its last letter or digit. -/
def runsOneWay (label : Text) : Bool :=
  let last := (label.reverse.dropWhile Extender.isExtender).head?
  match label with
  | [] => true
  | first :: _ =>
    if isRightToLeft first then
      !label.any isLeftToRight && last.any fun c => isRightToLeft c || c.isDigit
    else
      isLeftToRight first && !label.any isRightToLeft &&
        last.any fun c => isLeftToRight c || c.isDigit

/-! ## Labels -/

/-- The mark before Punycode. -/
def mark : Text := "xn--"

/-- Whether a label is plain ASCII. -/
def isPlain (label : Text) : Bool := label.all Punycode.isAscii

/-- Whether a label that is not plain can stand in a name. -/
def isInternational (label : Text) : Bool :=
  !isPlain label && label.all isFit && !label.head?.any Extender.isExtender && joinsWell none label

/-- Reads a label, out of Punycode if it bears the mark. -/
def readLabel? (label : Text) : Option Text :=
  if mark.isPrefixOf label then
    (Punycode.decode? (label.drop mark.length)).filter fun inner =>
      isInternational inner && inner.flatMap fold = inner
  else if isPlain label then (if label.all isFit then some label else none)
  else if isInternational label then some label
  else none

/-- Writes a label in ASCII. -/
def writeLabel (label : Text) : Text :=
  if isPlain label then label else mark ++ Punycode.encode label

/-- The name in ASCII, if it is one. If one label has letters written from right to left, each runs
in one direction. -/
def toAscii? (name : Text) : Option Text := do
  let labels ← ((name.flatMap fold).splitOn '.').mapM readLabel?
  if labels.any (fun label => label.any isRightToLeft) && !labels.all runsOneWay then none
  return List.intercalate ['.'] (labels.map writeLabel)

end LogShipper.Url.Domain
