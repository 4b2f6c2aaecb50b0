import LogShipper.Url.Basic

/-!
# The syntax of URLs

Where the parts of a URL begin and end. Control characters and spaces around a URL, and tabs and line
breaks inside, do not count. The scheme ends at the first colon, and in the schemes of the web a
backslash is as good as a slash.
-/

namespace LogShipper.Url

/-! ## Characters that do not count -/

/-- Whether a character around a URL does not count. -/
def isOutside (c : Char) : Bool := c.toNat ≤ 0x20

/-- Whether a character inside a URL does not count. -/
def isIgnored (c : Char) : Bool := c = '\t' || c = '\n' || c = '\x0d'

/-- The characters of a text that count. -/
def significant (t : Text) : Text :=
  (((t.dropWhile isOutside).reverse.dropWhile isOutside).reverse).filter fun c => !isIgnored c

/-! ## Scheme -/

/-- Whether a character may stand in a scheme. -/
def isSchemeChar (c : Char) : Bool := c.isAlphanum || c = '+' || c = '-' || c = '.'

/-- The scheme in lower case, and what follows its colon. -/
def scheme? (t : Text) : Option (Text × Text) :=
  match t.span isSchemeChar with
  | (first :: others, ':' :: rest) =>
    if first.isAlpha then some (Text.lower (first :: others), rest) else none
  | _ => none

/-! ## Authority -/

/-- Whether a character separates the parts of a path. -/
def isSlash (web : Bool) (c : Char) : Bool := c = '/' || (web && c = '\\')

/-- Whether a character ends an authority. -/
def endsAuthority (web : Bool) (c : Char) : Bool := isSlash web c || c = '?' || c = '#'

end LogShipper.Url
