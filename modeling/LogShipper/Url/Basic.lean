import LogShipper.Text.Decimal

/-!
# URLs

The parts of a URL and its text. User name, password, path, query and fragment are kept in their
encoded form.

Which texts are URLs, and what their parts are, is for a reader of URLs to say. Whatever needs one is
given it.
-/

namespace LogShipper

/-- A URL with an authority. -/
structure Url where
  /-- The scheme in lower case. -/
  scheme : Text
  username : Text := []
  password : Option Text := none
  /-- The host as it stands in the URL; a URL of a scheme that is not special may have none. -/
  host : Option Text
  port : Option Nat := none
  path : Text := []
  query : Option Text := none
  fragment : Option Text := none
deriving DecidableEq, Repr

/-- A reader of URLs gives the parts of a URL, or says why a text is none. -/
abbrev UrlReader := Text → Except Text Url

namespace Url

/-- The schemes of the web, with the ports that they imply. -/
def webSchemes : List (Text × Nat) :=
  [("http", 80), ("https", 443), ("ws", 80), ("wss", 443), ("ftp", 21)]

/-- Whether a scheme is one of the web. -/
def isWebScheme (scheme : Text) : Bool := webSchemes.any fun entry => entry.1 = scheme

/-- The port that a scheme implies. -/
def defaultPort? (scheme : Text) : Option Nat :=
  (webSchemes.find? fun entry => entry.1 = scheme).map Prod.snd

/-- The user name and the password as they stand before the host. -/
def userinfoText (username : Text) (password : Option Text) : Text :=
  match username, password with
  | [], none => []
  | username, none => username ++ "@"
  | username, some password => username ++ ':' :: password ++ "@"

/-- The text of a URL. -/
def text (url : Url) : Text :=
  url.scheme ++ "://" ++ userinfoText url.username url.password
    ++ url.host.getD []
    ++ url.port.elim [] (fun port => ':' :: Decimal.ofNat port)
    ++ url.path
    ++ url.query.elim [] ('?' :: ·)
    ++ url.fragment.elim [] ('#' :: ·)

/-- The URL without user name and password. -/
def withoutUserinfo (url : Url) : Url := { url with username := [], password := none }

end Url

end LogShipper
