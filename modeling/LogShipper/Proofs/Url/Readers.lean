import LogShipper.Proofs.Url.Spelling
import LogShipper.Proofs.Url.Syntax

/-!
# What is asked of readers of URLs

How URLs are read is left to a reader, and most of what holds of destinations holds with any.  The
rest asks of the reader to keep to the standard in one of two points: that the scheme of a URL is the
one that its text begins with, in lower case and after dropping what does not count
(`UrlReader.ReadsScheme`), and that a user name and a password in front of the host are kept as they
are written, but for characters that have to be encoded there, and make no difference to the other
parts (`UrlReader.ReadsUserinfo`).
-/

namespace LogShipper

namespace Url

/-- Whether a scheme is one of those in which requests are sent. -/
def IsRequestScheme (scheme : Text) : Prop := scheme = "http" ∨ scheme = "https"

theorem IsRequestScheme.isWebScheme {scheme : Text} (h : IsRequestScheme scheme) :
    isWebScheme scheme = true := by
  rcases h with rfl | rfl <;> decide

theorem IsRequestScheme.ne_file {scheme : Text} (h : IsRequestScheme scheme) :
    scheme ≠ "file".toList := by
  rcases h with rfl | rfl <;> decide

/-- A scheme in which requests are sent is made of letters. -/
theorem IsRequestScheme.isAlpha {scheme : Text} (h : IsRequestScheme scheme.lower) :
    ∀ c ∈ scheme, c.isAlpha = true := by
  have hsmall : scheme.lower.all Char.isLower = true := by
    rcases h with h | h <;> rw [h] <;> decide
  exact isAlpha_of_lower rfl hsmall

theorem IsRequestScheme.isSchemeChar {scheme : Text} (h : IsRequestScheme scheme.lower) :
    ∀ c ∈ scheme, isSchemeChar c = true :=
  fun c hc => isSchemeChar_of_isAlpha (h.isAlpha c hc)

/-- The scheme in front of a colon. -/
theorem IsRequestScheme.scheme? {scheme : Text} (h : IsRequestScheme scheme.lower) (rest : Text) :
    scheme? (scheme ++ ':' :: rest) = some (scheme.lower, rest) := by
  have hfirst : scheme.head?.any Char.isAlpha = true := by
    cases scheme with
    | nil => rcases h with h | h <;> cases h
    | cons c scheme => exact h.isAlpha c List.mem_cons_self
  rw [scheme?_append h.isSchemeChar, if_pos hfirst]

/-- What counts begins with the host: no further slash comes before it, and no user name. -/
def IsHostFirst (counted : Text) : Prop :=
  (∀ c ∈ counted.head?, isSlash true c = false) ∧
    '@' ∉ counted.takeWhile fun c => !endsAuthority true c

/-- What follows the slashes of a URL begins with the host. -/
def StartsWithHost (rest : Text) : Prop := IsHostFirst (rest.filter fun c => !isIgnored c)

theorem isPrefix_takeWhile {α : Type} (p : α → Bool) {xs ys : List α} (h : xs <+: ys) :
    xs.takeWhile p <+: ys.takeWhile p := by
  obtain ⟨zs, rfl⟩ := h
  induction xs with
  | nil => exact List.nil_prefix
  | cons x xs ih =>
    rw [List.cons_append, List.takeWhile_cons, List.takeWhile_cons]
    split
    · exact List.cons_prefix_cons.2 ⟨rfl, ih⟩
    · exact List.nil_prefix

/-- The host still comes first when something is cut off at the end. -/
theorem IsHostFirst.of_isPrefix {counted counted' : Text} (h : IsHostFirst counted')
    (hbegins : counted <+: counted') : IsHostFirst counted := by
  refine ⟨fun c hc => ?_, fun hmem => h.2 ((isPrefix_takeWhile _ hbegins).subset hmem)⟩
  obtain ⟨more, rfl⟩ := hbegins
  cases counted with
  | nil => cases hc
  | cons d counted => exact h.1 c hc

theorem StartsWithHost.trimEnd {rest : Text} (h : StartsWithHost rest) :
    StartsWithHost rest.trimEnd :=
  h.of_isPrefix (List.IsPrefix.filter _ (List.rdropWhile_prefix _ _))

end Url

namespace UrlReader

open Url

/-- The scheme of a URL is the one that its text begins with, where letters lose their case, and what
stands around the URL or does not count in it is dropped. -/
def ReadsScheme (urls : UrlReader) : Prop := ∀ {t : Text} {url : Url}, urls t = .ok url →
  ∃ rest, scheme? (significant t) = some (url.scheme, rest)

/-- A user name and perhaps a password in front of the host become those of the URL, with the
characters encoded that have to be, and the other parts are those of the URL without them. -/
def ReadsUserinfo (urls : UrlReader) : Prop :=
  ∀ {scheme name rest : Text} {secret : Option Text} {url : Url}, IsRequestScheme scheme.lower →
    IsUserinfo name → name ≠ [] → (∀ t ∈ secret, IsUserinfo t ∧ t ≠ []) → StartsWithHost rest →
    urls (scheme ++ "://" ++ rest) = .ok url →
    url.username = [] ∧ url.password = none ∧
      urls (scheme ++ "://" ++ userinfoText name secret ++ rest) = .ok { url with
        username := encode .userinfo name
        password := secret.map (encode .userinfo) }

end UrlReader

end LogShipper
