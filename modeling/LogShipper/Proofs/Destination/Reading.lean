import LogShipper.Destination
import LogShipper.Proofs.Url.Reading

/-!
# What a URL is read as

A text is a destination when it is read as a URL with a host in one of four schemes, and the scheme
says which kind of destination it is (`Destination.read_eq_ok_iff`).  Whatever the kind, its scheme
is the one that the URL begins with, if the reader of URLs reads schemes
(`Destination.scheme_of_read`).
-/

namespace LogShipper

theorem eq_ok_of_toOption {ε α : Type} {x : Except ε α} {y : α} (h : x.toOption = some y) :
    x = .ok y := by
  cases x with
  | error e => cases h
  | ok x => exact congrArg Except.ok (Option.some.inj h)

namespace Destination

variable {urls : UrlReader} {uri : Text} {d : Destination} {url : Url}
  {credentials : Option Credentials}

/-- The destination that a URL with a given host stands for. -/
inductive Stands (url : Url) (host : Text) : Destination → Prop
  | tcp : url.scheme.lower = "tcp" → Stands url host (.tcp host (url.port.getD defaultTcpPort))
  | udp : url.scheme.lower = "udp" → Stands url host (.udp host (url.port.getD defaultUdpPort))
  | http : Url.IsRequestScheme url.scheme.lower →
      Stands url host (.http (requestUrl url) (credentialsOf url))

theorem Stands.eq_http {host : Text} (h : Stands url host d)
    (hrequest : Url.IsRequestScheme url.scheme.lower) :
    d = .http (requestUrl url) (credentialsOf url) := by
  cases h with
  | tcp htcp => rcases hrequest with hrequest | hrequest <;> cases htcp.symm.trans hrequest
  | udp hudp => rcases hrequest with hrequest | hrequest <;> cases hudp.symm.trans hrequest
  | http => rfl

theorem read_eq_ok_iff : read urls uri = .ok d ↔ ∃ url host, urls uri.trim = .ok url ∧
    url.host = some host ∧ host ≠ [] ∧ Stands url host d := by
  unfold read
  cases hurl : urls uri.trim with
  | error reason => simp
  | ok url =>
    dsimp only
    constructor
    · intro h
      split at h
      · cases h
      rename_i hsupported
      split at h
      · cases h
      rename_i host hhost
      split at h
      · cases h
      rename_i htext
      refine ⟨url, host, rfl, hhost, mt List.isEmpty_iff.2 htext, ?_⟩
      split at h
      · rename_i htcp
        exact Except.ok.inj h ▸ .tcp htcp
      rename_i htcp
      split at h
      · rename_i hudp
        exact Except.ok.inj h ▸ .udp hudp
      rename_i hudp
      have hmem : url.scheme.lower ∈ ["tcp".toList, "udp", "http", "https"] := by
        rwa [Bool.not_eq_true', Bool.not_eq_false, List.contains_iff_mem] at hsupported
      have hrequest := (List.mem_cons.1 hmem).resolve_left htcp
      have hrequest := (List.mem_cons.1 hrequest).resolve_left hudp
      rw [List.mem_cons, List.mem_singleton] at hrequest
      exact Except.ok.inj h ▸ .http hrequest
    · rintro ⟨url', host, hurl', hhost, htext, hstands⟩
      obtain rfl := Except.ok.inj hurl'
      have htext' : ¬host.isEmpty = true := mt List.isEmpty_iff.1 htext
      cases hstands with
      | tcp hscheme => simp [hscheme, hhost, htext']
      | udp hscheme => simp [hscheme, hhost, htext']
      | http hscheme =>
        rcases hscheme with hscheme | hscheme <;> simp [hscheme, hhost, htext']

/-- What a URL to which requests are sent is read as. -/
theorem eq_http_of_read (h : read urls uri = .ok d) (hurl : urls uri.trim = .ok url)
    (hrequest : Url.IsRequestScheme url.scheme.lower) :
    d = .http (requestUrl url) (credentialsOf url) := by
  obtain ⟨url', host, hurl', -, -, hstands⟩ := read_eq_ok_iff.1 h
  obtain rfl := Except.ok.inj (hurl.symm.trans hurl')
  exact hstands.eq_http hrequest

/-- Requests go to URLs without user name and password, which are read apart. -/
theorem read_eq_http_iff : read urls uri = .ok (.http url credentials) ↔ ∃ parsed host,
    urls uri.trim = .ok parsed ∧ parsed.host = some host ∧ host ≠ [] ∧
      Url.IsRequestScheme parsed.scheme.lower ∧ url = requestUrl parsed ∧
      credentials = credentialsOf parsed := by
  rw [read_eq_ok_iff]
  constructor
  · rintro ⟨parsed, host, hparsed, hhost, htext, hstands⟩
    cases hstands with
    | http hscheme => exact ⟨parsed, host, hparsed, hhost, htext, hscheme, rfl, rfl⟩
  · rintro ⟨parsed, host, hparsed, hhost, htext, hscheme, rfl, rfl⟩
    exact ⟨parsed, host, hparsed, hhost, htext, .http hscheme⟩

/-- User name and password have no part in where requests go. -/
theorem requestUrl_userinfo (url : Url) (username : Text) (password : Option Text) :
    requestUrl { url with username, password } = requestUrl url := rfl

theorem userinfo_requestUrl (url : Url) :
    (requestUrl url).username = [] ∧ (requestUrl url).password = none := by
  unfold requestUrl
  dsimp only
  split <;> exact ⟨rfl, rfl⟩

theorem scheme_requestUrl (url : Url) : (requestUrl url).scheme = url.scheme := by
  unfold requestUrl
  dsimp only
  split <;> rfl

/-- The scheme of a destination is the one that its URL begins with, and one of four. -/
theorem scheme_of_read (hurls : urls.ReadsScheme) (h : read urls uri = .ok d) :
    (∃ rest, Url.scheme? (Url.significant uri.trim) = some (d.scheme, rest)) ∧
      d.scheme ∈ ["tcp".toList, "udp", "http", "https"] := by
  obtain ⟨url, host, hurl, -, -, hstands⟩ := read_eq_ok_iff.1 h
  obtain ⟨rest, hscheme⟩ := hurls hurl
  have hlower := Url.lower_of_scheme? hscheme
  cases hstands with
  | tcp htcp =>
    rw [← hlower, htcp] at hscheme
    exact ⟨⟨rest, hscheme⟩, .head _⟩
  | udp hudp =>
    rw [← hlower, hudp] at hscheme
    exact ⟨⟨rest, hscheme⟩, .tail _ (.head _)⟩
  | http hrequest =>
    rw [hlower] at hrequest
    rw [scheme, scheme_requestUrl]
    refine ⟨⟨rest, hscheme⟩, ?_⟩
    rcases hrequest with hrequest | hrequest <;> rw [hrequest] <;> decide

theorem read_default : read Url.reader "tcp://localhost" = .ok (.tcp "localhost" defaultTcpPort) :=
  eq_ok_of_toOption (by decide +kernel)

end Destination

end LogShipper
