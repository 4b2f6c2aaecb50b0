import LogShipper.Proofs.Url.Readers
import LogShipper.Url.Reading

/-!
# How a URL is taken apart

The reader of `Url.Reading` reads a URL by a row of cuts, and what is said here follows them.  In the
schemes of the web, user name and password come from what stands before the last `@` of the authority
and from nothing else: a URL is read like the one without them, up to these two parts
(`readAuthority_append`).

So this reader does what is asked of readers (`readsScheme_reader`, `readsUserinfo_reader`).
-/

namespace LogShipper.Url

/-! ## User name and password -/

theorem cutAtLast?_append {p : Char → Bool} {c : Char} (hc : p c = true) (before : Text)
    {after : Text} (h : ∀ d ∈ after, p d = false) :
    cutAtLast? p (before ++ c :: after) = some (before, after) := by
  have hreverse : (before ++ c :: after).reverse = after.reverse ++ c :: before.reverse := by
    simp
  unfold cutAtLast?
  rw [hreverse, Text.cutAt?_append (fun d hd => h d (List.mem_reverse.1 hd)) hc,
    Option.map_some, List.reverse_reverse, List.reverse_reverse]

theorem cutAtLast?_eq_none {p : Char → Bool} {t : Text} (h : ∀ c ∈ t, p c = false) :
    cutAtLast? p t = none := by
  unfold cutAtLast?
  rw [Text.cutAt?_eq_none_iff.2 fun c hc => h c (List.mem_reverse.1 hc), Option.map_none]

/-- What stands before an `@` is read as a user name and a password, whatever host follows. -/
def CutsUserinfo (userinfo username : Text) (password : Option Text) : Prop :=
  ∀ hostPort : Text, '@' ∉ hostPort →
    readUserinfo (userinfo ++ '@' :: hostPort) = (username, password, hostPort)

theorem readUserinfo_of_not_mem {authority : Text} (h : '@' ∉ authority) :
    readUserinfo authority = ([], none, authority) := by
  unfold readUserinfo
  rw [cutAtLast?_eq_none (Text.ne_of_not_mem h)]

theorem cutsUserinfo_name {name : Text} (h : ':' ∉ name) :
    CutsUserinfo name (encode .userinfo name) none := by
  intro hostPort hhost
  unfold readUserinfo
  rw [cutAtLast?_append (decide_eq_true rfl) name (Text.ne_of_not_mem hhost)]
  dsimp only
  rw [Text.cutAt?_of_not_mem h]

theorem cutsUserinfo_password {name secret : Text} (h : ':' ∉ name) (hsecret : secret ≠ []) :
    CutsUserinfo (name ++ ':' :: secret) (encode .userinfo name)
      (some (encode .userinfo secret)) := by
  intro hostPort hhost
  unfold readUserinfo
  rw [cutAtLast?_append (decide_eq_true rfl) _ (Text.ne_of_not_mem hhost)]
  dsimp only
  rw [Text.cutAt?_mark h]
  dsimp only
  rw [if_neg (mt List.isEmpty_iff.1 hsecret)]

/-! ## Authority -/

/-- What is read once the authority is cut off. -/
theorem readAuthority_eq (scheme t : Text) : readAuthority scheme t =
    let web := isWebScheme scheme
    let authority := t.takeWhile fun c => !endsAuthority web c
    let rest := t.dropWhile fun c => !endsAuthority web c
    let (username, password, hostPort) := readUserinfo authority
    if authority = ['@'] && !rest.isEmpty then .error .emptyHost
    else (readHostPort scheme (!username.isEmpty || password.isSome) hostPort).map fun parts =>
      let (beforeFragment, fragment) := cutOff (· = '#') rest
      let (path, query) := cutOff (· = '?') beforeFragment
      { scheme, username, password, host := parts.1.map Host.text, port := parts.2
        path := readPath web path
        query := query.map (encode (if web then .specialQuery else .query))
        fragment := fragment.map (encode .fragment) } := by
  unfold readAuthority
  dsimp only
  rcases readUserinfo _ with ⟨username, password, hostPort⟩
  split
  · rfl
  · rename_i hstray
    dsimp only
    cases readHostPort scheme (!username.isEmpty || password.isSome) hostPort with
    | error fault => rfl
    | ok parts => rfl

theorem readHostPort_hasUserinfo {scheme : Text} (h : isWebScheme scheme = true) (b b' : Bool)
    (t : Text) : readHostPort scheme b t = readHostPort scheme b' t := by
  unfold readHostPort
  simp only [h, Bool.true_or]

/-- In the schemes of the web, user name and password make no difference to the other parts of a
URL. -/
theorem readAuthority_append {scheme userinfo username rest : Text} {password : Option Text}
    (hweb : isWebScheme scheme = true) (hnonempty : userinfo ≠ [])
    (hinside : ∀ c ∈ userinfo, endsAuthority true c = false)
    (hparts : CutsUserinfo userinfo username password)
    (hrest : '@' ∉ rest.takeWhile fun c => !endsAuthority true c) :
    readAuthority scheme (userinfo ++ '@' :: rest) =
      (readAuthority scheme rest).map fun url => { url with username, password } := by
  have hall : ∀ c ∈ userinfo ++ ['@'], (!endsAuthority true c) = true := by
    intro c hc
    rcases List.mem_append.1 hc with hc | hc
    · rw [hinside c hc, Bool.not_false]
    · rw [List.mem_singleton.1 hc]
      decide
  have htake : (userinfo ++ '@' :: rest).takeWhile (fun c => !endsAuthority true c) =
      userinfo ++ '@' :: rest.takeWhile fun c => !endsAuthority true c := by
    rw [List.append_cons userinfo '@' rest, List.takeWhile_append_of_pos hall, ← List.append_cons]
  have hdrop : (userinfo ++ '@' :: rest).dropWhile (fun c => !endsAuthority true c) =
      rest.dropWhile fun c => !endsAuthority true c := by
    rw [List.append_cons, List.dropWhile_append_of_pos hall]
  have hstray : userinfo ++ '@' :: rest.takeWhile (fun c => !endsAuthority true c) ≠ ['@'] := by
    intro h
    have hlength := congrArg List.length h
    simp only [List.length_append, List.length_cons, List.length_nil] at hlength
    exact hnonempty (List.eq_nil_of_length_eq_zero (by omega))
  have hstray' : rest.takeWhile (fun c => !endsAuthority true c) ≠ ['@'] := by
    intro h
    exact hrest (h ▸ List.mem_singleton_self '@')
  rw [readAuthority_eq, readAuthority_eq]
  simp only [hweb, htake, hdrop, hparts _ hrest, readUserinfo_of_not_mem hrest, hstray, hstray',
    decide_false, Bool.false_and, Bool.false_eq_true, if_false]
  rw [readHostPort_hasUserinfo hweb _ (!([] : Text).isEmpty || (none : Option Text).isSome)]
  cases readHostPort scheme _ _ with
  | error fault => rfl
  | ok parts => rfl

/-- Scheme, user name and password of what is read. -/
theorem parts_of_readAuthority {scheme t : Text} {url : Url} (h : readAuthority scheme t = .ok url) :
    url.scheme = scheme ∧ ∃ hostPort,
      readUserinfo (t.takeWhile fun c => !endsAuthority (isWebScheme scheme) c) =
        (url.username, url.password, hostPort) := by
  rw [readAuthority_eq] at h
  dsimp only at h
  rcases hparts : readUserinfo _ with ⟨username, password, hostPort⟩
  rw [hparts] at h
  split at h
  · cases h
  · dsimp only at h
    cases hhost : readHostPort scheme (!username.isEmpty || password.isSome) hostPort with
    | error fault =>
      rw [hhost] at h
      cases h
    | ok parts =>
      rw [hhost] at h
      obtain rfl := Except.ok.inj h
      exact ⟨rfl, hostPort, rfl⟩

/-! ## Everything together -/

theorem scheme_of_readFile {t : Text} {url : Url} (h : readFile t = .ok url) :
    url.scheme = "file".toList := by
  unfold readFile at h
  split at h
  · split at h
    · rename_i rest hslashes
      dsimp only at h
      split at h
      · rw [← Except.ok.inj h]
      · cases hhost : Host.readSpecial (rest.takeWhile fun c => !endsAuthority true c) with
        | error fault =>
          rw [hhost] at h
          cases h
        | ok host =>
          rw [hhost] at h
          rw [← Except.ok.inj h]
    · rw [← Except.ok.inj h]
  · rw [← Except.ok.inj h]

/-- The scheme of a URL is the one that its text begins with. -/
theorem scheme_of_read {t : Text} {url : Url} (h : read t = .ok url) :
    ∃ rest, scheme? (significant t) = some (url.scheme, rest) := by
  unfold read at h
  split at h
  · cases h
  rename_i scheme rest hscheme
  refine ⟨rest, ?_⟩
  rw [hscheme]
  split at h
  · rename_i hfile
    rw [scheme_of_readFile h, hfile]
  split at h
  · rw [(parts_of_readAuthority h).1]
  split at h
  · rw [(parts_of_readAuthority h).1]
  · rw [← Except.ok.inj h]

/-- A URL of the web is read from its authority. -/
theorem read_of_scheme? {t scheme rest : Text} (h : scheme? (significant t) = some (scheme, rest))
    (hrequest : IsRequestScheme scheme) :
    read t = readAuthority scheme (rest.dropWhile (isSlash true)) := by
  unfold read
  rw [h]
  dsimp only
  rw [if_neg hrequest.ne_file, if_pos hrequest.isWebScheme]

/-! ## As a reader -/

theorem reader_eq_ok_iff {t : Text} {url : Url} : reader t = .ok url ↔ read t = .ok url := by
  unfold reader
  cases read t <;> simp [Except.mapError]

/-- The reader reads schemes. -/
theorem readsScheme_reader : UrlReader.ReadsScheme reader :=
  fun h => scheme_of_read (reader_eq_ok_iff.1 h)

/-- What ends an authority or does not count in a URL is a divider. -/
theorem mem_dividers {c : Char} (h : endsAuthority true c = true ∨ isIgnored c = true) :
    c ∈ dividers ∧ c ≠ '%' := by
  obtain ((rfl | rfl) | rfl | rfl) | (rfl | rfl) | rfl :
      ((c = '/' ∨ c = '\\') ∨ c = '?' ∨ c = '#') ∨ (c = '\t' ∨ c = '\n') ∨ c = '\x0d' := by
    simpa [endsAuthority, isSlash, isIgnored, or_assoc] using h
  all_goals decide

/-- Whether a text neither ends an authority nor holds what does not count. -/
def IsInside (t : Text) : Prop := ∀ c ∈ t, endsAuthority true c = false ∧ isIgnored c = false

theorem IsUserinfo.isInside {t : Text} (h : IsUserinfo t) : IsInside t := by
  intro c hc
  have houtside : ¬(endsAuthority true c = true ∨ isIgnored c = true) := by
    intro hdivides
    obtain ⟨hmem, hne⟩ := mem_dividers hdivides
    exact h.not_mem hmem hne hc
  simpa using houtside

/-- What a user name and a password are cut into. -/
theorem exists_userinfo {name : Text} {secret : Option Text} (hname : IsUserinfo name)
    (hne : name ≠ []) (hsecret : ∀ t ∈ secret, IsUserinfo t ∧ t ≠ []) :
    ∃ userinfo, userinfoText name secret = userinfo ++ ['@'] ∧ userinfo ≠ [] ∧ IsInside userinfo ∧
      CutsUserinfo userinfo (encode .userinfo name) (secret.map (encode .userinfo)) := by
  have hcolon : ':' ∉ name := hname.not_mem (by decide) (by decide)
  cases secret with
  | none =>
    refine ⟨name, ?_, hne, hname.isInside, cutsUserinfo_name hcolon⟩
    cases name with
    | nil => exact absurd rfl hne
    | cons c name => rfl
  | some secret =>
    obtain ⟨hsecret, hne'⟩ := hsecret secret rfl
    refine ⟨name ++ ':' :: secret, ?_, by simp, ?_, cutsUserinfo_password hcolon hne'⟩
    · cases name <;> simp [userinfoText]
    · intro c hc
      rcases List.mem_append.1 hc with hc | hc
      · exact hname.isInside c hc
      rcases List.mem_cons.1 hc with rfl | hc
      · decide
      · exact hsecret.isInside c hc

/-- The host still comes first when the end is cut off that does not count. -/
theorem StartsWithHost.significantEnd {rest : Text} (h : StartsWithHost rest) :
    IsHostFirst (significantEnd rest) :=
  h.of_isPrefix (isPrefix_significantEnd rest)

theorem IsHostFirst.dropWhile_isSlash {counted : Text} (h : IsHostFirst counted) :
    counted.dropWhile (isSlash true) = counted := by
  cases counted with
  | nil => rfl
  | cons c counted =>
    exact List.dropWhile_cons_of_neg (by rw [h.1 c rfl]; exact Bool.false_ne_true)

/-- A URL to which requests are sent is read from what follows its slashes. -/
theorem read_append {scheme : Text} (front : Text) {last : Char}
    (hrequest : IsRequestScheme scheme.lower) (hfront : ∀ c ∈ front, isIgnored c = false)
    (hlast : ('/' :: front).getLast? = some last) (hsolid : isSolid last = true) (rest : Text) :
    read (scheme ++ "://" ++ front ++ rest) =
      readAuthority scheme.lower ((front ++ significantEnd rest).dropWhile (isSlash true)) := by
  have hscheme : scheme? (significant (scheme ++ "://" ++ front ++ rest)) =
      some (scheme.lower, '/' :: '/' :: (front ++ significantEnd rest)) := by
    rw [significant_scheme hrequest.isSchemeChar hfront hlast hsolid, hrequest.scheme?]
  -- the two slashes are dropped with those that may follow
  rw [read_of_scheme? hscheme hrequest]
  rfl

/-- A URL that has nothing in front of its host is read from the host on. -/
theorem read_of_startsWithHost {scheme rest : Text} (hrequest : IsRequestScheme scheme.lower)
    (hrest : StartsWithHost rest) :
    read (scheme ++ "://" ++ rest) = readAuthority scheme.lower (significantEnd rest) := by
  have h := read_append [] hrequest (List.forall_mem_nil _) rfl (by decide) rest
  rw [List.append_nil, List.nil_append, hrest.significantEnd.dropWhile_isSlash] at h
  exact h

/-- A URL with something in front of its host is read from there on. -/
theorem read_userinfo {scheme userinfo : Text} (hrequest : IsRequestScheme scheme.lower)
    (hne : userinfo ≠ []) (hinside : IsInside userinfo) (rest : Text) :
    read (scheme ++ "://" ++ (userinfo ++ ['@']) ++ rest) =
      readAuthority scheme.lower (userinfo ++ '@' :: significantEnd rest) := by
  have hcounts : ∀ c ∈ userinfo ++ ['@'], isIgnored c = false := by
    intro c hc
    rcases List.mem_append.1 hc with hc | hc
    · exact (hinside c hc).2
    · exact List.mem_singleton.1 hc ▸ by decide
  have hlast : ('/' :: (userinfo ++ ['@'])).getLast? = some '@' := by
    rw [← List.cons_append, List.getLast?_concat]
  rw [read_append _ hrequest hcounts hlast (by decide) rest, List.append_assoc userinfo,
    List.singleton_append]
  cases userinfo with
  | nil => exact absurd rfl hne
  | cons c userinfo =>
    have hslash : ¬isSlash true c = true := by
      have hc := (hinside c List.mem_cons_self).1
      simp_all [endsAuthority]
    rw [List.cons_append, List.dropWhile_cons_of_neg hslash]

/-- The reader reads user names and passwords. -/
theorem readsUserinfo_reader : UrlReader.ReadsUserinfo reader := by
  intro scheme name rest secret url hrequest hname hne hsecret hrest hurl
  obtain ⟨userinfo, htext, hne', hinside, hparts⟩ := exists_userinfo hname hne hsecret
  have hauthority := hrest.significantEnd.2
  have hends : ∀ c ∈ userinfo, endsAuthority true c = false := fun c hc => (hinside c hc).1
  -- both URLs are read from the authority on, and the authorities differ in the two parts only
  have hbare := read_of_startsWithHost hrequest hrest
  have hfull := read_userinfo hrequest hne' hinside rest
  rw [reader_eq_ok_iff] at hurl
  obtain ⟨-, hostPort, hbareParts⟩ := parts_of_readAuthority (hbare.symm.trans hurl)
  rw [hrequest.isWebScheme, readUserinfo_of_not_mem hauthority] at hbareParts
  obtain ⟨husername, hrest'⟩ := Prod.mk.inj hbareParts
  refine ⟨husername.symm, (Prod.mk.inj hrest').1.symm, reader_eq_ok_iff.2 ?_⟩
  rw [htext, hfull, readAuthority_append hrequest.isWebScheme hne' hends hparts hauthority, ← hbare,
    hurl]
  rfl

end LogShipper.Url
