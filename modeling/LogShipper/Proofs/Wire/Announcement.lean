import LogShipper.Proofs.Destination.Reading
import LogShipper.Proofs.Wire.RoundTrip
import LogShipper.Wire.Line

/-!
# The transport that is announced

The settings line names the transport of the shipper.  It takes it from the destination as it stands
in the settings, where it cuts at the first `://`, while lines travel by the scheme of the URL that
the destination is read as.  Reading is more generous: it trims, drops what does not count, and asks
for no slashes in the schemes of the web.  So the name is that of the scheme exactly when the
destination begins with characters of a scheme and `://` (`transport_announced_iff`).
-/

namespace LogShipper

/-! ## Cutting at a text -/

namespace Text

variable {mark s t before after : Text} {c : Char}

/-- What is cut, put together with the mark, is the text. -/
theorem eq_of_cutAtText? (h : cutAtText? mark t = some (before, after)) :
    t = before ++ mark ++ after := by
  induction t generalizing before with
  | nil =>
    unfold cutAtText? at h
    split at h
    · rename_i hmark
      cases h
      rw [List.isEmpty_iff.1 hmark]
      rfl
    · cases h
  | cons c t ih =>
    unfold cutAtText? at h
    split at h
    · rename_i hprefix
      cases h
      rw [List.nil_append]
      exact (List.prefix_iff_eq_append.1 (List.isPrefixOf_iff_prefix.1 hprefix)).symm
    · obtain ⟨⟨before', after'⟩, hcut, hhalves⟩ := Option.map_eq_some_iff.1 h
      cases hhalves
      rw [ih hcut]
      rfl

/-- A text is cut at a mark whose first character does not come before. -/
theorem cutAtText?_append (h : c ∉ s) (t : Text) :
    cutAtText? (c :: mark) (s ++ c :: mark ++ t) = some (s, t) := by
  induction s with
  | nil =>
    have hprefix : (c :: mark).isPrefixOf (c :: (mark ++ t)) = true :=
      List.isPrefixOf_iff_prefix.2 (List.prefix_append (c :: mark) t)
    rw [List.nil_append, List.cons_append, cutAtText?, if_pos hprefix, ← List.cons_append,
      List.drop_left]
  | cons d s ih =>
    obtain ⟨hne, hrest⟩ := not_or.1 (mt List.mem_cons.2 h)
    have hprefix : ¬(c :: mark).isPrefixOf (d :: (s ++ c :: mark ++ t)) = true := by
      simp [List.isPrefixOf, hne]
    rw [List.cons_append, List.cons_append, cutAtText?, if_neg hprefix, ih hrest]
    rfl

end Text

namespace Wire

/-! ## What is announced -/

variable {urls : UrlReader} {uri : Text} {d : Destination}

/-- Whether a destination begins with characters of a scheme and `://`. -/
def BeginsWithScheme (uri : Text) : Prop := ∃ scheme rest : Text,
  uri = scheme ++ "://" ++ rest ∧ ∀ c ∈ scheme, Url.isSchemeChar c = true

/-- The announced transport of a destination is its scheme exactly when it begins with it. -/
theorem announcedTransport_eq_iff (hurls : urls.ReadsScheme)
    (h : Destination.read urls uri = .ok d) :
    announcedTransport uri = d.scheme ↔ BeginsWithScheme uri := by
  obtain ⟨⟨rest, hread⟩, hscheme⟩ := Destination.scheme_of_read hurls h
  constructor
  · intro hannounced
    unfold announcedTransport at hannounced
    cases hcut : Text.cutAtText? "://" uri with
    | none =>
      rw [hcut] at hannounced
      rw [← hannounced] at hscheme
      exact absurd hscheme (by decide)
    | some halves =>
      rw [hcut] at hannounced
      have hsmall : ∀ scheme ∈ ["tcp".toList, "udp", "http", "https"],
          scheme.all Char.isLower = true := by decide
      refine ⟨halves.1, halves.2, Text.eq_of_cutAtText? hcut, fun c hc => ?_⟩
      exact Url.isSchemeChar_of_isAlpha (Url.isAlpha_of_lower hannounced (hsmall _ hscheme) c hc)
  · rintro ⟨scheme, after, rfl, hchars⟩
    have hcolon : ':' ∉ scheme := fun hmem => absurd (hchars ':' hmem) (by decide)
    have hcut : Text.cutAtText? "://" (scheme ++ "://" ++ after) = some (scheme, after) :=
      Text.cutAtText?_append hcolon after
    rw [Url.trim_scheme_nil hchars, Url.significant_scheme_nil hchars,
      Url.scheme?_append hchars] at hread
    unfold announcedTransport
    rw [hcut]
    split at hread
    · exact congrArg Prod.fst (Option.some.inj hread)
    · cases hread

/-- No property about a trigger is called `transport`. -/
theorem triggerProperty_name_ne (t : TriggerSettings) :
    (triggerProperty t).name ≠ "transport".toList := by
  have hstart : (triggerProperty t).name.take 3 = "tri".toList := by
    unfold triggerProperty
    rw [List.take_append_of_le_length (by decide)]
    decide
  intro h
  rw [h] at hstart
  exact absurd hstart (by decide)

/-- The settings show one transport. -/
theorem filter_settingsProperties (settings : Settings) :
    (settingsProperties settings).filter (fun p => p.name = "transport".toList) =
      [⟨"transport", announcedTransport settings.destination⟩] := by
  have htriggers : (settings.effectiveTriggers.map triggerProperty).filter
      (fun p => p.name = "transport".toList) = [] := by
    refine List.filter_eq_nil_iff.2 (List.forall_mem_map.2 fun t _ => ?_)
    rw [decide_eq_true_eq]
    exact triggerProperty_name_ne t
  unfold settingsProperties
  rw [List.filter_append, htriggers, List.append_nil]
  rfl

namespace Renderer

variable {settings : Settings} {facts : ProcessFacts} {r : Renderer}

theorem propertyText_transport (value : Text) :
    propertyText ⟨"transport", value⟩ = " v:transport=" ++ escapeValue value := by
  have hname : (" v:" : Text) ++ sanitizeName "transport" ++ ['='] = " v:transport=" := by
    decide +kernel
  unfold propertyText
  rw [List.append_cons, hname]

/-- Where the settings line shows the transport. -/
theorem render_settings_transport (hr : ofSettings settings facts = .ok r) : ∃ before after,
    r.render .settings = .ok (before ++ (" v:transport="
      ++ escapeValue (announcedTransport settings.destination)) ++ after) := by
  have hmem : ⟨"transport", announcedTransport settings.destination⟩ ∈ r.settings := by
    rw [eq_of_ofSettings hr]
    have h := filter_settingsProperties settings
    exact (List.mem_filter.1 (h ▸ List.mem_singleton_self _)).1
  obtain ⟨before, after, hsplit⟩ := List.append_of_mem hmem
  have hline : r.render .settings = .ok (r.propertyLine "logger_settings" r.settings) := rfl
  refine ⟨r.propertyLine "logger_settings" before, after.flatMap propertyText, ?_⟩
  rw [hline, hsplit]
  unfold propertyLine
  rw [List.flatMap_append, List.flatMap_cons, propertyText_transport, ← List.append_assoc,
    ← List.append_assoc]

end Renderer

/-- **The announced transport.**  Accepted settings show one transport, on the settings line of
whatever renderer is made for them, and it is the scheme by which lines travel exactly when the
destination begins with characters of a scheme and `://`.  The reader of URLs is any that reads
schemes. -/
theorem transport_announced_iff {settings : Settings} (hurls : urls.ReadsScheme)
    (h : settings.validate urls = .ok d) :
    ∃ value, (settingsProperties settings).filter (fun p => p.name = "transport".toList) =
        [⟨"transport", value⟩] ∧
      (∀ facts r, Renderer.ofSettings settings facts = .ok r → r.settings =
        settingsProperties settings ∧ ∃ before after, r.render .settings =
          .ok (before ++ (" v:transport=" ++ escapeValue value) ++ after)) ∧
      (value = d.scheme ↔ BeginsWithScheme settings.destination) := by
  refine ⟨_, filter_settingsProperties settings, ?_, ?_⟩
  · intro facts r hr
    refine ⟨?_, Renderer.render_settings_transport hr⟩
    rw [Renderer.eq_of_ofSettings hr]
  · exact announcedTransport_eq_iff hurls (Settings.validate_eq_ok_iff.1 h).2

/-- A scheme in capitals, whose URL holds `://` once more. -/
theorem transport_announced_iff_of_capitals :
    let settings : Settings := { entity := "host", destination := "HTTPS://collector/?to=tcp://x" }
    ∃ d, settings.validate Url.reader = .ok d ∧ d.scheme = "https" ∧
      BeginsWithScheme settings.destination ∧
      (settingsProperties settings).filter (fun p => p.name = "transport".toList) =
        [⟨"transport", "https"⟩] := by
  intro settings
  obtain ⟨d, hread, hscheme⟩ : ∃ d, Destination.read Url.reader settings.destination = .ok d ∧
      d.scheme = "https" := by
    let url : Url :=
      { scheme := "https"
        host := some "collector".toList
        path := "/"
        query := some "to=tcp://x".toList }
    have hurl : Url.reader settings.destination.trim = .ok url :=
      eq_ok_of_toOption (by decide +kernel)
    exact ⟨_, Destination.read_eq_http_iff.2 ⟨url, _, hurl, rfl, by decide, .inr rfl, rfl, rfl⟩,
      by decide⟩
  have hvalid : settings.validate Url.reader = .ok d :=
    Settings.validate_eq_ok_iff.2 ⟨by decide, hread⟩
  have hbegins : BeginsWithScheme settings.destination :=
    ⟨"HTTPS", "collector/?to=tcp://x", by decide, List.all_eq_true.1 (by decide)⟩
  obtain ⟨value, hshown, -, hiff⟩ := transport_announced_iff Url.readsScheme_reader hvalid
  rw [hiff.2 hbegins, hscheme] at hshown
  exact ⟨d, hvalid, hscheme, hbegins, hshown⟩

/-- A destination with a blank in front of it is accepted.  Lines travel by its scheme, and the
blank is announced with it. -/
theorem blank_announced :
    let settings : Settings := { entity := "host", destination := " tcp://collector" }
    let facts : ProcessFacts := ⟨"agent", 1, "host", "linux", "x86_64", "1.0.0"⟩
    let d : Destination := .tcp "collector" Destination.defaultTcpPort
    settings.validate Url.reader = .ok d ∧ d.scheme = "tcp" ∧
    (settingsProperties settings).filter (fun p => p.name = "transport".toList) =
      [⟨"transport", " tcp"⟩] ∧
    ∃ r before after, Renderer.ofSettings settings facts = .ok r ∧
      r.render .settings = .ok (before ++ " v:transport=\" tcp\"" ++ after) := by
  intro settings facts d
  have hread : Destination.read Url.reader settings.destination = .ok d :=
    eq_ok_of_toOption (by decide +kernel)
  have hannounced : announcedTransport settings.destination = " tcp" := by decide
  have hquoted : (" v:transport=" : Text) ++ escapeValue " tcp" = " v:transport=\" tcp\"" := by
    decide
  have hshown := filter_settingsProperties settings
  obtain ⟨r, hr⟩ : ∃ r, Renderer.ofSettings settings facts = .ok r := ⟨_, rfl⟩
  obtain ⟨before, after, hline⟩ := Renderer.render_settings_transport hr
  rw [hannounced] at hshown
  rw [hannounced, hquoted] at hline
  exact ⟨Settings.validate_eq_ok_iff.2 ⟨by decide, hread⟩, rfl, hshown, r, before, after, hr, hline⟩

end Wire

end LogShipper
