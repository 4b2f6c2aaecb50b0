import LogShipper.Proofs.Aggregator.Counts
import LogShipper.Proofs.Destination.Reading
import LogShipper.Proofs.Wire.Framing

/-!
# Payloads and their lines

A write hands over its lines as one payload, which the collector cuts at line feeds again.  The
lines of a write come back one by one exactly when none of them holds a line feed itself
(`Carries.lines_iff`).

For a shipper that was built from settings this depends on six texts: the metric base and the
announced transport, which stand on the settings line, and the names of the host and of the system,
the architecture and the version, which stand on the line about the process.  These are written
without folding.  All other lines, and all other fields, are unbroken whatever is written on them
(`Shipper.framing`).
-/

namespace LogShipper

open Wire Transport

/-! ## Shippers that were built -/

/-- The parts of a shipper that was built. -/
theorem Shipper.parts_of_build {urls : UrlReader} {settings : Settings} {facts : ProcessFacts}
    {s : Shipper} (h : build urls settings facts = .ok s) :
    s.settings = settings ∧ settings.validate urls = .ok s.destination ∧
      Renderer.ofSettings settings facts = .ok s.renderer := by
  unfold build at h
  split at h
  · cases h
  · rename_i destination hdestination
    split at h
    · cases h
    · rename_i renderer hrenderer
      obtain rfl := Except.ok.inj h
      exact ⟨rfl, hdestination, hrenderer⟩

/-- Accepted settings for which lines can be written make a shipper. -/
theorem Shipper.build_eq_ok {urls : UrlReader} (settings : Settings) (facts : ProcessFacts)
    {destination : Destination} {renderer : Renderer}
    (hdestination : settings.validate urls = .ok destination)
    (hrenderer : Renderer.ofSettings settings facts = .ok renderer) :
    build urls settings facts = .ok
      ⟨settings, destination, renderer, Settings.checkInterval_pos_of_validate hdestination⟩ := by
  unfold build
  split
  · rename_i herror
    cases hdestination.symm.trans herror
  · rename_i destination' hdestination'
    obtain rfl := Except.ok.inj (hdestination.symm.trans hdestination')
    rw [hrenderer]

/-- The texts that property lines show as they were given. -/
def Shipper.outerTexts (settings : Settings) (facts : ProcessFacts) : List Text :=
  [settings.metricBase, announcedTransport settings.destination, facts.hostname, facts.os,
    facts.arch, facts.version]

/-- All lines of a shipper are unbroken exactly when those texts are. -/
theorem Shipper.isUnbroken_lines_iff {urls : UrlReader} {settings : Settings}
    {facts : ProcessFacts} {s : Shipper} (h : build urls settings facts = .ok s) :
    (∀ line text, s.renderer.render line = .ok text → text.IsUnbroken) ↔
      ∀ text ∈ outerTexts settings facts, text.IsUnbroken := by
  have hrenderer := (parts_of_build h).2.2
  simp only [outerTexts, List.forall_mem_cons]
  constructor
  · intro hlines
    obtain ⟨hmetric, htransport⟩ :=
      (Renderer.isUnbroken_settings_iff hrenderer).1 (hlines .settings _ rfl)
    obtain ⟨hhost, hos, harch, hversion⟩ :=
      (Renderer.isUnbroken_runtime_iff hrenderer).1 (hlines .runtime _ rfl)
    exact ⟨hmetric, htransport, hhost, hos, harch, hversion, List.forall_mem_nil _⟩
  · rintro ⟨hmetric, htransport, hhost, hos, harch, hversion, -⟩ line text htext
    by_cases hline : line ∈ propertyLines
    · rcases List.mem_cons.1 hline with rfl | hline
      · obtain rfl := Except.ok.inj htext
        exact (Renderer.isUnbroken_settings_iff hrenderer).2 ⟨hmetric, htransport⟩
      · obtain rfl := List.mem_singleton.1 hline
        obtain rfl := Except.ok.inj htext
        exact (Renderer.isUnbroken_runtime_iff hrenderer).2 ⟨hhost, hos, harch, hversion⟩
    · exact Renderer.isUnbroken_render hrenderer hline htext

/-! ## A process to look at -/

/-- A process about which nothing has a line break. -/
def Wire.ProcessFacts.plain : ProcessFacts where
  command := "agent"
  pid := 1
  hostname := "host"
  os := "linux"
  arch := "x86_64"
  version := "1.0.0"

/-! ## Payloads -/

/-- The lines of a payload are those that it carries exactly when none of them holds a line feed. -/
theorem Carries.lines_iff {payload : List UInt8} {lines : List Rendered} (h : Carries payload lines)
    (hne : lines ≠ []) : (Utf8.decodeLossy payload).lines = lines.map Rendered.text ↔
      ∀ x ∈ lines, '\n' ∉ x.text := by
  have htexts : lines.map Rendered.text ≠ [] := mt List.map_eq_nil_iff.1 hne
  have htext : Utf8.decodeLossy payload = Wire.payload (lines.map Rendered.text) := by
    rw [Utf8.decodeLossy_of_decode h, payload_eq_flatMap htexts, List.flatMap_map]
  rw [htext, lines_payload_iff htexts]
  exact List.forall_mem_map

/-- A payload is made of some lines, which carry the text that the renderer gives them, and is cut
into them exactly when none holds a line feed. -/
structure Shipper.Frames (s : Shipper) (payload : List UInt8) (lines : List Rendered) : Prop where
  nonempty : lines ≠ []
  rendered : ∀ x ∈ lines, s.renderer.render x.line = .ok x.text
  carries : Carries payload lines
  lines_iff : (Utf8.decodeLossy payload).lines = lines.map Rendered.text ↔
    ∀ x ∈ lines, '\n' ∉ x.text

/-- The payloads that the transport of a run was given are made of the lines of its writes. -/
theorem RecordedMoves.frames {τ : Type} [Transport τ] {s : Shipper} {transport : τ} {now : Nat}
    {r : Run (Recorded τ)} (h : RecordedMoves s (Run.new s (.of transport) now) r) :
    List.Forall₂ s.Frames r.transport.payloads r.history.written := by
  have hcarried := h.attested.payloads
  refine List.forall₂_iff_zip.2 ⟨hcarried.length_eq, fun {payload lines} hpair => ?_⟩
  have hlines := h.attested.mem_attempts (List.of_mem_zip hpair).2
  have hnonempty := h.moves.attempt_ne_nil hlines
  have hcarries := List.forall₂_zip hcarried hpair
  exact {
    nonempty := hnonempty
    rendered := fun x hx => h.moves.render_attempts x (List.mem_flatten_of_mem hlines hx)
    carries := hcarries
    lines_iff := hcarries.lines_iff hnonempty }

/-- **Framing.**  The lines of counters, totals and messages are unbroken, and all lines of a
shipper are exactly when the texts are that property lines show as they were given.  Each payload
that the transport of a run is given is made of lines of the shipper.  It is cut into them exactly
when none holds a line feed, and so always if those texts are unbroken. -/
theorem Shipper.framing {urls : UrlReader} {settings : Settings} {facts : ProcessFacts}
    {s : Shipper} (h : build urls settings facts = .ok s) :
    (∀ line text, line ∉ propertyLines → s.renderer.render line = .ok text → text.IsUnbroken) ∧
    ((∀ line text, s.renderer.render line = .ok text → text.IsUnbroken) ↔
      ∀ text ∈ outerTexts settings facts, text.IsUnbroken) ∧
    ∀ {τ : Type} [Transport τ] (transport : τ) (now : Nat) {r : Run (Recorded τ)},
      RecordedMoves s (Run.new s (.of transport) now) r →
        r.Attested ∧
        List.Forall₂ s.Frames r.transport.payloads r.history.written ∧
        ((∀ text ∈ outerTexts settings facts, text.IsUnbroken) →
          r.transport.payloads.map (fun payload => (Utf8.decodeLossy payload).lines) =
            r.history.written.map fun lines => lines.map Rendered.text) := by
  refine ⟨?_, isUnbroken_lines_iff h, ?_⟩
  · intro line text hline htext
    exact Renderer.isUnbroken_render (parts_of_build h).2.2 hline htext
  · intro τ _ transport now r hr
    refine ⟨hr.attested, hr.frames, fun hunbroken => ?_⟩
    have hcut : ∀ {payload lines}, s.Frames payload lines →
        (Utf8.decodeLossy payload).lines = lines.map Rendered.text := by
      intro payload lines hframes
      refine hframes.lines_iff.2 fun x hx hfeed => ?_
      have htext := (isUnbroken_lines_iff h).2 hunbroken x.line x.text (hframes.rendered x hx)
      exact absurd (htext '\n' hfeed) (by decide)
    refine List.forall₂_eq_eq_eq ▸ List.forall₂_map_left_iff.2 (List.forall₂_map_right_iff.2 ?_)
    exact hr.frames.imp fun _ _ => hcut

/-- A host is told apart from the lines about it, although the message of an event has two. -/
theorem Shipper.framing_plain : ∃ s, build Url.reader { entity := "host" } .plain = .ok s ∧
    let reading : Reading :=
      { key := "app\nforged", label := "ERROR", severity := .error, rendered := .ok "one\ntwo" }
    let r := (Run.new s (.of ({} : Scripted)) 0).exec s
      ([.register reading, .start true, .settle].map Step.recorded)
    r.history.written.map List.length = [3] ∧
      r.transport.payloads.map (fun payload => (Utf8.decodeLossy payload).lines) =
        r.history.written.map fun lines => lines.map Rendered.text := by
  have hbuild : build Url.reader { entity := "host" } .plain = .ok _ :=
    build_eq_ok _ _ (Settings.validate_eq_ok_iff.2 ⟨by decide, Destination.read_default⟩) rfl
  refine ⟨_, hbuild, ?_⟩
  intro reading r
  have hmoves : RecordedMoves _ (Run.new _ (.of ({} : Scripted)) 0) r := RecordedMoves.exec _ _ _
  obtain ⟨-, -, hcut⟩ := (framing hbuild).2.2 ({} : Scripted) 0 hmoves
  exact ⟨by decide +kernel, hcut (by decide)⟩

/-- A metric base with a line break is accepted.  It breaks the settings line, and the first payload
of the shipper is cut into other lines than it was made of. -/
theorem Shipper.broken_settings_line :
    ∃ s, build Url.reader { entity := "host", metricBase := "log\nevent" } .plain = .ok s ∧
      (∃ text, s.renderer.render .settings = .ok text ∧ ¬text.IsUnbroken) ∧
      let r := (Run.new s (.of ({} : Scripted)) 0).exec s ([.start true, .settle].map Step.recorded)
      ∃ payload ∈ r.transport.payloads, ∃ lines ∈ r.history.written, Carries payload lines ∧
        (Utf8.decodeLossy payload).lines ≠ lines.map Rendered.text := by
  have hbuild : build Url.reader { entity := "host", metricBase := "log\nevent" } .plain = .ok _ :=
    build_eq_ok _ _ (Settings.validate_eq_ok_iff.2 ⟨by decide, Destination.read_default⟩) rfl
  have hbroken : ¬Text.IsUnbroken "log\nevent" := by decide
  refine ⟨_, hbuild, ⟨_, rfl, ?_⟩, ?_⟩
  · intro hline
    exact hbroken ((Renderer.isUnbroken_settings_iff (parts_of_build hbuild).2.2).1 hline).1
  · intro r
    have hmoves : RecordedMoves _ (Run.new _ (.of ({} : Scripted)) 0) r := RecordedMoves.exec _ _ _
    have hwritten : ∃ lines ∈ r.history.written, lines ≠ [] ∧ ¬∀ x ∈ lines, '\n' ∉ x.text := by
      decide +kernel
    obtain ⟨lines, hlines, hnonempty, hfeed⟩ := hwritten
    obtain ⟨payload, hpayload, hcarries⟩ := hmoves.attested.exists_payload rfl
      (hmoves.attested.mem_attempts hlines)
    exact ⟨payload, hpayload, lines, hlines, hcarries, mt (hcarries.lines_iff hnonempty).1 hfeed⟩

end LogShipper
