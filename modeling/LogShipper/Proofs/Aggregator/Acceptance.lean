import LogShipper.Proofs.Aggregator.Framing
import LogShipper.Proofs.Wire.Naming

/-!
# Settings that are accepted

Validation asks for an entity and a metric base that are not blank, while the names on the lines are
made by dropping blanks and double quotes.  So there are texts that are accepted and have no name,
those of blanks and quotes (`sanitizeName_ne_nil_iff`).  Accepted settings make a shipper whose
series have an entity and metrics with a name exactly when the entity and both metrics hold any
other character, however the URL of the destination is read (`Shipper.build_named_iff`).
-/

namespace LogShipper

namespace Wire

/-! ## What series are about -/

/-- The name by which a field says what its line is about. -/
def Field.subject? : Field → Option Text
  | .entity name => some name
  | .metric name _ => some name
  | .tag _ _ => none
  | .body _ => none

/-- The names by which a line says what it is about, when it is read. -/
def subjects? (line : Text) : Option (List Text) :=
  (decode line).map fun decoded => decoded.fields.filterMap Field.subject?

theorem filterMap_subject?_tags (tags : List Tag) :
    (tags.map Tag.field).filterMap Field.subject? = [] := by
  rw [List.filterMap_map]
  exact List.filterMap_eq_nil_iff.2 fun _ _ => rfl

theorem filterMap_subject?_startFields (settings : Settings) :
    (startFields settings).filterMap Field.subject? = [sanitizeName settings.entity] := by
  have hentity : Field.subject? (.entity (sanitizeName settings.entity)) =
      some (sanitizeName settings.entity) := rfl
  unfold startFields
  rw [List.filterMap_cons_some hentity, filterMap_subject?_tags]

namespace Renderer

variable {settings : Settings} {facts : ProcessFacts} {r : Renderer}

/-- A renderer is made exactly when the entity has a name. -/
theorem exists_ofSettings_iff (facts : ProcessFacts) :
    (∃ r, ofSettings settings facts = .ok r) ↔ HasName settings.entity := by
  unfold ofSettings
  rw [← sanitizeName_ne_nil_iff, ne_eq, ← List.isEmpty_iff]
  dsimp only
  split
  · rename_i hempty
    exact iff_of_false (fun ⟨_, h⟩ => nomatch h) (not_not.2 hempty)
  · rename_i hempty
    exact iff_of_true ⟨_, rfl⟩ hempty

/-- The one reason for which none is made. -/
theorem ofSettings_eq_error (h : ¬HasName settings.entity) :
    ofSettings settings facts = .error .emptyEntity := by
  rw [← sanitizeName_ne_nil_iff, not_not] at h
  unfold ofSettings
  dsimp only
  rw [h]
  rfl

theorem subjects?_counter (hr : ofSettings settings facts = .ok r) {key label text : Text}
    {value : Int} (h : r.render (.counter key label value) = .ok text) :
    subjects? text = some [sanitizeName settings.entity, sanitizeName settings.counterMetric] := by
  unfold subjects?
  rw [decode_counter hr h, Option.map_some, List.filterMap_append, filterMap_subject?_startFields]
  rfl

theorem subjects?_total (hr : ofSettings settings facts = .ok r) {label text : Text} {value : Int}
    (h : r.render (.total label value) = .ok text) :
    subjects? text = some [sanitizeName settings.entity, sanitizeName settings.totalMetric] := by
  unfold subjects?
  rw [decode_total hr h, Option.map_some, List.filterMap_append, filterMap_subject?_startFields]
  rfl

end Renderer

end Wire

/-! ## Shippers for accepted settings -/

namespace Shipper

open Wire

variable {urls : UrlReader} {settings : Settings} {facts : ProcessFacts} {s : Shipper}
  {d : Destination}

/-- Whether every series of a shipper is about an entity and a metric that have names. -/
def NamesSeries (s : Shipper) : Prop :=
  (∀ key label value text, s.renderer.render (.counter key label value) = .ok text →
    ∃ entity metric, subjects? text = some [entity, metric] ∧ entity ≠ [] ∧ metric ≠ []) ∧
  ∀ label value text, s.renderer.render (.total label value) = .ok text →
    ∃ entity metric, subjects? text = some [entity, metric] ∧ entity ≠ [] ∧ metric ≠ []

/-- The entity of a shipper has a name, so that it depends on the two metrics. -/
theorem namesSeries_iff (h : build urls settings facts = .ok s) :
    s.NamesSeries ↔ HasName settings.counterMetric ∧ HasName settings.totalMetric := by
  have hr := (parts_of_build h).2.2
  have hentity := sanitizeName_ne_nil_iff.2 ((Renderer.exists_ofSettings_iff facts).1 ⟨_, hr⟩)
  constructor
  · rintro ⟨hcounter, htotal⟩
    -- the names are the same on all lines, so that one of each kind tells
    obtain ⟨counterText, hcounterText⟩ :
        ∃ text, s.renderer.render (.counter ['k'] ['l'] 0) = .ok text := ⟨_, rfl⟩
    obtain ⟨totalText, htotalText⟩ : ∃ text, s.renderer.render (.total ['l'] 0) = .ok text :=
      ⟨_, rfl⟩
    obtain ⟨_, _, hsubjects, -, hmetric⟩ := hcounter _ _ _ _ hcounterText
    obtain ⟨_, _, hsubjects', -, hmetric'⟩ := htotal _ _ _ htotalText
    rw [Renderer.subjects?_counter hr hcounterText] at hsubjects
    rw [Renderer.subjects?_total hr htotalText] at hsubjects'
    cases hsubjects
    cases hsubjects'
    exact ⟨sanitizeName_ne_nil_iff.1 hmetric, sanitizeName_ne_nil_iff.1 hmetric'⟩
  · rintro ⟨hcounter, htotal⟩
    constructor
    · intro key label value text htext
      exact ⟨_, _, Renderer.subjects?_counter hr htext, hentity, sanitizeName_ne_nil_iff.2 hcounter⟩
    · intro label value text htext
      exact ⟨_, _, Renderer.subjects?_total hr htext, hentity, sanitizeName_ne_nil_iff.2 htotal⟩

/-- The one reason for which none is made of accepted settings. -/
theorem build_eq_error (h : settings.validate urls = .ok d) (hname : ¬HasName settings.entity) :
    build urls settings facts = .error (.invalid (.unwritable .emptyEntity)) := by
  unfold build
  split
  · rename_i herror
    cases h.symm.trans herror
  · rw [Renderer.ofSettings_eq_error hname]

/-- **What is missing in validation.**  Accepted settings make a shipper exactly when their entity
has a name, and are refused for an empty entity otherwise.  The series of the shipper are about an
entity and a metric with names exactly when the metrics of counters and of totals have names, too. -/
theorem build_named_iff (h : settings.validate urls = .ok d) (facts : ProcessFacts) :
    ((∃ s, build urls settings facts = .ok s) ↔ HasName settings.entity) ∧
    (build urls settings facts = .error (.invalid (.unwritable .emptyEntity)) ↔
      ¬HasName settings.entity) ∧
    ((∃ s, build urls settings facts = .ok s ∧ s.NamesSeries) ↔
      HasName settings.entity ∧ HasName settings.counterMetric ∧
        HasName settings.totalMetric) := by
  have hbuilt : (∃ s, build urls settings facts = .ok s) ↔ HasName settings.entity := by
    rw [← Renderer.exists_ofSettings_iff facts]
    constructor
    · rintro ⟨s, hs⟩
      exact ⟨_, (parts_of_build hs).2.2⟩
    · rintro ⟨r, hr⟩
      exact ⟨_, build_eq_ok settings facts h hr⟩
  refine ⟨hbuilt, ?_, ?_⟩
  · constructor
    · intro herror hname
      obtain ⟨s, hs⟩ := hbuilt.2 hname
      cases herror.symm.trans hs
    · intro hname
      exact build_eq_error h hname
  · constructor
    · rintro ⟨s, hs, hseries⟩
      exact ⟨hbuilt.1 ⟨s, hs⟩, (namesSeries_iff hs).1 hseries⟩
    · rintro ⟨hname, hmetrics⟩
      obtain ⟨s, hs⟩ := hbuilt.2 hname
      exact ⟨s, hs, (namesSeries_iff hs).2 hmetrics⟩

/-- Quotes do no harm where something else is left. -/
theorem build_named_iff_of_quotes :
    let settings : Settings :=
      { entity := "\"web\" 01", metricBase := "\"", counterSuffix := "seen", totalSuffix := "all" }
    settings.validate Url.reader = .ok (.tcp "localhost" Destination.defaultTcpPort) ∧
      (HasName settings.entity ∧ HasName settings.counterMetric ∧ HasName settings.totalMetric) ∧
      ∃ s, build Url.reader settings .plain = .ok s ∧ s.NamesSeries ∧
        s.renderer.render (.counter "app" "ERROR" 3) =
          .ok "series e:web_01 m:seen=3 t:level=ERROR t:logger=app" := by
  intro settings
  have hvalid : settings.validate Url.reader = .ok (.tcp "localhost" Destination.defaultTcpPort) :=
    Settings.validate_eq_ok_iff.2 ⟨by decide, Destination.read_default⟩
  have hnames : HasName settings.entity ∧ HasName settings.counterMetric ∧
      HasName settings.totalMetric := by decide
  obtain ⟨-, -, hiff⟩ := build_named_iff hvalid .plain
  obtain ⟨s, hs, hseries⟩ := hiff.2 hnames
  refine ⟨hvalid, hnames, s, hs, hseries, ?_⟩
  rw [Renderer.eq_of_ofSettings (parts_of_build hs).2.2]
  decide +kernel

/-- A quote is accepted as an entity, and then no shipper is made.  It is accepted as a metric base,
too, and then counters are written without the name of a metric. -/
theorem quotes_accepted :
    let nobody : Settings := { entity := "\"" }
    let nothing : Settings := { entity := "host", metricBase := "\"", counterSuffix := "" }
    let d : Destination := .tcp "localhost" Destination.defaultTcpPort
    (nobody.validate Url.reader = .ok d ∧ ¬∃ s, build Url.reader nobody .plain = .ok s) ∧
      nothing.validate Url.reader = .ok d ∧ ∃ s, build Url.reader nothing .plain = .ok s ∧
        s.renderer.counterMetric = [] ∧ s.renderer.render (.counter "app" "ERROR" 1) =
          .ok "series e:host m:=1 t:level=ERROR t:logger=app" := by
  intro nobody nothing d
  have hnobody : nobody.validate Url.reader = .ok d :=
    Settings.validate_eq_ok_iff.2 ⟨by decide, Destination.read_default⟩
  have hnothing : nothing.validate Url.reader = .ok d :=
    Settings.validate_eq_ok_iff.2 ⟨by decide, Destination.read_default⟩
  obtain ⟨s, hs⟩ : ∃ s, build Url.reader nothing .plain = .ok s :=
    ⟨_, build_eq_ok nothing .plain hnothing rfl⟩
  have hrenderer := Renderer.eq_of_ofSettings (parts_of_build hs).2.2
  refine ⟨⟨hnobody, ?_⟩, hnothing, s, hs, ?_, ?_⟩
  · rintro ⟨s, hs⟩
    have herror : build Url.reader nobody .plain = .error (.invalid (.unwritable .emptyEntity)) :=
      build_eq_error hnobody (by decide)
    cases herror.symm.trans hs
  · rw [hrenderer]
    rfl
  · rw [hrenderer]
    decide +kernel

end Shipper

end LogShipper
