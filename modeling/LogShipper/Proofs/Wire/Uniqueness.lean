import LogShipper.Proofs.Aggregator.Framing
import LogShipper.Proofs.Wire.RoundTrip

/-!
# Tags of one key

The tags of a line come from three places: the settings, the line itself, and the context of its
sample.  Those of the settings are merged among themselves, and so are those of the context, but
the three are written one after the other as they are.  So no two tags of a line have one key up to
ASCII case exactly when the three are apart from one another (`Renderer.tagKeys_differ_iff`).  That
depends on the names that the settings and the context use: a configured tag `level` stands beside
the one of the line (`Renderer.level_twice`).
-/

namespace LogShipper.Wire

/-! ## Tags that are apart -/

namespace Tag

variable {s t : Tag} {xs ys tags : List Tag}

/-- No tag here is alike one there. -/
def Apart (xs ys : List Tag) : Prop := ∀ s ∈ xs, ∀ t ∈ ys, s.alike t = false

instance (xs ys : List Tag) : Decidable (Apart xs ys) :=
  inferInstanceAs (Decidable (∀ s ∈ xs, ∀ t ∈ ys, s.alike t = false))

theorem Apart.symm (h : Apart xs ys) : Apart ys xs :=
  fun s hs t ht => (alike_comm s t).trans (h t ht s hs)

theorem apart_comm : Apart xs ys ↔ Apart ys xs := ⟨Apart.symm, Apart.symm⟩

theorem alike_of_key_eq (h : s.key = t.key) (tag : Tag) : s.alike tag = t.alike tag :=
  alike_congr (alike_iff.2 (congrArg Text.lower h)) tag

/-- A merged tag has its key from a tag that counts. -/
theorem exists_proper_of_mem_merge (h : t ∈ merge tags) : ∃ s ∈ proper tags, s.key = t.key := by
  rw [merge_eq_map] at h
  obtain ⟨s, hs, rfl⟩ := List.mem_map.1 h
  exact ⟨s, mem_of_mem_eraseDupsBy hs, rfl⟩

/-- A tag that counts is alike a merged one. -/
theorem exists_merge_of_mem_proper (h : s ∈ proper tags) : ∃ t ∈ merge tags, s.alike t = true := by
  obtain ⟨t, ht, halike⟩ := exists_mem_eraseDupsBy alike_self h
  rw [merge_eq_map]
  exact ⟨_, List.mem_map_of_mem ht, halike⟩

/-- What merged tags are apart from is what the tags that count are apart from. -/
theorem apart_merge_left : Apart (merge tags) ys ↔ Apart (proper tags) ys := by
  constructor
  · intro h s hs tag htag
    obtain ⟨t, ht, halike⟩ := exists_merge_of_mem_proper hs
    rw [alike_congr halike]
    exact h t ht tag htag
  · intro h t ht tag htag
    obtain ⟨s, hs, hkey⟩ := exists_proper_of_mem_merge ht
    rw [← alike_of_key_eq hkey]
    exact h s hs tag htag

theorem apart_merge_right : Apart xs (merge tags) ↔ Apart xs (proper tags) :=
  apart_comm.trans (apart_merge_left.trans apart_comm)

end Tag

/-! ## The tags of a line -/

/-- The tags that the settings ask for. -/
def configuredTags (settings : Settings) : List Tag := settings.tags.entries.map fun e => ⟨e.1, e.2⟩

namespace Line

/-- The tags that a line has whatever the settings and the context say. -/
def ownTags : Line → List Tag
  | .settings | .runtime => []
  | .counter key label _ => [⟨"level", label⟩, ⟨"logger", key⟩]
  | .total label _ => [⟨"level", label⟩]
  | .message sample => [⟨"type", "logger"⟩, ⟨"severity", sample.severity.name⟩,
    ⟨"level", sample.label⟩, ⟨"source", sample.key⟩]

/-- The tags that a line is given by the context of its sample. -/
def contextTags : Line → List Tag
  | .message sample => sample.context
  | _ => []

/-- No two tags that a line has of its own are alike. -/
theorem pairwise_ownTags (line : Line) : line.ownTags.Pairwise fun s t => s.alike t = false := by
  have hkeys : (line.ownTags.map Tag.key).Pairwise
      fun s t => Text.sameIgnoringCase s t = false := by
    cases line with
    | settings | runtime => exact .nil
    | counter key label value =>
      show List.Pairwise _ ["level".toList, "logger"]
      decide
    | total label value => exact List.pairwise_singleton _ _
    | message sample =>
      show List.Pairwise _ ["type".toList, "severity", "level", "source"]
      decide
  exact List.pairwise_map.1 hkeys

end Line

/-- The key of a field that is a tag. -/
def Field.tagKey? : Field → Option Text
  | .tag key _ => some key
  | _ => none

/-- The keys of the tags that a line carries, in their order. -/
def Decoded.tagKeys (d : Decoded) : List Text := d.fields.filterMap Field.tagKey?

theorem filterMap_tagKey? (tags : List Tag) :
    (tags.map Tag.field).filterMap Field.tagKey? = tags.map Tag.key := by
  rw [List.filterMap_map]
  exact congrFun List.filterMap_eq_map tags

namespace Renderer

variable {settings : Settings} {facts : ProcessFacts} {r : Renderer} {line : Line} {text : Text}

/-- The tags of a line are the configured ones, its own, and those of the context. -/
theorem tagKeys_of_render (hr : ofSettings settings facts = .ok r) (hline : line ∉ propertyLines)
    (h : r.render line = .ok text) : ∃ d, decode text = some d ∧ d.tagKeys =
      (Tag.merge (configuredTags settings) ++ (line.ownTags ++ Tag.merge line.contextTags)).map
        Tag.key := by
  have hstart : (startFields settings).filterMap Field.tagKey? =
      (Tag.merge (configuredTags settings)).map Tag.key := filterMap_tagKey? _
  cases line with
  | settings | runtime => exact absurd hline (by decide)
  | counter key label value =>
    refine ⟨_, decode_counter hr h, ?_⟩
    rw [Decoded.tagKeys, List.filterMap_append, hstart, List.map_append]
    rfl
  | total label value =>
    refine ⟨_, decode_total hr h, ?_⟩
    rw [Decoded.tagKeys, List.filterMap_append, hstart, List.map_append]
    rfl
  | message sample =>
    refine ⟨_, decode_sample hr h, ?_⟩
    rw [Decoded.tagKeys, List.filterMap_append, List.filterMap_append, hstart, filterMap_tagKey?,
      List.map_append, List.map_append, List.append_assoc]
    rfl

/-- No two tags of a line of a counter, of a total or of a message have one key up to ASCII case
exactly when the tags that count of the settings, the tags of the line and the tags that count of
the context are apart from one another. -/
theorem tagKeys_differ_iff (hr : ofSettings settings facts = .ok r) (hline : line ∉ propertyLines)
    (h : r.render line = .ok text) : ∃ d, decode text = some d ∧
      ((d.tagKeys.Pairwise fun s t => Text.sameIgnoringCase s t = false) ↔
        Tag.Apart (Tag.proper (configuredTags settings)) line.ownTags ∧
        Tag.Apart (Tag.proper (configuredTags settings)) (Tag.proper line.contextTags) ∧
        Tag.Apart line.ownTags (Tag.proper line.contextTags)) := by
  obtain ⟨d, hd, hkeys⟩ := tagKeys_of_render hr hline h
  refine ⟨d, hd, ?_⟩
  rw [hkeys, List.pairwise_map]
  constructor
  · intro hall
    obtain ⟨-, hrest, hconfigured⟩ := List.pairwise_append.1 hall
    obtain ⟨-, -, hown⟩ := List.pairwise_append.1 hrest
    exact ⟨Tag.apart_merge_left.1 fun s hs t ht => hconfigured s hs t (List.mem_append_left _ ht),
      Tag.apart_merge_left.1 (Tag.apart_merge_right.1 fun s hs t ht =>
        hconfigured s hs t (List.mem_append_right _ ht)),
      Tag.apart_merge_right.1 hown⟩
  · rintro ⟨hconfiguredOwn, hconfiguredContext, hownContext⟩
    refine List.pairwise_append.2 ⟨Tag.pairwise_merge _, List.pairwise_append.2
      ⟨line.pairwise_ownTags, Tag.pairwise_merge _, Tag.apart_merge_right.2 hownContext⟩, ?_⟩
    intro s hs t ht
    rcases List.mem_append.1 ht with ht | ht
    · exact Tag.apart_merge_left.2 hconfiguredOwn s hs t ht
    · exact Tag.apart_merge_left.2 (Tag.apart_merge_right.2 hconfiguredContext) s hs t ht

/-- The settings and the context use names of their own. -/
theorem tagKeys_differ_of_names :
    let settings : Settings := { entity := "web", tags := Dictionary.empty.insert "env" "prod" }
    let facts : ProcessFacts := ⟨"agent", 1, "web", "linux", "x86_64", "1.0"⟩
    let sample : Sample :=
      { key := "app"
        label := "ERROR"
        severity := .error
        message := "no answer"
        stack := []
        context := [⟨"user", "7"⟩]
        depth := unlimitedStack }
    ∃ r text d, ofSettings settings facts = .ok r ∧ .message sample ∉ propertyLines ∧
      r.render (.message sample) = .ok text ∧ decode text = some d ∧
      d.tagKeys.Pairwise fun s t => Text.sameIgnoringCase s t = false := by
  intro settings facts sample
  have hline : .message sample ∉ propertyLines := by simp [propertyLines]
  obtain ⟨r, hr⟩ : ∃ r, ofSettings settings facts = .ok r := ⟨_, rfl⟩
  obtain ⟨text, htext⟩ : ∃ text, r.render (.message sample) = .ok text := ⟨_, rfl⟩
  obtain ⟨d, hd, hiff⟩ := tagKeys_differ_iff hr hline htext
  refine ⟨r, text, d, hr, hline, htext, hd, hiff.2 ?_⟩
  decide

/-- Settings with a tag `level` are accepted, and a counter then has two tags of this key. -/
theorem level_twice :
    let settings : Settings := { entity := "host", tags := Dictionary.empty.insert "level" "x" }
    let facts : ProcessFacts := ⟨"agent", 1, "web", "linux", "x86_64", "1.0"⟩
    let text : Text := "series e:host t:level=x m:log_event_counter=1 t:level=ERROR t:logger=app"
    settings.validate Url.reader = .ok (.tcp "localhost" Destination.defaultTcpPort) ∧
    ∃ r d, ofSettings settings facts = .ok r ∧ r.render (.counter "app" "ERROR" 1) = .ok text ∧
      decode text = some d ∧ d.tagKeys = ["level".toList, "level", "logger"] ∧
      ¬d.tagKeys.Pairwise fun s t => Text.sameIgnoringCase s t = false := by
  intro settings facts text
  refine ⟨Settings.validate_eq_ok_iff.2 ⟨by decide, Destination.read_default⟩, ?_⟩
  obtain ⟨r, hr, hrender⟩ : ∃ r, ofSettings settings facts = .ok r ∧
      r.render (.counter "app" "ERROR" 1) = .ok text := ⟨_, rfl, by decide +kernel⟩
  exact ⟨r, _, hr, hrender, decode_counter hr hrender, by decide, by decide⟩

end Renderer

end LogShipper.Wire
