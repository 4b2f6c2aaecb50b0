import LogShipper.Aggregator.Notice

/-!
# Shippers

A shipper is made of settings that were accepted, their destination and the renderer for them. It
does not change while it runs.
-/

namespace LogShipper

open Wire

/-- Accepted settings with their destination and renderer. -/
structure Shipper where
  settings : Settings
  destination : Destination
  renderer : Renderer
  /-- The clock is looked at in steps of a positive length. -/
  checkInterval_pos : 0 < settings.checkInterval

namespace Shipper

/-- The shipper with the given settings, if they are accepted and the entity has a name. -/
def build (urls : UrlReader) (settings : Settings) (facts : ProcessFacts) :
    Except SettingsError Shipper :=
  match h : settings.validate urls with
  | .error e => .error e
  | .ok destination =>
    match Renderer.ofSettings settings facts with
    | .error e => .error (.invalid (.unwritable e))
    | .ok renderer =>
      .ok ⟨settings, destination, renderer, Settings.checkInterval_pos_of_validate h⟩

/-- The lines that can be written, with their text, and a notice for each that cannot. -/
def renderAll (s : Shipper) (lines : List Line) : List Rendered × List Notice :=
  lines.foldr (fun line acc =>
    match s.renderer.render line with
    | .ok text => (⟨line, text⟩ :: acc.1, acc.2)
    | .error e => (acc.1, .skipped line e :: acc.2)) ([], [])

end Shipper

end LogShipper
