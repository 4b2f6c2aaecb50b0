import LogShipper.Agent.Filter
import LogShipper.Agent.Session
import LogShipper.Proofs.Agent.Lines
import LogShipper.Proofs.Aggregator.Completeness
import LogShipper.Proofs.Aggregator.Framing

/-!
# Every line is counted

The agent registers the lines that are not blank, one after the other.  In between, the task and the
clock go on as they like (`Reads`); a session, in which the agent waits for a time before each line,
is one of the ways to read its lines (`Session.reads_feed`).

At the end of the input the agent tells the task to end and stops the shipper.  Whoever makes the
last pass, all lines were registered before it, so that none is left out, neither from the number of
all events nor from the counter lines that the transport was given (`Session.lines_counted`).
-/

namespace LogShipper.Agent

open Wire Transport

/-- The events of the lines that are not blank. -/
def readings (least : Severity) (lines : List Text) : List Reading :=
  (lines.filter fun line => !line.isAllBlank).map fun line => (parseLine line).reading least

/-- The events of lines have keys and labels. -/
theorem readings_named {least : Severity} {lines : List Text} {reading : Reading}
    (h : reading ∈ readings least lines) : reading.key ≠ [] ∧ reading.label ≠ [] := by
  obtain ⟨line, -, rfl⟩ := List.mem_map.1 h
  exact parseLine_named least line

theorem length_readings (least : Severity) (lines : List Text) :
    (readings least lines).length = lines.countP fun line => !line.isAllBlank := by
  rw [readings, List.length_map, List.countP_eq_length_filter]

/-! ## Reading lines -/

section Reading

variable {τ : Type} {s : Shipper} {least : Severity} {lines : List Text} {r r' : Run τ}

/-- Registers a line, unless it is blank. -/
def registerLine (s : Shipper) (least : Severity) (line : Text) (r : Run τ) : Run τ :=
  if line.isAllBlank then r else (r.register s ((parseLine line).reading least)).1

variable [Transport τ]

/-- The lines are registered one after the other, while the task and the clock go on. -/
inductive Reads (s : Shipper) (least : Severity) : List Text → Run τ → Run τ → Prop
  /-- All lines are registered. -/
  | rest {r r' : Run τ} (h : Drifts s r r') : Reads s least [] r r'
  /-- A line comes next. -/
  | line {r waited r' : Run τ} {line : Text} {lines : List Text} (h : Drifts s r waited)
    (hrest : Reads s least lines (registerLine s least line waited) r') :
    Reads s least (line :: lines) r r'

/-- The run has gone on and has read some lines, before anyone told the task to end. -/
structure HasRead (s : Shipper) (least : Severity) (lines : List Text) (r r' : Run τ) : Prop where
  moves : Moves s r r'
  events_eq : r'.history.events = r.history.events ++ readings least lines
  cancelled_eq : r'.cancelled = false
  finalFlushed_eq : r'.finalFlushed = r.finalFlushed

theorem HasRead.drifts (hr : r.cancelled = false) (h : Drifts s r r') :
    HasRead s least [] r r' := by
  induction h with
  | refl => exact ⟨.refl, (List.append_nil _).symm, hr, rfl⟩
  | tail _ hlast ih =>
    obtain ⟨hcancelled, hfinal⟩ := hlast.ongoing ih.cancelled_eq
    exact ⟨ih.moves.tail hlast.move, hlast.events_eq.trans ih.events_eq, hcancelled,
      hfinal.trans ih.finalFlushed_eq⟩

theorem HasRead.registerLine (hr : r.cancelled = false) (line : Text) :
    HasRead s least [line] r (registerLine s least line r) := by
  unfold Agent.registerLine
  split
  · rename_i hblank
    have hnone : readings least [line] = [] := by simp [readings, hblank]
    exact ⟨.refl, by rw [hnone, List.append_nil], hr, rfl⟩
  · rename_i hblank
    have hone : readings least [line] = [(parseLine line).reading least] := by
      simp [readings, hblank]
    obtain ⟨_, heq⟩ := r.register_eq s ((parseLine line).reading least)
    refine ⟨.single (.register r _), ?_, ?_, ?_⟩
    · rw [Run.history_register, hone]
      exact History.select_cons _ _ _
    · rw [heq]
      exact hr
    · rw [heq]

theorem HasRead.trans {more : List Text} {r'' : Run τ} (h : HasRead s least lines r r')
    (h' : HasRead s least more r' r'') : HasRead s least (lines ++ more) r r'' where
  moves := h.moves.trans h'.moves
  events_eq := by simp [readings, h'.events_eq, h.events_eq]
  cancelled_eq := h'.cancelled_eq
  finalFlushed_eq := h'.finalFlushed_eq.trans h.finalFlushed_eq

/-- Reading lines registers their events in order. -/
theorem Reads.hasRead (h : Reads s least lines r r') (hr : r.cancelled = false) :
    HasRead s least lines r r' := by
  induction h with
  | rest hdrifts => exact .drifts hr hdrifts
  | @line r waited r' line lines hdrifts _ ih =>
    have hwaited : HasRead s least [] r waited := .drifts hr hdrifts
    have hline : HasRead s least [line] waited (registerLine s least line waited) :=
      .registerLine hwaited.cancelled_eq line
    exact (hwaited.trans hline).trans (ih hline.cancelled_eq)

/-- Whoever makes the last pass after the lines were read, the run ends with all of them. -/
theorem Reads.reported {transport : τ} {now : Nat} {pace : Nat → Nat} {fed waited : Run τ}
    (h : Reads s least lines (({ Run.new s transport now with pace } : Run τ).start true).1 fed)
    (hwaited : Drifts s fed.cancel waited) :
    (waited.stop s).history.events = readings least lines ∧
      (waited.stop s).Reported (readings least lines).length ∧
      (waited.stop s).HandsOver s transport now := by
  have hread := h.hasRead rfl
  have hfed : Moves s (Run.new s transport now) fed :=
    .head (.pace _ pace) (.head (.start _ true) hread.moves)
  have hlast : Moves s fed (waited.stop s) :=
    (Relation.ReflTransGen.head (.cancel fed) hwaited.moves).trans (Moves.stop s waited)
  have hended : (waited.stop s).task = .ended :=
    waited.task_stop s (Moves.coherent (hfed.trans (.head (.cancel fed) hwaited.moves))
      (Run.coherent_new s transport now))
  have hevents : (waited.stop s).history.events = fed.history.events :=
    (Run.events_stop s waited).trans
      (hwaited.keeps (P := fun x => x.history.events = fed.history.events)
        (fun hdrift hx => hdrift.events_eq.trans hx) rfl)
  have hall : Moves s (Run.new s transport now) (waited.stop s) := hfed.trans hlast
  have hhanded : (waited.stop s).HandsOver s transport now :=
    hall.handsOver (by rw [hended]; rfl)
  rw [← show fed.history.events = readings least lines from hread.events_eq]
  refine ⟨hevents, hfed.reported hread.finalFlushed_eq hlast hended hevents ?_, hhanded⟩
  intro reading hreading
  exact readings_named (hread.events_eq ▸ hreading)

end Reading

/-! ## Sessions -/

namespace Session

variable {session : Session} {s : Shipper}

/-- A session reads its lines, with a wait before each. -/
theorem reads_feed (session : Session) (s : Shipper) (n : Nat) (r : Run Link) (lines : List Text) :
    Reads s session.leastSeverity lines r (session.feed s n r lines) := by
  induction lines generalizing n r with
  | nil => exact .rest .refl
  | cons line lines ih =>
    have hwaited : Drifts s r ((session.idle n).elim r (r.sleep s)) := by
      cases session.idle n with
      | none => exact .refl
      | some duration => exact Drifts.sleep s duration r
    exact .line hwaited (ih (n + 1) _)

/-- The run in which the agent has read some lines and has stopped its shipper. -/
def stopped (session : Session) (s : Shipper) (lines : List Text) : Run Link :=
  (session.feed s 0 ((Run.new s (session.link s) 0).start true).1 lines).cancel.stop s

/-- A session whose settings are accepted reads its lines and says at last how many events it
shipped. -/
theorem run_of_build {settings : Settings} {lines : List Text} {fault : Option Utf8.Fault}
    (hsettings : Settings.ofEnvironment session.urls session.environment session.systemHost =
      .ok settings)
    (hbuild : Shipper.build session.urls settings session.facts = .ok s)
    (hlines : inputLines session.input = (lines, fault)) :
    session.run.exitCode = 0 ∧ session.run.run = some (session.stopped s lines) ∧
    session.run.reports.getLast? = some (.shipped (session.stopped s lines).intake.totalEvents) := by
  have hrun : session.run = { session.ship s with
      reports := .shipping settings.destination settings.entity :: (session.ship s).reports } := by
    unfold run
    rw [hsettings]
    dsimp only
    rw [hbuild]
  rw [hrun]
  unfold ship
  rw [hlines]
  refine ⟨rfl, rfl, ?_⟩
  rw [← List.cons_append]
  exact List.getLast?_concat

/-- **Every line is counted.**  However the task and the clock go on while the input of an agent is
read and afterwards, the run ends with as many events as the input has lines that are not blank: the
number of all events is that of these lines, and the counter lines of all writes add up to it, which
are the lines on the payloads that the transport was given.  This is the number that the agent
reports at last.  No line yields an event whose counter could not be written for want of a key or a
label. -/
theorem lines_counted {t : Text} {settings : Settings} (hinput : session.input = Utf8.encode t)
    (hsettings : Settings.ofEnvironment session.urls session.environment session.systemHost =
      .ok settings)
    (hbuild : Shipper.build session.urls settings session.facts = .ok s) :
    let n := t.lines.countP fun line => !line.isAllBlank
    let least := session.leastSeverity
    (∀ line value, let reading := (parseLine line).reading least
      reading.key ≠ [] ∧ reading.label ≠ [] ∧
        ∃ text, s.renderer.render (.counter reading.key reading.label value) = .ok text) ∧
    ∃ lines, inputLines session.input = (lines, none) ∧ (readings least lines).length = n ∧
      (session.run.exitCode = 0 ∧ session.run.reports.getLast? = some (.shipped n) ∧
        ∃ r, session.run.run = some r ∧ r.history.events = readings least lines ∧ r.Reported n ∧
          r.HandsOver s (session.link s) 0) ∧
      ∀ {τ : Type} [Transport τ] (transport : τ) (now : Nat) (pace : Nat → Nat) {fed waited : Run τ},
        Reads s least lines (({ Run.new s transport now with pace } : Run τ).start true).1 fed →
        Drifts s fed.cancel waited →
          (waited.stop s).history.events = readings least lines ∧ (waited.stop s).Reported n ∧
            (waited.stop s).HandsOver s transport now := by
  intro n least
  obtain ⟨lines, hlines, hcount⟩ := countP_inputLines t
  have hlength : (readings least lines).length = n := (length_readings least lines).trans hcount
  rw [← hinput] at hlines
  obtain ⟨hexit, hrun, hreport⟩ := run_of_build hsettings hbuild hlines
  have hstopped : (session.stopped s lines).history.events = readings least lines ∧
      (session.stopped s lines).Reported (readings least lines).length ∧
      (session.stopped s lines).HandsOver s (session.link s) 0 :=
    (session.reads_feed s 0 _ lines).reported .refl
  rw [hlength] at hstopped
  rw [hstopped.2.1.totalEvents_eq] at hreport
  refine ⟨?_, lines, hlines, hlength, ⟨hexit, hreport, _, hrun, hstopped⟩, ?_⟩
  · intro line value reading
    have hnamed := parseLine_named least line
    exact ⟨hnamed.1, hnamed.2, Renderer.exists_render_counter_iff.2 hnamed⟩
  · intro τ _ transport now pace fed waited hreads hwaited
    rw [← hlength]
    exact hreads.reported hwaited

/-- A warning, a blank line and a line of brackets that name nobody, with time between them, when no
collector can be reached: two events are counted and were put on the counter lines that the
transport was given. -/
theorem lines_counted_unreachable :
    let session : Session :=
      { urls := Url.reader, filters := Filter.reader, environment := .empty
        systemHost := some "host".toList, facts := .plain, network := .unreachable
        input := Utf8.encode "WARN [db] slow\r\n \t\n[ ]".toList
        idle := fun n => some (n * 20000) }
    session.run.exitCode = 0 ∧ ∃ s r, session.run.run = some r ∧ r.Reported 2 ∧
      r.HandsOver s (session.link s) 0 := by
  intro session
  have hinput : session.input = Utf8.encode "WARN [db] slow\r\n \t\n[ ]".toList := rfl
  have haccepted : ({ entity := "host" } : Settings).validate session.urls =
      .ok (.tcp "localhost" Destination.defaultTcpPort) :=
    Settings.validate_eq_ok_iff.2 ⟨by decide, Destination.read_default⟩
  have hselect : Settings.select session.environment session.systemHost = { entity := "host" } := rfl
  have hsettings : Settings.ofEnvironment session.urls session.environment session.systemHost =
      .ok { entity := "host" } := by
    unfold Settings.ofEnvironment
    dsimp only
    rw [hselect, haccepted]
    rfl
  have hbuild := Shipper.build_eq_ok { entity := "host" } .plain haccepted rfl
  obtain ⟨-, lines, -, -, ⟨hexit, -, r, hrun, -, hreported, hhanded⟩, -⟩ :=
    lines_counted hinput hsettings hbuild
  exact ⟨hexit, _, r, hrun, hreported, hhanded⟩

end Session

end LogShipper.Agent
