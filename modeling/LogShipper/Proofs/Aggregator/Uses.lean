import LogShipper.Proofs.Aggregator.Recording
import LogShipper.Proofs.Aggregator.Writes
import Mathlib.Data.List.Forall2

/-!
# What a history says of the transport is true

A history tells of writes and of closings.  Whether they took place is for the transport to say, and
a recorded transport can: while its run goes on, it was used in exactly the ways of which the
history tells (`RecordedMoves.uses_eq`).  So the payload of every write is the text of the lines
that the history names, and every write that began was made, except the one that the task is about
(`Run.Attested`, `RecordedMoves.attested`).

Since recording changes nothing (`Moves.iff_exists_recorded`), a history tells the truth of any run.
-/

namespace LogShipper

open Wire Transport

variable {τ : Type}

/-! ## The uses of which a history tells -/

/-- The use of a transport of which an occurrence tells. -/
def Occurrence.use? : Occurrence → Option Use
  | .delivered lines => some (.write (Run.payloadOf lines) none)
  | .lost lines error => some (.write (Run.payloadOf lines) (some error))
  | .closed result => some (.close result)
  | _ => none

/-- What tells of no write and no closing tells of no use. -/
theorem Occurrence.use?_eq_none {o : Occurrence} (hwriting : o.isWriting = false)
    (hclosing : o.isClosing = false) : o.use? = none := by
  cases o with
  | delivered | lost => cases hwriting
  | closed => cases hclosing
  | _ => rfl

/-- The uses of a transport of which a history tells, latest first. -/
def History.uses (h : History) : List Use := h.filterMap fun e => e.occurrence.use?

namespace History

theorem uses_append (later earlier : History) :
    uses (later ++ earlier) = uses later ++ uses earlier := List.filterMap_append

theorem uses_cons {e : Entry} {use : Use} (he : e.occurrence.use? = some use) (h : History) :
    uses (e :: h) = use :: uses h := List.filterMap_cons_some he

theorem uses_eq_nil {h : History} (hnone : ∀ e ∈ h, e.occurrence.use? = none) : uses h = [] :=
  List.filterMap_eq_nil_iff.2 hnone

theorem use?_of_mem_noticed (instant : Nat) (notices : List Notice) :
    ∀ e ∈ Run.noticed instant notices, e.occurrence.use? = none :=
  Run.forall_mem_noticed.2 fun _ _ => rfl

/-- The transport is closed as often as the history tells. -/
theorem countP_isClose_uses (h : History) : h.uses.countP Use.isClose = h.closings.length := by
  induction h with
  | nil => rfl
  | cons e h ih =>
    obtain ⟨t, o⟩ := e
    have hclosings : closings (⟨t, o⟩ :: h) = closings h ++ o.closing?.toList := select_cons _ _ _
    rw [hclosings, List.length_append, ← ih]
    cases o with
    | closed result => rw [uses_cons rfl, List.countP_cons]; rfl
    | delivered lines => rw [uses_cons rfl, List.countP_cons]; rfl
    | lost lines error => rw [uses_cons rfl, List.countP_cons]; rfl
    | _ => rfl

/-- In an orderly history, closing is the last use of the transport. -/
theorem IsOrderly.eq_nil_of_uses {h : History} (ho : h.IsOrderly) {later earlier : List Use}
    {result : Except TransportError Unit} (huses : h.uses = later ++ .close result :: earlier) :
    later = [] := by
  have hlast : h.uses.Pairwise fun _ earlier => earlier.isClose = false := by
    refine List.pairwise_filterMap.2 (ho.imp fun {x y} hxy use huse use' huse' => ?_)
    obtain ⟨t, o⟩ := y
    cases o with
    | closed result =>
      obtain ⟨hwriting, hclosing⟩ := hxy rfl
      cases huse.symm.trans (Occurrence.use?_eq_none hwriting hclosing)
    | delivered | lost =>
      cases huse'
      rfl
    | _ => cases huse'
  rw [huses] at hlast
  refine List.eq_nil_iff_forall_not_mem.2 fun use huse => ?_
  cases (List.pairwise_append.1 hlast).2.2 use huse _ List.mem_cons_self

end History

/-! ## Recording what is told -/

namespace Run

/-- A run goes on to another one, and its transport records the uses of which that tells. -/
def Logs (r r' : Run (Recorded τ)) : Prop :=
  ∃ added : History, r'.history = added ++ r.history ∧
    r'.transport.uses = added.uses ++ r.transport.uses

namespace Logs

variable {s : Shipper} {r r' r'' : Run (Recorded τ)}

theorem trans (h : r.Logs r') (h' : r'.Logs r'') : r.Logs r'' := by
  obtain ⟨added, hhistory, huses⟩ := h
  obtain ⟨added', hhistory', huses'⟩ := h'
  refine ⟨added' ++ added, ?_, ?_⟩
  · rw [hhistory', hhistory, List.append_assoc]
  · rw [huses', huses, History.uses_append, List.append_assoc]

/-- The transport is not used. -/
theorem of_unused (added : History) (hhistory : r'.history = added ++ r.history)
    (htransport : r'.transport = r.transport)
    (hunused : ∀ e ∈ added, e.occurrence.use? = none) : r.Logs r' := by
  refine ⟨added, hhistory, ?_⟩
  rw [htransport, History.uses_eq_nil hunused, List.nil_append]

theorem refl (r : Run (Recorded τ)) : r.Logs r := of_unused [] rfl rfl (List.forall_mem_nil _)

/-- The control of the run changes. -/
theorem of_control (hhistory : r'.history = r.history) (htransport : r'.transport = r.transport) :
    r.Logs r' :=
  of_unused [] hhistory htransport (List.forall_mem_nil _)

theorem note (r : Run (Recorded τ)) {o : Occurrence} (ho : o.use? = none) : r.Logs (r.note o) :=
  of_unused [⟨r.now, o⟩] rfl rfl (List.forall_mem_singleton.2 ho)

theorem collect (r : Run (Recorded τ)) : r.Logs (r.collect s).1 := by
  rw [collect_eq]
  refine of_unused (_ ++ [_]) (List.append_cons ..) rfl ?_
  exact List.forall_mem_append.2
    ⟨History.use?_of_mem_noticed _ _, List.forall_mem_singleton.2 rfl⟩

theorem gathered (r : Run (Recorded τ)) (forced : Bool) : r.Logs (r.gathered s forced).1 := by
  obtain ⟨_, _, notices, collected, flushes, heq, hflushes⟩ := r.gathered_eq s forced
  rw [heq]
  refine of_unused (noticed r.now notices ++ ⟨r.now, .collected collected⟩ ::
    (flushes ++ [⟨r.now, .passed forced⟩])) (by simp) rfl ?_
  have hunused : ∀ e ∈ flushes, e.occurrence.use? = none := by
    rcases hflushes with ⟨rfl, -⟩ | ⟨_, _, rfl⟩
    · exact List.forall_mem_nil _
    · exact List.forall_mem_append.2
        ⟨History.use?_of_mem_noticed _ _, List.forall_mem_singleton.2 rfl⟩
  refine List.forall_mem_append.2 ⟨History.use?_of_mem_noticed _ _, ?_⟩
  refine List.forall_mem_cons.2 ⟨rfl, List.forall_mem_append.2 ⟨hunused, ?_⟩⟩
  exact List.forall_mem_singleton.2 rfl

variable [Transport τ]

/-- Closing is recorded as it is told. -/
theorem proceed (r : Run (Recorded τ)) (next : Next) : r.Logs (r.proceed next) := by
  cases next with
  | resume due => exact of_control rfl rfl
  | close =>
    have hclosed : r.Logs
        ({ r with
            transport := (Transport.close r.transport).1
            task := .ended }.note (.closed (Transport.close r.transport).2)) :=
      ⟨[⟨r.now, .closed _⟩], rfl, rfl⟩
    unfold Run.proceed
    dsimp only
    split
    · exact hclosed
    · exact hclosed.trans (note _ rfl)

theorem send (r : Run (Recorded τ)) (lines : List Rendered) (next : Next) :
    r.Logs (r.send lines next) := by
  unfold Run.send
  split
  · exact proceed r next
  · exact of_unused [⟨r.now, .attempted lines⟩] rfl rfl
      (List.forall_mem_singleton.2 rfl)

theorem pass (r : Run (Recorded τ)) (forced : Bool) (next : Next) :
    r.Logs (r.pass s forced next) := by
  rw [pass_eq]
  exact (gathered r forced).trans (send _ _ next)

theorem finish (r : Run (Recorded τ)) : r.Logs (r.finish s) := by
  unfold Run.finish
  split
  · exact of_control rfl rfl
  · exact trans (of_control rfl rfl) (pass { r with finalFlushed := true } true .close)

/-- The payload is recorded with what became of it. -/
theorem complete (r : Run (Recorded τ)) (lines : List Rendered) (next : Next) :
    r.Logs (r.complete lines next) := by
  let written := Transport.write r.transport (payloadOf lines)
  let notices := noticed r.now (written.notices.map Notice.transport).reverse
  have hunused : ∀ e ∈ notices, e.occurrence.use? = none := History.use?_of_mem_noticed _ _
  have huses : written.transport.uses =
      .write (payloadOf lines) (Recorded.error? written.result) :: r.transport.uses := rfl
  unfold Run.complete
  dsimp only
  rw [noteAll_eq_noticed]
  refine trans ?_ (proceed _ next)
  split
  · rename_i hresult
    refine ⟨⟨r.now, .delivered lines⟩ :: notices, rfl, ?_⟩
    rw [History.uses_cons rfl, History.uses_eq_nil hunused]
    exact huses.trans (by rw [show written.result = _ from hresult]; rfl)
  · rename_i error hresult
    refine trans ⟨⟨r.now, .lost lines error⟩ :: notices, rfl, ?_⟩ (note _ rfl)
    rw [History.uses_cons rfl, History.uses_eq_nil hunused]
    exact huses.trans (by rw [show written.result = _ from hresult]; rfl)

theorem advance {next : Run (Recorded τ)} (ha : r.Advance s next) : r.Logs next := by
  cases ha with
  | begin htask => exact of_control rfl rfl
  | finish htask hcancelled => exact (note r rfl).trans (finish _)
  | @wake _ due woken htask hcancelled hwakeups hwoken =>
    have hcontrol : r.Logs woken := by
      subst hwoken
      exact of_control rfl rfl
    exact hcontrol.trans ((collect woken).trans (send _ _ _))
  | tick htask hcancelled hwakeups hdue => exact pass r false _
  | wait htask hcancelled hwakeups hdue => exact of_control rfl rfl
  | complete htask hends => exact complete r _ _

end Logs

end Run

variable [Transport τ] {s : Shipper}

/-- Every move records the uses of which it tells. -/
theorem MoveBy.logs {r r' : Run (Recorded τ)} (hm : MoveBy Recorded.KeepsUses s r r') :
    r.Logs r' := by
  cases hm with
  | register reading =>
    obtain ⟨_, heq⟩ := r.register_eq s reading
    rw [heq]
    exact .of_unused [_] rfl rfl (List.forall_mem_singleton.2 rfl)
  | start inRuntime =>
    rcases r.start_cases inRuntime with heq | ⟨-, heq⟩
    · rw [heq]
      exact .refl r
    · rw [heq]
      exact .of_unused [⟨r.now, .spawned⟩] rfl rfl (List.forall_mem_singleton.2 rfl)
  | cancel => exact .of_control rfl rfl
  | requestStop =>
    rcases r.requestStop_cases s with ⟨-, heq⟩ | ⟨-, heq⟩ | ⟨-, heq⟩
    · rw [heq]
      exact .trans (.of_control rfl rfl) (.finish { r with lifecycle := .stopped })
    · rw [heq]
      exact .of_control rfl rfl
    · rw [heq]
      exact .refl r
  | concludeStop =>
    rcases r.concludeStop_cases s with ⟨-, heq⟩ | heq
    · rw [heq]
      exact .finish r
    · rw [heq]
      exact .refl r
  | advance hnext => exact .advance (Run.advance_of_advance? hnext)
  | elapse instant => exact .of_control rfl rfl
  | pace durations => exact .of_control rfl rfl
  | disturb change hkeeps =>
    exact ⟨[], rfl, hkeeps r.transport⟩

namespace RecordedMoves

variable {r r' : Run (Recorded τ)}

theorem logs (h : RecordedMoves s r r') : r.Logs r' := by
  induction h with
  | refl => exact .refl r
  | tail _ hlast ih => exact ih.trans hlast.logs

/-- **The record is the history.**  The transport of a run was used in exactly the ways of which the
history tells, in the same order. -/
theorem uses_eq {transport : τ} {now : Nat}
    (h : RecordedMoves s (Run.new s (.of transport) now) r) :
    r.transport.uses = r.history.uses := by
  obtain ⟨added, hhistory, huses⟩ := h.logs
  have hadded : r.history = added := hhistory.trans (List.append_nil added)
  rw [huses, hadded]
  exact List.append_nil _

end RecordedMoves

/-! ## The writes of a run -/

namespace History

/-- The lines of each write that ended, in order. -/
def written (h : History) : List (List Rendered) := h.select Occurrence.ended?

variable {before h : History}

theorem IsIdleSince.attempts_eq (hidle : IsIdleSince before h) : h.attempts = before.attempts := by
  obtain ⟨since, rfl, hsince⟩ := hidle
  refine select_append_of_none (fun e he => ?_) before
  have := hsince e he
  cases ho : e.occurrence <;> rw [ho] at this <;> first | rfl | cases this

theorem IsIdleSince.written_eq (hidle : IsIdleSince before h) : h.written = before.written := by
  obtain ⟨since, rfl, hsince⟩ := hidle
  refine select_append_of_none (fun e he => ?_) before
  have := hsince e he
  cases ho : e.occurrence <;> rw [ho] at this <;> first | rfl | cases this

end History

omit [Transport τ] in
/-- Every write that began has ended, except the one that the task is about. -/
theorem WriteEffect.attempts_eq {r r' : Run τ} (he : WriteEffect s r r')
    (h : r.history.attempts = r.history.written ++ r.task.pending?.toList) :
    r'.history.attempts = r'.history.written ++ r'.task.pending?.toList := by
  cases he with
  | idle since pending => rw [since.attempts_eq, since.written_eq, pending, h]
  | @begins gathering gathered lines free works since gathers nonempty history pending =>
    have hsince := since.trans gathers.isIdleSince
    rw [free] at h
    have hattempts : r'.history.attempts = gathered.history.attempts ++ [lines] := by
      rw [history]
      exact History.select_cons _ _ _
    have hwritten : r'.history.written = gathered.history.written := by
      rw [history]
      exact (History.select_cons _ _ _).trans (List.append_nil _)
    rw [hattempts, hwritten, hsince.attempts_eq, hsince.written_eq, h, pending]
    simp
  | @ends lines e before writing ended before_since since pending =>
    have hattempts : History.attempts (e :: before) = before.attempts := by
      refine (History.select_cons _ _ _).trans ?_
      have hnone : e.occurrence.attempt? = none := by
        cases ho : e.occurrence <;> rw [ho] at ended <;> first | rfl | cases ended
      rw [hnone]
      exact List.append_nil _
    have hwritten : History.written (e :: before) = before.written ++ [lines] := by
      refine (History.select_cons _ _ _).trans ?_
      rw [ended]
      rfl
    rw [since.attempts_eq, since.written_eq, hattempts, hwritten, before_since.attempts_eq,
      before_since.written_eq, h, writing, pending]
    simp

/-- The writes of a run. -/
theorem Moves.attempts_eq {transport : τ} {now : Nat} {r : Run τ}
    (h : Moves s (Run.new s transport now) r) :
    r.history.attempts = r.history.written ++ r.task.pending?.toList := by
  induction h with
  | refl => rfl
  | tail hfirst hlast ih =>
    exact (hlast.writeEffect (Moves.coherent hfirst (Run.coherent_new s transport now))).attempts_eq
      ih

/-- No write is made without lines. -/
theorem Moves.attempt_ne_nil {transport : τ} {now : Nat} {r : Run τ}
    (h : Moves s (Run.new s transport now) r) {lines : List Rendered}
    (hlines : lines ∈ r.history.attempts) : lines ≠ [] := by
  obtain ⟨later, t, earlier, hsplit⟩ := History.mem_attempts_iff.1 hlines
  obtain ⟨-, -, -, -, -, -, -, hnonempty, -⟩ :=
    h.moment_of_attempt (Run.coherent_new s transport now) rfl hsplit
  exact hnonempty

/-! ## What the transport was given -/

/-- The payload is the text of the lines, each with a line feed at its end, in UTF-8. -/
def Carries (payload : List UInt8) (lines : List Rendered) : Prop :=
  Utf8.decode payload = .ok (lines.flatMap fun x => x.text ++ ['\n'])

/-- Each line ends with a line feed. -/
theorem Wire.payload_eq_flatMap {lines : List Text} (h : lines ≠ []) :
    payload lines = lines.flatMap fun line => line ++ ['\n'] := by
  induction lines with
  | nil => exact absurd rfl h
  | cons line lines ih =>
    cases lines with
    | nil => simp [payload, Text.joinLines]
    | cons next lines =>
      rw [List.flatMap_cons, ← ih nofun]
      simp [payload, Text.joinLines]

theorem carries_payloadOf {lines : List Rendered} (h : lines ≠ []) :
    Carries (Run.payloadOf lines) lines := by
  unfold Carries Run.payloadOf
  rw [Utf8.decode_encode, payload_eq_flatMap (mt List.map_eq_nil_iff.1 h), List.flatMap_map]

/-- An occurrence tells truly of a use of the transport. -/
inductive Occurrence.TellsOf : Occurrence → Use → Prop
  | delivered {lines : List Rendered} {payload : List UInt8} (h : Carries payload lines) :
    TellsOf (.delivered lines) (.write payload none)
  | lost {lines : List Rendered} {payload : List UInt8} (error : TransportError)
    (h : Carries payload lines) : TellsOf (.lost lines error) (.write payload (some error))
  | closed (result : Except TransportError Unit) : TellsOf (.closed result) (.close result)

/-- Whether an occurrence tells of a use of the transport. -/
def Occurrence.isUse : Occurrence → Bool
  | .delivered _ | .lost .. | .closed _ => true
  | _ => false

/-- What the history of a run says of its transport is what the transport recorded. -/
structure Run.Attested (r : Run (Recorded τ)) : Prop where
  /-- The ends of writes and the closings in the history are the uses of the transport, in the same
  order and with the same results. -/
  uses : List.Forall₂ Occurrence.TellsOf
    ((r.history.map Entry.occurrence).filter Occurrence.isUse) r.transport.uses
  /-- The writes that began are those that ended and the one that the task is about. -/
  attempts : r.history.attempts = r.history.written ++ r.task.pending?.toList

namespace Run.Attested

variable {r : Run (Recorded τ)}

omit [Transport τ]

/-- The payloads that were written carry the lines of the writes that ended. -/
theorem payloads (h : r.Attested) :
    List.Forall₂ Carries r.transport.payloads r.history.written := by
  have hwritten : r.history.written =
      (((r.history.map Entry.occurrence).filter Occurrence.isUse).filterMap
        Occurrence.ended?).reverse := by
    unfold History.written History.select
    rw [List.filterMap_filter, List.filterMap_map]
    congr
    funext ⟨t, o⟩
    cases o <;> rfl
  rw [hwritten]
  refine List.forall₂_reverse_iff.2 ?_
  have huses := h.uses
  generalize r.transport.uses = uses at huses ⊢
  generalize (r.history.map Entry.occurrence).filter Occurrence.isUse = told at huses ⊢
  induction huses with
  | nil => exact .nil
  | cons hfirst _ ih =>
    cases hfirst with
    | delivered hcarries => exact .cons hcarries ih
    | lost error hcarries => exact .cons hcarries ih
    | closed result => exact ih

/-- The writes that ended are some of those that began. -/
theorem mem_attempts (h : r.Attested) {lines : List Rendered} (hlines : lines ∈ r.history.written) :
    lines ∈ r.history.attempts := by
  rw [h.attempts]
  exact List.mem_append_left _ hlines

/-- While no write goes on, the payloads carry the lines of all writes that began. -/
theorem payloads_of_free (h : r.Attested) (hfree : r.task.pending? = none) :
    List.Forall₂ Carries r.transport.payloads r.history.attempts := by
  rw [h.attempts, hfree, Option.toList_none, List.append_nil]
  exact h.payloads

/-- While no write goes on, the lines of any write that began were handed to the transport. -/
theorem exists_payload (h : r.Attested) (hfree : r.task.pending? = none) {lines : List Rendered}
    (hlines : lines ∈ r.history.attempts) :
    ∃ payload ∈ r.transport.payloads, Carries payload lines := by
  have hcarried := h.payloads_of_free hfree
  generalize r.transport.payloads = payloads at hcarried ⊢
  generalize r.history.attempts = attempts at hcarried hlines
  induction hcarried with
  | nil => cases hlines
  | @cons payload _ _ _ hfirst _ ih =>
    rcases List.mem_cons.1 hlines with rfl | hlines
    · exact ⟨payload, List.mem_cons_self, hfirst⟩
    · obtain ⟨payload', hpayload', hcarries⟩ := ih hlines
      exact ⟨payload', List.mem_cons_of_mem _ hpayload', hcarries⟩

end Run.Attested

/-- The uses of which a history tells, if no write in it is without lines. -/
theorem History.forall₂_tellsOf {h : History}
    (hlines : ∀ e ∈ h, ∀ lines, e.occurrence.ended? = some lines → lines ≠ []) :
    List.Forall₂ Occurrence.TellsOf ((h.map Entry.occurrence).filter Occurrence.isUse) h.uses := by
  induction h with
  | nil => exact .nil
  | cons e h ih =>
    obtain ⟨hfirst, hrest⟩ := List.forall_mem_cons.1 hlines
    obtain ⟨t, o⟩ := e
    cases o with
    | delivered lines => exact .cons (.delivered (carries_payloadOf (hfirst _ rfl))) (ih hrest)
    | lost lines error => exact .cons (.lost error (carries_payloadOf (hfirst _ rfl))) (ih hrest)
    | closed result => exact .cons (.closed result) (ih hrest)
    | _ => exact ih hrest

/-- **Histories are true.**  At every moment of a run, the transport was used in exactly the ways of
which the history tells. -/
theorem RecordedMoves.attested {transport : τ} {now : Nat} {r : Run (Recorded τ)}
    (h : RecordedMoves s (Run.new s (.of transport) now) r) : r.Attested := by
  have hattempts := h.moves.attempts_eq
  refine ⟨?_, hattempts⟩
  rw [h.uses_eq]
  refine History.forall₂_tellsOf fun e he lines hlines => h.moves.attempt_ne_nil ?_
  rw [hattempts]
  refine List.mem_append_left _ (History.mem_select_iff.2 ?_)
  obtain ⟨later, earlier, hsplit⟩ := List.append_of_mem he
  exact ⟨later, e, earlier, hsplit, hlines⟩

end LogShipper
