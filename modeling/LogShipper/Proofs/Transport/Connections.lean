import LogShipper.Transport.Network
import Mathlib.Data.List.Infix

/-!
# Batches on connections

The writers of streams and of requests keep one connection at a time and connect again when they
have to.  What they show of their connections is a `Conduit`, and all that a write can do to it is
said by `Conduit.Writes`: it gives up the connection, is refused a new one, or puts the batch, or a
beginning of it, on one connection, which is the present one or a new one.  `StreamWriter.writes`
and `RequestWriter.writes` show that neither writer does anything else.

A `Cargo` is what one connection carries: batches that got through, and then perhaps the beginning
of the batch with which the connection broke.  After any calls, the connections carry cargos that
hold every batch that was reported as sent exactly once, in the order of the writes
(`Conduit.Carries`).
-/

namespace LogShipper.Transport

/-! ## Conduits -/

/-- What a writer shows of its connections. -/
structure Conduit where
  isOpen : Bool
  /-- The number of attempts to connect. -/
  attempts : Nat
  /-- The octets that went into each connection, latest connection first. -/
  connections : List (List UInt8)

namespace Conduit

/-- The conduit with a further connection. -/
def reopened (c : Conduit) : Conduit := ⟨true, c.attempts + 1, [] :: c.connections⟩

/-- The conduit after an attempt to connect that failed. -/
def refused (c : Conduit) : Conduit := ⟨false, c.attempts + 1, c.connections⟩

/-- The conduit after its connection was given up. -/
def dropped (c : Conduit) : Conduit := { c with isOpen := false }

/-- The conduit with further octets on the latest connection. -/
def fed (octets : List UInt8) (c : Conduit) : Conduit :=
  { c with connections := StreamWriter.feed octets c.connections }

/-- A connection is at hand: the present one, or a new one. -/
inductive Ready (c : Conduit) : Conduit → Prop
  | kept (hopen : c.isOpen = true) : Ready c c
  | reopened : Ready c c.reopened

/-- What a write can do, and what it answers. -/
inductive Writes (payload : List UInt8) (c : Conduit) :
    Conduit → Except TransportError Nat → Prop
  /-- The connection turns out to have failed. -/
  | givenUp (hopen : c.isOpen = true) (e : TransportError) : Writes payload c c.dropped (.error e)
  /-- No connection is made. -/
  | refused (e : TransportError) : Writes payload c c.refused (.error e)
  /-- The batch goes onto a connection. -/
  | sent {ready : Conduit} (hready : c.Ready ready) :
    Writes payload c (ready.fed payload) (.ok payload.length)
  /-- A beginning of the batch goes onto a connection, which then breaks. -/
  | broke {ready : Conduit} (hready : c.Ready ready) {given : List UInt8}
    (hgiven : given <+: payload) (e : TransportError) :
    Writes payload c (ready.fed given).dropped (.error e)

variable {c c' ready : Conduit} {payload : List UInt8} {result : Except TransportError Nat}

theorem Ready.isOpen (h : c.Ready ready) : ready.isOpen = true := by
  cases h with
  | kept hopen => exact hopen
  | reopened => rfl

@[simp] theorem length_feed (octets : List UInt8) (connections : List (List UInt8)) :
    (StreamWriter.feed octets connections).length = connections.length := by
  cases connections <;> rfl

/-! ### What a write answers and opens -/

namespace Writes

/-- A write that succeeds counts its whole batch, and leaves the connection open. -/
theorem of_ok {n : Nat} (h : c.Writes payload c' (.ok n)) :
    n = payload.length ∧ c'.isOpen = true := by
  cases h with
  | sent hready => exact ⟨rfl, hready.isOpen⟩

/-- A write that fails leaves no connection. -/
theorem of_error {e : TransportError} (h : c.Writes payload c' (.error e)) :
    c'.isOpen = false := by
  cases h <;> rfl

/-- A write tries to connect at most once, and exactly once if there is no connection; a further
connection comes from an attempt. -/
theorem opens (h : c.Writes payload c' result) :
    ∃ tries ≤ 1, c'.attempts = c.attempts + tries ∧
      c'.connections.length ≤ c.connections.length + tries ∧ (c.isOpen = false → tries = 1) := by
  have habsent : c.isOpen = true → c.isOpen = false → 0 = 1 := by
    intro hopen hclosed
    rw [hclosed] at hopen
    cases hopen
  cases h with
  | givenUp hopen e => exact ⟨0, Nat.zero_le 1, rfl, Nat.le_refl _, habsent hopen⟩
  | refused e => exact ⟨1, Nat.le_refl 1, rfl, Nat.le_succ _, fun _ => rfl⟩
  | sent hready =>
    cases hready with
    | kept hopen => exact ⟨0, Nat.zero_le 1, rfl, by simp [fed], habsent hopen⟩
    | reopened => exact ⟨1, Nat.le_refl 1, rfl, by simp [fed, reopened], fun _ => rfl⟩
  | broke hready hgiven e =>
    cases hready with
    | kept hopen => exact ⟨0, Nat.zero_le 1, rfl, by simp [fed, dropped], habsent hopen⟩
    | reopened => exact ⟨1, Nat.le_refl 1, rfl, by simp [fed, dropped, reopened], fun _ => rfl⟩

end Writes

end Conduit

/-! ## The two writers -/

namespace StreamWriter

/-- The connections of a writer of streams. -/
def conduit (w : StreamWriter) : Conduit := ⟨w.isOpen, w.attempts, w.connections⟩

/-- Sending over an open connection sends the batch, or breaks the connection. -/
theorem writes_send (c : Conduit) {w : StreamWriter} (hready : c.Ready w.conduit)
    (fate : SendFate) (payload : List UInt8) :
    c.Writes payload (w.send fate payload).1.conduit (w.send fate payload).2 := by
  cases fate with
  | sent => exact .sent hready
  | failed n cause => exact .broke hready (List.take_prefix n payload) _
  | stalled n => exact .broke hready (List.take_prefix n payload) _

theorem writes (w : StreamWriter) (fate : StreamFate) (payload : List UInt8) :
    w.conduit.Writes payload (w.write fate payload).1.conduit (w.write fate payload).2 := by
  unfold write connect
  by_cases hopen : w.isOpen = true
  · rw [if_pos hopen]
    exact writes_send _ (.kept hopen) _ _
  · rw [if_neg hopen]
    rw [Bool.not_eq_true] at hopen
    cases fate.connect with
    | connected => exact writes_send _ .reopened _ _
    | failed cause =>
      have hrefused : w.conduit.Writes payload w.conduit.refused
          (.error (.connect w.address cause)) := .refused _
      simpa [conduit, Conduit.refused, hopen] using hrefused
    | stalled =>
      have hrefused : w.conduit.Writes payload w.conduit.refused
          (.error (.timeout w.address)) := .refused _
      simpa [conduit, Conduit.refused, hopen] using hrefused

/-- Closing gives the connection up. -/
theorem conduit_close (w : StreamWriter) (fate : StreamFate) :
    (w.close fate).1.conduit = w.conduit.dropped := by
  unfold close
  split
  · rfl
  · rename_i hclosed
    rw [Bool.not_eq_true] at hclosed
    simp [conduit, Conduit.dropped, hclosed]

end StreamWriter

/-! ### Requests -/

theorem flatten_chunksFor {size fuel : Nat} (hsize : 0 < size) {octets : List UInt8}
    (hfuel : octets.length ≤ fuel) : (chunksFor size fuel octets).flatten = octets := by
  induction fuel generalizing octets with
  | zero =>
    rw [Nat.le_zero, List.length_eq_zero_iff] at hfuel
    exact hfuel.symm
  | succ fuel ih =>
    unfold chunksFor
    split
    · rename_i hempty
      exact (List.isEmpty_iff.1 hempty).symm
    · have hrest : (octets.drop size).length ≤ fuel := by
        rw [List.length_drop]
        omega
      rw [List.flatten_cons, ih hrest, List.take_append_drop]

/-- The chunks of a batch are the batch. -/
theorem flatten_chunks (payload : List UInt8) : (chunks payload).flatten = payload :=
  flatten_chunksFor (by decide) (Nat.le_refl _)

/-- The first chunks of a batch are a beginning of it. -/
theorem flatten_take_chunks (n : Nat) (payload : List UInt8) :
    ((chunks payload).take n).flatten <+: payload := by
  have hprefix := (List.take_prefix n (chunks payload)).flatten
  rwa [flatten_chunks] at hprefix

namespace RequestWriter

/-- The connections of a writer of requests: the bodies of its requests. -/
def conduit (w : RequestWriter) : Conduit := ⟨w.isOpen, w.attempts, w.requests.map List.flatten⟩

theorem map_flatten_feed (added : List (List UInt8)) (requests : List (List (List UInt8))) :
    (feed added requests).map List.flatten =
      StreamWriter.feed added.flatten (requests.map List.flatten) := by
  cases requests with
  | nil => rfl
  | cons latest earlier => simp [feed, StreamWriter.feed]

/-- Sending into an open request sends the batch, or breaks the request. -/
theorem writes_send (c : Conduit) {w : RequestWriter} (hready : c.Ready w.conduit)
    (fate : BodyFate) (payload : List UInt8) :
    c.Writes payload (w.send fate payload).1.conduit (w.send fate payload).2 := by
  have hbroke : ∀ n e, c.Writes payload
      ⟨false, w.attempts, (feed ((chunks payload).take n) w.requests).map List.flatten⟩
      (.error e) := by
    intro n e
    rw [map_flatten_feed]
    exact .broke hready (flatten_take_chunks n payload) e
  cases fate with
  | taken =>
    have hsent : c.Writes payload (w.conduit.fed payload) (.ok payload.length) := .sent hready
    simpa [send, conduit, Conduit.fed, map_flatten_feed, flatten_chunks] using hsent
  | dropped n verdict => exact hbroke n _
  | stalled n => exact hbroke n _

/-- A look at the open request keeps it, or gives it up with its verdict; without a request there
is nothing to give up. -/
theorem review_cases (w : RequestWriter) (answered : Option Verdict) :
    (w.isOpen = true ∧ w.review answered = (w, .ok ())) ∨
    (w.isOpen = true ∧ ∃ e, w.review answered = ({ w with isOpen := false }, .error e)) ∨
    w.review answered = ({ w with isOpen := false }, .ok ()) := by
  unfold review
  by_cases hopen : w.isOpen = true
  · rw [if_pos hopen]
    cases answered with
    | none => exact .inl ⟨hopen, rfl⟩
    | some verdict =>
      cases hverdict : verdict.error? w.url.text with
      | none => exact .inr (.inr (by simp [hverdict]))
      | some e => exact .inr (.inl ⟨hopen, e, by simp [hverdict]⟩)
  · rw [if_neg hopen]
    rw [Bool.not_eq_true] at hopen
    exact .inr (.inr (by rw [← hopen]))

/-- An open request is kept. -/
theorem openRequest_of_open {w : RequestWriter} (hopen : w.isOpen = true) (fate : OpenFate) :
    w.openRequest fate = (w, .ok ()) := by
  unfold openRequest
  rw [if_pos hopen]

/-- Without an open request one is opened, or opening it is refused. -/
theorem openRequest_cases {w : RequestWriter} (hclosed : w.isOpen = false) (fate : OpenFate) :
    (∃ e, w.openRequest fate = ({ w with attempts := w.attempts + 1 }, .error e)) ∨
    w.openRequest fate =
      ({ w with isOpen := true, attempts := w.attempts + 1, requests := [] :: w.requests },
        .ok ()) := by
  unfold openRequest
  rw [if_neg (by rw [hclosed]; nofun)]
  cases fate with
  | opened => exact .inr rfl
  | ended verdict => exact .inl ⟨_, rfl⟩
  | stalled => exact .inl ⟨_, rfl⟩

theorem writes (w : RequestWriter) (fate : RequestFate) (payload : List UInt8) :
    w.conduit.Writes payload (w.write fate payload).1.conduit (w.write fate payload).2 := by
  unfold write
  rcases w.review_cases fate.answered with ⟨hopen, hkept⟩ | ⟨hopen, e, hgiven⟩ | hclosed
  · rw [hkept]
    dsimp only
    rw [openRequest_of_open hopen]
    exact writes_send _ (.kept hopen) _ _
  · rw [hgiven]
    exact .givenUp hopen e
  · rw [hclosed]
    dsimp only
    let closed : RequestWriter := { w with isOpen := false }
    rcases closed.openRequest_cases rfl fate.opening with ⟨e, hrefused⟩ | hopened
    · rw [hrefused]
      exact .refused e
    · rw [hopened]
      exact writes_send _ .reopened _ _

/-- Closing gives the request up. -/
theorem conduit_close (w : RequestWriter) (fate : RequestFate) :
    (w.close fate).1.conduit = w.conduit.dropped := by
  unfold close
  split
  · rfl
  · rename_i hclosed
    rw [Bool.not_eq_true] at hclosed
    simp [conduit, Conduit.dropped, hclosed]

end RequestWriter

/-! ## What connections carry -/

/-- A write and whether it succeeded. -/
structure Outcome where
  payload : List UInt8
  sent : Bool
deriving DecidableEq, Repr

/-- What one connection carries: whole batches, and then perhaps a beginning of the batch with
which the connection broke. -/
structure Cargo where
  whole : List (List UInt8) := []
  broken : Option (List UInt8) := none
  given : List UInt8 := []
  given_prefix : given <+: broken.getD []

namespace Cargo

/-- The octets of a cargo. -/
def octets (cargo : Cargo) : List UInt8 := cargo.whole.flatten ++ cargo.given

/-- The writes whose batches a cargo holds, in order. -/
def outcomes (cargo : Cargo) : List Outcome :=
  cargo.whole.map (⟨·, true⟩) ++ cargo.broken.toList.map (⟨·, false⟩)

/-- A connection that did not break has been given nothing but whole batches. -/
theorem given_eq_nil {cargo : Cargo} (h : cargo.broken = none) : cargo.given = [] := by
  have hprefix := cargo.given_prefix
  rw [h] at hprefix
  exact List.prefix_nil.1 hprefix

/-- A connection takes a further batch. -/
def add (cargo : Cargo) (batch : List UInt8) : Cargo :=
  { cargo with whole := cargo.whole ++ [batch] }

/-- A connection breaks with a batch. -/
def breakOff (cargo : Cargo) {batch given : List UInt8} (hgiven : given <+: batch) : Cargo :=
  { whole := cargo.whole, broken := some batch, given, given_prefix := hgiven }

variable {cargo : Cargo} (h : cargo.broken = none)

include h

theorem octets_add (batch : List UInt8) : (cargo.add batch).octets = cargo.octets ++ batch := by
  simp [octets, add, given_eq_nil h]

theorem outcomes_add (batch : List UInt8) :
    (cargo.add batch).outcomes = cargo.outcomes ++ [⟨batch, true⟩] := by
  simp [outcomes, add, h]

theorem octets_breakOff {batch given : List UInt8} (hgiven : given <+: batch) :
    (cargo.breakOff hgiven).octets = cargo.octets ++ given := by
  simp [octets, breakOff, given_eq_nil h]

theorem outcomes_breakOff {batch given : List UInt8} (hgiven : given <+: batch) :
    (cargo.breakOff hgiven).outcomes = cargo.outcomes ++ [⟨batch, false⟩] := by
  simp [outcomes, breakOff, h]

end Cargo

namespace Conduit

/-- The connections carry some cargos, latest first, which hold the batches of the writes so far:
each batch that was sent, and of the others some, once each and in order. -/
structure Carries (log : List Outcome) (c : Conduit) (cargos : List Cargo) : Prop where
  connections_eq : c.connections = cargos.map Cargo.octets
  sublist : (cargos.reverse.flatMap Cargo.outcomes).Sublist log
  filter_eq : (cargos.reverse.flatMap Cargo.outcomes).filter Outcome.sent = log.filter Outcome.sent
  unbroken : c.isOpen = true → ∃ latest earlier, cargos = latest :: earlier ∧ latest.broken = none

namespace Carries

variable {log : List Outcome} {c c' : Conduit} {cargos : List Cargo} {payload : List UInt8}

/-- Giving the connection up changes nothing about what was carried. -/
theorem dropped (h : Carries log c cargos) : Carries log c.dropped cargos :=
  { h with unbroken := nofun }

/-- A write may fail without a trace on any connection. -/
theorem lose (h : Carries log c cargos) (hclosed : c.isOpen = false) (payload : List UInt8) :
    Carries (log ++ [⟨payload, false⟩]) c cargos where
  connections_eq := h.connections_eq
  sublist := h.sublist.trans (List.sublist_append_left _ _)
  filter_eq := by
    rw [h.filter_eq, List.filter_append]
    exact (List.append_nil _).symm
  unbroken := fun hopen => by
    rw [hclosed] at hopen
    cases hopen

/-- A connection at hand carries whole batches only. -/
theorem ready {ready : Conduit} (h : Carries log c cargos) (hready : c.Ready ready) :
    ∃ latest earlier, Carries log ready (latest :: earlier) ∧ latest.broken = none := by
  cases hready with
  | kept hopen =>
    obtain ⟨latest, earlier, rfl, hwhole⟩ := h.unbroken hopen
    exact ⟨latest, earlier, h, hwhole⟩
  | reopened =>
    let fresh : Cargo := { given_prefix := List.nil_prefix }
    refine ⟨fresh, cargos, ⟨?_, ?_, ?_, fun _ => ⟨fresh, cargos, rfl, rfl⟩⟩, rfl⟩
    · exact congrArg _ h.connections_eq
    · simpa [fresh, Cargo.outcomes] using h.sublist
    · simpa [fresh, Cargo.outcomes] using h.filter_eq

/-- The latest connection takes one more batch, or a beginning of it. -/
theorem extend {latest latest' : Cargo} {earlier : List Cargo} {octets : List UInt8}
    {outcome : Outcome} (h : Carries log c (latest :: earlier))
    (hoctets : latest'.octets = latest.octets ++ octets)
    (houtcomes : latest'.outcomes = latest.outcomes ++ [outcome])
    (hwhole : latest'.broken = none ∨ c'.isOpen = false)
    (hconnections : c'.connections = (c.fed octets).connections) :
    Carries (log ++ [outcome]) c' (latest' :: earlier) where
  connections_eq := by
    rw [hconnections]
    simp [fed, h.connections_eq, StreamWriter.feed, hoctets]
  sublist := by
    have hsublist := h.sublist.append (List.Sublist.refl [outcome])
    simpa [houtcomes] using hsublist
  filter_eq := by
    have hfilter := h.filter_eq
    simp only [List.reverse_cons, List.flatMap_append, List.flatMap_singleton, houtcomes,
      List.filter_append] at hfilter ⊢
    rw [← hfilter, List.append_assoc]
  unbroken := by
    intro hopen
    refine ⟨latest', earlier, rfl, hwhole.resolve_right ?_⟩
    rw [hopen]
    nofun

/-- Whatever a write does, the connections go on to carry the batches of the writes. -/
theorem write (h : Carries log c cargos) {result : Except TransportError Nat}
    (hw : c.Writes payload c' result) :
    ∃ cargos', Carries (log ++ [⟨payload, result.isOk⟩]) c' cargos' := by
  cases hw with
  | givenUp hopen e => exact ⟨cargos, h.dropped.lose rfl payload⟩
  | refused e =>
    have hrefused : Carries log c.refused cargos := { h with unbroken := nofun }
    exact ⟨cargos, hrefused.lose rfl payload⟩
  | sent hready =>
    obtain ⟨latest, earlier, hcarries, hwhole⟩ := h.ready hready
    exact ⟨latest.add payload :: earlier, hcarries.extend (Cargo.octets_add hwhole payload)
      (Cargo.outcomes_add hwhole payload) (.inl hwhole) rfl⟩
  | broke hready hgiven e =>
    obtain ⟨latest, earlier, hcarries, hwhole⟩ := h.ready hready
    exact ⟨latest.breakOff hgiven :: earlier, hcarries.extend (Cargo.octets_breakOff hwhole hgiven)
      (Cargo.outcomes_breakOff hwhole hgiven) (.inr rfl) rfl⟩

end Carries

end Conduit

/-! ## Links -/

/-- The connections of a writer; a writer of datagrams has none. -/
def Writer.conduit : Writer → Conduit
  | .stream w => w.conduit
  | .datagram w => ⟨w.isOpen, 0, []⟩
  | .request w => w.conduit

/-- Whether a writer sends datagrams. -/
def Writer.isDatagram : Writer → Bool
  | .datagram _ => true
  | _ => false

/-- What is asked of a link. -/
inductive Call where
  | write (payload : List UInt8)
  | close

namespace Link

/-- The connections of a link. -/
def conduit (l : Link) : Conduit := l.writer.conduit

/-- The link after some calls, and what became of the writes among them. -/
def run : Link → List Call → Link × List Outcome
  | l, [] => (l, [])
  | l, .write payload :: calls =>
    let written := l.write payload
    let rest := written.transport.run calls
    (rest.1, ⟨payload, written.result.isOk⟩ :: rest.2)
  | l, .close :: calls => l.close.1.run calls

variable {l : Link} (h : l.writer.isDatagram = false)

include h

/-- Writing over a link that keeps connections. -/
theorem writes (payload : List UInt8) :
    (l.write payload).transport.writer.isDatagram = false ∧
      l.conduit.Writes payload (l.write payload).transport.conduit (l.write payload).result := by
  obtain ⟨writer, network, calls⟩ := l
  cases writer with
  | stream w => exact ⟨rfl, w.writes _ payload⟩
  | datagram w => cases h
  | request w => exact ⟨rfl, w.writes _ payload⟩

/-- Closing such a link. -/
theorem close_eq :
    l.close.1.writer.isDatagram = false ∧ l.close.1.conduit = l.conduit.dropped := by
  obtain ⟨writer, network, calls⟩ := l
  cases writer with
  | stream w => exact ⟨rfl, w.conduit_close _⟩
  | datagram w => cases h
  | request w => exact ⟨rfl, w.conduit_close _⟩

/-- What the connections carry after further calls. -/
theorem carries_run {log : List Outcome} {cargos : List Cargo}
    (hcarries : l.conduit.Carries log cargos) (calls : List Call) :
    (l.run calls).1.writer.isDatagram = false ∧
      ∃ cargos', (l.run calls).1.conduit.Carries (log ++ (l.run calls).2) cargos' := by
  induction calls generalizing l log cargos with
  | nil => exact ⟨h, cargos, by simpa [run] using hcarries⟩
  | cons call calls ih =>
    cases call with
    | write payload =>
      obtain ⟨hkind, hwrites⟩ := writes h payload
      obtain ⟨cargos', hcarries'⟩ := hcarries.write hwrites
      have hrest := ih hkind hcarries'
      rwa [List.append_assoc] at hrest
    | close =>
      obtain ⟨hkind, hclosed⟩ := close_eq h
      exact ih hkind (hclosed ▸ hcarries.dropped)

omit h in
/-- The connections of a link know whether it is open. -/
theorem isOpen_conduit (l : Link) : l.conduit.isOpen = Transport.isOpen l := by
  obtain ⟨writer, network, calls⟩ := l
  cases writer <;> rfl

end Link

/-- **Batches stay whole.**  Take a link to a collector that is reached over connections, on any
network, after any calls.

* A further write that succeeds counts its whole batch and leaves the link open; one that fails
  leaves it closed.  It tries to connect at most once, exactly once if the link was closed, and only
  an attempt brings a further connection.
* Closing, in order or not, leaves the link closed, and puts nothing on a connection.
* Each connection carries whole batches, and then at most a beginning of one batch whose write
  failed.  Together they hold, in the order of the writes, each batch that was sent once, and of the
  others some, once. -/
theorem Link.batches_whole {d : Destination} (hd : ∀ host port, d ≠ .udp host port)
    (network : Network) (calls : List Call) :
    let ran := Link.run { writer := .ofDestination d, network } calls
    let l := ran.1
    (∀ payload,
      let written := l.write payload
      (∀ n, written.result = .ok n →
        n = payload.length ∧ Transport.isOpen written.transport = true) ∧
      (∀ e, written.result = .error e → Transport.isOpen written.transport = false) ∧
      ∃ tries ≤ 1, written.transport.conduit.attempts = l.conduit.attempts + tries ∧
        written.transport.conduit.connections.length ≤ l.conduit.connections.length + tries ∧
        (Transport.isOpen l = false → tries = 1)) ∧
    (Transport.isOpen l.close.1 = false ∧
      l.close.1.conduit.attempts = l.conduit.attempts ∧
      l.close.1.conduit.connections = l.conduit.connections) ∧
    ∃ cargos : List Cargo, l.conduit.connections.reverse = cargos.map Cargo.octets ∧
      (cargos.flatMap Cargo.outcomes).Sublist ran.2 ∧
      (cargos.flatMap Cargo.outcomes).filter Outcome.sent = ran.2.filter Outcome.sent := by
  intro ran l
  let fresh : Link := { writer := .ofDestination d, network }
  have hnew : fresh.writer.isDatagram = false ∧ fresh.conduit.Carries [] [] := by
    cases d with
    | tcp host port => exact ⟨rfl, rfl, .slnil, rfl, nofun⟩
    | udp host port => exact absurd rfl (hd host port)
    | http url credentials => exact ⟨rfl, rfl, .slnil, rfl, nofun⟩
  obtain ⟨hkind, cargos, hcarries⟩ := fresh.carries_run hnew.1 hnew.2 calls
  refine ⟨?_, ?_, cargos.reverse, ?_, hcarries.sublist, hcarries.filter_eq⟩
  · intro payload written
    have hwrites := (writes hkind payload).2
    rw [← isOpen_conduit, ← isOpen_conduit]
    refine ⟨?_, ?_, hwrites.opens⟩
    · intro n hn
      rw [hn] at hwrites
      exact hwrites.of_ok
    · intro e he
      rw [he] at hwrites
      exact hwrites.of_error
  · rw [← isOpen_conduit, (close_eq hkind).2]
    exact ⟨rfl, rfl, rfl⟩
  · rw [hcarries.connections_eq, List.map_reverse]

/-- A connection breaks within the second of four batches, and the next one cannot be made at
first. -/
theorem Link.batches_whole_of_failures :
    let network : Network :=
      { stream := fun n =>
          if n = 1 then { send := .failed 2 .brokenPipe }
          else if n = 2 then { connect := .stalled }
          else {} }
    let ran := Link.run { writer := .ofDestination (.tcp "localhost" 8081), network }
      [.write [1, 2], .write [3, 4, 5], .write [6], .write [7, 8]]
    ran.1.conduit.connections.reverse = [[1, 2, 3, 4], [7, 8]] ∧
      ran.2.map Outcome.sent = [true, false, false, true] ∧
      ∃ cargos : List Cargo, [[1, 2, 3, 4], [7, 8]] = cargos.map Cargo.octets ∧
        (cargos.flatMap Cargo.outcomes).filter Outcome.sent =
          [⟨[1, 2], true⟩, ⟨[7, 8], true⟩] := by
  intro network ran
  have hconnections : ran.1.conduit.connections.reverse = [[1, 2, 3, 4], [7, 8]] := by decide
  have hstream : ∀ host port, Destination.tcp "localhost" 8081 ≠ .udp host port := nofun
  obtain ⟨-, -, cargos, hcargos, -, hsent⟩ :=
    batches_whole hstream network [.write [1, 2], .write [3, 4, 5], .write [6], .write [7, 8]]
  refine ⟨hconnections, by decide, cargos, hconnections.symm.trans hcargos, hsent.trans ?_⟩
  decide

end LogShipper.Transport
