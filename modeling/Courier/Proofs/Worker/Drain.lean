import Courier.Proofs.Worker.RunSteps

/-!
# A component that is run again and again

A task publishes messages and errors, one after the other, waits for room when the queue is full,
and then drops all publishers. Meanwhile a component is run, and run again whenever a run has
returned something other than that its stream is closed. `Drain.Step` lists what can happen next, in
whatever order the tasks get their turns: the processor may take any time and answer as it likes
within what `may` allows, and a run may be asked to stop at any moment, as often as `Drain.stops`
says.

`Drain.Sound` says what holds of it all the time: where the messages are, and what each run has
cost. A run that is over was asked to stop, or has met an error, or a failure of its processor.
-/

namespace Courier

/-- What a task publishes. -/
inductive Item where
  /-- A message. -/
  | message (id : Option String) (payload : Json)
  /-- An error. -/
  | error (text : String)

namespace Item

/-- What happens when it is published. -/
def event : Item → Worker.Event
  | .message id payload => .publish id payload
  | .error text => .fail text

/-- Whether it is an error. -/
def isError : Item → Bool
  | .message .. => false
  | .error _ => true

end Item

/-- The messages of a script, which are numbered from `n` on. -/
def parcelsFrom : Nat → List Item → List Parcel
  | _, [] => []
  | n, .message id payload :: items =>
    ⟨n, id.map CorrelationId.given, payload⟩ :: parcelsFrom (n + 1) items
  | n, .error _ :: items => parcelsFrom n items

/-- A component that is run again and again while a task publishes. -/
structure Drain where
  /-- The transport, and the runs so far. -/
  worker : Worker
  /-- What the task has still to publish. -/
  script : List Item
  /-- How many more requests to stop there may be. -/
  stops : Nat
  /-- The messages that processors were done with, and the results, in that order. -/
  judged : List (Delivery × Except String Unit) := []

namespace Drain

/-- What drives the transport. -/
def core (x : Drain) : Core := x.worker.broker.core

/-- The same at another time. -/
def atTime (x : Drain) (now : Nat) : Drain :=
  { x with worker := x.worker.onto (x.worker.broker.setClock now) }

/-- What can happen at a moment. A run of the component has the rules `p`, and its processor may be
done with a message in the ways that `may` allows. -/
inductive Act (p : Profile) (may : Delivery → Except String Unit → Prop) (x : Drain) : Drain → Prop
  /-- The task publishes the next item of its script, unless it still waits for room. -/
  | publish {item : Item} {script : List Item} {w : Worker} (hscript : x.script = item :: script)
    (hfree : x.worker.broker.blocked = []) (h : x.worker.apply item.event = some w) :
    Act p may x { x with worker := w, script := script }
  /-- The task has published everything, and drops a publisher. -/
  | leave {w : Worker} (hscript : x.script = []) (hfree : x.worker.broker.blocked = [])
    (hpublishers : x.worker.broker.publishers ≠ 0) (h : x.worker.apply .dropPublisher = some w) :
    Act p may x { x with worker := w }
  /-- The component is run once more, since the last run did not return that its stream is closed.
  The signal of the run may ask it to stop from the start. -/
  | start {processor : Processor} {stop : Bool} {stops : Nat} {w : Worker}
    (hagain : ∀ r, x.worker.runs.getLast? = some r →
      r.phase.result? ≠ some (.error .streamClosed))
    (hstops : x.stops = stops + stop.toNat)
    (h : x.worker.apply (.start p processor (.ofBool stop)) = some w) :
    Act p may x { x with worker := w, stops := stops }
  /-- A run is asked to stop. -/
  | request {n stops : Nat} {w : Worker} (hstops : x.stops = stops + 1)
    (h : x.worker.apply (.setSignal n true) = some w) :
    Act p may x { x with worker := w, stops := stops }
  /-- The signal of a run is left to itself. -/
  | abandon {n stops : Nat} {w : Worker} (hstops : x.stops = stops + 1)
    (h : x.worker.apply (.abandonSignal n) = some w) :
    Act p may x { x with worker := w, stops := stops }
  /-- A run goes on, while its processor has no message. -/
  | run {n : Nat} {w : Worker}
    (hphase : ∀ r, x.worker.runs[n]? = some r → ∀ e d t, r.phase ≠ .processing e d t)
    (h : x.worker.apply (.run n) = some w) :
    Act p may x { x with worker := w }
  /-- The processor of a run is done with its message. -/
  | finish {n since : Nat} {r : WorkerRun} {errorsOpen : Bool} {d : Delivery}
    {result : Except String Unit} {w : Worker} (hr : x.worker.runs[n]? = some r)
    (hphase : r.phase = .processing errorsOpen d since) (hmay : may d result)
    (h : x.worker.apply (.finish n result) = some w) :
    Act p may x { x with worker := w, judged := x.judged ++ [(d, result)] }
  /-- A run that is over with its streams lets go of the errors only. -/
  | dropErrors {n : Nat} {r : WorkerRun} {l : Lane} {w : Worker} (hr : x.worker.runs[n]? = some r)
    (hl : x.worker.broker.lanes[r.lane]? = some l) (hreads : l.readsErrors = true)
    (h : x.worker.apply (.dropErrors n) = some w) :
    Act p may x { x with worker := w }
  /-- A run that is over with its streams lets go of the messages, and has not gone on yet. -/
  | dropMessages {n : Nat} {r : WorkerRun} {l : Lane} {w : Worker} (hr : x.worker.runs[n]? = some r)
    (hl : x.worker.broker.lanes[r.lane]? = some l) (hreads : l.readsMessages = true)
    (h : x.worker.apply (.dropMessages n) = some w) :
    Act p may x { x with worker := w }
  /-- A forwarder has a turn that does not come to nothing. -/
  | forward {lane : Nat} {favourNew : Bool} {w : Worker}
    (h : x.worker.apply (.forward lane favourNew) = some w) (hchange : w.broker ≠ x.worker.broker) :
    Act p may x { x with worker := w }
  /-- A forwarder goes on although it was asked to end meanwhile. -/
  | overrun {lane : Nat} {favourNew : Bool} {w : Worker}
    (h : x.worker.apply (.overrun lane favourNew) = some w) (hchange : w.broker ≠ x.worker.broker) :
    Act p may x { x with worker := w }

/-- What can happen after some time, or at once. -/
def Step (p : Profile) (may : Delivery → Except String Unit → Prop) (x x' : Drain) : Prop :=
  ∃ now, Act p may (x.atTime now) x'

end Drain

/-! ## What is published -/

/-- The messages that wait for room. -/
def Core.waiting (g : Core) : List Parcel := g.blocked.filterMap Envelope.parcel?

namespace Broker

theorem waiting_contents (b : Broker) : b.contents.waiting = b.core.waiting := by
  show b.blocked.filterMap (fun e => e.2.parcel?) = (b.blocked.map Prod.snd).filterMap _
  rw [List.filterMap_map]
  rfl

/-- As long as somebody has the factory, nothing that is sent is refused. -/
theorem send_ne_refused {b : Broker} (h : b.hasFactory = true) (e : Envelope) :
    (b.send e).2 ≠ .refused := by
  have halive : b.isAlive = true := by
    rw [isAlive, h]
    rfl
  rw [send, halive, Bool.not_true, if_neg Bool.false_ne_true]
  split <;> simp

/-- A message that is published is accepted, or waits. -/
theorem waiting_publish {b : Broker} (h : b.hasFactory = true) (hfree : b.blocked = [])
    (id : Option String) (payload : Json) :
    b.published id payload ++ (b.publish id payload).1.core.waiting =
      [⟨b.nextSeq, id.map CorrelationId.given, payload⟩] ∧
      (b.publish id payload).1.core.nextSeq = b.nextSeq + 1 := by
  have hsent : (b.publish id payload).2 ≠ .refused :=
    send_ne_refused (b := { b with nextSeq := b.nextSeq + 1 }) h _
  have hcontents := contents_publish b id payload
  have hnone : b.contents.waiting = [] := by
    show b.blocked.filterMap _ = []
    rw [hfree]
    rfl
  rw [← waiting_contents]
  show _ ∧ (b.publish id payload).1.contents.nextSeq = _
  rw [hcontents, published]
  cases hadmission : (b.publish id payload).2 with
  | refused => exact absurd hadmission hsent
  | accepted =>
    refine ⟨?_, rfl⟩
    rw [if_pos rfl]
    show _ ++ b.contents.waiting = _
    rw [hnone]
    rfl
  | waiting ticket =>
    refine ⟨?_, rfl⟩
    rw [if_neg (by simp)]
    show [] ++ (b.blocked ++ [_]).filterMap _ = _
    rw [hfree]
    rfl

theorem waiting_fail (b : Broker) (text : String) :
    (b.fail text).1.core.waiting = b.core.waiting ∧ (b.fail text).1.core.nextSeq = b.nextSeq := by
  rw [← waiting_contents, ← waiting_contents]
  show (b.fail text).1.contents.waiting = _ ∧ (b.fail text).1.contents.nextSeq = _
  rw [fail, contents_send]
  cases (b.send (.error text)).2 with
  | accepted | refused => exact ⟨rfl, rfl⟩
  | waiting ticket =>
    refine ⟨?_, rfl⟩
    show (b.blocked ++ [_]).filterMap _ = b.blocked.filterMap _
    rw [List.filterMap_append]
    exact List.append_nil _

end Broker

/-- A message that gets room does not wait any more. -/
theorem Contents.admitted_append_waiting {s s' : Contents} {lane : Nat} {accepted : List Parcel}
    (h : Forwards lane s s') (hnumbered : s.Numbered accepted) :
    s.admitted s' ++ s'.waiting = s.waiting := by
  obtain ⟨s₁, hrefill, hmoves⟩ := h
  have hwaiting : s'.waiting = s₁.waiting := by rw [waiting, hmoves.blocked_eq, waiting]
  rw [hmoves.admitted_eq, hwaiting]
  cases hrefill with
  | none =>
    rw [admitted_of_blocked_eq rfl]
    rfl
  | @one ticket e rest hblocked =>
    rw [admitted_of_cons hblocked hnumbered.tickets, waiting, waiting, hblocked,
      List.filterMap_cons]
    cases e <;> rfl

/-! ## What holds all the time -/

/-- Whether a run was cut short, so that there may be messages left. -/
def CutShort : RunResult → Prop
  | .ok () | .error (.transport _) | .error (.processing _) => True
  | .error _ => False

/-- A run that has not come to the end of its stream was cut short. -/
theorem cutShort_of_allowsResult {g : Core} {n : Nat} {result : RunResult}
    (h : g.AllowsResult n result) (hopen : result ≠ .error .streamClosed) : CutShort result := by
  unfold Core.AllowsResult at h
  split at h
  · exact absurd rfl hopen
  · trivial
  · trivial
  · trivial
  · exact h.elim

/-- How a message is settled that the processor was done with. -/
def outcomeOf (p : Profile) (c : Delivery × Except String Unit) : Outcome :=
  ⟨c.1.seq, c.1.id, p.dispositionAfter (failure? c.2)⟩

/-- How many failures of the processor end a run. -/
def fatalFailures (p : Profile) (judged : List (Delivery × Except String Unit)) : Nat :=
  if p.strategy = .nackExit then judged.countP fun c => (failure? c.2).isSome else 0

/-- The message that a processor has. -/
def Phase.inProcess : Phase Delivery → List Delivery
  | .processing _ d _ => [d]
  | _ => []

/-- Whether the settlements are those of the messages that the processor was done with; that of the
last one may be still to come. -/
def Phase.Tallies (p : Profile) (judged : List (Delivery × Except String Unit))
    (outcomes : List Outcome) :
    Phase Delivery → Prop
  | .settling _ d failure =>
    ∃ done result, judged = done ++ [(d, result)] ∧ failure? result = failure ∧
    outcomes = done.map (outcomeOf p)
  | _ => outcomes = judged.map (outcomeOf p)

/-- A run at its beginning. -/
def WorkerRun.beginning (p : Profile) (processor : Processor) (signal : Signal) : WorkerRun :=
  let turn : Turn Delivery := Phase.start p
  { profile := p, processor, signal, phase := turn.phase, marks := turn.marks }

/-- The states of all runs. -/
def Worker.states (w : Worker) : List RunState := w.runs.map WorkerRun.state

/-- The state of the last run. Before the first run it is that of a run that begins. -/
def Worker.state (w : Worker) : RunState := w.states.getLast?.getD ⟨.creating 1, 0, 0⟩

/-- What holds of a drain that has begun with this script and so many requests to stop. Messages
stand in line in the lane `n`, and `accepted` are those that the queue has accepted. -/
structure Drain.Sound (p : Profile) (may : Delivery → Except String Unit → Prop)
    (script : List Item) (stops : Nat) (x : Drain) (n : Nat) (accepted : List Parcel) : Prop where
  cutShort : ∀ s ∈ x.worker.states.dropLast, ∃ result, s.phase.result? = some result ∧
    CutShort result
  profile : ∀ q ∈ x.worker.runs, q.profile = p
  orderly : x.worker.Orderly n accepted (x.judged.map Prod.fst ++ x.worker.state.phase.inProcess)
  published :
    accepted ++ x.core.waiting ++ parcelsFrom x.core.nextSeq x.script = parcelsFrom 0 script
  scriptDone : x.core.publishers = 0 → x.script = []
  wellFormed : x.core.WellFormed
  fits : x.worker.state.Fits x.core
  tallies : x.worker.state.phase.Tallies p x.judged x.core.outcomes
  allowed : ∀ c ∈ x.judged, may c.1 c.2
  stopped : ∀ q ∈ x.worker.runs, q.phase.outcome? = some (.ok ()) → q.signal.isStop
  stops_le : (x.worker.runs.countP fun q => q.signal.isStop) + x.stops ≤ stops
  errors_le : (x.worker.states.countP fun s => s.phase.meetsError) + x.core.faults +
    x.script.countP Item.isError ≤ script.countP Item.isError
  failures_le : (x.worker.states.countP fun s => s.phase.meetsFailure p) ≤ fatalFailures p x.judged

namespace Worker

variable {w w' : Worker} {older : List WorkerRun} {r : WorkerRun}

theorem IsLast.states_eq (h : w.IsLast older r) :
    w.states = older.map WorkerRun.state ++ [r.state] := by
  rw [states, h.runs, List.map_append]
  rfl

theorem IsLast.state_eq (h : w.IsLast older r) : w.state = r.state := by
  rw [state, h.states_eq, List.getLast?_concat]
  rfl

/-- A change of a run that leaves its state leaves all states. -/
theorem states_of_modify {i : Nat} {f : WorkerRun → WorkerRun} (hruns : w'.runs = w.runs.modify i f)
    (h : ∀ r, (f r).state = r.state) : w'.states = w.states := by
  rw [states, hruns, states]
  exact map_modifyRun w i h

/-- A run that starts when all others have ended is the last one. -/
theorem isLast_start (hidle : w.isIdle) (p : Profile) (processor : Processor) (signal : Signal) :
    (w.start p processor signal).IsLast w.runs (.beginning p processor signal) :=
  ⟨rfl, fun q hq => List.all_eq_true.mp hidle q hq⟩

/-- Only the last run can have a forwarder that has not ended. -/
theorem Orderly.lane_of_begun {n : Nat} {accepted : List Parcel} {handed : List Delivery} {l : Lane}
    (h : w.Orderly n accepted handed) (hl : w.broker.lanes[n]? = some l)
    (hbegun : l.forwarder ≠ .ended) : w.state.lane = n := by
  have hopen : ¬ (w.broker.contents.laneAt n).IsClosed := by
    rw [Contents.laneAt_of_some (Broker.getElem?_lanes hl)]
    exact fun hclosed => hbegun (Chronicle.vacant_of_isClosed hclosed).2
  have hmatches := h.matchesPhase
  rcases List.eq_nil_or_concat w.runs with hruns | ⟨older, r, hruns⟩
  · rw [latest, standings, hruns] at hmatches
    exact absurd hmatches.2 hopen
  · have hlatest : w.latest = (r.phase, r.lane) := by
      rw [latest, standings, hruns, List.map_concat, List.concat_eq_append, List.getLast?_concat]
      rfl
    have hstate : w.state.lane = r.lane := by
      rw [state, states, hruns, List.map_concat, List.concat_eq_append, List.getLast?_concat]
      rfl
    rw [hlatest] at hmatches
    rw [hstate]
    unfold Contents.MatchesPhase at hmatches
    split at hmatches
    all_goals
      first
      | exact hmatches.2
      | exact absurd hmatches.2 hopen
      | exact (hmatches.2.resolve_left hopen).1

end Worker

namespace RunState.Steps

variable {p : Profile} {stop : Bool} {g g' : Core} {s s' : RunState}

/-- A message that is settled is tallied. -/
theorem tallies (h : s.Steps p stop g g' s') (hphase : ∀ e d t, s.phase ≠ .processing e d t)
    {judged : List (Delivery × Except String Unit)}
    (htallies : s.phase.Tallies p judged g.outcomes) :
    s'.phase.Tallies p judged g'.outcomes := by
  cases h with
  | finish h => exact absurd h (hphase _ _ _)
  | goOn h | giveUp h =>
    rw [h] at htallies
    obtain ⟨done, result, rfl, hfailure, houtcomes⟩ := htallies
    show g.outcomes ++ _ = _
    rw [houtcomes, List.map_append, ← hfailure]
    rfl
  | dropErrors => exact htallies
  | dropMessages h hl hreads hempties =>
    rw [hempties.rest]
    exact htallies
  | release h hl hempties =>
    rw [h] at htallies
    rw [hempties.rest]
    exact htallies
  | create h | consume h | stop h | error h | errorsEnded h | message h | messagesEnded h
  | close h =>
    rw [h] at htallies
    exact htallies

/-- The message that a run takes is the one that its processor has then. -/
theorem inProcess_eq (h : s.Steps p stop g g' s') (hphase : ∀ e d t, s.phase ≠ .processing e d t) :
    s.phase.inProcess = [] ∧
      s'.phase.inProcess =
        match s.phase, s'.phase with
        | .polling _, .processing _ d _ => [d]
        | _, _ => [] := by
  cases h with
  | finish h => exact absurd h (hphase _ _ _)
  | create h | consume h | stop h | error h | errorsEnded h | message h | messagesEnded h | goOn h
  | giveUp h | dropErrors h | dropMessages h | release h | close h => simp [h, Phase.inProcess]

end RunState.Steps

end Courier
