import Courier.Proofs.Worker.Orderly

/-!
# Messages are settled once and in order

A component is run again and again over one queue, each time after the run before has ended.
Publishers, signals, the clock and the forwarders do what they do at any time (`Worker.Event`). In
every state that can come about, the settlements are those of the first accepted messages, each once
and in order, and no message was handed to a processor twice. When no run is in progress, the
messages that were returned followed by those on the queue are all the others, in order
(`Chronicle.settled_in_order`).
-/

namespace Courier

namespace Worker

/-! ## What can happen -/

/-- Something that happens to a worker. -/
inductive Event where
  /-- A message is published. -/
  | publish (id : Option String) (payload : Json)
  /-- An error is published. -/
  | fail (text : String)
  /-- A publisher gives up on an envelope that waits for room. -/
  | giveUp (ticket : Nat)
  /-- A publisher is cloned. -/
  | clonePublisher
  /-- A publisher is dropped. -/
  | dropPublisher
  /-- The next requests for a consumer are made to fail. -/
  | failAttempts (count : Nat)
  /-- A consumer is told how long to wait for an envelope. -/
  | setTimeout (consumer : Nat) (limit : Span)
  /-- A run starts. -/
  | start (profile : Profile) (processor : Processor) (signal : Signal)
  /-- The signal of a run is set. -/
  | setSignal (n : Nat) (stop : Bool)
  /-- The signal of a run is left to itself. -/
  | abandonSignal (n : Nat)
  /-- A run takes a step; a look around is one step. -/
  | run (n : Nat)
  /-- A run that looks around looks at one source only. -/
  | glance (n : Nat)
  /-- A processor is done with its message, in whatever way it came to its result. -/
  | finish (n : Nat) (result : Except String Unit)
  /-- A run that is over with its streams lets go of the errors only. -/
  | dropErrors (n : Nat)
  /-- A run that is over with its streams lets go of the messages, and has not gone on yet. -/
  | dropMessages (n : Nat)
  /-- A forwarder has a turn. -/
  | forward (lane : Nat) (favourNew : Bool)
  /-- A forwarder goes on although it was asked to end meanwhile. -/
  | overrun (lane : Nat) (favourNew : Bool)
  /-- Time passes. -/
  | setClock (now : Nat)

/-- The processor of a run is done with its message. -/
def finishFor (w : Worker) (n : Nat) (result : Except String Unit) : Option Worker :=
  match w.runs[n]? with
  | none => none
  | some r =>
    match r.phase with
    | .processing .. => w.answer n r (.process result)
    | _ => none

/-- A run that is over with its streams does something about its lane. -/
def letGo (w : Worker) (n : Nat) (f : Broker → Nat → Broker) : Option Worker :=
  match w.runs[n]? with
  | none => none
  | some r =>
    match r.phase with
    | .releasing _ => some (w.onto (f w.broker r.lane))
    | _ => none

/-- The worker after an event, if it can happen. A run starts only when the runs before have
ended. -/
def apply (w : Worker) : Event → Option Worker
  | .publish id payload => some (w.onto (w.broker.publish id payload).1)
  | .fail text => some (w.onto (w.broker.fail text).1)
  | .giveUp ticket => some (w.onto (w.broker.giveUp ticket))
  | .clonePublisher => some (w.onto w.broker.clonePublisher)
  | .dropPublisher => some (w.onto w.broker.dropPublisher)
  | .failAttempts count => some (w.onto (w.broker.failAttempts count))
  | .setTimeout consumer limit => some (w.onto (w.broker.setTimeout consumer limit))
  | .start profile processor signal =>
    if w.isIdle then some (w.start profile processor signal) else none
  | .setSignal n stop => some (w.setSignal n stop)
  | .abandonSignal n => some (w.abandonSignal n)
  | .run n => w.stepRun n
  | .glance n => w.glance n
  | .finish n result => w.finishFor n result
  | .dropErrors n => w.letGo n Broker.dropErrors
  | .dropMessages n => w.letGo n Broker.dropMessages
  | .forward lane favourNew => some (w.onto (w.broker.advance lane favourNew).1)
  | .overrun lane favourNew => some (w.onto (w.broker.overrun lane favourNew))
  | .setClock now => some (w.onto (w.broker.setClock now))

/-- The messages that are accepted in an event that leads to `w'`: the one that is published, or the
one that a forwarder makes room for. -/
def accepts (w : Worker) (e : Event) (w' : Worker) : List Parcel :=
  match e with
  | .publish id payload => w.broker.published id payload
  | .forward .. | .overrun .. => w.broker.contents.admitted w'.broker.contents
  | _ => []

/-- The message that is handed to a processor in an event that leads to `w'`, if one is. -/
def hands (w : Worker) (e : Event) (w' : Worker) : List Delivery :=
  match e with
  | .run n | .glance n => w.handsOver n w'
  | _ => []

end Worker

/-- A worker, with the messages that its queue has accepted and its processors were given so far. -/
structure Chronicle where
  /-- The worker. -/
  worker : Worker
  /-- The messages that were accepted, in that order. -/
  accepted : List Parcel := []
  /-- The messages that were handed to processors, in that order. -/
  handed : List Delivery := []

namespace Chronicle

/-- The chronicle after an event, if it can happen. -/
def step (c : Chronicle) (e : Worker.Event) : Option Chronicle :=
  (c.worker.apply e).map fun w =>
    ⟨w, c.accepted ++ c.worker.accepts e w, c.handed ++ c.worker.hands e w⟩

/-- The chronicle after several events, if they can happen one after the other. -/
def run (c : Chronicle) (events : List Worker.Event) : Option Chronicle := events.foldlM step c

end Chronicle

/-! ## What events do -/

namespace Worker

variable {w w' : Worker} {n : Nat} {accepted : List Parcel} {handed : List Delivery}

theorem Orderly.finishFor (h : w.Orderly n accepted handed) {i : Nat} {result : Except String Unit}
    (hstep : w.finishFor i result = some w') : w'.Orderly n accepted handed := by
  unfold Worker.finishFor at hstep
  split at hstep
  · cases hstep
  next r hr =>
  split at hstep
  · next errorsOpen d since hphase =>
    obtain ⟨older, hlast, rfl, hmatches⟩ := h.isLast_of_active hr (by rw [hphase]; rfl)
    exact hlast.orderly_finish hphase h.lined hmatches hstep
  · cases hstep

/-- A run that is over with its streams may let go of them bit by bit. -/
theorem Orderly.letGo (h : w.Orderly n accepted handed) {i : Nat} {f : Broker → Nat → Broker}
    (hstep : w.letGo i f = some w')
    (hf : (f w.broker n).contents = w.broker.contents ∨
      (f w.broker n).contents = w.broker.contents.dropSlot n) :
    w'.Orderly n accepted handed := by
  unfold Worker.letGo at hstep
  split at hstep
  · cases hstep
  next r hr =>
  split at hstep
  · next result hphase =>
    obtain ⟨older, hlast, rfl, hmatches⟩ := h.isLast_of_active hr (by rw [hphase]; rfl)
    rw [hphase] at hmatches
    rw [hmatches.2] at hstep
    obtain rfl := Option.some.inj hstep
    have hlast' : (w.onto (f w.broker n)).IsLast older r := ⟨hlast.runs, hlast.ended⟩
    rcases hf with hcontents | hcontents
    · exact h.of_eq hcontents rfl
    · refine hlast'.orderly (hcontents ▸ h.lined.dropSlot) ?_
      show (f w.broker n).contents.MatchesPhase n r.lane r.phase
      rw [hcontents, hphase]
      exact ⟨(Contents.held_dropSlot _ n).trans hmatches.1, hmatches.2⟩
  · cases hstep

/-- A run that starts after all others have ended finds nothing in use. -/
theorem Orderly.start (h : w.Orderly n accepted handed) (hidle : w.isIdle) (profile : Profile)
    (processor : Processor) (signal : Signal) :
    (w.start profile processor signal).Orderly n accepted handed := by
  have hcontents : (w.start profile processor signal).broker.contents = w.broker.contents :=
    Broker.contents_wake _ _
  have hlast : (w.start profile processor signal).IsLast w.runs
      { profile, processor, signal, phase := (Phase.start profile).phase,
        marks := (Phase.start profile).marks } :=
    ⟨rfl, fun q hq => List.all_eq_true.mp hidle q hq⟩
  refine hlast.orderly (hcontents ▸ h.lined) ?_
  rw [hcontents]
  exact h.matchesPhase_of_isIdle hidle

/-- What is sent touches neither the lanes nor what readers have. -/
theorem Orderly.of_lined (h : w.Orderly n accepted handed) {b : Broker} {accepted' : List Parcel}
    (hlined : b.contents.Lined n accepted' handed)
    (hheld : b.contents.held = w.broker.contents.held)
    (hlanes : b.contents.lanes = w.broker.contents.lanes) :
    (w.onto b).Orderly n accepted' handed := by
  have hlaneAt : b.contents.laneAt n = w.broker.contents.laneAt n := by
    rw [Contents.laneAt, hlanes, Contents.laneAt]
  have hmatches :=
    h.matchesPhase.of_contents hheld (fun hclosed => hlaneAt ▸ hclosed)
      (congrArg LaneContents.reads hlaneAt)
  exact ⟨hlined, hmatches, h.older⟩

/-- Every event leaves the worker orderly. -/
theorem Orderly.apply (h : w.Orderly n accepted handed) {e : Event} (hstep : w.apply e = some w') :
    ∃ n, w'.Orderly n (accepted ++ w.accepts e w') (handed ++ w.hands e w') := by
  have hkeep {w' : Worker} (h' : w'.Orderly n accepted handed) :
      ∃ n, w'.Orderly n (accepted ++ []) (handed ++ []) := by
    rw [List.append_nil, List.append_nil]
    exact ⟨n, h'⟩
  cases e with
  | publish id payload =>
    obtain rfl := Option.some.inj hstep
    show ∃ m, (w.onto _).Orderly m _ (handed ++ [])
    rw [List.append_nil]
    refine ⟨n, h.of_lined (Broker.lined_publish h.lined id payload) ?_ ?_⟩
    · rw [Broker.contents_publish, Contents.held_afterSend]
    · rw [Broker.contents_publish, Contents.lanes_afterSend]
  | fail text =>
    obtain rfl := Option.some.inj hstep
    refine hkeep (h.of_lined (Broker.lined_fail h.lined text) ?_ ?_)
    · rw [Broker.fail, Broker.contents_send, Contents.held_afterSend]
    · rw [Broker.fail, Broker.contents_send, Contents.lanes_afterSend]
  | giveUp ticket =>
    obtain rfl := Option.some.inj hstep
    exact hkeep ⟨Broker.lined_giveUp h.lined ticket, h.matchesPhase, h.older⟩
  | clonePublisher =>
    obtain rfl := Option.some.inj hstep
    exact hkeep (h.of_eq (Broker.contents_clonePublisher _) rfl)
  | dropPublisher =>
    obtain rfl := Option.some.inj hstep
    exact hkeep (h.of_eq (Broker.contents_dropPublisher _) rfl)
  | failAttempts count =>
    obtain rfl := Option.some.inj hstep
    exact hkeep (h.of_eq rfl rfl)
  | setTimeout consumer limit =>
    obtain rfl := Option.some.inj hstep
    exact hkeep (h.of_eq rfl rfl)
  | start profile processor signal =>
    simp only [Worker.apply] at hstep
    split at hstep
    · next hidle =>
      obtain rfl := Option.some.inj hstep
      exact hkeep (h.start hidle profile processor signal)
    · cases hstep
  | setSignal i stop =>
    obtain rfl := Option.some.inj hstep
    exact hkeep (h.of_eq (Broker.contents_wake _ _) (standings_setSignal w i stop))
  | abandonSignal i =>
    obtain rfl := Option.some.inj hstep
    exact hkeep (h.of_eq (Broker.contents_wake _ _) (standings_abandonSignal w i))
  | run i =>
    show ∃ n, w'.Orderly n (accepted ++ []) (handed ++ w.handsOver i w')
    rw [List.append_nil]
    exact h.stepRun hstep
  | glance i =>
    show ∃ n, w'.Orderly n (accepted ++ []) (handed ++ w.handsOver i w')
    rw [List.append_nil]
    exact ⟨n, h.glance hstep⟩
  | finish i result => exact hkeep (h.finishFor hstep)
  | dropErrors i => exact hkeep (h.letGo hstep (.inl (Broker.contents_dropErrors _ n)))
  | dropMessages i => exact hkeep (h.letGo hstep (.inr (Broker.contents_dropMessages _ n)))
  | forward lane favourNew =>
    obtain rfl := Option.some.inj hstep
    show ∃ m, (w.onto _).Orderly m _ (handed ++ [])
    rw [List.append_nil]
    exact ⟨n, h.forwards (Broker.forwards_advance w.broker lane favourNew)⟩
  | overrun lane favourNew =>
    obtain rfl := Option.some.inj hstep
    show ∃ m, (w.onto _).Orderly m _ (handed ++ [])
    rw [List.append_nil]
    exact ⟨n, h.forwards (Broker.forwards_overrun w.broker lane favourNew)⟩
  | setClock now =>
    obtain rfl := Option.some.inj hstep
    exact hkeep (h.of_eq (Broker.contents_setClock _ now) rfl)

/-- A worker that nothing has happened to yet is orderly. -/
theorem orderly_ofCapacity? {capacity : Nat} {b : Broker}
    (h : Broker.ofCapacity? capacity = some b) : ({ broker := b } : Worker).Orderly 0 [] [] := by
  obtain rfl := Broker.eq_of_ofCapacity? h
  constructor
  case lined =>
    constructor
    case numbered => constructor <;> simp [Contents.waiting, Broker.contents]
    case inOrder => exact .nil
    case tally => rfl
    case alone => simp [Broker.contents]
    case fits => exact LaneContents.fits_of_isClosed LaneContents.isClosed_closed _
  case matchesPhase => exact ⟨rfl, LaneContents.isClosed_closed⟩
  case older => simp [standings]

end Worker

/-! ## What was settled, and what remains -/

namespace Chronicle

/-- Messages were settled once and in order, and what is left of them when all runs have ended is in
line for the next one. -/
structure Settled (c : Chronicle) : Prop where
  /-- Messages were accepted in the order of their numbers. -/
  numbered : c.accepted.Pairwise fun p q => p.seq < q.seq
  /-- The settlements are those of the messages that were accepted first, in order. -/
  outcomes : List.Forall₂ (fun p o => p.HasLabel o.label)
    (c.accepted.take c.worker.broker.outcomes.length) c.worker.broker.outcomes
  /-- No message was settled twice. -/
  settledOnce : (c.worker.broker.outcomes.map Outcome.seq).Nodup
  /-- Processors were given the messages that were accepted first, in order. -/
  handed : List.Forall₂ (fun p d => p.Becomes d.toParcel) (c.accepted.take c.handed.length) c.handed
  /-- No message was handed to a processor twice. -/
  handedOnce : (c.handed.map Delivery.seq).Nodup
  /-- When no run is in progress, the returned messages and those on the queue are all the others,
  in order. -/
  remaining : c.worker.isIdle → List.Forall₂ Parcel.Becomes
    (c.accepted.drop c.worker.broker.outcomes.length)
    (c.worker.broker.returned ++ c.worker.broker.incoming.filterMap Envelope.parcel?)
  /-- When no run is in progress, no reader has a message, no slot holds one, and no forwarder is
  left. -/
  vacant : c.worker.isIdle → c.worker.broker.held = [] ∧
    ∀ l ∈ c.worker.broker.lanes, l.slot = none ∧ l.forwarder = .ended

variable {c c' : Chronicle} {n : Nat}

/-- A lane that is closed has neither a message nor a forwarder. -/
theorem vacant_of_isClosed {l : Lane} (h : l.contents.IsClosed) :
    l.slot = none ∧ l.forwarder = .ended := by
  refine ⟨h.2, ?_⟩
  have hhandState : l.forwarder.handState = .ended := h.1
  cases hforwarder : l.forwarder with
  | ended => rfl
  | _ =>
    rw [hforwarder] at hhandState
    cases hhandState

theorem settled_of_orderly (h : c.worker.Orderly n c.accepted c.handed) : c.Settled := by
  constructor
  case numbered => exact (List.pairwise_append.mp h.lined.numbered.sorted).1
  case outcomes => exact h.lined.outcomes_hasLabel
  case settledOnce => exact h.lined.nodup_outcomes
  case handed => exact h.lined.handed_becomes
  case handedOnce => exact h.lined.nodup_handed
  case remaining =>
    intro hidle
    obtain ⟨hheld, hclosed⟩ := h.matchesPhase_of_isIdle hidle
    have hlength : c.handed.length = c.worker.broker.contents.outcomes.length := by
      rw [h.lined.length_handed, hheld, List.length_nil, Nat.add_zero]
    have hlineup : c.worker.broker.contents.lineup n =
        c.worker.broker.returned ++ c.worker.broker.incoming.filterMap Envelope.parcel? :=
      LaneContents.line_of_isClosed hclosed _ _
    have hline := h.lined.lineup_becomes
    rw [hlineup, hlength] at hline
    exact hline
  case vacant =>
    intro hidle
    obtain ⟨hheld, hclosed⟩ := h.matchesPhase_of_isIdle hidle
    refine ⟨hheld, fun l hl => vacant_of_isClosed ?_⟩
    obtain ⟨i, hi⟩ := List.mem_iff_getElem?.mp hl
    have hlaneAt := Broker.getElem?_lanes hi
    by_cases hlane : i = n
    · rw [hlane] at hlaneAt
      rwa [Contents.laneAt_of_some hlaneAt] at hclosed
    · exact h.lined.alone i l.contents hlaneAt hlane

/-- A run of events leaves the worker orderly, with one lane or another in use. -/
theorem orderly_run {events : List Worker.Event} (h : c.worker.Orderly n c.accepted c.handed)
    (hrun : c.run events = some c') : ∃ n, c'.worker.Orderly n c'.accepted c'.handed := by
  refine foldlM_induction (motive := fun c => ∃ n, c.worker.Orderly n c.accepted c.handed) hrun ⟨n,
    h⟩ fun e _ c₁ c₂ ⟨m, horderly⟩ hstep => ?_
  obtain ⟨w, happly, rfl⟩ := Option.map_eq_some_iff.mp hstep
  exact horderly.apply happly

/-- Whatever happens to a component that is run again and again over one queue, its messages are
settled once and in order, and none is lost between two runs. -/
theorem settled_in_order {capacity : Nat} {b : Broker} {events : List Worker.Event} {c : Chronicle}
    (hopen : Broker.ofCapacity? capacity = some b)
    (hrun : ({ worker := { broker := b } } : Chronicle).run events = some c) : c.Settled := by
  obtain ⟨n, h⟩ := orderly_run (Worker.orderly_ofCapacity? hopen) hrun
  exact settled_of_orderly h

/-- Two messages for a queue with room for one: the first one is settled, and a run that is asked to
stop while the second one waits in the slot leaves it with the returned ones. -/
theorem settled_before_stop :
    let events : List Worker.Event :=
      [.publish (some "a") .null, .publish none .null,
        .start ⟨"c", "p", .nackExit, 0, .zero⟩ (.accepting "p") (.ofBool false), .run 0, .run 0,
        .forward 0 false, .forward 0 false, .forward 0 false, .forward 0 false, .forward 0 false,
        .run 0, .finish 0 (.ok ()), .run 0, .forward 0 false, .forward 0 false, .forward 0 false,
        .forward 0 false, .setSignal 0 true, .run 0, .run 0, .forward 0 false, .run 0]
    ∃ b, Broker.ofCapacity? 1 = some b ∧ ∃ c,
      ({ worker := { broker := b } } : Chronicle).run events = some c ∧ c.Settled ∧
        c.worker.isIdle ∧ c.accepted.map Parcel.seq = [0, 1] ∧
        c.worker.broker.outcomes.map Outcome.seq = [0] ∧
        c.worker.broker.returned.map Parcel.seq = [1] := by
  intro events
  exact ⟨_, rfl, _, rfl, @settled_in_order 1 _ events _ rfl rfl, rfl, rfl, rfl, rfl⟩

end Chronicle

end Courier
