import Courier.Proofs.Broker.LaneEvents
import Courier.Proofs.Worker.RunSteps
import Courier.Proofs.Worker.Ownership

/-!
# What runs do about the transport

To the transport, whatever happens to a worker is a few events of its own (`Worker.brokerEvents`): a
run that receives a message takes it out of the slot, and one that is over with its streams stops
taking errors, stops taking messages and begins to close its consumer. What else happens to a worker
does not concern the core (`Worker.core_of_occur`), so what is shown of all events of a transport
holds for the transport of a worker.

Runs may overlap, but each of them has its lane to itself: what others do leaves it alone
(`Worker.leavesAlone_brokerEvents`), and such a lane gets a sign at most
(`Broker.sameUpToSign_of_leavesAlone`).
-/

namespace Courier

/-! ## Events of the transport -/

namespace Broker

/-- Whether neither the forwarder nor the reader of a lane does anything in several events. -/
def LeavesAlone (n : Nat) : List Event → Broker → Prop
  | [], _ => True
  | e :: events, b => e.turnOf ≠ some n ∧ e.readerOf b ≠ some n ∧ LeavesAlone n events (b.apply e)

variable {b b' : Broker} {n : Nat} {l : Lane} {events : List Event}

theorem signsKept_foldl (h : b.queueState.SignsKept) (events : List Event) :
    (events.foldl apply b).queueState.SignsKept :=
  List.foldlRecOn (motive := fun b => b.queueState.SignsKept) events apply h fun _ h e _ =>
    signsKept_apply h e

/-- A lane that is left alone gets a sign at most. -/
theorem sameUpToSign_of_leavesAlone (hsigns : b.queueState.SignsKept) (hl : b.lanes[n]? = some l)
    (h : LeavesAlone n events b) :
    ∃ l', (events.foldl apply b).lanes[n]? = some l' ∧ l.SameUpToSign l' := by
  induction events generalizing b l with
  | nil => exact ⟨l, hl, .refl l⟩
  | cons e events ih =>
    obtain ⟨hturn, hreader, hrest⟩ := h
    have hhappens := happens_apply hsigns e
    obtain ⟨l₁, hl₁⟩ := hhappens.kept hl
    rcases hhappens.lane hl hl₁ with ⟨-, hupToSign⟩ | ⟨hturn', -⟩
    · obtain ⟨l', hl', hupToSign'⟩ := ih (signsKept_apply hsigns e) hl₁ hrest
      exact ⟨l', hl', (hupToSign hreader).trans hupToSign'⟩
    · exact absurd hturn' hturn

theorem queueState_of_core (h : b'.core = b.core) : b'.queueState = b.queueState := by
  have hreturned : b'.returned = b.returned := congrArg Core.returned h
  have hpermit : b'.permit = b.permit := congrArg Core.permit h
  have hline : b'.line = b.line := congrArg Core.line h
  have hlanes : b'.lanes = b.lanes := congrArg Core.lanes h
  rw [queueState, hreturned, hpermit, hline, hlanes, queueState]

/-- Whether a transport is another one after something was logged and tasks were woken. -/
def LogsAndWakes (b b' : Broker) : Prop :=
  ∃ notices ready, b.ready <+: ready ∧ b' = { b with notices, ready }

namespace LogsAndWakes

theorem refl (b : Broker) : b.LogsAndWakes b := ⟨b.notices, b.ready, List.prefix_refl _, rfl⟩

theorem trans {b₁ : Broker} (h₁ : b.LogsAndWakes b₁) (h₂ : b₁.LogsAndWakes b') :
    b.LogsAndWakes b' := by
  obtain ⟨_, ready, hready, rfl⟩ := h₁
  obtain ⟨notices, ready', hready', rfl⟩ := h₂
  exact ⟨notices, ready', hready.trans hready', rfl⟩

theorem log (b : Broker) (notices : List Notice) : b.LogsAndWakes { b with notices } :=
  ⟨notices, b.ready, List.prefix_refl _, rfl⟩

theorem wake (b : Broker) (t : Task) : b.LogsAndWakes (b.wake t) := by
  unfold Broker.wake
  split
  · exact .refl b
  · exact ⟨b.notices, b.ready ++ [t], List.prefix_append _ _, rfl⟩

theorem core (h : b.LogsAndWakes b') : b'.core = b.core := by
  obtain ⟨_, _, -, rfl⟩ := h
  rfl

end LogsAndWakes

/-- The lane of a consumer is what the register says. -/
theorem lane_of_consumerLane {consumer lane : Nat}
    (h : b.register.consumerLanes[consumer]? = some (some lane)) :
    (b.consumers[consumer]?).bind Consumer.lane = some lane := by
  have hconsumerLane :
      b.register.consumerLanes[consumer]? = (b.consumers[consumer]?).map Consumer.lane :=
    List.getElem?_map ..
  rw [hconsumerLane] at h
  obtain ⟨c, hc, hlane⟩ := Option.map_eq_some_iff.mp h
  rw [hc, Option.bind_some, hlane]

end Broker

/-! ## Events of a worker -/

namespace Worker

/-- The run that something is done by, or whose processor is done with its message. -/
def Event.actor : Event → Option Nat
  | .run n | .glance n | .finish n _ | .dropErrors n | .dropMessages n => some n
  | _ => none

/-- What a run does about the transport as it acts on what it sees. -/
def brokerEventsOn (r : WorkerRun) (errorsOpen : Bool) (v : View Delivery) : List Broker.Event :=
  match v.pick errorsOpen with
  | some (.error _) => [.receiveError r.lane]
  | some (.message _) => [.receive r.lane]
  | _ => []

/-- What a run does about the transport in its next step. -/
def brokerEventsOf (w : Worker) (n : Nat) (r : WorkerRun) : List Broker.Event :=
  match r.phase with
  | .creating _ => [.create]
  | .consuming => [.consume r.consumer n]
  | .polling errorsOpen => brokerEventsOn r errorsOpen (w.view r)
  | .settling _ d failure =>
    [.settle d.seq (r.profile.dispositionAfter failure), .dropMessage d.seq]
  | .releasing _ => [.dropErrors r.lane, .dropMessages r.lane, .abort r.consumer]
  | .closing _ => [.close, .dropConsumer r.consumer]
  | .retrying .. | .processing .. | .stopped _ => []

/-- What a run does about the transport in its next glance. -/
def brokerEventsAt (w : Worker) (r : WorkerRun) : List Broker.Event :=
  match r.phase with
  | .polling errorsOpen => brokerEventsOn r errorsOpen (w.viewOf r r.upNext)
  | _ => []

/-- What happens to the transport in an event. -/
def brokerEvents (w : Worker) : Event → List Broker.Event
  | .publish id payload => [.publish id payload]
  | .fail text => [.fail text]
  | .giveUp ticket => [.giveUp ticket]
  | .clonePublisher => [.clonePublisher]
  | .dropPublisher => [.dropPublisher]
  | .failAttempts count => [.failAttempts count]
  | .setTimeout consumer limit => [.setTimeout consumer limit]
  | .run n => (w.runs[n]?).elim [] (w.brokerEventsOf n)
  | .glance n => (w.runs[n]?).elim [] w.brokerEventsAt
  | .dropErrors n => (w.runs[n]?).elim [] fun r => [.dropErrors r.lane]
  | .dropMessages n => (w.runs[n]?).elim [] fun r => [.dropMessages r.lane]
  | .forward lane favourNew => [.forward lane favourNew]
  | .overrun lane favourNew => [.overrun lane favourNew]
  | .setClock now => [.setClock now]
  | .start .. | .setSignal .. | .abandonSignal _ | .finish .. => []

variable {w w' : Worker} {n : Nat} {r : WorkerRun} {e : Event} {l : Lane}

/-! ### The log and the woken -/

/-- An answer that a run gets is logged at most. -/
theorem logsAndWakes_answer {b : Broker} {a : Answer Delivery}
    (h : (w.onto b).answer n r a = some w') :
    b.LogsAndWakes w'.broker := by
  obtain ⟨turn, -, rfl⟩ := Option.map_eq_some_iff.mp h
  exact .log b _

theorem logsAndWakes_setSignal (w : Worker) (i : Nat) (stop : Bool) :
    w.broker.LogsAndWakes (w.setSignal i stop).broker := .wake _ _

theorem logsAndWakes_abandonSignal (w : Worker) (i : Nat) :
    w.broker.LogsAndWakes (w.abandonSignal i).broker := .wake _ _

/-- What a processor does beside its message does not concern the transport. -/
theorem logsAndWakes_perform (w : Worker) (deed : Deed) :
    w.broker.LogsAndWakes (w.perform deed).broker := by
  cases deed with
  | log notice => exact .log w.broker _
  | setSignal stop =>
    unfold perform
    cases w.reach with
    | none => exact .refl _
    | some i => exact logsAndWakes_setSignal w i stop
  | abandonSignal =>
    unfold perform
    cases w.reach with
    | none => exact .refl _
    | some i => exact logsAndWakes_abandonSignal w i
  | _ => exact .refl _

theorem logsAndWakes_processFor {d : Delivery} (h : w.processFor n r d = some w') :
    w.broker.LogsAndWakes w'.broker := by
  unfold processFor at h
  split at h
  · exact logsAndWakes_answer (b := w.broker) h
  · cases h
  · obtain rfl := Option.some.inj h
    exact .refl _
  · obtain rfl := Option.some.inj h
    exact logsAndWakes_perform (w.modifyRun n _) _

theorem logsAndWakes_closeFor (h : w.closeFor n r = some w') :
    (w.broker.close.dropConsumer r.consumer).LogsAndWakes w'.broker := by
  unfold closeFor at h
  split at h
  · obtain ⟨w₁, hanswer, rfl⟩ := Option.map_eq_some_iff.mp h
    obtain ⟨notices, ready, hready, hbroker⟩ := logsAndWakes_answer hanswer
    refine ⟨notices, ready, hready, ?_⟩
    show w₁.broker.dropConsumer r.consumer = _
    rw [hbroker]
    rfl
  · cases h

theorem logsAndWakes_actOn {errorsOpen : Bool} {v : View Delivery}
    (h : w.actOn n r errorsOpen v = some w') :
    ((brokerEventsOn r errorsOpen v).foldl Broker.apply w.broker).LogsAndWakes w'.broker := by
  unfold actOn at h
  split at h
  · cases h
  · next choice hpick =>
    simp only [brokerEventsOn, hpick]
    have hlogs := logsAndWakes_answer h
    cases choice <;> exact hlogs

/-- A step of a run is what it does about the transport; beyond that it logs and wakes. -/
theorem logsAndWakes_stepRun (hr : w.runs[n]? = some r) (h : w.stepRun n = some w') :
    ((w.brokerEventsOf n r).foldl Broker.apply w.broker).LogsAndWakes w'.broker := by
  unfold stepRun at h
  rw [hr] at h
  cases hphase : r.phase with
  | creating attempt =>
    simp only [hphase, createFor] at h
    simp only [brokerEventsOf, hphase]
    show w.broker.create.1.LogsAndWakes _
    split at h
    · next b consumer heq => exact heq ▸ logsAndWakes_answer h
    · next b error heq => exact heq ▸ logsAndWakes_answer h
  | retrying attempt deadline =>
    simp only [hphase] at h
    simp only [brokerEventsOf, hphase]
    split at h
    · exact logsAndWakes_answer (b := w.broker) h
    · cases h
  | consuming =>
    simp only [hphase, consumeFor] at h
    simp only [brokerEventsOf, hphase]
    show (w.broker.consume r.consumer n).1.LogsAndWakes _
    split at h
    · next b lane heq => exact heq ▸ logsAndWakes_answer h
    · next b error heq => exact heq ▸ logsAndWakes_answer h
  | polling errorsOpen =>
    simp only [hphase] at h
    simp only [brokerEventsOf, hphase]
    exact logsAndWakes_actOn h
  | processing errorsOpen d since =>
    simp only [hphase] at h
    simp only [brokerEventsOf, hphase]
    exact logsAndWakes_processFor h
  | settling errorsOpen d failure =>
    simp only [hphase] at h
    simp only [brokerEventsOf, hphase]
    exact logsAndWakes_answer h
  | releasing result =>
    simp only [hphase] at h
    simp only [brokerEventsOf, hphase]
    exact logsAndWakes_answer h
  | closing result =>
    simp only [hphase] at h
    simp only [brokerEventsOf, hphase]
    exact logsAndWakes_closeFor h
  | stopped result =>
    simp only [hphase] at h
    cases h

/-- So is a glance. -/
theorem logsAndWakes_glance (h : w.glance n = some w') :
    ((w.brokerEvents (.glance n)).foldl Broker.apply w.broker).LogsAndWakes w'.broker := by
  obtain ⟨r, errorsOpen, hr, hphase, hact | ⟨hnone, rfl⟩⟩ := glance_eq_some h
  · simp only [brokerEvents, hr, Option.elim_some, brokerEventsAt, hphase]
    exact logsAndWakes_actOn hact
  · simp only [brokerEvents, hr, Option.elim_some, brokerEventsAt, hphase, brokerEventsOn, hnone]
    exact .refl _

theorem letGo_eq_some {f : Broker → Nat → Broker} (h : w.letGo n f = some w') :
    ∃ r result, w.runs[n]? = some r ∧ r.phase = .releasing result ∧
      w' = w.onto (f w.broker r.lane) := by
  unfold letGo at h
  split at h
  · cases h
  next r hr =>
  split at h
  · next result hphase => exact ⟨r, result, hr, hphase, (Option.some.inj h).symm⟩
  · cases h

theorem finishFor_eq_some {result : Except String Unit} (h : w.finishFor n result = some w') :
    ∃ r errorsOpen d since, w.runs[n]? = some r ∧ r.phase = .processing errorsOpen d since ∧
      w.answer n r (.process result) = some w' := by
  unfold finishFor at h
  split at h
  · cases h
  next r hr =>
  split at h
  · next errorsOpen d since hphase => exact ⟨r, errorsOpen, d, since, hr, hphase, h⟩
  · cases h

/-- What happens to a worker is what happens to its transport; beyond that it is logged, and tasks
are woken. -/
theorem logsAndWakes_of_occur (h : w.occur e = some w') :
    ((w.brokerEvents e).foldl Broker.apply w.broker).LogsAndWakes w'.broker := by
  cases e with
  | run n =>
    cases hr : w.runs[n]? with
    | none =>
      simp only [occur, apply, stepRun, hr] at h
      cases h
    | some r =>
      rw [brokerEvents, hr]
      exact logsAndWakes_stepRun hr h
  | glance n => exact logsAndWakes_glance h
  | start profile processor signal =>
    obtain rfl := Option.some.inj h
    exact (Broker.LogsAndWakes.log w.broker _).trans (.wake _ _)
  | setSignal i stop =>
    obtain rfl := Option.some.inj h
    exact logsAndWakes_setSignal w i stop
  | abandonSignal i =>
    obtain rfl := Option.some.inj h
    exact logsAndWakes_abandonSignal w i
  | finish i result =>
    obtain ⟨r, -, -, -, -, -, hanswer⟩ := finishFor_eq_some h
    exact logsAndWakes_answer (b := w.broker) hanswer
  | dropErrors i =>
    obtain ⟨r, result, hr, -, rfl⟩ := letGo_eq_some h
    rw [brokerEvents, hr]
    exact .refl _
  | dropMessages i =>
    obtain ⟨r, result, hr, -, rfl⟩ := letGo_eq_some h
    rw [brokerEvents, hr]
    exact .refl _
  | publish | fail | giveUp | clonePublisher | dropPublisher | failAttempts | setTimeout
  | forward | overrun |
    setClock =>
    obtain rfl := Option.some.inj h
    exact .refl _

/-- What happens to a worker does about the core what it does about the transport. -/
theorem core_of_occur (h : w.occur e = some w') :
    w'.broker.core = ((w.brokerEvents e).foldl Broker.apply w.broker).core :=
  (logsAndWakes_of_occur h).core

theorem signsKept_of_occur (hsigns : w.broker.queueState.SignsKept) (h : w.occur e = some w') :
    w'.broker.queueState.SignsKept := by
  rw [Broker.queueState_of_core (core_of_occur h)]
  exact Broker.signsKept_foldl hsigns _

/-! ### What others do -/

/-- No other run has the lane of a run. -/
theorem lane_ne (howned : Ownership w.broker.register w.profiledRuns) {i : Nat} {q : WorkerRun}
    (hr : w.runs[n]? = some r) (hhasLane : r.phase.HasLane) (hq : w.runs[i]? = some q)
    (hhasLane' : q.phase.HasLane) (hi : i ≠ n) : q.lane ≠ r.lane := by
  intro hlane
  obtain ⟨-, limit, hreader⟩ := howned.hasLane n r.profiled (getElem?_profiledRuns hr) hhasLane
  obtain ⟨-, limit', hreader'⟩ := howned.hasLane i q.profiled (getElem?_profiledRuns hq) hhasLane'
  have hsame : q.profiled.state.lane = r.profiled.state.lane := hlane
  rw [hsame, hreader] at hreader'
  exact hi (congrArg Prod.fst (Option.some.inj hreader')).symm

/-- A run that has let go of its streams still has its lane, until it begins to close its
consumer. -/
theorem lane_of_hasLane (howned : Ownership w.broker.register w.profiledRuns)
    (hr : w.runs[n]? = some r) (hhasLane : r.phase.HasLane) :
    ((((w.broker.dropErrors r.lane).dropMessages r.lane).consumers[r.consumer]?).bind
      Consumer.lane) = some r.lane := by
  obtain ⟨hconsumerLane, -⟩ := howned.hasLane n r.profiled (getElem?_profiledRuns hr) hhasLane
  have hregister :
      ((w.broker.dropErrors r.lane).dropMessages r.lane).register = w.broker.register := by
    rw [(Broker.KeepsRegister.dropMessages ..).register,
      (Broker.KeepsRegister.dropErrors ..).register]
  rw [← hregister] at hconsumerLane
  exact Broker.lane_of_consumerLane hconsumerLane

theorem leavesAlone_brokerEventsOn {lane : Nat} (hlane : some r.lane ≠ some lane)
    (errorsOpen : Bool) (v : View Delivery) :
    Broker.LeavesAlone lane (brokerEventsOn r errorsOpen v) w.broker := by
  have hnone : (none : Option Nat) ≠ some lane := fun heq => by cases heq
  unfold brokerEventsOn
  split
  · exact ⟨hnone, hlane, trivial⟩
  · exact ⟨hnone, hlane, trivial⟩
  · trivial

/-- What another run does leaves the lane of a run alone. -/
theorem leavesAlone_brokerEventsOf (howned : Ownership w.broker.register w.profiledRuns)
    (hr : w.runs[n]? = some r) (hhasLane : r.phase.HasLane) {i : Nat} {q : WorkerRun}
    (hq : w.runs[i]? = some q) (hi : i ≠ n) :
    Broker.LeavesAlone r.lane (w.brokerEventsOf i q) w.broker := by
  have hother (hhasLane' : q.phase.HasLane) : some q.lane ≠ some r.lane := fun heq =>
    lane_ne howned hr hhasLane hq hhasLane' hi (Option.some.inj heq)
  have hnone : (none : Option Nat) ≠ some r.lane := fun heq => by cases heq
  cases hphase : q.phase with
  | polling errorsOpen =>
    simp only [brokerEventsOf, hphase]
    exact leavesAlone_brokerEventsOn (hother (by rw [hphase]; trivial)) _ _
  | releasing result =>
    have hhasLane' : q.phase.HasLane := by
      rw [hphase]
      trivial
    have hlane := lane_of_hasLane howned hq hhasLane'
    simp only [brokerEventsOf, hphase]
    exact ⟨hnone, hother hhasLane', hnone, hother hhasLane', hnone,
      fun heq => hother hhasLane' (hlane.symm.trans heq), trivial⟩
  | settling =>
    simp only [brokerEventsOf, hphase]
    exact ⟨hnone, hnone, hnone, hnone, trivial⟩
  | closing =>
    simp only [brokerEventsOf, hphase]
    exact ⟨hnone, hnone, hnone, hnone, trivial⟩
  | creating | consuming =>
    simp only [brokerEventsOf, hphase]
    exact ⟨hnone, hnone, trivial⟩
  | retrying | processing | stopped =>
    simp only [brokerEventsOf, hphase]
    trivial

/-- Whatever happens that is neither of a run nor of its forwarder leaves its lane alone. -/
theorem leavesAlone_brokerEvents (howned : Ownership w.broker.register w.profiledRuns)
    (hr : w.runs[n]? = some r) (hhasLane : r.phase.HasLane) (h : w.occur e = some w')
    (hactor : e.actor ≠ some n)
    (hforward : ∀ favourNew, e ≠ .forward r.lane favourNew ∧ e ≠ .overrun r.lane favourNew) :
    Broker.LeavesAlone r.lane (w.brokerEvents e) w.broker := by
  have hnone : (none : Option Nat) ≠ some r.lane := fun heq => by cases heq
  cases e with
  | run i =>
    have hi : i ≠ n := fun heq => hactor (congrArg some heq)
    cases hq : w.runs[i]? with
    | none =>
      rw [brokerEvents, hq]
      trivial
    | some q =>
      rw [brokerEvents, hq]
      exact leavesAlone_brokerEventsOf howned hr hhasLane hq hi
  | glance i =>
    have hi : i ≠ n := fun heq => hactor (congrArg some heq)
    obtain ⟨q, errorsOpen, hq, hphase, -⟩ := glance_eq_some h
    have hlane := lane_ne howned hr hhasLane hq (by rw [hphase]; trivial) hi
    simp only [brokerEvents, hq, Option.elim_some, brokerEventsAt, hphase]
    exact leavesAlone_brokerEventsOn (fun heq => hlane (Option.some.inj heq)) _ _
  | dropErrors i =>
    obtain ⟨q, result, hq, hphase, -⟩ := letGo_eq_some h
    have hi : i ≠ n := fun heq => hactor (congrArg some heq)
    have hlane := lane_ne howned hr hhasLane hq (by rw [hphase]; trivial) hi
    rw [brokerEvents, hq]
    exact ⟨hnone, fun heq => hlane (Option.some.inj heq), trivial⟩
  | dropMessages i =>
    obtain ⟨q, result, hq, hphase, -⟩ := letGo_eq_some h
    have hi : i ≠ n := fun heq => hactor (congrArg some heq)
    have hlane := lane_ne howned hr hhasLane hq (by rw [hphase]; trivial) hi
    rw [brokerEvents, hq]
    exact ⟨hnone, fun heq => hlane (Option.some.inj heq), trivial⟩
  | forward lane favourNew =>
    refine ⟨fun heq => (hforward favourNew).1 ?_, hnone, trivial⟩
    rw [Option.some.inj heq]
  | overrun lane favourNew =>
    refine ⟨fun heq => (hforward favourNew).2 ?_, hnone, trivial⟩
    rw [Option.some.inj heq]
  | start | setSignal | abandonSignal | finish => trivial
  | publish | fail | giveUp | clonePublisher | dropPublisher | failAttempts | setTimeout
  | setClock =>
    exact ⟨hnone, hnone, trivial⟩

/-- What happens to the lane of a run, unless the run does it: it gets a sign, or its forwarder
takes a step. -/
theorem lane_of_other (hsigns : w.broker.queueState.SignsKept)
    (howned : Ownership w.broker.register w.profiledRuns) (hr : w.runs[n]? = some r)
    (hhasLane : r.phase.HasLane) (hl : w.broker.lanes[r.lane]? = some l) (h : w.occur e = some w')
    (hactor : e.actor ≠ some n) :
    ∃ l', w'.broker.lanes[r.lane]? = some l' ∧
      (l.SameUpToSign l' ∨
        w.broker.Advances r.lane l l' w'.broker.line w'.broker.incoming w'.broker.returned) := by
  by_cases hforward : ∃ favourNew, e = .forward r.lane favourNew ∨ e = .overrun r.lane favourNew
  · obtain ⟨e', hreader, rfl⟩ :
        ∃ e' : Broker.Event, e'.readerOf w.broker = none ∧ w' = w.onto (w.broker.apply e') := by
      obtain ⟨favourNew, rfl | rfl⟩ := hforward
      · exact ⟨.forward r.lane favourNew, rfl, (Option.some.inj h).symm⟩
      · exact ⟨.overrun r.lane favourNew, rfl, (Option.some.inj h).symm⟩
    have hhappens := Broker.happens_apply hsigns e'
    obtain ⟨l', hl'⟩ := hhappens.kept hl
    refine ⟨l', hl', ?_⟩
    rcases hhappens.lane hl hl' with ⟨-, hupToSign⟩ | ⟨-, hadvances, -⟩
    · exact .inl (hupToSign fun heq => by cases hreader.symm.trans heq)
    · exact .inr hadvances
  · have hleaves := leavesAlone_brokerEvents howned hr hhasLane h hactor fun favourNew =>
      ⟨fun he => hforward ⟨favourNew, .inl he⟩, fun he => hforward ⟨favourNew, .inr he⟩⟩
    obtain ⟨l', hl', hupToSign⟩ := Broker.sameUpToSign_of_leavesAlone hsigns hl hleaves
    have hlanes : w'.broker.lanes = ((w.brokerEvents e).foldl Broker.apply w.broker).lanes :=
      congrArg Core.lanes (core_of_occur h)
    exact ⟨l', hlanes ▸ hl', .inl hupToSign⟩

/-! ### Where runs stand -/

/-- A step of a run moves no other. -/
theorem profiledRuns_stepRun {i : Nat} (h : w.stepRun i = some w') :
    ∃ q, w'.profiledRuns = w.profiledRuns.set i q := by
  have hanswered {w' : Worker} {b : Broker} {q : WorkerRun} {a : Answer Delivery}
      (hanswer : (w.onto b).answer i q a = some w') :
      ∃ q, w'.profiledRuns = w.profiledRuns.set i q := by
    obtain ⟨turn, -, hprofiledRuns, -⟩ := profiledRuns_answer hanswer
    exact ⟨_, hprofiledRuns⟩
  have hstays {w' : Worker} (hi : i < w.profiledRuns.length)
      (hprofiledRuns : w'.profiledRuns = w.profiledRuns) :
      ∃ q, w'.profiledRuns = w.profiledRuns.set i q :=
    ⟨w.profiledRuns[i], by rw [List.set_getElem_self, hprofiledRuns]⟩
  unfold stepRun at h
  split at h
  · cases h
  next q hq =>
  split at h
  · unfold createFor at h
    split at h <;> exact hanswered h
  · split at h
    · exact hanswered (b := w.broker) h
    · cases h
  · unfold consumeFor at h
    split at h <;> exact hanswered h
  · unfold pollFor actOn at h
    split at h
    · cases h
    · exact hanswered h
  · have hi : i < w.profiledRuns.length := by
      obtain ⟨hlt, -⟩ := List.getElem?_eq_some_iff.mp (getElem?_profiledRuns hq)
      exact hlt
    unfold processFor at h
    split at h
    · exact hanswered (b := w.broker) h
    · cases h
    · obtain rfl := Option.some.inj h
      exact hstays hi (profiledRuns_modifyRun w i fun _ => rfl)
    · obtain rfl := Option.some.inj h
      exact hstays hi ((perform_rests _ _).2.trans (profiledRuns_modifyRun w i fun _ => rfl))
  · exact hanswered h
  · exact hanswered h
  · unfold closeFor at h
    split at h
    · obtain ⟨w₁, hanswer, rfl⟩ := Option.map_eq_some_iff.mp h
      have hmoved : ∃ q, w₁.profiledRuns = w.profiledRuns.set i q := hanswered hanswer
      exact hmoved
    · cases h
  · cases h

/-- Nor does a glance. -/
theorem profiledRuns_glance {i : Nat} (h : w.glance i = some w') :
    ∃ q, w'.profiledRuns = w.profiledRuns.set i q := by
  obtain ⟨r, errorsOpen, hr, -, hact | ⟨-, rfl⟩⟩ := glance_eq_some h
  · unfold actOn at hact
    split at hact
    · cases hact
    · obtain ⟨turn, -, hprofiledRuns, -⟩ := profiledRuns_answer hact
      exact ⟨_, hprofiledRuns⟩
  · obtain ⟨hlt, -⟩ := List.getElem?_eq_some_iff.mp (getElem?_profiledRuns hr)
    refine ⟨w.profiledRuns[i], ?_⟩
    rw [List.set_getElem_self]
    exact profiledRuns_modifyRun w i fun _ => rfl

/-- Nobody else moves a run. -/
theorem profiledRuns_of_other {q : ProfiledRun} (hq : w.profiledRuns[n]? = some q)
    (h : w.occur e = some w') (hactor : e.actor ≠ some n) : w'.profiledRuns[n]? = some q := by
  cases e with
  | run i =>
    obtain ⟨q', hprofiledRuns⟩ := profiledRuns_stepRun h
    rw [hprofiledRuns, List.getElem?_set_ne fun heq => hactor (congrArg some heq)]
    exact hq
  | glance i =>
    obtain ⟨q', hprofiledRuns⟩ := profiledRuns_glance h
    rw [hprofiledRuns, List.getElem?_set_ne fun heq => hactor (congrArg some heq)]
    exact hq
  | finish i result =>
    obtain ⟨r, -, -, -, -, -, hanswer⟩ := finishFor_eq_some h
    obtain ⟨turn, -, hprofiledRuns, -⟩ := profiledRuns_answer hanswer
    rw [hprofiledRuns, List.getElem?_set_ne fun heq => hactor (congrArg some heq)]
    exact hq
  | dropErrors i | dropMessages i =>
    obtain ⟨r, result, -, -, rfl⟩ := letGo_eq_some h
    exact hq
  | start profile processor signal =>
    obtain rfl := Option.some.inj h
    obtain ⟨hlt, -⟩ := List.getElem?_eq_some_iff.mp hq
    rw [profiledRuns_start, List.getElem?_append_left hlt]
    exact hq
  | setSignal i stop =>
    obtain rfl := Option.some.inj h
    rw [profiledRuns_setSignal]
    exact hq
  | abandonSignal i =>
    obtain rfl := Option.some.inj h
    have hprofiledRuns : (w.abandonSignal i).profiledRuns = w.profiledRuns :=
      profiledRuns_modifyRun w i fun _ => rfl
    rw [hprofiledRuns]
    exact hq
  | publish | fail | giveUp | clonePublisher | dropPublisher | failAttempts | setTimeout
  | forward | overrun |
    setClock =>
    obtain rfl := Option.some.inj h
    exact hq

end Worker

end Courier
