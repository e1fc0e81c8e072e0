import Courier.Proofs.Broker.Register
import Courier.Proofs.Run.Transition
import Courier.Proofs.Worker.Metering
import Courier.Proofs.Worker.RunState

/-!
# What runs own

A run that is past acquisition has a consumer of its own, and a lane of its own once that has
started. `RegisterStep` says once what can happen to the register of the transport and to the runs,
whatever happens to the worker (`Worker.registerStep_of_occur`), and what the factory is asked. All
that is shown about consumers is shown by cases on it.

Runs may overlap. Still no two of them have the same consumer (`Ownership`), so a consumer that a
run starts has no lane yet, and the run does not fail over that. Nor does it fail over a settlement
(`Worker.never_refused`).
-/

namespace Courier

/-! ## What can happen -/

namespace Phase

variable {μ : Type}

/-- Whether a run handles messages. -/
def IsHandling : Phase μ → Prop
  | .polling _ | .processing .. | .settling .. => True
  | _ => False

/-- Whether a run has a consumer that is not closed. -/
def hasConsumer : Phase μ → Bool
  | .creating _ | .retrying .. | .stopped _ => false
  | _ => true

/-- Whether a run has a consumer that has started, and is not about to be closed. -/
def HasLane : Phase μ → Prop
  | .polling _ | .processing .. | .settling .. | .releasing _ => True
  | _ => False

end Phase

/-- The rules of a run, and its state. -/
structure ProfiledRun where
  /-- Its rules. -/
  profile : Profile
  /-- Where it stands, its consumer and its lane. -/
  state : RunState

/-- The rules of a run, and its state. -/
def WorkerRun.profiled (r : WorkerRun) : ProfiledRun := ⟨r.profile, r.state⟩

/-- The run after it has gone on to a phase. -/
def ProfiledRun.onto (q : ProfiledRun) (phase : Phase Delivery) :
    ProfiledRun := { q with state := { q.state with phase } }

/-- What an event can do to the register `g` and the runs `ps`: there is a new register, new runs,
and the requests for a consumer that are answered, each with the number of the run. The runs that
see a request to stop are those of `seen`. -/
inductive RegisterStep (seen : Nat → Bool) (e : Worker.Event) (g : Register)
    (ps : List ProfiledRun) :
    Register → List ProfiledRun → List (Nat × Except String Nat) → Prop
  /-- Nothing changes. -/
  | rest : RegisterStep seen e g ps g ps []
  /-- The next requests for a consumer are made to fail. -/
  | fail {count : Nat} (he : e = .failAttempts count) :
    RegisterStep seen e g ps { g with failuresLeft := count } ps []
  /-- A run starts. -/
  | start {p : Profile} {processor : Processor} {signal : Signal}
    (he : e = .start p processor signal) :
    RegisterStep seen e g ps g (ps ++ [⟨p, ⟨.creating 1, 0, 0⟩⟩]) []
  /-- A run cannot have a consumer. -/
  | refuse {n now : Nat} {q : ProfiledRun} {attempt : UInt32} (he : e = .run n)
    (hn : ps[n]? = some q) (hphase : q.state.phase = .creating attempt)
    (hleft : 0 < g.failuresLeft) :
    RegisterStep seen e g ps
      { g with
        stats := { g.stats with createAttempts := g.stats.createAttempts + 1 }
        failuresLeft := g.failuresLeft - 1 }
      (ps.set n (q.onto
        (Phase.afterCreate q.profile now attempt (.error Broker.unavailableError)).phase))
      [(n, .error Broker.unavailableError)]
  /-- A run gets a consumer. -/
  | create {n : Nat} {q : ProfiledRun} {attempt : UInt32} (he : e = .run n) (hn : ps[n]? = some q)
    (hphase : q.state.phase = .creating attempt) (hleft : g.failuresLeft = 0) :
    RegisterStep seen e g ps
      { g with
        consumerLanes := g.consumerLanes ++ [none]
        stats := { g.stats with
          createAttempts := g.stats.createAttempts + 1, created := g.stats.created + 1 } }
      (ps.set n { q with
        state := { q.state with phase := .consuming, consumer := g.consumerLanes.length } })
      [(n, .ok g.consumerLanes.length)]
  /-- A run waits to try again, or is done with that. -/
  | wait {n now : Nat} {q : ProfiledRun} {attempt : UInt32} {deadline : Nat} (he : e = .run n)
    (hn : ps[n]? = some q) (hphase : q.state.phase = .retrying attempt deadline)
    (hover : seen n = true ∨ deadline ≤ now) :
    RegisterStep seen e g ps g
      (ps.set n (q.onto (Phase.afterWait now attempt deadline (seen n) : Turn Delivery).phase)) []
  /-- A run starts its consumer. -/
  | begin {n : Nat} {q : ProfiledRun} {limit : Option Span} (he : e = .run n) (hn : ps[n]? = some q)
    (hphase : q.state.phase = .consuming)
    (hconsumerLane : g.consumerLanes[q.state.consumer]? = some none) :
    RegisterStep seen e g ps
      { g with
        consumerLanes := g.consumerLanes.set q.state.consumer (some g.laneReaders.length)
        laneReaders := g.laneReaders ++ [(n, limit)] }
      (ps.set n { q with
        state := { q.state with phase := .polling true, lane := g.laneReaders.length } }) []
  /-- The consumer of a run does not start. -/
  | turnAway {n : Nat} {q : ProfiledRun} (he : e = .run n) (hn : ps[n]? = some q)
    (hphase : q.state.phase = .consuming)
    (hconsumerLane : g.consumerLanes[q.state.consumer]? ≠ some none) :
    RegisterStep seen e g ps g
      (ps.set n (q.onto (.closing (.error (.consume Broker.consumingError))))) []
  /-- A run handles messages. -/
  | work {n now : Nat} {q : ProfiledRun} {a : Answer Delivery} {turn : Turn Delivery}
    (hn : ps[n]? = some q) (hphase : q.state.phase.IsHandling)
    (hstepsTo : q.state.phase.StepsTo q.profile now a turn)
    (hsettled : ∀ cause, a ≠ .settle (.error cause)) :
    RegisterStep seen e g ps g (ps.set n (q.onto turn.phase)) []
  /-- A run lets go of its streams, and begins to close its consumer. -/
  | release {n : Nat} {q : ProfiledRun} {result : RunResult} (he : e = .run n)
    (hn : ps[n]? = some q) (hphase : q.state.phase = .releasing result) :
    RegisterStep seen e g ps { g with consumerLanes := g.consumerLanes.set q.state.consumer none }
      (ps.set n (q.onto (.closing result))) []
  /-- A run closes its consumer. -/
  | close {n : Nat} {q : ProfiledRun} {result : RunResult} (he : e = .run n) (hn : ps[n]? = some q)
    (hphase : q.state.phase = .closing result) :
    RegisterStep seen e g ps { g with stats := { g.stats with closed := g.stats.closed + 1 } }
      (ps.set n (q.onto (.stopped result))) []

namespace Worker

/-- The rules and the states of the runs. -/
def profiledRuns (w : Worker) : List ProfiledRun := w.runs.map WorkerRun.profiled

/-- Whether a run sees a request to stop. -/
def seen (w : Worker) (n : Nat) : Bool := (w.runs[n]?).any WorkerRun.seesStop

/-- The request for a consumer that is answered in an event, if one is. -/
def asks (w : Worker) : Event → List (Nat × Except String Nat)
  | .run n =>
    match (w.runs[n]?).map WorkerRun.phase with
    | some (.creating _) => [(n, w.broker.create.2)]
    | _ => []
  | _ => []

variable {w w' : Worker} {n : Nat} {r r' : WorkerRun} {e : Event}

theorem getElem?_profiledRuns (h : w.runs[n]? = some r) : w.profiledRuns[n]? = some r.profiled := by
  rw [profiledRuns, List.getElem?_map, h, Option.map_some]

theorem exists_of_profiledRuns {q : ProfiledRun} (h : w.profiledRuns[n]? = some q) :
    ∃ r, w.runs[n]? = some r ∧ r.profiled = q := by
  rw [profiledRuns, List.getElem?_map] at h
  exact Option.map_eq_some_iff.mp h

theorem profiledRuns_modifyRun (w : Worker) (n : Nat) {f : WorkerRun → WorkerRun}
    (h : ∀ r, (f r).profiled = r.profiled) :
    (w.modifyRun n f).profiledRuns = w.profiledRuns := map_modifyRun w n h

theorem profiledRuns_setSignal (w : Worker) (n : Nat) (stop : Bool) :
    (w.setSignal n stop).profiledRuns = w.profiledRuns := by
  refine profiledRuns_modifyRun w n fun r => ?_
  unfold WorkerRun.setSignal
  split <;> rfl

/-- An answer moves one run, and makes no entry. -/
theorem profiledRuns_answer {a : Answer Delivery} (h : w.answer n r a = some w') :
    ∃ turn, r.phase.step r.profile w.broker.now a = some turn ∧
      w'.profiledRuns = w.profiledRuns.set n (r.profiled.onto turn.phase) ∧
      w'.broker.register = w.broker.register := by
  obtain ⟨turn, hturn, rfl⟩ := Option.map_eq_some_iff.mp h
  have hprepared : (r.take turn).prepare.profiled = r.profiled.onto turn.phase := by
    unfold WorkerRun.prepare
    split <;> rfl
  exact ⟨turn, hturn, map_modify_eq_set w.runs n fun _ => hprepared, rfl⟩

theorem asks_run (h : w.runs[n]? = some r) (hphase : ∀ attempt, r.phase ≠ .creating attempt) :
    w.asks (.run n) = [] := by
  rw [asks, h, Option.map_some]
  split
  · next attempt heq => exact absurd (Option.some.inj heq) (hphase attempt)
  · rfl

/-! ### The steps of a run -/

/-- What is seen by a run. -/
theorem seen_eq (h : w.runs[n]? = some r) : w.seen n = r.seesStop := by
  rw [seen, h, Option.any_some]

theorem registerStep_createFor (hr : w.runs[n]? = some r) {attempt : UInt32}
    (hphase : r.phase = .creating attempt) (h : w.createFor n r = some w') :
    RegisterStep w.seen (.run n) w.broker.register w.profiledRuns w'.broker.register
      w'.profiledRuns (w.asks (.run n)) := by
  have hasks : w.asks (.run n) = [(n, w.broker.create.2)] := by
    rw [asks, hr, Option.map_some, hphase]
  rw [hasks]
  have hprofiledRuns := getElem?_profiledRuns hr
  unfold Worker.createFor at h
  rcases Broker.register_create w.broker with ⟨hleft, hcreate, hregister⟩ |
    ⟨hleft, hcreate, hregister⟩
  · split at h
    · next b consumer heq =>
      rw [heq] at hcreate
      cases hcreate
    · next b error heq =>
      rw [heq] at hcreate hregister
      obtain rfl := Except.error.inj hcreate
      obtain ⟨turn, hturn, hprofiledRuns', hregister'⟩ := profiledRuns_answer h
      rw [hphase] at hturn
      obtain rfl := Option.some.inj hturn
      rw [hprofiledRuns', hregister', heq]
      change RegisterStep _ _ _ _ b.register _ _
      rw [hregister]
      exact .refuse rfl hprofiledRuns hphase hleft
  · split at h
    · next b consumer heq =>
      rw [heq] at hcreate hregister
      obtain rfl := Except.ok.inj hcreate
      obtain ⟨turn, hturn, hprofiledRuns', hregister'⟩ := profiledRuns_answer h
      change r.phase.step _ _ _ = _ at hturn
      rw [hphase] at hturn
      obtain rfl := Option.some.inj hturn
      rw [hprofiledRuns', hregister', heq]
      change RegisterStep _ _ _ _ b.register _ _
      rw [hregister]
      have hlength : w.broker.register.consumerLanes.length = w.broker.consumers.length :=
        List.length_map ..
      rw [← hlength]
      exact RegisterStep.create (q := r.profiled) rfl hprofiledRuns hphase hleft
    · next b error heq =>
      rw [heq] at hcreate
      cases hcreate

theorem registerStep_consumeFor (hr : w.runs[n]? = some r) (hphase : r.phase = .consuming)
    (h : w.consumeFor n r = some w') :
    RegisterStep w.seen (.run n) w.broker.register w.profiledRuns w'.broker.register w'.profiledRuns
      [] := by
  have hprofiledRuns := getElem?_profiledRuns hr
  unfold Worker.consumeFor at h
  rcases Broker.register_consume w.broker r.consumer n with
    ⟨hconsumerLane, hconsume⟩ | ⟨hconsumerLane, hconsume, limit, hregister⟩
  · rw [hconsume] at h
    obtain ⟨turn, hturn, hprofiledRuns', hregister'⟩ := profiledRuns_answer h
    rw [hphase] at hturn
    obtain rfl := Option.some.inj hturn
    rw [hprofiledRuns', hregister']
    exact .turnAway rfl hprofiledRuns hphase hconsumerLane
  · split at h
    · next b lane heq =>
      rw [heq] at hconsume hregister
      obtain rfl := Except.ok.inj hconsume
      obtain ⟨turn, hturn, hprofiledRuns', hregister'⟩ := profiledRuns_answer h
      change r.phase.step _ _ _ = _ at hturn
      rw [hphase] at hturn
      obtain rfl := Option.some.inj hturn
      rw [hprofiledRuns', hregister']
      change RegisterStep _ _ _ _ b.register _ _
      rw [hregister]
      have hlength : w.broker.register.laneReaders.length = w.broker.lanes.length :=
        List.length_map ..
      rw [← hlength]
      exact .begin rfl hprofiledRuns hphase hconsumerLane
    · next b error heq =>
      rw [heq] at hconsume
      cases hconsume

/-- A run that handles messages makes no entry. -/
theorem registerStep_of_handling {b : Broker} {a : Answer Delivery} (hr : w.runs[n]? = some r)
    (hphase : r.phase.IsHandling) (hregister : b.register = w.broker.register)
    (h : (w.onto b).answer n r a = some w') (hsettled : ∀ cause, a ≠ .settle (.error cause)) :
    RegisterStep w.seen e w.broker.register w.profiledRuns w'.broker.register w'.profiledRuns
      [] := by
  obtain ⟨turn, hturn, hprofiledRuns', hregister'⟩ := profiledRuns_answer h
  rw [hprofiledRuns', hregister']
  change RegisterStep _ _ _ _ b.register _ _
  rw [hregister]
  exact .work (getElem?_profiledRuns hr) hphase (Phase.stepsTo_of_step hturn) hsettled

theorem register_takeChoice (b : Broker) (lane : Nat) (choice : Choice Delivery) :
    (takeChoice b lane choice).register = b.register := by
  cases choice with
  | error => exact (Broker.KeepsRegister.takeError ..).register
  | message => exact (Broker.KeepsRegister.takeMessage ..).register
  | _ => rfl

theorem registerStep_actOn (hr : w.runs[n]? = some r) {errorsOpen : Bool} {v : View Delivery}
    (hphase : r.phase = .polling errorsOpen) (h : w.actOn n r errorsOpen v = some w') :
    RegisterStep w.seen e w.broker.register w.profiledRuns w'.broker.register w'.profiledRuns
      [] := by
  unfold actOn at h
  split at h
  · cases h
  · exact registerStep_of_handling hr (by rw [hphase]; trivial) (register_takeChoice ..) h fun _ =>
      nofun

theorem registerStep_glance (h : w.glance n = some w') :
    RegisterStep w.seen e w.broker.register w.profiledRuns w'.broker.register w'.profiledRuns
      [] := by
  obtain ⟨r, errorsOpen, hr, hphase, hact | ⟨-, rfl⟩⟩ := glance_eq_some h
  · exact registerStep_actOn hr hphase hact
  · have hprofiledRuns : (w.modifyRun n WorkerRun.lookFurther).profiledRuns = w.profiledRuns :=
      profiledRuns_modifyRun w n fun _ => rfl
    rw [hprofiledRuns]
    exact .rest

/-- What a processor does beside its message makes no entry. -/
theorem perform_rests (w : Worker) (deed : Deed) :
    (w.perform deed).broker.register = w.broker.register ∧
      (w.perform deed).profiledRuns = w.profiledRuns := by
  cases deed with
  | setSignal stop =>
    unfold perform
    cases w.reach with
    | none => exact ⟨rfl, rfl⟩
    | some i => exact ⟨(Broker.KeepsRegister.wake ..).register, profiledRuns_setSignal w i stop⟩
  | abandonSignal =>
    unfold perform
    cases w.reach with
    | none => exact ⟨rfl, rfl⟩
    | some i =>
      exact ⟨(Broker.KeepsRegister.wake ..).register, profiledRuns_modifyRun w i fun _ => rfl⟩
  | _ => exact ⟨rfl, rfl⟩

theorem registerStep_processFor (hr : w.runs[n]? = some r) {errorsOpen : Bool} {d : Delivery}
    {since : Nat} (hphase : r.phase = .processing errorsOpen d since)
    (h : w.processFor n r d = some w') :
    RegisterStep w.seen (.run n) w.broker.register w.profiledRuns w'.broker.register w'.profiledRuns
      [] := by
  have herrand (rest : Errand) :
      (w.modifyRun n fun r => { r with errand := rest }).profiledRuns = w.profiledRuns :=
    profiledRuns_modifyRun w n fun _ => rfl
  unfold Worker.processFor at h
  split at h
  · exact registerStep_of_handling (b := w.broker) hr (by rw [hphase]; trivial) rfl h fun _ => nofun
  · cases h
  · obtain rfl := Option.some.inj h
    rw [herrand]
    exact .rest
  · next rest deed _ =>
    obtain rfl := Option.some.inj h
    obtain ⟨hregister, hprofiledRuns⟩ :=
      perform_rests (w.modifyRun n fun r => { r with errand := rest }) deed
    rw [hregister, hprofiledRuns, herrand]
    exact .rest

theorem registerStep_stepRun (h : w.stepRun n = some w') :
    RegisterStep w.seen (.run n) w.broker.register w.profiledRuns w'.broker.register
      w'.profiledRuns (w.asks (.run n)) := by
  unfold Worker.stepRun at h
  split at h
  · cases h
  next r hr =>
  have hasks (hother : ∀ attempt, r.phase ≠ .creating attempt) := asks_run hr hother
  cases hphase : r.phase with
  | creating attempt =>
    rw [hphase] at h
    exact registerStep_createFor hr hphase h
  | retrying attempt deadline =>
    rw [hasks (by rw [hphase]; exact fun _ => nofun)]
    rw [hphase] at h
    simp only at h
    split at h
    · next hover =>
      obtain ⟨turn, hturn, hprofiledRuns', hregister'⟩ := profiledRuns_answer h
      rw [hphase] at hturn
      obtain rfl := Option.some.inj hturn
      rw [hprofiledRuns', hregister', ← seen_eq hr]
      refine .wait rfl (getElem?_profiledRuns hr) hphase ?_
      rw [seen_eq hr]
      simpa using hover
    · cases h
  | consuming =>
    rw [hasks (by rw [hphase]; exact fun _ => nofun)]
    rw [hphase] at h
    exact registerStep_consumeFor hr hphase h
  | polling errorsOpen =>
    rw [hasks (by rw [hphase]; exact fun _ => nofun)]
    rw [hphase] at h
    exact registerStep_actOn hr hphase h
  | processing errorsOpen d since =>
    rw [hasks (by rw [hphase]; exact fun _ => nofun)]
    rw [hphase] at h
    exact registerStep_processFor hr hphase h
  | settling errorsOpen d failure =>
    rw [hasks (by rw [hphase]; exact fun _ => nofun)]
    rw [hphase] at h
    refine registerStep_of_handling hr (by rw [hphase]; trivial) ?_ h fun _ => nofun
    exact ((Broker.KeepsRegister.settle ..).trans (.dropMessage ..)).register
  | releasing result =>
    rw [hasks (by rw [hphase]; exact fun _ => nofun)]
    rw [hphase] at h
    obtain ⟨turn, hturn, hprofiledRuns', hregister'⟩ := profiledRuns_answer h
    rw [hphase] at hturn
    obtain rfl := Option.some.inj hturn
    rw [hprofiledRuns', hregister']
    change RegisterStep _ _ _ _ (((w.broker.dropErrors r.lane).dropMessages r.lane).abort
      r.consumer).register _ _
    rw [Broker.register_abort, (Broker.KeepsRegister.dropMessages ..).register,
      (Broker.KeepsRegister.dropErrors ..).register]
    exact .release rfl (getElem?_profiledRuns hr) hphase
  | closing result =>
    rw [hasks (by rw [hphase]; exact fun _ => nofun)]
    rw [hphase] at h
    simp only [closeFor] at h
    split at h
    · obtain ⟨w₁, hanswer, rfl⟩ := Option.map_eq_some_iff.mp h
      obtain ⟨turn, hturn, hprofiledRuns', hregister'⟩ := profiledRuns_answer hanswer
      rw [hphase] at hturn
      obtain rfl := Option.some.inj hturn
      change RegisterStep _ _ _ _ (w₁.broker.dropConsumer r.consumer).register w₁.profiledRuns _
      rw [(Broker.KeepsRegister.dropConsumer ..).register, hprofiledRuns', hregister']
      exact .close rfl (getElem?_profiledRuns hr) hphase
    · cases h
  | stopped result =>
    rw [hphase] at h
    cases h

/-! ### Any event -/

theorem profiledRuns_start (w : Worker) (profile : Profile) (processor : Processor)
    (signal : Signal) :
    (w.start profile processor signal).profiledRuns = w.profiledRuns ++
      [⟨profile, ⟨.creating 1, 0, 0⟩⟩] :=
  List.map_append

theorem register_start (w : Worker) (profile : Profile) (processor : Processor) (signal : Signal) :
    (w.start profile processor signal).broker.register = w.broker.register :=
  (Broker.KeepsRegister.wake ..).register

/-- A run that is over with its streams makes no entry as it lets go of them. -/
theorem registerStep_letGo {f : Broker → Nat → Broker}
    (hf : ∀ lane, (f w.broker lane).register = w.broker.register) (h : w.letGo n f = some w') :
    RegisterStep w.seen e w.broker.register w.profiledRuns w'.broker.register w'.profiledRuns
      [] := by
  unfold letGo at h
  split at h
  · cases h
  next r hr =>
  split at h
  · obtain rfl := Option.some.inj h
    change RegisterStep _ _ _ _ (f w.broker r.lane).register _ _
    rw [hf]
    exact .rest
  · cases h

/-- What happens to a worker, whose runs may overlap. -/
theorem registerStep_of_occur (h : w.occur e = some w') :
    RegisterStep w.seen e w.broker.register w.profiledRuns w'.broker.register
      w'.profiledRuns (w.asks e) := by
  have hrest {b : Broker} (hb : b.register = w.broker.register) :
      RegisterStep w.seen e w.broker.register w.profiledRuns (w.onto b).broker.register
        (w.onto b).profiledRuns [] := by
    change RegisterStep _ _ _ _ b.register _ _
    rw [hb]
    exact .rest
  cases e with
  | run n => exact registerStep_stepRun h
  | glance n => exact registerStep_glance h
  | start profile processor signal =>
    obtain rfl := Option.some.inj h
    rw [profiledRuns_start, register_start]
    exact .start rfl
  | failAttempts count =>
    obtain rfl := Option.some.inj h
    exact .fail rfl
  | setSignal n stop =>
    obtain rfl := Option.some.inj h
    rw [profiledRuns_setSignal]
    exact hrest (Broker.KeepsRegister.wake ..).register
  | abandonSignal n =>
    obtain rfl := Option.some.inj h
    have hprofiledRuns : (w.abandonSignal n).profiledRuns = w.profiledRuns :=
      profiledRuns_modifyRun w n fun _ => rfl
    rw [hprofiledRuns]
    exact hrest (Broker.KeepsRegister.wake ..).register
  | finish n result =>
    simp only [occur, apply, finishFor] at h
    split at h
    · cases h
    next r hr =>
    split at h
    · next hphase =>
      refine registerStep_of_handling (b := w.broker) hr (by rw [hphase]; trivial)
        rfl h fun cause heq => ?_
      cases heq
    · cases h
  | dropErrors n =>
    exact registerStep_letGo (fun _ => (Broker.KeepsRegister.dropErrors ..).register) h
  | dropMessages n =>
    exact registerStep_letGo (fun _ => (Broker.KeepsRegister.dropMessages ..).register) h
  | publish id payload =>
    obtain rfl := Option.some.inj h
    exact hrest (Broker.KeepsRegister.publish ..).register
  | fail text =>
    obtain rfl := Option.some.inj h
    exact hrest (Broker.KeepsRegister.send ..).register
  | clonePublisher =>
    obtain rfl := Option.some.inj h
    exact hrest (Broker.KeepsRegister.clonePublisher _).register
  | dropPublisher =>
    obtain rfl := Option.some.inj h
    exact hrest (Broker.KeepsRegister.dropPublisher _).register
  | forward lane favourNew =>
    obtain rfl := Option.some.inj h
    exact hrest (Broker.KeepsRegister.advance ..).register
  | overrun lane favourNew =>
    obtain rfl := Option.some.inj h
    exact hrest (Broker.KeepsRegister.overrun ..).register
  | setTimeout consumer limit =>
    obtain rfl := Option.some.inj h
    exact hrest (Broker.KeepsRegister.setTimeout ..).register
  | setClock now =>
    obtain rfl := Option.some.inj h
    exact hrest (Broker.keepsRegister_setClock ..).register
  | giveUp ticket =>
    obtain rfl := Option.some.inj h
    exact hrest rfl

end Worker

/-! ## What each run has to itself -/

/-- Whether a fault is one of a consumer that does not start or of a settlement. -/
def Fault.isRefusal : Fault → Bool
  | .consume _ | .acknowledge .. => true
  | _ => false

/-- Each run has its consumer to itself, and its lane, and no run has met a refusal. -/
structure Ownership (g : Register) (ps : List ProfiledRun) : Prop where
  /-- There is the consumer of a run that has one. -/
  known : ∀ (n : Nat) (q : ProfiledRun), ps[n]? = some q → q.state.phase.hasConsumer →
    q.state.consumer < g.consumerLanes.length
  /-- No other run has it. -/
  apart : ∀ (i j : Nat) (q q' : ProfiledRun), i ≠ j → ps[i]? = some q → ps[j]? = some q' →
    q.state.phase.hasConsumer → q'.state.phase.hasConsumer → q.state.consumer ≠ q'.state.consumer
  /-- It has no lane before it starts. -/
  vacant : ∀ (n : Nat) (q : ProfiledRun), ps[n]? = some q → q.state.phase = .consuming →
    g.consumerLanes[q.state.consumer]? = some none
  /-- Then it has the lane of the run, whose reader is that run. -/
  hasLane : ∀ (n : Nat) (q : ProfiledRun), ps[n]? = some q → q.state.phase.HasLane →
    g.consumerLanes[q.state.consumer]? = some (some q.state.lane) ∧
      ∃ limit, g.laneReaders[q.state.lane]? = some (n, limit)
  /-- No run fails because it is refused. -/
  welcome : ∀ (n : Nat) (q : ProfiledRun) (fault : Fault), ps[n]? = some q →
    q.state.phase.outcome? = some (.error fault) → fault.isRefusal = false

/-- A run that handles messages has a lane as long as it is not about to close its consumer, and it
does not fail over a settlement. -/
theorem Phase.hasLane_of_handling {p : Profile} {now : Nat} {phase : Phase Delivery}
    {a : Answer Delivery} {turn : Turn Delivery} (h : phase.IsHandling)
    (hstepsTo : phase.StepsTo p now a turn) (hsettled : ∀ cause, a ≠ .settle (.error cause)) :
    turn.phase.HasLane ∧ ∀ fault, turn.phase.outcome? = some (.error fault) →
      fault.isRefusal = false := by
  have hgoesOn {phase : Phase Delivery} (hphase : phase.HasLane) (hnone : phase.outcome? = none) :
      phase.HasLane ∧ ∀ fault, phase.outcome? = some (.error fault) → fault.isRefusal = false :=
    ⟨hphase, fun fault hfault => nomatch hnone.symm.trans hfault⟩
  have hstops {result : RunResult} (hresult : ∀ fault, result = .error fault →
      fault.isRefusal = false) : (releasing result : Phase Delivery).HasLane ∧
        ∀ fault, (releasing result : Phase Delivery).outcome? = some (.error fault) →
          fault.isRefusal = false :=
    ⟨trivial, fun fault hfault => hresult fault (Option.some.inj hfault)⟩
  cases hstepsTo
  case idled | reassured | received | succeeded | broke | accepted | absorbed =>
    exact hgoesOn trivial rfl
  case interrupted => exact hstops fun fault hfault => nomatch hfault
  case alerted | ranOut | rejected | unrejected =>
    refine hstops fun fault hfault => ?_
    obtain rfl := Except.error.inj hfault
    rfl
  case unaccepted cause => exact absurd rfl (hsettled cause)
  case unsettled cause _ => exact absurd rfl (hsettled cause)
  all_goals exact h.elim

/-- A run that has been refused a consumer has none, and may end for want of one. -/
theorem Phase.afterCreate_error (p : Profile) (now : Nat) (attempt : UInt32) (error : String) :
    (afterCreate p now attempt (.error error) : Turn Delivery).phase.hasConsumer = false ∧
      ∀ fault, (afterCreate p now attempt (.error error) : Turn Delivery).phase.outcome? =
        some (.error fault) → fault.isRefusal = false := by
  unfold afterCreate
  dsimp only
  split
  · refine ⟨rfl, fun fault hfault => ?_⟩
    obtain rfl := Except.error.inj (Option.some.inj hfault)
    rfl
  · exact ⟨rfl, fun fault hfault => nomatch hfault⟩

/-- A run that waits has no consumer, and does not fail over it. -/
theorem Phase.afterWait_not_hasConsumer (now : Nat) (attempt : UInt32) (deadline : Nat)
    (stop : Bool) :
    (afterWait now attempt deadline stop : Turn Delivery).phase.hasConsumer = false ∧
      ∀ fault, (afterWait now attempt deadline stop : Turn Delivery).phase.outcome? =
        some (.error fault) → fault.isRefusal = false := by
  unfold afterWait
  split
  · exact ⟨rfl, fun fault hfault => nomatch hfault⟩
  · split <;> exact ⟨rfl, fun fault hfault => nomatch hfault⟩

theorem Phase.hasConsumer_of_hasLane {phase : Phase Delivery} (h : phase.HasLane) :
    phase.hasConsumer := by
  cases phase <;> first | rfl | cases h

theorem Phase.hasLane_of_isHandling {phase : Phase Delivery} (h : phase.IsHandling) :
    phase.HasLane := by
  cases phase <;> trivial

namespace Ownership

variable {g g' : Register} {ps : List ProfiledRun} {n : Nat} {q q' : ProfiledRun}

/-- A run goes on. What others have stays theirs; a consumer that it has is the one it had, or a new
one. -/
theorem set (h : Ownership g ps) (hn : ps[n]? = some q)
    (hconsumerLanes : ∀ c < g.consumerLanes.length, (q.state.phase.hasConsumer →
      c ≠ q.state.consumer) → g'.consumerLanes[c]? = g.consumerLanes[c]?)
    (hreaders : ∀ i < g.laneReaders.length, g'.laneReaders[i]? = g.laneReaders[i]?)
    (hknown : q'.state.phase.hasConsumer → q'.state.consumer < g'.consumerLanes.length ∧
      (q.state.phase.hasConsumer ∧ q'.state.consumer = q.state.consumer ∨
      g.consumerLanes.length ≤ q'.state.consumer))
    (hvacant : q'.state.phase = .consuming → g'.consumerLanes[q'.state.consumer]? = some none)
    (hhasLane : q'.state.phase.HasLane →
      g'.consumerLanes[q'.state.consumer]? = some (some q'.state.lane) ∧
      ∃ limit, g'.laneReaders[q'.state.lane]? = some (n, limit))
    (hwelcome : ∀ fault, q'.state.phase.outcome? = some (.error fault) → fault.isRefusal = false) :
    Ownership g' (ps.set n q') := by
  have hitem (i : Nat) (x : ProfiledRun) (hx : (ps.set n q')[i]? = some x) := getElem?_set_cases hx
  -- The consumers of the others are as they were.
  have hother : ∀ i x, i ≠ n → ps[i]? = some x → x.state.phase.hasConsumer →
      g'.consumerLanes[x.state.consumer]? = g.consumerLanes[x.state.consumer]? :=
        fun i x hi hx hhas =>
    hconsumerLanes _ (h.known i x hx hhas) fun hq => h.apart i n x q hi hx hn hhas hq
  have happart : ∀ i x, i ≠ n → ps[i]? = some x → x.state.phase.hasConsumer →
      q'.state.phase.hasConsumer → x.state.consumer ≠ q'.state.consumer := by
    intro i x hi hx hhas hhas'
    rcases (hknown hhas').2 with ⟨hq, hsame⟩ | hnew
    · rw [hsame]
      exact h.apart i n x q hi hx hn hhas hq
    · exact Nat.ne_of_lt (Nat.lt_of_lt_of_le (h.known i x hx hhas) hnew)
  constructor
  case known =>
    intro i x hx hhas
    rcases hitem i x hx with ⟨-, rfl⟩ | ⟨hi, hx⟩
    · exact (hknown hhas).1
    · have hlt := h.known i x hx hhas
      have hsome := hother i x hi hx hhas
      rw [List.getElem?_eq_getElem hlt] at hsome
      exact (List.getElem?_eq_some_iff.mp hsome).1
  case apart =>
    intro i j x y hij hx hy hhas hhas'
    rcases hitem i x hx with ⟨hi, hxq⟩ | ⟨hi, hxp⟩
    · rcases hitem j y hy with ⟨hj, -⟩ | ⟨hj, hyp⟩
      · exact absurd (hi.trans hj.symm) hij
      · rw [hxq] at hhas ⊢
        exact (happart j y hj hyp hhas' hhas).symm
    · rcases hitem j y hy with ⟨-, hyq⟩ | ⟨-, hyp⟩
      · rw [hyq] at hhas' ⊢
        exact happart i x hi hxp hhas hhas'
      · exact h.apart i j x y hij hxp hyp hhas hhas'
  case vacant =>
    intro i x hx hphase
    rcases hitem i x hx with ⟨-, rfl⟩ | ⟨hi, hx⟩
    · exact hvacant hphase
    · rw [hother i x hi hx (by rw [hphase]; rfl)]
      exact h.vacant i x hx hphase
  case hasLane =>
    intro i x hx hphase
    rcases hitem i x hx with ⟨rfl, rfl⟩ | ⟨hi, hx⟩
    · exact hhasLane hphase
    · obtain ⟨hconsumerLane, limit, hreader⟩ := h.hasLane i x hx hphase
      obtain ⟨hlt, -⟩ := List.getElem?_eq_some_iff.mp hreader
      rw [hother i x hi hx (Phase.hasConsumer_of_hasLane hphase), hreaders _ hlt]
      exact ⟨hconsumerLane, limit, hreader⟩
  case welcome =>
    intro i x fault hx hfault
    rcases hitem i x hx with ⟨-, rfl⟩ | ⟨-, hx⟩
    · exact hwelcome fault hfault
    · exact h.welcome i x fault hx hfault

/-- A run that has no consumer goes on without one. -/
theorem set_of_not_consumer (h : Ownership g ps) (hn : ps[n]? = some q) {phase : Phase Delivery}
    (hconsumerLanes : g'.consumerLanes = g.consumerLanes)
    (hreaders : g'.laneReaders = g.laneReaders) (hhas : phase.hasConsumer = false)
    (hwelcome : ∀ fault, phase.outcome? = some (.error fault) → fault.isRefusal = false) :
    Ownership g' (ps.set n (q.onto phase)) := by
  have hnot {P : Prop} (hhas' : phase.hasConsumer = true) : P :=
    absurd (hhas.symm.trans hhas') Bool.false_ne_true
  refine h.set hn (fun c _ _ => by rw [hconsumerLanes]) (fun i _ => by rw [hreaders])
    (fun ht => hnot ht)
    (fun hphase => hnot ?_) (fun hhasLane => hnot (Phase.hasConsumer_of_hasLane hhasLane)) hwelcome
  change phase = _ at hphase
  rw [hphase]
  rfl

/-- Another run starts, without a consumer. -/
theorem start (h : Ownership g ps) (p : Profile) :
    Ownership g (ps ++ [⟨p, ⟨.creating 1, 0, 0⟩⟩]) := by
  have hitem : ∀ (i : Nat) (x : ProfiledRun), (ps ++ [⟨p, ⟨.creating 1, 0, 0⟩⟩])[i]? = some x →
      x.state.phase = .creating 1 ∨ ps[i]? = some x := by
    intro i x hx
    rcases getElem?_concat_cases hx with hx | ⟨-, rfl⟩
    · exact .inr hx
    · exact .inl rfl
  constructor
  case known =>
    intro i x hx hhas
    rcases hitem i x hx with hphase | hx
    · rw [hphase] at hhas
      cases hhas
    · exact h.known i x hx hhas
  case apart =>
    intro i j x y hij hx hy hhas hhas'
    rcases hitem i x hx with hphase | hx
    · rw [hphase] at hhas
      cases hhas
    · rcases hitem j y hy with hphase | hy
      · rw [hphase] at hhas'
        cases hhas'
      · exact h.apart i j x y hij hx hy hhas hhas'
  case vacant =>
    intro i x hx hconsuming
    rcases hitem i x hx with hphase | hx
    · cases hphase.symm.trans hconsuming
    · exact h.vacant i x hx hconsuming
  case hasLane =>
    intro i x hx hhasLane
    rcases hitem i x hx with hphase | hx
    · rw [hphase] at hhasLane
      exact hhasLane.elim
    · exact h.hasLane i x hx hhasLane
  case welcome =>
    intro i x fault hx hfault
    rcases hitem i x hx with hphase | hx
    · rw [hphase] at hfault
      cases hfault
    · exact h.welcome i x fault hx hfault

/-- Whatever happens, each run has its consumer to itself, and is not refused. -/
theorem registerStep {seen : Nat → Bool} {e : Worker.Event} {ps' : List ProfiledRun}
    {asked : List (Nat × Except String Nat)} (h : Ownership g ps)
    (hregisterStep : RegisterStep seen e g ps g' ps' asked) : Ownership g' ps' := by
  cases hregisterStep with
  | rest => exact h
  | fail _ => exact ⟨h.known, h.apart, h.vacant, h.hasLane, h.welcome⟩
  | start => exact h.start _
  | @refuse n now q attempt _ hn hphase hleft =>
    obtain ⟨hhas, hwelcome⟩ := Phase.afterCreate_error q.profile now attempt Broker.unavailableError
    exact h.set_of_not_consumer hn rfl rfl hhas hwelcome
  | @create n q attempt _ hn hphase hleft =>
    refine h.set hn (fun c hc _ => List.getElem?_append_left hc) (fun _ _ => rfl) (fun _ =>
      ?_) (fun _ => ?_) (fun hhasLane => hhasLane.elim) fun fault hfault => nomatch hfault
    · refine ⟨?_, .inr (Nat.le_refl _)⟩
      rw [List.length_append]
      exact Nat.lt_succ_self _
    · exact List.getElem?_concat_length
  | @wait n now q attempt deadline _ hn hphase =>
    obtain ⟨hhas, hwelcome⟩ := Phase.afterWait_not_hasConsumer now attempt deadline (seen n)
    exact h.set_of_not_consumer hn rfl rfl hhas hwelcome
  | @begin n q limit _ hn hphase hconsumerLane =>
    have hlt := (List.getElem?_eq_some_iff.mp hconsumerLane).1
    have hhas : q.state.phase.hasConsumer := by
      rw [hphase]
      rfl
    refine h.set hn (fun c _ hc => List.getElem?_set_ne (Ne.symm (hc hhas)))
      (fun i hi => List.getElem?_append_left hi) (fun _ => ?_) nofun (fun _ => ?_)
      fun fault hfault => nomatch hfault
    · refine ⟨?_, .inl ⟨hhas, rfl⟩⟩
      rw [List.length_set]
      exact hlt
    · exact ⟨List.getElem?_set_self hlt, limit, List.getElem?_concat_length⟩
  | turnAway _ hn hphase hconsumerLane => exact absurd (h.vacant _ _ hn hphase) hconsumerLane
  | @work n now q a turn hn hphase hstepsTo hsettled =>
    obtain ⟨hhasLane, hwelcome⟩ := Phase.hasLane_of_handling hphase hstepsTo hsettled
    have hbefore := Phase.hasLane_of_isHandling hphase
    have hhas := Phase.hasConsumer_of_hasLane hbefore
    refine h.set hn (fun _ _ _ => rfl) (fun _ _ => rfl)
      (fun _ => ⟨h.known n q hn hhas, .inl ⟨hhas, rfl⟩⟩) (fun hconsuming => ?_)
      (fun _ => h.hasLane n q hn hbefore) hwelcome
    change turn.phase = _ at hconsuming
    rw [hconsuming] at hhasLane
    exact hhasLane.elim
  | @release n q result _ hn hphase =>
    have hhasLane : q.state.phase.HasLane := by
      rw [hphase]
      trivial
    have hhas := Phase.hasConsumer_of_hasLane hhasLane
    refine h.set hn (fun c _ hc => List.getElem?_set_ne (Ne.symm (hc hhas))) (fun _ _ => rfl)
      (fun _ => ?_) nofun (fun hhasLane => hhasLane.elim) fun fault hfault => ?_
    · refine ⟨?_, .inl ⟨hhas, rfl⟩⟩
      rw [List.length_set]
      exact h.known n q hn hhas
    · refine h.welcome n q fault hn ?_
      rw [hphase]
      exact hfault
  | @close n q result _ hn hphase =>
    refine h.set_of_not_consumer hn rfl rfl rfl fun fault hfault => h.welcome n q fault hn ?_
    rw [hphase]
    exact hfault

end Ownership

namespace Worker

variable {w w' : Worker}

/-- Each run has its consumer to itself after any number of events. -/
theorem ownership_after {events : List Event} (h : Ownership w.broker.register w.profiledRuns)
    (hrun : w.after events = some w') : Ownership w'.broker.register w'.profiledRuns :=
  foldlM_induction (motive := fun w => Ownership w.broker.register w.profiledRuns) hrun h
    fun _ _ _ _ howned hstep => howned.registerStep (registerStep_of_occur hstep)

/-- Nothing is let at a worker that has had no run. -/
theorem ownership_of_no_runs (b : Broker) : Ownership ({ broker := b } : Worker).broker.register
    ({ broker := b } : Worker).profiledRuns := by
  have hnone : ∀ (n : Nat) (q : ProfiledRun), ([] : List ProfiledRun)[n]? ≠ some q :=
    fun n q hq => by simp at hq
  change Ownership _ []
  exact ⟨fun n q hq => absurd hq (hnone n q), fun i _ q _ _ hq => absurd hq (hnone i q),
    fun n q hq => absurd hq (hnone n q), fun n q hq => absurd hq (hnone n q),
    fun n q _ hq => absurd hq (hnone n q)⟩

/-- However runs overlap, none of them fails because its consumer does not start or because a
message is not settled. -/
theorem never_refused {b : Broker} {events : List Event}
    (hrun : ({ broker := b } : Worker).after events = some w) {r : WorkerRun} (hr : r ∈ w.runs)
    {fault : Fault} (hfault : r.phase.outcome? = some (.error fault)) :
    fault.isRefusal = false := by
  obtain ⟨n, hn⟩ := List.mem_iff_getElem?.mp hr
  exact (ownership_after (ownership_of_no_runs b) hrun).welcome n r.profiled fault
    (getElem?_profiledRuns hn) hfault

end Worker

end Courier
