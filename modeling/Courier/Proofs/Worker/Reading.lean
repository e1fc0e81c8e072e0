import Courier.Proofs.Worker.Actions

/-!
# What runs do about their lanes

A run that handles messages looks around, takes what it finds and settles it. `Phase.Reads` lists
what it does about its lane meanwhile; all else that happens to the lane is a sign or a step of its
forwarder (`Worker.happens_of_occur`). A run begins to handle messages with a lane of its own
(`Worker.handling_before`), and once it is over with its streams its result stands
(`Worker.outcome?_after`).

A run that looks around at once sees the lane as it is between two turns of its forwarder. One that
looks at its messages some time after it has looked at its errors may see that they have ended, and
miss the error that came in between; this is the only thing that it does not do otherwise
(`Phase.Reads.errorsMissed`).
-/

namespace Courier

/-! ## What a run does about its lane -/

namespace Phase

variable {μ : Type}

/-- Whether a run that handles messages still looks for errors. -/
def errorsOpen? : Phase μ → Option Bool
  | .polling errorsOpen | .processing errorsOpen .. | .settling errorsOpen .. => some errorsOpen
  | _ => none

theorem exists_of_isHandling {phase : Phase μ} (h : phase.IsHandling) :
    ∃ errorsOpen, phase.errorsOpen? = some errorsOpen := by
  cases phase with
  | polling | processing | settling => exact ⟨_, rfl⟩
  | _ => exact h.elim

theorem isHandling_of_errorsOpen? {phase : Phase μ} {errorsOpen : Bool}
    (h : phase.errorsOpen? = some errorsOpen) : phase.IsHandling := by
  cases phase with
  | polling | processing | settling => trivial
  | _ => cases h

theorem outcome?_of_isHandling {phase : Phase μ} (h : phase.IsHandling) :
    phase.outcome? = none := by
  cases phase with
  | releasing | closing | stopped => exact h.elim
  | _ => rfl

/-- What a run that handles messages does in an event of its own, if its lane is `l`: where it
stands then, and what becomes of the lane. Whether it looks at its messages alone is `alone`. -/
inductive Reads (alone : Prop) (l : Lane) : Phase Delivery → Phase Delivery → Lane → Prop
  /-- It goes on with what it does. -/
  | goOn {phase : Phase Delivery} : Reads alone l phase phase l
  /-- It sees the request to stop. -/
  | stop {errorsOpen : Bool} : Reads alone l (.polling errorsOpen) (.releasing (.ok ())) l
  /-- It takes an error. -/
  | error {text : String} (hslot : l.errorSlot = some text) :
    Reads alone l (.polling true) (.releasing (.error (.transport text)))
      { l with errorSlot := none }
  /-- It sees the end of the errors. -/
  | errorsEnded (hslot : l.errorSlot = none) (hended : l.forwarder = .ended) :
    Reads alone l (.polling true) (.polling false) l
  /-- It takes a message. -/
  | message {errorsOpen : Bool} {d : Delivery} {since : Nat} :
    Reads alone l (.polling errorsOpen) (.processing errorsOpen d since) { l with slot := none }
  /-- It sees the end of the messages, having seen the end of the errors before. -/
  | messagesEnded (hended : l.forwarder = .ended) :
    Reads alone l (.polling false) (.releasing (.error .streamClosed)) l
  /-- It sees the end of the messages, and has not seen the end of the errors. -/
  | errorsMissed (halone : alone) (hslot : l.slot = none) (hended : l.forwarder = .ended) :
    Reads alone l (.polling true) (.releasing (.error .streamClosed)) l
  /-- Its processor is done with a message. -/
  | finish {errorsOpen : Bool} {d : Delivery} {since : Nat} {failure : Option String} :
    Reads alone l (.processing errorsOpen d since) (.settling errorsOpen d failure) l
  /-- It settles a message, and goes on. -/
  | settle {errorsOpen : Bool} {d : Delivery} {failure : Option String} {l' : Lane}
    (h : l.SameUpToSign l') :
    Reads alone l (.settling errorsOpen d failure) (.polling errorsOpen) l'
  /-- It settles a message that it has failed with, and stops. -/
  | giveUp {errorsOpen : Bool} {d : Delivery} {cause : String} {l' : Lane} (h : l.SameUpToSign l') :
    Reads alone l (.settling errorsOpen d (some cause)) (.releasing (.error (.processing cause))) l'

theorem Reads.imp {alone alone' : Prop} {l l' : Lane} {phase phase' : Phase Delivery}
    (h : Reads alone l phase phase' l') (himp : alone → alone') :
    Reads alone' l phase phase' l' := by
  cases h with
  | goOn => exact .goOn
  | stop => exact .stop
  | error hslot => exact .error hslot
  | errorsEnded hslot hended => exact .errorsEnded hslot hended
  | message => exact .message
  | messagesEnded hended => exact .messagesEnded hended
  | errorsMissed halone hslot hended => exact .errorsMissed (himp halone) hslot hended
  | finish => exact .finish
  | settle h => exact .settle h
  | giveUp h => exact .giveUp h

end Phase

namespace RegisterStep

variable {seen : Nat → Bool} {e : Worker.Event} {g g' : Register} {ps ps' : List ProfiledRun}
  {n : Nat} {q : ProfiledRun} {asked : List (Nat × Except String Nat)}

/-- A run that handles messages did so before, or starts its consumer. -/
theorem handling_before (h : RegisterStep seen e g ps g' ps' asked) (hq : ps'[n]? = some q)
    (hhandling : q.state.phase.IsHandling) :
    (∃ q₀, ps[n]? = some q₀ ∧ q₀.state.phase.IsHandling) ∨
      e = .run n ∧ ∃ q₀, ps[n]? = some q₀ ∧ q₀.state.phase = .consuming ∧
        g.consumerLanes[q₀.state.consumer]? = some none := by
  -- Another run goes on, or this one does not handle messages then.
  have hother {i : Nat} {x : ProfiledRun} (hx : (ps.set i x)[n]? = some q)
      (hidle : ¬ x.state.phase.IsHandling) :
      ∃ q₀, ps[n]? = some q₀ ∧ q₀.state.phase.IsHandling := by
    rcases getElem?_set_cases hx with ⟨-, rfl⟩ | ⟨-, hq⟩
    · exact absurd hhandling hidle
    · exact ⟨q, hq, hhandling⟩
  cases h with
  | rest | fail => exact .inl ⟨q, hq, hhandling⟩
  | start =>
    rcases getElem?_concat_cases hq with hq | ⟨-, rfl⟩
    · exact .inl ⟨q, hq, hhandling⟩
    · exact hhandling.elim
  | @refuse i now q₀ attempt _ _ _ _ =>
    refine .inl (hother hq ?_)
    show ¬ (Phase.afterCreate q₀.profile now attempt _ : Turn Delivery).phase.IsHandling
    unfold Phase.afterCreate
    split
    · cases ‹_ = Except.ok ()›
    · split <;> exact id
  | @wait i now q₀ attempt deadline _ _ _ _ =>
    refine .inl (hother hq ?_)
    show ¬ (Phase.afterWait now attempt deadline (seen i) : Turn Delivery).phase.IsHandling
    unfold Phase.afterWait
    split
    · exact id
    · split <;> exact id
  | create | turnAway | release | close => exact .inl (hother hq id)
  | begin he hn hphase hconsumerLane =>
    rcases getElem?_set_cases hq with ⟨rfl, -⟩ | ⟨-, hq⟩
    · exact .inr ⟨he, _, hn, hphase, hconsumerLane⟩
    · exact .inl ⟨q, hq, hhandling⟩
  | work hn hphase _ _ =>
    rcases getElem?_set_cases hq with ⟨rfl, -⟩ | ⟨-, hq⟩
    · exact .inl ⟨_, hn, hphase⟩
    · exact .inl ⟨q, hq, hhandling⟩

/-- A run that is over with its streams stays so, and ends with the same result. -/
theorem outcome?_after (h : RegisterStep seen e g ps g' ps' asked) (hq : ps[n]? = some q)
    {result : RunResult} (hresult : q.state.phase.outcome? = some result) :
    ∃ q', ps'[n]? = some q' ∧ q'.state.phase.outcome? = some result := by
  have hset {i : Nat} {q₀ x : ProfiledRun} (hi : ps[i]? = some q₀)
      (hx : q₀.state.phase.outcome? = some result → x.state.phase.outcome? = some result) :
      ∃ q', (ps.set i x)[n]? = some q' ∧ q'.state.phase.outcome? = some result := by
    by_cases hin : i = n
    · subst hin
      obtain rfl := Option.some.inj (hi.symm.trans hq)
      obtain ⟨hlt, -⟩ := List.getElem?_eq_some_iff.mp hq
      exact ⟨x, List.getElem?_set_self hlt, hx hresult⟩
    · exact ⟨q, (List.getElem?_set_ne hin).trans hq, hresult⟩
  have hearly {q₀ x : ProfiledRun} (hnone : q₀.state.phase.outcome? = none)
      (hq₀ : q₀.state.phase.outcome? = some result) : x.state.phase.outcome? = some result := by
    cases hnone.symm.trans hq₀
  cases h with
  | rest | fail => exact ⟨q, hq, hresult⟩
  | start =>
    obtain ⟨hlt, -⟩ := List.getElem?_eq_some_iff.mp hq
    exact ⟨q, (List.getElem?_append_left hlt).trans hq, hresult⟩
  | refuse _ hn hphase | create _ hn hphase | wait _ hn hphase | begin _ hn hphase
  | turnAway _ hn hphase =>
    exact hset hn (hearly (by rw [hphase]; rfl))
  | work hn hphase => exact hset hn (hearly (Phase.outcome?_of_isHandling hphase))
  | release _ hn hphase | close _ hn hphase =>
    refine hset hn fun hbefore => ?_
    rw [hphase] at hbefore
    exact hbefore

end RegisterStep

namespace Worker

variable {w w' : Worker} {n : Nat} {r : WorkerRun} {e : Event} {l : Lane}

/-- A run that gets an answer moves on as the answer makes it, and nothing else happens. -/
theorem profiled_of_answer (hr : w.runs[n]? = some r) {b : Broker} {a : Answer Delivery}
    (h : (w.onto b).answer n r a = some w') :
    ∃ turn, r.phase.step r.profile b.now a = some turn ∧
      w'.profiledRuns[n]? = some (r.profiled.onto turn.phase) ∧ w'.broker.core = b.core := by
  obtain ⟨hlt, -⟩ := List.getElem?_eq_some_iff.mp (getElem?_profiledRuns hr)
  obtain ⟨turn, hturn, hprofiledRuns, -⟩ := profiledRuns_answer h
  refine ⟨turn, hturn, ?_, core_of_answer h⟩
  rw [hprofiledRuns]
  exact List.getElem?_set_self hlt

/-- What a run does about what it sees. That its messages have ended it sees before the end of its
errors only if it looks at them alone. -/
theorem reads_actOn (hr : w.runs[n]? = some r) {errorsOpen : Bool}
    (hphase : r.phase = .polling errorsOpen) (hl : w.broker.lanes[r.lane]? = some l)
    {v : View Delivery} (hshows : w.Shows r v) {alone : Prop}
    (halone : v.pick errorsOpen = some .messagesEnded → errorsOpen = true → alone)
    (h : w.actOn n r errorsOpen v = some w') :
    ∃ phase l', w'.profiledRuns[n]? = some (r.profiled.onto phase) ∧
      w'.broker.lanes[r.lane]? = some l' ∧ r.phase.Reads alone l phase l' := by
  unfold actOn at h
  split at h
  · cases h
  next choice hpick =>
  obtain ⟨turn, hturn, hprofiled, hcore⟩ := profiled_of_answer hr h
  have hlanes : w'.broker.lanes = (takeChoice w.broker r.lane choice).lanes :=
    congrArg Core.lanes hcore
  rw [hphase] at hturn ⊢
  obtain rfl := Option.some.inj hturn
  rw [hpick] at hprofiled
  cases choice with
  | stop => exact ⟨_, l, hprofiled, hlanes ▸ hl, .stop⟩
  | error text =>
    obtain ⟨rfl, herror⟩ := hshows.of_error hpick
    have htaken := congrArg Core.lanes (hcore.trans (Broker.core_takeError hl))
    refine ⟨_, _, hprofiled, ?_, .error ((Broker.offeredError_eq_item hl).mp herror)⟩
    exact (congrArg (·[r.lane]?) htaken).trans (Core.getElem?_setLane hl)
  | errorsEnded =>
    obtain ⟨rfl, hended⟩ := hshows.of_errorsEnded hpick
    obtain ⟨hslot, hforwarder⟩ := (Broker.offeredError_eq_ended hl).mp hended
    exact ⟨_, l, hprofiled, hlanes ▸ hl, .errorsEnded hslot hforwarder⟩
  | message d =>
    have hslot := (Broker.offeredMessage_eq_item hl).mp (hshows.of_message hpick)
    have htaken := congrArg Core.lanes (hcore.trans (Broker.core_takeMessage hl hslot))
    refine ⟨_, _, hprofiled, ?_, .message⟩
    exact (congrArg (·[r.lane]?) htaken).trans (Core.getElem?_setLane hl)
  | messagesEnded =>
    obtain ⟨hslot, hforwarder⟩ :=
      (Broker.offeredMessage_eq_ended hl).mp (hshows.of_messagesEnded hpick)
    cases errorsOpen with
    | false => exact ⟨_, l, hprofiled, hlanes ▸ hl, .messagesEnded hforwarder⟩
    | true =>
      exact ⟨_, l, hprofiled, hlanes ▸ hl, .errorsMissed (halone hpick rfl) hslot hforwarder⟩

/-- A run that looks around at once sees the end of its errors, or an error, before the end of its
messages. -/
theorem pick_view_ne_messagesEnded (hl : w.broker.lanes[r.lane]? = some l) :
    (w.view r).pick true ≠ some .messagesEnded := by
  intro hpick
  obtain ⟨-, hmessages, herrors⟩ := View.pick_eq_messagesEnded.mp hpick
  obtain ⟨-, hforwarder⟩ := (Broker.offeredMessage_eq_ended hl).mp hmessages
  obtain ⟨hmore, hnone⟩ := herrors rfl
  cases hslot : l.errorSlot with
  | none => exact hmore ((Broker.offeredError_eq_ended hl).mpr ⟨hslot, hforwarder⟩)
  | some text => exact hnone text ((Broker.offeredError_eq_item hl).mpr hslot)

theorem reads_pollFor (hr : w.runs[n]? = some r) {errorsOpen : Bool}
    (hphase : r.phase = .polling errorsOpen) (hl : w.broker.lanes[r.lane]? = some l) {alone : Prop}
    (h : w.pollFor n r errorsOpen = some w') :
    ∃ phase l', w'.profiledRuns[n]? = some (r.profiled.onto phase) ∧
      w'.broker.lanes[r.lane]? = some l' ∧ r.phase.Reads alone l phase l' := by
  refine reads_actOn hr hphase hl (w.shows_view r) (fun hpick hopen => ?_) h
  rw [hopen] at hpick
  exact absurd hpick (pick_view_ne_messagesEnded hl)

/-- A glance at the signal or the errors shows nothing of the messages. -/
theorem upNext_of_messagesEnded {errorsOpen : Bool}
    (h : (w.viewOf r r.upNext).pick errorsOpen = some .messagesEnded) : r.upNext = .messages := by
  obtain ⟨-, hmessages, -⟩ := View.pick_eq_messagesEnded.mp h
  cases hnext : r.upNext with
  | messages => rfl
  | signal | errors =>
    rw [hnext] at hmessages
    cases hmessages

theorem reads_glance (hr : w.runs[n]? = some r) (hl : w.broker.lanes[r.lane]? = some l)
    (h : w.glance n = some w') :
    ∃ phase l', w'.profiledRuns[n]? = some (r.profiled.onto phase) ∧
      w'.broker.lanes[r.lane]? = some l' ∧ r.phase.Reads (r.upNext = .messages) l phase l' := by
  obtain ⟨q, errorsOpen, hq, hphase, hact | ⟨-, rfl⟩⟩ := glance_eq_some h
  · obtain rfl := Option.some.inj (hq.symm.trans hr)
    exact reads_actOn hr hphase hl (w.shows_viewOf q _) (fun hpick _ =>
      upNext_of_messagesEnded hpick) hact
  · have hprofiledRuns : (w.modifyRun n WorkerRun.lookFurther).profiledRuns = w.profiledRuns :=
      profiledRuns_modifyRun w n fun _ => rfl
    exact ⟨r.phase, l, hprofiledRuns ▸ getElem?_profiledRuns hr, hl, .goOn⟩

/-- A processor that is done leaves the lane alone. -/
theorem reads_process (hr : w.runs[n]? = some r) {errorsOpen : Bool} {d : Delivery} {since : Nat}
    (hphase : r.phase = .processing errorsOpen d since) (hl : w.broker.lanes[r.lane]? = some l)
    {alone : Prop} {result : Except String Unit} (h : w.answer n r (.process result) = some w') :
    ∃ phase l', w'.profiledRuns[n]? = some (r.profiled.onto phase) ∧
      w'.broker.lanes[r.lane]? = some l' ∧ r.phase.Reads alone l phase l' := by
  obtain ⟨turn, hturn, hprofiled, hcore⟩ := profiled_of_answer (b := w.broker) hr h
  have hlanes : w'.broker.lanes = w.broker.lanes := congrArg Core.lanes hcore
  rw [hphase] at hturn ⊢
  obtain rfl := Option.some.inj hturn
  cases result with
  | ok => exact ⟨_, l, hprofiled, hlanes ▸ hl, .finish⟩
  | error => exact ⟨_, l, hprofiled, hlanes ▸ hl, .finish⟩

/-- So does one that is at work. -/
theorem reads_processFor (hr : w.runs[n]? = some r) {errorsOpen : Bool} {d : Delivery} {since : Nat}
    (hphase : r.phase = .processing errorsOpen d since) (hl : w.broker.lanes[r.lane]? = some l)
    {alone : Prop} (h : w.processFor n r d = some w') :
    ∃ phase l', w'.profiledRuns[n]? = some (r.profiled.onto phase) ∧
      w'.broker.lanes[r.lane]? = some l' ∧ r.phase.Reads alone l phase l' := by
  have hlanes : w'.broker.lanes = w.broker.lanes :=
    congrArg Core.lanes ((logsAndWakes_processFor h).core)
  have hgoesOn (hprofiledRuns : w'.profiledRuns = w.profiledRuns) :
      ∃ phase l', w'.profiledRuns[n]? = some (r.profiled.onto phase) ∧
        w'.broker.lanes[r.lane]? = some l' ∧ r.phase.Reads alone l phase l' :=
    ⟨r.phase, l, hprofiledRuns ▸ getElem?_profiledRuns hr, hlanes ▸ hl, hphase ▸ .goOn⟩
  unfold processFor at h
  split at h
  · exact reads_process hr hphase hl h
  · cases h
  · obtain rfl := Option.some.inj h
    exact hgoesOn (profiledRuns_modifyRun w n fun _ => rfl)
  · obtain rfl := Option.some.inj h
    exact hgoesOn ((perform_rests _ _).2.trans (profiledRuns_modifyRun w n fun _ => rfl))

/-- A run that settles its message and lets go of it may wake its forwarder. -/
theorem reads_settleFor (hsigns : w.broker.queueState.SignsKept) (hr : w.runs[n]? = some r)
    {errorsOpen : Bool} {d : Delivery} {failure : Option String}
    (hphase : r.phase = .settling errorsOpen d failure) (hl : w.broker.lanes[r.lane]? = some l)
    {alone : Prop} (h : w.settleFor n r d failure = some w') :
    ∃ phase l', w'.profiledRuns[n]? = some (r.profiled.onto phase) ∧
      w'.broker.lanes[r.lane]? = some l' ∧ r.phase.Reads alone l phase l' := by
  obtain ⟨turn, hturn, hprofiled, hcore⟩ := profiled_of_answer hr h
  have hnone : (none : Option Nat) ≠ some r.lane := fun heq => by cases heq
  have hleaves : Broker.LeavesAlone r.lane
      [.settle d.seq (r.profile.dispositionAfter failure), .dropMessage d.seq] w.broker :=
    ⟨hnone, hnone, hnone, hnone, trivial⟩
  obtain ⟨l', hl', hupToSign⟩ := Broker.sameUpToSign_of_leavesAlone hsigns hl hleaves
  have hlanes := congrArg Core.lanes hcore
  rw [hphase] at hturn ⊢
  refine ⟨_, l', hprofiled, (congrArg (·[r.lane]?) hlanes).trans hl', ?_⟩
  cases failure with
  | none =>
    obtain rfl := Option.some.inj hturn
    exact .settle hupToSign
  | some cause =>
    obtain rfl := Option.some.inj hturn
    simp only [Phase.afterFailing]
    cases r.profile.strategy.flow with
    | «continue» => exact .settle hupToSign
    | exit => exact .giveUp hupToSign

/-- What a run that handles messages does in an event of its own. -/
theorem reads_of_own (hsigns : w.broker.queueState.SignsKept) (hr : w.runs[n]? = some r)
    (hhandling : r.phase.IsHandling) (hl : w.broker.lanes[r.lane]? = some l)
    (h : w.occur e = some w') (hactor : e.actor = some n) :
    ∃ phase l', w'.profiledRuns[n]? = some (r.profiled.onto phase) ∧
      w'.broker.lanes[r.lane]? = some l' ∧
      r.phase.Reads (e = .glance n ∧ r.upNext = .messages) l phase l' := by
  cases e with
  | run i =>
    obtain rfl := Option.some.inj hactor
    change w.stepRun i = some w' at h
    unfold stepRun at h
    rw [hr] at h
    cases hphase : r.phase with
    | polling errorsOpen =>
      simp only [hphase] at h
      rw [← hphase]
      exact reads_pollFor hr hphase hl h
    | processing errorsOpen d since =>
      simp only [hphase] at h
      rw [← hphase]
      exact reads_processFor hr hphase hl h
    | settling errorsOpen d failure =>
      simp only [hphase] at h
      rw [← hphase]
      exact reads_settleFor hsigns hr hphase hl h
    | _ =>
      rw [hphase] at hhandling
      exact hhandling.elim
  | glance i =>
    obtain rfl := Option.some.inj hactor
    obtain ⟨phase, l', hprofiled, hl', hreads⟩ := reads_glance hr hl h
    exact ⟨phase, l', hprofiled, hl', hreads.imp fun hnext => ⟨rfl, hnext⟩⟩
  | finish i result =>
    obtain rfl := Option.some.inj hactor
    obtain ⟨q, errorsOpen, d, since, hq, hphase, hanswer⟩ := finishFor_eq_some h
    obtain rfl := Option.some.inj (hq.symm.trans hr)
    exact reads_process hr hphase hl hanswer
  | dropErrors i | dropMessages i =>
    obtain rfl := Option.some.inj hactor
    obtain ⟨q, result, hq, hphase, -⟩ := letGo_eq_some h
    obtain rfl := Option.some.inj (hq.symm.trans hr)
    rw [hphase] at hhandling
    exact hhandling.elim
  | _ => cases hactor

/-- What an event does to a run that handles messages, and to its lane: the run does something
itself, or a sign reaches its forwarder, or that takes a step. -/
theorem happens_of_occur (hsigns : w.broker.queueState.SignsKept)
    (howned : Ownership w.broker.register w.profiledRuns) (hr : w.runs[n]? = some r)
    (hhandling : r.phase.IsHandling) (hl : w.broker.lanes[r.lane]? = some l)
    (h : w.occur e = some w') :
    ∃ phase l', w'.profiledRuns[n]? = some (r.profiled.onto phase) ∧
      w'.broker.lanes[r.lane]? = some l' ∧ (phase = r.phase ∧ (l.SameUpToSign l' ∨
          w.broker.Advances r.lane l l' w'.broker.line w'.broker.incoming w'.broker.returned) ∨
        r.phase.Reads (e = .glance n ∧ r.upNext = .messages) l phase l') := by
  by_cases hactor : e.actor = some n
  · obtain ⟨phase, l', hprofiled, hl', hreads⟩ := reads_of_own hsigns hr hhandling hl h hactor
    exact ⟨phase, l', hprofiled, hl', .inr hreads⟩
  · have hprofiled := profiledRuns_of_other (getElem?_profiledRuns hr) h hactor
    obtain ⟨l', hl', hlane⟩ :=
      lane_of_other hsigns howned hr (Phase.hasLane_of_isHandling hhandling) hl h hactor
    exact ⟨r.phase, l', hprofiled, hl', .inl ⟨rfl, hlane⟩⟩

/-- A run that starts its consumer has a new lane. -/
theorem lane_consumeFor (hr : w.runs[n]? = some r) (hphase : r.phase = .consuming)
    (hconsumerLane : w.broker.register.consumerLanes[r.consumer]? = some none)
    (h : w.consumeFor n r = some w') :
    ∃ q limit, w'.profiledRuns[n]? = some q ∧ q.state.phase = .polling true ∧
      w'.broker.lanes[q.state.lane]? = some (Lane.start n limit) := by
  have hlookup :
      w.broker.register.consumerLanes[r.consumer]? =
        (w.broker.consumers[r.consumer]?).map Consumer.lane :=
    List.getElem?_map ..
  rw [hlookup] at hconsumerLane
  obtain ⟨c, hc, hidle⟩ := Option.map_eq_some_iff.mp hconsumerLane
  obtain ⟨hlane, hcore⟩ := Broker.core_consume hc hidle n
  unfold consumeFor at h
  split at h
  · next b lane heq =>
    rw [heq] at hlane hcore
    obtain rfl : lane = w.broker.lanes.length := Except.ok.inj hlane
    obtain ⟨turn, hturn, hprofiledRuns, -⟩ := profiledRuns_answer h
    obtain ⟨hlt, -⟩ := List.getElem?_eq_some_iff.mp (getElem?_profiledRuns hr)
    have hlanes : w'.broker.lanes = w.broker.lanes ++ [Lane.start n c.limit] :=
      congrArg Core.lanes ((core_of_answer h).trans hcore)
    rw [hphase] at hturn
    obtain rfl := Option.some.inj hturn
    refine ⟨({ r with lane := w.broker.lanes.length } : WorkerRun).profiled.onto (.polling true),
      c.limit, ?_, rfl, ?_⟩
    · rw [hprofiledRuns]
      exact List.getElem?_set_self hlt
    · rw [hlanes]
      exact List.getElem?_concat_length ..
  · next b error heq =>
    rw [heq] at hlane
    cases hlane

/-- A run that handles messages did so before, or has just started its consumer. -/
theorem handling_before (h : w.occur e = some w') {q : ProfiledRun}
    (hq : w'.profiledRuns[n]? = some q) (hhandling : q.state.phase.IsHandling) :
    (∃ r, w.runs[n]? = some r ∧ r.phase.IsHandling) ∨
      ∃ limit, q.state.phase = .polling true ∧
      w'.broker.lanes[q.state.lane]? = some (Lane.start n limit) := by
  rcases (registerStep_of_occur h).handling_before hq hhandling with
    ⟨q₀, hq₀, hbefore⟩ | ⟨rfl, q₀, hq₀, hphase, hconsumerLane⟩
  · obtain ⟨r, hr, rfl⟩ := exists_of_profiledRuns hq₀
    exact .inl ⟨r, hr, hbefore⟩
  · obtain ⟨r, hr, rfl⟩ := exists_of_profiledRuns hq₀
    change w.stepRun n = some w' at h
    unfold stepRun at h
    rw [hr] at h
    change r.phase = .consuming at hphase
    simp only [hphase] at h
    obtain ⟨q', limit, hq', hpolling, hlane⟩ := lane_consumeFor hr hphase hconsumerLane h
    obtain rfl := Option.some.inj (hq'.symm.trans hq)
    exact .inr ⟨limit, hpolling, hlane⟩

/-- A run that is over with its streams stays so, and ends with the same result. -/
theorem outcome?_after (h : w.occur e = some w') (hr : w.runs[n]? = some r) {result : RunResult}
    (hresult : r.phase.outcome? = some result) :
    ∃ r', w'.runs[n]? = some r' ∧ r'.phase.outcome? = some result := by
  obtain ⟨q', hq', hresult'⟩ :=
    (registerStep_of_occur h).outcome?_after (getElem?_profiledRuns hr) hresult
  obtain ⟨r', hr', rfl⟩ := exists_of_profiledRuns hq'
  exact ⟨r', hr', hresult'⟩

end Worker

end Courier
