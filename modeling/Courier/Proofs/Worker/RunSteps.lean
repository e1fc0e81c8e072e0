import Courier.Proofs.Run.Surroundings
import Courier.Proofs.Worker.Settlement
import Courier.Proofs.Worker.RunState

/-!
# Steps of the last run

When runs follow one another, the transport is orderly, its core is well formed and the state of the
last run fits it. Then each small step of the run is a step of its state
(`Worker.lastSteps_stepRun`), and so are the end of its processor's work and the parts of letting go
of the streams.
-/

namespace Courier

namespace Core

variable {g g' : Core} {n : Nat} {f : Forwarder} {l : Lane}

theorem Alone.setLane (h : g.Alone n) (l : Lane) : (g.setLane n l).Alone n := fun i k hk hi =>
  h i k ((List.getElem?_set_ne (Ne.symm hi)).symm.trans hk) hi

/-- What else has become of a lane makes no difference to its slot. -/
theorem Empties.of_setLane {l₁ : Lane} (h : (g.setLane n l₁).Empties l₁ g' f)
    (hslot : l₁.slot = l.slot) (hforwarder : l₁.forwarder = l.forwarder) :
    ∃ g₁, g.Empties l g₁ f ∧ ∀ l', g'.setLane n l' = g₁.setLane n l' := by
  unfold Empties at h
  rw [hslot, hforwarder] at h
  rcases h with ⟨hnone, rfl, hf⟩ | ⟨hsome, hlength, hrest, hsign⟩
  · refine ⟨g, .inl ⟨hnone, rfl, hf⟩, fun l' => ?_⟩
    simp only [setLane, List.set_set]
  · refine ⟨{ g with returned := g'.returned, permit := g'.permit },
      .inr ⟨hsome, hlength, rfl, hsign⟩, fun l' => ?_⟩
    rw [hrest]
    simp only [setLane, List.set_set]

end Core

namespace Broker

variable {b : Broker} {n : Nat} {l : Lane}

/-! ## Letting go of a lane -/

/-- A reader that lets go of its streams, and of its forwarder, gives back what is in the slot. -/
theorem core_release {i : Nat} {c : Consumer} (hc : b.consumers[i]? = some c)
    (hlane : c.lane = some n) (hl : b.lanes[n]? = some l) (halone : b.core.Alone n) :
    ∃ g f, b.core.Empties l g f ∧
      (((b.dropErrors n).dropMessages n).abort i).core =
        ({ g with consumers := b.core.consumers.set i { c with lane := none } } : Core).setLane n
          { l with readsErrors := false, errorSlot := none, readsMessages := false, slot := none,
                   forwarder := f, aborted := true } := by
  let l₁ : Lane := { l with readsErrors := false, errorSlot := none }
  have hcore₁ : (b.dropErrors n).core = b.core.setLane n l₁ := core_dropErrors hl
  have hl₁ : (b.dropErrors n).core.lanes[n]? = some l₁ := by
    rw [hcore₁]
    exact Core.getElem?_setLane hl
  obtain ⟨g₁, f, hempties₁, hcore₂⟩ := core_dropMessages hl₁ (hcore₁ ▸ halone.setLane l₁)
  rw [hcore₁] at hempties₁
  obtain ⟨g, hempties, hsame⟩ := hempties₁.of_setLane (l := l) rfl rfl
  rw [hsame] at hcore₂
  have hrest := hempties.rest
  have hl₂ : ((b.dropErrors n).dropMessages n).core.lanes[n]? =
      some { l₁ with readsMessages := false, slot := none, forwarder := f } := by
    rw [hcore₂]
    exact Core.getElem?_setLane (l := l) (by rw [hrest]; exact hl)
  have hc₂ : ((b.dropErrors n).dropMessages n).core.consumers[i]? = some c := by
    rw [hcore₂, hrest]
    exact hc
  refine ⟨g, f, hempties, ?_⟩
  rw [core_abort hc₂ hlane hl₂, hcore₂, hrest]
  simp only [Core.setLane, Core.setConsumer, List.set_set]
  rfl

/-! ## Parts of the core in the contents -/

variable {accepted : List Parcel} {handed : List Delivery}

/-- The forwarders of all lanes but the one that messages stand in line for have ended. -/
theorem alone_of_lined (h : b.contents.Lined n accepted handed) : b.core.Alone n := by
  intro i l hl hi
  have hhandState : l.forwarder.handState = .ended :=
    (h.alone i l.contents (getElem?_lanes hl) hi).1
  cases hforwarder : l.forwarder <;> simp_all [Forwarder.handState]

/-- The forwarder of that lane waits for an envelope only if it has found no returned message. -/
theorem returned_of_lined (h : b.contents.Lined n accepted handed) (hl : b.lanes[n]? = some l)
    (hreads : l.readsMessages = true) (hawaiting : l.forwarder.isAwaitingNew) :
    b.core.returned = [] := by
  have hfits := h.fits
  rw [Contents.laneAt_of_some (getElem?_lanes hl)] at hfits
  refine hfits.waiting hreads ?_
  show l.forwarder.handState = .waiting
  cases hforwarder : l.forwarder <;> simp_all [Forwarder.isAwaitingNew, Forwarder.handState]

end Broker

namespace Worker

variable {w w' : Worker} {n : Nat} {accepted : List Parcel} {handed : List Delivery}
  {older : List WorkerRun} {r r' : WorkerRun}

/-- Whether the last run `r` takes a step that leads to `w'`. -/
def LastSteps (w : Worker) (older : List WorkerRun) (r : WorkerRun) (w' : Worker) : Prop :=
  ∃ r', w'.IsLast older r' ∧ r'.profile = r.profile ∧ r'.signal = r.signal ∧
    r.state.Steps r.profile r.signal.isStop w.broker.core w'.broker.core r'.state

theorem core_of_answer {b : Broker} {i : Nat} {a : Answer Delivery}
    (hanswer : (w.onto b).answer i r a = some w') : w'.broker.core = b.core := by
  obtain ⟨turn, -, rfl⟩ := Option.map_eq_some_iff.mp hanswer
  rfl

/-- A run that has got its answer has taken a step, if its next phase goes with what it has done
about the transport by then. -/
theorem IsLast.lastSteps_onto (h : w.IsLast older r) {w₁ : Worker} {a : Answer Delivery}
    {phase : Phase Delivery} (hanswer : w₁.answer older.length r' a = some w')
    (hruns : w₁.runs = w.runs) (b : Broker) (hphase : r'.phase = phase)
    (hprofile : r'.profile = r.profile) (hsignal : r'.signal = r.signal)
    (hsteps : ∀ turn, phase.step r.profile w₁.broker.now a = some turn →
      r.state.Steps r.profile r.signal.isStop w.broker.core b.core ⟨turn.phase, r'.consumer,
      r'.lane⟩) : w.LastSteps older r (w'.onto b) := by
  obtain ⟨turn, hturn, rfl⟩ := Option.map_eq_some_iff.mp hanswer
  rw [hphase, hprofile] at hturn
  have hprepare (q : WorkerRun) : q.prepare.profile = q.profile ∧ q.prepare.signal = q.signal ∧
      q.prepare.state = q.state := by
    unfold WorkerRun.prepare
    split <;> exact ⟨rfl, rfl, rfl⟩
  obtain ⟨hprofile', hsignal', hstate⟩ := hprepare (r'.take turn)
  refine ⟨(r'.take turn).prepare, ⟨?_, h.ended⟩, hprofile'.trans hprofile, hsignal'.trans hsignal,
    ?_⟩
  · show w₁.runs.modify older.length _ = _
    rw [hruns, h.runs, modify_length_append]
  · rw [hstate]
    exact hsteps turn hturn

theorem IsLast.lastSteps (h : w.IsLast older r) {b : Broker} {a : Answer Delivery}
    {phase : Phase Delivery} (hanswer : (w.onto b).answer older.length r' a = some w')
    (hphase : r'.phase = phase) (hprofile : r'.profile = r.profile) (hsignal : r'.signal = r.signal)
    (hsteps : ∀ turn, phase.step r.profile b.now a = some turn →
      r.state.Steps r.profile r.signal.isStop w.broker.core b.core ⟨turn.phase, r'.consumer,
      r'.lane⟩) : w.LastSteps older r w' := by
  refine h.lastSteps_onto hanswer rfl w'.broker hphase hprofile hsignal fun turn hturn => ?_
  rw [core_of_answer hanswer]
  exact hsteps turn hturn

/-! ## The steps of a run, one phase after the other -/

theorem IsLast.lastSteps_createFor (h : w.IsLast older r) {attempt : UInt32}
    (hphase : r.phase = .creating attempt) (hwf : w.broker.core.WellFormed)
    (hstep : w.createFor older.length r = some w') : w.LastSteps older r w' := by
  obtain ⟨hresult, hcore⟩ := Broker.core_create (b := w.broker) hwf.available
  unfold createFor at hstep
  split at hstep
  · next b consumer heq =>
    rw [heq] at hresult hcore
    obtain rfl := Except.ok.inj hresult
    refine h.lastSteps hstep hphase rfl rfl fun turn hturn => ?_
    obtain rfl := Option.some.inj hturn
    rw [show b.core = _ from hcore]
    exact .create hphase
  · next b error heq =>
    rw [heq] at hresult
    cases hresult

theorem IsLast.lastSteps_consumeFor (h : w.IsLast older r) (hphase : r.phase = .consuming)
    (hfits : r.state.Fits w.broker.core) (hstep : w.consumeFor older.length r = some w') :
    w.LastSteps older r w' := by
  simp only [RunState.Fits, WorkerRun.state, hphase] at hfits
  obtain ⟨c, hc, hidle⟩ := hfits
  obtain ⟨hresult, hcore⟩ := Broker.core_consume hc hidle older.length
  unfold consumeFor at hstep
  split at hstep
  · next b lane heq =>
    rw [heq] at hresult hcore
    obtain rfl := Except.ok.inj hresult
    refine h.lastSteps hstep hphase rfl rfl fun turn hturn => ?_
    obtain rfl := Option.some.inj hturn
    rw [show b.core = _ from hcore]
    exact .consume hphase hc
  · next b error heq =>
    rw [heq] at hresult
    cases hresult

theorem IsLast.lastSteps_pollFor (h : w.IsLast older r) {errorsOpen : Bool}
    (hphase : r.phase = .polling errorsOpen) (hfits : r.state.Fits w.broker.core)
    (hstep : w.pollFor older.length r errorsOpen = some w') : w.LastSteps older r w' := by
  simp only [RunState.Fits, WorkerRun.state, hphase] at hfits
  obtain ⟨-, l, hl, -⟩ := hfits
  unfold pollFor actOn at hstep
  split at hstep
  · cases hstep
  next choice hpick =>
  refine h.lastSteps hstep hphase rfl rfl fun turn hturn => ?_
  obtain rfl := Option.some.inj hturn
  rw [hpick]
  cases choice with
  | stop =>
    have hstop := View.pick_eq_stop.mp hpick
    exact .stop hphase ((Listener.poll_fst _ _).symm.trans hstop)
  | error cause =>
    obtain ⟨-, rfl, herror⟩ := View.pick_eq_error.mp hpick
    rw [takeChoice, Broker.core_takeError hl]
    exact .error hphase hl ((Broker.offeredError_eq_item hl).mp herror)
  | errorsEnded =>
    obtain ⟨-, rfl, hended⟩ := View.pick_eq_errorsEnded.mp hpick
    exact .errorsEnded hphase hl ((Broker.offeredError_eq_ended hl).mp hended).2
  | message d =>
    have hslot := (Broker.offeredMessage_eq_item hl).mp (View.pick_eq_message hpick)
    rw [takeChoice, Broker.core_takeMessage hl hslot]
    exact .message hphase hl hslot
  | messagesEnded =>
    obtain ⟨-, hmessages, -⟩ := View.pick_eq_messagesEnded.mp hpick
    obtain ⟨hslot, hended⟩ := (Broker.offeredMessage_eq_ended hl).mp hmessages
    exact .messagesEnded hphase hl hslot hended

theorem IsLast.lastSteps_settleFor (h : w.IsLast older r) {errorsOpen : Bool} {d : Delivery}
    {failure : Option String} (hphase : r.phase = .settling errorsOpen d failure)
    (hmatches : w.broker.contents.MatchesPhase n r.lane r.phase)
    (hstep : w.settleFor older.length r d failure = some w') : w.LastSteps older r w' := by
  rw [hphase] at hmatches
  refine h.lastSteps hstep hphase rfl rfl fun turn hturn => ?_
  rw [Broker.core_settle hmatches.1]
  cases failure with
  | none =>
    obtain rfl := Option.some.inj hturn
    exact .goOn hphase (.inl rfl)
  | some cause =>
    obtain rfl := Option.some.inj hturn
    unfold Phase.afterFailing
    cases hflow : r.profile.strategy.flow with
    | «continue» => exact .goOn hphase (.inr hflow)
    | exit => exact .giveUp hphase hflow

theorem IsLast.lastSteps_releaseFor (h : w.IsLast older r) {result : RunResult}
    (hphase : r.phase = .releasing result) (hwf : w.broker.core.WellFormed)
    (hfits : r.state.Fits w.broker.core) (halone : w.broker.core.Alone r.lane)
    (hstep : w.releaseFor older.length r = some w') : w.LastSteps older r w' := by
  simp only [RunState.Fits, WorkerRun.state, hphase] at hfits
  obtain ⟨⟨c, hc, hlane⟩, ⟨l, hl⟩, -⟩ := hfits
  refine h.lastSteps hstep hphase rfl rfl fun turn hturn => ?_
  obtain rfl := Option.some.inj hturn
  obtain ⟨g₁, f, hempties, hcore⟩ := Broker.core_release hc hlane hl halone
  rw [hcore]
  refine .release hphase hl hempties fun k hk => ?_
  rcases List.mem_or_eq_of_mem_set hk with hk | rfl
  · exact hwf.unlimited k hk
  · exact hwf.unlimited c (List.mem_of_getElem? hc)

/-- A run closes its consumer, and then drops it. -/
theorem IsLast.lastSteps_closeFor (h : w.IsLast older r) {result : RunResult}
    (hphase : r.phase = .closing result) (hwf : w.broker.core.WellFormed)
    (hstep : w.closeFor older.length r = some w') : w.LastSteps older r w' := by
  unfold closeFor at hstep
  split at hstep
  swap
  · cases hstep
  obtain ⟨w₁, hanswer, rfl⟩ := Option.map_eq_some_iff.mp hstep
  refine h.lastSteps_onto hanswer rfl _ hphase rfl rfl fun turn hturn => ?_
  obtain rfl := Option.some.inj hturn
  have hcore : w₁.broker.core = w.broker.close.core := core_of_answer hanswer
  rw [Broker.core_dropConsumer, hcore]
  refine .close hphase fun c hc => ?_
  obtain ⟨i, hi⟩ := List.mem_iff_getElem?.mp hc
  rw [List.getElem?_modify] at hi
  obtain ⟨k, hk, rfl⟩ := Option.map_eq_some_iff.mp hi
  have hlimit := hwf.unlimited k (List.mem_of_getElem? hk)
  split <;> exact hlimit

/-! ## Any step -/

theorem IsLast.getElem?_length (h : w.IsLast older r) : w.runs[older.length]? = some r := by
  rw [h.runs]
  simp

/-- A small step of the last run is a step of its state, unless its processor has a message. -/
theorem IsLast.lastSteps_stepRun (h : w.IsLast older r) (horderly : w.Orderly n accepted handed)
    (hmatches : w.broker.contents.MatchesPhase n r.lane r.phase) (hwf : w.broker.core.WellFormed)
    (hfits : r.state.Fits w.broker.core) (hphase : ∀ e d t, r.phase ≠ .processing e d t)
    (hstep : w.stepRun older.length = some w') : w.LastSteps older r w' := by
  unfold stepRun at hstep
  rw [h.getElem?_length] at hstep
  cases hcase : r.phase with
  | creating attempt =>
    simp only [hcase] at hstep
    exact h.lastSteps_createFor hcase hwf hstep
  | retrying attempt deadline =>
    simp only [RunState.Fits, WorkerRun.state, hcase] at hfits
  | consuming =>
    simp only [hcase] at hstep
    exact h.lastSteps_consumeFor hcase hfits hstep
  | polling errorsOpen =>
    simp only [hcase] at hstep
    exact h.lastSteps_pollFor hcase hfits hstep
  | processing errorsOpen d since => exact absurd hcase (hphase errorsOpen d since)
  | settling errorsOpen d failure =>
    simp only [hcase] at hstep
    exact h.lastSteps_settleFor hcase hmatches hstep
  | releasing result =>
    simp only [hcase] at hstep
    rw [hcase] at hmatches
    exact h.lastSteps_releaseFor hcase hwf hfits
      (hmatches.2 ▸ Broker.alone_of_lined horderly.lined) hstep
  | closing result =>
    simp only [hcase] at hstep
    exact h.lastSteps_closeFor hcase hwf hstep
  | stopped result =>
    simp only [hcase] at hstep
    cases hstep

/-- A processor that is done with its message leaves it to the run to settle it. -/
theorem IsLast.lastSteps_finishFor (h : w.IsLast older r) {errorsOpen : Bool} {d : Delivery}
    {since : Nat} {result : Except String Unit} (hphase : r.phase = .processing errorsOpen d since)
    (hstep : w.finishFor older.length result = some w') :
    ∃ r', w'.IsLast older r' ∧ r'.profile = r.profile ∧ r'.signal = r.signal ∧
      r'.state = { r.state with phase := .settling errorsOpen d (failure? result) } ∧
      w'.broker.core = w.broker.core := by
  unfold finishFor at hstep
  rw [h.getElem?_length] at hstep
  simp only [hphase] at hstep
  obtain ⟨turn, hturn, rfl⟩ := Option.map_eq_some_iff.mp hstep
  rw [hphase] at hturn
  obtain rfl := Option.some.inj hturn
  let turn := Phase.afterProcess r.profile (.ofMillis (w.broker.now - since)) errorsOpen d result
  refine ⟨(r.take turn).prepare, ⟨?_, h.ended⟩, ?_, ?_, ?_, rfl⟩
  · show w.runs.modify older.length _ = _
    rw [h.runs, modify_length_append]
  all_goals cases result <;> rfl

/-- A run that is over with its streams may let go of the errors first. -/
theorem IsLast.lastSteps_dropErrors (h : w.IsLast older r) {result : RunResult} {l : Lane}
    (hphase : r.phase = .releasing result) (hl : w.broker.lanes[r.lane]? = some l)
    (hreads : l.readsErrors = true) (hstep : w.letGo older.length Broker.dropErrors = some w') :
    w.LastSteps older r w' := by
  unfold letGo at hstep
  rw [h.getElem?_length] at hstep
  simp only [hphase] at hstep
  obtain rfl := Option.some.inj hstep
  refine ⟨r, ⟨h.runs, h.ended⟩, rfl, rfl, ?_⟩
  show r.state.Steps _ _ _ (w.broker.dropErrors r.lane).core _
  rw [Broker.core_dropErrors hl]
  exact .dropErrors hphase hl hreads

/-- It may let go of the messages then, and has not gone on yet. -/
theorem IsLast.lastSteps_dropMessages (h : w.IsLast older r) {result : RunResult} {l : Lane}
    (hphase : r.phase = .releasing result) (hl : w.broker.lanes[r.lane]? = some l)
    (hreads : l.readsMessages = true) (halone : w.broker.core.Alone r.lane)
    (hstep : w.letGo older.length Broker.dropMessages = some w') : w.LastSteps older r w' := by
  unfold letGo at hstep
  rw [h.getElem?_length] at hstep
  simp only [hphase] at hstep
  obtain rfl := Option.some.inj hstep
  obtain ⟨g, f, hempties, hcore⟩ := Broker.core_dropMessages hl halone
  refine ⟨r, ⟨h.runs, h.ended⟩, rfl, rfl, ?_⟩
  show r.state.Steps _ _ _ (w.broker.dropMessages r.lane).core _
  rw [hcore]
  exact .dropMessages hphase hl hreads hempties

end Worker

end Courier
