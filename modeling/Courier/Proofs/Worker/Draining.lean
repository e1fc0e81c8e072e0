import Courier.Proofs.Worker.Drain

/-!
# What happens to a drain

Whatever happens next to a component that is run again and again while a task publishes, a drain
that is sound stays so (`Drain.Sound.step`). There is one lemma for each thing that can happen.
Three of them carry the others: `Drain.Sound.onto` is about what is done to the transport alone,
`Drain.Sound.steps` about what the last run does, and `Drain.Sound.signal` about signals.
-/

namespace Courier

namespace Core

/-- Sending an envelope changes nothing else. -/
theorem enqueue_eq (g : Core) (e : Envelope) :
    ∃ incoming blocked, g.enqueue e = { g with incoming := incoming, blocked := blocked } := by
  unfold enqueue
  split <;> exact ⟨_, _, rfl⟩

end Core

namespace Drain

variable {p : Profile} {may : Delivery → Except String Unit → Prop} {script : List Item}
  {stops n : Nat} {x x' : Drain} {accepted : List Parcel}

namespace Sound

/-! ## What is done about the transport -/

/-- What is done about the transport alone. -/
theorem onto (h : x.Sound p may script stops n accepted) {b : Broker} {rest : List Item} {m : Nat}
    {accepted' : List Parcel}
    (horderly : (x.worker.onto b).Orderly m accepted'
      (x.judged.map Prod.fst ++ x.worker.state.phase.inProcess))
    (hpublished : accepted' ++ b.core.waiting ++ parcelsFrom b.core.nextSeq rest =
      accepted ++ x.core.waiting ++ parcelsFrom x.core.nextSeq x.script)
    (hdone : b.core.publishers = 0 → rest = []) (hwf : b.core.WellFormed)
    (hfits : x.worker.state.Fits b.core) (houtcomes : b.core.outcomes = x.core.outcomes)
    (hfaults : b.core.faults + rest.countP Item.isError ≤
      x.core.faults + x.script.countP Item.isError) :
    ({ x with worker := x.worker.onto b, script := rest } : Drain).Sound p may script stops m
      accepted' where
  cutShort := h.cutShort
  profile := h.profile
  orderly := horderly
  published := hpublished.trans h.published
  scriptDone := hdone
  wellFormed := hwf
  fits := hfits
  tallies := by
    show Phase.Tallies p x.judged b.core.outcomes x.worker.state.phase
    rw [houtcomes]
    exact h.tallies
  allowed := h.allowed
  stopped := h.stopped
  stops_le := h.stops_le
  errors_le := by
    have herrors := h.errors_le
    show (x.worker.states.countP fun s => s.phase.meetsError) + b.core.faults +
      rest.countP Item.isError ≤ _
    omega
  failures_le := h.failures_le

/-- Time may pass. -/
theorem atTime (h : x.Sound p may script stops n accepted) (now : Nat) :
    (x.atTime now).Sound p may script stops n accepted := by
  have hcore : (x.worker.broker.setClock now).core = x.core := Broker.core_setClock _ now
  refine h.onto (h.orderly.of_eq (Broker.contents_setClock _ now) rfl) ?_ ?_ ?_ ?_ ?_ ?_
  all_goals rw [hcore]
  · exact h.scriptDone
  · exact h.wellFormed
  · exact h.fits

/-- As long as the task has something to publish there are publishers. -/
theorem publishers_ne_zero (h : x.Sound p may script stops n accepted) {item : Item}
    {rest : List Item} (hscript : x.script = item :: rest) : x.core.publishers ≠ 0 := by
  intro hnone
  rw [h.scriptDone hnone] at hscript
  cases hscript

/-- An item of the script is sent. -/
theorem send (h : x.Sound p may script stops n accepted) {item : Item} {rest : List Item}
    {b : Broker} {g : Core} {e : Envelope} {m : Nat} {accepted' : List Parcel}
    (hscript : x.script = item :: rest) (hcore : b.core = g.enqueue e)
    (hg : g = { x.core with nextSeq := g.nextSeq }) (hfaults : e.faults = item.isError.toNat)
    (horderly : (x.worker.onto b).Orderly m accepted' (x.judged.map Prod.fst ++
      x.worker.state.phase.inProcess))
    (hpublished : accepted' ++ b.core.waiting ++ parcelsFrom b.core.nextSeq rest =
      accepted ++ x.core.waiting ++ parcelsFrom x.core.nextSeq x.script) :
    ({ x with worker := x.worker.onto b, script := rest } : Drain).Sound p may script stops m
      accepted' := by
  have hpublishers := h.publishers_ne_zero hscript
  have hwf : g.WellFormed := by
    rw [hg]
    exact ⟨h.wellFormed.1, h.wellFormed.2, h.wellFormed.3, h.wellFormed.4, h.wellFormed.5,
      h.wellFormed.6, h.wellFormed.7⟩
  have hsame : g.faults = x.core.faults := by
    rw [hg]
    rfl
  have hweight : (g.enqueue e).faults ≤ g.faults + e.faults := Core.weight_enqueue .faults g e
  have hcount : x.script.countP Item.isError = rest.countP Item.isError + item.isError.toNat := by
    rw [hscript, List.countP_cons]
    cases item.isError <;> rfl
  obtain ⟨incoming, blocked, henqueue⟩ := Core.enqueue_eq g e
  have hrest : b.core = { x.core with
      nextSeq := g.nextSeq, incoming := incoming, blocked := blocked } := by
    rw [hcore, henqueue, hg]
  refine h.onto horderly hpublished ?_ (hcore ▸ hwf.enqueue e) ?_ ?_ ?_
  · rw [hrest]
    exact fun hnone => absurd hnone hpublishers
  · rw [hrest]
    exact h.fits.publishing hpublishers rfl rfl
  · rw [hrest]
  · rw [hcore, hcount]
    omega

/-- The task has room, and publishes an item. -/
theorem publish (h : x.Sound p may script stops n accepted) {item : Item} {rest : List Item}
    {w : Worker} (hscript : x.script = item :: rest) (hfree : x.worker.broker.blocked = [])
    (hstep : x.worker.apply item.event = some w) :
    ∃ m accepted', ({ x with worker := w, script := rest } : Drain).Sound p may script stops m
      accepted' := by
  have hwaiting : x.core.waiting = [] := by
    show (x.worker.broker.blocked.map Prod.snd).filterMap _ = []
    rw [hfree]
    rfl
  obtain ⟨m, horderly⟩ := h.orderly.apply hstep
  cases item with
  | message id payload =>
    obtain rfl := Option.some.inj hstep
    obtain ⟨haccepted, hnext⟩ := Broker.waiting_publish h.wellFormed.kept hfree id payload
    change Worker.Orderly _ m (_ ++ x.worker.broker.published id payload) (_ ++ []) at horderly
    rw [List.append_nil] at horderly
    refine ⟨m, _, h.send hscript (Broker.core_publish h.wellFormed.kept id payload) rfl rfl horderly
      ?_⟩
    rw [hscript, hwaiting, hnext, List.append_assoc accepted, haccepted, List.append_nil,
      List.append_assoc]
    rfl
  | error text =>
    obtain rfl := Option.some.inj hstep
    obtain ⟨hsame, hnext⟩ := Broker.waiting_fail x.worker.broker text
    change Worker.Orderly _ m (_ ++ []) (_ ++ []) at horderly
    rw [List.append_nil, List.append_nil] at horderly
    refine ⟨m, _, h.send hscript (Broker.core_send h.wellFormed.kept (.error text)) rfl rfl horderly
      ?_⟩
    rw [hscript, hsame, hnext]
    rfl

/-- The task has published everything, and drops a publisher. -/
theorem leave (h : x.Sound p may script stops n accepted) {w : Worker} (hscript : x.script = [])
    (hpublishers : x.worker.broker.publishers ≠ 0)
    (hstep : x.worker.apply .dropPublisher = some w) :
    ∃ m accepted', ({ x with worker := w } : Drain).Sound p may script stops m accepted' := by
  obtain rfl := Option.some.inj hstep
  have hcore := Broker.core_dropPublisher x.worker.broker
  refine ⟨n, accepted,
    h.onto (h.orderly.of_eq (Broker.contents_dropPublisher _) rfl) ?_ ?_ ?_ ?_ ?_ ?_⟩
  all_goals rw [hcore]
  · rfl
  · exact fun _ => hscript
  · exact ⟨h.wellFormed.1, h.wellFormed.2, h.wellFormed.3, h.wellFormed.4, h.wellFormed.5,
      h.wellFormed.6, h.wellFormed.7⟩
  · exact h.fits.publishing hpublishers rfl rfl
  · rfl
  · show _ ≤ x.worker.broker.core.faults + _
    simp only [Core.faults, Core.weight, Weights.faults]
    omega

/-- The forwarder of the lane in use does something. -/
theorem forwards (h : x.Sound p may script stops n accepted) {b : Broker} {i : Nat} {l : Lane}
    (hl : x.worker.broker.lanes[n]? = some l)
    (hforwards : Contents.Forwards i x.worker.broker.contents b.contents)
    (hforward : x.core.ForwarderStep n l b.core) :
    ({ x with worker := x.worker.onto b } : Drain).Sound p may script stops n
      (accepted ++ x.worker.broker.contents.admitted b.contents) := by
  obtain ⟨l', hrest, hbegun, -⟩ := hforward.only
  have hwaiting := Contents.admitted_append_waiting hforwards h.orderly.lined.numbered
  rw [Broker.waiting_contents, Broker.waiting_contents] at hwaiting
  refine h.onto (h.orderly.forwards hforwards) ?_ ?_ (h.wellFormed.forwarderStep hl hforward)
    ?_ ?_ ?_
  · have hnext : b.core.nextSeq = x.core.nextSeq := by rw [hrest]
    rw [List.append_assoc accepted, hwaiting, hnext]
    rfl
  · rw [hrest]
    exact h.scriptDone
  · exact h.fits.forwarderStep (h.orderly.lane_of_begun hl hbegun) hl
      hforward fun hreads hawaiting =>
      Broker.returned_of_lined h.orderly.lined hl hreads hawaiting
  · rw [hrest]
  · have hfaults := hforward.faults_le hl
    omega

/-- A forwarder has a turn that does not come to nothing. -/
theorem forward (h : x.Sound p may script stops n accepted) {lane : Nat} {favourNew : Bool}
    {w : Worker}
    (hstep : x.worker.apply (.forward lane favourNew) = some w ∨
      x.worker.apply (.overrun lane favourNew) = some w) (hchange : w.broker ≠ x.worker.broker) :
    ∃ accepted', ({ x with worker := w } : Drain).Sound p may script stops n accepted' := by
  have halone := Broker.alone_of_lined h.orderly.lined
  rcases hstep with hstep | hstep
  · obtain rfl := Option.some.inj hstep
    obtain ⟨l, hl, hforward⟩ :=
      Broker.forwarderStep_of_ne halone h.wellFormed.noLimit (.inl rfl) hchange
    exact ⟨_, h.forwards hl (Broker.forwards_advance _ lane favourNew) hforward⟩
  · obtain rfl := Option.some.inj hstep
    obtain ⟨l, hl, hforward⟩ :=
      Broker.forwarderStep_of_ne halone h.wellFormed.noLimit (.inr rfl) hchange
    exact ⟨_, h.forwards hl (Broker.forwards_overrun _ lane favourNew) hforward⟩

/-! ## What the last run does -/

/-- The last run takes a step. -/
theorem steps (h : x.Sound p may script stops n accepted) {older : List WorkerRun}
    {r r' : WorkerRun} {w : Worker} {judged : List (Delivery × Except String Unit)} {m : Nat}
    (hlast : x.worker.IsLast older r) (hlast' : w.IsLast older r')
    (hprofile : r'.profile = r.profile) (hsignal : r'.signal = r.signal)
    (hsteps : r.state.Steps r.profile r.signal.isStop x.core w.broker.core r'.state)
    (horderly : w.Orderly m accepted (judged.map Prod.fst ++ r'.phase.inProcess))
    (htallies : r'.phase.Tallies p judged w.broker.core.outcomes)
    (hallowed : ∀ c ∈ judged, may c.1 c.2)
    (hfailures : (r'.phase.meetsFailure p).toNat + fatalFailures p x.judged ≤
      (r.phase.meetsFailure p).toNat + fatalFailures p judged) :
    ({ x with worker := w, judged := judged } : Drain).Sound p may script stops m accepted := by
  obtain ⟨hpublishers, hblocked, hnext⟩ := hsteps.publishing_eq
  have hstate := hlast.state_eq
  have hstate' := hlast'.state_eq
  have hcount (f : RunState → Bool) {w : Worker} {r : WorkerRun} (hlast : w.IsLast older r) :
      w.states.countP f = (older.map WorkerRun.state).countP f + (f r.state).toNat := by
    rw [hlast.states_eq, List.countP_append, List.countP_singleton]
    cases f r.state <;> rfl
  -- All runs but the last one are as before.
  have hruns {motive : WorkerRun → Prop} (hall : ∀ q ∈ x.worker.runs, motive q)
      (hnew : motive r → motive r') : ∀ q ∈ w.runs, motive q := by
    rw [hlast.runs, List.forall_mem_append, List.forall_mem_singleton] at hall
    rw [hlast'.runs, List.forall_mem_append, List.forall_mem_singleton]
    exact ⟨hall.1, hnew hall.2⟩
  constructor
  case cutShort =>
    have hcut := h.cutShort
    rw [hlast.states_eq, List.dropLast_concat] at hcut
    show ∀ s ∈ w.states.dropLast, _
    rw [hlast'.states_eq, List.dropLast_concat]
    exact hcut
  case profile => exact hruns h.profile fun hp => hprofile.trans hp
  case orderly =>
    show w.Orderly m accepted (judged.map Prod.fst ++ w.state.phase.inProcess)
    rw [hstate']
    exact horderly
  case published =>
    have hwaiting : w.broker.core.waiting = x.core.waiting := by
      rw [Core.waiting, hblocked, Core.waiting]
    show accepted ++ w.broker.core.waiting ++ parcelsFrom w.broker.core.nextSeq x.script = _
    rw [hwaiting, hnext]
    exact h.published
  case scriptDone => exact fun hnone => h.scriptDone (hpublishers.symm.trans hnone)
  case wellFormed => exact hsteps.wellFormed h.wellFormed
  case fits =>
    show w.state.Fits w.broker.core
    rw [hstate']
    exact hsteps.fits (hstate ▸ h.fits)
  case tallies =>
    show w.state.phase.Tallies p judged w.broker.core.outcomes
    rw [hstate']
    exact htallies
  case allowed => exact hallowed
  case stopped =>
    refine hruns h.stopped fun hbefore hok => ?_
    rw [hsignal]
    exact hsteps.stop_of_outcome? hbefore hok
  case stops_le =>
    have hstops := h.stops_le
    have hsame : (w.runs.countP fun q => q.signal.isStop) =
        x.worker.runs.countP fun q => q.signal.isStop := by
      rw [hlast'.runs, hlast.runs, List.countP_append, List.countP_append, List.countP_singleton,
        List.countP_singleton, hsignal]
    rwa [← hsame] at hstops
  case errors_le =>
    have herrors := h.errors_le
    have hfaults := hsteps.faults_le
    rw [hcount (fun s => s.phase.meetsError) hlast] at herrors
    show (w.states.countP fun s => s.phase.meetsError) + w.broker.core.faults + _ ≤ _
    rw [hcount (fun s => s.phase.meetsError) hlast']
    simp only at herrors ⊢
    omega
  case failures_le =>
    have hmet := h.failures_le
    rw [hcount (fun s => s.phase.meetsFailure p) hlast] at hmet
    show (w.states.countP fun s => s.phase.meetsFailure p) ≤ fatalFailures p judged
    rw [hcount (fun s => s.phase.meetsFailure p) hlast']
    change _ + (r.phase.meetsFailure p).toNat ≤ _ at hmet
    change _ + (r'.phase.meetsFailure p).toNat ≤ _
    omega

/-- The last run takes a step that is not its processor's. -/
theorem lastSteps (h : x.Sound p may script stops n accepted) {older : List WorkerRun}
    {r : WorkerRun} {w : Worker} {m : Nat} (hlast : x.worker.IsLast older r)
    (hphase : ∀ e d t, r.phase ≠ .processing e d t) (hlastSteps : x.worker.LastSteps older r w)
    (horderly : w.Orderly m accepted (x.judged.map Prod.fst ++ x.worker.state.phase.inProcess ++
      x.worker.handsOver older.length w)) :
    ({ x with worker := w } : Drain).Sound p may script stops m accepted := by
  obtain ⟨r', hlast', hprofile, hsignal, hsteps⟩ := hlastSteps
  have hp : r.profile = p := h.profile r hlast.mem
  obtain ⟨hbefore, hafter⟩ := hsteps.inProcess_eq hphase
  have htallies := h.tallies
  rw [hlast.state_eq] at htallies horderly
  rw [hbefore, List.append_nil, hlast.handsOver_eq hlast'] at horderly
  refine h.steps hlast hlast' hprofile hsignal hsteps ?_ ?_ h.allowed ?_
  · rw [show r'.phase.inProcess = _ from hafter]
    exact horderly
  · rw [hp] at hsteps
    exact hsteps.tallies hphase htallies
  · rw [hp] at hsteps
    exact Nat.add_le_add_right (hsteps.meetsFailure_le hphase) _

/-- The run that goes on is the last one. -/
theorem lastSteps_run (h : x.Sound p may script stops n accepted) {i : Nat} {w : Worker}
    (hphase : ∀ r, x.worker.runs[i]? = some r → ∀ e d t, r.phase ≠ .processing e d t)
    (hstep : x.worker.apply (.run i) = some w) :
    ∃ older r, x.worker.IsLast older r ∧ i = older.length ∧ (∀ e d t, r.phase ≠ .processing e d t) ∧
      x.worker.LastSteps older r w := by
  change x.worker.stepRun i = some w at hstep
  cases hr : x.worker.runs[i]? with
  | none =>
    rw [Worker.stepRun, hr] at hstep
    cases hstep
  | some r =>
    have hactive : r.phase.result? = none := by
      rw [Worker.stepRun, hr] at hstep
      cases hcase : r.phase with
      | stopped =>
        simp only [hcase] at hstep
        cases hstep
      | _ => rfl
    obtain ⟨older, hlast, rfl, hmatches⟩ := h.orderly.isLast_of_active hr hactive
    have hfits := h.fits
    rw [hlast.state_eq] at hfits
    exact ⟨older, r, hlast, rfl, hphase r hr,
      hlast.lastSteps_stepRun h.orderly hmatches h.wellFormed hfits (hphase r hr) hstep⟩

/-- A run goes on, while its processor has no message. -/
theorem run (h : x.Sound p may script stops n accepted) {i : Nat} {w : Worker}
    (hphase : ∀ r, x.worker.runs[i]? = some r → ∀ e d t, r.phase ≠ .processing e d t)
    (hstep : x.worker.apply (.run i) = some w) :
    ∃ m, ({ x with worker := w } : Drain).Sound p may script stops m accepted := by
  obtain ⟨m, horderly⟩ := h.orderly.apply hstep
  obtain ⟨older, r, hlast, rfl, hother, hlastSteps⟩ := h.lastSteps_run hphase hstep
  change w.Orderly m (accepted ++ []) _ at horderly
  rw [List.append_nil] at horderly
  exact ⟨m, h.lastSteps hlast hother hlastSteps horderly⟩

/-- A run that lets go of a part of its streams is over with them. -/
theorem releasing_of_letGo {i : Nat} {r : WorkerRun} {f : Broker → Nat → Broker} {w w' : Worker}
    (hr : w.runs[i]? = some r) (hstep : w.letGo i f = some w') :
    ∃ result, r.phase = .releasing result := by
  rw [Worker.letGo, hr] at hstep
  cases hcase : r.phase with
  | releasing result => exact ⟨result, rfl⟩
  | _ =>
    simp only [hcase] at hstep
    cases hstep

/-- The run that lets go of the errors is the last one. -/
theorem lastSteps_dropErrors (h : x.Sound p may script stops n accepted) {i : Nat} {r : WorkerRun}
    {l : Lane} {w : Worker} (hr : x.worker.runs[i]? = some r)
    (hl : x.worker.broker.lanes[r.lane]? = some l) (hreads : l.readsErrors = true)
    (hstep : x.worker.apply (.dropErrors i) = some w) :
    ∃ older result, x.worker.IsLast older r ∧ r.phase = .releasing result ∧
      x.worker.LastSteps older r w := by
  obtain ⟨result, hphase⟩ := releasing_of_letGo hr hstep
  obtain ⟨older, hlast, rfl, -⟩ := h.orderly.isLast_of_active hr (by rw [hphase]; rfl)
  exact ⟨older, result, hlast, hphase, hlast.lastSteps_dropErrors hphase hl hreads hstep⟩

/-- So is the run that lets go of the messages. -/
theorem lastSteps_dropMessages (h : x.Sound p may script stops n accepted) {i : Nat} {r : WorkerRun}
    {l : Lane} {w : Worker} (hr : x.worker.runs[i]? = some r)
    (hl : x.worker.broker.lanes[r.lane]? = some l) (hreads : l.readsMessages = true)
    (hstep : x.worker.apply (.dropMessages i) = some w) :
    ∃ older result, x.worker.IsLast older r ∧ r.phase = .releasing result ∧
      x.worker.LastSteps older r w := by
  obtain ⟨result, hphase⟩ := releasing_of_letGo hr hstep
  obtain ⟨older, hlast, rfl, hmatches⟩ := h.orderly.isLast_of_active hr (by rw [hphase]; rfl)
  rw [hphase] at hmatches
  have halone := Broker.alone_of_lined h.orderly.lined
  rw [← hmatches.2] at halone
  exact ⟨older, result, hlast, hphase, hlast.lastSteps_dropMessages hphase hl hreads halone hstep⟩

/-- A run that is over with its streams lets go of a part of them. -/
theorem letGo (h : x.Sound p may script stops n accepted) {older : List WorkerRun} {r : WorkerRun}
    {result : RunResult} {w : Worker} (hlast : x.worker.IsLast older r)
    (hphase : r.phase = .releasing result) (hlastSteps : x.worker.LastSteps older r w)
    (horderly : w.Orderly n accepted (x.judged.map Prod.fst ++ x.worker.state.phase.inProcess)) :
    ({ x with worker := w } : Drain).Sound p may script stops n accepted := by
  refine h.lastSteps hlast (by simp [hphase]) hlastSteps ?_
  rw [hlast.handsOver_eq_nil (by simp [hphase]), List.append_nil]
  exact horderly

/-- It lets go of the errors. -/
theorem dropErrors (h : x.Sound p may script stops n accepted) {i : Nat} {r : WorkerRun} {l : Lane}
    {w : Worker} (hr : x.worker.runs[i]? = some r) (hl : x.worker.broker.lanes[r.lane]? = some l)
    (hreads : l.readsErrors = true) (hstep : x.worker.apply (.dropErrors i) = some w) :
    ({ x with worker := w } : Drain).Sound p may script stops n accepted := by
  obtain ⟨older, result, hlast, hphase, hlastSteps⟩ := h.lastSteps_dropErrors hr hl hreads hstep
  exact h.letGo hlast hphase hlastSteps
    (h.orderly.letGo hstep (.inl (Broker.contents_dropErrors _ n)))

/-- It lets go of the messages. -/
theorem dropMessages (h : x.Sound p may script stops n accepted) {i : Nat} {r : WorkerRun}
    {l : Lane} {w : Worker} (hr : x.worker.runs[i]? = some r)
    (hl : x.worker.broker.lanes[r.lane]? = some l) (hreads : l.readsMessages = true)
    (hstep : x.worker.apply (.dropMessages i) = some w) :
    ({ x with worker := w } : Drain).Sound p may script stops n accepted := by
  obtain ⟨older, result, hlast, hphase, hlastSteps⟩ := h.lastSteps_dropMessages hr hl hreads hstep
  exact h.letGo hlast hphase hlastSteps
    (h.orderly.letGo hstep (.inr (Broker.contents_dropMessages _ n)))

/-- The processor of a run is done with its message. -/
theorem finish (h : x.Sound p may script stops n accepted) {i since : Nat} {r : WorkerRun}
    {errorsOpen : Bool} {d : Delivery} {result : Except String Unit} {w : Worker}
    (hr : x.worker.runs[i]? = some r) (hphase : r.phase = .processing errorsOpen d since)
    (hmay : may d result) (hstep : x.worker.apply (.finish i result) = some w) :
    ∃ m, ({ x with worker := w, judged := x.judged ++ [(d, result)] } : Drain).Sound p may script
      stops m accepted := by
  obtain ⟨older, hlast, rfl, -⟩ := h.orderly.isLast_of_active hr (by rw [hphase]; rfl)
  obtain ⟨r', hlast', hprofile, hsignal, hstate, hcore⟩ := hlast.lastSteps_finishFor hphase hstep
  obtain ⟨m, horderly⟩ := h.orderly.apply hstep
  have hphase' : r'.phase = .settling errorsOpen d (failure? result) :=
    congrArg RunState.phase hstate
  have htallies := h.tallies
  rw [hlast.state_eq] at htallies horderly
  change w.Orderly m (accepted ++ []) (_ ++ r.phase.inProcess ++ []) at horderly
  change r.phase.Tallies _ _ _ at htallies
  rw [List.append_nil, List.append_nil, hphase] at horderly
  rw [hphase] at htallies
  refine ⟨m, h.steps hlast hlast' hprofile hsignal ?_ ?_ ?_ ?_ ?_⟩
  · rw [hstate, hcore]
    exact .finish hphase
  · rw [hphase', List.map_append]
    show w.Orderly m accepted (_ ++ [d] ++ [])
    rw [List.append_nil]
    exact horderly
  · rw [hphase', hcore]
    exact ⟨x.judged, result, rfl, rfl, htallies⟩
  · rw [List.forall_mem_append, List.forall_mem_singleton]
    exact ⟨h.allowed, hmay⟩
  · rw [hphase', fatalFailures, fatalFailures, List.countP_append, List.countP_singleton]
    cases hfailure : failure? result with
    | none =>
      simp [Phase.meetsFailure]
    | some cause =>
      by_cases hstrategy : p.strategy = .nackExit
      · simp [Phase.meetsFailure, FailStrategy.flow_eq_exit_iff, hstrategy, Nat.add_comm]
      · simp [Phase.meetsFailure, FailStrategy.flow_eq_exit_iff, hstrategy]

/-! ## Runs that start -/

/-- All runs but the last one were cut short. -/
theorem cutShort_run (h : x.Sound p may script stops n accepted) {q : WorkerRun}
    (hq : q ∈ x.worker.runs.dropLast) :
    ∃ result, q.phase.result? = some result ∧ CutShort result := by
  refine h.cutShort q.state ?_
  rw [Worker.states, ← List.map_dropLast]
  exact List.mem_map_of_mem hq

theorem isLast (h : x.Sound p may script stops n accepted) {older : List WorkerRun} {r : WorkerRun}
    (hruns : x.worker.runs = older ++ [r]) : x.worker.IsLast older r := by
  refine ⟨hruns, fun q hq => ?_⟩
  obtain ⟨result, hresult, -⟩ :=
    h.cutShort_run (q := q) (by rw [hruns, List.dropLast_concat]; exact hq)
  exact Option.isSome_of_eq_some hresult

theorem eq_nil_or_isLast (h : x.Sound p may script stops n accepted) :
    x.worker.runs = [] ∨ ∃ older r, x.worker.IsLast older r := by
  rcases List.eq_nil_or_concat x.worker.runs with hruns | ⟨older, r, hruns⟩
  · exact .inl hruns
  · rw [List.concat_eq_append] at hruns
    exact .inr ⟨older, r, h.isLast hruns⟩

/-- When the component is to be run once more, all its runs were cut short. -/
theorem cutShort_of_isIdle (h : x.Sound p may script stops n accepted) (hidle : x.worker.isIdle)
    (hagain : ∀ r, x.worker.runs.getLast? = some r →
      r.phase.result? ≠ some (.error .streamClosed)) :
    ∀ s ∈ x.worker.states, ∃ result, s.phase.result? = some result ∧ CutShort result := by
  rcases h.eq_nil_or_isLast with hruns | ⟨older, r, hlast⟩
  · rw [Worker.states, hruns]
    exact fun s hs => absurd hs List.not_mem_nil
  · have hcut := h.cutShort
    have hfits := h.fits
    rw [hlast.states_eq, List.dropLast_concat] at hcut
    rw [hlast.state_eq] at hfits
    rw [hlast.states_eq, List.forall_mem_append, List.forall_mem_singleton]
    refine ⟨hcut, ?_⟩
    have hopen := hagain r (by rw [hlast.runs, List.getLast?_concat])
    cases hphase : r.phase with
    | stopped result =>
      rw [hphase] at hopen
      simp only [RunState.Fits, WorkerRun.state, hphase] at hfits
      refine ⟨result, congrArg Phase.result? hphase, ?_⟩
      exact cutShort_of_allowsResult hfits fun hclosed => hopen (congrArg some hclosed)
    | _ =>
      have hended : r.phase.result?.isSome := List.all_eq_true.mp hidle r hlast.mem
      rw [hphase] at hended
      cases hended

/-- When no run is in progress, no processor has a message, and all settlements were made. -/
theorem rests_of_cutShort (h : x.Sound p may script stops n accepted)
    (hcut : ∀ s ∈ x.worker.states, ∃ result, s.phase.result? = some result ∧ CutShort result) :
    x.worker.state.phase.inProcess = [] ∧ x.core.outcomes = x.judged.map (outcomeOf p) := by
  have htallies := h.tallies
  have hphase : (∃ result, x.worker.state.phase = .stopped result) ∨
      x.worker.state.phase = .creating 1 := by
    rw [Worker.state]
    cases hstate : x.worker.states.getLast? with
    | none => exact .inr rfl
    | some s =>
      obtain ⟨result, hresult, -⟩ := hcut s (List.mem_of_getLast? hstate)
      refine .inl ⟨result, ?_⟩
      rw [Option.getD_some]
      cases hcase : s.phase <;> simp_all [Phase.result?]
  rcases hphase with ⟨result, hphase⟩ | hphase
  all_goals
    rw [hphase] at htallies ⊢
    exact ⟨rfl, htallies⟩

/-- The component is run once more. -/
theorem start (h : x.Sound p may script stops n accepted) {processor : Processor} {stop : Bool}
    {left : Nat} {w : Worker}
    (hagain : ∀ r, x.worker.runs.getLast? = some r →
      r.phase.result? ≠ some (.error .streamClosed))
    (hstops : x.stops = left + stop.toNat)
    (hstep : x.worker.apply (.start p processor (.ofBool stop)) = some w) :
    ({ x with worker := w, stops := left } : Drain).Sound p may script stops n accepted := by
  simp only [Worker.apply] at hstep
  split at hstep
  swap
  · cases hstep
  next hidle =>
  obtain rfl := Option.some.inj hstep
  have horderly := h.orderly.start hidle p processor (.ofBool stop)
  have hcut := h.cutShort_of_isIdle hidle hagain
  obtain ⟨hnone, htallies⟩ := h.rests_of_cutShort hcut
  let new := WorkerRun.beginning p processor (.ofBool stop)
  have hlast := Worker.isLast_start hidle p processor (.ofBool stop)
  have hcore : ({ x with
      worker := x.worker.start p processor (.ofBool stop), stops := left } : Drain).core = x.core :=
    Broker.core_wake _ _
  constructor
  case cutShort =>
    show ∀ s ∈ (Worker.states _).dropLast, _
    rw [hlast.states_eq, List.dropLast_concat]
    exact hcut
  case profile =>
    show ∀ q ∈ x.worker.runs ++ [new], q.profile = p
    rw [List.forall_mem_append, List.forall_mem_singleton]
    exact ⟨h.profile, rfl⟩
  case orderly =>
    show Worker.Orderly _ n accepted (x.judged.map Prod.fst ++ (Worker.state _).phase.inProcess)
    rw [hlast.state_eq]
    rw [hnone] at horderly
    exact horderly
  case published =>
    rw [hcore]
    exact h.published
  case scriptDone =>
    rw [hcore]
    exact h.scriptDone
  case wellFormed =>
    rw [hcore]
    exact h.wellFormed
  case fits =>
    show (Worker.state _).Fits _
    rw [hlast.state_eq]
    trivial
  case tallies =>
    rw [hcore]
    show (Worker.state _).phase.Tallies p x.judged _
    rw [hlast.state_eq]
    exact htallies
  case allowed => exact h.allowed
  case stopped =>
    show ∀ q ∈ x.worker.runs ++ [new], _
    rw [List.forall_mem_append, List.forall_mem_singleton]
    refine ⟨h.stopped, fun houtcome => ?_⟩
    cases houtcome
  case stops_le =>
    have hle := h.stops_le
    show ((x.worker.runs ++ [new]).countP fun q => q.signal.isStop) + left ≤ stops
    have hnew : new.signal.isStop = stop := Bool.or_false stop
    rw [List.countP_append, List.countP_singleton, hnew]
    cases stop <;> simp at hstops ⊢ <;> omega
  case errors_le =>
    have hle := h.errors_le
    rw [hcore]
    show ((Worker.states _).countP fun s => s.phase.meetsError) + _ + _ ≤ _
    rw [hlast.states_eq, List.countP_append, List.countP_singleton]
    exact hle
  case failures_le =>
    have hle := h.failures_le
    show ((Worker.states _).countP fun s => s.phase.meetsFailure p) ≤ _
    rw [hlast.states_eq, List.countP_append, List.countP_singleton]
    exact hle

/-! ## Signals -/

/-- Runs may change in what their states do not show, as long as there were as many requests to stop
as are seen. -/
theorem modify (h : x.Sound p may script stops n accepted) {w : Worker} {left i : Nat}
    {f : WorkerRun → WorkerRun} (hruns : w.runs = x.worker.runs.modify i f)
    (hstate : ∀ r, (f r).state = r.state) (hprofile : ∀ r, (f r).profile = r.profile)
    (hstop : ∀ r, r.signal.isStop → (f r).signal.isStop) (hcore : w.broker.core = x.core)
    (hcontents : w.broker.contents = x.worker.broker.contents)
    (hstandings : w.standings = x.worker.standings)
    (hstops : (w.runs.countP fun q => q.signal.isStop) + left ≤
      (x.worker.runs.countP fun q => q.signal.isStop) + x.stops) :
    ({ x with worker := w, stops := left } : Drain).Sound p may script stops n accepted := by
  have hstates := Worker.states_of_modify hruns hstate
  have hlast : w.state = x.worker.state := by rw [Worker.state, hstates, Worker.state]
  have hcore' : ({ x with worker := w, stops := left } : Drain).core = x.core := hcore
  have hall {motive : WorkerRun → Prop} (h : ∀ q ∈ x.worker.runs, motive q)
      (hnew : ∀ q, motive q → motive (f q)) : ∀ q ∈ w.runs, motive q :=
    hruns ▸ forall_mem_modify h hnew
  constructor
  case cutShort => exact hstates ▸ h.cutShort
  case profile => exact hall h.profile fun q hq => (hprofile q).trans hq
  case orderly => exact hlast ▸ h.orderly.of_eq hcontents hstandings
  case published => exact hcore' ▸ h.published
  case scriptDone => exact hcore' ▸ h.scriptDone
  case wellFormed => exact hcore' ▸ h.wellFormed
  case fits => exact hlast ▸ hcore' ▸ h.fits
  case tallies => exact hlast ▸ hcore' ▸ h.tallies
  case allowed => exact h.allowed
  case stopped =>
    refine hall h.stopped fun q hq hok => hstop q (hq ?_)
    rw [← hok]
    exact congrArg (fun s => s.phase.outcome?) (hstate q).symm
  case stops_le => exact hstops.trans h.stops_le
  case errors_le => exact hstates ▸ hcore' ▸ h.errors_le
  case failures_le => exact hstates ▸ h.failures_le

/-- A signal is told to ask its run to stop, or will do so since nobody is left to set it. -/
theorem signal (h : x.Sound p may script stops n accepted) {w : Worker} {left i : Nat}
    {f : WorkerRun → WorkerRun} (hruns : w.runs = x.worker.runs.modify i f)
    (hstate : ∀ r, (f r).state = r.state) (hprofile : ∀ r, (f r).profile = r.profile)
    (hstop : ∀ r, r.signal.isStop → (f r).signal.isStop) (hcore : w.broker.core = x.core)
    (hcontents : w.broker.contents = x.worker.broker.contents)
    (hstandings : w.standings = x.worker.standings) (hstops : x.stops = left + 1) :
    ({ x with worker := w, stops := left } : Drain).Sound p may script stops n accepted := by
  refine h.modify hruns hstate hprofile hstop hcore hcontents hstandings ?_
  have hone := countP_modify_le (fun q : WorkerRun => q.signal.isStop) f i x.worker.runs
  rw [hruns]
  omega

/-- A run is asked to stop. -/
theorem request (h : x.Sound p may script stops n accepted) {i left : Nat} {w : Worker}
    (hstops : x.stops = left + 1) (hstep : x.worker.apply (.setSignal i true) = some w) :
    ({ x with worker := w, stops := left } : Drain).Sound p may script stops n accepted := by
  obtain rfl := Option.some.inj hstep
  refine h.signal rfl ?_ ?_ ?_ (Broker.core_wake _ _) (Broker.contents_wake _ _)
    (Worker.standings_setSignal _ i true) hstops
  all_goals
    intro r
    unfold WorkerRun.setSignal
    split
  · rfl
  · rfl
  · rfl
  · rfl
  · exact fun _ => rfl
  · exact id

/-- The signal of a run is left to itself. -/
theorem abandon (h : x.Sound p may script stops n accepted) {i left : Nat} {w : Worker}
    (hstops : x.stops = left + 1) (hstep : x.worker.apply (.abandonSignal i) = some w) :
    ({ x with worker := w, stops := left } : Drain).Sound p may script stops n accepted := by
  obtain rfl := Option.some.inj hstep
  exact h.signal rfl (fun _ => rfl) (fun _ => rfl) (fun _ _ =>
    Bool.or_true _) (Broker.core_wake _ _)
    (Broker.contents_wake _ _) (Worker.standings_abandonSignal _ i) hstops

/-! ## Whatever happens -/

/-- Whatever happens, a drain stays sound. -/
theorem act (h : x.Sound p may script stops n accepted) (hact : Act p may x x') :
    ∃ m accepted', x'.Sound p may script stops m accepted' := by
  cases hact with
  | publish hscript hfree hstep => exact h.publish hscript hfree hstep
  | leave hscript _ hpublishers hstep => exact h.leave hscript hpublishers hstep
  | start hagain hstops hstep => exact ⟨n, _, h.start hagain hstops hstep⟩
  | request hstops hstep => exact ⟨n, _, h.request hstops hstep⟩
  | abandon hstops hstep => exact ⟨n, _, h.abandon hstops hstep⟩
  | run hphase hstep =>
    obtain ⟨m, hm⟩ := h.run hphase hstep
    exact ⟨m, _, hm⟩
  | finish hr hphase hmay hstep =>
    obtain ⟨m, hm⟩ := h.finish hr hphase hmay hstep
    exact ⟨m, _, hm⟩
  | dropErrors hr hl hreads hstep => exact ⟨n, _, h.dropErrors hr hl hreads hstep⟩
  | dropMessages hr hl hreads hstep => exact ⟨n, _, h.dropMessages hr hl hreads hstep⟩
  | forward hstep hchange => exact ⟨n, h.forward (.inl hstep) hchange⟩
  | overrun hstep hchange => exact ⟨n, h.forward (.inr hstep) hchange⟩

/-- The same goes for what happens after some time. -/
theorem step (h : x.Sound p may script stops n accepted) (hstep : Step p may x x') :
    ∃ m accepted', x'.Sound p may script stops m accepted' := by
  obtain ⟨now, hact⟩ := hstep
  exact (h.atTime now).act hact

end Sound

end Drain

end Courier
