import Courier.Proofs.Worker.Draining
import Mathlib.Logic.Function.Iterate
import Mathlib.Logic.Relation

/-!
# Repeated runs drain the queue

A task publishes messages and errors and then drops all publishers, while a component is run again
and again. Whatever the tasks do and in whatever order, there comes a moment at which the last run
has returned that its stream is closed (`Drain.drains`): each thing that happens leaves less to do
(`Drain.Act.workLeft_lt`), and as long as no run has come to the end of its stream there is
something that can happen (`Drain.Sound.exists_act`).

By then every message is settled once, in the order in which they were published, and there were no
more runs than errors, fatal failures and requests to stop, and one (`Drain.Drained`). If the
processor goes by the payload, nothing else decides about the log (`Drain.Drained.log_eq`).
-/

namespace Courier

/-! ## What is bound to happen -/

/-- Whatever steps are taken, there will be a state with the property, and until then there is
always a step to take. -/
inductive Inevitably {α : Type} (step : α → α → Prop) (motive : α → Prop) : α → Prop
  /-- The state has the property. -/
  | now {x : α} (h : motive x) : Inevitably step motive x
  /-- There is a step, and each one leads to a state from which the property is bound to come. -/
  | later {x : α} (hsome : ∃ y, step x y) (hall : ∀ y, step x y → Inevitably step motive y) :
    Inevitably step motive x

/-- What is bound to happen can happen. -/
theorem Inevitably.reached {α : Type} {step : α → α → Prop} {motive : α → Prop} {x : α}
    (h : Inevitably step motive x) : ∃ y, Relation.ReflTransGen step x y ∧ motive y := by
  induction h with
  | @now x h => exact ⟨x, .refl, h⟩
  | later hsome _ ih =>
    obtain ⟨y, hstep⟩ := hsome
    obtain ⟨z, hreached, hz⟩ := ih y hstep
    exact ⟨z, .head hstep hreached, hz⟩

/-- What is preserved while there is less to do after each step leads to the end. -/
theorem inevitably_of_measure {α : Type} {step : α → α → Prop} {motive : α → Prop}
    (invariant : α → Prop) (measure : α → Nat)
    (hstep : ∀ x y, invariant x → step x y → invariant y ∧ measure y < measure x)
    (hsome : ∀ x, invariant x → ¬ motive x → ∃ y, step x y) {x : α} (hx : invariant x) :
    Inevitably step motive x := by
  induction hk : measure x using Nat.strong_induction_on generalizing x with
  | _ k ih =>
    subst hk
    by_cases hend : motive x
    · exact .now hend
    · refine .later (hsome x hx hend) fun y hy => ?_
      obtain ⟨hinvariant, hless⟩ := hstep x y hx hy
      exact ih (measure y) hless hinvariant rfl

namespace Drain

variable {p : Profile} {may : Delivery → Except String Unit → Prop} {script : List Item}
  {stops n most : Nat} {x x' : Drain} {accepted : List Parcel}

/-! ## There is less and less to do -/

/-- How much there is left to do if there are to be so many runs at most. What is kept for a run
that is still to come is more than its way through its phases and the lane that it opens weigh, and
what is kept for an item of the script is more than the envelope does. -/
def workLeft (most : Nat) (x : Drain) : Nat :=
  700 * (most - x.worker.runs.length) + x.worker.state.phase.stage + 20 * x.script.length +
    x.core.effort + x.stops

theorem workLeft_atTime (x : Drain) (now : Nat) :
    (x.atTime now).workLeft most = x.workLeft most := by
  have hcore : (x.atTime now).core = x.core := Broker.core_setClock _ now
  rw [workLeft, hcore]
  rfl

/-- After a step of the last run there is less to do. -/
theorem workLeft_lt_of_steps {older : List WorkerRun} {r r' : WorkerRun} {w : Worker}
    {judged : List (Delivery × Except String Unit)} {stop : Bool} (hlast : x.worker.IsLast older r)
    (hlast' : w.IsLast older r')
    (hsteps : r.state.Steps p stop x.core w.broker.core r'.state) :
    ({ x with worker := w, judged := judged } : Drain).workLeft most < x.workLeft most := by
  have hless := hsteps.workLeft_lt
  have hlength : w.runs.length = x.worker.runs.length := by
    rw [hlast'.runs, hlast.runs, List.length_append, List.length_append]
    rfl
  unfold workLeft
  rw [hlast.state_eq]
  show 700 * (most - w.runs.length) + w.state.phase.stage + 20 * x.script.length +
    w.broker.core.effort + x.stops < _
  rw [hlast'.state_eq, hlength]
  omega

theorem workLeft_lt_of_lastSteps {older : List WorkerRun} {r : WorkerRun} {w : Worker}
    (hlast : x.worker.IsLast older r) (hlastSteps : x.worker.LastSteps older r w) :
    ({ x with worker := w } : Drain).workLeft most < x.workLeft most := by
  obtain ⟨r', hlast', -, -, hsteps⟩ := hlastSteps
  exact workLeft_lt_of_steps hlast hlast' hsteps

/-- A change of the transport leaves less to do if what it costs has been paid for. -/
theorem workLeft_lt_of_onto {b : Broker} {rest : List Item}
    (h : 20 * rest.length + b.core.effort < 20 * x.script.length + x.core.effort) :
    ({ x with worker := x.worker.onto b, script := rest } : Drain).workLeft most <
      x.workLeft most := by
  unfold workLeft
  show 700 * (most - x.worker.runs.length) + x.worker.state.phase.stage + 20 * rest.length +
    b.core.effort + x.stops < _
  omega

/-- An envelope that is sent is easier to handle than an item of the script. -/
theorem workLeft_lt_of_send {item : Item} {rest : List Item} {b : Broker} {g : Core} {e : Envelope}
    (hscript : x.script = item :: rest) (hcore : b.core = g.enqueue e)
    (hg : g.effort = x.core.effort) :
    ({ x with worker := x.worker.onto b, script := rest } : Drain).workLeft most <
      x.workLeft most := by
  have hweight : (g.enqueue e).effort ≤ g.effort + 12 := Core.weight_enqueue .effort g e
  refine workLeft_lt_of_onto ?_
  rw [hcore, hscript, List.length_cons]
  omega

/-- A change that leaves the states of the runs and the transport leaves as much to do. -/
theorem workLeft_of_modify {w : Worker} {left i : Nat} {f : WorkerRun → WorkerRun}
    (hruns : w.runs = x.worker.runs.modify i f) (hstate : ∀ r, (f r).state = r.state)
    (hcore : w.broker.core = x.core) :
    ({ x with worker := w, stops := left } : Drain).workLeft most + x.stops = x.workLeft most +
      left := by
  have hstates := Worker.states_of_modify hruns hstate
  have hlength : w.runs.length = x.worker.runs.length := by rw [hruns, List.length_modify]
  unfold workLeft
  show 700 * (most - w.runs.length) + w.state.phase.stage + 20 * x.script.length +
    w.broker.core.effort + left + x.stops = _
  rw [hlength, Worker.state, hstates, hcore, Worker.state]
  omega

/-- What concerns a signal leaves less to do since there are only so many requests to stop. -/
theorem workLeft_lt_of_signal {w : Worker} {left i : Nat} {f : WorkerRun → WorkerRun}
    (hruns : w.runs = x.worker.runs.modify i f) (hstate : ∀ r, (f r).state = r.state)
    (hcore : w.broker.core = x.core) (hstops : x.stops = left + 1) :
    ({ x with worker := w, stops := left } : Drain).workLeft most < x.workLeft most := by
  have hsame : ({ x with worker := w, stops := left } : Drain).workLeft most + x.stops =
      x.workLeft most + left := workLeft_of_modify hruns hstate hcore
  omega

/-- A run that starts costs less than what is kept for it. -/
theorem workLeft_lt_of_start {processor : Processor} {stop : Bool} {left : Nat}
    (hidle : x.worker.isIdle) (hstops : x.stops = left + stop.toNat)
    (hmost : x.worker.runs.length < most) :
    ({ x with worker := x.worker.start p processor (.ofBool stop), stops := left } : Drain).workLeft
      most < x.workLeft most := by
  have hlast := Worker.isLast_start hidle p processor (.ofBool stop)
  have hcore : (x.worker.start p processor (.ofBool stop)).broker.core = x.core :=
    Broker.core_wake _ _
  have hstage : 100 ≤ x.worker.state.phase.stage := by
    cases x.worker.state.phase <;> simp [Phase.stage] <;> omega
  unfold workLeft
  show 700 * (most - (x.worker.runs ++ [_]).length) + (Worker.state _).phase.stage +
    20 * x.script.length + (Broker.core _).effort + left < _
  rw [hlast.state_eq, hcore, List.length_append, List.length_singleton]
  show _ + 600 + _ + _ + _ < _
  omega

/-- Whatever happens, there is less to do then. -/
theorem Act.workLeft_lt (hact : Act p may x x') (h : x.Sound p may script stops n accepted)
    (hmost : x'.worker.runs.length ≤ most) : x'.workLeft most < x.workLeft most := by
  cases hact with
  | @publish item _ _ hscript hfree hstep =>
    cases item with
    | message id payload =>
      obtain rfl := Option.some.inj hstep
      exact workLeft_lt_of_send hscript (Broker.core_publish h.wellFormed.kept id payload) rfl
    | error text =>
      obtain rfl := Option.some.inj hstep
      exact workLeft_lt_of_send hscript (Broker.core_send h.wellFormed.kept (.error text)) rfl
  | leave hscript hfree hpublishers hstep =>
    obtain rfl := Option.some.inj hstep
    refine workLeft_lt_of_onto ?_
    show _ < _ + x.worker.broker.core.effort
    rw [Broker.core_dropPublisher]
    have hsame : x.worker.broker.core.publishers = x.worker.broker.publishers := rfl
    simp only [Core.effort, Core.weight, Weights.effort]
    omega
  | @start processor stop left w hagain hstops hstep =>
    simp only [Worker.apply] at hstep
    split at hstep
    · next hidle =>
      obtain rfl := Option.some.inj hstep
      refine workLeft_lt_of_start hidle hstops ?_
      have hlength : (x.worker.start p processor (.ofBool stop)).runs.length =
          x.worker.runs.length + 1 := List.length_append
      exact hlength.symm.trans_le hmost
    · cases hstep
  | request hstops hstep =>
    obtain rfl := Option.some.inj hstep
    refine workLeft_lt_of_signal rfl (fun r => ?_) (Broker.core_wake _ _) hstops
    unfold WorkerRun.setSignal
    split <;> rfl
  | abandon hstops hstep =>
    obtain rfl := Option.some.inj hstep
    exact workLeft_lt_of_signal rfl (fun _ => rfl) (Broker.core_wake _ _) hstops
  | run hphase hstep =>
    obtain ⟨older, r, hlast, -, -, hlastSteps⟩ := h.lastSteps_run hphase hstep
    exact workLeft_lt_of_lastSteps hlast hlastSteps
  | @finish i since r e d result w hr hphase hmay hstep =>
    obtain ⟨older, hlast, rfl, -⟩ := h.orderly.isLast_of_active hr (by rw [hphase]; rfl)
    obtain ⟨r', hlast', -, -, hstate, hcore⟩ := hlast.lastSteps_finishFor hphase hstep
    have hsteps : r.state.Steps p r.signal.isStop x.core w.broker.core r'.state := by
      rw [hstate, hcore]
      exact .finish hphase
    exact workLeft_lt_of_steps hlast hlast' hsteps
  | dropErrors hr hl hreads hstep =>
    obtain ⟨older, result, hlast, -, hlastSteps⟩ := h.lastSteps_dropErrors hr hl hreads hstep
    exact workLeft_lt_of_lastSteps hlast hlastSteps
  | dropMessages hr hl hreads hstep =>
    obtain ⟨older, result, hlast, -, hlastSteps⟩ := h.lastSteps_dropMessages hr hl hreads hstep
    exact workLeft_lt_of_lastSteps hlast hlastSteps
  | forward hstep hchange =>
    obtain rfl := Option.some.inj hstep
    obtain ⟨l, hl, hforward⟩ := Broker.forwarderStep_of_ne (Broker.alone_of_lined h.orderly.lined)
      h.wellFormed.noLimit (.inl rfl) hchange
    exact workLeft_lt_of_onto (Nat.add_lt_add_left (hforward.effort_lt hl) _)
  | overrun hstep hchange =>
    obtain rfl := Option.some.inj hstep
    obtain ⟨l, hl, hforward⟩ := Broker.forwarderStep_of_ne (Broker.alone_of_lined h.orderly.lined)
      h.wellFormed.noLimit (.inr rfl) hchange
    exact workLeft_lt_of_onto (Nat.add_lt_add_left (hforward.effort_lt hl) _)

/-- So there is after some time. -/
theorem Step.workLeft_lt (hstep : Step p may x x') (h : x.Sound p may script stops n accepted)
    (hmost : x'.worker.runs.length ≤ most) : x'.workLeft most < x.workLeft most := by
  obtain ⟨now, hact⟩ := hstep
  rw [← workLeft_atTime x now]
  exact hact.workLeft_lt (h.atTime now) hmost

/-! ## There are only so many runs -/

/-- If each item has one of three properties, there are at most as many items as have them. -/
theorem length_le_countP {α : Type} {a b c : α → Bool} {xs : List α}
    (h : ∀ x ∈ xs, a x ∨ b x ∨ c x) : xs.length ≤ xs.countP a + xs.countP b + xs.countP c := by
  induction xs with
  | nil => exact Nat.zero_le _
  | cons x xs ih =>
    rw [List.forall_mem_cons] at h
    have hrest := ih h.2
    rw [List.length_cons, List.countP_cons, List.countP_cons, List.countP_cons]
    rcases h.1 with hx | hx | hx <;> simp only [hx, if_true] <;> omega

theorem length_parcelsFrom_le (n : Nat) (script : List Item) :
    (parcelsFrom n script).length ≤ script.length := by
  induction script generalizing n with
  | nil => exact Nat.le_refl _
  | cons item script ih =>
    cases item with
    | message id payload => exact Nat.succ_le_succ (ih (n + 1))
    | error text => exact (ih n).trans (Nat.le_succ _)

namespace Sound

/-- All runs but the last one were cut short, each by an error, by a failure or by a request. -/
theorem length_runs_le (h : x.Sound p may script stops n accepted) :
    x.worker.runs.length ≤ script.countP Item.isError + fatalFailures p x.judged + stops + 1 := by
  have herrors := h.errors_le
  have hfailures := h.failures_le
  have hstops := h.stops_le
  rw [Worker.states, List.countP_map] at herrors hfailures
  -- What a run was cut short by is told from its result, and each of the three is counted.
  have hcut : ∀ q ∈ x.worker.runs.dropLast, q.phase.meetsError ∨ q.phase.meetsFailure p ∨
      q.signal.isStop := by
    intro q hq
    obtain ⟨result, hresult, hcut⟩ := h.cutShort_run hq
    have hstopped := h.stopped q (List.dropLast_subset _ hq)
    cases hphase : q.phase with
    | stopped result' =>
      rw [hphase] at hresult hstopped
      obtain rfl := Option.some.inj hresult
      unfold CutShort at hcut
      split at hcut
      · exact .inr (.inr (hstopped rfl))
      · exact .inl rfl
      · exact .inr (.inl rfl)
      · exact hcut.elim
    | _ =>
      rw [hphase] at hresult
      cases hresult
  have hlength := length_le_countP hcut
  have hle (f : WorkerRun → Bool) : x.worker.runs.dropLast.countP f ≤ x.worker.runs.countP f :=
    (List.dropLast_sublist _).countP_le
  have hmet := hle fun q => q.phase.meetsError
  have hfailed := hle fun q => q.phase.meetsFailure p
  have hasked := hle fun q => q.signal.isStop
  change x.worker.runs.countP (fun q => q.phase.meetsError) + _ + _ ≤ _ at herrors
  change x.worker.runs.countP (fun q => q.phase.meetsFailure p) ≤ _ at hfailures
  rw [List.length_dropLast] at hlength
  omega

/-- A processor can be done with messages of the script only. -/
theorem length_judged_le (h : x.Sound p may script stops n accepted) :
    x.judged.length ≤ (parcelsFrom 0 script).length := by
  have hlength := h.orderly.lined.inOrder.length_eq
  rw [List.length_append, List.length_map, List.length_append, List.length_map] at hlength
  rw [← h.published, List.length_append, List.length_append]
  omega

/-- There is a bound to the number of runs that does not depend on what happens. -/
theorem length_runs_le_of_script (h : x.Sound p may script stops n accepted) :
    x.worker.runs.length ≤ 2 * script.length + stops + 1 := by
  have hruns := h.length_runs_le
  have herrors : script.countP Item.isError ≤ script.length := List.countP_le_length
  have hfailures : fatalFailures p x.judged ≤ x.judged.length := by
    unfold fatalFailures
    split
    · exact List.countP_le_length
    · exact Nat.zero_le _
  have hjudged := h.length_judged_le
  have hmessages := length_parcelsFrom_le 0 script
  omega

end Sound

end Drain

/-! ## There is always something to do -/

namespace Worker

variable {w : Worker} {older : List WorkerRun} {r : WorkerRun}

/-- A run that has its answer goes on. -/
theorem onto_answer_isSome {b : Broker} {i : Nat} {q : WorkerRun} {a : Answer Delivery}
    (h : (q.phase.step q.profile b.now a).isSome) : ((w.onto b).answer i q a).isSome := by
  rw [answer, Option.isSome_map]
  exact h

/-- The last run goes on unless it sees nothing, or its processor has a message, or its forwarder
has not ended, or it has ended. -/
theorem IsLast.stepRun_isSome (h : w.IsLast older r) (hwf : w.broker.core.WellFormed)
    (hfits : r.state.Fits w.broker.core)
    (hpolling : ∀ e, r.phase = .polling e → ((w.view r).pick e).isSome)
    (hprocessing : ∀ e d t, r.phase ≠ .processing e d t)
    (hclosing : ∀ result, r.phase = .closing result → w.broker.hasEnded r.lane)
    (hstopped : ∀ result, r.phase ≠ .stopped result) : (w.stepRun older.length).isSome := by
  unfold stepRun
  rw [h.getElem?_length]
  cases hphase : r.phase with
  | creating attempt =>
    obtain ⟨hresult, -⟩ := Broker.core_create (b := w.broker) hwf.available
    simp only [hphase, createFor]
    split
    · exact onto_answer_isSome (by simp [Phase.step])
    · next heq =>
      rw [heq] at hresult
      cases hresult
  | retrying => simp only [RunState.Fits, WorkerRun.state, hphase] at hfits
  | consuming =>
    simp only [RunState.Fits, WorkerRun.state, hphase] at hfits
    obtain ⟨c, hc, hidle⟩ := hfits
    obtain ⟨hresult, -⟩ := Broker.core_consume hc hidle older.length
    simp only [hphase, consumeFor]
    split
    · exact onto_answer_isSome (by simp [Phase.step])
    · next heq =>
      rw [heq] at hresult
      cases hresult
  | polling e =>
    obtain ⟨choice, hpick⟩ := Option.isSome_iff_exists.mp (hpolling e hphase)
    simp only [hphase, pollFor, actOn, hpick]
    exact onto_answer_isSome (by simp [hphase, Phase.step])
  | processing e d t => exact absurd hphase (hprocessing e d t)
  | settling e d failure =>
    simp only [hphase]
    exact onto_answer_isSome (by cases failure <;> simp [hphase, Phase.step])
  | releasing result =>
    simp only [hphase]
    exact onto_answer_isSome (by simp [hphase, Phase.step])
  | closing result =>
    simp only [hphase]
    rw [closeFor, if_pos (hclosing result hphase), Option.isSome_map]
    exact onto_answer_isSome (by simp [hphase, Phase.step])
  | stopped result => exact absurd hphase (hstopped result)

end Worker

namespace Drain

variable {p : Profile} {may : Delivery → Except String Unit → Prop} {script : List Item}
  {stops n : Nat} {x : Drain} {accepted : List Parcel}

namespace Sound

/-- When the forwarder of the lane in use waits for an envelope, the task can publish an item, or
drop a publisher: the queue is empty, so that nothing waits for room. -/
theorem exists_act_of_empty (h : x.Sound p may script stops n accepted)
    (hincoming : x.core.incoming = []) (hpublishers : x.core.publishers ≠ 0) :
    ∃ x', Act p may x x' := by
  have hfree : x.worker.broker.blocked = [] :=
    List.map_eq_nil_iff.mp (h.wellFormed.blocked_of_empty hincoming)
  cases hscript : x.script with
  | nil => exact ⟨_, .leave hscript hfree hpublishers rfl⟩
  | cons item rest =>
    cases item with
    | message id payload => exact ⟨_, .publish hscript hfree rfl⟩
    | error text => exact ⟨_, .publish hscript hfree rfl⟩

/-- A forwarder that does something can have its turn. -/
theorem exists_act_of_forwarderStep {l : Lane} (hl : x.worker.broker.lanes[n]? = some l)
    (hforward : x.core.ForwarderStep n l (x.worker.broker.advance n true).1.core) :
    ∃ x', Act p may x x' := by
  have hstep : x.worker.apply (.forward n true) =
      some (x.worker.onto (x.worker.broker.advance n true).1) := rfl
  exact ⟨_, .forward hstep (Broker.ne_of_forwarderStep hl hforward)⟩

/-- A run that finds nothing to act on waits for its forwarder, which waits for an envelope at most:
then there are no messages under way. -/
theorem rests_or_forwarderStep_of_polling (h : x.Sound p may script stops n accepted)
    {older : List WorkerRun} {r : WorkerRun} {e : Bool} (hlast : x.worker.IsLast older r)
    (hphase : r.phase = .polling e) (hpick : (x.worker.view r).pick e = none) :
    (x.worker.broker.contents.lineup n = [] ∧ x.core.incoming = [] ∧ x.core.publishers ≠ 0) ∨
      ∃ l, x.worker.broker.lanes[n]? = some l ∧
        x.core.ForwarderStep n l (x.worker.broker.advance n true).1.core := by
  have halone := Broker.alone_of_lined h.orderly.lined
  have hfits := h.fits
  rw [hlast.state_eq] at hfits
  simp only [RunState.Fits, WorkerRun.state, hphase] at hfits
  obtain ⟨-, l, hl, hserves⟩ := hfits
  obtain ⟨-, hmessages, herrors⟩ := View.pick_eq_none.mp hpick
  obtain ⟨hslot, hbegun⟩ := (Broker.offeredMessage_eq_nothing hl).mp hmessages
  -- The run still looks at the errors, for it would not do so only if the forwarder had ended.
  have hopen : e = true := by
    by_contra hclosed
    exact hbegun (hserves.errorsEnded (Bool.eq_false_iff.mpr hclosed))
  obtain ⟨herrorSlot, -⟩ := (Broker.offeredError_eq_nothing hl).mp (herrors hopen)
  have hlane : r.lane = n := by
    by_contra hne
    exact hbegun (halone r.lane l hl hne)
  rw [hlane] at hl
  rcases Broker.turns_advance hl halone (h.wellFormed.hasNoLimit hl) true with ⟨-, hwaits, -⟩ |
    hforward
  · cases hwaits with
    | ended hended => exact absurd hended hbegun
    | turn hqueued hturn =>
      exact absurd (h.wellFormed.inLine.head?_eq hl (by rw [hqueued]; rfl) halone) hturn
    | envelope hparked hincoming hpublishers =>
      have hreturned : x.core.returned = [] := Broker.returned_of_lined h.orderly.lined hl
        hserves.readsMessages (by rw [hparked]; rfl)
      refine .inl ⟨?_, hincoming, hpublishers⟩
      rw [Contents.lineup, Contents.laneAt_of_some (Broker.getElem?_lanes hl)]
      show l.slot.toList.map _ ++ l.forwarder.handState.hand?.elim x.core.returned _ ++
        x.core.incoming.filterMap _ = []
      rw [hslot, hparked, hreturned, show x.core.incoming = [] from hincoming]
      rfl
    | slot _ hfull =>
      rw [hslot] at hfull
      cases hfull
    | errorSlot _ hfull =>
      rw [herrorSlot] at hfull
      cases hfull
  · exact .inr ⟨l, hl, hforward⟩

/-- A run that finds nothing to act on waits for its forwarder, which waits for the task at most. -/
theorem exists_act_of_polling (h : x.Sound p may script stops n accepted) {older : List WorkerRun}
    {r : WorkerRun} {e : Bool} (hlast : x.worker.IsLast older r) (hphase : r.phase = .polling e)
    (hpick : (x.worker.view r).pick e = none) : ∃ x', Act p may x x' := by
  rcases h.rests_or_forwarderStep_of_polling hlast hphase hpick with
    ⟨-, hincoming, hpublishers⟩ | ⟨l, hl, hforward⟩
  · exact h.exists_act_of_empty hincoming hpublishers
  · exact exists_act_of_forwarderStep hl hforward

/-- A forwarder that a run waits for when it closes its consumer was asked to end, and does. -/
theorem forwarderStep_of_closing (h : x.Sound p may script stops n accepted)
    {older : List WorkerRun} {r : WorkerRun} {result : RunResult} (hlast : x.worker.IsLast older r)
    (hphase : r.phase = .closing result) (hended : ¬ x.worker.broker.hasEnded r.lane) :
    ∃ l, x.worker.broker.lanes[n]? = some l ∧
      x.core.ForwarderStep n l (x.worker.broker.advance n true).1.core := by
  have halone := Broker.alone_of_lined h.orderly.lined
  have hfits := h.fits
  rw [hlast.state_eq] at hfits
  simp only [RunState.Fits, WorkerRun.state, hphase] at hfits
  obtain ⟨⟨l, hl, hgone⟩, -⟩ := hfits
  have hbegun : l.forwarder.isEnded = false := by
    rw [Broker.hasEnded, show x.worker.broker.lanes[r.lane]? = some l from hl] at hended
    simpa using hended
  have hopen : l.forwarder ≠ .ended := fun hend => by
    rw [hend] at hbegun
    cases hbegun
  have hlane : r.lane = n := by
    by_contra hne
    exact hopen (halone r.lane l hl hne)
  rw [hlane] at hl
  rcases Broker.turns_advance hl halone (h.wellFormed.hasNoLimit hl) true with ⟨-, -, hquits⟩ |
    hforward
  · rw [hquits (hgone.resolve_right hopen)] at hbegun
    cases hbegun
  · exact ⟨l, hl, hforward⟩

/-- Until a run has come to the end of its stream, something can happen. -/
theorem exists_act (h : x.Sound p may script stops n accepted)
    (hreturns : ∀ d, ∃ result, may d result)
    (hopen : ∀ r, x.worker.runs.getLast? = some r → r.phase.result? ≠ some (.error .streamClosed)) :
    ∃ x', Act p may x x' := by
  -- The component can be run once more as soon as its last run has ended.
  have hstart (hidle : x.worker.isIdle) : ∃ x', Act p may x x' := by
    have hstep : x.worker.apply (.start p (.accepting "") (.ofBool false)) =
        some (x.worker.start p (.accepting "") (.ofBool false)) := if_pos hidle
    exact ⟨_, .start hopen rfl hstep⟩
  rcases h.eq_nil_or_isLast with hruns | ⟨older, r, hlast⟩
  · exact hstart (by rw [Worker.isIdle, hruns]; rfl)
  · have hfits := h.fits
    rw [hlast.state_eq] at hfits
    by_cases hpolling : ∃ e, r.phase = .polling e ∧ (x.worker.view r).pick e = none
    · obtain ⟨e, hphase, hpick⟩ := hpolling
      exact h.exists_act_of_polling hlast hphase hpick
    by_cases hclosing : ∃ result, r.phase = .closing result ∧ ¬ x.worker.broker.hasEnded r.lane
    · obtain ⟨result, hphase, hwaits⟩ := hclosing
      obtain ⟨l, hl, hforward⟩ := h.forwarderStep_of_closing hlast hphase hwaits
      exact exists_act_of_forwarderStep hl hforward
    cases hphase : r.phase with
    | processing e d t =>
      obtain ⟨result, hmay⟩ := hreturns d
      have hfinish : (x.worker.finishFor older.length result).isSome := by
        unfold Worker.finishFor
        rw [hlast.getElem?_length]
        simp only [hphase]
        exact Worker.onto_answer_isSome (b := x.worker.broker) (by simp [hphase, Phase.step])
      obtain ⟨w, hstep⟩ := Option.isSome_iff_exists.mp hfinish
      exact ⟨_, .finish hlast.getElem?_length hphase hmay hstep⟩
    | stopped result =>
      exact hstart (hlast.isIdle (by rw [hphase]; rfl))
    | _ =>
      have hother : ∀ e d t, r.phase ≠ .processing e d t := by simp [hphase]
      obtain ⟨w, hstep⟩ := Option.isSome_iff_exists.mp
        (hlast.stepRun_isSome h.wellFormed hfits
          (fun e he => Option.isSome_iff_ne_none.mpr fun hpick => hpolling ⟨e, he, hpick⟩) hother
          (fun result hresult => by_contra fun hwaits => hclosing ⟨result, hresult, hwaits⟩)
          (by simp [hphase]))
      refine ⟨_, .run (fun q hq => ?_) hstep⟩
      rw [hlast.getElem?_length] at hq
      rw [← Option.some.inj hq]
      exact hother

end Sound

/-! ## The beginning -/

/-- A queue that was just made, with so many clones of its publisher, and a task with its script. -/
def opening (b : Broker) (clones : Nat) (script : List Item) (stops : Nat) : Drain where
  worker := { broker := Broker.clonePublisher^[clones] b }
  script := script
  stops := stops

theorem iterate_clonePublisher {b : Broker} (h : b.publishers ≠ 0) (clones : Nat) :
    Broker.clonePublisher^[clones] b = { b with publishers := b.publishers + clones } := by
  induction clones generalizing b with
  | zero => rfl
  | succ clones ih =>
    have hclone : b.clonePublisher = { b with publishers := b.publishers + 1 } := if_neg h
    rw [Function.iterate_succ_apply, hclone, ih (Nat.succ_ne_zero _), Nat.add_assoc, Nat.add_comm 1]

theorem sound_opening {capacity : Nat} {b : Broker} (hopen : Broker.ofCapacity? capacity = some b)
    (clones : Nat) : (opening b clones script stops).Sound p may script stops 0 [] := by
  have horderly := Worker.orderly_ofCapacity? hopen
  obtain rfl := Broker.eq_of_ofCapacity? hopen
  have hcloned :=
    iterate_clonePublisher (b := { capacity := max capacity 1 }) Nat.one_ne_zero clones
  have hx : opening { capacity := max capacity 1 } clones script stops =
      { worker := { broker := { capacity := max capacity 1, publishers := 1 + clones } },
        script := script, stops := stops } := by
    rw [opening, hcloned]
  rw [hx]
  constructor
  case orderly => exact horderly.of_eq rfl rfl
  case published => rfl
  case scriptDone => exact fun hnone => absurd hnone (by simp [core, Broker.core])
  case wellFormed =>
    refine ⟨rfl, rfl, Nat.le_max_right .., fun hsome =>
      absurd rfl hsome, ?_, ?_, ?_, List.nodup_nil⟩
    · exact fun l hl => absurd hl List.not_mem_nil
    · exact fun c hc => absurd hc List.not_mem_nil
    · exact fun i => by simp [core, Broker.core]
  case fits => trivial
  case tallies => rfl
  case stops_le => exact (Nat.zero_add _).le
  case errors_le =>
    simp [Worker.states, core, Broker.core, Core.faults, Core.weight, Weights.faults]
  case failures_le => exact Nat.zero_le _
  all_goals exact fun q hq => absurd hq List.not_mem_nil

/-! ## The end -/

/-- What can be told of the log from what was published: the numbers of the messages, their
identifiers if they were published with one, and how they were settled. -/
def log (script : List Item) (x : Drain) : List (Nat × Option CorrelationId × Disposition) :=
  List.zipWith (fun q o => (o.seq, q.id.map fun _ => o.id, o.disposition)) (parcelsFrom 0 script)
    x.worker.broker.outcomes

/-- What has come of it when a run has come to the end of its stream. -/
structure Drained (p : Profile) (may : Delivery → Except String Unit → Prop) (script : List Item)
    (stops : Nat) (x : Drain) : Prop where
  /-- The last run came to the end of its stream. -/
  closed : x.worker.results.getLast? = some (some (.error .streamClosed))
  /-- All others were cut short. -/
  cutShort : ∀ result? ∈ x.worker.results.dropLast, ∃ result, result? = some result ∧
    CutShort result
  /-- Each run but one has met an error or a fatal failure, or was asked to stop. -/
  runs_le : x.worker.runs.length ≤ script.countP Item.isError + fatalFailures p x.judged + stops + 1
  /-- Processors were done with each message once, in the order in which they were published. -/
  judged : List.Forall₂ (fun q c => q.Becomes c.1.toParcel) (parcelsFrom 0 script) x.judged
  /-- They were done with the messages in ways that are theirs. -/
  allowed : ∀ c ∈ x.judged, may c.1 c.2
  /-- The messages were settled in that order, as the strategy says. -/
  outcomes : x.worker.broker.outcomes = x.judged.map (outcomeOf p)

namespace Sound

/-- A queue that is exhausted when no run is in progress has handed out all messages. -/
theorem judged_of_exhausted (h : x.Sound p may script stops n accepted) {lane : Nat}
    (hexhausted : x.core.Exhausted lane) (hidle : x.worker.isIdle)
    (hnone : x.worker.state.phase.inProcess = []) :
    List.Forall₂ (fun q c => q.Becomes c.1.toParcel) (parcelsFrom 0 script) x.judged := by
  have hall : accepted = parcelsFrom 0 script := by
    rw [← h.published, h.scriptDone hexhausted.publishers, Core.waiting,
      h.wellFormed.blocked_of_empty hexhausted.incoming]
    exact ((List.append_nil _).trans (List.append_nil _)).symm
  have hlineup : x.worker.broker.contents.lineup n = [] := by
    refine (LaneContents.line_of_isClosed (h.orderly.matchesPhase_of_isIdle hidle).2 _ _).trans ?_
    show x.core.returned ++ x.core.incoming.filterMap _ = []
    rw [hexhausted.returned, hexhausted.incoming]
    rfl
  have hinOrder := h.orderly.lined.inOrder
  rw [hlineup, hnone, List.append_nil, List.append_nil, List.map_map, hall] at hinOrder
  exact List.forall₂_map_right_iff.mp hinOrder

/-- Once a run has come to the end of its stream, everything is done. -/
theorem drained (h : x.Sound p may script stops n accepted) {r : WorkerRun}
    (hr : x.worker.runs.getLast? = some r)
    (hclosed : r.phase.result? = some (.error .streamClosed)) :
    Drained p may script stops x := by
  obtain ⟨older, hruns⟩ := List.getLast?_eq_some_iff.mp hr
  have hphase : r.phase = .stopped (.error .streamClosed) := by
    cases hcase : r.phase with
    | stopped result =>
      rw [hcase] at hclosed
      rw [Option.some.inj hclosed]
    | _ =>
      rw [hcase] at hclosed
      cases hclosed
  have hlast := h.isLast hruns
  have hstate : x.worker.state.phase = .stopped (.error .streamClosed) := by
    rw [hlast.state_eq]
    exact hphase
  have hidle : x.worker.isIdle := by
    refine List.all_eq_true.mpr ?_
    rw [hruns, List.forall_mem_append, List.forall_mem_singleton, hclosed]
    exact ⟨hlast.ended, rfl⟩
  have hexhausted : x.core.Exhausted x.worker.state.lane := by
    have hfits := h.fits
    simp only [RunState.Fits, hstate] at hfits
    exact hfits
  constructor
  case closed =>
    rw [Worker.results, hruns, List.map_append, List.map_singleton, hclosed]
    exact List.getLast?_concat
  case cutShort =>
    rw [Worker.results, ← List.map_dropLast, List.forall_mem_map]
    exact fun q hq => h.cutShort_run hq
  case runs_le => exact h.length_runs_le
  case judged => exact h.judged_of_exhausted hexhausted hidle (by rw [hstate]; rfl)
  case allowed => exact h.allowed
  case outcomes =>
    have htallies := h.tallies
    rw [hstate] at htallies
    exact htallies

end Sound

/-- The messages of a script do not depend on the errors in it. -/
theorem parcelsFrom_filter (n : Nat) (script : List Item) :
    parcelsFrom n (script.filter fun item => !item.isError) = parcelsFrom n script := by
  induction script generalizing n with
  | nil => rfl
  | cons item script ih =>
    cases item with
    | message id payload => exact congrArg (List.cons _) (ih (n + 1))
    | error text => exact ih n

/-- If the processor goes by the payload, the messages decide about the log, and nothing else. -/
theorem Drained.log_eq (h : Drained p may script stops x) {f : Json → Except String Unit}
    (hf : ∀ d result, may d result → result = f d.payload) :
    x.log script = (parcelsFrom 0 script).map fun q =>
      (q.seq, q.id, p.dispositionAfter (failure? (f q.payload))) := by
  have hjudged := h.judged
  have hallowed := h.allowed
  rw [log, h.outcomes]
  generalize parcelsFrom 0 script = messages at hjudged
  generalize x.judged = judged at hjudged hallowed
  induction hjudged with
  | nil => rfl
  | @cons q c messages judged hbecomes hrest ih =>
    rw [List.forall_mem_cons] at hallowed
    have hresult : c.2 = f q.payload := by
      rw [hf c.1 c.2 hallowed.1]
      exact congrArg f hbecomes.payload
    have hid : (q.id.map fun _ => c.1.id) = q.id := by
      cases hq : q.id with
      | none => rfl
      | some id => exact hbecomes.id id hq
    rw [List.map_cons, List.zipWith_cons_cons, ih hallowed.2, List.map_cons]
    refine congrArg (List.cons · _) ?_
    show (c.1.seq, q.id.map (fun _ => c.1.id), p.dispositionAfter (failure? c.2)) = _
    rw [hid, hresult, show c.1.seq = q.seq from hbecomes.seq]

/-! ## All that is bound to happen -/

/-- Repeated runs drain the queue, whatever its capacity: however the tasks get their turns, a run
comes to the end of its stream when all messages are settled. If the processor goes by the payload,
the log is the same for all queues, wherever there are errors and whenever runs are asked to
stop. -/
theorem drains {capacity : Nat} {b : Broker} (hopen : Broker.ofCapacity? capacity = some b)
    (hreturns : ∀ d, ∃ result, may d result) (clones : Nat) (script : List Item) (stops : Nat) :
    Inevitably (Step p may) (Drained p may script stops) (opening b clones script stops) ∧
      ∀ f : Json → Except String Unit, (∀ d result, may d result → result = f d.payload) →
        ∀ (script' : List Item) (stops' : Nat) (x x' : Drain),
          (script'.filter fun item => !item.isError) = (script.filter fun item => !item.isError) →
          Drained p may script stops x → Drained p may script' stops' x' →
            x'.log script' = x.log script := by
  constructor
  · refine inevitably_of_measure (fun x => ∃ n accepted, x.Sound p may script stops n accepted)
      (workLeft (2 * script.length + stops + 1)) ?_ ?_ ⟨0, [], sound_opening hopen clones⟩
    · rintro x y ⟨n, accepted, h⟩ hstep
      obtain ⟨m, accepted', h'⟩ := h.step hstep
      exact ⟨⟨m, accepted', h'⟩, hstep.workLeft_lt h h'.length_runs_le_of_script⟩
    · rintro x ⟨n, accepted, h⟩ hend
      obtain ⟨y, hact⟩ := (h.atTime 0).exists_act hreturns fun r hr hclosed =>
        hend (h.drained hr hclosed)
      exact ⟨y, 0, hact⟩
  · intro f hf script' stops' x x' hsame h h'
    rw [h.log_eq hf, h'.log_eq hf, ← parcelsFrom_filter 0 script', hsame, parcelsFrom_filter]

/-- A message that is accepted, an error, and a message that the processor fails with, for a queue
with room for one: there is a way to the end, and the log says what has become of the messages. -/
theorem drains_room_for_one :
    let p : Profile := ⟨"c", "p", .nackExit, 0, .zero⟩
    let f : Json → Except String Unit := fun payload =>
      match payload with
      | .null => .ok ()
      | _ => .error "not null"
    let may : Delivery → Except String Unit → Prop := fun d result => result = f d.payload
    let script : List Item := [.message (some "a") .null, .error "lost", .message none (.bool true)]
    ∃ b, Broker.ofCapacity? 1 = some b ∧ (∀ d, ∃ result, may d result) ∧
      ∃ x, Relation.ReflTransGen (Step p may) (opening b 1 script 1) x ∧ Drained p may script 1 x ∧
        x.log script = [(0, some (.given "a"), .ack), (1, none, .nack)] := by
  intro p f may script
  have hreturns : ∀ d, ∃ result, may d result := fun d => ⟨f d.payload, rfl⟩
  obtain ⟨hbound, -⟩ := @drains p may 1 _ rfl hreturns 1 script 1
  obtain ⟨x, hreached, hdrained⟩ := hbound.reached
  exact ⟨_, rfl, hreturns, x, hreached, hdrained, hdrained.log_eq fun d result h => h⟩

end Drain

end Courier
