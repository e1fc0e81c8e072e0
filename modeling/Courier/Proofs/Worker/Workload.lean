import Courier.Proofs.Order
import Courier.Proofs.Worker.Drained
import Courier.Proofs.Worker.Failing

/-!
# Orders and the component that handles them

A task publishes orders, one after the other, waits for room when the queue is full, and keeps its
publisher. Meanwhile a component with the processor of orders is run, and run again each time a run
has failed. `Workload.Step` lists what can happen next, in whatever order the tasks get their turns;
nobody publishes errors, and nobody asks a run to stop.

A workload is a drain whose processor goes by the payload: what happens to the one happens to the
other, but for what the processor logs (`Workload.Sound.simulates`). So it comes to rest
(`Workload.Sound.measure_lt`), and when it does, the task has published all orders, no message is
under way, and the last run looks around (`Workload.Sound.act_or_rests`).
-/

namespace Courier

/-- A task that publishes orders, and a component that handles them. -/
structure Workload where
  /-- The transport, and the runs so far. -/
  worker : Worker
  /-- The orders that the task has still to publish. -/
  orders : List Order

namespace Workload

/-- The same at another time. -/
def atTime (x : Workload) (now : Nat) : Workload :=
  { x with worker := x.worker.onto (x.worker.broker.setClock now) }

/-- What can happen at a moment. The component has the rules `p`. -/
inductive Act (p : Profile) (x : Workload) : Workload → Prop
  /-- The task publishes the next order, unless it still waits for room. -/
  | publish {order : Order} {rest : List Order} (horders : x.orders = order :: rest)
    (hfree : x.worker.broker.blocked = []) :
    Act p x ⟨x.worker.onto (x.worker.broker.publish (some (Demo.orderId order)) order.toJson).1,
      rest⟩
  /-- The component is run for the first time, or again since its last run has failed. -/
  | start (hidle : x.worker.isIdle)
    (hagain : ∀ r, x.worker.runs.getLast? = some r →
      ∃ fault, r.phase.result? = some (.error fault)) :
    Act p x { x with worker := x.worker.start p .orders (.ofBool false) }
  /-- A run goes on. -/
  | run {n : Nat} {w : Worker} (h : x.worker.stepRun n = some w) : Act p x { x with worker := w }
  /-- A run that is over with its streams lets go of the errors only. -/
  | dropErrors {n : Nat} {r : WorkerRun} {l : Lane} {w : Worker} (hr : x.worker.runs[n]? = some r)
    (hl : x.worker.broker.lanes[r.lane]? = some l) (hreads : l.readsErrors = true)
    (h : x.worker.letGo n Broker.dropErrors = some w) : Act p x { x with worker := w }
  /-- A run that is over with its streams lets go of the messages, and has not gone on yet. -/
  | dropMessages {n : Nat} {r : WorkerRun} {l : Lane} {w : Worker} (hr : x.worker.runs[n]? = some r)
    (hl : x.worker.broker.lanes[r.lane]? = some l) (hreads : l.readsMessages = true)
    (h : x.worker.letGo n Broker.dropMessages = some w) : Act p x { x with worker := w }
  /-- A forwarder has a turn that does not come to nothing. -/
  | forward {lane : Nat} {favourNew : Bool}
    (hchange : (x.worker.broker.advance lane favourNew).1 ≠ x.worker.broker) :
    Act p x { x with worker := x.worker.onto (x.worker.broker.advance lane favourNew).1 }
  /-- A forwarder goes on although it was asked to end meanwhile. -/
  | overrun {lane : Nat} {favourNew : Bool}
    (hchange : x.worker.broker.overrun lane favourNew ≠ x.worker.broker) :
    Act p x { x with worker := x.worker.onto (x.worker.broker.overrun lane favourNew) }

/-- What can happen after some time, or at once. -/
def Step (p : Profile) (x y : Workload) : Prop := ∃ now, Act p (x.atTime now) y

end Workload

/-! ## What the processor of orders does -/

/-- Whether a run has the processor of orders, which does no more with a message than to log. -/
structure WorkerRun.HandlesOrders (r : WorkerRun) : Prop where
  processor : r.processor = .orders
  errand : r.errand.acts = [] ∨ ∃ notice, r.errand.acts = [.log notice]

namespace WorkerRun.HandlesOrders

variable {r : WorkerRun}

theorem of_eq {r' : WorkerRun} (h : r.HandlesOrders) (hprocessor : r'.processor = r.processor)
    (herrand : r'.errand = r.errand) : r'.HandlesOrders :=
  ⟨hprocessor.trans h.processor, herrand ▸ h.errand⟩

theorem prepare (h : r.HandlesOrders) : r.prepare.HandlesOrders := by
  unfold WorkerRun.prepare
  split
  · next d _ hphase =>
    have hacts := Processor.acts_orders d.id (.ok d.payload)
    rw [← h.processor] at hacts
    exact ⟨h.processor, hacts⟩
  · exact h

theorem length_acts_le (h : r.HandlesOrders) : r.errand.acts.length ≤ 1 := by
  rcases h.errand with hacts | ⟨notice, hacts⟩ <;> rw [hacts]
  · exact Nat.zero_le _
  · exact Nat.le_refl _

end WorkerRun.HandlesOrders

namespace Worker

variable {w w' : Worker} {n : Nat} {r : WorkerRun} {older : List WorkerRun}

/-- The worker after the processor of the `n`-th run has logged something. -/
def afterLog (w : Worker) (n : Nat) (rest : Errand) (notice : Notice) : Worker :=
  (w.modifyRun n fun r => { r with errand := rest }).onto (w.broker.log notice)

/-- The processor of orders is done with a message, or logs something first. -/
theorem processFor_orders (h : r.HandlesOrders) {d : Delivery}
    (hstep : w.processFor n r d = some w') :
    w.answer n r (.process (Processor.orders.plan d.id (.ok d.payload)).result) = some w' ∨
      ∃ notice, r.errand.acts = [.log notice] ∧
        w' = w.afterLog n { r.errand with acts := [] } notice := by
  rcases h.errand with hacts | ⟨notice, hacts⟩
  · rw [processFor, Errand.move, hacts, WorkerRun.planFor, h.processor] at hstep
    exact .inl hstep
  · rw [processFor, Errand.move, hacts] at hstep
    exact .inr ⟨notice, hacts, (Option.some.inj hstep).symm⟩

/-- A run whose processor is that of orders always goes on while it has a message. -/
theorem processFor_isSome (h : r.HandlesOrders) {errorsOpen : Bool} {d : Delivery} {since : Nat}
    (hphase : r.phase = .processing errorsOpen d since) : (w.processFor n r d).isSome := by
  rcases h.errand with hacts | ⟨notice, hacts⟩
  · rw [processFor, Errand.move, hacts]
    exact onto_answer_isSome (b := w.broker) (by simp [hphase, Phase.step])
  · rw [processFor, Errand.move, hacts]
    rfl

theorem handlesOrders_answer {a : Answer Delivery} (h : ∀ q ∈ w.runs, q.HandlesOrders)
    (hr : r.HandlesOrders) (hstep : w.answer n r a = some w') : ∀ q ∈ w'.runs, q.HandlesOrders := by
  obtain ⟨turn, -, rfl⟩ := Option.map_eq_some_iff.mp hstep
  exact forall_mem_modify h fun _ _ =>
    WorkerRun.HandlesOrders.prepare (hr.of_eq rfl rfl : (r.take turn).HandlesOrders)

theorem LastSteps.publishers_eq (h : w.LastSteps older r w') :
    w'.broker.publishers = w.broker.publishers := by
  obtain ⟨r', -, -, -, hsteps⟩ := h
  exact hsteps.publishing_eq.1

/-- As a run goes on it keeps its processor. -/
theorem handlesOrders_stepRun (h : ∀ q ∈ w.runs, q.HandlesOrders) (hstep : w.stepRun n = some w') :
    ∀ q ∈ w'.runs, q.HandlesOrders := by
  unfold stepRun at hstep
  split at hstep
  · cases hstep
  next r hr =>
  have hhandles := h r (List.mem_of_getElem? hr)
  have hanswer {b : Broker} {r' : WorkerRun} {a : Answer Delivery} {w' : Worker}
      (hr' : r'.HandlesOrders) (hanswer : (w.onto b).answer n r' a = some w') :
      ∀ q ∈ w'.runs, q.HandlesOrders := handlesOrders_answer (w := w.onto b) h hr' hanswer
  cases hphase : r.phase with
  | creating attempt =>
    rw [hphase] at hstep
    change w.createFor n r = some w' at hstep
    unfold createFor at hstep
    split at hstep
    · refine hanswer ?_ hstep
      exact hhandles.of_eq rfl rfl
    · exact hanswer hhandles hstep
  | retrying attempt deadline =>
    rw [hphase] at hstep
    simp only at hstep
    split at hstep
    · exact handlesOrders_answer h hhandles hstep
    · cases hstep
  | consuming =>
    rw [hphase] at hstep
    change w.consumeFor n r = some w' at hstep
    unfold consumeFor at hstep
    split at hstep
    · refine hanswer ?_ hstep
      exact hhandles.of_eq rfl rfl
    · exact hanswer hhandles hstep
  | polling errorsOpen =>
    rw [hphase] at hstep
    change w.pollFor n r errorsOpen = some w' at hstep
    unfold pollFor actOn at hstep
    split at hstep
    · cases hstep
    · exact hanswer hhandles hstep
  | processing errorsOpen d since =>
    rw [hphase] at hstep
    rcases processFor_orders hhandles hstep with hprocess | ⟨notice, -, rfl⟩
    · exact handlesOrders_answer h hhandles hprocess
    · exact forall_mem_modify h fun q hq => ⟨hq.processor, .inl rfl⟩
  | settling errorsOpen d failure =>
    rw [hphase] at hstep
    exact hanswer hhandles hstep
  | releasing result =>
    rw [hphase] at hstep
    exact hanswer hhandles hstep
  | closing result =>
    rw [hphase] at hstep
    change w.closeFor n r = some w' at hstep
    unfold closeFor at hstep
    split at hstep
    · obtain ⟨w₁, hclose, rfl⟩ := Option.map_eq_some_iff.mp hstep
      show ∀ q ∈ w₁.runs, _
      exact hanswer hhandles hclose
    · cases hstep
  | stopped result =>
    rw [hphase] at hstep
    cases hstep

end Worker

/-! ## Workloads are drains -/

/-- What the task publishes for an order. -/
def Order.item (order : Order) : Item := .message (some (Demo.orderId order)) order.toJson

/-- There are no errors among orders. -/
theorem Order.countP_item (orders : List Order) : (orders.map item).countP Item.isError = 0 := by
  rw [List.countP_map, List.countP_eq_zero]
  exact fun _ _ => Bool.false_ne_true

namespace Workload

variable {p : Profile} {orders : List Order} {x y : Workload}
  {judged : List (Delivery × Except String Unit)} {n : Nat} {accepted : List Parcel}

/-- Whether the processor of orders is done with a message in this way. -/
def Answers (d : Delivery) (result : Except String Unit) : Prop :=
  result = (Processor.orders.plan d.id (.ok d.payload)).result

/-- A workload as a drain. -/
def drain (x : Workload) (judged : List (Delivery × Except String Unit)) : Drain where
  worker := x.worker
  script := x.orders.map Order.item
  stops := 0
  judged := judged

/-- What holds of a workload that has begun with these orders, if its processor was done with
messages as `judged` says. -/
structure Sound (p : Profile) (orders : List Order) (x : Workload)
    (judged : List (Delivery × Except String Unit)) (n : Nat) (accepted : List Parcel) : Prop where
  drain : (x.drain judged).Sound p Answers (orders.map Order.item) 0 n accepted
  traced : (x.drain judged).Traced p
  publishers : x.worker.broker.publishers ≠ 0
  handlers : ∀ q ∈ x.worker.runs, q.HandlesOrders

/-- Whether the processor of the last run logs something. -/
inductive Logs (x : Workload) : Workload → Prop
  | log {older : List WorkerRun} {r : WorkerRun} {rest : Errand} {notice : Notice}
    (hlast : x.worker.IsLast older r) (hacts : r.errand.acts = [.log notice])
    (hrest : rest.acts = []) :
    Logs x { x with worker := x.worker.afterLog older.length rest notice }

namespace Sound

/-- A run that has ended has failed. -/
theorem processing_of_ended (h : x.Sound p orders judged n accepted) {q : WorkerRun}
    (hq : q ∈ x.worker.runs) {result : RunResult} (hresult : q.phase.result? = some result) :
    ∃ cause, q.phase = .stopped (.error (.processing cause)) :=
  h.drain.processing_of_ended (Order.countP_item orders) h.publishers hq hresult

/-- As a run goes on, so does that of the drain; or something is logged. -/
theorem simulates_run (h : x.Sound p orders judged n accepted) {i : Nat} {w : Worker}
    (hstep : x.worker.stepRun i = some w) :
    (∃ judged', Drain.Act p Answers (x.drain judged) ({ x with worker := w }.drain judged') ∧
      w.broker.publishers = x.worker.broker.publishers) ∨ x.Logs { x with worker := w } := by
  by_cases hprocessing : ∃ r e d t, x.worker.runs[i]? = some r ∧ r.phase = .processing e d t
  · obtain ⟨r, e, d, t, hr, hphase⟩ := hprocessing
    have hhandles := h.handlers r (List.mem_of_getElem? hr)
    rw [Worker.stepRun, hr] at hstep
    simp only [hphase] at hstep
    rcases Worker.processFor_orders hhandles hstep with hanswer | ⟨notice, hacts, rfl⟩
    · have hfinish : x.worker.apply
          (.finish i (Processor.orders.plan d.id (.ok d.payload)).result) = some w := by
        show x.worker.finishFor i _ = some w
        rw [Worker.finishFor, hr]
        simp only [hphase]
        exact hanswer
      refine .inl ⟨_, .finish hr hphase rfl hfinish, ?_⟩
      exact congrArg Core.publishers (Worker.core_of_answer (b := x.worker.broker) hanswer)
    · obtain ⟨older, hlast, rfl, -⟩ := h.drain.orderly.isLast_of_active hr (by rw [hphase]; rfl)
      exact .inr (.log hlast hacts rfl)
  · have hother : ∀ r, x.worker.runs[i]? = some r → ∀ e d t, r.phase ≠ .processing e d t :=
      fun r hr e d t hphase => hprocessing ⟨r, e, d, t, hr, hphase⟩
    obtain ⟨older, r, -, -, -, hlastSteps⟩ := h.drain.lastSteps_run hother hstep
    exact .inl ⟨judged, .run hother hstep, hlastSteps.publishers_eq⟩

/-- What happens to a workload happens to the drain, which keeps its publishers; or something is
logged. -/
theorem simulates (h : x.Sound p orders judged n accepted) (hact : Act p x y) :
    (∃ judged', Drain.Act p Answers (x.drain judged) (y.drain judged') ∧
      y.worker.broker.publishers = x.worker.broker.publishers) ∨ x.Logs y := by
  have hforwarded {b : Broker} {l : Lane}
      (hforward : x.worker.broker.core.ForwarderStep n l b.core) :
      b.publishers = x.worker.broker.publishers := by
    obtain ⟨l', hrest, -⟩ := hforward.only
    exact congrArg Core.publishers hrest
  have halone := Broker.alone_of_lined h.drain.orderly.lined
  cases hact with
  | @publish order rest horders hfree =>
    have hscript : (x.drain judged).script = order.item :: rest.map Order.item := by
      show x.orders.map Order.item = _
      rw [horders]
      rfl
    refine .inl ⟨judged, .publish hscript hfree rfl, ?_⟩
    obtain ⟨incoming, blocked, henqueue⟩ := Core.enqueue_eq
      { x.worker.broker.core with nextSeq := x.worker.broker.nextSeq + 1 } _
    exact congrArg Core.publishers
      ((Broker.core_publish h.drain.wellFormed.kept _ _).trans henqueue)
  | start hidle hagain =>
    have hopen : ∀ r, x.worker.runs.getLast? = some r →
        r.phase.result? ≠ some (.error .streamClosed) := by
      intro r hr hclosed
      obtain ⟨cause, hphase⟩ := h.processing_of_ended (List.mem_of_getLast? hr) hclosed
      rw [hphase] at hclosed
      cases hclosed
    refine .inl ⟨judged, .start hopen rfl (if_pos hidle), ?_⟩
    exact congrArg Core.publishers (Broker.core_wake _ _)
  | run hstep => exact h.simulates_run hstep
  | dropErrors hr hl hreads hstep =>
    obtain ⟨older, result, -, -, hlastSteps⟩ := h.drain.lastSteps_dropErrors hr hl hreads hstep
    exact .inl ⟨judged, .dropErrors hr hl hreads hstep, hlastSteps.publishers_eq⟩
  | dropMessages hr hl hreads hstep =>
    obtain ⟨older, result, -, -, hlastSteps⟩ := h.drain.lastSteps_dropMessages hr hl hreads hstep
    exact .inl ⟨judged, .dropMessages hr hl hreads hstep, hlastSteps.publishers_eq⟩
  | forward hchange =>
    obtain ⟨l, -, hforward⟩ :=
      Broker.forwarderStep_of_ne halone h.drain.wellFormed.noLimit (.inl rfl) hchange
    exact .inl ⟨judged, .forward rfl hchange, hforwarded hforward⟩
  | overrun hchange =>
    obtain ⟨l, -, hforward⟩ :=
      Broker.forwarderStep_of_ne halone h.drain.wellFormed.noLimit (.inr rfl) hchange
    exact .inl ⟨judged, .overrun rfl hchange, hforwarded hforward⟩

/-- All runs keep the processor of orders. -/
theorem handlers_act (h : x.Sound p orders judged n accepted) (hact : Act p x y) :
    ∀ q ∈ y.worker.runs, q.HandlesOrders := by
  have hletGo {i : Nat} {f : Broker → Nat → Broker} {w : Worker}
      (hstep : x.worker.letGo i f = some w) : ∀ q ∈ w.runs, q.HandlesOrders := by
    unfold Worker.letGo at hstep
    split at hstep
    · cases hstep
    · split at hstep
      · exact Option.some.inj hstep ▸ h.handlers
      · cases hstep
  cases hact with
  | publish | forward | overrun => exact h.handlers
  | start =>
    show ∀ q ∈ x.worker.runs ++ [_], _
    rw [List.forall_mem_append, List.forall_mem_singleton]
    exact ⟨h.handlers, rfl, .inl rfl⟩
  | run hstep => exact Worker.handlesOrders_stepRun h.handlers hstep
  | dropErrors _ _ _ hstep | dropMessages _ _ _ hstep => exact hletGo hstep

/-- What is logged shows neither in the states of the runs nor in the transport. -/
theorem logs (h : x.Sound p orders judged n accepted) (hlogs : x.Logs y) :
    (y.drain judged).Sound p Answers (orders.map Order.item) 0 n accepted ∧
      (y.drain judged).Traced p := by
  obtain @⟨older, r, rest, notice, hlast, -, -⟩ := hlogs
  have hsignals : (x.worker.afterLog older.length rest notice).runs.map WorkerRun.signal =
      x.worker.runs.map WorkerRun.signal := Worker.map_modifyRun x.worker older.length fun _ => rfl
  constructor
  · refine h.drain.modify rfl (fun _ => rfl) (fun _ => rfl) (fun _ => id) rfl rfl
      (Worker.standings_modifyRun x.worker older.length fun _ => ⟨rfl, rfl⟩) (Nat.le_of_eq ?_)
    refine congrArg (· + 0) ?_
    show (x.worker.afterLog older.length rest notice).runs.countP
      (Signal.isStop ∘ WorkerRun.signal) = x.worker.runs.countP (Signal.isStop ∘ WorkerRun.signal)
    rw [← List.countP_map, hsignals, List.countP_map]
  · exact h.traced.of_states (Worker.states_of_modify rfl fun _ => rfl) rfl

/-- Whatever happens, a workload stays sound. -/
theorem act (h : x.Sound p orders judged n accepted) (hact : Act p x y) :
    ∃ judged' m accepted', y.Sound p orders judged' m accepted' := by
  have hhandlers := h.handlers_act hact
  rcases h.simulates hact with ⟨judged', hdrain, hsame⟩ | hlogs
  · obtain ⟨m, accepted', h'⟩ := h.drain.act hdrain
    exact ⟨judged', m, accepted', h', h.traced.act h.drain hdrain, hsame ▸ h.publishers, hhandlers⟩
  · obtain ⟨hsound, htraced⟩ := h.logs hlogs
    refine ⟨judged, n, accepted, hsound, htraced, ?_, hhandlers⟩
    cases hlogs
    exact h.publishers

theorem atTime (h : x.Sound p orders judged n accepted) (now : Nat) :
    (x.atTime now).Sound p orders judged n accepted where
  drain := h.drain.atTime now
  traced := h.traced.of_states rfl rfl
  publishers := by
    have hsame : (x.worker.broker.setClock now).publishers = x.worker.broker.publishers :=
      congrArg Core.publishers (Broker.core_setClock _ now)
    exact hsame ▸ h.publishers
  handlers := h.handlers

end Sound

/-! ## A workload comes to rest -/

/-- What the processor of the last run has still to do before it is done with its message. -/
def chores (x : Workload) : Nat := x.worker.runs.getLast?.elim 0 fun r => r.errand.acts.length

/-- How much there is left to do: what is logged comes between two steps of the drain. -/
def workLeft (orders : List Order) (x : Workload) : Nat :=
  2 * (x.drain []).workLeft (2 * orders.length + 1) + x.chores

namespace Sound

theorem chores_le (h : x.Sound p orders judged n accepted) : x.chores ≤ 1 := by
  unfold chores
  cases hlast : x.worker.runs.getLast? with
  | none => exact Nat.zero_le _
  | some r => exact (h.handlers r (List.mem_of_getLast? hlast)).length_acts_le

/-- Whatever happens, there is less to do then. -/
theorem workLeft_lt (h : x.Sound p orders judged n accepted) (hact : Act p x y) :
    y.workLeft orders < x.workLeft orders := by
  obtain ⟨judged', m, accepted', h'⟩ := h.act hact
  have hchores := h'.chores_le
  rcases h.simulates hact with ⟨judged'', hdrain, -⟩ | hlogs
  · obtain ⟨m', accepted'', hsound⟩ := h.drain.act hdrain
    have hmost := hsound.length_runs_le_of_script
    rw [List.length_map] at hmost
    have hless :
        (y.drain []).workLeft (2 * orders.length + 1) <
          (x.drain []).workLeft (2 * orders.length + 1) :=
      hdrain.workLeft_lt h.drain hmost
    unfold workLeft
    omega
  · obtain @⟨older, r, rest, notice, hlast, hacts, hrest⟩ := hlogs
    have hbefore : x.chores = 1 := by
      rw [chores, hlast.runs, List.getLast?_concat, Option.elim_some, hacts]
      rfl
    have hafter :
        ({ x with worker := x.worker.afterLog older.length rest notice } : Workload).chores =
        0 := by
      show ((x.worker.runs.modify _ _).getLast?).elim 0 _ = 0
      rw [hlast.runs, modify_length_append, List.getLast?_concat, Option.elim_some, hrest]
      rfl
    let y : Workload := { x with worker := x.worker.afterLog older.length rest notice }
    have hsame : (y.drain []).workLeft (2 * orders.length + 1) + 0 =
        (x.drain []).workLeft (2 * orders.length + 1) + 0 := by
      show ({ x.drain [] with worker := y.worker, stops := 0 } : Drain).workLeft
        _ + (x.drain []).stops = _
      exact Drain.workLeft_of_modify (i := older.length) (f := fun r =>
        { r with errand := rest }) rfl (fun _ => rfl) rfl
    change y.chores = 0 at hafter
    show 2 * (y.drain []).workLeft _ + y.chores < 2 * (x.drain []).workLeft _ + x.chores
    omega

end Sound

/-- Whether the task has published all orders, nothing is under way, and the last run `r` looks
around. -/
structure Rests (x : Workload) (n : Nat) (older : List WorkerRun) (r : WorkerRun) (e : Bool) :
    Prop where
  published : x.orders = []
  waiting : x.worker.broker.core.waiting = []
  lineup : x.worker.broker.contents.lineup n = []
  isLast : x.worker.IsLast older r
  polling : r.phase = .polling e

namespace Sound

/-- Something can happen unless the workload rests. -/
theorem act_or_rests (h : x.Sound p orders judged n accepted) :
    (∃ y, Act p x y) ∨ ∃ older r e, x.Rests n older r e := by
  have hacts {l : Lane} (hl : x.worker.broker.lanes[n]? = some l)
      (hforward : x.worker.broker.core.ForwarderStep n l (x.worker.broker.advance n true).1.core) :
      ∃ y, Act p x y := ⟨_, .forward (Broker.ne_of_forwarderStep hl hforward)⟩
  rcases h.drain.eq_nil_or_isLast with hruns | ⟨older, r, hlast⟩
  · change x.worker.runs = [] at hruns
    have hidle : x.worker.isIdle := by
      rw [Worker.isIdle, hruns]
      rfl
    refine .inl ⟨_, .start hidle fun r hr => ?_⟩
    rw [hruns] at hr
    cases hr
  · change x.worker.IsLast older r at hlast
    have hfits : x.worker.state.Fits x.worker.broker.core := h.drain.fits
    rw [hlast.state_eq] at hfits
    by_cases hpolling : ∃ e, r.phase = .polling e ∧ (x.worker.view r).pick e = none
    · obtain ⟨e, hphase, hpick⟩ := hpolling
      rcases h.drain.rests_or_forwarderStep_of_polling hlast hphase hpick with
        ⟨hlineup, hincoming, -⟩ | ⟨l, hl, hforward⟩
      · have hblocked := h.drain.wellFormed.blocked_of_empty hincoming
        cases horders : x.orders with
        | nil =>
          refine .inr ⟨older, r, e, horders, ?_, hlineup, hlast, hphase⟩
          rw [Core.waiting, show x.worker.broker.core.blocked = [] from hblocked]
          rfl
        | cons order rest => exact .inl ⟨_, .publish horders (List.map_eq_nil_iff.mp hblocked)⟩
      · exact .inl (hacts hl hforward)
    by_cases hclosing : ∃ result, r.phase = .closing result ∧ ¬ x.worker.broker.hasEnded r.lane
    · obtain ⟨result, hphase, hwaits⟩ := hclosing
      obtain ⟨l, hl, hforward⟩ := h.drain.forwarderStep_of_closing hlast hphase hwaits
      exact .inl (hacts hl hforward)
    left
    cases hphase : r.phase with
    | processing e d t =>
      have hsome : (x.worker.stepRun older.length).isSome := by
        rw [Worker.stepRun, hlast.getElem?_length]
        simp only [hphase]
        exact Worker.processFor_isSome (h.handlers r hlast.mem) hphase
      obtain ⟨w, hstep⟩ := Option.isSome_iff_exists.mp hsome
      exact ⟨_, .run hstep⟩
    | stopped result =>
      have hidle : x.worker.isIdle := hlast.isIdle (by rw [hphase]; rfl)
      refine ⟨_, .start hidle fun q hq => ?_⟩
      rw [hlast.runs, List.getLast?_concat] at hq
      obtain ⟨cause, hfailed⟩ := h.processing_of_ended hlast.mem (congrArg Phase.result? hphase)
      exact ⟨.processing cause, Option.some.inj hq ▸ congrArg Phase.result? hfailed⟩
    | _ =>
      obtain ⟨w, hstep⟩ := Option.isSome_iff_exists.mp
        (hlast.stepRun_isSome h.drain.wellFormed hfits
          (fun e he => Option.isSome_iff_ne_none.mpr fun hpick => hpolling ⟨e, he, hpick⟩)
          (by simp [hphase])
          (fun result hresult => by_contra fun hwaits => hclosing ⟨result, hresult, hwaits⟩)
          (by simp [hphase]))
      exact ⟨_, .run hstep⟩

/-- Where nothing can happen any more, the workload rests. -/
theorem rests_of_stuck (h : x.Sound p orders judged n accepted) (hstuck : ∀ y, ¬ Step p x y) :
    ∃ older r e, x.Rests n older r e := by
  rcases (h.atTime 0).act_or_rests with ⟨y, hact⟩ | ⟨older, r, e, hrests⟩
  · exact absurd ⟨0, hact⟩ (hstuck y)
  · refine ⟨older, r, e, hrests.published, ?_, ?_, ⟨hrests.isLast.runs, hrests.isLast.ended⟩,
      hrests.polling⟩
    · have hsame : (x.worker.broker.setClock 0).core = x.worker.broker.core :=
        Broker.core_setClock _ 0
      exact hsame ▸ hrests.waiting
    · have hsame : (x.worker.broker.setClock 0).contents = x.worker.broker.contents :=
        Broker.contents_setClock _ 0
      exact hsame ▸ hrests.lineup

/-- After each step the workload is sound, and there is less to do. -/
theorem step (h : x.Sound p orders judged n accepted) (hstep : Step p x y) :
    (∃ judged' m accepted', y.Sound p orders judged' m accepted') ∧
      y.workLeft orders < x.workLeft orders := by
  obtain ⟨now, hact⟩ := hstep
  refine ⟨(h.atTime now).act hact, ((h.atTime now).workLeft_lt hact).trans_eq ?_⟩
  exact congrArg (2 * · + x.chores) (Drain.workLeft_atTime (x.drain []) now)

/-- A workload comes to rest, however its tasks get their turns. -/
theorem comes_to_rest (h : x.Sound p orders judged n accepted) {motive : Workload → Prop}
    (hend : ∀ y judged n accepted older r e, y.Sound p orders judged n accepted →
      y.Rests n older r e → motive y) :
    Inevitably (Step p) (fun y => (∀ z, ¬ Step p y z) ∧ motive y) x := by
  refine inevitably_of_measure (fun x => ∃ judged n accepted, x.Sound p orders judged n accepted)
    (workLeft orders) ?_ ?_ ⟨judged, n, accepted, h⟩
  · rintro x y ⟨judged, n, accepted, h⟩ hstep
    exact h.step hstep
  · rintro x ⟨judged, n, accepted, h⟩ hopen
    by_contra hnone
    have hstuck : ∀ y, ¬ Step p x y := not_exists.mp hnone
    obtain ⟨older, r, e, hrests⟩ := h.rests_of_stuck hstuck
    exact hopen ⟨hstuck, hend x judged n accepted older r e h hrests⟩

/-- Whatever can be reached from a sound workload is sound. -/
theorem reaches (h : x.Sound p orders judged n accepted)
    (hreached : Relation.ReflTransGen (Step p) x y) :
    ∃ judged' m accepted', y.Sound p orders judged' m accepted' := by
  induction hreached with
  | refl => exact ⟨judged, n, accepted, h⟩
  | tail _ hstep ih =>
    obtain ⟨judged', m, accepted', h'⟩ := ih
    exact (h'.step hstep).1

end Sound

/-! ## The beginning -/

/-- A queue that was just made, and a task with its orders. -/
def opening (b : Broker) (orders : List Order) : Workload := ⟨{ broker := b }, orders⟩

theorem sound_opening {capacity : Nat} {b : Broker} (hopen : Broker.ofCapacity? capacity = some b)
    (p : Profile) (orders : List Order) : (opening b orders).Sound p orders [] 0 [] where
  drain := Drain.sound_opening hopen 0
  traced := ⟨by unfold causes; split <;> rfl, nofun⟩
  publishers := by
    obtain rfl := Broker.eq_of_ofCapacity? hopen
    exact Nat.one_ne_zero
  handlers := fun _ hq => absurd hq List.not_mem_nil

end Workload

end Courier
