import Courier.Proofs.Broker.Time
import Courier.Proofs.Broker.Waking
import Courier.Proofs.Worker.Actions
import Courier.Worker.Schedule

/-!
# When no task is woken any more

Once all turns were taken, no task is woken (`Worker.ready_quiesce`), and no forwarder could take
another step, provided that every forwarder with something to do was woken at the beginning
(`Worker.rests_quiesce`). Turns take no time (`Worker.now_quiesce`), so a sleep is over exactly when
it should be (`Worker.now_sleep`).

The turn of a forwarder is one of the transport. What a run does in its turn it does as a user of
the transport, who moves neither a forwarder nor the clock.
-/

namespace Courier

/-! ## Users of the transport -/

namespace Broker

/-- Whether an event is neither a step of a forwarder nor a change of the clock. -/
def Event.isOfUser : Event → Bool
  | .forward .. | .overrun .. | .setClock _ => false
  | _ => true

variable {b b' : Broker} {events : List Event}

/-- What users do wakes every forwarder that it concerns. -/
theorem preservesAwake_foldl (hsigns : b.queueState.SignsKept) (h : ∀ e ∈ events, e.isOfUser) :
    PreservesAwake none b (events.foldl apply b) := by
  induction events generalizing b with
  | nil => exact .refl none b
  | cons e events ih =>
    obtain ⟨he, hrest⟩ := List.forall_mem_cons.mp h
    have hfirst : PreservesAwake none b (b.apply e) :=
      .apply hsigns e (by rintro _ _ rfl; cases he) (by rintro _ _ rfl; cases he)
    exact hfirst.trans (ih (signsKept_apply hsigns e) hrest)

/-- What users do takes no time. -/
theorem now_foldl (b : Broker) (h : ∀ e ∈ events, e.isOfUser) :
    (events.foldl apply b).now = b.now := by
  induction events generalizing b with
  | nil => rfl
  | cons e events ih =>
    obtain ⟨he, hrest⟩ := List.forall_mem_cons.mp h
    exact (ih (b.apply e) hrest).trans (now_apply b (by rintro _ rfl; cases he))

/-- Waking more tasks than before keeps all forwarders awake that were. -/
theorem LogsAndWakes.preservesAwake (h : b.LogsAndWakes b') : PreservesAwake none b b' := by
  obtain ⟨_, _, hready, rfl⟩ := h
  exact .of_eq hready (fun _ _ => rfl) (fun _ _ => id) id rfl

theorem LogsAndWakes.now (h : b.LogsAndWakes b') : b'.now = b.now := by
  obtain ⟨_, _, -, rfl⟩ := h
  rfl

/-- When a reader's turn is over, the forwarders are as they were. -/
theorem awake_dismiss {n : Nat} {rest : List Task} (h : b.Awake)
    (hready : b.ready = .reader n :: rest) :
    b.dismiss.Awake := by
  intro lane
  refine (h lane).imp (fun hwoken => ?_) id
  rw [IsWoken, hready] at hwoken
  have hlater : .forwarder lane ∈ rest := by simpa using hwoken
  rw [IsWoken, dismiss, hready]
  exact hlater

end Broker

namespace Worker

variable {w w' : Worker} {n : Nat} {r : WorkerRun} {task : Task} {rest : List Task}

theorem isOfUser_brokerEventsOf (w : Worker) (n : Nat) (r : WorkerRun) :
    ∀ e ∈ w.brokerEventsOf n r, e.isOfUser := by
  unfold brokerEventsOf
  cases r.phase with
  | polling errorsOpen =>
    unfold brokerEventsOn
    dsimp only
    split <;> simp [Broker.Event.isOfUser]
  | _ => simp [Broker.Event.isOfUser]

/-- A step of a run is what a user does; beyond that it logs and wakes. -/
theorem isOfUser_stepRun (h : w.stepRun n = some w') :
    ∃ events : List Broker.Event, (∀ e ∈ events, e.isOfUser) ∧
      (events.foldl Broker.apply w.broker).LogsAndWakes w'.broker := by
  cases hr : w.runs[n]? with
  | none =>
    simp only [stepRun, hr] at h
    cases h
  | some r => exact ⟨_, isOfUser_brokerEventsOf w n r, logsAndWakes_stepRun hr h⟩

/-! ## Turns -/

/-- What every turn keeps is kept until no task is woken. -/
theorem quiesce_induction {motive : Worker → Prop} (w : Worker) (h : motive w)
    (hturn : ∀ w task rest, w.broker.ready = task :: rest → motive w → motive (w.turn task)) :
    motive w.quiesce := by
  fun_induction quiesce w with
  | case1 w => exact h
  | case2 w task rest hready ih => exact ih (hturn w task rest hready h)

/-- No task is woken any more. -/
theorem ready_quiesce (w : Worker) : w.quiesce.broker.ready = [] := by
  fun_induction quiesce w with
  | case1 w hready => exact hready
  | case2 w task rest hready ih => exact ih

/-- A forwarder that has its turn was woken. A run that has its turn takes a step, or its turn is
over. -/
theorem turn_cases (hready : w.broker.ready = task :: rest) :
    (∃ lane, w.broker.IsWoken lane ∧ w.turn task = w.onto (w.broker.turn lane false)) ∨
      ∃ n, w.stepRun n = some (w.turn task) ∨
        task = .reader n ∧ w.turn task = w.onto w.broker.dismiss := by
  have hhead : w.broker.ready.head? = some task := by rw [hready, List.head?_cons]
  cases task with
  | forwarder lane =>
    have hturn : w.turn (.forwarder lane) = w.onto (w.broker.runForwarder lane) := rfl
    rw [hturn, Broker.runForwarder_eq_turn hhead]
    exact .inl ⟨lane, List.mem_of_head? hhead, rfl⟩
  | reader n =>
    have hturn : w.turn (.reader n) = (w.stepRun n).getD (w.onto w.broker.dismiss) := rfl
    refine .inr ⟨n, ?_⟩
    rw [hturn]
    cases w.stepRun n with
    | none => exact .inr ⟨rfl, rfl⟩
    | some w' => exact .inl rfl

/-- A turn leaves every forwarder that has something to do awake. -/
theorem awake_turn (hready : w.broker.ready = task :: rest)
    (h : w.broker.Awake ∧ w.broker.queueState.SignsKept) :
    (w.turn task).broker.Awake ∧ (w.turn task).broker.queueState.SignsKept := by
  obtain ⟨hawake, hsigns⟩ := h
  rcases turn_cases hready with ⟨lane, hwoken, hturn⟩ | ⟨n, hstep | ⟨rfl, hturn⟩⟩
  · rw [hturn]
    have hhappens : w.broker.happen (.forward lane false) = some (w.broker.turn lane false) :=
      if_pos hwoken
    exact hawake.happen hsigns hhappens
  · obtain ⟨events, husers, hlogs⟩ := isOfUser_stepRun hstep
    have hpreserves := (Broker.preservesAwake_foldl hsigns husers).trans hlogs.preservesAwake
    exact ⟨hpreserves.awake hawake, signsKept_of_occur (e := .run n) hsigns hstep⟩
  · rw [hturn]
    exact ⟨Broker.awake_dismiss hawake hready, hsigns⟩

/-- When no task is woken any more, no forwarder could take a step if it had another turn, provided
that every forwarder with something to do was woken at the beginning. -/
theorem rests_quiesce (hawake : w.broker.Awake) (hsigns : w.broker.queueState.SignsKept)
    (lane : Nat) (favourNew : Bool) :
    w.quiesce.broker.advance lane favourNew = (w.quiesce.broker, .resting) := by
  obtain ⟨hawake', -⟩ :=
    quiesce_induction (motive := fun w => w.broker.Awake ∧ w.broker.queueState.SignsKept)
    w ⟨hawake, hsigns⟩ fun _ _ _ hready => awake_turn hready
  refine Broker.advance_of_rests ((hawake' lane).resolve_left fun hwoken => ?_) favourNew
  rw [Broker.IsWoken, ready_quiesce] at hwoken
  cases hwoken

/-! ## Time -/

theorem now_turn (hready : w.broker.ready = task :: rest) :
    (w.turn task).broker.now = w.broker.now := by
  rcases turn_cases hready with ⟨lane, -, hturn⟩ | ⟨n, hstep | ⟨-, hturn⟩⟩
  · rw [hturn]
    have hadvance := (Broker.KeepsRegister.advance w.broker lane false).now
    show (w.broker.turn lane false).now = w.broker.now
    rw [← hadvance, Broker.turn]
    split <;> simp_all
  · obtain ⟨events, husers, hlogs⟩ := isOfUser_stepRun hstep
    exact hlogs.now.trans (Broker.now_foldl w.broker husers)
  · rw [hturn]
    rfl

/-- Turns take no time. -/
theorem now_quiesce (w : Worker) : w.quiesce.broker.now = w.broker.now :=
  quiesce_induction (motive := fun w' => w'.broker.now = w.broker.now) w rfl
    fun _ _ _ hready hnow => (now_turn hready).trans hnow

theorem now_setClock (w : Worker) (now : Nat) : (w.setClock now).broker.now = now :=
  List.foldlRecOn (motive := fun b : Broker => b.now = now) _ _ (Broker.now_setClock ..)
    fun _ hnow _ _ => (Broker.KeepsRegister.wake ..).now.trans hnow

theorem now_passUntil (w : Worker) (target now : Nat) :
    (w.passUntil target now).broker.now = target := by
  fun_induction passUntil target now w with
  | case1 w now next hgo ih => exact ih
  | case2 w now next hgo => rw [now_quiesce, now_setClock]

/-- A sleep is over exactly when it should be. -/
theorem now_sleep (w : Worker) (millis : Nat) :
    (w.sleep millis).broker.now = w.broker.now + millis :=
  now_passUntil ..

end Worker

end Courier
