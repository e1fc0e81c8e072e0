import Courier.Worker.Potential

/-!
# Turns and time

Runs and forwarders are tasks. Each woken task gets its turn in the order in which it was woken, and
goes on until it has to wait. All turns come to an end by themselves (`Worker.turn_decreases`). The
clock stands still while any task is woken, and then goes straight to the next time that a task
waits for.
-/

namespace Courier.Worker

/-! ## Turns -/

/-- Takes the task whose turn it is one step further; the turn is over when it rests. -/
def turn (w : Worker) : Task → Worker
  | .forwarder lane => w.onto (w.broker.runForwarder lane)
  | .reader n => (w.stepRun n).getD (w.onto w.broker.dismiss)

/-- A turn lowers the potential, or it lowers the load, or it is over. -/
theorem turn_decreases {w : Worker} {task : Task} {rest : List Task}
    (h : w.broker.ready = task :: rest) :
    Prod.Lex (· < ·) (Prod.Lex (· < ·) (· < ·))
      ((w.turn task).potential, (w.turn task).load, (w.turn task).broker.ready.length)
      (w.potential, w.load, w.broker.ready.length) := by
  cases task with
  | forwarder lane =>
    have hpotential : (w.turn (.forwarder lane)).potential + w.broker.potential =
        w.potential + (w.broker.runForwarder lane).potential := by
      simp only [turn, potential, onto]
      omega
    rcases Broker.runForwarder_decreases h lane with hless | ⟨hsame, hless⟩
    · exact .left _ _ (by omega)
    · rw [show (w.turn (.forwarder lane)).potential = w.potential by omega]
      exact .right _ (.right _ hless)
  | reader n =>
    cases hstep : w.stepRun n with
    | none =>
      have hturn : w.turn (.reader n) = w.onto w.broker.dismiss := by rw [turn, hstep]; rfl
      rw [hturn]
      refine .right _ (.right _ ?_)
      simp [onto, Broker.dismiss, h]
    | some w' =>
      have hturn : w.turn (.reader n) = w' := by rw [turn, hstep]; rfl
      rw [hturn]
      rcases stepRun_decreases hstep with hless | ⟨hsame, hless⟩
      · exact .left _ _ hless
      · rw [hsame]
        exact .right _ (.left _ _ hless)

/-- Gives every task its turn until none is woken. -/
def quiesce (w : Worker) : Worker :=
  match _h : w.broker.ready with
  | [] => w
  | task :: _ => (w.turn task).quiesce
termination_by (w.potential, w.load, w.broker.ready.length)
decreasing_by exact turn_decreases _h

/-! ## Time -/

/-- The first time at which a task goes on by itself. -/
def nextWake? (w : Worker) : Option Nat :=
  (w.broker.deadlines ++ w.runs.filterMap WorkerRun.wakeAt?).min?

/-- Sets the clock, and wakes the tasks that have waited for that time. -/
def setClock (w : Worker) (now : Nat) : Worker :=
  let due := (List.range w.runs.length).filter fun n =>
    (w.runs[n]?).any fun r => r.wakeAt?.any (· ≤ now)
  w.onto (due.foldl (fun b n => b.wake (.reader n)) (w.broker.setClock now))

/-- Lets time pass until `target`. The clock stops on the way whenever a task has waited for that
time. -/
def passUntil (target now : Nat) (w : Worker) : Worker :=
  let next := min (w.nextWake?.getD target) target
  if now < next ∧ next < target then (w.setClock next).quiesce.passUntil target next
  else (w.setClock target).quiesce
termination_by target - now

/-- Lets so many milliseconds pass. -/
def sleep (w : Worker) (millis : Nat) : Worker :=
  w.passUntil (w.broker.now + millis) w.broker.now

/-! ## Publishing -/

/-- What becomes of something that is published. -/
inductive Publication where
  /-- It is on the queue. -/
  | accepted
  /-- There is no room for it. -/
  | blocked
  /-- There is no queue for it any more. -/
  | refused
  /-- There is no publisher. -/
  | unpublished

/-- What becomes of an envelope once every task had its turns; one that still waits is given up. -/
def conclude (w : Worker) (sent : Broker × Broker.Admission) : Worker × Publication :=
  match sent with
  | (b, .refused) => (w.onto b, .refused)
  | (b, .accepted) => ((w.onto b).quiesce, .accepted)
  | (b, .waiting ticket) =>
    let w := (w.onto b).quiesce
    if w.broker.isWaiting ticket then (w.onto (w.broker.giveUp ticket), .blocked)
    else (w, .accepted)

/-- Publishes a message, if there is a publisher. -/
def publish (w : Worker) (id : Option String) (payload : Json) : Worker × Publication :=
  if w.broker.publishers = 0 then (w, .unpublished) else w.conclude (w.broker.publish id payload)

/-- Publishes an error, if there is a publisher. -/
def fail (w : Worker) (text : String) : Worker × Publication :=
  if w.broker.publishers = 0 then (w, .unpublished) else w.conclude (w.broker.fail text)

end Courier.Worker
