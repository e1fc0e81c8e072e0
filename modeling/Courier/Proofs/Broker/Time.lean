import Courier.Proofs.Broker.Conservation
import Courier.Proofs.Broker.Register

/-!
# What leaves the clock alone

The clock is set from outside (`Broker.now_setClock`). Nothing else that happens to the transport
takes any time (`Broker.now_apply`): most of it leaves the register alone as well
(`Broker.KeepsRegister`), and what makes an entry there wakes somebody at the most.
-/

namespace Courier.Broker

variable {b : Broker} {e : Event}

/-- The clock shows the time that it was set to. -/
theorem now_setClock (b : Broker) (now : Nat) : (b.setClock now).now = now :=
  (keepsRegister_setClock b now).now

theorem now_consume (b : Broker) (consumer owner : Nat) :
    (b.consume consumer owner).1.now = b.now := by
  unfold consume
  split
  · rfl
  · split
    · rfl
    · exact (KeepsRegister.wake ..).now

theorem now_abort (b : Broker) (consumer : Nat) : (b.abort consumer).now = b.now := by
  unfold abort
  split
  · rfl
  · simp only
    split
    · exact (KeepsRegister.wake ..).now
    · rfl

/-- Time passes only if the clock is set. -/
theorem now_apply (b : Broker) (he : ∀ now, e ≠ .setClock now) : (b.apply e).now = b.now := by
  cases e with
  | publish id payload => exact (KeepsRegister.publish ..).now
  | fail text => exact (KeepsRegister.send ..).now
  | clonePublisher => exact (KeepsRegister.clonePublisher b).now
  | dropPublisher => exact (KeepsRegister.dropPublisher b).now
  | receive lane => exact (KeepsRegister.takeMessage b lane).now
  | receiveError lane => exact (KeepsRegister.takeError b lane).now
  | settle seq disposition => exact (KeepsRegister.settle b seq disposition).now
  | dropMessage seq => exact (KeepsRegister.dropMessage b seq).now
  | dropErrors lane => exact (KeepsRegister.dropErrors b lane).now
  | dropMessages lane => exact (KeepsRegister.dropMessages b lane).now
  | forward lane favourNew => exact (KeepsRegister.advance b lane favourNew).now
  | overrun lane favourNew => exact (KeepsRegister.overrun b lane favourNew).now
  | consume consumer owner => exact now_consume b consumer owner
  | abort consumer => exact now_abort b consumer
  | create =>
    simp only [apply, create]
    split <;> rfl
  | setClock now => exact absurd rfl (he now)
  | giveUp | failAttempts | dropFactory | setTimeout | close | dropConsumer => rfl

end Courier.Broker
