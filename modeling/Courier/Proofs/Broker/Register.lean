import Courier.Proofs.Broker.Forwarding
import Courier.Proofs.Broker.Core

/-!
# The register of the transport

The factory counts the consumers that it makes, a consumer has at most one lane at a time, and a
lane is that of one reader, with a limit that does not change. `Broker.register` is the part of the
transport that says so.

Only a few operations make an entry: creating a consumer, starting it, beginning to close it and
closing it, and a change of the number of requests that are to fail. `register_create` and its like
say which. All others, the steps of forwarders among them, leave the register as it is. They leave
the clock as it is, too, so that `Broker.KeepsRegister` speaks of both, with one lemma for each
operation.
-/

namespace Courier

/-- What a transport knows of consumers and lanes. -/
structure Register where
  /-- The lanes of the consumers, for those that have one. -/
  consumerLanes : List (Option Nat)
  /-- The reader of each lane, and how long its forwarder waits for an envelope, if not for ever. -/
  laneReaders : List (Nat × Option Span)
  /-- What the factory and its consumers have counted. -/
  stats : Broker.Stats
  /-- How many further requests for a consumer are to fail. -/
  failuresLeft : Nat

/-- The reader of a lane, and how long its forwarder waits for an envelope. -/
def Lane.readerAndLimit (l : Lane) : Nat × Option Span := (l.owner, l.limit)

/-- What a transport knows of consumers and lanes. -/
def Broker.register (b : Broker) : Register :=
  ⟨b.consumers.map Consumer.lane, b.lanes.map Lane.readerAndLimit, b.stats, b.failuresLeft⟩

namespace Broker

/-! ## What makes no entry -/

/-- Whether a change leaves the register and the clock as they are. -/
structure KeepsRegister (b b' : Broker) : Prop where
  register : b'.register = b.register
  now : b'.now = b.now

namespace KeepsRegister

variable {b b₁ b' : Broker}

theorem refl (b : Broker) : b.KeepsRegister b := ⟨rfl, rfl⟩

theorem trans (h : b.KeepsRegister b₁) (h' : b₁.KeepsRegister b') : b.KeepsRegister b' :=
  ⟨h'.register.trans h.register, h'.now.trans h.now⟩

/-- A change of a lane is no entry, as long as the lane has the same reader and the same limit. -/
theorem modifyLane (b : Broker) (lane : Nat) {f : Lane → Lane}
    (h : ∀ l, (f l).readerAndLimit = l.readerAndLimit) :
    b.KeepsRegister (b.modifyLane lane f) where
  register :=
    congrArg (fun laneReaders => (⟨_, laneReaders, _, _⟩ : Register))
      (map_modify_eq_map b.lanes lane h)
  now := rfl

/-- A change of a consumer is no entry, as long as the consumer has the same lane. -/
theorem modifyConsumer (b : Broker) (consumer : Nat) {f : Consumer → Consumer}
    (h : ∀ c, (f c).lane = c.lane) : b.KeepsRegister (b.modifyConsumer consumer f) where
  register :=
    congrArg (fun consumerLanes => (⟨consumerLanes, _, _, _⟩ : Register))
      (map_modify_eq_map b.consumers consumer h)
  now := rfl

theorem setForwarder (b : Broker) (lane : Nat) (f : Forwarder) :
    b.KeepsRegister (b.setForwarder lane f) :=
  modifyLane b lane fun _ => rfl

theorem wake (b : Broker) (t : Task) : b.KeepsRegister (b.wake t) := by
  unfold Broker.wake
  split <;> exact ⟨rfl, rfl⟩

theorem wakeIf (b : Broker) (lane : Nat) (waits : Forwarder → Bool) :
    b.KeepsRegister (b.wakeIf lane waits) := by
  unfold Broker.wakeIf
  split
  · exact wake ..
  · exact refl b

theorem wakeParked (b : Broker) : b.KeepsRegister b.wakeParked := by
  unfold Broker.wakeParked
  split
  · exact refl b
  · split
    · exact wake ..
    · exact refl b

/-! ### The queue and the line for it -/

theorem refill (b : Broker) : b.KeepsRegister b.refill := by
  unfold Broker.refill
  split
  · exact refl b
  · split <;> exact ⟨rfl, rfl⟩

theorem leaveLine (b : Broker) (lane : Nat) : b.KeepsRegister (b.leaveLine lane) := by
  have hleft : b.KeepsRegister { b with line := b.line.erase lane } := ⟨rfl, rfl⟩
  unfold Broker.leaveLine
  dsimp only
  split
  · split
    · exact hleft.trans (wake ..)
    · exact hleft
  · exact hleft

theorem notify (b : Broker) : b.KeepsRegister b.notify := by
  unfold Broker.notify
  split
  · exact ⟨rfl, rfl⟩
  · split
    · exact (setForwarder ..).trans (wake ..)
    · exact ⟨rfl, rfl⟩

theorem giveBack (b : Broker) (d : Delivery) : b.KeepsRegister (b.giveBack d) :=
  have hreturned : b.KeepsRegister
      { b.log (.returned d.id) with returned := insertParcel d.toParcel b.returned } := ⟨rfl, rfl⟩
  hreturned.trans (notify _)

/-! ### Forwarders -/

theorem finish (b : Broker) (lane : Nat) (l : Lane) : b.KeepsRegister (b.finish lane l) := by
  have hended (c : Broker) :
      c.KeepsRegister (((c.leaveLine lane).setForwarder lane .ended).wake (.reader l.owner)) :=
    ((leaveLine ..).trans (setForwarder ..)).trans (wake ..)
  unfold Broker.finish
  split
  · exact (giveBack ..).trans (hended _)
  · exact (⟨rfl, rfl⟩ : b.KeepsRegister { b with permit := true }).trans (hended _)
  · exact hended b

theorem pickUp (b : Broker) (lane : Nat) (p : Parcel) : b.KeepsRegister (b.pickUp lane p) := by
  unfold Broker.pickUp
  split
  · exact setForwarder ..
  · exact (⟨rfl, rfl⟩ : b.KeepsRegister { b with freshIds := b.freshIds + 1 }).trans
      (setForwarder ..)

theorem takeNew (b : Broker) (lane : Nat) (l : Lane) : b.KeepsRegister (b.takeNew lane l).1 := by
  have htaken (rest : List Envelope) : b.KeepsRegister { b with incoming := rest }.refill :=
    (⟨rfl, rfl⟩ : b.KeepsRegister { b with incoming := rest }).trans (refill _)
  unfold Broker.takeNew
  split
  · exact finish ..
  · exact (htaken _).trans (pickUp ..)
  · exact (htaken _).trans (setForwarder ..)

theorem choose (b : Broker) (lane : Nat) (l : Lane) (deadline : Option Nat) (favourNew : Bool) :
    b.KeepsRegister (b.choose lane l deadline favourNew).1 := by
  unfold Broker.choose
  split
  · exact (⟨rfl, rfl⟩ : b.KeepsRegister { b with permit := false }).trans (setForwarder ..)
  split
  · exact takeNew ..
  split <;> exact setForwarder ..

theorem resume (b : Broker) (lane : Nat) (l : Lane) (deadline : Option Nat)
    (notified favourNew : Bool) :
    b.KeepsRegister (b.resume lane l deadline notified favourNew).1 := by
  unfold Broker.resume
  split
  · exact setForwarder ..
  split
  · exact (⟨rfl, rfl⟩ : b.KeepsRegister { b with permit := b.permit || notified }).trans
      (takeNew ..)
  split
  · exact setForwarder ..
  · exact refl b

theorem handOver (b : Broker) (lane : Nat) (l : Lane) (d : Delivery) :
    b.KeepsRegister (b.handOver lane l d).1 := by
  unfold Broker.handOver
  split
  · exact finish ..
  split
  · exact refl b
  · refine .trans ?_ (wake ..)
    exact modifyLane _ _ fun _ => rfl

theorem report (b : Broker) (lane : Nat) (l : Lane) (error : String) (last : Bool) :
    b.KeepsRegister (b.report lane l error last).1 := by
  unfold Broker.report
  split
  · exact finish ..
  split
  · exact refl b
  split
  · refine .trans ?_ (finish ..)
    exact modifyLane _ _ fun _ => rfl
  · refine .trans ?_ (wake ..)
    exact modifyLane _ _ fun _ => rfl

theorem look (b : Broker) (lane : Nat) (deadline : Option Nat) :
    b.KeepsRegister (b.look lane deadline).1 := by
  unfold Broker.look
  split
  · next rest _ =>
      exact (⟨rfl, rfl⟩ : b.KeepsRegister { b with returned := rest }).trans (pickUp ..)
  · exact setForwarder ..

/-- A forwarder makes no entry, and takes no time. -/
theorem proceed (b : Broker) (lane : Nat) (l : Lane) (favourNew : Bool) :
    b.KeepsRegister (b.proceed lane l favourNew).1 := by
  unfold Broker.proceed
  cases l.forwarder with
  | starting =>
    exact (⟨rfl, rfl⟩ : b.KeepsRegister { b with line := b.line ++ [lane] }).trans (setForwarder ..)
  | queueing =>
    simp only [takeQueue]
    split
    · exact setForwarder ..
    · exact refl b
  | looking deadline => exact look ..
  | choosing deadline => exact choose ..
  | parked deadline notified => exact resume ..
  | offering d => exact handOver ..
  | reporting error last => exact report ..
  | ended => exact refl b

theorem advance (b : Broker) (lane : Nat) (favourNew : Bool) :
    b.KeepsRegister (b.advance lane favourNew).1 := by
  unfold Broker.advance
  split
  · exact refl b
  split
  · exact finish ..
  · exact proceed ..

theorem overrun (b : Broker) (lane : Nat) (favourNew : Bool) :
    b.KeepsRegister (b.overrun lane favourNew) := by
  unfold Broker.overrun
  cases b.lanes[lane]? with
  | none => exact refl b
  | some l => exact proceed ..

/-! ### Publishers -/

theorem send (b : Broker) (e : Envelope) : b.KeepsRegister (b.send e).1 := by
  unfold Broker.send
  split
  · exact refl b
  split
  · exact (⟨rfl, rfl⟩ : b.KeepsRegister { b with incoming := b.incoming ++ [e] }).trans
      (wakeParked _)
  · exact ⟨rfl, rfl⟩

theorem publish (b : Broker) (id : Option String) (payload : Json) :
    b.KeepsRegister (b.publish id payload).1 :=
  (⟨rfl, rfl⟩ : b.KeepsRegister { b with nextSeq := b.nextSeq + 1 }).trans (send ..)

theorem clonePublisher (b : Broker) : b.KeepsRegister b.clonePublisher := by
  unfold Broker.clonePublisher
  split <;> exact ⟨rfl, rfl⟩

theorem dropPublisher (b : Broker) : b.KeepsRegister b.dropPublisher := by
  have hdropped : b.KeepsRegister { b with publishers := b.publishers - 1 } := ⟨rfl, rfl⟩
  simp only [Broker.dropPublisher]
  split
  · exact hdropped.trans (wakeParked _)
  · exact hdropped

/-! ### Readers -/

theorem takeMessage (b : Broker) (lane : Nat) : b.KeepsRegister (b.takeMessage lane) := by
  unfold Broker.takeMessage
  split
  · exact refl b
  · next d _ =>
    have hemptied := modifyLane b lane (f := fun l => { l with slot := none }) fun _ => rfl
    have hheld : b.KeepsRegister { b.modifyLane lane fun l => { l with slot := none } with
        held := b.held ++ [⟨d, false⟩] } := ⟨hemptied.register, hemptied.now⟩
    exact hheld.trans (wakeIf ..)

theorem takeError (b : Broker) (lane : Nat) : b.KeepsRegister (b.takeError lane) := by
  refine .trans ?_ (wakeIf ..)
  exact modifyLane _ _ fun _ => rfl

theorem settle (b : Broker) (seq : Nat) (disposition : Disposition) :
    b.KeepsRegister (b.settle seq disposition) := by
  unfold Broker.settle
  split <;> exact ⟨rfl, rfl⟩

theorem dropMessage (b : Broker) (seq : Nat) : b.KeepsRegister (b.dropMessage seq) := by
  have hdropped : b.KeepsRegister { b with held := b.held.filter (·.delivery.seq ≠ seq) } :=
    ⟨rfl, rfl⟩
  unfold Broker.dropMessage
  split
  · exact refl b
  · dsimp only
    split
    · exact hdropped
    · exact hdropped.trans (giveBack ..)

theorem dropErrors (b : Broker) (lane : Nat) : b.KeepsRegister (b.dropErrors lane) := by
  refine .trans ?_ (wakeIf ..)
  exact modifyLane _ _ fun _ => rfl

theorem dropMessages (b : Broker) (lane : Nat) : b.KeepsRegister (b.dropMessages lane) := by
  have hdropped : b.KeepsRegister ((b.modifyLane lane fun l =>
      { l with readsMessages := false, slot := none }).wakeIf lane Forwarder.isOffering) := by
    refine .trans ?_ (wakeIf ..)
    exact modifyLane _ _ fun _ => rfl
  unfold Broker.dropMessages
  dsimp only
  split
  · exact hdropped.trans (giveBack ..)
  · exact hdropped

theorem setTimeout (b : Broker) (consumer : Nat) (limit : Span) :
    b.KeepsRegister (b.setTimeout consumer limit) := modifyConsumer b consumer fun _ => rfl

theorem dropConsumer (b : Broker) (consumer : Nat) : b.KeepsRegister (b.dropConsumer consumer) :=
  modifyConsumer b consumer fun _ => rfl

end KeepsRegister

/-! ## The clock -/

/-- The clock shows the time that it was set to; the forwarders that are woken then make no
entry. -/
theorem keepsRegister_setClock (b : Broker) (now : Nat) :
    ({ b with now } : Broker).KeepsRegister (b.setClock now) :=
  List.foldlRecOn (motive := ({ b with now } : Broker).KeepsRegister) _ _ (.refl _)
    fun _ h _ _ => h.trans (.wake ..)

/-! ## What makes an entry -/

/-- A request for a consumer counts. As long as requests are to fail it fails, and then there is one
less of those; otherwise there is a new consumer, without a lane. -/
theorem register_create (b : Broker) :
    0 < b.failuresLeft ∧ b.create.2 = .error unavailableError ∧
        b.create.1.register =
          { b.register with
            stats := { b.stats with createAttempts := b.stats.createAttempts + 1 }
            failuresLeft := b.failuresLeft - 1 } ∨
      b.failuresLeft = 0 ∧ b.create.2 = .ok b.consumers.length ∧
        b.create.1.register =
          { b.register with
            consumerLanes := b.register.consumerLanes ++ [none]
            stats := { b.stats with
              createAttempts := b.stats.createAttempts + 1, created := b.stats.created + 1 } } := by
  unfold create
  split
  · next hleft => exact .inl ⟨hleft, rfl, rfl⟩
  · next hleft =>
    refine .inr ⟨Nat.eq_zero_of_not_pos hleft, rfl, ?_⟩
    simp only [register, List.map_append]
    rfl

/-- A consumer without a lane gets one when it starts. -/
theorem register_consume (b : Broker) (consumer owner : Nat) :
    b.register.consumerLanes[consumer]? ≠ some none ∧
        b.consume consumer owner = (b, .error consumingError) ∨
      b.register.consumerLanes[consumer]? = some none ∧
      (b.consume consumer owner).2 = .ok b.lanes.length ∧
        ∃ limit, (b.consume consumer owner).1.register =
          { b.register with
            consumerLanes := b.register.consumerLanes.set consumer (some b.lanes.length)
            laneReaders := b.register.laneReaders ++ [(owner, limit)] } := by
  have hconsumerLane :
      b.register.consumerLanes[consumer]? = (b.consumers[consumer]?).map Consumer.lane :=
    List.getElem?_map ..
  unfold consume
  split
  · next hnone =>
    rw [hnone] at hconsumerLane
    exact .inl ⟨by simp [hconsumerLane], rfl⟩
  · next c hc =>
    rw [hc] at hconsumerLane
    split
    · next hlane =>
      refine .inl ⟨fun hnone => ?_, rfl⟩
      rw [Option.some.inj (hconsumerLane.symm.trans hnone)] at hlane
      cases hlane
    · next hlane =>
      have hfree : c.lane = none := by simpa using hlane
      refine .inr ⟨hconsumerLane.trans (congrArg some hfree), rfl, c.limit, ?_⟩
      rw [(KeepsRegister.wake ..).register, modifyConsumer]
      simp only [register]
      congr 1
      · exact map_modify_eq_set b.consumers consumer fun _ => rfl
      · rw [List.map_append]
        rfl

/-- A consumer that is about to be closed has no lane any more. -/
theorem register_abort (b : Broker) (consumer : Nat) :
    (b.abort consumer).register =
      { b.register with consumerLanes := b.register.consumerLanes.set consumer none } := by
  have hconsumerLane :
      b.register.consumerLanes[consumer]? = (b.consumers[consumer]?).map Consumer.lane :=
    List.getElem?_map ..
  unfold abort
  split
  · next hnone =>
    -- It had none before, if it was there at all.
    cases hc : b.consumers[consumer]? with
    | none =>
      have hle : b.register.consumerLanes.length ≤ consumer :=
        List.getElem?_eq_none_iff.mp (by rw [hconsumerLane, hc, Option.map_none])
      rw [List.set_eq_of_length_le hle]
    | some c =>
      rw [hc, Option.bind_some] at hnone
      rw [hc, Option.map_some, hnone] at hconsumerLane
      rw [set_eq_self hconsumerLane]
  · next lane hlane =>
    have hregister : ((b.modifyConsumer consumer fun c => { c with lane := none }).modifyLane lane
        fun l => { l with aborted := true }).register =
          { b.register with consumerLanes := b.register.consumerLanes.set consumer none } := by
      have haborted :=
        KeepsRegister.modifyLane (b.modifyConsumer consumer fun c => { c with lane := none }) lane
        (f := fun l => { l with aborted := true }) fun _ => rfl
      refine haborted.register.trans ?_
      exact congrArg (fun consumerLanes => (⟨consumerLanes, _, _, _⟩ : Register))
        (map_modify_eq_set b.consumers consumer fun _ => rfl)
    dsimp only
    split
    · exact (KeepsRegister.wake ..).register.trans hregister
    · exact hregister

end Broker

end Courier
