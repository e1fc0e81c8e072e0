import Courier.Broker.Clock
import Courier.Sum

/-!
# The potential of the transport

`Broker.potential` bounds what the forwarders can still do if nobody else does anything. A step of a
forwarder lowers it, or the forwarder rests and has changed nothing that it depends on
(`Broker.runForwarder_decreases`).

An envelope has the more potential the further it is from its reader. A message that goes back on
the queue gains potential, for it has to be forwarded once more, and so does the queue by the sign
of it; both come out of the potential of the forwarder or the run that lets go of the message.
-/

namespace Courier

/-! ## Potentials -/

/-- The potential of a forwarder. A message or an error in its hand counts as its own. -/
def Forwarder.potential : Forwarder → Nat
  | .starting => 6
  | .queueing => 5
  | .looking _ => 4
  | .choosing _ | .parked _ false => 3
  | .parked _ true => 5
  | .offering _ => 8
  | .reporting _ false => 5
  | .reporting _ true => 2
  | .ended => 0

/-- The potential of a lane: that of its forwarder, and of the message in its slot. -/
def Lane.potential (l : Lane) : Nat := l.forwarder.potential + 3 * l.slot.isSome.toNat

namespace Broker

/-- The potential of the transport. -/
def potential (b : Broker) : Nat :=
  6 * (b.incoming.length + b.blocked.length) + 5 * b.returned.length + 2 * b.permit.toNat
    + 2 * b.failuresLeft + sumOver Lane.potential b.lanes

variable {b : Broker} {lane : Nat} {l : Lane}

@[simp]
theorem potential_wake (b : Broker) (t : Task) : (b.wake t).potential = b.potential := by
  unfold wake
  split <;> rfl

@[simp]
theorem potential_log (b : Broker) (n : Notice) : (b.log n).potential = b.potential := rfl

@[simp]
theorem potential_dismiss (b : Broker) : b.dismiss.potential = b.potential := rfl

theorem potential_modifyLane (hl : b.lanes[lane]? = some l) (f : Lane → Lane) :
    (b.modifyLane lane f).potential + l.potential = b.potential + (f l).potential := by
  have hsum := sumOver_modify Lane.potential f hl
  simp only [potential, modifyLane]
  omega

theorem getElem?_modifyLane (hl : b.lanes[lane]? = some l) (f : Lane → Lane) :
    (b.modifyLane lane f).lanes[lane]? = some (f l) := by
  simp [modifyLane, hl]

theorem potential_setForwarder (hl : b.lanes[lane]? = some l) (f : Forwarder) :
    (b.setForwarder lane f).potential + l.forwarder.potential = b.potential + f.potential := by
  have hsum := potential_modifyLane hl fun l => { l with forwarder := f }
  simp only [Lane.potential] at hsum
  unfold setForwarder
  omega

@[simp]
theorem potential_modifyConsumer (b : Broker) (consumer : Nat) (f : Consumer → Consumer) :
    (b.modifyConsumer consumer f).potential = b.potential := rfl

/-! ## The queue -/

theorem potential_setPermit_le (b : Broker) :
    ({ b with permit := true } : Broker).potential ≤ b.potential + 2 := by
  simp only [potential, Bool.toNat_true]
  omega

theorem potential_notify_le (b : Broker) : b.notify.potential ≤ b.potential + 2 := by
  unfold notify
  split
  · exact potential_setPermit_le b
  · split
    · next lane _ deadline hparked =>
      obtain ⟨l, hl, hforwarder⟩ := Option.map_eq_some_iff.mp hparked
      have hset := potential_setForwarder hl (.parked deadline true)
      rw [hforwarder] at hset
      simp only [Forwarder.potential] at hset
      rw [potential_wake]
      omega
    · exact potential_setPermit_le b

theorem potential_giveBack_le (b : Broker) (d : Delivery) :
    (b.giveBack d).potential ≤ b.potential + 7 := by
  refine Nat.le_trans (potential_notify_le _) ?_
  simp [potential, log, length_insertParcel]
  omega

/-- A sign of a returned message reaches only a forwarder that waits for it. -/
theorem getElem?_giveBack (hl : b.lanes[lane]? = some l) (h : l.forwarder.isParked = false)
    (d : Delivery) : (b.giveBack d).lanes[lane]? = some l := by
  unfold giveBack requeue notify
  split
  · exact hl
  · split
    · next holder _ _ deadline hparked =>
      have hne : holder ≠ lane := by
        rintro rfl
        have heq : l.forwarder = .parked deadline false := by
          simpa [log, hl] using hparked
        simp [heq, Forwarder.isParked] at h
      rw [lanes_wake]
      simp [setForwarder, modifyLane, hne, log, hl]
    · exact hl

theorem potential_refill (b : Broker) : b.refill.potential = b.potential := by
  unfold refill
  split
  · rfl
  next hblocked =>
  split
  · simp [potential, hblocked]
    omega
  · rfl

theorem potential_leaveLine (b : Broker) (lane : Nat) :
    (b.leaveLine lane).potential = b.potential := by
  unfold leaveLine
  simp only
  split
  · split
    · exact potential_wake _ _
    · rfl
  · rfl

/-! ## Forwarders -/

/-- A forwarder that ends loses its potential; what it leaves to others has less. -/
theorem potential_finish_lt {l' : Lane} (hl : b.lanes[lane]? = some l')
    (hsame : l'.forwarder = l.forwarder) (h : l.forwarder.isEnded = false) :
    (b.finish lane l).potential < b.potential := by
  have hend {b' : Broker} (hl' : b'.lanes[lane]? = some l') :
      (((b'.leaveLine lane).setForwarder lane .ended).wake (.reader l.owner)).potential
        + l.forwarder.potential = b'.potential := by
    have hset := potential_setForwarder (b := b'.leaveLine lane)
      ((congrArg (·[lane]?) (lanes_leaveLine b' lane)).trans hl') .ended
    rw [potential_leaveLine, hsame] at hset
    rw [potential_wake]
    exact hset
  unfold finish
  cases hforwarder : l.forwarder with
  | offering d =>
    have hback := potential_giveBack_le b d
    have hrest := hend (getElem?_giveBack hl (by rw [hsame, hforwarder]; rfl) d)
    simp only [hforwarder, Forwarder.potential] at hrest ⊢
    omega
  | parked deadline notified =>
    cases notified with
    | false =>
      have hrest := hend hl
      simp only [hforwarder, Forwarder.potential] at hrest ⊢
      omega
    | true =>
      have hrest := @hend { b with permit := true } hl
      have hsign := potential_setPermit_le b
      simp only [hforwarder, Forwarder.potential] at hrest ⊢
      omega
  | reporting error last =>
    have hrest := hend hl
    cases last <;> simp only [hforwarder, Forwarder.potential] at hrest ⊢ <;> omega
  | ended => simp [hforwarder, Forwarder.isEnded] at h
  | _ =>
    have hrest := hend hl
    simp only [hforwarder, Forwarder.potential] at hrest ⊢
    omega

/-- What a forwarder in a lane does decreases the potential, or it rests and changes nothing that
the potential or the turns of the others depend on. -/
def Decreases (b : Broker) (step : Broker × Pace) : Prop :=
  step.1.potential < b.potential ∨
    step.2 = .resting ∧ step.1.potential = b.potential ∧ step.1.ready = b.ready

theorem decreases_finish (hl : b.lanes[lane]? = some l) (h : l.forwarder.isEnded = false) :
    b.Decreases (b.finish lane l, .resting) :=
  .inl (potential_finish_lt hl rfl h)

theorem decreases_setForwarder {f f' : Forwarder} {pace : Pace} (hl : b.lanes[lane]? = some l)
    (hforwarder : l.forwarder = f) (h : f'.potential < f.potential) :
    b.Decreases (b.setForwarder lane f', pace) := by
  have hset := potential_setForwarder hl f'
  rw [hforwarder] at hset
  exact .inl (by dsimp only; omega)

theorem potential_pickUp (hl : b.lanes[lane]? = some l) (p : Parcel) :
    (b.pickUp lane p).potential + l.forwarder.potential = b.potential + 8 := by
  unfold pickUp
  split
  · exact potential_setForwarder hl _
  · exact potential_setForwarder (b := { b with freshIds := b.freshIds + 1 }) hl _

/-- A forwarder that waits for an envelope takes one, or ends. -/
theorem decreases_takeNew (hl : b.lanes[lane]? = some l) (h : l.forwarder.potential = 3) :
    b.Decreases (b.takeNew lane l) := by
  have hdequeued {e : Envelope} {rest : List Envelope} (hincoming : b.incoming = e :: rest) :
      ({ b with incoming := rest } : Broker).refill.potential + 6 = b.potential := by
    rw [potential_refill]
    simp [potential, hincoming]
    omega
  have hl' (rest : List Envelope) :
      ({ b with incoming := rest } : Broker).refill.lanes[lane]? = some l := by
    rw [lanes_refill]
    exact hl
  unfold takeNew
  split
  · refine decreases_finish hl ?_
    cases hforwarder : l.forwarder <;> first | rfl | simp [hforwarder, Forwarder.potential] at h
  · next p rest hincoming =>
    have hhand := potential_pickUp (hl' rest) p
    have hrest := hdequeued hincoming
    exact .inl (by dsimp only; omega)
  · next text rest hincoming =>
    have hhand := potential_setForwarder (hl' rest) (.reporting text false)
    have hrest := hdequeued hincoming
    simp only [Forwarder.potential] at hhand
    exact .inl (by dsimp only; omega)

theorem decreases_joinLine (hl : b.lanes[lane]? = some l) (hforwarder : l.forwarder = .starting) :
    b.Decreases (b.joinLine lane) :=
  decreases_setForwarder (b := { b with line := b.line ++ [lane] }) hl hforwarder
    (by simp [Forwarder.potential])

theorem decreases_takeQueue (hl : b.lanes[lane]? = some l) (hforwarder : l.forwarder = .queueing) :
    b.Decreases (b.takeQueue lane l) := by
  unfold takeQueue
  split
  · exact decreases_setForwarder hl hforwarder (by simp [Forwarder.potential])
  · exact .inr ⟨rfl, rfl, rfl⟩

theorem decreases_look {deadline : Option Nat} (hl : b.lanes[lane]? = some l)
    (hforwarder : l.forwarder = .looking deadline) : b.Decreases (b.look lane deadline) := by
  have h : l.forwarder.potential = 4 := by rw [hforwarder]; rfl
  unfold look
  split
  · next p rest hreturned =>
    have hhand := potential_pickUp (b := { b with returned := rest }) hl p
    have hrest : ({ b with returned := rest } : Broker).potential + 5 = b.potential := by
      simp [potential, hreturned]
      omega
    exact .inl (by dsimp only; omega)
  · exact decreases_setForwarder hl hforwarder (by simp [Forwarder.potential])

theorem decreases_choose {deadline : Option Nat} (hl : b.lanes[lane]? = some l)
    (hforwarder : l.forwarder = .choosing deadline) :
    b.Decreases (b.choose lane l deadline false) := by
  have h : l.forwarder.potential = 3 := by rw [hforwarder]; rfl
  unfold choose
  split
  · next hsign =>
    have hkept : b.permit = true := by simpa using hsign
    have hset := potential_setForwarder (b := { b with permit := false }) hl (.looking deadline)
    rw [h] at hset
    have hrest : ({ b with permit := false } : Broker).potential + 2 = b.potential := by
      simp [potential, hkept]
      omega
    simp only [Forwarder.potential] at hset
    exact .inl (by dsimp only; omega)
  · split
    · exact decreases_takeNew hl h
    · split
      · exact decreases_setForwarder hl hforwarder (by simp [Forwarder.potential])
      · have hset := potential_setForwarder hl (.parked deadline false)
        rw [h] at hset
        simp only [Forwarder.potential] at hset
        exact .inr ⟨rfl, by dsimp only; omega, rfl⟩

theorem decreases_resume {deadline : Option Nat} {notified : Bool} (hl : b.lanes[lane]? = some l)
    (hforwarder : l.forwarder = .parked deadline notified) :
    b.Decreases (b.resume lane l deadline notified false) := by
  cases notified with
  | true => exact decreases_setForwarder hl hforwarder (by simp [Forwarder.potential])
  | false =>
    have h : l.forwarder.potential = 3 := by rw [hforwarder]; rfl
    have hsame : ({ b with permit := b.permit || false } : Broker) = b := by simp
    unfold resume
    simp only [Bool.false_and, Bool.false_eq_true, if_false, hsame]
    split
    · exact decreases_takeNew hl h
    · split
      · exact decreases_setForwarder hl hforwarder (by simp [Forwarder.potential])
      · exact .inr ⟨rfl, rfl, rfl⟩

theorem decreases_handOver {d : Delivery} (hl : b.lanes[lane]? = some l)
    (hforwarder : l.forwarder = .offering d) : b.Decreases (b.handOver lane l d) := by
  unfold handOver
  split
  · exact decreases_finish hl (by rw [hforwarder]; rfl)
  · split
    · exact .inr ⟨rfl, rfl, rfl⟩
    · have hset := potential_modifyLane hl fun l =>
        { l with slot := some d, forwarder := .looking (b.deadlineOf l.limit) }
      simp only [Lane.potential, hforwarder, Forwarder.potential, Option.isSome_some,
        Bool.toNat_true] at hset
      exact .inl (by simp only [potential_wake]; omega)

theorem decreases_report {error : String} {last : Bool} (hl : b.lanes[lane]? = some l)
    (hforwarder : l.forwarder = .reporting error last) :
    b.Decreases (b.report lane l error last) := by
  have hon : l.forwarder.isEnded = false := by rw [hforwarder]; rfl
  unfold report
  split
  · exact decreases_finish hl hon
  · split
    · exact .inr ⟨rfl, rfl, rfl⟩
    · split
      · have hset := potential_modifyLane hl fun l => { l with errorSlot := some error }
        have hend := potential_finish_lt (l := l)
          (getElem?_modifyLane hl fun l => { l with errorSlot := some error }) rfl hon
        simp only [Lane.potential] at hset
        exact .inl (by dsimp only; omega)
      · next hlast =>
        obtain rfl : last = false := by simpa using hlast
        have hset := potential_modifyLane hl fun l =>
          { l with errorSlot := some error, forwarder := .looking (b.deadlineOf l.limit) }
        simp only [Lane.potential, hforwarder, Forwarder.potential] at hset
        exact .inl (by simp only [potential_wake]; omega)

/-- The step of a forwarder decreases the potential, or the forwarder rests. -/
theorem decreases_advance (b : Broker) (lane : Nat) : b.Decreases (b.advance lane false) := by
  unfold advance
  split
  · exact .inr ⟨rfl, rfl, rfl⟩
  next l hl =>
  split
  · next haborted => exact decreases_finish hl (by simpa using (Bool.and_eq_true_iff.mp haborted).2)
  unfold proceed
  split
  · next hforwarder => exact decreases_joinLine hl hforwarder
  · next hforwarder => exact decreases_takeQueue hl hforwarder
  · next hforwarder => exact decreases_look hl hforwarder
  · next hforwarder => exact decreases_choose hl hforwarder
  · next hforwarder => exact decreases_resume hl hforwarder
  · next hforwarder => exact decreases_handOver hl hforwarder
  · next hforwarder => exact decreases_report hl hforwarder
  · exact .inr ⟨rfl, rfl, rfl⟩

/-- The turn of a forwarder that was woken lowers the potential, or it is over. -/
theorem runForwarder_decreases {t : Task} {rest : List Task} (h : b.ready = t :: rest)
    (lane : Nat) :
    (b.runForwarder lane).potential < b.potential ∨
      (b.runForwarder lane).potential = b.potential ∧
        (b.runForwarder lane).ready.length < b.ready.length := by
  have hstep := decreases_advance b lane
  unfold runForwarder
  unfold Decreases at hstep
  split
  · next b' hadvance =>
    rw [hadvance] at hstep
    exact .inl (hstep.resolve_right fun hrests => by cases hrests.1)
  · next b' hadvance =>
    rw [hadvance] at hstep
    refine hstep.imp id fun ⟨_, hsame, hready⟩ => ⟨hsame, ?_⟩
    simp only at hready
    simp [dismiss, hready, h]

/-! ## Readers -/

theorem potential_wakeIf (b : Broker) (lane : Nat) (waits : Forwarder → Bool) :
    (b.wakeIf lane waits).potential = b.potential := by
  unfold wakeIf
  split
  · exact potential_wake _ _
  · rfl

/-- A change of a lane that moves neither its forwarder nor the message in its slot. -/
theorem potential_modifyLane_of_eq {f : Lane → Lane} (h : ∀ l, (f l).potential = l.potential)
    (b : Broker) (lane : Nat) : (b.modifyLane lane f).potential = b.potential := by
  simp only [potential, modifyLane, sumOver_modify_of_eq Lane.potential h]

theorem potential_create (b : Broker) :
    (∃ consumer, b.create.2 = .ok consumer ∧ b.create.1.potential = b.potential) ∨
      ∃ cause, b.create.2 = .error cause ∧ b.create.1.potential + 2 = b.potential := by
  unfold create
  dsimp only
  split
  · refine .inr ⟨_, rfl, ?_⟩
    simp only [potential]
    omega
  · exact .inl ⟨_, rfl, rfl⟩

theorem potential_consume_le (b : Broker) (consumer owner : Nat) :
    (b.consume consumer owner).1.potential ≤ b.potential + 6 := by
  unfold consume
  split
  · exact Nat.le_add_right _ _
  · split
    · exact Nat.le_add_right _ _
    · simp only [potential_wake, potential_modifyConsumer]
      simp [potential, sumOver, Lane.start, Lane.potential, Forwarder.potential]
      omega

theorem potential_takeMessage {d : Delivery} (hl : b.lanes[lane]? = some l) (h : l.slot = some d) :
    (b.takeMessage lane).potential + 3 = b.potential := by
  have hset := potential_modifyLane hl fun l => { l with slot := none }
  simp only [Lane.potential, h, Option.isSome_some, Option.isSome_none, Bool.toNat_true,
    Bool.toNat_false] at hset
  have htake : (b.takeMessage lane).potential =
      (b.modifyLane lane fun l => { l with slot := none }).potential := by
    simp only [takeMessage, hl, h, Option.bind_some]
    exact potential_wakeIf _ _ _
  omega

theorem potential_takeError (b : Broker) (lane : Nat) :
    (b.takeError lane).potential = b.potential :=
  (potential_wakeIf _ _ _).trans
    (potential_modifyLane_of_eq (f := fun l => { l with errorSlot := none }) (fun _ => rfl) b lane)

/-- A message that was settled does not go back. -/
theorem potential_dropMessage_settle (b : Broker) (seq : Nat) (disposition : Disposition) :
    ((b.settle seq disposition).dropMessage seq).potential = b.potential := by
  have hkept : (b.settle seq disposition).potential = b.potential := by
    unfold settle
    split <;> rfl
  have hsettled : ∀ h, (b.settle seq disposition).held.find? (·.delivery.seq = seq) = some h →
      h.settled = true := by
    intro h hfind
    have hseq : h.delivery.seq = seq := by simpa using List.find?_some hfind
    unfold settle at hfind
    split at hfind
    · next hnone => exact absurd (hnone.symm.trans hfind) nofun
    · obtain ⟨h', -, rfl⟩ := List.mem_map.mp (List.mem_of_find?_eq_some hfind)
      split at hseq
      · next hmatch => rw [if_pos hmatch]
      · next hother => exact absurd hseq hother
  unfold dropMessage
  split
  · exact hkept
  · next h hfind =>
    simp [hsettled h hfind]
    exact hkept

theorem potential_dropErrors (b : Broker) (lane : Nat) :
    (b.dropErrors lane).potential = b.potential :=
  (potential_wakeIf _ _ _).trans
    (potential_modifyLane_of_eq (f := fun l => { l with readsErrors := false, errorSlot := none })
      (fun _ => rfl) b lane)

theorem potential_dropMessages_le (b : Broker) (lane : Nat) :
    (b.dropMessages lane).potential ≤ b.potential + 4 := by
  unfold dropMessages
  cases hl : b.lanes[lane]? with
  | none =>
    simp only [Option.bind_none, potential_wakeIf, modifyLane]
    rw [List.modify_eq_self (List.getElem?_eq_none_iff.mp hl)]
    exact Nat.le_add_right _ _
  | some l =>
    have hset := potential_modifyLane hl fun l => { l with readsMessages := false, slot := none }
    simp only [Lane.potential, Option.isSome_none, Bool.toNat_false] at hset
    cases hslot : l.slot with
    | none =>
      simp only [Option.bind_some, hslot, potential_wakeIf]
      omega
    | some d =>
      simp only [hslot, Option.isSome_some, Bool.toNat_true] at hset
      simp only [Option.bind_some, hslot]
      refine Nat.le_trans (potential_giveBack_le _ d) ?_
      rw [potential_wakeIf]
      omega

theorem potential_abort (b : Broker) (consumer : Nat) :
    (b.abort consumer).potential = b.potential := by
  unfold abort
  split
  · rfl
  · next lane _ =>
    have hkept := potential_modifyLane_of_eq (f := fun l => { l with aborted := true })
      (fun _ => rfl) (b.modifyConsumer consumer fun c => { c with lane := none }) lane
    dsimp only
    split
    · exact (potential_wake _ _).trans hkept
    · exact hkept

end Broker

end Courier
