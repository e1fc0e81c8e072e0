import Courier.Proofs.Broker.Conservation
import Courier.Proofs.Broker.ForwarderSteps
import Courier.Proofs.Broker.Lineup

/-!
# Returned messages come first

The forwarder that has the queue looks for a returned message before it looks for an envelope, and
takes the one with the smallest number. When a message is returned while it looks for an envelope, a
sign reaches it, or is kept until it looks for one (`QueueState.SignsKept`), and no sign is lost,
whatever happens (`Ledger.signsKept_of_run`). So it looks for returned messages again before it
takes an envelope (`Ledger.takes_returned`).

There is one exception. If both a sign and an envelope have come when a forwarder goes on, it may
act on the envelope, and the returned message is overtaken (`Ledger.overtaken`).
-/

namespace Courier

/-! ## What forwarders go by -/

namespace Forwarder

/-- Whether the forwarder has the queue. -/
def hasQueue : Forwarder → Bool
  | .starting | .queueing | .ended => false
  | _ => true

/-- Whether the forwarder looks for its next envelope, returned or new. -/
def isSeeking : Forwarder → Bool
  | .looking _ | .choosing _ | .parked .. => true
  | _ => false

/-- Whether a sign of a returned message has reached a forwarder that waits, or is kept for one that
is about to. -/
def isNotified (permit : Bool) : Forwarder → Bool
  | .choosing _ => permit
  | .parked _ notified => notified
  | _ => false

theorem hasQueue_of_isAwaitingNew {f : Forwarder} (h : f.isAwaitingNew) : f.hasQueue := by
  cases f <;> first | rfl | cases h

end Forwarder

/-- What the forwarders of a queue go by: the returned messages, the sign that is kept, the line for
the queue, and where each of them stands. -/
structure QueueState where
  /-- The returned messages. -/
  returned : List Parcel
  /-- Whether a sign of a returned message is kept. -/
  permit : Bool
  /-- The lanes whose forwarders stand in line for the queue. -/
  line : List Nat
  /-- Where the forwarders stand. -/
  forwarders : List Forwarder

/-- What forwarders go by. -/
def Broker.queueState (b : Broker) :
    QueueState := ⟨b.returned, b.permit, b.line, b.lanes.map Lane.forwarder⟩

namespace QueueState

/-- Moves one forwarder. -/
def set (s : QueueState) (n : Nat) (f : Forwarder) :
    QueueState := { s with forwarders := s.forwarders.set n f }

/-- Gives a sign of a returned message. -/
def notify (s : QueueState) : QueueState :=
  match s.line.head? with
  | none => { s with permit := true }
  | some n =>
    match s.forwarders[n]? with
    | some (.parked deadline false) => s.set n (.parked deadline true)
    | _ => { s with permit := true }

/-- Returns a message. -/
def requeue (s : QueueState) (p : Parcel) : QueueState :=
  { s with returned := Broker.insertParcel p s.returned }.notify

/-- Returned messages are kept in order, only the first in line has the queue, and when a message
was returned, a forwarder that looks for an envelope has been told so, or will be. -/
structure SignsKept (s : QueueState) : Prop where
  sorted : s.returned.Pairwise fun p q => p.seq ≤ q.seq
  queue : ∀ {n : Nat} {f : Forwarder}, s.forwarders[n]? = some f → f.hasQueue →
    s.line.head? = some n
  sign : ∀ {n : Nat} {f : Forwarder}, s.forwarders[n]? = some f → f.isAwaitingNew →
    s.returned ≠ [] → f.isNotified s.permit

end QueueState

/-! ## What operations do to the state of the queue -/

namespace Broker

/-- A change of a lane that moves its forwarder. -/
theorem queueState_moveLane (b : Broker) (lane : Nat) {g : Lane → Lane} {f : Forwarder}
    (h : ∀ l, b.lanes[lane]? = some l → (g l).forwarder = f) :
    (b.modifyLane lane g).queueState = b.queueState.set lane f := by
  have hforwarders : (b.lanes.modify lane g).map Lane.forwarder =
      (b.lanes.map Lane.forwarder).set lane f := by
    refine List.ext_getElem? fun j => ?_
    simp only [List.getElem?_map, List.getElem?_modify, List.getElem?_set, List.length_map]
    by_cases hj : lane = j
    · subst hj
      cases hl : b.lanes[lane]? with
      | none => simp [List.getElem?_eq_none_iff.mp hl]
      | some l => simp [(List.getElem?_eq_some_iff.mp hl).1, h l hl]
    · simp [hj]
  exact congrArg (QueueState.mk b.returned b.permit b.line) hforwarders

theorem queueState_setForwarder (b : Broker) (lane : Nat) (f : Forwarder) :
    (b.setForwarder lane f).queueState = b.queueState.set lane f :=
      queueState_moveLane b lane fun _ _ => rfl

/-- A change of a lane that leaves its forwarder where it stands. -/
theorem queueState_modifyLane (b : Broker) (lane : Nat) {f : Lane → Lane}
    (h : ∀ l, (f l).forwarder = l.forwarder) : (b.modifyLane lane f).queueState = b.queueState := by
  have hforwarders : (b.lanes.modify lane f).map Lane.forwarder = b.lanes.map Lane.forwarder := by
    refine List.ext_getElem? fun j => ?_
    simp only [List.getElem?_map, List.getElem?_modify]
    by_cases hj : lane = j <;> cases b.lanes[j]? <;> simp [hj, h]
  exact congrArg (QueueState.mk b.returned b.permit b.line) hforwarders

@[simp] theorem queueState_wake (b : Broker) (t : Task) : (b.wake t).queueState = b.queueState := by
  unfold wake
  split <;> rfl

@[simp] theorem queueState_wakeIf (b : Broker) (lane : Nat) (waits : Forwarder → Bool) :
    (b.wakeIf lane waits).queueState = b.queueState := by
  unfold wakeIf
  split
  · exact queueState_wake b _
  · rfl

@[simp] theorem queueState_wakeParked (b : Broker) : b.wakeParked.queueState = b.queueState := by
  unfold wakeParked
  split
  · rfl
  · split
    · exact queueState_wake b _
    · rfl

@[simp] theorem queueState_refill (b : Broker) : b.refill.queueState = b.queueState := by
  unfold refill
  split
  · rfl
  · split <;> rfl

theorem queueState_leaveLine (b : Broker) (lane : Nat) :
    (b.leaveLine lane).queueState = { b.queueState with line := b.line.erase lane } := by
  simp only [leaveLine]
  split
  · split
    · rw [queueState_wake]
      rfl
    · rfl
  · rfl

theorem queueState_notify (b : Broker) : b.notify.queueState = b.queueState.notify := by
  unfold notify QueueState.notify
  show _ = match b.line.head? with
    | none => { b.queueState with permit := true }
    | some n => match (b.lanes.map Lane.forwarder)[n]? with
      | some (.parked deadline false) => b.queueState.set n (.parked deadline true)
      | _ => { b.queueState with permit := true }
  rw [holder?]
  cases b.line.head? with
  | none => rfl
  | some lane =>
    simp only [List.getElem?_map]
    cases (b.lanes[lane]?).map Lane.forwarder with
    | none => rfl
    | some f =>
      cases f with
      | parked deadline notified =>
        cases notified with
        | false => exact (queueState_wake _ _).trans (queueState_setForwarder b lane _)
        | true => rfl
      | _ => rfl

theorem queueState_giveBack (b : Broker) (d : Delivery) :
    (b.giveBack d).queueState = b.queueState.requeue d.toParcel := queueState_notify _

theorem queueState_send (b : Broker) (e : Envelope) : (b.send e).1.queueState = b.queueState := by
  unfold send
  split
  · rfl
  · split
    · exact queueState_wakeParked _
    · rfl

theorem queueState_clonePublisher (b : Broker) : b.clonePublisher.queueState = b.queueState := by
  unfold clonePublisher
  split <;> rfl

theorem queueState_dropPublisher (b : Broker) : b.dropPublisher.queueState = b.queueState := by
  simp only [dropPublisher]
  split
  · exact queueState_wakeParked _
  · rfl

theorem queueState_create (b : Broker) : b.create.1.queueState = b.queueState := by
  simp only [create]
  split <;> rfl

theorem queueState_abort (b : Broker) (consumer : Nat) :
    (b.abort consumer).queueState = b.queueState := by
  have haborted (b : Broker) (lane : Nat) :
      (b.modifyLane lane fun l => { l with aborted := true }).queueState = b.queueState :=
    queueState_modifyLane b lane fun _ => rfl
  simp only [abort]
  split
  · rfl
  · split
    · rw [queueState_wake, haborted]
      rfl
    · exact haborted _ _

theorem queueState_takeMessage (b : Broker) (lane : Nat) :
    (b.takeMessage lane).queueState = b.queueState := by
  unfold takeMessage
  split
  · rfl
  · next d _ =>
    show (Broker.wakeIf _ lane Forwarder.isOffering).queueState = _
    rw [queueState_wakeIf]
    exact queueState_modifyLane b lane fun _ => rfl

theorem queueState_takeError (b : Broker) (lane : Nat) :
    (b.takeError lane).queueState = b.queueState := by
  rw [takeError, queueState_wakeIf]
  exact queueState_modifyLane b lane fun _ => rfl

theorem queueState_dropErrors (b : Broker) (lane : Nat) :
    (b.dropErrors lane).queueState = b.queueState := by
  rw [dropErrors, queueState_wakeIf]
  exact queueState_modifyLane b lane fun _ => rfl

theorem queueState_settle (b : Broker) (seq : Nat) (disposition : Disposition) :
    (b.settle seq disposition).queueState = b.queueState := by
  unfold settle
  split <;> rfl

theorem queueState_setClock (b : Broker) (now : Nat) :
    (b.setClock now).queueState = b.queueState := by
  have hwake (lanes : List Nat) (b : Broker) :
      (lanes.foldl (fun b lane => b.wake (.forwarder lane)) b).queueState = b.queueState := by
    induction lanes generalizing b with
    | nil => rfl
    | cons lane lanes ih => exact (ih (b.wake (.forwarder lane))).trans (queueState_wake b _)
  exact hwake _ _

end Broker

/-! ## Nobody misses a returned message -/

theorem Broker.sorted_insertParcel {p : Parcel} {ps : List Parcel}
    (h : ps.Pairwise fun p q => p.seq ≤ q.seq) :
    (insertParcel p ps).Pairwise fun p q => p.seq ≤ q.seq := by
  induction ps with
  | nil => exact List.pairwise_singleton _ _
  | cons q ps ih =>
    obtain ⟨hhead, hrest⟩ := List.pairwise_cons.mp h
    rw [insertParcel]
    split
    · next hlt =>
      refine List.pairwise_cons.mpr ⟨fun r hr => ?_, ih hrest⟩
      rcases mem_insertParcel.mp hr with rfl | hr
      · exact Nat.le_of_lt hlt
      · exact hhead r hr
    · next hge =>
      refine List.pairwise_cons.mpr ⟨fun r hr => ?_, h⟩
      rcases List.mem_cons.mp hr with rfl | hr
      · exact Nat.le_of_not_lt hge
      · exact Nat.le_trans (Nat.le_of_not_lt hge) (hhead r hr)

namespace QueueState

variable {s s' : QueueState} {n : Nat} {f f' : Forwarder}

/-- A sign changes nothing about a forwarder that does not look for an envelope. -/
theorem forwarders_requeue (p : Parcel) (hn : s.forwarders[n]? = some f)
    (hf : f.isAwaitingNew = false) :
    (s.requeue p).forwarders[n]? = some f := by
  unfold requeue notify
  split
  · exact hn
  · next i _ =>
    split
    · next deadline hparked =>
      have hne : i ≠ n := by
        rintro rfl
        obtain rfl := Option.some.inj (hn.symm.trans hparked)
        cases hf
      exact (List.getElem?_set_ne hne).trans hn
    · exact hn

namespace SignsKept

/-- A message is returned: the forwarder that looks for an envelope is told so, or will be. -/
theorem requeue (h : s.SignsKept) (p : Parcel) : (s.requeue p).SignsKept := by
  have hsorted := Broker.sorted_insertParcel (p := p) h.sorted
  unfold QueueState.requeue notify
  split
  · next hnone =>
    refine ⟨hsorted, h.queue, fun hm hf => ?_⟩
    cases hnone.symm.trans (h.queue hm (Forwarder.hasQueue_of_isAwaitingNew hf))
  next i hhead =>
  -- Only the first in line looks for an envelope.
  have honly {m : Nat} {f : Forwarder} (hm : s.forwarders[m]? = some f) (hf : f.isAwaitingNew) :
      i = m :=
    Option.some.inj (hhead.symm.trans (h.queue hm (Forwarder.hasQueue_of_isAwaitingNew hf)))
  split
  · next deadline hparked =>
    have hself : (s.forwarders.set i (.parked deadline true))[i]? = some (.parked deadline true) :=
      List.getElem?_set_self (List.getElem?_eq_some_iff.mp hparked).1
    refine ⟨hsorted, fun {m f} hm hf => ?_, fun {m f} hm hf _ => ?_⟩
    · by_cases hi : i = m
      · exact hi ▸ hhead
      · exact h.queue ((List.getElem?_set_ne hi).symm.trans hm) hf
    · by_cases hi : i = m
      · subst hi
        obtain rfl := Option.some.inj (hself.symm.trans hm)
        rfl
      · exact absurd (honly ((List.getElem?_set_ne hi).symm.trans hm) hf) hi
  · next hother =>
    refine ⟨hsorted, h.queue, fun {m f} hm hf _ => ?_⟩
    obtain rfl := honly hm hf
    cases f with
    | choosing => rfl
    | parked deadline notified =>
      cases notified with
      | true => rfl
      | false => exact (hother deadline hm).elim
    | _ => cases hf

/-- A sign is kept. -/
theorem keep (h : s.SignsKept) (notified : Bool) :
    ({ s with permit := s.permit || notified } : QueueState).SignsKept where
  sorted := h.sorted
  queue := h.queue
  sign {n f} hn hf hreturned := by
    have htold := h.sign hn hf hreturned
    cases f with
    | choosing =>
      show (s.permit || notified) = true
      rw [show s.permit = true from htold, Bool.true_or]
    | _ => exact htold

/-- One forwarder moves. Unless it has the queue, it leaves returned messages and the sign alone. -/
theorem move (h : s.SignsKept) (hn : s.forwarders[n]? = some f)
    (hforwarders : s'.forwarders = s.forwarders.set n f')
    (hsorted : s'.returned.Pairwise fun p q => p.seq ≤ q.seq)
    (hline : ∀ m, n ≠ m → s.line.head? = some m → s'.line.head? = some m)
    (hself : f'.hasQueue → s'.line.head? = some n)
    (hsign : f'.isAwaitingNew → s'.returned ≠ [] → f'.isNotified s'.permit)
    (halone : f.hasQueue ∨ s'.returned = s.returned ∧ s'.permit = s.permit) : s'.SignsKept := by
  have hat {m : Nat} {g : Forwarder} (hm : s'.forwarders[m]? = some g) :
      n = m ∧ g = f' ∨ n ≠ m ∧ s.forwarders[m]? = some g := by
    rw [hforwarders] at hm
    by_cases hi : n = m
    · subst hi
      rw [List.getElem?_set_self (List.getElem?_eq_some_iff.mp hn).1] at hm
      exact .inl ⟨rfl, (Option.some.inj hm).symm⟩
    · exact .inr ⟨hi, (List.getElem?_set_ne hi).symm.trans hm⟩
  refine ⟨hsorted, fun {m g} hm hg => ?_, fun {m g} hm hg hreturned => ?_⟩
  · rcases hat hm with ⟨rfl, rfl⟩ | ⟨hi, hm⟩
    · exact hself hg
    · exact hline m hi (h.queue hm hg)
  · rcases hat hm with ⟨rfl, rfl⟩ | ⟨hi, hm⟩
    · exact hsign hg hreturned
    · rcases halone with hqueue | ⟨hsame, hpermit⟩
      · -- No other forwarder looks for an envelope.
        have hfirst := h.queue hm (Forwarder.hasQueue_of_isAwaitingNew hg)
        exact absurd (Option.some.inj ((h.queue hn hqueue).symm.trans hfirst)) hi
      · rw [hpermit]
        exact h.sign hm hg (hsame ▸ hreturned)

/-- The forwarder that has the queue moves on to something else than looking for an envelope. It may
take the first returned message, and follow a sign. -/
theorem goOn (h : s.SignsKept) (hn : s.forwarders[n]? = some f) (hqueue : f.hasQueue)
    (hf' : f'.isAwaitingNew = false) {returned : List Parcel} (hreturned : returned <:+ s.returned)
    (permit : Bool) : (({ s with returned, permit } : QueueState).set n f').SignsKept :=
  h.move hn rfl (h.sorted.sublist hreturned.sublist) (fun _ _ => id) (fun _ => h.queue hn hqueue)
    (fun hawaiting => absurd hawaiting (by simp [hf'])) (.inl hqueue)

/-- The forwarder that has the queue has found no returned message, and looks for an envelope. -/
theorem await (h : s.SignsKept) (hn : s.forwarders[n]? = some f) (hqueue : f.hasQueue)
    (hreturned : s.returned = []) (f' : Forwarder) : (s.set n f').SignsKept :=
  h.move hn rfl h.sorted (fun _ _ => id) (fun _ => h.queue hn hqueue)
    (fun _ hsome => absurd hreturned hsome) (.inl hqueue)

/-- There is one more forwarder, which has not begun. -/
theorem «open» (h : s.SignsKept) :
    ({ s with forwarders := s.forwarders ++ [.starting] } : QueueState).SignsKept := by
  have hold {n : Nat} {f : Forwarder} (hn : (s.forwarders ++ [.starting])[n]? = some f)
      (hf : f.hasQueue) : s.forwarders[n]? = some f := by
    rw [List.getElem?_append] at hn
    split at hn
    · exact hn
    · obtain rfl := List.mem_singleton.mp (List.mem_of_getElem? hn)
      cases hf
  exact ⟨h.sorted, fun hn hf => h.queue (hold hn hf) hf, fun hn hf =>
    h.sign (hold hn (Forwarder.hasQueue_of_isAwaitingNew hf)) hf⟩

/-- A forwarder ends, and leaves the line. -/
theorem leave (h : s.SignsKept) (hn : s.forwarders[n]? = some f) {permit : Bool}
    (hpermit : f.hasQueue ∨ permit = s.permit) :
    (({ s with permit, line := s.line.erase n } : QueueState).set n .ended).SignsKept := by
  refine h.move hn rfl h.sorted (fun m hm hhead => ?_) (fun h => by cases h) (fun h => by cases h)
    (hpermit.imp_right fun h => ⟨rfl, h⟩)
  obtain ⟨line, hcons⟩ := List.head?_eq_some_iff.mp hhead
  show (s.line.erase n).head? = some m
  rw [hcons, List.erase_cons_tail (by simpa using Ne.symm hm)]
  rfl

end SignsKept

end QueueState

/-! ## What forwarders do -/

namespace Broker

variable {b : Broker} {lane : Nat} {l : Lane}

theorem getElem?_forwarders (h : b.lanes[lane]? = some l) :
    b.queueState.forwarders[lane]? = some l.forwarder := by
  simp [queueState, h]

/-- A message that is taken in hand has an identifier. -/
theorem queueState_pickUp (b : Broker) (lane : Nat) (p : Parcel) :
    ∃ d : Delivery, p.Becomes d.toParcel ∧
      (b.pickUp lane p).queueState = b.queueState.set lane (.offering d) := by
  unfold pickUp
  split
  · next id hid =>
    refine ⟨⟨p.seq, id, p.payload⟩, ⟨rfl, rfl, fun id' hid' => ?_⟩,
      queueState_setForwarder b lane _⟩
    rw [← hid', hid]
    rfl
  · next hid =>
    refine ⟨⟨p.seq, .fresh b.freshIds, p.payload⟩, ⟨rfl, rfl, fun id hid' => ?_⟩,
      queueState_setForwarder _ lane _⟩
    cases hid.symm.trans hid'

theorem signsKept_finish (h : b.queueState.SignsKept)
    (hn : b.queueState.forwarders[lane]? = some l.forwarder) :
    (b.finish lane l).queueState.SignsKept := by
  have hend (b' : Broker) : (((b'.leaveLine lane).setForwarder lane .ended).wake
      (.reader l.owner)).queueState =
        ({ b'.queueState with line := b'.queueState.line.erase lane } : QueueState).set lane
        .ended := by
    rw [queueState_wake, queueState_setForwarder, queueState_leaveLine]
    rfl
  unfold finish
  cases hforwarder : l.forwarder with
  | offering d =>
    rw [hforwarder] at hn
    rw [hend, queueState_giveBack]
    exact (h.requeue d.toParcel).leave (QueueState.forwarders_requeue d.toParcel hn rfl) (.inr rfl)
  | parked deadline notified =>
    cases notified with
    | false =>
      rw [hend]
      exact h.leave hn (.inr rfl)
    | true =>
      rw [hend]
      exact h.leave hn (.inl (by rw [hforwarder]; rfl))
  | _ =>
    rw [hend]
    exact h.leave hn (.inr rfl)

/-- A forwarder that takes an envelope has no time for a returned message yet. -/
theorem signsKept_takeNew (h : b.queueState.SignsKept) (hl : b.lanes[lane]? = some l)
    (hqueue : l.forwarder.hasQueue) :
    (b.takeNew lane l).1.queueState.SignsKept := by
  have hn := getElem?_forwarders hl
  unfold takeNew
  split
  · exact signsKept_finish h hn
  · next p rest _ =>
    obtain ⟨d, -, hqueueState⟩ := queueState_pickUp { b with incoming := rest }.refill lane p
    rw [hqueueState, queueState_refill]
    exact h.goOn hn hqueue rfl (List.suffix_refl _) _
  · next text rest _ =>
    rw [queueState_setForwarder, queueState_refill]
    exact h.goOn hn hqueue rfl (List.suffix_refl _) _

theorem signsKept_look (h : b.queueState.SignsKept) (hl : b.lanes[lane]? = some l)
    (hqueue : l.forwarder.hasQueue) (deadline : Option Nat) :
    (b.look lane deadline).1.queueState.SignsKept := by
  have hn := getElem?_forwarders hl
  unfold look
  split
  · next p rest hreturned =>
    obtain ⟨d, -, hqueueState⟩ := queueState_pickUp { b with returned := rest } lane p
    rw [hqueueState]
    exact h.goOn hn hqueue rfl ⟨[p], hreturned.symm⟩ _
  · next hreturned =>
    rw [queueState_setForwarder]
    exact h.await hn hqueue hreturned _

/-- A forwarder begins to wait only if no sign is kept, and then no message was returned. -/
theorem signsKept_choose (h : b.queueState.SignsKept) (hl : b.lanes[lane]? = some l)
    {deadline : Option Nat} (hforwarder : l.forwarder = .choosing deadline) (favourNew : Bool) :
    (b.choose lane l deadline favourNew).1.queueState.SignsKept := by
  have hn := getElem?_forwarders hl
  have hqueue : l.forwarder.hasQueue := by rw [hforwarder]; rfl
  unfold choose
  split
  · rw [queueState_setForwarder]
    exact h.goOn hn hqueue rfl (List.suffix_refl _) _
  next hunsigned =>
  split
  · exact signsKept_takeNew h hl hqueue
  next hsilent =>
  split
  · rw [timeOut, queueState_setForwarder]
    exact h.goOn hn hqueue rfl (List.suffix_refl _) _
  · rw [queueState_setForwarder]
    refine h.await hn hqueue ?_ _
    by_contra hreturned
    have hpermit := h.sign hn (by rw [hforwarder]; rfl) hreturned
    rw [hforwarder] at hpermit
    exact hunsigned (by simp [show b.permit = true from hpermit, hsilent])

theorem signsKept_resume (h : b.queueState.SignsKept) (hl : b.lanes[lane]? = some l)
    {deadline : Option Nat} {notified : Bool} (hforwarder : l.forwarder = .parked deadline notified)
    (favourNew : Bool) :
    (b.resume lane l deadline notified favourNew).1.queueState.SignsKept := by
  have hn := getElem?_forwarders hl
  have hqueue : l.forwarder.hasQueue := by rw [hforwarder]; rfl
  unfold resume
  split
  · rw [queueState_setForwarder]
    exact h.goOn hn hqueue rfl (List.suffix_refl _) _
  split
  · exact signsKept_takeNew (b := { b with permit := b.permit || notified }) (h.keep notified) hl
      hqueue
  split
  · rw [timeOut, queueState_setForwarder]
    exact h.goOn hn hqueue rfl (List.suffix_refl _) _
  · exact h

/-- The forwarder that has the queue moves on while its lane changes. -/
theorem signsKept_moveLane (h : b.queueState.SignsKept) (hl : b.lanes[lane]? = some l)
    (hqueue : l.forwarder.hasQueue) {g : Lane → Lane} (hg : (g l).forwarder.isAwaitingNew = false) :
    (b.modifyLane lane g).queueState.SignsKept := by
  have hmove : (b.modifyLane lane g).queueState = b.queueState.set lane (g l).forwarder :=
    queueState_moveLane b lane fun l' hl' => by rw [Option.some.inj (hl.symm.trans hl')]
  rw [hmove]
  exact h.goOn (getElem?_forwarders hl) hqueue hg (List.suffix_refl _) _

theorem signsKept_handOver (h : b.queueState.SignsKept) (hl : b.lanes[lane]? = some l)
    {d : Delivery} (hforwarder : l.forwarder = .offering d) :
    (b.handOver lane l d).1.queueState.SignsKept := by
  have hqueue : l.forwarder.hasQueue := by rw [hforwarder]; rfl
  unfold handOver
  split
  · exact signsKept_finish h (getElem?_forwarders hl)
  split
  · exact h
  · show (Broker.wake _ _).queueState.SignsKept
    rw [queueState_wake]
    exact signsKept_moveLane h hl hqueue rfl

theorem signsKept_report (h : b.queueState.SignsKept) (hl : b.lanes[lane]? = some l)
    {error : String} {last : Bool} (hforwarder : l.forwarder = .reporting error last) :
    (b.report lane l error last).1.queueState.SignsKept := by
  have hqueue : l.forwarder.hasQueue := by rw [hforwarder]; rfl
  unfold report
  split
  · exact signsKept_finish h (getElem?_forwarders hl)
  split
  · exact h
  split
  · have hqueueState :
        (b.modifyLane lane fun l => { l with errorSlot := some error }).queueState = b.queueState :=
      queueState_modifyLane b lane fun _ => rfl
    exact signsKept_finish (hqueueState ▸ h) (hqueueState ▸ getElem?_forwarders hl)
  · show (Broker.wake _ _).queueState.SignsKept
    rw [queueState_wake]
    exact signsKept_moveLane h hl hqueue rfl

/-- Whatever a forwarder does, none misses a returned message. -/
theorem signsKept_proceed (h : b.queueState.SignsKept) (hl : b.lanes[lane]? = some l)
    (favourNew : Bool) :
    (b.proceed lane l favourNew).1.queueState.SignsKept := by
  have hn := getElem?_forwarders hl
  unfold proceed
  cases hforwarder : l.forwarder with
  | starting =>
    rw [hforwarder] at hn
    show (Broker.setForwarder { b with line := b.line ++ [lane] } lane
      .queueing).queueState.SignsKept
    rw [queueState_setForwarder]
    refine h.move hn rfl h.sorted (fun m _ hhead => ?_) (fun h => by cases h)
      (fun h => by cases h) (.inr ⟨rfl, rfl⟩)
    obtain ⟨line, hcons⟩ := List.head?_eq_some_iff.mp hhead
    show (b.line ++ [lane]).head? = some m
    rw [show b.line = m :: line from hcons]
    rfl
  | queueing =>
    rw [hforwarder] at hn
    show (b.takeQueue lane l).1.queueState.SignsKept
    unfold takeQueue
    split
    · next hholder =>
      rw [queueState_setForwarder]
      exact h.move hn rfl h.sorted (fun _ _ => id) (fun _ => hholder)
        (fun h => by cases h) (.inr ⟨rfl, rfl⟩)
    · exact h
  | looking deadline => exact signsKept_look h hl (by rw [hforwarder]; rfl) deadline
  | choosing deadline => exact signsKept_choose h hl hforwarder favourNew
  | parked deadline notified => exact signsKept_resume h hl hforwarder favourNew
  | offering d => exact signsKept_handOver h hl hforwarder
  | reporting error last => exact signsKept_report h hl hforwarder
  | ended => exact h

theorem signsKept_advance (h : b.queueState.SignsKept) (lane : Nat) (favourNew : Bool) :
    (b.advance lane favourNew).1.queueState.SignsKept := by
  unfold advance
  split
  · exact h
  next l hl =>
  split
  · exact signsKept_finish h (getElem?_forwarders hl)
  · exact signsKept_proceed h hl favourNew

theorem signsKept_overrun (h : b.queueState.SignsKept) (lane : Nat) (favourNew : Bool) :
    (b.overrun lane favourNew).queueState.SignsKept := by
  unfold overrun
  cases hl : b.lanes[lane]? with
  | none => exact h
  | some l => exact signsKept_proceed h hl favourNew

/-! ## What can happen -/

theorem signsKept_giveBack (h : b.queueState.SignsKept) (d : Delivery) :
    (b.giveBack d).queueState.SignsKept := by
  rw [queueState_giveBack]
  exact h.requeue d.toParcel

/-- A lane that is opened has a forwarder that has not begun. -/
theorem signsKept_consume (h : b.queueState.SignsKept) (consumer owner : Nat) :
    (b.consume consumer owner).1.queueState.SignsKept := by
  unfold consume
  split
  · exact h
  next c _ =>
  split
  · exact h
  · show (Broker.wake _ _).queueState.SignsKept
    have hopened : (b.lanes ++ [Lane.start owner c.limit]).map Lane.forwarder =
        b.queueState.forwarders ++ [.starting] := List.map_append
    rw [queueState_wake]
    show (QueueState.mk b.returned b.permit b.line
      ((b.lanes ++ [Lane.start owner c.limit]).map Lane.forwarder)).SignsKept
    rw [hopened]
    exact h.open

theorem signsKept_dropMessage (h : b.queueState.SignsKept) (seq : Nat) :
    (b.dropMessage seq).queueState.SignsKept := by
  unfold dropMessage
  split
  · exact h
  · split
    · exact h
    · exact signsKept_giveBack (b := { b with held := b.held.filter (·.delivery.seq ≠ seq) }) h _

theorem signsKept_dropMessages (h : b.queueState.SignsKept) (lane : Nat) :
    (b.dropMessages lane).queueState.SignsKept := by
  have hdropped :
      ((b.modifyLane lane fun l => { l with readsMessages := false, slot := none }).wakeIf lane
      Forwarder.isOffering).queueState = b.queueState := by
    rw [queueState_wakeIf]
    exact queueState_modifyLane b lane fun _ => rfl
  simp only [dropMessages]
  split
  · exact signsKept_giveBack (hdropped ▸ h) _
  · exact hdropped ▸ h

/-- Whatever happens, no forwarder misses a returned message. -/
theorem signsKept_apply (h : b.queueState.SignsKept) (e : Event) :
    (b.apply e).queueState.SignsKept := by
  cases e with
  | publish id payload => exact (queueState_send _ _).symm ▸ h
  | fail text => exact (queueState_send b _).symm ▸ h
  | clonePublisher => exact (queueState_clonePublisher b).symm ▸ h
  | dropPublisher => exact (queueState_dropPublisher b).symm ▸ h
  | create => exact (queueState_create b).symm ▸ h
  | abort consumer => exact (queueState_abort b consumer).symm ▸ h
  | receive lane => exact (queueState_takeMessage b lane).symm ▸ h
  | receiveError lane => exact (queueState_takeError b lane).symm ▸ h
  | settle seq disposition => exact (queueState_settle b seq disposition).symm ▸ h
  | dropErrors lane => exact (queueState_dropErrors b lane).symm ▸ h
  | setClock now => exact (queueState_setClock b now).symm ▸ h
  | consume consumer owner => exact signsKept_consume h consumer owner
  | dropMessage seq => exact signsKept_dropMessage h seq
  | dropMessages lane => exact signsKept_dropMessages h lane
  | forward lane favourNew => exact signsKept_advance h lane favourNew
  | overrun lane favourNew => exact signsKept_overrun h lane favourNew
  | giveUp | failAttempts | dropFactory | setTimeout | close | dropConsumer => exact h

/-- A forwarder that looks for a returned message takes the first one in hand. -/
theorem advance_looking {deadline : Option Nat} (hl : b.lanes[lane]? = some l)
    (haborted : l.aborted = false) (hforwarder : l.forwarder = .looking deadline) {p : Parcel}
    {rest : List Parcel} (hreturned : b.returned = p :: rest) (favourNew : Bool) :
    ∃ d : Delivery, p.Becomes d.toParcel ∧
      (b.advance lane favourNew).1.queueState.forwarders[lane]? = some (.offering d) ∧
      (b.advance lane favourNew).1.returned = rest ∧
      (b.advance lane favourNew).1.incoming = b.incoming := by
  have hstep : (b.advance lane favourNew).1 = { b with returned := rest }.pickUp lane p := by
    simp only [advance, hl, haborted, Bool.false_and, Bool.false_eq_true, if_false, proceed,
      hforwarder, look, hreturned]
  obtain ⟨d, hd, hqueueState⟩ := queueState_pickUp { b with returned := rest } lane p
  have hlt := (List.getElem?_eq_some_iff.mp (getElem?_forwarders hl)).1
  rw [hstep, hqueueState]
  refine ⟨d, hd, List.getElem?_set_self hlt, congrArg QueueState.returned hqueueState, ?_⟩
  unfold pickUp
  split <;> rfl

/-- A forwarder that looks for an envelope looks for returned messages again if there are any,
unless it acts on an envelope, or the end of the queue, that has come as well. -/
theorem advance_awaitingNew (h : b.queueState.SignsKept) (hl : b.lanes[lane]? = some l)
    (haborted : l.aborted = false) (hawaiting : l.forwarder.isAwaitingNew)
    (hreturned : b.returned ≠ []) {favourNew : Bool} (hcalm : favourNew = true → b.speaks = false) :
    ∃ deadline permit, (b.advance lane favourNew).1 =
      { b with permit }.setForwarder lane (.looking deadline) := by
  have hsign := h.sign (getElem?_forwarders hl) hawaiting hreturned
  have hunfavoured : (favourNew && b.speaks) = false := by
    cases favourNew with
    | false => rfl
    | true => exact hcalm rfl
  simp only [advance, hl, haborted, Bool.false_and, Bool.false_eq_true, if_false, proceed]
  cases hforwarder : l.forwarder with
  | choosing deadline =>
    rw [hforwarder] at hsign
    have hpermit : b.permit = true := hsign
    refine ⟨deadline, false, ?_⟩
    simp only [choose, hpermit, hunfavoured, Bool.not_false, Bool.and_true, if_true]
  | parked deadline notified =>
    rw [hforwarder] at hsign
    have hnotified : notified = true := hsign
    refine ⟨deadline, b.permit, ?_⟩
    simp only [resume, hnotified, hunfavoured, Bool.not_false, Bool.and_true, if_true]
  | _ =>
    rw [hforwarder] at hawaiting
    cases hawaiting

end Broker

/-! ## The next envelope -/

/-- The transport after a forwarder has taken so many steps. -/
def Broker.advances (b : Broker) (lane : Nat) (favourNew : Bool) : Nat → Broker
  | 0 => b
  | n + 1 => (b.advance lane favourNew).1.advances lane favourNew n

namespace Ledger

variable {l l' : Ledger} {capacity : Nat} {b : Broker} {events : List Broker.Event}

theorem signsKept_run (h : l.broker.queueState.SignsKept) (hrun : l.run events = some l') :
    l'.broker.queueState.SignsKept := by
  refine foldlM_induction (motive := fun l => l.broker.queueState.SignsKept) hrun h
    fun e _ l₁ l₂ hsigns hstep => ?_
  obtain rfl := step_eq_some hstep
  exact Broker.signsKept_apply hsigns e

theorem signsKept_ofCapacity? (h : Broker.ofCapacity? capacity = some b) :
    b.queueState.SignsKept := by
  obtain rfl := Broker.eq_of_ofCapacity? h
  constructor
  case sorted => exact .nil
  case queue => rintro n f ⟨⟩
  case sign => rintro n f ⟨⟩

/-- Whatever happens to a new transport as long as its queue exists, no sign of a returned message
is lost. -/
theorem signsKept_of_run (hopen : Broker.ofCapacity? capacity = some b)
    (hrun : ({ broker := b } : Ledger).run events = some l) : l.broker.queueState.SignsKept :=
  signsKept_run (signsKept_ofCapacity? hopen) hrun

/-- Returned messages are kept in the order of their numbers, each one once. -/
theorem sorted_returned (hsigns : l.broker.queueState.SignsKept)
    (hsound : l.broker.contents.Sound l.accepted l.received) :
    l.broker.returned.Pairwise fun p q => p.seq < q.seq := by
  refine List.pairwise_iff_forall_sublist.mpr fun {p q} hsub => ?_
  refine Nat.lt_of_le_of_ne (List.pairwise_iff_forall_sublist.mp hsigns.sorted hsub) fun heq => ?_
  -- Otherwise there would be two of the kind, while the transport has each message once.
  have hreturned : (l.broker.returned : Multiset Parcel) ≤ l.broker.contents.parcels :=
    (Multiset.le_add_left _ _).trans (Multiset.le_add_right _ _)
  have hone :=
    (hsound.elsewhere (Multiset.mem_of_le hreturned (hsub.subset (List.mem_cons_self ..)))).1
  have htwo : 2 ≤ l.broker.returned.countP fun r => r.seq = p.seq := by
    have hle := hsub.countP_le (p := fun r => decide (r.seq = p.seq))
    simpa [heq] using hle
  have hle := Multiset.countP_le_of_le (fun r : Parcel => r.seq = p.seq) hreturned
  rw [Multiset.coe_countP] at hle
  omega

/-- While a message waits to be delivered again, a forwarder that looks for its next envelope takes
the one with the smallest number, after two steps at most, and no new one. Only a forwarder that has
looked for returned messages already may act otherwise, if a new envelope, or the end of the queue,
has come as well. -/
theorem takes_returned (hopen : Broker.ofCapacity? capacity = some b)
    (hrun : ({ broker := b } : Ledger).run events = some l) {lane : Nat} {x : Lane}
    (hl : l.broker.lanes[lane]? = some x) (haborted : x.aborted = false)
    (hseeking : x.forwarder.isSeeking) {p : Parcel} {rest : List Parcel}
    (hreturned : l.broker.returned = p :: rest) {favourNew : Bool}
    (hcalm : x.forwarder.isAwaitingNew → favourNew = true → l.broker.speaks = false) :
    (∀ q ∈ rest, p.seq < q.seq) ∧ ∃ n d, n ≤ 2 ∧ p.Becomes d.toParcel ∧
      (l.broker.advances lane favourNew n).queueState.forwarders[lane]? = some (.offering d) ∧
      (l.broker.advances lane favourNew n).returned = rest ∧
      (l.broker.advances lane favourNew n).incoming = l.broker.incoming := by
  have hsigns := signsKept_of_run hopen hrun
  have hsorted := sorted_returned hsigns (sound_run (sound_ofCapacity? hopen) hrun).1
  rw [hreturned] at hsorted
  refine ⟨(List.pairwise_cons.mp hsorted).1, ?_⟩
  by_cases hawaiting : x.forwarder.isAwaitingNew
  · obtain ⟨deadline, permit, hstep⟩ := Broker.advance_awaitingNew hsigns hl haborted hawaiting
      (by rw [hreturned]; exact List.cons_ne_nil p rest) (hcalm hawaiting)
    have hl' : ({ l.broker with permit }.setForwarder lane (.looking deadline)).lanes[lane]? =
        some { x with forwarder := .looking deadline } :=
      (List.getElem?_modify_eq _ _ _).trans (congrArg (Option.map _) hl)
    obtain ⟨d, hd, hlooked⟩ := Broker.advance_looking hl' haborted rfl hreturned favourNew
    refine ⟨2, d, Nat.le_refl 2, hd, ?_⟩
    simp only [Broker.advances, hstep]
    exact hlooked
  · obtain ⟨deadline, hforwarder⟩ : ∃ deadline, x.forwarder = .looking deadline := by
      cases hforwarder : x.forwarder with
      | looking deadline => exact ⟨deadline, rfl⟩
      | _ => simp_all [Forwarder.isSeeking, Forwarder.isAwaitingNew]
    obtain ⟨d, hd, hlooked⟩ := Broker.advance_looking hl haborted hforwarder hreturned favourNew
    exact ⟨1, d, Nat.le_succ 1, hd, hlooked⟩

/-- A message is given back while a forwarder waits, and another one is published before it goes on:
if it acts on the new one, the older one is overtaken. -/
theorem overtaken :
    let events : List Broker.Event :=
      [.publish (some "a") .null, .create, .consume 0 0, .forward 0 false, .forward 0 false,
        .forward 0 false, .forward 0 false, .forward 0 false, .forward 0 false, .forward 0 false,
        .receive 0, .dropMessage 0, .publish (some "b") .null]
    ∃ b, Broker.ofCapacity? 1 = some b ∧ ∃ l, ({ broker := b } : Ledger).run events = some l ∧
      l.broker.returned.map Parcel.seq = [0] ∧
      (l.broker.advance 0 true).1.returned.map Parcel.seq = [0] ∧
      (l.broker.advance 0 true).1.queueState.forwarders = [.offering ⟨1, .given "b", .null⟩] ∧
      (l.broker.advances 0 false 2).queueState.forwarders = [.offering ⟨0, .given "a", .null⟩] := by
  intro events
  exact ⟨_, rfl, _, rfl, rfl, rfl, rfl, rfl⟩

end Ledger

end Courier
