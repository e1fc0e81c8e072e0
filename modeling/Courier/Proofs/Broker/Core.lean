import Courier.Broker.Clock
import Courier.Proofs.Lists
import Mathlib.Tactic.ByContra

/-!
# What drives the transport

Whether the transport gets on depends on what is under way and on what its forwarders wait for: the
queue, the returned messages and the sign of one, the line for the queue, and the lanes.
`Broker.core` is the part of the transport that has to do with it; the clock, the list of the woken
and the log have not.

Each operation of the publishers, the factory and the readers moves a part or two of the core.
`Broker.core_send`, `Broker.core_consume` and their like say which.
-/

namespace Courier

/-- What drives a transport. -/
structure Core where
  /-- How many envelopes the queue has room for. -/
  capacity : Nat
  /-- How many publishers there are. -/
  publishers : Nat
  /-- The number of the next message. -/
  nextSeq : Nat
  /-- The envelopes on the queue, oldest first. -/
  incoming : List Envelope
  /-- The envelopes that wait for room, oldest first. -/
  blocked : List Envelope
  /-- The returned messages. -/
  returned : List Parcel
  /-- Whether a sign of a returned message is kept. -/
  permit : Bool
  /-- The lanes whose forwarders stand in line for the queue. -/
  line : List Nat
  /-- All lanes. -/
  lanes : List Lane
  /-- All consumers. -/
  consumers : List Consumer
  /-- The settlements, oldest first. -/
  outcomes : List Outcome
  /-- How many further requests for a consumer are to fail. -/
  failuresLeft : Nat
  /-- Whether somebody still has the factory. -/
  hasFactory : Bool

/-- What drives the transport. -/
def Broker.core (b : Broker) : Core where
  capacity := b.capacity
  publishers := b.publishers
  nextSeq := b.nextSeq
  incoming := b.incoming
  blocked := b.blocked.map Prod.snd
  returned := b.returned
  permit := b.permit
  line := b.line
  lanes := b.lanes
  consumers := b.consumers
  outcomes := b.outcomes
  failuresLeft := b.failuresLeft
  hasFactory := b.hasFactory

namespace Core

/-- The core with another lane in the place of one. -/
def setLane (g : Core) (n : Nat) (l : Lane) : Core := { g with lanes := g.lanes.set n l }

/-- The core with another consumer in the place of one. -/
def setConsumer (g : Core) (n : Nat) (c : Consumer) : Core :=
  { g with consumers := g.consumers.set n c }

/-- The core once an envelope was sent: it is on the queue if there is room, and else it waits. -/
def enqueue (g : Core) (e : Envelope) : Core :=
  if g.incoming.length < g.capacity && g.blocked.isEmpty then
    { g with incoming := g.incoming ++ [e] }
  else { g with blocked := g.blocked ++ [e] }

/-- The core once the oldest envelope was taken off the queue: one that waited gets the room. -/
def dequeue (g : Core) (rest : List Envelope) : Core :=
  match g.blocked with
  | [] => { g with incoming := rest }
  | e :: later =>
    if rest.length < g.capacity then { g with incoming := rest ++ [e], blocked := later }
    else { g with incoming := rest }

/-- Whether no forwarder but that of the `n`-th lane is there. -/
def Alone (g : Core) (n : Nat) : Prop :=
  ∀ i l, g.lanes[i]? = some l → i ≠ n → l.forwarder = .ended

end Core

/-- The forwarder once a sign of a returned message has reached it, if it waits for one. -/
def Forwarder.withSign : Forwarder → Forwarder
  | .parked deadline _ => .parked deadline true
  | f => f

/-- A message that goes back takes a place among the returned ones, and gives a sign: it is kept, or
it reaches the forwarder of the `n`-th lane, which is `f` and becomes `f'`. -/
structure Core.Returns (g : Core) (f : Forwarder) (g' : Core) (f' : Forwarder) : Prop where
  length : g'.returned.length = g.returned.length + 1
  rest : g' = { g with returned := g'.returned, permit := g'.permit }
  sign : f' = f ∨ f.isParked ∧ f' = f.withSign ∧ g'.permit = g.permit

/-- The message in the slot of the lane `l` goes back, if there is one; its forwarder is `f`
then. -/
def Core.Empties (g : Core) (l : Lane) (g' : Core) (f : Forwarder) : Prop :=
  l.slot = none ∧ g' = g ∧ f = l.forwarder ∨ l.slot.isSome ∧ g.Returns l.forwarder g' f

namespace Broker

variable {b : Broker} {n : Nat} {l : Lane}

/-! ## What leaves the core as it is -/

@[simp] theorem core_wake (b : Broker) (t : Task) : (b.wake t).core = b.core := by
  unfold wake
  split <;> rfl

@[simp] theorem core_wakeIf (b : Broker) (lane : Nat) (waits : Forwarder → Bool) :
    (b.wakeIf lane waits).core = b.core := by
  unfold wakeIf
  split
  · exact core_wake b _
  · rfl

@[simp] theorem core_wakeParked (b : Broker) : b.wakeParked.core = b.core := by
  unfold wakeParked
  split
  · rfl
  · split
    · exact core_wake b _
    · rfl

@[simp] theorem core_setClock (b : Broker) (now : Nat) : (b.setClock now).core = b.core := by
  have hwake (lanes : List Nat) (b : Broker) :
      (lanes.foldl (fun b lane => b.wake (.forwarder lane)) b).core = b.core := by
    induction lanes generalizing b with
    | nil => rfl
    | cons lane lanes ih => exact (ih (b.wake (.forwarder lane))).trans (core_wake b _)
  exact hwake _ _

/-! ## The queue and the line -/

@[simp] theorem core_leaveLine (b : Broker) (lane : Nat) :
    (b.leaveLine lane).core = { b.core with line := b.line.erase lane } := by
  simp only [leaveLine]
  split
  · split
    · rw [core_wake]
      rfl
    · rfl
  · rfl

theorem core_modifyLane (h : b.lanes[n]? = some l) (f : Lane → Lane) :
    (b.modifyLane n f).core = b.core.setLane n (f l) := by
  show { b.core with lanes := b.lanes.modify n f } = _
  rw [modify_eq_set h]
  rfl

theorem core_setForwarder (h : b.lanes[n]? = some l) (f : Forwarder) :
    (b.setForwarder n f).core = b.core.setLane n { l with forwarder := f } :=
  core_modifyLane h _

theorem core_modifyConsumer {c : Consumer} (h : b.consumers[n]? = some c)
    (f : Consumer → Consumer) :
    (b.modifyConsumer n f).core = b.core.setConsumer n (f c) := by
  show { b.core with consumers := b.consumers.modify n f } = _
  rw [modify_eq_set h]
  rfl

/-- Taking an envelope off the queue makes room for one that waits. -/
theorem core_refill (b : Broker) (rest : List Envelope) :
    ({ b with incoming := rest } : Broker).refill.core = b.core.dequeue rest := by
  have hdequeue : b.core.dequeue rest =
      match b.blocked.map Prod.snd with
      | [] => { b.core with incoming := rest }
      | e :: later =>
        if rest.length < b.capacity then
          { b.core with incoming := rest ++ [e], blocked := later }
        else { b.core with incoming := rest } := rfl
  rw [hdequeue]
  unfold refill
  rcases hblocked : b.blocked with _ | ⟨⟨ticket, e⟩, later⟩
  · simp only [core, hblocked, List.map_nil]
  · simp only [List.map_cons]
    split
    · rfl
    · simp only [core, hblocked, List.map_cons]

/-- A sign goes to the forwarder that waits for it, or is kept. -/
theorem core_notify (h : b.lanes[n]? = some l) (halone : b.core.Alone n) :
    b.notify.core = { b.core with permit := true } ∨
      l.forwarder.isParked ∧
        b.notify.core = b.core.setLane n { l with forwarder := l.forwarder.withSign } := by
  unfold notify
  split
  · exact .inl rfl
  · next lane _ =>
    split
    · next deadline hparked =>
      obtain ⟨l', hl', hforwarder⟩ := Option.map_eq_some_iff.mp hparked
      obtain rfl : lane = n := by
        by_contra hne
        rw [halone lane l' hl' hne] at hforwarder
        cases hforwarder
      obtain rfl : l' = l := Option.some.inj (hl'.symm.trans h)
      refine .inr ⟨by rw [hforwarder]; rfl, ?_⟩
      rw [core_wake, core_setForwarder h, hforwarder]
      rfl
    · exact .inl rfl

/-- A message that goes back leaves everything but the returned ones and their sign as it is. -/
theorem core_giveBack (h : b.lanes[n]? = some l) (halone : b.core.Alone n) (d : Delivery) :
    ∃ g f, b.core.Returns l.forwarder g f ∧
      (b.giveBack d).core = g.setLane n { l with forwarder := f } := by
  let b' : Broker := { b.log (.returned d.id) with returned := insertParcel d.toParcel b.returned }
  have hself : b'.core.setLane n l = b'.core := by
    show { b'.core with lanes := b.lanes.set n l } = _
    rw [set_eq_self h]
    rfl
  rcases core_notify (b := b') h halone with hkept | ⟨hparked, hreached⟩
  · refine ⟨{ b'.core with permit := true }, l.forwarder,
      ⟨length_insertParcel .., rfl, .inl rfl⟩, ?_⟩
    show b'.notify.core = { b'.core.setLane n l with permit := true }
    rw [hself]
    exact hkept
  · exact ⟨b'.core, l.forwarder.withSign,
      ⟨length_insertParcel .., rfl, .inr ⟨hparked, rfl, rfl⟩⟩, hreached⟩

/-! ## Publishers -/

/-- As long as somebody has the factory, nothing that is sent is refused. -/
theorem core_send (h : b.hasFactory = true) (e : Envelope) :
    (b.send e).1.core = b.core.enqueue e := by
  have halive : b.isAlive = true := by
    rw [isAlive, h]
    rfl
  have hempty : b.blocked.isEmpty = (b.blocked.map Prod.snd).isEmpty := by
    cases b.blocked <;> rfl
  have henqueue : b.core.enqueue e =
      if b.incoming.length < b.capacity && (b.blocked.map Prod.snd).isEmpty then
        { b.core with incoming := b.incoming ++ [e] }
      else { b.core with blocked := b.blocked.map Prod.snd ++ [e] } := rfl
  rw [send, halive, hempty, Bool.not_true, if_neg Bool.false_ne_true, henqueue]
  split
  · exact core_wakeParked _
  · simp only [core, List.map_append, List.map_cons, List.map_nil]

theorem core_publish (h : b.hasFactory = true) (id : Option String) (payload : Json) :
    (b.publish id payload).1.core =
      ({ b.core with nextSeq := b.nextSeq + 1 } : Core).enqueue
        (.message ⟨b.nextSeq, id.map CorrelationId.given, payload⟩) :=
  core_send (b := { b with nextSeq := b.nextSeq + 1 }) h _

theorem core_dropPublisher (b : Broker) :
    b.dropPublisher.core = { b.core with publishers := b.publishers - 1 } := by
  simp only [dropPublisher]
  split
  · exact core_wakeParked _
  · rfl

/-! ## Consumers -/

/-- A consumer is made if none is to fail. -/
theorem core_create (h : b.failuresLeft = 0) :
    b.create.2 = .ok b.consumers.length ∧
      b.create.1.core = { b.core with consumers := b.consumers ++ [Consumer.idle] } := by
  unfold create
  rw [if_neg (by omega)]
  exact ⟨rfl, rfl⟩

/-- A consumer that has no lane gets one. -/
theorem core_consume {c : Consumer} (h : b.consumers[n]? = some c) (hidle : c.lane = none)
    (owner : Nat) :
    (b.consume n owner).2 = .ok b.lanes.length ∧
      (b.consume n owner).1.core =
        ({ b.core with lanes := b.lanes ++ [Lane.start owner c.limit] } : Core).setConsumer n
          { c with lane := some b.lanes.length } := by
  have hconsume : b.consume n owner =
      ((({ b with lanes := b.lanes ++ [Lane.start owner c.limit] } : Broker).modifyConsumer n
        fun c => { c with lane := some b.lanes.length }).wake (.forwarder b.lanes.length),
          .ok b.lanes.length) := by
    unfold consume
    rw [h]
    simp only [hidle, Option.isSome_none, Bool.false_eq_true, if_false]
  rw [hconsume]
  refine ⟨rfl, (core_wake _ _).trans ?_⟩
  exact core_modifyConsumer (b := { b with lanes := b.lanes ++ [Lane.start owner c.limit] }) h _

theorem core_abort {i : Nat} {c : Consumer} (hc : b.consumers[i]? = some c)
    (hlane : c.lane = some n) (h : b.lanes[n]? = some l) :
    (b.abort i).core =
      (b.core.setConsumer i { c with lane := none }).setLane n { l with aborted := true } := by
  unfold abort
  simp only [hc, Option.bind_some, hlane]
  have haborted : ((b.modifyConsumer i fun c => { c with lane := none }).modifyLane n fun l =>
      { l with aborted := true }).core =
        (b.core.setConsumer i { c with lane := none }).setLane n { l with aborted := true } := by
    rw [core_modifyLane (b := b.modifyConsumer i _) h, core_modifyConsumer hc]
  split
  · rw [core_wake, haborted]
  · exact haborted

theorem core_dropConsumer (b : Broker) (i : Nat) :
    (b.dropConsumer i).core =
      { b.core with consumers := b.core.consumers.modify i fun c => { c with kept := false } } :=
  rfl

/-! ## Readers -/

theorem core_takeMessage {d : Delivery} (h : b.lanes[n]? = some l) (hslot : l.slot = some d) :
    (b.takeMessage n).core = b.core.setLane n { l with slot := none } := by
  unfold takeMessage
  rw [h, Option.bind_some, hslot]
  show (Broker.wakeIf _ n _).core = _
  rw [core_wakeIf]
  exact core_modifyLane h _

theorem core_takeError (h : b.lanes[n]? = some l) :
    (b.takeError n).core = b.core.setLane n { l with errorSlot := none } := by
  rw [takeError, core_wakeIf, core_modifyLane h]

theorem core_dropErrors (h : b.lanes[n]? = some l) :
    (b.dropErrors n).core =
      b.core.setLane n { l with readsErrors := false, errorSlot := none } := by
  rw [dropErrors, core_wakeIf, core_modifyLane h]

/-- A reader that stops taking messages gives back the one in its slot, if there is one. -/
theorem core_dropMessages (h : b.lanes[n]? = some l) (halone : b.core.Alone n) :
    ∃ g f, b.core.Empties l g f ∧
      (b.dropMessages n).core =
        g.setLane n { l with readsMessages := false, slot := none, forwarder := f } := by
  have hlt : n < b.lanes.length := (List.getElem?_eq_some_iff.mp h).1
  let b' := (b.modifyLane n fun l => { l with readsMessages := false, slot := none }).wakeIf n
    Forwarder.isOffering
  have hcore : b'.core = b.core.setLane n { l with readsMessages := false, slot := none } := by
    rw [core_wakeIf, core_modifyLane h]
  unfold dropMessages
  rw [h, Option.bind_some]
  cases hslot : l.slot with
  | none => exact ⟨b.core, l.forwarder, .inl ⟨hslot, rfl, rfl⟩, hcore⟩
  | some d =>
    have hlanes : b'.lanes = b.lanes.set n { l with readsMessages := false, slot := none } :=
      congrArg Core.lanes hcore
    have hlane : b'.lanes[n]? = some { l with readsMessages := false, slot := none } := by
      rw [hlanes, List.getElem?_set_self hlt]
    have halone' : b'.core.Alone n := by
      intro i l' hl' hi
      rw [hcore] at hl'
      exact halone i l' ((List.getElem?_set_ne (Ne.symm hi)).symm.trans hl') hi
    obtain ⟨g, f, hreturns, hgiven⟩ := core_giveBack hlane halone' d
    -- The lanes are as before but for the one that lost its reader, which is written anew.
    have hg : g = { b'.core with returned := g.returned, permit := g.permit } := hreturns.rest
    refine ⟨{ b.core with returned := g.returned, permit := g.permit }, f, .inr ⟨?_, ?_⟩, ?_⟩
    · rw [hslot]
      rfl
    · rw [hcore] at hreturns
      exact ⟨hreturns.length, rfl, hreturns.sign⟩
    · refine hgiven.trans ?_
      rw [hg, hcore]
      simp only [Core.setLane, List.set_set]

/-- A reader that settles its only message has nothing left. -/
theorem core_settle {d : Delivery} (h : b.held = [⟨d, false⟩]) (disposition : Disposition) :
    ((b.settle d.seq disposition).dropMessage d.seq).core =
      { b.core with outcomes := b.outcomes ++ [⟨d.seq, d.id, disposition⟩] } := by
  have hfind : b.held.find? (·.delivery.seq = d.seq) = some ⟨d, false⟩ := by simp [h]
  have hsettle : b.settle d.seq disposition =
      { b with held := [⟨d, true⟩], outcomes := b.outcomes ++ [⟨d.seq, d.id, disposition⟩] } := by
    unfold settle
    rw [hfind]
    simp [h]
  rw [hsettle]
  simp [dropMessage, core]

end Broker

end Courier
