import Courier.Broker.Clock
import Courier.Proofs.Lists

/-!
# What the transport contains

Most of what the transport keeps track of has nothing to do with where its messages are: the line
for the queue, signs, deadlines, woken tasks, the log. `Broker.contents` is the part that has, and
most operations leave it as it is.

The others put a message somewhere or take it away. `Broker.contents_publish`,
`Broker.contents_takeMessage` and their like say what each one does.

Messages are numbered in the order in which they are published, and enter the queue in that order
(`Contents.Numbered`).
-/

namespace Courier

/-! ## What there is -/

/-- What a forwarder has found. -/
inductive HandState where
  /-- It has no message in hand, and one may have been returned since it last looked. -/
  | searching
  /-- It has no message in hand, and found no returned one when it last looked. -/
  | waiting
  /-- It has a message in hand. -/
  | carrying (d : Delivery)
  /-- It has ended. -/
  | ended

namespace HandState

/-- The message in hand. -/
def hand? : HandState → Option Delivery
  | .carrying d => some d
  | _ => none

/-- Whether a forwarder is there to take a message in hand. -/
def IsFree : HandState → Prop
  | .searching | .waiting => True
  | _ => False

theorem hand?_of_isFree {g : HandState} (h : g.IsFree) : g.hand? = none := by
  cases g with
  | searching | waiting => rfl
  | carrying | ended => exact h.elim

end HandState

/-- What a forwarder has found where it stands. -/
def Forwarder.handState : Forwarder → HandState
  | .starting | .queueing | .looking _ | .reporting .. => .searching
  | .choosing _ | .parked .. => .waiting
  | .offering d => .carrying d
  | .ended => .ended

/-- The part of a lane that messages pass through. -/
structure LaneContents where
  /-- What its forwarder has found. -/
  handState : HandState
  /-- The message that waits for the reader. -/
  slot : Option Delivery
  /-- Whether the reader still takes messages. -/
  reads : Bool

/-- The lane with another state of the hand. -/
def LaneContents.withHandState (c : LaneContents) (g : HandState) :
    LaneContents := { c with handState := g }

/-- The part of a lane that messages pass through. -/
def Lane.contents (l : Lane) : LaneContents := ⟨l.forwarder.handState, l.slot, l.readsMessages⟩

/-- The message of an envelope, if it is one. -/
def Envelope.parcel? : Envelope → Option Parcel
  | .message p => some p
  | .error _ => none

/-- Where the messages of a transport are, and the numbers that are left. -/
structure Contents where
  /-- The envelopes on the queue, oldest first. -/
  incoming : List Envelope
  /-- The envelopes that wait for room, each with a ticket, oldest first. -/
  blocked : List (Nat × Envelope)
  /-- The returned messages. -/
  returned : List Parcel
  /-- What is on its way to readers. -/
  lanes : List LaneContents
  /-- The messages that readers have. -/
  held : List Holding
  /-- The settlements, oldest first. -/
  outcomes : List Outcome
  /-- The number of the next message. -/
  nextSeq : Nat
  /-- The next ticket. -/
  nextTicket : Nat

/-- Where the messages are. -/
def Broker.contents (b : Broker) : Contents where
  incoming := b.incoming
  blocked := b.blocked
  returned := b.returned
  lanes := b.lanes.map Lane.contents
  held := b.held
  outcomes := b.outcomes
  nextSeq := b.nextSeq
  nextTicket := b.nextTicket

namespace Contents

/-- Changes one lane. -/
def atLane (s : Contents) (i : Nat) (f : LaneContents → LaneContents) :
    Contents := { s with lanes := s.lanes.modify i f }

/-- Puts a message in its place among the returned ones. -/
def requeue (s : Contents) (p : Parcel) : Contents :=
  { s with returned := Broker.insertParcel p s.returned }

/-- Closes a slot, and puts the message in it back to the returned ones. -/
def dropSlot (s : Contents) (i : Nat) : Contents :=
  (((s.lanes[i]?).bind LaneContents.slot).elim s fun d => s.requeue d.toParcel).atLane i fun c =>
    { c with slot := none, reads := false }

/-- The contents once an envelope was sent with the given admission. -/
def afterSend (s : Contents) (e : Envelope) : Broker.Admission → Contents
  | .accepted => { s with incoming := s.incoming ++ [e] }
  | .waiting _ =>
    { s with blocked := s.blocked ++ [(s.nextTicket, e)], nextTicket := s.nextTicket + 1 }
  | .refused => s

@[simp] theorem lanes_afterSend (s : Contents) (e : Envelope) (admission : Broker.Admission) :
    (s.afterSend e admission).lanes = s.lanes := by
  cases admission <;> rfl

@[simp] theorem held_afterSend (s : Contents) (e : Envelope) (admission : Broker.Admission) :
    (s.afterSend e admission).held = s.held := by
  cases admission <;> rfl

@[simp] theorem outcomes_afterSend (s : Contents) (e : Envelope) (admission : Broker.Admission) :
    (s.afterSend e admission).outcomes = s.outcomes := by
  cases admission <;> rfl

/-- A change that does nothing to the lane in question does nothing. -/
theorem atLane_eq_self {s : Contents} {i : Nat} {f : LaneContents → LaneContents}
    (h : ∀ c, s.lanes[i]? = some c → f c = c) :
    s.atLane i f = s := by
  have hlanes : s.lanes.modify i f = s.lanes := by
    refine List.ext_getElem? fun j => ?_
    by_cases hij : i = j
    · subst hij
      rw [List.getElem?_modify_eq]
      cases hc : s.lanes[i]? with
      | none => rfl
      | some c => exact congrArg some (h c hc)
    · exact List.getElem?_modify_ne f s.lanes hij
  rw [atLane, hlanes]

end Contents

namespace Broker

theorem getElem?_lanes {b : Broker} {lane : Nat} {l : Lane} (h : b.lanes[lane]? = some l) :
    b.contents.lanes[lane]? = some l.contents := by
  simp [contents, h]

/-- A change of a lane changes its contents. -/
theorem contents_modifyLane (b : Broker) (lane : Nat) {f : Lane → Lane}
    {g : LaneContents → LaneContents} (h : ∀ l, (f l).contents = g l.contents) :
    (b.modifyLane lane f).contents = b.contents.atLane lane g := by
  have hlanes :
      (b.lanes.modify lane f).map Lane.contents = (b.lanes.map Lane.contents).modify lane g := by
    refine List.ext_getElem? fun j => ?_
    simp only [List.getElem?_map, List.getElem?_modify]
    by_cases hj : lane = j <;> cases b.lanes[j]? <;> simp [hj, h]
  simp only [contents, modifyLane, Contents.atLane, hlanes]

theorem contents_setForwarder (b : Broker) (lane : Nat) (f : Forwarder) :
    (b.setForwarder lane f).contents = b.contents.atLane lane fun c =>
      c.withHandState f.handState :=
  contents_modifyLane b lane fun _ => rfl

/-! ## Operations that leave the contents as they are -/

/-- A change of a lane that leaves its contents as they are. -/
theorem contents_modifyLane_eq_self (b : Broker) (lane : Nat) {f : Lane → Lane}
    (h : ∀ l, (f l).contents = l.contents) : (b.modifyLane lane f).contents = b.contents := by
  rw [contents_modifyLane b lane (g := id) h]
  exact Contents.atLane_eq_self fun _ _ => rfl

@[simp] theorem contents_wake (b : Broker) (t : Task) : (b.wake t).contents = b.contents := by
  unfold wake
  split <;> rfl

@[simp] theorem contents_wakeIf (b : Broker) (lane : Nat) (waits : Forwarder → Bool) :
    (b.wakeIf lane waits).contents = b.contents := by
  unfold wakeIf
  split
  · exact contents_wake b _
  · rfl

@[simp] theorem contents_wakeParked (b : Broker) : b.wakeParked.contents = b.contents := by
  unfold wakeParked
  split
  · rfl
  · split
    · exact contents_wake b _
    · rfl

@[simp] theorem contents_leaveLine (b : Broker) (lane : Nat) :
    (b.leaveLine lane).contents = b.contents := by
  simp only [leaveLine]
  split
  · split
    · rw [contents_wake]
      rfl
    · rfl
  · rfl

/-- A sign changes nothing about a forwarder but that it has got it. -/
@[simp] theorem contents_notify (b : Broker) : b.notify.contents = b.contents := by
  unfold notify
  split
  · rfl
  · next lane _ =>
    split
    · next deadline hparked =>
      obtain ⟨l, hl, hforwarder⟩ := Option.map_eq_some_iff.mp hparked
      rw [contents_wake, contents_setForwarder]
      -- A parked forwarder has found nothing, whether or not it has got its sign.
      refine Contents.atLane_eq_self fun c hc => ?_
      obtain rfl := Option.some.inj ((getElem?_lanes hl).symm.trans hc)
      simp [LaneContents.withHandState, Lane.contents, hforwarder, Forwarder.handState]
    · rfl

@[simp] theorem contents_setClock (b : Broker) (now : Nat) :
    (b.setClock now).contents = b.contents := by
  have hwake (lanes : List Nat) (b : Broker) :
      (lanes.foldl (fun b lane => b.wake (.forwarder lane)) b).contents = b.contents := by
    induction lanes generalizing b with
    | nil => rfl
    | cons lane lanes ih => exact (ih (b.wake (.forwarder lane))).trans (contents_wake b _)
  exact hwake _ _

@[simp] theorem contents_clonePublisher (b : Broker) : b.clonePublisher.contents = b.contents := by
  unfold clonePublisher
  split <;> rfl

@[simp] theorem contents_dropPublisher (b : Broker) : b.dropPublisher.contents = b.contents := by
  simp only [dropPublisher]
  split
  · exact contents_wakeParked _
  · rfl

@[simp] theorem contents_create (b : Broker) : b.create.1.contents = b.contents := by
  simp only [create]
  split <;> rfl

@[simp] theorem contents_modifyConsumer (b : Broker) (consumer : Nat) (f : Consumer → Consumer) :
    (b.modifyConsumer consumer f).contents = b.contents := rfl

@[simp] theorem contents_abort (b : Broker) (consumer : Nat) :
    (b.abort consumer).contents = b.contents := by
  have haborted (b : Broker) (lane : Nat) :
      (b.modifyLane lane fun l => { l with aborted := true }).contents = b.contents :=
    contents_modifyLane_eq_self b lane fun _ => rfl
  simp only [abort]
  split
  · rfl
  · split
    · rw [contents_wake, haborted, contents_modifyConsumer]
    · rw [haborted, contents_modifyConsumer]

@[simp] theorem contents_takeError (b : Broker) (lane : Nat) :
    (b.takeError lane).contents = b.contents := by
  rw [takeError, contents_wakeIf]
  exact contents_modifyLane_eq_self b lane fun _ => rfl

@[simp] theorem contents_dropErrors (b : Broker) (lane : Nat) :
    (b.dropErrors lane).contents = b.contents := by
  rw [dropErrors, contents_wakeIf]
  exact contents_modifyLane_eq_self b lane fun _ => rfl

/-! ## Operations that move messages -/

theorem contents_requeue (b : Broker) (p : Parcel) :
    (b.requeue p).contents = b.contents.requeue p := by
  rw [requeue, contents_notify]
  rfl

theorem contents_giveBack (b : Broker) (d : Delivery) :
    (b.giveBack d).contents = b.contents.requeue d.toParcel :=
  contents_requeue _ _

/-- Sending an envelope puts it on the queue, or with those that wait for room, as the admission
says. -/
theorem contents_send (b : Broker) (e : Envelope) :
    (b.send e).1.contents = b.contents.afterSend e (b.send e).2 := by
  unfold send
  split
  · rfl
  · split
    · exact contents_wakeParked _
    · rfl

/-- The message that is published, if it is accepted at once. -/
def published (b : Broker) (id : Option String) (payload : Json) : List Parcel :=
  if (b.publish id payload).2 = .accepted then
    [⟨b.nextSeq, id.map CorrelationId.given, payload⟩]
  else []

/-- What is sent is accepted at once only if nothing waits for room. -/
theorem blocked_of_accepted {b : Broker} {e : Envelope} (h : (b.send e).2 = .accepted) :
    b.blocked = [] := by
  unfold send at h
  split at h
  · cases h
  · split at h
    · next hroom =>
      rw [Bool.and_eq_true] at hroom
      exact List.isEmpty_iff.mp hroom.2
    · cases h

theorem blocked_of_publish_accepted {b : Broker} {i : Option String} {j : Json}
    (h : (b.publish i j).2 = .accepted) : b.blocked = [] :=
  blocked_of_accepted (b := { b with nextSeq := b.nextSeq + 1 }) h

/-- A published message takes the next number. -/
theorem contents_publish (b : Broker) (id : Option String) (payload : Json) :
    (b.publish id payload).1.contents =
      ({ b.contents with nextSeq := b.nextSeq + 1 } : Contents).afterSend
        (.message ⟨b.nextSeq, id.map CorrelationId.given, payload⟩) (b.publish id payload).2 :=
  contents_send _ _

/-- A consumer that starts gets a lane with nothing in it, if it starts. -/
theorem contents_consume (b : Broker) (consumer owner : Nat) :
    (∃ error, (b.consume consumer owner).2 = .error error ∧
        (b.consume consumer owner).1.contents = b.contents) ∨
      (b.consume consumer owner).2 = .ok b.contents.lanes.length ∧
        (b.consume consumer owner).1.contents =
          { b.contents with lanes := b.contents.lanes ++ [⟨.searching, none, true⟩] } := by
  unfold consume
  split
  · exact .inl ⟨_, rfl, rfl⟩
  · split
    · exact .inl ⟨_, rfl, rfl⟩
    · refine .inr ⟨?_, ?_⟩
      · simp [contents]
      · rw [contents_wake, contents_modifyConsumer]
        simp [contents, Lane.start, Lane.contents, Forwarder.handState]

/-- The slot of a lane is part of its contents. -/
theorem slot_eq (b : Broker) (lane : Nat) :
    (b.lanes[lane]?).bind Lane.slot = (b.contents.lanes[lane]?).bind LaneContents.slot := by
  show _ = ((b.lanes.map Lane.contents)[lane]?).bind LaneContents.slot
  rw [List.getElem?_map]
  cases b.lanes[lane]? <;> rfl

theorem contents_of_slot {b : Broker} {lane : Nat} {d : Delivery}
    (h : (b.lanes[lane]?).bind Lane.slot = some d) :
    ∃ c, b.contents.lanes[lane]? = some c ∧ c.slot = some d :=
  Option.bind_eq_some_iff.mp ((slot_eq b lane).symm.trans h)

/-- A reader gets the message in the slot. -/
theorem contents_takeMessage {b : Broker} {lane : Nat} {d : Delivery}
    (h : (b.lanes[lane]?).bind Lane.slot = some d) :
    (b.takeMessage lane).contents =
      { b.contents.atLane lane (fun c => { c with slot := none }) with
        held := b.contents.held ++ [Holding.mk d false] } := by
  unfold takeMessage
  rw [h]
  show (Broker.wakeIf _ lane Forwarder.isOffering).contents = _
  rw [contents_wakeIf]
  show { (b.modifyLane lane fun l => { l with slot := none }).contents with
    held := b.held ++ [Holding.mk d false] } = _
  rw [contents_modifyLane b lane (g := fun c => { c with slot := none }) fun _ => rfl]
  rfl

theorem takeMessage_eq_self {b : Broker} {lane : Nat} (h : (b.lanes[lane]?).bind Lane.slot = none) :
    b.takeMessage lane = b := by
  unfold takeMessage
  rw [h]

/-- A reader who stops taking messages gives the one in the slot back. -/
theorem contents_dropMessages (b : Broker) (lane : Nat) :
    (b.dropMessages lane).contents = b.contents.dropSlot lane := by
  have hdrop : ((b.modifyLane lane fun l => { l with readsMessages := false, slot := none }).wakeIf
      lane Forwarder.isOffering).contents =
        b.contents.atLane lane fun c => { c with slot := none, reads := false } := by
    rw [contents_wakeIf]
    exact contents_modifyLane b lane fun _ => rfl
  unfold dropMessages Contents.dropSlot
  rw [← slot_eq]
  cases (b.lanes[lane]?).bind Lane.slot with
  | none => exact hdrop
  | some d =>
    show (Broker.giveBack _ d).contents = _
    rw [contents_giveBack, hdrop]
    rfl

/-- A message that a reader has is settled. -/
theorem contents_settle {b : Broker} {seq : Nat} {h : Holding}
    (hfind : (b.held.find? fun h => h.delivery.seq = seq) = some h) (disposition : Disposition) :
    (b.settle seq disposition).contents =
      { b.contents with
        held := b.contents.held.map fun h =>
          if h.delivery.seq = seq then { h with settled := true } else h
        outcomes := b.contents.outcomes ++ [⟨seq, h.delivery.id, disposition⟩] } := by
  unfold settle
  rw [hfind]
  rfl

theorem settle_eq_self {b : Broker} {seq : Nat}
    (hfind : (b.held.find? fun h => h.delivery.seq = seq) = none) (disposition : Disposition) :
    b.settle seq disposition = b := by
  unfold settle
  rw [hfind]

/-- A message that a reader lets go of goes back, unless it was settled. -/
theorem contents_dropMessage {b : Broker} {seq : Nat} {h : Holding}
    (hfind : (b.held.find? fun h => h.delivery.seq = seq) = some h) :
    (b.dropMessage seq).contents =
      let rest : Contents :=
        { b.contents with held := b.contents.held.filter fun h => h.delivery.seq ≠ seq }
      if h.settled then rest else rest.requeue h.delivery.toParcel := by
  unfold dropMessage
  rw [hfind]
  show (if h.settled then _ else _ : Broker).contents = _
  split
  · rfl
  · exact contents_giveBack _ _

theorem dropMessage_eq_self {b : Broker} {seq : Nat}
    (hfind : (b.held.find? fun h => h.delivery.seq = seq) = none) : b.dropMessage seq = b := by
  unfold dropMessage
  rw [hfind]

end Broker

/-! ## Numbers -/

namespace Contents

/-- Whether the oldest envelope that waited for room is on the queue now, or everything is as
before. -/
inductive Refills : Contents → Contents → Prop
  | none (s : Contents) : Refills s s
  | one {s : Contents} {ticket : Nat} {e : Envelope} {rest : List (Nat × Envelope)}
    (h : s.blocked = (ticket, e) :: rest) :
    Refills s { s with incoming := s.incoming ++ [e], blocked := rest }

theorem Refills.lanes_eq {s s' : Contents} (h : Refills s s') : s'.lanes = s.lanes := by
  cases h <;> rfl

theorem Refills.held_eq {s s' : Contents} (h : Refills s s') : s'.held = s.held := by
  cases h <;> rfl

theorem Refills.outcomes_eq {s s' : Contents} (h : Refills s s') : s'.outcomes = s.outcomes := by
  cases h <;> rfl

/-- The messages that wait for room, oldest first. -/
def waiting (s : Contents) : List Parcel := s.blocked.filterMap fun e => e.2.parcel?

/-- The messages that waited for room in first contents and do not in second ones. -/
def admitted (s s' : Contents) : List Parcel :=
  s.blocked.filterMap fun e => if s'.blocked.any (·.1 = e.1) then none else e.2.parcel?

/-- Messages were accepted in the order of their numbers, those that wait have larger numbers, and
tickets are given out in order. -/
structure Numbered (s : Contents) (accepted : List Parcel) : Prop where
  sorted : (accepted ++ s.waiting).Pairwise fun p q => p.seq < q.seq
  below : ∀ p ∈ accepted ++ s.waiting, p.seq < s.nextSeq
  tickets : s.blocked.Pairwise fun e f => e.1 < f.1
  ticketsBelow : ∀ e ∈ s.blocked, e.1 < s.nextTicket

theorem admitted_of_blocked_eq {s s' : Contents} (h : s'.blocked = s.blocked) :
    s.admitted s' = [] := by
  rw [admitted, List.filterMap_eq_nil_iff]
  intro e he
  rw [h, if_pos (List.any_eq_true.mpr ⟨e, he, decide_eq_true rfl⟩)]

/-- What is admitted when room is made is what the oldest envelope carries. -/
theorem admitted_of_cons {s s' : Contents} {ticket : Nat} {e : Envelope}
    (h : s.blocked = (ticket, e) :: s'.blocked)
    (htickets : s.blocked.Pairwise fun e f => e.1 < f.1) : s.admitted s' = e.parcel?.toList := by
  rw [h, List.pairwise_cons] at htickets
  -- Envelopes are told apart by their tickets, so the first one is gone and the others are not.
  have hgone : ¬ s'.blocked.any (·.1 = ticket) := by
    intro hany
    obtain ⟨f, hf, heq⟩ := List.any_eq_true.mp hany
    exact absurd (of_decide_eq_true heq) (Nat.ne_of_gt (htickets.1 f hf))
  have hrest : (s'.blocked.filterMap fun f =>
      if s'.blocked.any (·.1 = f.1) then none else f.2.parcel?) = [] := by
    rw [List.filterMap_eq_nil_iff]
    intro f hf
    rw [if_pos (List.any_eq_true.mpr ⟨f, hf, decide_eq_true rfl⟩)]
  rw [admitted, h, List.filterMap_cons, if_neg hgone, hrest]
  cases e.parcel? <;> rfl

namespace Numbered

variable {s s' : Contents} {accepted : List Parcel}

theorem of_eq (h : s.Numbered accepted) (hblocked : s'.blocked = s.blocked)
    (hseq : s'.nextSeq = s.nextSeq) (hticket : s'.nextTicket = s.nextTicket) :
    s'.Numbered accepted := by
  have hwaiting : s'.waiting = s.waiting := by rw [waiting, hblocked, waiting]
  exact ⟨hwaiting ▸ h.sorted, hwaiting ▸ hseq ▸ h.below, hblocked ▸ h.tickets,
    hblocked ▸ hticket ▸ h.ticketsBelow⟩

/-- A new ticket is the largest of all. -/
theorem tickets_concat (h : s.Numbered accepted) {e : Envelope} :
    (s.blocked ++ [(s.nextTicket, e)]).Pairwise fun e f => e.1 < f.1 := by
  refine List.pairwise_append.mpr ⟨h.tickets, List.pairwise_singleton .., ?_⟩
  intro f hf g hg
  rw [List.mem_singleton.mp hg]
  exact h.ticketsBelow f hf

theorem ticketsBelow_concat (h : s.Numbered accepted) {e : Envelope} :
    ∀ f ∈ s.blocked ++ [(s.nextTicket, e)], f.1 < s.nextTicket + 1 := by
  intro f hf
  rcases List.mem_append.mp hf with hf | hf
  · exact Nat.lt_succ_of_lt (h.ticketsBelow f hf)
  · rw [List.mem_singleton.mp hf]
    exact Nat.lt_succ_self _

/-- A new message has the largest number of all. -/
theorem publish (h : s.Numbered accepted) {p : Parcel} (hp : p.seq = s.nextSeq)
    {admission : Broker.Admission} (hroom : admission = .accepted → s.blocked = []) :
    (({ s with nextSeq := s.nextSeq + 1 } : Contents).afterSend (.message p) admission).Numbered
      (accepted ++ if admission = .accepted then [p] else []) := by
  have hlast : (accepted ++ s.waiting ++ [p]).Pairwise fun p q => p.seq < q.seq := by
    refine List.pairwise_append.mpr ⟨h.sorted, List.pairwise_singleton .., ?_⟩
    intro q hq p' hp'
    rw [List.mem_singleton.mp hp', hp]
    exact h.below q hq
  have hbelow : ∀ q ∈ accepted ++ s.waiting ++ [p], q.seq < s.nextSeq + 1 := by
    intro q hq
    rcases List.mem_append.mp hq with hq | hq
    · exact Nat.lt_succ_of_lt (h.below q hq)
    · rw [List.mem_singleton.mp hq, hp]
      exact Nat.lt_succ_self _
  cases admission with
  | accepted =>
    have hwaiting : s.waiting = [] := by rw [waiting, hroom rfl, List.filterMap_nil]
    rw [hwaiting, List.append_nil] at hlast hbelow
    refine ⟨?_, ?_, h.tickets, h.ticketsBelow⟩
    · show (accepted ++ [p] ++ s.waiting).Pairwise _
      rwa [hwaiting, List.append_nil]
    · show ∀ q ∈ accepted ++ [p] ++ s.waiting, _
      rwa [hwaiting, List.append_nil]
  | waiting ticket =>
    have hwaiting : (({ s with nextSeq := s.nextSeq + 1 } : Contents).afterSend (.message p)
        (.waiting ticket)).waiting = s.waiting ++ [p] := by
      simp [waiting, afterSend, Envelope.parcel?]
    rw [if_neg (by simp), List.append_nil]
    refine ⟨?_, ?_, h.tickets_concat, h.ticketsBelow_concat⟩
    · rwa [hwaiting, ← List.append_assoc]
    · rwa [hwaiting, ← List.append_assoc]
  | refused =>
    rw [if_neg (by simp), List.append_nil]
    exact ⟨h.sorted, fun q hq => Nat.lt_succ_of_lt (h.below q hq), h.tickets, h.ticketsBelow⟩

/-- An error takes a ticket at most. -/
theorem fail (h : s.Numbered accepted) (text : String) (admission : Broker.Admission) :
    (s.afterSend (.error text) admission).Numbered accepted := by
  cases admission with
  | accepted | refused => exact h.of_eq rfl rfl rfl
  | waiting ticket =>
    have hwaiting : (s.afterSend (.error text) (.waiting ticket)).waiting = s.waiting := by
      simp [waiting, afterSend, Envelope.parcel?]
    exact ⟨hwaiting ▸ h.sorted, hwaiting ▸ h.below, h.tickets_concat, h.ticketsBelow_concat⟩

/-- Giving up on an envelope leaves the others in order. -/
theorem giveUp (h : s.Numbered accepted) (ticket : Nat) :
    ({ s with blocked := s.blocked.filter fun e => e.1 ≠ ticket } : Contents).Numbered
      accepted := by
  have hblocked : (s.blocked.filter fun e => e.1 ≠ ticket).Sublist s.blocked := List.filter_sublist
  have hwaiting := (List.Sublist.refl accepted).append (hblocked.filterMap fun e => e.2.parcel?)
  exact ⟨h.sorted.sublist hwaiting, fun p hp => h.below p (hwaiting.subset hp),
    h.tickets.sublist hblocked, fun e he => h.ticketsBelow e (hblocked.subset he)⟩

/-- An envelope that gets room is the oldest of those that wait. -/
theorem refills (h : s.Numbered accepted) (hrefill : Refills s s') :
    s'.Numbered (accepted ++ s.admitted s') := by
  cases hrefill with
  | none =>
    rw [admitted_of_blocked_eq rfl, List.append_nil]
    exact h
  | @one ticket e rest hblocked =>
    have hwaiting : e.parcel?.toList ++ rest.filterMap (fun e => e.2.parcel?) = s.waiting := by
      rw [waiting, hblocked, List.filterMap_cons]
      cases e.parcel? <;> rfl
    have htickets := h.tickets
    have hbelow := h.ticketsBelow
    rw [hblocked] at htickets hbelow
    rw [admitted_of_cons hblocked h.tickets]
    refine ⟨?_, ?_, htickets.of_cons, fun f hf => hbelow f (List.mem_cons_of_mem _ hf)⟩
    · show (accepted ++ e.parcel?.toList ++ rest.filterMap fun e => e.2.parcel?).Pairwise _
      rw [List.append_assoc, hwaiting]
      exact h.sorted
    · show ∀ q ∈ accepted ++ e.parcel?.toList ++ rest.filterMap fun e => e.2.parcel?, _
      rw [List.append_assoc, hwaiting]
      exact h.below

end Numbered

end Contents

end Courier
