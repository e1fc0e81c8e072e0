import Courier.Proofs.Broker.Contents

/-!
# What forwarders do to the contents

A forwarder moves one message at a time (`Contents.Moves`): from the returned ones or from the queue
into its hand, from its hand into the slot or back to the returned ones. It looks at the queue only
after it has found no returned message. An envelope that it takes may leave room for one that is
blocked (`Contents.Forwards`).

`Broker.forwards_proceed` says that no step of a forwarder does anything else, and
`Broker.forwards_advance` that the same is true of its turns.
-/

namespace Courier

/-- Whether a message is the same as another one but that it has an identifier for sure. -/
structure Parcel.Becomes (p q : Parcel) : Prop where
  seq : q.seq = p.seq
  payload : q.payload = p.payload
  id : ∀ id, p.id = some id → q.id = some id

theorem Parcel.Becomes.refl (p : Parcel) : p.Becomes p := ⟨rfl, rfl, fun _ h => h⟩

theorem Parcel.Becomes.trans {p q r : Parcel} (h : p.Becomes q) (h' : q.Becomes r) : p.Becomes r :=
  ⟨h'.seq.trans h.seq, h'.payload.trans h.payload, fun id hid => h'.id id (h.id id hid)⟩

/-- A message that has an identifier stays as it is. -/
theorem Parcel.Becomes.eq_of_named {p q : Parcel} {id : CorrelationId} (h : p.Becomes q)
    (hid : p.id = some id) : q = p := by
  obtain ⟨hseq, hpayload, hkeep⟩ := h
  have hsame : q.id = p.id := (hkeep id hid).trans hid.symm
  cases p
  cases q
  cases hseq
  cases hpayload
  cases hsame
  rfl

namespace Contents

/-- How the forwarder of a lane can move messages in one step. -/
inductive Moves (lane : Nat) : Contents → Contents → Prop
  /-- It does nothing about messages. -/
  | rest (s : Contents) : Moves lane s s
  /-- It gets ready, starts to wait or ends with nothing in hand. It starts to wait if no message
  was returned. -/
  | turn {s : Contents} {c : LaneContents} {g : HandState} (hlaneAt : s.lanes[lane]? = some c)
    (hfree : c.handState.IsFree) (hhand : g.hand? = none)
    (hwait : g = .waiting → c.handState = .waiting ∨ s.returned = []) :
    Moves lane s (s.atLane lane fun c => c.withHandState g)
  /-- It takes the first returned message in hand. -/
  | takeReturned {s : Contents} {c : LaneContents} {p : Parcel} {rest : List Parcel} {d : Delivery}
    (hlaneAt : s.lanes[lane]? = some c) (hfree : c.handState.IsFree)
    (hreturned : s.returned = p :: rest)
    (hd : p.Becomes d.toParcel) :
    Moves lane s (({ s with returned := rest } : Contents).atLane lane fun c =>
      c.withHandState (.carrying d))
  /-- It takes a new message in hand, after it has found no returned one. -/
  | takeNew {s : Contents} {c : LaneContents} {p : Parcel} {rest : List Envelope} {d : Delivery}
    (hlaneAt : s.lanes[lane]? = some c) (hwaiting : c.handState = .waiting)
    (hincoming : s.incoming = .message p :: rest) (hd : p.Becomes d.toParcel) :
    Moves lane s (({ s with incoming := rest } : Contents).atLane lane fun c =>
      c.withHandState (.carrying d))
  /-- It takes a new error in hand. -/
  | takeError {s : Contents} {c : LaneContents} {text : String} {rest : List Envelope}
    (hlaneAt : s.lanes[lane]? = some c) (hwaiting : c.handState = .waiting)
    (hincoming : s.incoming = .error text :: rest) :
    Moves lane s (({ s with incoming := rest } : Contents).atLane lane fun c =>
      c.withHandState .searching)
  /-- It hands the message over. -/
  | handOver {s : Contents} {c : LaneContents} {d : Delivery} (hlaneAt : s.lanes[lane]? = some c)
    (hhandState : c.handState = .carrying d) (hslot : c.slot = none) (hreads : c.reads = true) :
    Moves lane s (s.atLane lane fun c => { c with handState := .searching, slot := some d })
  /-- It gives the message back, and ends. -/
  | giveBack {s : Contents} {c : LaneContents} {d : Delivery} (hlaneAt : s.lanes[lane]? = some c)
    (hhandState : c.handState = .carrying d) :
    Moves lane s ((s.requeue d.toParcel).atLane lane fun c => c.withHandState .ended)

/-- What the forwarder of a lane can do to the contents in one step: an envelope that waited for
room may follow one that was taken. -/
def Forwards (lane : Nat) (s s' : Contents) : Prop := ∃ s₁, Refills s s₁ ∧ Moves lane s₁ s'

theorem Moves.forwards {lane : Nat} {s s' : Contents} (h : Moves lane s s') : Forwards lane s s' :=
  ⟨s, .none s, h⟩

theorem Moves.blocked_eq {lane : Nat} {s s' : Contents} (h : Moves lane s s') :
    s'.blocked = s.blocked := by
  cases h <;> rfl

theorem Moves.held_eq {lane : Nat} {s s' : Contents} (h : Moves lane s s') : s'.held = s.held := by
  cases h <;> rfl

/-- A move changes one lane, and not whether its reader takes messages. -/
theorem Moves.lanes_eq {lane : Nat} {s s' : Contents} (h : Moves lane s s') :
    ∃ f : LaneContents → LaneContents, s'.lanes = s.lanes.modify lane f ∧
      ∀ c, (f c).reads = c.reads := by
  cases h with
  | rest => exact ⟨id, (List.modify_id lane s.lanes).symm, fun _ => rfl⟩
  | turn | takeReturned | takeNew | takeError | handOver | giveBack => exact ⟨_, rfl, fun _ => rfl⟩

/-- A move admits nothing. -/
theorem Moves.admitted_eq {lane : Nat} {s s₁ s' : Contents} (h : Moves lane s₁ s') :
    s.admitted s' = s.admitted s₁ := by
  rw [admitted, h.blocked_eq, admitted]

theorem Moves.nextSeq_eq {lane : Nat} {s s' : Contents} (h : Moves lane s s') :
    s'.nextSeq = s.nextSeq := by
  cases h <;> rfl

theorem Moves.outcomes_eq {lane : Nat} {s s' : Contents} (h : Moves lane s s') :
    s'.outcomes = s.outcomes := by
  cases h <;> rfl

theorem Forwards.outcomes_eq {lane : Nat} {s s' : Contents} (h : Forwards lane s s') :
    s'.outcomes = s.outcomes := by
  obtain ⟨s₁, hrefill, hmoves⟩ := h
  rw [hmoves.outcomes_eq, hrefill.outcomes_eq]

theorem Moves.nextTicket_eq {lane : Nat} {s s' : Contents} (h : Moves lane s s') :
    s'.nextTicket = s.nextTicket := by
  cases h <;> rfl

end Contents

namespace Broker

/-- Whether room is made before or after the oldest envelope is taken makes no difference. -/
theorem refills_refill {b : Broker} {e : Envelope} {rest : List Envelope}
    (h : b.incoming = e :: rest) :
    ∃ s₁ rest', Contents.Refills b.contents s₁ ∧ s₁.incoming = e :: rest' ∧
      { b with incoming := rest }.refill.contents = { s₁ with incoming := rest' } := by
  unfold refill
  split
  · exact ⟨b.contents, rest, .none _, h, rfl⟩
  · next ticket f later hblocked =>
    split
    · refine ⟨_, rest ++ [f], .one (s := b.contents) hblocked, ?_, rfl⟩
      show b.incoming ++ [f] = _
      rw [h, List.cons_append]
    · exact ⟨b.contents, rest, .none _, h, rfl⟩

/-- A message that is taken in hand has an identifier, the one that it had before if there was
one. -/
theorem contents_pickUp (b : Broker) (lane : Nat) (p : Parcel) :
    ∃ d : Delivery, p.Becomes d.toParcel ∧
      (b.pickUp lane p).contents = b.contents.atLane lane fun c =>
        c.withHandState (.carrying d) := by
  unfold pickUp
  split
  · next id hid =>
    refine ⟨⟨p.seq, id, p.payload⟩, ⟨rfl, rfl, fun id' hid' => ?_⟩, contents_setForwarder b lane _⟩
    rw [← hid', hid]
    rfl
  · next hid =>
    refine ⟨⟨p.seq, .fresh b.freshIds, p.payload⟩, ⟨rfl, rfl, fun id hid' => ?_⟩,
      contents_setForwarder _ lane _⟩
    exact absurd (hid.symm.trans hid') (by simp)

/-- A forwarder that ends gives back what it has in hand. -/
theorem forwards_finish {b : Broker} {lane : Nat} {l : Lane}
    (hlaneAt : b.contents.lanes[lane]? = some l.contents) :
    l.forwarder.isEnded ∨ Contents.Forwards lane b.contents (b.finish lane l).contents := by
  have hend (b' : Broker) : (((b'.leaveLine lane).setForwarder lane .ended).wake
      (.reader l.owner)).contents = b'.contents.atLane lane fun c => c.withHandState .ended := by
    rw [contents_wake, contents_setForwarder, contents_leaveLine]
    rfl
  unfold finish
  cases hforwarder : l.forwarder with
  | ended => exact .inl rfl
  | offering d =>
    refine .inr ?_
    rw [hend, contents_giveBack]
    exact (Contents.Moves.giveBack hlaneAt (by rw [Lane.contents, hforwarder]; rfl)).forwards
  | parked deadline notified =>
    refine .inr ?_
    -- A sign that has not been followed is kept for the next forwarder, and no message goes with
    -- it.
    cases notified <;>
      · rw [hend]
        exact (Contents.Moves.turn hlaneAt (by rw [Lane.contents, hforwarder]; trivial) rfl
          (fun h => by cases h)).forwards
  | starting | queueing | looking | choosing | reporting =>
    refine .inr ?_
    rw [hend]
    exact (Contents.Moves.turn hlaneAt (by rw [Lane.contents, hforwarder]; trivial) rfl
      (fun h => by cases h)).forwards

/-- A forwarder that waits takes the oldest envelope, or ends. -/
theorem forwards_takeNew {b : Broker} {lane : Nat} {l : Lane} (h : b.lanes[lane]? = some l)
    (hwaiting : l.forwarder.handState = .waiting) :
    Contents.Forwards lane b.contents (b.takeNew lane l).1.contents := by
  have hlaneAt := getElem?_lanes h
  unfold takeNew
  split
  · refine (forwards_finish hlaneAt).resolve_left fun hended => ?_
    cases hforwarder : l.forwarder <;> simp_all [Forwarder.isEnded, Forwarder.handState]
  -- Room is made for a blocked envelope as soon as one is taken, so the step is a refill and a
  -- move.
  · next p rest hincoming =>
    obtain ⟨d, hd, hcontents⟩ := contents_pickUp { b with incoming := rest }.refill lane p
    obtain ⟨s₁, rest', hrefill, hincoming', hrest⟩ := refills_refill hincoming
    rw [hcontents, hrest]
    exact ⟨s₁, hrefill, .takeNew (hrefill.lanes_eq ▸ hlaneAt) hwaiting hincoming' hd⟩
  · next text rest hincoming =>
    obtain ⟨s₁, rest', hrefill, hincoming', hrest⟩ := refills_refill hincoming
    rw [contents_setForwarder, hrest]
    exact ⟨s₁, hrefill, .takeError (hrefill.lanes_eq ▸ hlaneAt) hwaiting hincoming'⟩

/-- A forwarder without a message in hand that moves on. -/
theorem forwards_setForwarder {b : Broker} {lane : Nat} {l : Lane} {f : Forwarder}
    (h : b.lanes[lane]? = some l) (hfree : l.forwarder.handState.IsFree)
    (hhand : f.handState.hand? = none)
    (hwait : f.handState = .waiting → l.forwarder.handState = .waiting ∨ b.returned = []) :
    Contents.Forwards lane b.contents (b.setForwarder lane f).contents := by
  rw [contents_setForwarder]
  exact (Contents.Moves.turn (getElem?_lanes h) hfree hhand hwait).forwards

theorem forwards_look {b : Broker} {lane : Nat} {l : Lane} {deadline : Option Nat}
    (h : b.lanes[lane]? = some l) (hfree : l.forwarder.handState.IsFree) :
    Contents.Forwards lane b.contents (b.look lane deadline).1.contents := by
  unfold look
  split
  · next p rest hreturned =>
    obtain ⟨d, hd, hcontents⟩ := contents_pickUp { b with returned := rest } lane p
    rw [hcontents]
    exact (Contents.Moves.takeReturned (getElem?_lanes h) hfree hreturned hd).forwards
  · next hreturned => exact forwards_setForwarder h hfree rfl fun _ => .inr hreturned

theorem forwards_choose {b : Broker} {lane : Nat} {l : Lane} {deadline : Option Nat}
    (h : b.lanes[lane]? = some l) (hwaiting : l.forwarder.handState = .waiting) (favourNew : Bool) :
    Contents.Forwards lane b.contents (b.choose lane l deadline favourNew).1.contents := by
  have hfree : l.forwarder.handState.IsFree := by rw [hwaiting]; trivial
  unfold choose
  split
  · exact forwards_setForwarder (b := { b with permit := false }) h hfree rfl (fun h => by cases h)
  · split
    · exact forwards_takeNew h hwaiting
    · split
      · exact forwards_setForwarder h hfree rfl (fun h => by cases h)
      · exact forwards_setForwarder h hfree rfl fun _ => .inl hwaiting

theorem forwards_resume {b : Broker} {lane : Nat} {l : Lane} {deadline : Option Nat}
    (h : b.lanes[lane]? = some l) (hwaiting : l.forwarder.handState = .waiting)
    (notified favourNew : Bool) :
    Contents.Forwards lane b.contents (b.resume lane l deadline notified favourNew).1.contents := by
  have hfree : l.forwarder.handState.IsFree := by rw [hwaiting]; trivial
  unfold resume
  split
  · exact forwards_setForwarder h hfree rfl (fun h => by cases h)
  · split
    · exact forwards_takeNew (b := { b with permit := b.permit || notified }) h hwaiting
    · split
      · exact forwards_setForwarder h hfree rfl (fun h => by cases h)
      · exact (Contents.Moves.rest _).forwards

theorem forwards_handOver {b : Broker} {lane : Nat} {l : Lane} {d : Delivery}
    (h : b.lanes[lane]? = some l) (hhandState : l.forwarder = .offering d) :
    Contents.Forwards lane b.contents (b.handOver lane l d).1.contents := by
  unfold handOver
  split
  · refine (forwards_finish (getElem?_lanes h)).resolve_left ?_
    rw [hhandState]
    exact Bool.false_ne_true
  · next hreads =>
    split
    · exact (Contents.Moves.rest _).forwards
    · next hslot =>
      show Contents.Forwards lane b.contents (Broker.wake _ _).contents
      rw [contents_wake, contents_modifyLane b lane (g := fun c =>
        { c with handState := .searching, slot := some d }) fun _ => rfl]
      refine (Contents.Moves.handOver (getElem?_lanes h) ?_ ?_ ?_).forwards
      · rw [Lane.contents, hhandState]
        rfl
      · exact Option.not_isSome_iff_eq_none.mp hslot
      · rwa [Bool.not_eq_true, Bool.not_eq_false'] at hreads

theorem forwards_report {b : Broker} {lane : Nat} {l : Lane} {error : String} {last : Bool}
    (h : b.lanes[lane]? = some l) (hhandState : l.forwarder = .reporting error last) :
    Contents.Forwards lane b.contents (b.report lane l error last).1.contents := by
  have hended : ¬ l.forwarder.isEnded := by
    rw [hhandState]
    exact Bool.false_ne_true
  have hfree : l.forwarder.handState.IsFree := by rw [hhandState]; trivial
  unfold report
  split
  · exact (forwards_finish (getElem?_lanes h)).resolve_left hended
  · split
    · exact (Contents.Moves.rest _).forwards
    · split
      · have hcontents :
            (b.modifyLane lane fun l => { l with errorSlot := some error }).contents = b.contents :=
          contents_modifyLane_eq_self b lane fun _ => rfl
        rw [← hcontents]
        exact (forwards_finish (hcontents ▸ getElem?_lanes h)).resolve_left hended
      · show Contents.Forwards lane b.contents (Broker.wake _ _).contents
        rw [contents_wake, contents_modifyLane b lane (g := fun c =>
          c.withHandState .searching) fun _ => rfl]
        exact (Contents.Moves.turn (getElem?_lanes h) hfree rfl (fun h => by cases h)).forwards

/-- What a forwarder does next where it stands, it does to the contents as `Contents.Forwards`
says. -/
theorem forwards_proceed {b : Broker} {lane : Nat} {l : Lane} (h : b.lanes[lane]? = some l)
    (favourNew : Bool) :
    Contents.Forwards lane b.contents (b.proceed lane l favourNew).1.contents := by
  unfold proceed
  cases hforwarder : l.forwarder with
  | starting =>
    exact forwards_setForwarder (b := { b with line := b.line ++ [lane] }) h
      (by rw [hforwarder]; trivial) rfl (fun h => by cases h)
  | queueing =>
    show Contents.Forwards lane b.contents (b.takeQueue lane l).1.contents
    unfold takeQueue
    split
    · exact forwards_setForwarder h (by rw [hforwarder]; trivial) rfl (fun h => by cases h)
    · exact (Contents.Moves.rest _).forwards
  | looking deadline => exact forwards_look h (by rw [hforwarder]; trivial)
  | choosing deadline => exact forwards_choose h (by rw [hforwarder]; rfl) favourNew
  | parked deadline notified => exact forwards_resume h (by rw [hforwarder]; rfl) notified favourNew
  | offering d => exact forwards_handOver h hforwarder
  | reporting error last => exact forwards_report h hforwarder
  | ended => exact (Contents.Moves.rest _).forwards

/-- A forwarder in its turn. -/
theorem forwards_advance (b : Broker) (lane : Nat) (favourNew : Bool) :
    Contents.Forwards lane b.contents (b.advance lane favourNew).1.contents := by
  unfold advance
  split
  · exact (Contents.Moves.rest _).forwards
  · next l h =>
    split
    · next haborted =>
      refine (forwards_finish (getElem?_lanes h)).resolve_left ?_
      simp_all
    · exact forwards_proceed h favourNew

/-- A forwarder that goes on although it was asked to end. It may do so until it has to wait. -/
def overrun (b : Broker) (lane : Nat) (favourNew : Bool) : Broker :=
  (b.lanes[lane]?).elim b fun l => (b.proceed lane l favourNew).1

theorem forwards_overrun (b : Broker) (lane : Nat) (favourNew : Bool) :
    Contents.Forwards lane b.contents (b.overrun lane favourNew).contents := by
  unfold overrun
  cases hl : b.lanes[lane]? with
  | none => exact (Contents.Moves.rest _).forwards
  | some l => exact forwards_proceed hl favourNew

end Broker

end Courier
