import Courier.Proofs.Broker.Balance

/-!
# No message is lost or duplicated

Whatever the users of the transport do (`Broker.Event`), in whatever order, and however their doings
mix with the steps of the forwarders: as long as the queue exists, each accepted message is in one
place, it is gone only after it was settled, and a reader who gets it again gets the same message
(`Ledger.accounted_of_run`). Nothing that was accepted is forgotten later on, and no settled message
is received again (`Ledger.Follows`).
-/

namespace Courier

/-! ## What can happen -/

/-- Something that happens to the transport. -/
inductive Broker.Event where
  /-- A message is published. -/
  | publish (id : Option String) (payload : Json)
  /-- An error is published. -/
  | fail (text : String)
  /-- A publisher gives up on an envelope that waits for room. -/
  | giveUp (ticket : Nat)
  /-- A publisher is cloned. -/
  | clonePublisher
  /-- A publisher is dropped. -/
  | dropPublisher
  /-- The next requests for a consumer are made to fail. -/
  | failAttempts (count : Nat)
  /-- The factory is dropped. -/
  | dropFactory
  /-- A consumer is asked for. -/
  | create
  /-- A consumer is told how long to wait for an envelope. -/
  | setTimeout (consumer : Nat) (limit : Span)
  /-- A consumer is asked to start. -/
  | consume (consumer owner : Nat)
  /-- A consumer begins to close. -/
  | abort (consumer : Nat)
  /-- A consumer is closed. -/
  | close
  /-- A consumer is dropped, closed or not. -/
  | dropConsumer (consumer : Nat)
  /-- A reader takes the message that waits. -/
  | receive (lane : Nat)
  /-- A reader takes the error that waits. -/
  | receiveError (lane : Nat)
  /-- A reader settles a message. -/
  | settle (seq : Nat) (disposition : Disposition)
  /-- A reader lets go of a message. -/
  | dropMessage (seq : Nat)
  /-- A reader stops taking errors. -/
  | dropErrors (lane : Nat)
  /-- A reader stops taking messages. -/
  | dropMessages (lane : Nat)
  /-- A forwarder has a turn. -/
  | forward (lane : Nat) (favourNew : Bool)
  /-- A forwarder goes on although it was asked to end meanwhile. -/
  | overrun (lane : Nat) (favourNew : Bool)
  /-- Time passes. -/
  | setClock (now : Nat)

namespace Broker

/-- The transport after an event. -/
def apply (b : Broker) : Event → Broker
  | .publish id payload => (b.publish id payload).1
  | .fail text => (b.fail text).1
  | .giveUp ticket => b.giveUp ticket
  | .clonePublisher => b.clonePublisher
  | .dropPublisher => b.dropPublisher
  | .failAttempts count => b.failAttempts count
  | .dropFactory => b.dropFactory
  | .create => b.create.1
  | .setTimeout consumer limit => b.setTimeout consumer limit
  | .consume consumer owner => (b.consume consumer owner).1
  | .abort consumer => b.abort consumer
  | .close => b.close
  | .dropConsumer consumer => b.dropConsumer consumer
  | .receive lane => b.takeMessage lane
  | .receiveError lane => b.takeError lane
  | .settle seq disposition => b.settle seq disposition
  | .dropMessage seq => b.dropMessage seq
  | .dropErrors lane => b.dropErrors lane
  | .dropMessages lane => b.dropMessages lane
  | .forward lane favourNew => (b.advance lane favourNew).1
  | .overrun lane favourNew => b.overrun lane favourNew
  | .setClock now => b.setClock now

/-- The messages that are accepted in an event: the one that is published, or the one that a
forwarder makes room for. -/
def accepts (b : Broker) (e : Event) : List Parcel :=
  match e with
  | .publish id payload => b.published id payload
  | .forward .. | .overrun .. => b.contents.admitted (b.apply e).contents
  | _ => []

/-- The message that is received in an event, if one is. -/
def delivers (b : Broker) : Event → List Delivery
  | .receive lane => ((b.lanes[lane]?).bind Lane.slot).toList
  | _ => []

/-- Whether a message with the given number was settled. -/
def IsSettled (b : Broker) (seq : Nat) : Prop := ∃ o ∈ b.outcomes, o.seq = seq

instance (b : Broker) (seq : Nat) : Decidable (b.IsSettled seq) :=
  inferInstanceAs (Decidable (∃ o ∈ b.outcomes, o.seq = seq))

end Broker

/-- The transport, with what it has accepted and what its readers have received so far. -/
structure Ledger where
  /-- The transport. -/
  broker : Broker
  /-- The messages that were accepted, in that order. -/
  accepted : List Parcel := []
  /-- The messages that were received, in that order. -/
  received : List Delivery := []

namespace Ledger

/-- The ledger after an event. -/
def after (l : Ledger) (e : Broker.Event) : Ledger where
  broker := l.broker.apply e
  accepted := l.accepted ++ l.broker.accepts e
  received := l.received ++ l.broker.delivers e

/-- The ledger after an event, if the queue still exists. -/
def step (l : Ledger) (e : Broker.Event) : Option Ledger :=
  if (l.after e).broker.isAlive then some (l.after e) else none

/-- The ledger after several events, if the queue exists all along. -/
def run (l : Ledger) (events : List Broker.Event) : Option Ledger := events.foldlM step l

end Ledger

/-! ## Where a message is -/

/-- A place for a message. -/
inductive Place where
  /-- On the queue. -/
  | incoming
  /-- Among the returned messages. -/
  | returned
  /-- In the hand of the forwarder of a lane. -/
  | hand (lane : Nat)
  /-- In the slot of a lane. -/
  | slot (lane : Nat)
  /-- With a reader. -/
  | held
  /-- Settled, and with nobody any more. -/
  | gone
deriving DecidableEq, Repr

/-- Where in a lane the message with the given number is, once for each time that it is there. -/
def Lane.placesOf (l : Lane) (lane seq : Nat) : List Place :=
  (l.forwarder.handState.hand?.toList.filter fun d => d.seq = seq).map (fun _ => .hand lane) ++
    (l.slot.toList.filter fun d => d.seq = seq).map fun _ => .slot lane

/-- Where the message with the given number is, once for each time that it is there. -/
def Broker.placesOf (b : Broker) (seq : Nat) : List Place :=
  (b.incoming.filter fun e => e.parcel?.any fun p => p.seq = seq).map (fun _ => .incoming) ++
    (b.returned.filter fun p => p.seq = seq).map (fun _ => .returned) ++
    (b.lanes.zipIdx.flatMap fun (l, lane) => l.placesOf lane seq) ++
    (b.held.filter fun h => h.delivery.seq = seq).map (fun _ => .held) ++
    if b.IsSettled seq ∧ ∀ h ∈ b.held, h.delivery.seq ≠ seq then [.gone] else []

namespace Ledger

/-- All messages are accounted for. -/
structure Accounted (l : Ledger) : Prop where
  /-- Messages were accepted in the order of their numbers. -/
  numbered : l.accepted.Pairwise fun p q => p.seq < q.seq
  /-- An accepted message is in one place, and gone only after it was settled. -/
  placed : ∀ p ∈ l.accepted, ∃ place, l.broker.placesOf p.seq = [place] ∧
    (place = .gone → l.broker.IsSettled p.seq)
  /-- No other message is anywhere. -/
  unknown : ∀ seq, (∀ p ∈ l.accepted, p.seq ≠ seq) → l.broker.placesOf seq = []
  /-- What was received is what was accepted, with the identifier that it was published with. -/
  faithful : ∀ d ∈ l.received, ∃ p ∈ l.accepted, p.Becomes d.toParcel
  /-- A message that is received again is the same in all its parts. -/
  steady : ∀ d ∈ l.received, ∀ d' ∈ l.received, d.seq = d'.seq → d = d'
  /-- What was settled had been received. -/
  settled : ∀ o ∈ l.broker.outcomes, ∃ d ∈ l.received, d.seq = o.seq ∧ d.id = o.id

/-- What was accepted and settled before, is so later on, and nothing that was settled before is
received later on. -/
structure Follows (l l' : Ledger) : Prop where
  accepted : l.accepted <+: l'.accepted
  outcomes : l.broker.outcomes <+: l'.broker.outcomes
  received : ∃ new, l'.received = l.received ++ new ∧ ∀ d ∈ new, ¬ l.broker.IsSettled d.seq

end Ledger

/-! ## Counting places -/

namespace Broker

variable {b : Broker} {accepted : List Parcel} {received : List Delivery}

theorem length_lanePlaces (l : Lane) (lane seq : Nat) :
    (l.placesOf lane seq).length = l.contents.parcels.countP fun p => p.seq = seq := by
  rw [Lane.placesOf, LaneContents.parcels, Multiset.countP_add, Multiset.coe_countP,
    Multiset.coe_countP, List.length_append, List.length_map, List.length_map,
    ← List.countP_eq_length_filter,
    ← List.countP_eq_length_filter, List.countP_map, List.countP_map, Nat.add_comm]
  rfl

/-- Only what was settled is gone. -/
theorem isSettled_of_gone {seq : Nat} (h : Place.gone ∈ b.placesOf seq) : b.IsSettled seq := by
  have hlane (l : Lane) (lane : Nat) : Place.gone ∉ l.placesOf lane seq := by
    simp [Lane.placesOf]
  by_contra hsettled
  simp [placesOf, hlane, hsettled] at h

/-- The places in all lanes together. -/
theorem length_flatMap_placesOf (lanes : List Lane) (n seq : Nat) :
    ((lanes.zipIdx n).flatMap fun (l, lane) => l.placesOf lane seq).length =
      ((lanes.map Lane.contents).map LaneContents.parcels).sum.countP fun p => p.seq = seq := by
  induction lanes generalizing n with
  | nil => rfl
  | cons l lanes ih =>
    rw [List.zipIdx_cons, List.flatMap_cons, List.length_append, ih, length_lanePlaces]
    rw [List.map_cons, List.map_cons, List.sum_cons, Multiset.countP_add]

/-- A message that a reader has is not settled, or it is settled and in no other place. -/
theorem length_held (h : b.contents.Sound accepted received) (seq : Nat) :
    (b.held.filter fun h => h.delivery.seq = seq).length +
        (if b.IsSettled seq ∧ ∀ h ∈ b.held, h.delivery.seq ≠ seq then [Place.gone] else []).length =
      b.contents.unsettled seq + if b.contents.IsSettled seq then 1 else 0 := by
  rw [← List.countP_eq_length_filter]
  by_cases hsettled : b.contents.IsSettled seq
  · have hbalanced := h.balanced seq
    have hle := h.countP_accepted_le seq
    have honce : (b.held.countP fun h => h.delivery.seq = seq) ≤ 1 := h.known.once seq
    rw [Contents.balance, if_pos hsettled] at hbalanced
    rw [if_pos hsettled]
    -- A message may be settled and still be with its reader, and then it is not gone yet.
    by_cases hheld : ∀ h ∈ b.held, h.delivery.seq ≠ seq
    · have hzero : (b.held.countP fun h => h.delivery.seq = seq) = 0 := by
        rw [List.countP_eq_zero]
        exact fun g hg heq => hheld g hg (of_decide_eq_true heq)
      rw [if_pos ⟨hsettled, hheld⟩, List.length_singleton]
      omega
    · have hpos : 0 < b.held.countP fun h => h.delivery.seq = seq := by
        rw [List.countP_pos_iff]
        push Not at hheld
        obtain ⟨g, hg, heq⟩ := hheld
        exact ⟨g, hg, decide_eq_true heq⟩
      rw [if_neg fun hgone => hheld hgone.2, List.length_nil]
      omega
  · have hunsettled : b.contents.unsettled seq = b.held.countP fun h => h.delivery.seq = seq := by
      refine List.countP_congr fun g hg => ?_
      cases hopen : g.settled with
      | false => simp
      | true =>
        have hne : g.delivery.seq ≠ seq := fun heq => hsettled (heq ▸ h.known.settled g hg hopen)
        simp [hne]
    rw [if_neg hsettled, if_neg fun hgone => hsettled hgone.1, hunsettled, List.length_nil]

/-- A message is in as many places as the balance says. -/
theorem length_placesOf (h : b.contents.Sound accepted received) (seq : Nat) :
    (b.placesOf seq).length = accepted.countP fun p => p.seq = seq := by
  have hincoming : (b.incoming.filter fun e => e.parcel?.any fun p => p.seq = seq).length =
      (b.incoming.filterMap Envelope.parcel?).countP fun p => p.seq = seq := by
    rw [List.countP_filterMap, ← List.countP_eq_length_filter]
    refine List.countP_congr fun e _ => ?_
    cases e.parcel? <;> rfl
  have hheld := length_held h seq
  have hlanes := length_flatMap_placesOf b.lanes 0 seq
  rw [← h.balanced, Contents.balance, Contents.parcels, Multiset.countP_add, Multiset.countP_add,
    Multiset.coe_countP, Multiset.coe_countP]
  show _ = (b.incoming.filterMap Envelope.parcel?).countP _ + b.returned.countP _ +
    ((b.lanes.map Lane.contents).map LaneContents.parcels).sum.countP _ + _ + _
  rw [placesOf]
  simp only [List.length_append, List.length_map]
  rw [hincoming, hlanes, ← List.countP_eq_length_filter]
  omega

/-! ## What events do -/

/-- Whether an event is about publishers, consumers, errors or time, and not about messages. -/
def Event.isQuiet : Event → Bool
  | .publish .. | .fail .. | .giveUp .. | .consume .. => false
  | .receive .. | .settle .. | .dropMessage .. | .dropMessages .. => false
  | .forward .. | .overrun .. => false
  | _ => true

theorem contents_apply_of_isQuiet (b : Broker) {e : Event} (h : e.isQuiet) :
    (b.apply e).contents = b.contents := by
  cases e with
  | clonePublisher => exact contents_clonePublisher b
  | dropPublisher => exact contents_dropPublisher b
  | create => exact contents_create b
  | abort consumer => exact contents_abort b consumer
  | receiveError lane => exact contents_takeError b lane
  | dropErrors lane => exact contents_dropErrors b lane
  | setClock now => exact contents_setClock b now
  | failAttempts | dropFactory | setTimeout | close | dropConsumer => rfl
  | _ => cases h

/-- A message that is published at once, is accepted. -/
theorem sound_publish (h : b.contents.Sound accepted received) (id : Option String)
    (payload : Json) :
    (b.publish id payload).1.contents.Sound (accepted ++ b.published id payload) received := by
  have hnumbered := h.numbered.publish (p := ⟨b.nextSeq, id.map CorrelationId.given, payload⟩) rfl
    (blocked_of_publish_accepted (b := b) (i := id) (j := payload))
  rw [contents_publish]
  unfold published
  revert hnumbered
  cases (b.publish id payload).2 with
  | accepted =>
    intro hnumbered
    exact h.accept hnumbered (Contents.parcels_append b.contents _) rfl rfl
  | waiting ticket =>
    exact fun hnumbered => h.accept hnumbered (zero_add b.contents.parcels).symm rfl rfl
  | refused => exact fun hnumbered => h.accept hnumbered (zero_add b.contents.parcels).symm rfl rfl

theorem sound_fail (h : b.contents.Sound accepted received) (text : String) :
    (b.fail text).1.contents.Sound accepted received := by
  rw [fail, contents_send]
  have hnumbered := h.numbered.fail text (b.send (.error text)).2
  revert hnumbered
  cases (b.send (.error text)).2 with
  | accepted =>
    intro hnumbered
    refine h.of_parcels_eq hnumbered ?_ rfl rfl
    rw [Contents.afterSend, Contents.parcels_append]
    exact zero_add b.contents.parcels
  | waiting | refused => exact fun hnumbered => h.of_parcels_eq hnumbered rfl rfl rfl

theorem sound_consume (h : b.contents.Sound accepted received) (consumer owner : Nat) :
    (b.consume consumer owner).1.contents.Sound accepted received := by
  rcases contents_consume b consumer owner with ⟨error, -, hcontents⟩ | ⟨-, hcontents⟩
  · rwa [hcontents]
  · rw [hcontents]
    refine h.of_parcels_eq (h.numbered.of_eq rfl rfl rfl) ?_ rfl rfl
    rw [Contents.parcels, Contents.parcels, List.map_append, List.sum_append]
    exact congrArg _ (add_zero (b.contents.lanes.map LaneContents.parcels).sum)

/-- A message that is received leaves its slot. -/
theorem sound_takeMessage (h : b.contents.Sound accepted received) (lane : Nat) :
    (b.takeMessage lane).contents.Sound accepted
      (received ++ ((b.lanes[lane]?).bind Lane.slot).toList) := by
  cases hslot : (b.lanes[lane]?).bind Lane.slot with
  | none => rwa [takeMessage_eq_self hslot, Option.toList_none, List.append_nil]
  | some d =>
    obtain ⟨c, hlaneAt, hc⟩ := contents_of_slot hslot
    obtain ⟨rest, hbefore, hafter⟩ := Contents.parcels_atLane hlaneAt
    rw [contents_takeMessage hslot]
    refine h.receive (h.numbered.of_eq rfl rfl rfl) ?_ rfl rfl
    show b.contents.parcels = d.toParcel ::ₘ (b.contents.atLane lane fun c =>
      { c with slot := none }).parcels
    rw [hafter, hbefore, LaneContents.parcels_of_slot hc, Multiset.cons_add]

theorem sound_settle (h : b.contents.Sound accepted received) (seq : Nat)
    (disposition : Disposition) :
    (b.settle seq disposition).contents.Sound accepted received := by
  cases hfind : b.held.find? fun h => h.delivery.seq = seq with
  | none => rwa [settle_eq_self hfind]
  | some g =>
    have hseq : g.delivery.seq = seq := by simpa using List.find?_some hfind
    subst hseq
    rw [contents_settle hfind]
    exact h.settle (List.mem_of_find?_eq_some hfind) disposition (h.numbered.of_eq rfl rfl rfl) rfl
      rfl rfl

/-- A message that a reader lets go of goes back, unless it was settled. -/
theorem sound_dropMessage (h : b.contents.Sound accepted received) (seq : Nat) :
    (b.dropMessage seq).contents.Sound accepted received := by
  cases hfind : b.held.find? fun h => h.delivery.seq = seq with
  | none => rwa [dropMessage_eq_self hfind]
  | some g =>
    have hseq : g.delivery.seq = seq := by simpa using List.find?_some hfind
    subst hseq
    have hg := List.mem_of_find?_eq_some hfind
    rw [contents_dropMessage hfind]
    cases hsettled : g.settled with
    | true =>
      refine h.drop hg (h.numbered.of_eq rfl rfl rfl) ?_ rfl rfl
      rw [hsettled]
      rfl
    | false =>
      refine h.drop hg (h.numbered.of_eq rfl rfl rfl) ?_ rfl rfl
      rw [hsettled]
      exact Contents.parcels_requeue _ _

/-- A message that waits in the slot goes back when its reader stops taking messages. -/
theorem sound_dropMessages (h : b.contents.Sound accepted received) (lane : Nat) :
    (b.dropMessages lane).contents.Sound accepted received := by
  rw [contents_dropMessages, Contents.dropSlot]
  cases hlaneAt : b.contents.lanes[lane]? with
  | none =>
    rw [Option.bind_none, Option.elim_none,
      Contents.atLane_eq_self fun c hc => absurd (hlaneAt.symm.trans hc) (by simp)]
    exact h
  | some c =>
    rw [Option.bind_some]
    cases hslot : c.slot with
    | none =>
      obtain ⟨rest, hbefore, hafter⟩ := Contents.parcels_atLane hlaneAt
      refine h.of_parcels_eq (h.numbered.of_eq rfl rfl rfl) ?_ rfl rfl
      rw [Option.elim_none, hafter, hbefore, LaneContents.parcels, LaneContents.parcels, hslot]
    | some d =>
      obtain ⟨rest, hbefore, hafter⟩ :=
        Contents.parcels_atLane (s := b.contents.requeue d.toParcel) hlaneAt
      refine h.of_parcels_eq (h.numbered.of_eq rfl rfl rfl) ?_ rfl rfl
      rw [Contents.parcels_requeue, LaneContents.parcels_of_slot hslot, Multiset.cons_add,
        Multiset.cons_inj_right] at hbefore
      exact (hafter _).trans hbefore.symm

/-- Nothing takes a settlement back. -/
theorem outcomes_apply (b : Broker) (e : Event) : b.outcomes <+: (b.apply e).outcomes := by
  have hkeep {b' : Broker} (h : b'.contents.outcomes = b.contents.outcomes) :
      b.outcomes <+: b'.outcomes := by
    show b.outcomes <+: b'.contents.outcomes
    rw [h]
    exact List.prefix_refl _
  cases e with
  | publish id payload =>
    refine hkeep ?_
    show (b.publish id payload).1.contents.outcomes = _
    rw [contents_publish, Contents.outcomes_afterSend]
  | fail text =>
    refine hkeep ?_
    show (b.send (.error text)).1.contents.outcomes = _
    rw [contents_send, Contents.outcomes_afterSend]
  | consume consumer owner =>
    refine hkeep ?_
    show (b.consume consumer owner).1.contents.outcomes = _
    rcases contents_consume b consumer owner with ⟨error, -, h⟩ | ⟨-, h⟩ <;> rw [h]
  | receive lane =>
    refine hkeep ?_
    show (b.takeMessage lane).contents.outcomes = _
    cases hslot : (b.lanes[lane]?).bind Lane.slot with
    | none => rw [takeMessage_eq_self hslot]
    | some d =>
      rw [contents_takeMessage hslot]
      rfl
  | settle seq disposition =>
    show b.outcomes <+: (b.settle seq disposition).contents.outcomes
    cases hfind : b.held.find? fun h => h.delivery.seq = seq with
    | none =>
      rw [settle_eq_self hfind]
      exact List.prefix_refl _
    | some g =>
      rw [contents_settle hfind]
      exact List.prefix_append _ _
  | dropMessage seq =>
    refine hkeep ?_
    show (b.dropMessage seq).contents.outcomes = _
    cases hfind : b.held.find? fun h => h.delivery.seq = seq with
    | none => rw [dropMessage_eq_self hfind]
    | some g =>
      rw [contents_dropMessage hfind]
      cases g.settled <;> rfl
  | dropMessages lane =>
    refine hkeep ?_
    show (b.dropMessages lane).contents.outcomes = _
    rw [contents_dropMessages, Contents.dropSlot]
    cases (b.contents.lanes[lane]?).bind LaneContents.slot <;> rfl
  | forward lane favourNew => exact hkeep (forwards_advance b lane favourNew).outcomes_eq
  | overrun lane favourNew => exact hkeep (forwards_overrun b lane favourNew).outcomes_eq
  | giveUp => exact hkeep rfl
  | _ => exact hkeep (congrArg Contents.outcomes (contents_apply_of_isQuiet b rfl))

/-- The transport has the message that waits for a reader. -/
theorem mem_parcels_of_slot {lane : Nat} {d : Delivery}
    (h : (b.lanes[lane]?).bind Lane.slot = some d) :
    d.toParcel ∈ b.contents.parcels := by
  obtain ⟨c, hlaneAt, hc⟩ := contents_of_slot h
  obtain ⟨rest, hbefore, -⟩ := Contents.parcels_atLane hlaneAt
  rw [hbefore, LaneContents.parcels_of_slot hc, Multiset.cons_add]
  exact Multiset.mem_cons_self _ _

/-- No settled message waits for a reader. -/
theorem not_settled_of_delivers (h : b.contents.Sound accepted received) {e : Event} {d : Delivery}
    (hd : d ∈ b.delivers e) : ¬ b.IsSettled d.seq := by
  cases e with
  | receive lane => exact (h.elsewhere (mem_parcels_of_slot (Option.mem_toList.mp hd))).2.2
  | _ => exact absurd hd List.not_mem_nil

end Broker

namespace Ledger

/-- A ledger whose messages are sound has them accounted for. -/
theorem accounted_of_sound {l : Ledger} (h : l.broker.contents.Sound l.accepted l.received) :
    l.Accounted := by
  constructor
  case numbered => exact (List.pairwise_append.mp h.numbered.sorted).1
  case placed =>
    intro p hp
    have hone : (l.broker.placesOf p.seq).length = 1 := by
      have hpos : 0 < l.accepted.countP fun q => q.seq = p.seq :=
        List.countP_pos_iff.mpr ⟨p, hp, decide_eq_true rfl⟩
      have hle := h.countP_accepted_le p.seq
      rw [Broker.length_placesOf h]
      omega
    obtain ⟨place, hplace⟩ := List.length_eq_one_iff.mp hone
    refine ⟨place, hplace, ?_⟩
    rintro rfl
    exact Broker.isSettled_of_gone (hplace ▸ List.mem_singleton_self Place.gone)
  case unknown =>
    intro seq hseq
    rw [← List.length_eq_zero_iff, Broker.length_placesOf h, List.countP_eq_zero]
    exact fun p hp heq => hseq p hp (of_decide_eq_true heq)
  case faithful => exact h.keptReceived
  case steady => exact h.known.agree
  case settled => exact h.known.outcomes

/-- An event that does nothing about messages. -/
theorem sound_of_contents_eq {l : Ledger} {e : Broker.Event}
    (h : l.broker.contents.Sound l.accepted l.received)
    (hcontents : (l.broker.apply e).contents = l.broker.contents)
    (haccepts : l.broker.accepts e = []) (hdelivers : l.broker.delivers e = []) :
    (l.after e).broker.contents.Sound (l.after e).accepted (l.after e).received := by
  show (l.broker.apply e).contents.Sound (l.accepted ++ l.broker.accepts e)
    (l.received ++ l.broker.delivers e)
  rwa [hcontents, haccepts, hdelivers, List.append_nil, List.append_nil]

/-- Every event leaves the messages sound. -/
theorem sound_after {l : Ledger} (h : l.broker.contents.Sound l.accepted l.received)
    (e : Broker.Event) :
    (l.after e).broker.contents.Sound (l.after e).accepted (l.after e).received := by
  show (l.broker.apply e).contents.Sound (l.accepted ++ l.broker.accepts e)
    (l.received ++ l.broker.delivers e)
  cases e with
  | publish id payload =>
    simp only [Broker.delivers, List.append_nil]
    exact Broker.sound_publish h id payload
  | fail text =>
    simp only [Broker.accepts, Broker.delivers, List.append_nil]
    exact Broker.sound_fail h text
  | giveUp ticket =>
    simp only [Broker.accepts, Broker.delivers, List.append_nil]
    exact h.of_parcels_eq (h.numbered.giveUp ticket) rfl rfl rfl
  | consume consumer owner =>
    simp only [Broker.accepts, Broker.delivers, List.append_nil]
    exact Broker.sound_consume h consumer owner
  | receive lane =>
    simp only [Broker.accepts, Broker.delivers, List.append_nil]
    exact Broker.sound_takeMessage h lane
  | settle seq disposition =>
    simp only [Broker.accepts, Broker.delivers, List.append_nil]
    exact Broker.sound_settle h seq disposition
  | dropMessage seq =>
    simp only [Broker.accepts, Broker.delivers, List.append_nil]
    exact Broker.sound_dropMessage h seq
  | dropMessages lane =>
    simp only [Broker.accepts, Broker.delivers, List.append_nil]
    exact Broker.sound_dropMessages h lane
  | forward lane favourNew =>
    simp only [Broker.delivers, List.append_nil]
    exact h.forwards (Broker.forwards_advance l.broker lane favourNew)
  | overrun lane favourNew =>
    simp only [Broker.delivers, List.append_nil]
    exact h.forwards (Broker.forwards_overrun l.broker lane favourNew)
  | _ => exact sound_of_contents_eq h (Broker.contents_apply_of_isQuiet _ rfl) rfl rfl

/-! ## Runs of the transport -/

theorem Follows.refl (l : Ledger) : l.Follows l :=
  ⟨List.prefix_refl _, List.prefix_refl _, [], (List.append_nil _).symm, by simp⟩

theorem Follows.trans {l l' l'' : Ledger} (h : l.Follows l') (h' : l'.Follows l'') :
    l.Follows l'' := by
  obtain ⟨new, hnew, hsettled⟩ := h.received
  obtain ⟨new', hnew', hsettled'⟩ := h'.received
  refine ⟨h.accepted.trans h'.accepted, h.outcomes.trans h'.outcomes, new ++ new', ?_, ?_⟩
  · rw [hnew', hnew, List.append_assoc]
  · intro d hd
    rcases List.mem_append.mp hd with hd | hd
    · exact hsettled d hd
    · rintro ⟨o, ho, hseq⟩
      exact hsettled' d hd ⟨o, h.outcomes.subset ho, hseq⟩

/-- An event forgets nothing, and no reader receives a settled message in it. -/
theorem follows_after {l : Ledger} (h : l.broker.contents.Sound l.accepted l.received)
    (e : Broker.Event) : l.Follows (l.after e) :=
  ⟨List.prefix_append _ _, Broker.outcomes_apply l.broker e, l.broker.delivers e, rfl,
    fun _ hd => Broker.not_settled_of_delivers h hd⟩

theorem step_eq_some {l l' : Ledger} {e : Broker.Event} (h : l.step e = some l') :
    l' = l.after e := by
  unfold step at h
  split at h
  · exact (Option.some.inj h).symm
  · cases h

/-- A run leaves the messages sound and forgets nothing. -/
theorem sound_run {l l' : Ledger} {events : List Broker.Event}
    (h : l.broker.contents.Sound l.accepted l.received) (hrun : l.run events = some l') :
    l'.broker.contents.Sound l'.accepted l'.received ∧ l.Follows l' := by
  -- `Follows` needs the messages sound at each event: no settled message is in a slot then.
  refine foldlM_induction (motive := fun x => x.broker.contents.Sound x.accepted x.received ∧
    l.Follows x) hrun ⟨h, .refl l⟩ fun e _ x x' ⟨hsound, hfollows⟩ hstep => ?_
  obtain rfl := step_eq_some hstep
  exact ⟨sound_after hsound e, hfollows.trans (follows_after hsound e)⟩

theorem sound_ofCapacity? {capacity : Nat} {b : Broker} (h : Broker.ofCapacity? capacity = some b) :
    b.contents.Sound [] [] := by
  obtain rfl := Broker.eq_of_ofCapacity? h
  constructor
  case numbered => constructor <;> simp [Contents.waiting, Broker.contents]
  case known => constructor <;> simp [Broker.contents]
  case balanced =>
    simp [Contents.balance, Contents.parcels, Contents.unsettled, Contents.IsSettled,
      Broker.contents]
  all_goals simp [Contents.parcels, Broker.contents]

/-- Whatever happens to a new transport as long as its queue exists, all messages are accounted for,
and whatever happens after that, nothing is forgotten and no settled message is received again. -/
theorem accounted_of_run {capacity : Nat} {b : Broker} {events : List Broker.Event} {l : Ledger}
    (hopen : Broker.ofCapacity? capacity = some b)
    (hrun : ({ broker := b } : Ledger).run events = some l) :
    l.Accounted ∧ ∀ later l', l.run later = some l' → l.Follows l' := by
  obtain ⟨hsound, -⟩ := sound_run (sound_ofCapacity? hopen) hrun
  exact ⟨accounted_of_sound hsound, fun later l' hlater => (sound_run hsound hlater).2⟩

/-- Two messages for a queue with room for one, and a third one later on: the first one is settled,
and the second one is received and given back. -/
theorem accounted_after_return :
    let events : List Broker.Event :=
      [.publish (some "a") .null, .publish none .null, .create, .consume 0 0,
        .forward 0 false, .forward 0 false, .forward 0 false, .forward 0 false, .forward 0 false,
        .receive 0, .forward 0 false, .forward 0 false, .forward 0 false, .forward 0 false,
        .settle 0 .ack, .dropMessage 0, .receive 0, .dropMessage 1, .publish none .null]
    ∃ b, Broker.ofCapacity? 1 = some b ∧ ∃ l, ({ broker := b } : Ledger).run events = some l ∧
      (l.Accounted ∧ ∀ later l', l.run later = some l' → l.Follows l') ∧
        l.broker.placesOf 0 = [.gone] ∧ l.broker.placesOf 1 = [.returned] ∧
        l.broker.placesOf 2 = [.incoming] := by
  intro events
  exact ⟨_, rfl, _, rfl, @accounted_of_run 1 _ events _ rfl rfl, rfl, rfl, rfl⟩

end Ledger

end Courier
