import Courier.Proofs.Broker.Handover
import Mathlib.Data.List.Sort

/-!
# Messages that go back while nobody has the queue

A reader lets go of a message that it has (`Broker.Event.dropMessage`), or of the lane in whose slot
one waits (`Broker.Event.dropMessages`); unless it was settled, it goes back (`Broker.returns`).
Each finds its place among those that were returned before, and none of them is lost
(`Broker.Regains`).

So the returned messages depend on which have gone back and not on the order of it
(`Broker.returned_eq_of_perm`). As long as no forwarder takes a step and readers do nothing else
about their messages, what a reader lets go of later is what it could let go of now
(`Broker.returns_apply`), so it is known which they are (`Broker.mem_returned_foldl`).
-/

namespace Courier.Broker

/-- Whether a reader lets go of something in an event. -/
def Event.isDrop : Event → Bool
  | .dropMessage _ | .dropMessages _ => true
  | _ => false

/-- Whether an event neither is a step of a forwarder nor takes a message out of a slot nor settles
one. -/
def Event.isPassive : Event → Bool
  | .forward .. | .overrun .. | .receive _ | .settle .. => false
  | _ => true

/-- The message that goes back if a reader lets go of something. -/
def returns (b : Broker) : Event → List Parcel
  | .dropMessage seq =>
    (b.held.find? fun h => h.delivery.seq = seq).toList.flatMap fun h =>
      if h.settled then [] else [h.delivery.toParcel]
  | .dropMessages lane => ((b.lanes[lane]?).bind Lane.slot).toList.map Delivery.toParcel
  | _ => []

/-- The messages that go back in several events, in that order. -/
def returnsOf (b : Broker) : List Event → List Parcel
  | [] => []
  | e :: events => b.returns e ++ (b.apply e).returnsOf events

/-- What an event does to the returned messages: they stay in the order of their numbers, each once,
those that there were stay, and those that go back are added to them. -/
structure Regains (b : Broker) (e : Event) : Prop where
  sorted : (b.apply e).returned.Pairwise fun p q => p.seq < q.seq
  kept : b.returned.Sublist (b.apply e).returned
  perm : (b.apply e).returned.Perm (b.returns e ++ b.returned)

/-- Whether nobody has the queue. -/
def IsIdle (b : Broker) : Prop :=
  ∀ (n : Nat) (l : Lane), b.lanes[n]? = some l → l.forwarder.hasQueue = false

variable {b : Broker} {e : Event} {events : List Event} {p : Parcel}

theorem Event.turnOf_of_isPassive (h : e.isPassive) : e.turnOf = none := by
  cases e <;> first | rfl | cases h

theorem Event.isPassive_of_isDrop (h : e.isDrop) : e.isPassive := by
  cases e <;> first | rfl | cases h

/-! ## Where a message goes back to -/

theorem Event.returns_of_not_isDrop (h : e.isDrop = false) (b : Broker) : b.returns e = [] := by
  cases e <;> first | rfl | cases h

theorem eq_toParcel_of_returns (h : p ∈ b.returns e) : ∃ d : Delivery, p = d.toParcel := by
  cases e with
  | dropMessage seq =>
    obtain ⟨g, -, hg⟩ := List.mem_flatMap.mp h
    split at hg
    · cases hg
    · exact ⟨g.delivery, List.mem_singleton.mp hg⟩
  | dropMessages lane =>
    obtain ⟨d, -, hd⟩ := List.mem_map.mp h
    exact ⟨d, hd.symm⟩
  | _ => cases h

/-- What users do about returned messages is to put some back. -/
theorem returned_apply (b : Broker) (he : e.turnOf = none) :
    (b.apply e).returned = (b.returns e).foldr insertParcel b.returned := by
  have hcontents {s : Contents} (h : (b.apply e).contents = s) :
      (b.apply e).returned = s.returned :=
    congrArg Contents.returned h
  cases e with
  | forward | overrun => cases he
  | dropMessage seq =>
    cases hfind : b.held.find? fun h => h.delivery.seq = seq with
    | none =>
      rw [returns, hfind]
      exact congrArg returned (dropMessage_eq_self hfind)
    | some g =>
      rw [hcontents (contents_dropMessage hfind), returns, hfind]
      cases hsettled : g.settled with
      | true => simp [hsettled, contents]
      | false => simp [hsettled, contents, Contents.requeue]
  | dropMessages lane =>
    rw [hcontents (contents_dropMessages b lane), returns, slot_eq, Contents.dropSlot]
    cases (b.contents.lanes[lane]?).bind LaneContents.slot <;> rfl
  | publish id payload =>
    refine (hcontents (contents_publish b id payload)).trans ?_
    cases (b.publish id payload).2 <;> rfl
  | fail text =>
    refine (hcontents (contents_send b (.error text))).trans ?_
    cases (b.send (.error text)).2 <;> rfl
  | consume consumer owner =>
    rcases contents_consume b consumer owner with ⟨-, -, h⟩ | ⟨-, h⟩
    · exact hcontents h
    · exact hcontents h
  | receive lane =>
    cases hslot : (b.lanes[lane]?).bind Lane.slot with
    | none => exact congrArg returned (takeMessage_eq_self hslot)
    | some d => exact hcontents (contents_takeMessage hslot)
  | settle seq disposition =>
    cases hfind : b.held.find? fun h => h.delivery.seq = seq with
    | none => exact congrArg returned (settle_eq_self hfind disposition)
    | some g => exact hcontents (contents_settle hfind disposition)
  | giveUp => rfl
  | _ => exact hcontents (contents_apply_of_isQuiet b rfl)

theorem perm_returned_apply (b : Broker) (he : e.turnOf = none) :
    (b.apply e).returned.Perm (b.returns e ++ b.returned) := by
  rw [returned_apply b he]
  induction b.returns e with
  | nil => exact .refl _
  | cons p ps ih => exact (Contents.perm_insertParcel p _).trans (.cons p ih)

/-! ## What a reader can let go of -/

/-- Whether readers have the same messages, and the same ones wait for them. -/
structure SameMessages (b b' : Broker) : Prop where
  held : b'.held = b.held
  slots : ∀ n : Nat, (b'.lanes[n]?).bind Lane.slot = (b.lanes[n]?).bind Lane.slot

theorem SameMessages.of_contents {b' : Broker} (hheld : b'.contents.held = b.contents.held)
    (hlanes : b'.contents.lanes = b.contents.lanes) : b.SameMessages b' where
  held := hheld
  slots n := by rw [slot_eq, slot_eq, hlanes]

theorem SameMessages.of_contents_eq {b' : Broker} (h : b'.contents = b.contents) :
    b.SameMessages b' :=
  .of_contents (congrArg Contents.held h) (congrArg Contents.lanes h)

theorem SameMessages.returns_eq {b' : Broker} (h : b.SameMessages b') (e : Event) :
    b'.returns e = b.returns e := by
  cases e with
  | dropMessage seq => rw [returns, returns, h.held]
  | dropMessages lane => rw [returns, returns, h.slots]
  | _ => rfl

/-- A lane that is opened has nothing in its slot. -/
theorem sameMessages_consume (b : Broker) (consumer owner : Nat) :
    b.SameMessages (b.consume consumer owner).1 := by
  rcases contents_consume b consumer owner with ⟨-, -, h⟩ | ⟨-, h⟩
  · exact .of_contents_eq h
  · refine ⟨congrArg Contents.held h, fun n => ?_⟩
    rw [slot_eq, slot_eq, h]
    show ((b.contents.lanes ++ [_])[n]?).bind LaneContents.slot = _
    rw [List.getElem?_append]
    split
    · rfl
    · next hn =>
      rw [List.getElem?_eq_none (Nat.not_lt.mp hn)]
      cases n - b.contents.lanes.length <;> rfl

/-- Nobody but a reader changes what readers have. -/
theorem sameMessages_apply (b : Broker) (hpassive : e.isPassive) (hdrop : e.isDrop = false) :
    b.SameMessages (b.apply e) := by
  cases e with
  | forward | overrun | receive | settle => cases hpassive
  | dropMessage | dropMessages => cases hdrop
  | publish id payload =>
    exact .of_contents ((congrArg Contents.held (contents_publish b id payload)).trans
      (Contents.held_afterSend ..))
      ((congrArg Contents.lanes (contents_publish b id payload)).trans
        (Contents.lanes_afterSend ..))
  | fail text =>
    exact .of_contents ((congrArg Contents.held (contents_send b (.error text))).trans
      (Contents.held_afterSend ..))
      ((congrArg Contents.lanes (contents_send b (.error text))).trans
        (Contents.lanes_afterSend ..))
  | consume consumer owner => exact sameMessages_consume b consumer owner
  | giveUp => exact ⟨rfl, fun _ => rfl⟩
  | _ => exact .of_contents_eq (contents_apply_of_isQuiet b rfl)

theorem held_dropMessage (b : Broker) (seq : Nat) :
    (b.dropMessage seq).held = b.held.filter fun h => h.delivery.seq ≠ seq := by
  cases hfind : b.held.find? fun h => h.delivery.seq = seq with
  | none =>
    rw [dropMessage_eq_self hfind, eq_comm, List.filter_eq_self]
    exact fun g hg => by simpa using List.find?_eq_none.mp hfind g hg
  | some g =>
    refine (congrArg Contents.held (contents_dropMessage hfind)).trans ?_
    cases g.settled <;> rfl

/-- Letting go of one message concerns no other. -/
theorem find?_held_dropMessage (b : Broker) (seq seq' : Nat) :
    ((b.dropMessage seq).held.find? fun h => h.delivery.seq = seq') =
      if seq' = seq then none else b.held.find? fun h => h.delivery.seq = seq' := by
  rw [held_dropMessage, List.find?_filter]
  split
  · next heq =>
    rw [List.find?_eq_none]
    rintro h - hboth
    obtain ⟨hne, hseq⟩ := of_decide_eq_true hboth
    exact of_decide_eq_true hne ((of_decide_eq_true hseq).trans heq)
  · next hne =>
    congr
    funext h
    by_cases hh : h.delivery.seq = seq' <;> simp [hh, hne]

theorem slots_dropMessage (b : Broker) (seq n : Nat) :
    ((b.dropMessage seq).lanes[n]?).bind Lane.slot = (b.lanes[n]?).bind Lane.slot := by
  cases hfind : b.held.find? fun h => h.delivery.seq = seq with
  | none => rw [dropMessage_eq_self hfind]
  | some g =>
    rw [slot_eq, slot_eq, contents_dropMessage hfind]
    cases g.settled <;> rfl

theorem held_dropMessages (b : Broker) (lane : Nat) : (b.dropMessages lane).held = b.held :=
  (congrArg Contents.held (contents_dropMessages b lane)).trans
    (Contents.held_dropSlot b.contents lane)

theorem slots_dropMessages (b : Broker) (lane n : Nat) :
    ((b.dropMessages lane).lanes[n]?).bind Lane.slot =
      if lane = n then none else (b.lanes[n]?).bind Lane.slot := by
  have hlanes : (b.contents.dropSlot lane).lanes =
      b.contents.lanes.modify lane fun c => { c with slot := none, reads := false } := by
    rw [Contents.dropSlot]
    cases (b.contents.lanes[lane]?).bind LaneContents.slot <;> rfl
  rw [slot_eq, slot_eq, contents_dropMessages, hlanes, List.getElem?_modify]
  split
  · cases b.contents.lanes[n]? <;> rfl
  · rw [Option.map_eq_map, Option.map_id_fun', id]

/-- What a reader can let go of, it can let go of later on, unless it has done so. -/
theorem returns_apply (b : Broker) (hpassive : e.isPassive) (e' : Event) :
    (b.apply e).returns e' = b.returns e' ∨ e' = e ∧ (b.apply e).returns e' = [] := by
  -- Letting go of two things interferes only if they are one thing.
  cases hdrop : e.isDrop with
  | false => exact .inl ((sameMessages_apply b hpassive hdrop).returns_eq e')
  | true =>
    cases e with
    | dropMessage seq =>
      cases e' with
      | dropMessage seq' =>
        show (b.dropMessage seq).returns _ = _ ∨ _ ∧ (b.dropMessage seq).returns _ = _
        rw [returns, returns, find?_held_dropMessage]
        split
        · next hseq => exact .inr ⟨congrArg _ hseq, rfl⟩
        · exact .inl rfl
      | dropMessages lane => exact .inl (congrArg _ (congrArg _ (slots_dropMessage b seq lane)))
      | _ => exact .inl rfl
    | dropMessages lane =>
      cases e' with
      | dropMessage seq =>
        refine .inl ?_
        show (b.dropMessages lane).returns _ = _
        rw [returns, returns, held_dropMessages]
      | dropMessages lane' =>
        show (b.dropMessages lane).returns _ = _ ∨ _ ∧ (b.dropMessages lane).returns _ = _
        rw [returns, returns, slots_dropMessages]
        split
        · next hlane => exact .inr ⟨congrArg _ hlane.symm, rfl⟩
        · exact .inl rfl
      | _ => exact .inl rfl
    | _ => cases hdrop

/-! ## Any number of them -/

theorem perm_returned_foldl (b : Broker) (husers : ∀ e ∈ events, e.turnOf = none) :
    (events.foldl apply b).returned.Perm (b.returnsOf events ++ b.returned) := by
  induction events generalizing b with
  | nil => exact .refl _
  | cons e events ih =>
    have hfirst := perm_returned_apply b (husers e List.mem_cons_self)
    refine (ih (b.apply e) fun x hx => husers x (List.mem_cons_of_mem e hx)).trans ?_
    refine (hfirst.append_left _).trans ?_
    rw [← List.append_assoc]
    exact List.perm_append_comm.append_right b.returned

/-- What goes back is what readers could let go of before. -/
theorem mem_returnsOf (b : Broker) (hpassive : ∀ e ∈ events, e.isPassive) :
    p ∈ b.returnsOf events ↔ ∃ e ∈ events, p ∈ b.returns e := by
  induction events generalizing b with
  | nil => simp [returnsOf]
  | cons e events ih =>
    have he := hpassive e List.mem_cons_self
    rw [returnsOf, List.mem_append, ih (b.apply e) fun x hx =>
      hpassive x (List.mem_cons_of_mem e hx), List.exists_mem_cons_iff]
    constructor
    · rintro (h | ⟨x, hx, h⟩)
      · exact .inl h
      · rcases returns_apply b he x with hsame | ⟨-, hgone⟩
        · exact .inr ⟨x, hx, hsame ▸ h⟩
        · rw [hgone] at h
          cases h
    · rintro (h | ⟨x, hx, h⟩)
      · exact .inl h
      · rcases returns_apply b he x with hsame | ⟨rfl, -⟩
        · exact .inr ⟨x, hx, hsame.symm ▸ h⟩
        · -- The second time nothing is left to let go of, but the first time there was.
          exact .inl h

/-- Once readers have let go of things, those messages are returned that were before or that they
could let go of. -/
theorem mem_returned_foldl (b : Broker) (hpassive : ∀ e ∈ events, e.isPassive) :
    p ∈ (events.foldl apply b).returned ↔ p ∈ b.returned ∨ ∃ e ∈ events, p ∈ b.returns e := by
  have hperm := perm_returned_foldl b fun e he => Event.turnOf_of_isPassive (hpassive e he)
  rw [hperm.mem_iff, List.mem_append, mem_returnsOf b hpassive]
  exact or_comm

/-! ## The returned messages -/

/-- What a forwarder puts back it has had in hand. -/
theorem Advances.mem_returned {n : Nat} {l l' : Lane} {line : List Nat} {incoming : List Envelope}
    {returned : List Parcel} (h : b.Advances n l l' line incoming returned) (hp : p ∈ returned) :
    p ∈ b.returned ∨ ∃ d : Delivery, p = d.toParcel := by
  cases h with
  | takeReturned _ hreturned _ =>
    rw [hreturned]
    exact .inl (List.mem_cons_of_mem _ hp)
  | @giveBack d _ _ => exact (mem_insertParcel.mp hp).elim (fun heq => .inr ⟨d, heq⟩) .inl
  | _ => exact .inl hp

/-- Whether the transport keeps its messages as one does that was new once, whatever has happened
since. -/
structure IsOrderly (b : Broker) : Prop where
  signsKept : b.queueState.SignsKept
  sound : ∃ accepted received, b.contents.Sound accepted received
  /-- A returned message has been picked up before, so it has its identifier. -/
  named : ∀ p ∈ b.returned, ∃ d : Delivery, p = d.toParcel

namespace IsOrderly

theorem apply (h : b.IsOrderly) (e : Event) : (b.apply e).IsOrderly := by
  obtain ⟨accepted, received, hsound⟩ := h.sound
  have hsound' := Ledger.sound_after (l := ⟨b, accepted, received⟩) hsound e
  refine ⟨signsKept_apply h.signsKept e, ⟨_, _, hsound'⟩, fun p hp => ?_⟩
  cases he : e.turnOf with
  | none =>
    rcases List.mem_append.mp ((perm_returned_apply b he).mem_iff.mp hp) with hp | hp
    · exact eq_toParcel_of_returns hp
    · exact h.named p hp
  | some n =>
    cases happens_apply h.signsKept e with
    | byUser hturn | opened hturn => cases he.symm.trans hturn
    | missed _ hsame => exact h.named p (hsame ▸ hp)
    | turned _ _ hturned =>
      obtain ⟨l', hadvances, -⟩ := hturned
      exact (hadvances.mem_returned hp).elim (h.named p) id

theorem foldl (h : b.IsOrderly) (events : List Event) : (events.foldl Broker.apply b).IsOrderly :=
  List.foldlRecOn events Broker.apply h fun _ h e _ => h.apply e

theorem sorted (h : b.IsOrderly) : b.returned.Pairwise fun p q => p.seq < q.seq := by
  obtain ⟨accepted, received, hsound⟩ := h.sound
  exact Ledger.sorted_returned (l := ⟨b, accepted, received⟩) h.signsKept hsound

end IsOrderly

theorem isOrderly_ofCapacity? {capacity : Nat} (h : ofCapacity? capacity = some b) :
    b.IsOrderly := by
  refine ⟨Ledger.signsKept_ofCapacity? h, ⟨[], [], Ledger.sound_ofCapacity? h⟩, ?_⟩
  obtain rfl := eq_of_ofCapacity? h
  rintro p ⟨⟩

/-- However a message goes back, it goes to its place. -/
theorem regains_apply (h : b.IsOrderly) (he : e.turnOf = none) : b.Regains e := by
  refine ⟨(h.apply e).sorted, ?_, perm_returned_apply b he⟩
  rw [returned_apply b he]
  induction b.returns e with
  | nil => exact .refl _
  | cons p ps ih => exact ih.trans (sublist_insertParcel p _)

theorem exists_returns_filter (events : List Event) :
    (∃ e ∈ events.filter Event.isDrop, p ∈ b.returns e) ↔ ∃ e ∈ events, p ∈ b.returns e := by
  refine exists_congr fun e => ?_
  rw [List.mem_filter, and_assoc]
  refine and_congr_right fun _ => and_iff_right_of_imp fun hp => ?_
  by_contra hdrop
  rw [Event.returns_of_not_isDrop (by simpa using hdrop)] at hp
  cases hp

instance : Std.Irrefl fun p q : Parcel => p.seq < q.seq := ⟨fun p => Nat.lt_irrefl p.seq⟩

instance :
    Std.Antisymm fun p q : Parcel => p.seq < q.seq :=
      ⟨fun _ _ hlt hgt => absurd hgt (Nat.lt_asymm hlt)⟩

/-- What is returned at last depends on which messages have gone back, and not on the order of
it. -/
theorem returned_eq_of_perm (h : b.IsOrderly) {others : List Event}
    (husers : ∀ e ∈ events, e.turnOf = none) (husers' : ∀ e ∈ others, e.turnOf = none)
    (hperm : (b.returnsOf others).Perm (b.returnsOf events)) :
    (others.foldl apply b).returned = (events.foldl apply b).returned := by
  have hgone := (perm_returned_foldl b husers').trans (hperm.append_right b.returned)
  exact (hgone.trans (perm_returned_foldl b husers).symm).eq_of_pairwise' (h.foldl others).sorted
    (h.foldl events).sorted

/-- So it depends on what readers let go of, and neither on the order of that nor on what else
happens meanwhile. -/
theorem returned_eq_of_drops (h : b.IsOrderly) {drops : List Event} (hdrops : ∀ e ∈ drops, e.isDrop)
    (hpassive : ∀ e ∈ events, e.isPassive) (hperm : (events.filter Event.isDrop).Perm drops) :
    (events.foldl apply b).returned = (drops.foldl apply b).returned := by
  -- Both are in the order of the numbers, each message once, so they are equal if the same messages
  -- are in them.
  refine (h.foldl events).sorted.eq_of_mem_iff (h.foldl drops).sorted fun p => ?_
  rw [mem_returned_foldl b hpassive, mem_returned_foldl b fun e he =>
    Event.isPassive_of_isDrop (hdrops e he), ← exists_returns_filter events]
  exact or_congr_right (exists_congr fun e => and_congr_left' hperm.mem_iff)

/-! ## Nobody has the queue meanwhile -/

theorem IsIdle.apply (h : b.IsIdle) (hsigns : b.queueState.SignsKept) (he : e.turnOf = none) :
    (b.apply e).IsIdle := by
  intro n l' hl'
  cases happens_apply hsigns e with
  | byUser _ hchanged =>
    obtain ⟨l, hl, hlane⟩ := hchanged.before n l' hl'
    rw [hlane.forwarder_congr Forwarder.hasQueue fun _ => rfl]
    exact h n l hl
  | opened _ hchanged =>
    obtain ⟨l, hl, hlane⟩ := hchanged.before n l' hl'
    rw [hlane.forwarder_congr Forwarder.hasQueue fun _ => rfl]
    rcases getElem?_concat_cases hl with hl | ⟨-, rfl⟩
    · exact h n l hl
    · rfl
  | missed hturn => cases he.symm.trans hturn
  | turned hturn => cases he.symm.trans hturn

theorem IsIdle.foldl (h : b.IsIdle) (horderly : b.IsOrderly)
    (husers : ∀ e ∈ events, e.turnOf = none) :
    (events.foldl Broker.apply b).IsIdle := by
  have hboth :=
    List.foldlRecOn (motive := fun b => b.IsIdle ∧ b.IsOrderly) events Broker.apply ⟨h, horderly⟩
    fun _ ⟨hidle, horderly⟩ e he => ⟨hidle.apply horderly.signsKept (husers e he), horderly.apply e⟩
  exact hboth.1

end Courier.Broker
