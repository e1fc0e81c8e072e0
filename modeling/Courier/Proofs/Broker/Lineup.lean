import Courier.Proofs.Broker.Forwarding
import Mathlib.Data.List.Forall2

/-!
# Messages in line

As long as one reader at a time uses the transport, its messages stand in one line: the one in the
slot, those that were returned together with the one in hand, and those on the queue
(`Contents.lineup`). The line continues what was handed out, in the order in which messages were
accepted (`Contents.Lined`).

A forwarder keeps it so since it does not look at the queue before it has found no returned message
(`LaneContents.Fits`). It may do so all the same after its reader has gone; but then it hands
nothing over any more, and what it has in hand goes back to its place.
-/

namespace Courier

/-! ## Returning messages in order -/

namespace Broker

theorem insertParcel_eq_cons {p : Parcel} {ps : List Parcel} (h : ∀ q ∈ ps, p.seq < q.seq) :
    insertParcel p ps = p :: ps := by
  cases ps with
  | nil => rfl
  | cons q ps =>
    have hlt := h q (List.mem_cons_self ..)
    rw [insertParcel, if_neg (by omega)]

theorem insertParcel_cons_of_lt {p q : Parcel} {ps : List Parcel} (h : q.seq < p.seq) :
    insertParcel p (q :: ps) = q :: insertParcel p ps := by
  rw [insertParcel, if_pos h]

theorem insertParcel_eq_concat {p : Parcel} {ps : List Parcel} (h : ∀ q ∈ ps, q.seq < p.seq) :
    insertParcel p ps = ps ++ [p] := by
  induction ps with
  | nil => rfl
  | cons q ps ih =>
    rw [insertParcel_cons_of_lt (h q (List.mem_cons_self ..)),
      ih fun r hr => h r (List.mem_cons_of_mem q hr)]
    rfl

theorem mem_insertParcel {p q : Parcel} {ps : List Parcel} :
    q ∈ insertParcel p ps ↔ q = p ∨ q ∈ ps := by
  induction ps with
  | nil => simp [insertParcel]
  | cons r ps ih =>
    rw [insertParcel]
    split
    · rw [List.mem_cons, ih, List.mem_cons]
      exact or_left_comm
    · exact List.mem_cons

end Broker

namespace Parcel

theorem forall₂_becomes_refl (ps : List Parcel) : List.Forall₂ Becomes ps ps :=
  List.forall₂_same.mpr fun p _ => .refl p

theorem forall₂_becomes_trans {ps qs rs : List Parcel} (h : List.Forall₂ Becomes ps qs)
    (h' : List.Forall₂ Becomes qs rs) : List.Forall₂ Becomes ps rs := by
  induction h generalizing rs with
  | nil => exact h'
  | cons hp _ ih =>
    cases h' with
    | cons hq hrest => exact .cons (hp.trans hq) (ih hrest)

/-- Messages that get their identifiers stay in the order of their numbers. -/
theorem sorted_of_becomes {ps qs : List Parcel} (h : List.Forall₂ Becomes ps qs)
    (hsorted : ps.Pairwise fun p q => p.seq < q.seq) : qs.Pairwise fun p q => p.seq < q.seq := by
  have hseq : qs.map Parcel.seq = ps.map Parcel.seq := by
    induction h with
    | nil => rfl
    | cons hp _ ih =>
      rw [List.map_cons, List.map_cons, hp.seq, ih hsorted.of_cons]
  rw [← List.pairwise_map (R := (· < ·)), hseq, List.pairwise_map]
  exact hsorted

end Parcel

/-! ## The line -/

/-- What passes through a lane that is not there. -/
def LaneContents.closed : LaneContents := ⟨.ended, none, false⟩

/-- Whether nothing passes through a lane any more. -/
def LaneContents.IsClosed (c : LaneContents) : Prop := c.handState = .ended ∧ c.slot = none

/-- The returned messages with the one in hand in its place. -/
def LaneContents.backlog (c : LaneContents) (returned : List Parcel) : List Parcel :=
  c.handState.hand?.elim returned fun d => Broker.insertParcel d.toParcel returned

/-- The messages that are under way by a lane: the one in the slot, the backlog, and those on the
queue. -/
def LaneContents.line (c : LaneContents) (returned : List Parcel) (incoming : List Envelope) :
    List Parcel :=
  c.slot.toList.map Delivery.toParcel ++ c.backlog returned ++ incoming.filterMap Envelope.parcel?

theorem LaneContents.line_of_isClosed {c : LaneContents} (h : c.IsClosed) (returned : List Parcel)
    (incoming : List Envelope) :
    c.line returned incoming = returned ++ incoming.filterMap Envelope.parcel? := by
  rw [line, h.2, backlog, h.1]
  rfl

/-- What the forwarder of a lane has found is true as long as it has a reader, and there is nothing
in the slot if it has none. -/
structure LaneContents.Fits (c : LaneContents) (returned : List Parcel) : Prop where
  waiting : c.reads = true → c.handState = .waiting → returned = []
  carrying : c.reads = true → ∀ d, c.handState = .carrying d → ∀ p ∈ returned, d.seq < p.seq
  slot : c.reads = false → c.slot = none

/-- A message that comes before all others comes first when it is returned. -/
theorem LaneContents.backlog_insertParcel {c : LaneContents} {p : Parcel} {returned : List Parcel}
    (h : ∀ q ∈ c.backlog returned, p.seq < q.seq) :
    c.backlog (Broker.insertParcel p returned) = p :: c.backlog returned := by
  unfold backlog at *
  revert h
  cases c.handState.hand? with
  | none => exact Broker.insertParcel_eq_cons
  | some d =>
    intro h
    have hreturned : ∀ q ∈ returned, p.seq < q.seq :=
      fun q hq => h q (Broker.mem_insertParcel.mpr (.inr hq))
    rw [Broker.insertParcel_eq_cons hreturned]
    exact Broker.insertParcel_cons_of_lt (h d.toParcel (Broker.mem_insertParcel.mpr (.inl rfl)))

theorem LaneContents.isClosed_closed : LaneContents.closed.IsClosed := ⟨rfl, rfl⟩

theorem LaneContents.fits_of_isClosed {c : LaneContents} (h : c.IsClosed) (returned : List Parcel) :
    c.Fits returned where
  waiting _ hhandState := by rw [h.1] at hhandState; cases hhandState
  carrying _ d hhandState := by rw [h.1] at hhandState; cases hhandState
  slot _ := h.2

/-- A forwarder that neither waits nor has a message in hand has found nothing. -/
theorem LaneContents.fits_of_slot {c : LaneContents} {returned : List Parcel}
    (hhandState : c.handState ≠ .waiting) (hhand : c.handState.hand? = none)
    (hslot : c.reads = false → c.slot = none) : c.Fits returned where
  waiting _ h := absurd h hhandState
  carrying _ d h := by
    rw [h] at hhand
    cases hhand
  slot := hslot

/-- A message with its identifier, as it is known outside. -/
def Delivery.label (d : Delivery) : Nat × CorrelationId := (d.seq, d.id)

/-- The message that was settled. -/
def Outcome.label (o : Outcome) : Nat × CorrelationId := (o.seq, o.id)

/-- A message is known by its number, and by its identifier if it was published with one. -/
def Parcel.HasLabel (p : Parcel) (label : Nat × CorrelationId) : Prop :=
  label.1 = p.seq ∧ ∀ id, p.id = some id → label.2 = id

theorem Parcel.Becomes.hasLabel {p : Parcel} {d : Delivery} (h : p.Becomes d.toParcel) :
    p.HasLabel d.label := by
  refine ⟨h.seq, fun id hid => ?_⟩
  exact Option.some.inj (h.id id hid)

namespace Contents

/-- What passes through a lane. -/
def laneAt (s : Contents) (n : Nat) : LaneContents := (s.lanes[n]?).getD .closed

/-- The messages that are under way by a lane, in the order in which its reader is to get them. -/
def lineup (s : Contents) (n : Nat) : List Parcel := (s.laneAt n).line s.returned s.incoming

/-- Messages were handed out in the order in which they were accepted, and the others stand in line
behind them; no lane but the `n`-th is in use. -/
structure Lined (s : Contents) (n : Nat) (accepted : List Parcel) (handed : List Delivery) :
    Prop where
  numbered : s.Numbered accepted
  inOrder : List.Forall₂ Parcel.Becomes accepted (handed.map Delivery.toParcel ++ s.lineup n)
  tally : handed.map Delivery.label =
    s.outcomes.map Outcome.label ++ s.held.map fun h => h.delivery.label
  alone : ∀ i c, s.lanes[i]? = some c → i ≠ n → c.IsClosed
  fits : (s.laneAt n).Fits s.returned

variable {s s' : Contents} {n : Nat} {accepted : List Parcel} {handed : List Delivery}

theorem laneAt_of_some {c : LaneContents} (h : s.lanes[n]? = some c) : s.laneAt n = c := by
  rw [laneAt, h, Option.getD_some]

theorem laneAt_atLane {c : LaneContents} (h : s.lanes[n]? = some c)
    (f : LaneContents → LaneContents) :
    (s.atLane n f).laneAt n = f c := by
  rw [laneAt]
  show ((s.lanes.modify n f)[n]?).getD .closed = _
  rw [List.getElem?_modify_eq, h]
  rfl

/-- The forwarder of a lane that is not in use does nothing. -/
theorem moves_eq_of_isClosed {lane : Nat} (hmoves : Moves lane s s')
    (hclosed : ∀ c, s.lanes[lane]? = some c → c.IsClosed) : s' = s := by
  cases hmoves with
  | rest => rfl
  | turn hlaneAt hfree | takeReturned hlaneAt hfree =>
    rw [(hclosed _ hlaneAt).1] at hfree
    exact hfree.elim
  | takeNew hlaneAt hhandState | takeError hlaneAt hhandState | handOver hlaneAt hhandState
  | giveBack hlaneAt hhandState =>
    rw [(hclosed _ hlaneAt).1] at hhandState
    cases hhandState

/-- A forwarder leaves it to the reader whether it takes messages. -/
theorem reads_moves {lane : Nat} (hmoves : Moves lane s s') (n : Nat) :
    (s'.laneAt n).reads = (s.laneAt n).reads := by
  obtain ⟨f, hlanes, hreads⟩ := hmoves.lanes_eq
  rw [laneAt, laneAt, hlanes, List.getElem?_modify]
  split
  · cases s.lanes[n]? with
    | none => rfl
    | some c => exact hreads c
  · cases s.lanes[n]? <;> rfl

/-- A lane that is not in use stays so. -/
theorem isClosed_moves {lane : Nat} (hmoves : Moves lane s s') (hclosed : (s.laneAt n).IsClosed) :
    (s'.laneAt n).IsClosed := by
  by_cases hlane : lane = n
  · subst hlane
    rwa [moves_eq_of_isClosed hmoves fun c hc => by rwa [laneAt_of_some hc] at hclosed]
  · obtain ⟨f, hlanes, -⟩ := hmoves.lanes_eq
    rw [laneAt, hlanes, List.getElem?_modify_ne f s.lanes hlane]
    exact hclosed

/-- Nobody takes messages from a closed slot. -/
theorem reads_dropSlot (s : Contents) (n : Nat) : ((s.dropSlot n).laneAt n).reads = false := by
  have hlanes : (s.dropSlot n).lanes = s.lanes.modify n fun c =>
      { c with slot := none, reads := false } := by
    rw [dropSlot]
    cases (s.lanes[n]?).bind LaneContents.slot <;> rfl
  rw [laneAt, hlanes, List.getElem?_modify_eq]
  cases s.lanes[n]? <;> rfl

theorem held_dropSlot (s : Contents) (n : Nat) : (s.dropSlot n).held = s.held := by
  rw [dropSlot]
  cases (s.lanes[n]?).bind LaneContents.slot <;> rfl

namespace Lined

/-- The messages that were handed out and those in line are in the order of their numbers. -/
theorem sorted (h : s.Lined n accepted handed) :
    (handed.map Delivery.toParcel ++ s.lineup n).Pairwise fun p q => p.seq < q.seq :=
  Parcel.sorted_of_becomes h.inOrder (List.pairwise_append.mp h.numbered.sorted).1

theorem sorted_lineup (h : s.Lined n accepted handed) :
    (s.lineup n).Pairwise fun p q => p.seq < q.seq :=
  (List.pairwise_append.mp h.sorted).2.1

/-- A change of the lane in use leaves the others alone. -/
theorem alone_atLane (h : s.Lined n accepted handed) (f : LaneContents → LaneContents) :
    ∀ i c, (s.lanes.modify n f)[i]? = some c → i ≠ n → c.IsClosed := by
  intro i c hc hi
  rw [List.getElem?_modify_ne f s.lanes (Ne.symm hi)] at hc
  exact h.alone i c hc hi

/-- Messages may move as long as the line stays the same but for identifiers. -/
theorem of_lineup (h : s.Lined n accepted handed) (hnumbered : s'.Numbered accepted)
    (hlineup : List.Forall₂ Parcel.Becomes (s.lineup n) (s'.lineup n))
    (houtcomes : s'.outcomes = s.outcomes) (hheld : s'.held = s.held)
    (halone : ∀ i c, s'.lanes[i]? = some c → i ≠ n → c.IsClosed)
    (hfits : (s'.laneAt n).Fits s'.returned) : s'.Lined n accepted handed where
  numbered := hnumbered
  inOrder := Parcel.forall₂_becomes_trans h.inOrder
    (List.rel_append (Parcel.forall₂_becomes_refl _) hlineup)
  tally := houtcomes ▸ hheld ▸ h.tally
  alone := halone
  fits := hfits

/-- The lane in use may change together with the returned messages and the queue. -/
theorem of_line (h : s.Lined n accepted handed) {c : LaneContents} (hlaneAt : s.lanes[n]? = some c)
    {f : LaneContents → LaneContents} (returned : List Parcel) (incoming : List Envelope)
    (hline : List.Forall₂ Parcel.Becomes (c.line s.returned s.incoming)
      ((f c).line returned incoming)) (hfits : (f c).Fits returned) :
    (({ s with returned := returned, incoming := incoming } : Contents).atLane n f).Lined n accepted
      handed := by
  have hlaneAt' :
      (({ s with returned := returned, incoming := incoming } : Contents).atLane n f).laneAt n =
      f c := laneAt_atLane hlaneAt f
  refine h.of_lineup (h.numbered.of_eq rfl rfl rfl) ?_ rfl rfl (h.alone_atLane f) ?_
  · rw [lineup, lineup, laneAt_of_some hlaneAt, hlaneAt']
    exact hline
  · rw [hlaneAt']
    exact hfits

/-- The forwarder of the lane in use may take the first returned message in hand. -/
theorem takeReturned (h : s.Lined n accepted handed) {c : LaneContents} {p : Parcel}
    {returned : List Parcel} {d : Delivery} (hlaneAt : s.lanes[n]? = some c)
    (hfree : c.handState.IsFree) (hreturned : s.returned = p :: returned)
    (hd : p.Becomes d.toParcel) :
    (({ s with returned := returned } : Contents).atLane n fun c =>
      c.withHandState (.carrying d)).Lined n accepted handed := by
  have hsorted := h.sorted_lineup
  have hfits := h.fits
  have hbacklog : c.backlog s.returned = p :: returned := by
    rw [LaneContents.backlog, HandState.hand?_of_isFree hfree, hreturned]
    rfl
  rw [laneAt_of_some hlaneAt] at hfits
  rw [lineup, laneAt_of_some hlaneAt, LaneContents.line, hbacklog] at hsorted
  have hlt : ∀ q ∈ returned, d.toParcel.seq < q.seq := by
    intro q hq
    have hpairs := (List.pairwise_append.mp (List.pairwise_append.mp hsorted).1).2.1
    rw [hd.seq]
    exact (List.pairwise_cons.mp hpairs).1 q hq
  refine h.of_line hlaneAt returned s.incoming ?_ ?_
  · rw [LaneContents.line, hbacklog]
    refine List.rel_append (List.rel_append (Parcel.forall₂_becomes_refl _) ?_)
      (Parcel.forall₂_becomes_refl _)
    show List.Forall₂ Parcel.Becomes (p :: returned) (Broker.insertParcel d.toParcel returned)
    rw [Broker.insertParcel_eq_cons hlt]
    exact .cons hd (Parcel.forall₂_becomes_refl _)
  · refine ⟨fun _ hhandState => (by cases hhandState), fun _ e hhandState q hq => ?_, hfits.slot⟩
    cases hhandState
    exact hlt q hq

/-- It may take the first message of the queue in hand if it has found no returned one. -/
theorem takeNew (h : s.Lined n accepted handed) {c : LaneContents} {p : Parcel}
    {incoming : List Envelope} {d : Delivery} (hlaneAt : s.lanes[n]? = some c)
    (hhandState : c.handState = .waiting) (hincoming : s.incoming = .message p :: incoming)
    (hd : p.Becomes d.toParcel) :
    (({ s with incoming := incoming } : Contents).atLane n fun c =>
      c.withHandState (.carrying d)).Lined n accepted handed := by
  have hsorted := h.sorted_lineup
  have hfits := h.fits
  have hbacklog : c.backlog s.returned = s.returned := by
    rw [LaneContents.backlog, hhandState]
    rfl
  have hnew : s.incoming.filterMap Envelope.parcel? = p :: incoming.filterMap Envelope.parcel? := by
    rw [hincoming]
    rfl
  rw [laneAt_of_some hlaneAt] at hfits
  rw [lineup, laneAt_of_some hlaneAt, LaneContents.line, hbacklog, hnew] at hsorted
  -- Without a reader there may be returned messages, but they come before the new one.
  have hlt : ∀ q ∈ s.returned, q.seq < d.toParcel.seq := by
    intro q hq
    rw [hd.seq]
    exact (List.pairwise_append.mp hsorted).2.2 q (List.mem_append_right _ hq) p
      (List.mem_cons_self ..)
  refine h.of_line hlaneAt s.returned incoming ?_ ?_
  · rw [LaneContents.line, LaneContents.line, hbacklog, hnew, List.append_assoc, List.append_assoc]
    refine List.rel_append (Parcel.forall₂_becomes_refl _) ?_
    show List.Forall₂ Parcel.Becomes _ (Broker.insertParcel d.toParcel s.returned ++
      incoming.filterMap Envelope.parcel?)
    rw [Broker.insertParcel_eq_concat hlt, List.append_assoc]
    exact List.rel_append (Parcel.forall₂_becomes_refl _)
      (.cons hd (Parcel.forall₂_becomes_refl _))
  · refine ⟨fun _ hhandState => (by cases hhandState), fun hreads e _ q hq => ?_, hfits.slot⟩
    have hnone : s.returned = [] := hfits.waiting hreads hhandState
    exact absurd (hnone ▸ hq : q ∈ []) List.not_mem_nil

/-- What the forwarder of the lane in use does leaves the line as it is. -/
theorem moves (h : s.Lined n accepted handed) {lane : Nat} (hmoves : Moves lane s s') :
    s'.Lined n accepted handed := by
  by_cases hlane : lane = n
  swap
  · rw [moves_eq_of_isClosed hmoves fun c hc => h.alone lane c hc hlane]
    exact h
  subst hlane
  have hfits := h.fits
  cases hmoves with
  | rest => exact h
  | @turn c g hlaneAt hfree hhand hwait =>
    rw [laneAt_of_some hlaneAt] at hfits
    refine h.of_line hlaneAt s.returned s.incoming ?_ ?_
    · rw [LaneContents.line, LaneContents.line, LaneContents.backlog, LaneContents.backlog,
        LaneContents.withHandState, hhand, HandState.hand?_of_isFree hfree]
      exact Parcel.forall₂_becomes_refl _
    · refine ⟨fun hreads hhandState => ?_, fun hreads d hhandState => ?_, hfits.slot⟩
      · exact (hwait hhandState).elim (hfits.waiting hreads) id
      · rw [show g = .carrying d from hhandState] at hhand
        cases hhand
  | takeReturned hlaneAt hfree hreturned hd => exact h.takeReturned hlaneAt hfree hreturned hd
  | takeNew hlaneAt hhandState hincoming hd => exact h.takeNew hlaneAt hhandState hincoming hd
  | @takeError c text incoming hlaneAt hhandState hincoming =>
    rw [laneAt_of_some hlaneAt] at hfits
    refine h.of_line hlaneAt s.returned incoming ?_ ?_
    · rw [LaneContents.line, LaneContents.line, LaneContents.backlog, LaneContents.backlog,
        hhandState, hincoming]
      exact Parcel.forall₂_becomes_refl _
    · exact LaneContents.fits_of_slot (by rintro ⟨⟩) rfl hfits.slot
  | @handOver c d hlaneAt hhandState hslot hreads =>
    rw [laneAt_of_some hlaneAt] at hfits
    -- As long as there is a reader, no returned message comes before the one in hand.
    have hbacklog : c.backlog s.returned = d.toParcel :: s.returned := by
      rw [LaneContents.backlog, hhandState]
      exact Broker.insertParcel_eq_cons (hfits.carrying hreads d hhandState)
    refine h.of_line hlaneAt s.returned s.incoming ?_ ?_
    · rw [LaneContents.line, hbacklog, hslot]
      exact Parcel.forall₂_becomes_refl _
    · refine LaneContents.fits_of_slot (by rintro ⟨⟩) rfl fun hnot => ?_
      rw [show c.reads = false from hnot] at hreads
      cases hreads
  | @giveBack c d hlaneAt hhandState =>
    rw [laneAt_of_some hlaneAt] at hfits
    refine h.of_line hlaneAt (Broker.insertParcel d.toParcel s.returned) s.incoming ?_ ?_
    · rw [LaneContents.line, LaneContents.line, LaneContents.backlog, LaneContents.backlog,
        hhandState]
      exact Parcel.forall₂_becomes_refl _
    · exact LaneContents.fits_of_slot (by rintro ⟨⟩) rfl hfits.slot

/-- Messages that are accepted join the end of the line. -/
theorem accept (h : s.Lined n accepted handed) {new : List Parcel}
    (hnumbered : s'.Numbered (accepted ++ new)) (hlanes : s'.lanes = s.lanes)
    (hreturned : s'.returned = s.returned)
    (hincoming : s'.incoming.filterMap Envelope.parcel? =
      s.incoming.filterMap Envelope.parcel? ++ new)
    (houtcomes : s'.outcomes = s.outcomes) (hheld : s'.held = s.held) :
    s'.Lined n (accepted ++ new) handed := by
  have hlaneAt : s'.laneAt n = s.laneAt n := by rw [laneAt, hlanes, laneAt]
  have hlineup : s'.lineup n = s.lineup n ++ new := by
    rw [lineup, hlaneAt, hreturned, LaneContents.line, hincoming, ← List.append_assoc, lineup,
      LaneContents.line]
  constructor
  case numbered => exact hnumbered
  case inOrder =>
    rw [hlineup, ← List.append_assoc]
    exact List.rel_append h.inOrder (Parcel.forall₂_becomes_refl new)
  case tally => exact houtcomes ▸ hheld ▸ h.tally
  case alone => exact hlanes ▸ h.alone
  case fits => exact hlaneAt ▸ hreturned ▸ h.fits

/-- An envelope that gets room joins the end of the line. -/
theorem refills (h : s.Lined n accepted handed) (hrefill : Refills s s') :
    s'.Lined n (accepted ++ s.admitted s') handed := by
  have hnumbered := h.numbered.refills hrefill
  cases hrefill with
  | none => exact h.accept hnumbered rfl rfl (by simp [admitted_of_blocked_eq]) rfl rfl
  | @one ticket e rest hblocked =>
    refine h.accept hnumbered rfl rfl ?_ rfl rfl
    rw [admitted_of_cons hblocked h.numbered.tickets]
    show (s.incoming ++ [e]).filterMap Envelope.parcel? = _
    rw [List.filterMap_append]
    cases e <;> rfl

/-- What a forwarder does in one step leaves the line as it is, but for a message that joins it. -/
theorem forwards (h : s.Lined n accepted handed) {lane : Nat} (hforwards : Forwards lane s s') :
    s'.Lined n (accepted ++ s.admitted s') handed := by
  obtain ⟨s₁, hrefill, hmoves⟩ := hforwards
  rw [hmoves.admitted_eq]
  exact (h.refills hrefill).moves hmoves

/-- The reader of the lane in use gets the first message of the line. -/
theorem receive (h : s.Lined n accepted handed) {c : LaneContents} {d : Delivery}
    (hlaneAt : s.lanes[n]? = some c) (hslot : c.slot = some d) :
    ({ s.atLane n (fun c => { c with slot := none }) with
      held := s.held ++ [Holding.mk d false] } : Contents).Lined n accepted (handed ++ [d]) := by
  have hfits := h.fits
  have hinOrder := h.inOrder
  rw [laneAt_of_some hlaneAt] at hfits
  rw [lineup, laneAt_of_some hlaneAt, LaneContents.line, hslot] at hinOrder
  have hlaneAt' : ({ s.atLane n (fun c => { c with slot := none }) with
      held := s.held ++ [Holding.mk d false] } : Contents).laneAt n = { c with slot := none } :=
    laneAt_atLane hlaneAt _
  constructor
  case numbered => exact h.numbered.of_eq rfl rfl rfl
  case inOrder =>
    rw [lineup, hlaneAt', List.map_append, List.append_assoc]
    exact hinOrder
  case tally =>
    show (handed ++ [d]).map Delivery.label =
      s.outcomes.map Outcome.label ++ (s.held ++ [Holding.mk d false]).map fun h => h.delivery.label
    rw [List.map_append, List.map_append, h.tally, List.append_assoc]
    rfl
  case alone => exact h.alone_atLane _
  case fits =>
    rw [hlaneAt']
    exact ⟨hfits.waiting, hfits.carrying, fun _ => rfl⟩

/-- The only message that was handed out and not settled is settled and let go of. -/
theorem settle (h : s.Lined n accepted handed) {d : Delivery} (hheld : s.held = [⟨d, false⟩])
    (disposition : Disposition) :
    ({ s with
      held := []
      outcomes := s.outcomes ++ [⟨d.seq, d.id, disposition⟩] } : Contents).Lined n accepted
        handed := by
  have htally := h.tally
  rw [hheld] at htally
  refine ⟨h.numbered.of_eq rfl rfl rfl, h.inOrder, ?_, h.alone, h.fits⟩
  rw [htally, List.map_append, List.map_nil, List.append_nil]
  rfl

/-- The reader of the lane in use stops taking messages: what waits in the slot goes back to the
front of the line. -/
theorem dropSlot (h : s.Lined n accepted handed) : (s.dropSlot n).Lined n accepted handed := by
  rw [Contents.dropSlot]
  cases hlaneAt : s.lanes[n]? with
  | none =>
    rw [Option.bind_none, Option.elim_none, atLane_eq_self fun c hc =>
      absurd (hlaneAt.symm.trans hc) (by simp)]
    exact h
  | some c =>
    have hfits (returned : List Parcel) :
        ({ c with slot := none, reads := false } : LaneContents).Fits returned :=
      ⟨fun h => (by cases h), fun h => (by cases h), fun _ => rfl⟩
    rw [Option.bind_some]
    cases hslot : c.slot with
    | none =>
      refine h.of_line hlaneAt s.returned s.incoming ?_ (hfits _)
      rw [LaneContents.line, LaneContents.line, hslot]
      exact Parcel.forall₂_becomes_refl _
    | some d =>
      have hsorted := h.sorted_lineup
      rw [lineup, laneAt_of_some hlaneAt, LaneContents.line, hslot] at hsorted
      have hfirst : ∀ q ∈ c.backlog s.returned, d.toParcel.seq < q.seq :=
        (List.pairwise_cons.mp (List.pairwise_append.mp hsorted).1).1
      refine h.of_line hlaneAt (Broker.insertParcel d.toParcel s.returned) s.incoming ?_ (hfits _)
      rw [LaneContents.line, LaneContents.line, hslot]
      show List.Forall₂ Parcel.Becomes (d.toParcel :: c.backlog s.returned ++ _)
        (c.backlog (Broker.insertParcel d.toParcel s.returned) ++ _)
      -- The message comes before the one in hand, so it makes no difference which of the two is
      -- back.
      rw [LaneContents.backlog_insertParcel hfirst]
      exact Parcel.forall₂_becomes_refl _

/-- A new lane takes the place of one that is not in use any more. -/
theorem consume (h : s.Lined n accepted handed) (hclosed : (s.laneAt n).IsClosed) :
    ({ s with lanes := s.lanes ++ [⟨.searching, none, true⟩] } : Contents).Lined s.lanes.length
      accepted handed := by
  have hall : ∀ (i : Nat) (c : LaneContents), s.lanes[i]? = some c → c.IsClosed := by
    intro i c hc
    by_cases hi : i = n
    · rw [hi] at hc
      rwa [laneAt_of_some hc] at hclosed
    · exact h.alone i c hc hi
  have hlaneAt :
      ({ s with lanes := s.lanes ++ [⟨.searching, none, true⟩] } : Contents).laneAt s.lanes.length =
      ⟨.searching, none, true⟩ := laneAt_of_some (by simp)
  have hlineup : ({ s with lanes := s.lanes ++ [⟨.searching, none, true⟩] } : Contents).lineup
      s.lanes.length = s.lineup n := by
    rw [lineup, lineup, hlaneAt, LaneContents.line_of_isClosed hclosed]
    rfl
  constructor
  case numbered => exact h.numbered.of_eq rfl rfl rfl
  case inOrder => exact hlineup ▸ h.inOrder
  case tally => exact h.tally
  case alone =>
    intro i c hc hi
    have hi' : i < s.lanes.length := by
      obtain ⟨hlt, -⟩ := List.getElem?_eq_some_iff.mp hc
      rw [List.length_append, List.length_singleton] at hlt
      omega
    rw [List.getElem?_append_left hi'] at hc
    exact hall i c hc
  case fits =>
    rw [hlaneAt]
    exact LaneContents.fits_of_slot (by rintro ⟨⟩) rfl fun h => by cases h

/-! ### What the line says -/

/-- The messages that were handed out are those that were accepted first. -/
theorem handed_becomes (h : s.Lined n accepted handed) :
    List.Forall₂ (fun p d => p.Becomes d.toParcel) (accepted.take handed.length) handed := by
  have htake :=
    List.forall₂_take_append accepted (handed.map Delivery.toParcel) (s.lineup n) h.inOrder
  rw [List.length_map] at htake
  exact List.forall₂_map_right_iff.mp htake

/-- The other messages stand in line. -/
theorem lineup_becomes (h : s.Lined n accepted handed) :
    List.Forall₂ Parcel.Becomes (accepted.drop handed.length) (s.lineup n) := by
  have hdrop :=
    List.forall₂_drop_append accepted (handed.map Delivery.toParcel) (s.lineup n) h.inOrder
  rwa [List.length_map] at hdrop

theorem length_handed (h : s.Lined n accepted handed) :
    handed.length = s.outcomes.length + s.held.length := by
  have hlength := congrArg List.length h.tally
  rwa [List.length_append, List.length_map, List.length_map, List.length_map] at hlength

/-- The messages that were settled are those that were handed out first. -/
theorem label_outcomes (h : s.Lined n accepted handed) :
    (handed.take s.outcomes.length).map Delivery.label = s.outcomes.map Outcome.label := by
  rw [List.map_take, h.tally]
  exact List.take_left' (List.length_map _)

theorem outcomes_hasLabel (h : s.Lined n accepted handed) :
    List.Forall₂ (fun p o => p.HasLabel o.label) (accepted.take s.outcomes.length) s.outcomes := by
  have hle : s.outcomes.length ≤ handed.length := by
    have := h.length_handed
    omega
  have htake := List.forall₂_take s.outcomes.length h.handed_becomes
  rw [List.take_take, Nat.min_eq_left hle] at htake
  rw [← List.forall₂_map_right_iff, ← h.label_outcomes, List.forall₂_map_right_iff]
  exact htake.imp fun _ _ hp => hp.hasLabel

/-- No message was handed out twice. -/
theorem nodup_handed (h : s.Lined n accepted handed) : (handed.map Delivery.seq).Nodup := by
  have hsorted := (List.pairwise_append.mp h.sorted).1
  rw [List.pairwise_map] at hsorted
  rw [List.Nodup, List.pairwise_map]
  exact hsorted.imp Nat.ne_of_lt

/-- No message was settled twice. -/
theorem nodup_outcomes (h : s.Lined n accepted handed) : (s.outcomes.map Outcome.seq).Nodup := by
  have hseq : (handed.take s.outcomes.length).map Delivery.seq = s.outcomes.map Outcome.seq := by
    have hlabels := congrArg (List.map Prod.fst) h.label_outcomes
    rwa [List.map_map, List.map_map] at hlabels
  rw [← hseq, List.map_take]
  exact h.nodup_handed.sublist (List.take_sublist _ _)

end Lined

end Contents

namespace Broker

variable {b : Broker} {n : Nat} {accepted : List Parcel} {handed : List Delivery}

/-- A message that is published at once joins the end of the line. -/
theorem lined_publish (h : b.contents.Lined n accepted handed) (id : Option String)
    (payload : Json) :
    (b.publish id payload).1.contents.Lined n (accepted ++ b.published id payload) handed := by
  have hnumbered := h.numbered.publish (p := ⟨b.nextSeq, id.map CorrelationId.given, payload⟩) rfl
    (blocked_of_publish_accepted (b := b) (i := id) (j := payload))
  rw [contents_publish]
  unfold published
  revert hnumbered
  cases (b.publish id payload).2 with
  | accepted =>
    intro hnumbered
    refine h.accept hnumbered rfl rfl ?_ rfl rfl
    exact List.filterMap_append
  | waiting | refused =>
    exact fun hnumbered => h.accept hnumbered rfl rfl (List.append_nil _).symm rfl rfl

theorem lined_fail (h : b.contents.Lined n accepted handed) (text : String) :
    (b.fail text).1.contents.Lined n accepted handed := by
  rw [fail, contents_send]
  have hnumbered := h.numbered.fail text (b.send (.error text)).2
  revert hnumbered
  rw [← List.append_nil accepted]
  cases (b.send (.error text)).2 with
  | accepted =>
    intro hnumbered
    refine h.accept hnumbered rfl rfl ?_ rfl rfl
    exact List.filterMap_append
  | waiting | refused =>
    exact fun hnumbered => h.accept hnumbered rfl rfl (List.append_nil _).symm rfl rfl

theorem lined_giveUp (h : b.contents.Lined n accepted handed) (ticket : Nat) :
    (b.giveUp ticket).contents.Lined n accepted handed :=
  h.of_lineup (h.numbered.giveUp ticket) (Parcel.forall₂_becomes_refl _) rfl rfl h.alone h.fits

end Broker

end Courier
