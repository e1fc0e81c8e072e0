import Courier.Proofs.Broker.Conservation

/-!
# What was published under a number

A publication takes the next number. From then on its message may wait for room, be accepted, given
up or received, and returned any number of times; no other message gets the number
(`Ledger.mem_published_after`), so whoever receives a message under it receives the payload that was
published (`Ledger.payload_of_run`).
-/

namespace Courier

namespace Broker

variable {b : Broker}

/-- Events other than a publication leave the next number as it is, and let no further message wait
for room. -/
theorem waiting_apply_sublist {e : Event} (h : ∀ id payload, e ≠ .publish id payload) :
    (b.apply e).contents.waiting.Sublist b.contents.waiting ∧ (b.apply e).nextSeq = b.nextSeq := by
  have hsame {s' : Contents} (hblocked : s'.blocked = b.contents.blocked)
      (hseq : s'.nextSeq = b.contents.nextSeq) :
      s'.waiting.Sublist b.contents.waiting ∧ s'.nextSeq = b.contents.nextSeq := by
    rw [Contents.waiting, hblocked]
    exact ⟨.refl _, hseq⟩
  have hcontents {s' : Contents} (h : s' = b.contents) :
      s'.waiting.Sublist b.contents.waiting ∧ s'.nextSeq = b.contents.nextSeq := h ▸ hsame rfl rfl
  have hforwards {s' : Contents} {lane : Nat} (hforwards : Contents.Forwards lane b.contents s') :
      s'.waiting.Sublist b.contents.waiting ∧ s'.nextSeq = b.contents.nextSeq := by
    obtain ⟨s₁, hrefill, hmoves⟩ := hforwards
    rw [Contents.waiting, hmoves.blocked_eq, hmoves.nextSeq_eq]
    cases hrefill with
    | none => exact ⟨.refl _, rfl⟩
    | one hblocked =>
      rw [Contents.waiting, hblocked]
      exact ⟨(List.sublist_cons_self _ _).filterMap _, rfl⟩
  show (b.apply e).contents.waiting.Sublist b.contents.waiting ∧
    (b.apply e).contents.nextSeq = b.contents.nextSeq
  cases e with
  | publish id payload => exact absurd rfl (h id payload)
  | fail text =>
    show (b.send (.error text)).1.contents.waiting.Sublist _ ∧
      (b.send (.error text)).1.contents.nextSeq = _
    rw [contents_send]
    cases (b.send (.error text)).2 with
    | accepted | refused => exact hsame rfl rfl
    | waiting ticket =>
      have hwaiting :
          (b.contents.afterSend (.error text) (.waiting ticket)).waiting = b.contents.waiting := by
        simp [Contents.waiting, Contents.afterSend, Envelope.parcel?]
      exact ⟨hwaiting ▸ .refl _, rfl⟩
  | giveUp ticket => exact ⟨List.filter_sublist.filterMap _, rfl⟩
  | consume consumer owner =>
    show (b.consume consumer owner).1.contents.waiting.Sublist _ ∧
      (b.consume consumer owner).1.contents.nextSeq = _
    rcases contents_consume b consumer owner with ⟨error, -, hcontents⟩ | ⟨-, hcontents⟩
    all_goals rw [hcontents]; exact hsame rfl rfl
  | receive lane =>
    show (b.takeMessage lane).contents.waiting.Sublist _ ∧ (b.takeMessage lane).contents.nextSeq = _
    cases hslot : (b.lanes[lane]?).bind Lane.slot with
    | none =>
      rw [takeMessage_eq_self hslot]
      exact hsame rfl rfl
    | some d =>
      rw [contents_takeMessage hslot]
      exact hsame rfl rfl
  | settle seq disposition =>
    show (b.settle seq disposition).contents.waiting.Sublist _ ∧
      (b.settle seq disposition).contents.nextSeq = _
    cases hfind : b.held.find? fun h => h.delivery.seq = seq with
    | none =>
      rw [settle_eq_self hfind]
      exact hsame rfl rfl
    | some g =>
      rw [contents_settle hfind]
      exact hsame rfl rfl
  | dropMessage seq =>
    show (b.dropMessage seq).contents.waiting.Sublist _ ∧ (b.dropMessage seq).contents.nextSeq = _
    cases hfind : b.held.find? fun h => h.delivery.seq = seq with
    | none =>
      rw [dropMessage_eq_self hfind]
      exact hsame rfl rfl
    | some g =>
      rw [contents_dropMessage hfind]
      cases g.settled <;> exact hsame rfl rfl
  | dropMessages lane =>
    show (b.dropMessages lane).contents.waiting.Sublist _ ∧
      (b.dropMessages lane).contents.nextSeq = _
    rw [contents_dropMessages, Contents.dropSlot]
    cases (b.contents.lanes[lane]?).bind LaneContents.slot <;> exact hsame rfl rfl
  | forward lane favourNew => exact hforwards (forwards_advance b lane favourNew)
  | overrun lane favourNew => exact hforwards (forwards_overrun b lane favourNew)
  | _ => exact hcontents (contents_apply_of_isQuiet b rfl)

/-- The message of a publication has the next number, whether it is accepted or has to wait for
room. -/
theorem published_subset_waiting (id : Option String) (payload : Json) :
    b.published id payload ++ (b.publish id payload).1.contents.waiting ⊆
        b.contents.waiting ++ [⟨b.nextSeq, id.map CorrelationId.given, payload⟩] ∧
      (b.publish id payload).1.nextSeq = b.nextSeq + 1 := by
  show _ ∧ (b.publish id payload).1.contents.nextSeq = _
  rw [contents_publish, published]
  cases (b.publish id payload).2 with
  | accepted =>
    refine ⟨?_, rfl⟩
    rw [if_pos rfl]
    exact (List.perm_append_comm : ([_] ++ b.contents.waiting).Perm _).subset
  | waiting ticket =>
    refine ⟨?_, rfl⟩
    rw [if_neg (by simp)]
    simp [Contents.waiting, Contents.afterSend, Envelope.parcel?, contents]
  | refused =>
    refine ⟨?_, rfl⟩
    rw [if_neg (by simp)]
    exact List.subset_append_left _ _

end Broker

namespace Ledger

variable {l l' : Ledger} {seq : Nat} {payload : Json}

/-- The messages that were accepted, and those that wait for room. -/
def submitted (l : Ledger) : List Parcel := l.accepted ++ l.broker.contents.waiting

/-- What is accepted in an event that is no publication had waited for room. -/
theorem accepts_subset {b : Broker} {e : Broker.Event} (h : ∀ id payload, e ≠ .publish id payload) :
    b.accepts e ⊆ b.contents.waiting := by
  have hadmitted (s' : Contents) : b.contents.admitted s' ⊆ b.contents.waiting := by
    intro p hp
    obtain ⟨f, hf, hparcel⟩ := List.mem_filterMap.mp hp
    split at hparcel
    · cases hparcel
    · exact List.mem_filterMap.mpr ⟨f, hf, hparcel⟩
  cases e with
  | publish id payload => exact absurd rfl (h id payload)
  | forward | overrun => exact hadmitted _
  | _ => exact List.nil_subset _

theorem submitted_after {e : Broker.Event} (h : ∀ id payload, e ≠ .publish id payload) :
    (l.after e).submitted ⊆ l.submitted ∧ (l.after e).broker.nextSeq = l.broker.nextSeq := by
  obtain ⟨hwaiting, hseq⟩ := Broker.waiting_apply_sublist h
  refine ⟨?_, hseq⟩
  show l.accepted ++ l.broker.accepts e ++ (l.broker.apply e).contents.waiting ⊆ l.submitted
  rw [List.append_assoc, List.append_subset]
  refine ⟨List.subset_append_left _ _, List.append_subset.mpr ⟨?_, ?_⟩⟩
  · exact List.Subset.trans (accepts_subset h) (List.subset_append_right _ _)
  · exact List.Subset.trans hwaiting.subset (List.subset_append_right _ _)

theorem submitted_publish (id : Option String) (payload : Json) :
    (l.after (.publish id payload)).submitted ⊆
        l.submitted ++ [⟨l.broker.nextSeq, id.map CorrelationId.given, payload⟩] ∧
      (l.after (.publish id payload)).broker.nextSeq = l.broker.nextSeq + 1 := by
  obtain ⟨hwaiting, hseq⟩ := Broker.published_subset_waiting (b := l.broker) id payload
  refine ⟨?_, hseq⟩
  show l.accepted ++ l.broker.published id payload ++
    (l.broker.publish id payload).1.contents.waiting ⊆ _
  rw [submitted, List.append_assoc, List.append_assoc]
  exact List.append_subset.mpr ⟨List.subset_append_left _ _,
    List.Subset.trans hwaiting (List.subset_append_right _ _)⟩

/-- The number is given out, and every message that has it carries the payload. -/
structure Carries (l : Ledger) (seq : Nat) (payload : Json) : Prop where
  taken : seq < l.broker.nextSeq
  same : ∀ p ∈ l.submitted, p.seq = seq → p.payload = payload

/-- Numbers are given out once. -/
theorem Carries.after (h : l.Carries seq payload) (e : Broker.Event) :
    (l.after e).Carries seq payload := by
  by_cases hpublish : ∃ id other, e = .publish id other
  · obtain ⟨id, other, rfl⟩ := hpublish
    obtain ⟨hsubset, hseq⟩ := submitted_publish (l := l) id other
    refine ⟨hseq ▸ Nat.lt_succ_of_lt h.taken, fun p hp heq => ?_⟩
    rcases List.mem_append.mp (hsubset hp) with hold | hnew
    · exact h.same p hold heq
    · rw [List.mem_singleton.mp hnew] at heq
      exact absurd heq (Nat.ne_of_gt h.taken)
  · have hother : ∀ id payload, e ≠ .publish id payload :=
      fun id other heq => hpublish ⟨id, other, heq⟩
    obtain ⟨hsubset, hseq⟩ := submitted_after (l := l) hother
    exact ⟨hseq ▸ h.taken, fun p hp => h.same p (hsubset hp)⟩

/-- A message that is published is the only one that has its number. -/
theorem carries_publish (h : l.broker.contents.Sound l.accepted l.received) (id : Option String)
    (payload : Json) : (l.after (.publish id payload)).Carries l.broker.nextSeq payload := by
  obtain ⟨hsubset, hseq⟩ := submitted_publish (l := l) id payload
  refine ⟨hseq ▸ Nat.lt_succ_self _, fun p hp heq => ?_⟩
  rcases List.mem_append.mp (hsubset hp) with hold | hnew
  · exact absurd heq (Nat.ne_of_lt (h.numbered.below p hold))
  · rw [List.mem_singleton.mp hnew]

/-- What is received under the number of a publication, then or after any number of returns, is what
was published. -/
theorem payload_of_run {events : List Broker.Event} {d : Delivery}
    (h : l.broker.contents.Sound l.accepted l.received) (hcarries : l.Carries seq payload)
    (hrun : l.run events = some l') (hd : d ∈ l'.received) (hseq : d.seq = seq) :
    d.payload = payload := by
  obtain ⟨hsound', hcarries'⟩ := foldlM_induction
    (motive := fun x => x.broker.contents.Sound x.accepted x.received ∧ x.Carries seq payload)
    hrun ⟨h, hcarries⟩ fun e _ x x' ⟨hx, hxcarries⟩ hstep => by
      obtain rfl := step_eq_some hstep
      exact ⟨sound_after hx e, hxcarries.after e⟩
  obtain ⟨p, hp, hbecomes⟩ := hsound'.keptReceived d hd
  rw [← hcarries'.same p (List.mem_append_left _ hp) (hbecomes.seq.symm.trans hseq)]
  exact hbecomes.payload

end Ledger

end Courier
