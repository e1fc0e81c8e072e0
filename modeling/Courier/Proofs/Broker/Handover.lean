import Courier.Proofs.Broker.LaneEvents

/-!
# One forwarder after the other

Forwarders of any number of lanes may be under way at once. They stand in line for the queue, in the
order in which they have begun, and the first one in line has it until it ends (`Handover.Sound`).
Until then nothing comes to the lanes of those behind it, and their waits for an envelope have not
begun.

`Handover.begun` remembers the order. It is the order in which the lanes were opened if each
forwarder takes its first step before those that were opened after it (`Handover.inTurn`).
-/

namespace Courier

namespace Forwarder

theorem isQueued_of_hasQueue {f : Forwarder} (h : f.hasQueue) : f.isQueued := by
  cases f <;> first | rfl | cases h

theorem isEnded_of_isQueued {f : Forwarder} (h : f.isQueued) : f.isEnded = false := by
  cases f <;> first | rfl | cases h

end Forwarder

/-- Whether nothing waits for the reader of a lane. -/
structure Lane.IsBare (l : Lane) : Prop where
  slot : l.slot = none
  errorSlot : l.errorSlot = none

theorem Lane.IsBare.of_same {l l' : Lane} (h : l.IsBare) (hslot : l'.slot = l.slot)
    (herrorSlot : l'.errorSlot = l.errorSlot) : l'.IsBare :=
  ⟨hslot.trans h.slot, herrorSlot.trans h.errorSlot⟩

theorem Lane.IsBare.changedByUser {l l' : Lane} (h : l.IsBare) (hchanged : l.ChangedByUser l') :
    l'.IsBare where
  slot := hchanged.slot.elim (fun hsame => hsame.trans h.slot) id
  errorSlot := hchanged.errorSlot.elim (fun hsame => hsame.trans h.errorSlot) id

namespace Broker

variable {b b' : Broker} {n : Nat} {l l' : Lane} {line : List Nat} {incoming : List Envelope}
  {returned : List Parcel}

/-- Whether the forwarder of a lane has not ended. -/
def isUnderWay (b : Broker) (n : Nat) : Bool := (b.lanes[n]?).any fun l => !l.forwarder.isEnded

theorem isUnderWay_eq (hl : b.lanes[n]? = some l) : b.isUnderWay n = !l.forwarder.isEnded := by
  rw [isUnderWay, hl, Option.any_some]

/-- A forwarder stays in line, or out of it, or joins it, or ends and leaves it. -/
theorem Advances.line_cases (h : b.Advances n l l' line incoming returned) :
    line = b.line ∧ l'.forwarder.isEnded = l.forwarder.isEnded ∧
        l'.forwarder.isQueued = l.forwarder.isQueued ∨
      line = b.line ++ [n] ∧ l.forwarder = .starting ∧ l'.forwarder = .queueing ∨
      line = b.line.erase n ∧ l.forwarder.isEnded = false ∧ l'.forwarder = .ended := by
  cases h with
  | rest => exact .inl ⟨rfl, rfl, rfl⟩
  | join h => exact .inr (.inl ⟨rfl, h, rfl⟩)
  | enter h | takeReturned h | choose h | park h | handOver h | report h =>
    rw [h]
    exact .inl ⟨rfl, rfl, rfl⟩
  | followSign h | timeOut h =>
    rcases h with h | h
    all_goals
      rw [h]
      exact .inl ⟨rfl, rfl, rfl⟩
  | takeMessage h | takeError h =>
    have hqueued := Forwarder.isQueued_of_hasQueue (Forwarder.hasQueue_of_isAwaitingNew h)
    exact .inl ⟨rfl, (Forwarder.isEnded_of_isQueued hqueued).symm, hqueued.symm⟩
  | reportLast h | giveBack h =>
    rw [h]
    exact .inr (.inr ⟨rfl, rfl, rfl⟩)
  | finish h => exact .inr (.inr ⟨rfl, h, rfl⟩)

/-- Nobody comes back from the end. -/
theorem Advances.isEnded_before (h : b.Advances n l l' line incoming returned)
    (hafter : l'.forwarder.isEnded = false) : l.forwarder.isEnded = false := by
  rcases h.line_cases with ⟨-, hsame, -⟩ | ⟨-, hstarting, -⟩ | ⟨-, hbefore, -⟩
  · exact hsame.symm.trans hafter
  · rw [hstarting]
    rfl
  · exact hbefore

theorem isUnderWay_of_ne (hlanes : b'.lanes = b.lanes.set n l') {m : Nat} (hm : m ≠ n) :
    b'.isUnderWay m = b.isUnderWay m := by
  rw [isUnderWay, isUnderWay, hlanes, List.getElem?_set_ne (Ne.symm hm)]

theorem isUnderWay_of_set (hl : b.lanes[n]? = some l) (hlanes : b'.lanes = b.lanes.set n l') :
    b'.isUnderWay n = !l'.forwarder.isEnded := by
  obtain ⟨hlt, -⟩ := List.getElem?_eq_some_iff.mp hl
  exact isUnderWay_eq (by rw [hlanes]; exact List.getElem?_set_self hlt)

/-- A forwarder that is under way after a step was so before. -/
theorem isUnderWay_of_turn (hl : b.lanes[n]? = some l)
    (hadvances : b.Advances n l l' line incoming returned) (hlanes : b'.lanes = b.lanes.set n l')
    {m : Nat} (hm : b'.isUnderWay m) : b.isUnderWay m := by
  by_cases hmn : m = n
  · rw [hmn, isUnderWay_of_set hl hlanes, Bool.not_eq_true'] at hm
    rw [hmn, isUnderWay_eq hl, hadvances.isEnded_before hm]
    rfl
  · rwa [isUnderWay_of_ne hlanes hmn] at hm

/-- A forwarder that has not got the queue hands nothing over, and takes nothing. It has the queue
from now on only if it is its turn, and then its wait begins. -/
theorem Advances.of_not_hasQueue (h : b.Advances n l l' line incoming returned)
    (hqueue : l.forwarder.hasQueue = false) :
    incoming = b.incoming ∧ returned = b.returned ∧ l'.slot = l.slot ∧ l'.errorSlot = l.errorSlot ∧
      (l'.forwarder.hasQueue → b.line.head? = some n ∧
        l'.forwarder = .looking (b.deadlineOf l.limit)) := by
  have hawaiting : l.forwarder.isAwaitingNew = false := by
    cases hawaiting : l.forwarder.isAwaitingNew with
    | false => rfl
    | true => cases hqueue.symm.trans (Forwarder.hasQueue_of_isAwaitingNew hawaiting)
  cases h with
  | rest => exact ⟨rfl, rfl, rfl, rfl, fun h => absurd h (by rw [hqueue]; exact Bool.false_ne_true)⟩
  | join | finish => exact ⟨rfl, rfl, rfl, rfl, fun h => by cases h⟩
  | enter h hturn => exact ⟨rfl, rfl, rfl, rfl, fun _ => ⟨hturn, rfl⟩⟩
  | takeReturned h | choose h | park h | handOver h | report h | reportLast h | giveBack h =>
    rw [h] at hqueue
    cases hqueue
  | followSign h | timeOut h =>
    rcases h with h | h
    all_goals
      rw [h] at hqueue
      cases hqueue
  | takeMessage h | takeError h => cases hawaiting.symm.trans h

end Broker

/-- A transport, with the lanes whose forwarders have begun to stand in line for the queue, in that
order. -/
structure Handover where
  /-- The transport. -/
  broker : Broker
  /-- The lanes whose forwarders have begun, ended ones too. -/
  begun : List Nat := []

namespace Handover

/-- The transport after an event, with those that have joined the line since. -/
def after (h : Handover) (e : Broker.Event) : Handover :=
  ⟨h.broker.apply e, h.begun ++ (h.broker.apply e).line.drop h.broker.line.length⟩

/-- The transport after several events. -/
def run (h : Handover) (events : List Broker.Event) : Handover := events.foldl after h

/-- Forwarders stand in line in the order in which they have begun, and nothing comes to the lanes
of those that are behind one that has not ended. -/
structure Sound (h : Handover) : Prop where
  signsKept : h.broker.queueState.SignsKept
  nodup : h.begun.Nodup
  known : ∀ n ∈ h.begun, n < h.broker.lanes.length
  line : h.broker.line = h.begun.filter h.broker.isUnderWay
  queued : ∀ (n : Nat) (l : Lane), h.broker.lanes[n]? = some l → l.forwarder.isQueued → n ∈ h.begun
  /-- A forwarder that has begun stands in line until it ends. -/
  stands : ∀ (n : Nat) (l : Lane), h.broker.lanes[n]? = some l → n ∈ h.begun →
    l.forwarder.isQueued = !l.forwarder.isEnded
  bare : ∀ (n : Nat) (l : Lane), h.broker.lanes[n]? = some l → n ∉ h.begun → l.IsBare
  behind : ∀ (xs ys : List Nat) (i j : Nat) (l : Lane), h.begun = xs ++ i :: ys →
    h.broker.isUnderWay i → j ∉ xs → j ≠ i → h.broker.lanes[j]? = some l → l.IsBare

namespace Sound

variable {h : Handover} {b' : Broker} {n : Nat} {l l' : Lane}

/-- One that is behind another has not got the queue. -/
theorem not_hasQueue (hsound : h.Sound) {xs ys : List Nat} {i j : Nat}
    (hbegun : h.begun = xs ++ i :: ys) (hi : h.broker.isUnderWay i) (hj : j ∉ xs) (hij : j ≠ i)
    (hl : h.broker.lanes[j]? = some l) :
    l.forwarder.hasQueue = false := by
  by_contra hqueue
  have hhead := hsound.signsKept.queue (Broker.getElem?_forwarders hl) (by simpa using hqueue)
  change h.broker.line.head? = some j at hhead
  rw [hsound.line, hbegun, List.filter_append, List.filter_cons_of_pos hi] at hhead
  cases hahead : xs.filter h.broker.isUnderWay with
  | nil =>
    rw [hahead, List.nil_append, List.head?_cons] at hhead
    exact hij (Option.some.inj hhead).symm
  | cons m ms =>
    rw [hahead, List.cons_append, List.head?_cons] at hhead
    have hm : m ∈ xs.filter h.broker.isUnderWay := by
      rw [hahead]
      exact List.mem_cons_self
    rw [Option.some.inj hhead] at hm
    exact hj (List.mem_filter.mp hm).1

/-- What users do keeps the line. -/
theorem changedByUser (hsound : h.Sound) {own : Option Nat}
    (hchanged : h.broker.ChangedByUser own b') (hsigns : b'.queueState.SignsKept) :
    Sound ⟨b', h.begun⟩ := by
  have hunderWay : b'.isUnderWay = h.broker.isUnderWay := by
    funext n
    cases hl : h.broker.lanes[n]? with
    | none =>
      cases hl' : b'.lanes[n]? with
      | none => rw [Broker.isUnderWay, hl', Broker.isUnderWay, hl]
      | some l' =>
        obtain ⟨l, hl'', -⟩ := hchanged.before n l' hl'
        cases hl.symm.trans hl''
    | some l =>
      obtain ⟨l', hl', hlane⟩ := hchanged.after n l hl
      rw [Broker.isUnderWay_eq hl, Broker.isUnderWay_eq hl',
        hlane.forwarder_congr Forwarder.isEnded fun _ => rfl]
  constructor
  case signsKept => exact hsigns
  case nodup => exact hsound.nodup
  case known =>
    intro n hn
    have hlt := hsound.known n hn
    obtain ⟨l', hl', -⟩ := hchanged.after n _ (List.getElem?_eq_getElem hlt)
    exact (List.getElem?_eq_some_iff.mp hl').1
  case line =>
    show b'.line = h.begun.filter b'.isUnderWay
    rw [hchanged.line, hunderWay, hsound.line]
  case queued =>
    intro n l' hl' hqueued
    obtain ⟨l, hl, hlane⟩ := hchanged.before n l' hl'
    rw [hlane.forwarder_congr Forwarder.isQueued fun _ => rfl] at hqueued
    exact hsound.queued n l hl hqueued
  case stands =>
    intro n l' hl' hn
    obtain ⟨l, hl, hlane⟩ := hchanged.before n l' hl'
    rw [hlane.forwarder_congr Forwarder.isQueued fun _ => rfl,
      hlane.forwarder_congr Forwarder.isEnded fun _ => rfl]
    exact hsound.stands n l hl hn
  case bare =>
    intro n l' hl' hn
    obtain ⟨l, hl, hlane⟩ := hchanged.before n l' hl'
    exact (hsound.bare n l hl hn).changedByUser hlane
  case behind =>
    intro xs ys i j l' hbegun hi hj hij hl'
    obtain ⟨l, hl, hlane⟩ := hchanged.before j l' hl'
    change b'.isUnderWay i at hi
    rw [hunderWay] at hi
    exact (hsound.behind xs ys i j l hbegun hi hj hij hl).changedByUser hlane

/-- One more lane is opened, whose forwarder has not begun. -/
theorem «open» (hsound : h.Sound) (owner : Nat) (limit : Option Span) :
    Sound ⟨{ h.broker with lanes := h.broker.lanes ++ [Lane.start owner limit] }, h.begun⟩ := by
  have hitem {n : Nat} {l : Lane} (hl : (h.broker.lanes ++ [Lane.start owner limit])[n]? = some l) :
      h.broker.lanes[n]? = some l ∨ n ∉ h.begun ∧ l = Lane.start owner limit := by
    rcases getElem?_concat_cases hl with hl | ⟨rfl, rfl⟩
    · exact .inl hl
    · exact .inr ⟨fun hn => Nat.lt_irrefl _ (hsound.known _ hn), rfl⟩
  have hunderWay {n : Nat} (hn : n ∈ h.begun) :
      ({ h.broker with lanes := h.broker.lanes ++ [Lane.start owner limit] } : Broker).isUnderWay
        n = h.broker.isUnderWay n := by
    rw [Broker.isUnderWay, Broker.isUnderWay, List.getElem?_append_left (hsound.known n hn)]
  constructor
  case signsKept =>
    have hsigns := hsound.signsKept.open
    have hforwarders : (h.broker.lanes ++ [Lane.start owner limit]).map Lane.forwarder =
        h.broker.lanes.map Lane.forwarder ++ [.starting] := List.map_append
    show QueueState.SignsKept ⟨_, _, _,
      (h.broker.lanes ++ [Lane.start owner limit]).map Lane.forwarder⟩
    rw [hforwarders]
    exact hsigns
  case nodup => exact hsound.nodup
  case known =>
    intro n hn
    show n < (h.broker.lanes ++ [Lane.start owner limit]).length
    rw [List.length_append]
    exact Nat.lt_add_right 1 (hsound.known n hn)
  case line =>
    show h.broker.line = h.begun.filter _
    rw [hsound.line]
    exact List.filter_congr fun n hn => (hunderWay hn).symm
  case queued =>
    intro n l hl hqueued
    rcases hitem hl with hl | ⟨-, rfl⟩
    · exact hsound.queued n l hl hqueued
    · cases hqueued
  case stands =>
    intro n l hl hn
    rcases hitem hl with hl | ⟨hnot, -⟩
    · exact hsound.stands n l hl hn
    · exact absurd hn hnot
  case bare =>
    intro n l hl hn
    rcases hitem hl with hl | ⟨-, rfl⟩
    · exact hsound.bare n l hl hn
    · exact ⟨rfl, rfl⟩
  case behind =>
    intro xs ys i j l hbegun hi hj hij hl
    rcases hitem hl with hl | ⟨-, rfl⟩
    · have hmem : i ∈ h.begun := hbegun ▸ List.mem_append_right _ List.mem_cons_self
      change Broker.isUnderWay _ i = true at hi
      rw [hunderWay hmem] at hi
      exact hsound.behind xs ys i j l hbegun hi hj hij hl
    · exact ⟨rfl, rfl⟩

/-- A forwarder that has not begun has not got the queue. -/
theorem not_hasQueue_of_not_begun (hsound : h.Sound) (hl : h.broker.lanes[n]? = some l)
    (hn : n ∉ h.begun) :
    l.forwarder.hasQueue = false := by
  by_contra hqueue
  exact hn (hsound.queued n l hl (Forwarder.isQueued_of_hasQueue (by simpa using hqueue)))

section Turn

variable (hsound : h.Sound) (hl : h.broker.lanes[n]? = some l)
  (hadvances : h.broker.Advances n l l' b'.line b'.incoming b'.returned)
  (hlanes : b'.lanes = h.broker.lanes.set n l')

include hsound hl hadvances hlanes

/-- A forwarder takes a step: those that have not begun still have nothing in their lanes. -/
theorem isBare_of_not_begun {m : Nat} {x : Lane} (hm : m ∉ h.begun) (hx : b'.lanes[m]? = some x) :
    x.IsBare := by
  rw [hlanes] at hx
  rcases getElem?_set_cases hx with ⟨rfl, rfl⟩ | ⟨-, hx⟩
  · obtain ⟨-, -, hslot, herrorSlot, -⟩ :=
      hadvances.of_not_hasQueue (hsound.not_hasQueue_of_not_begun hl hm)
    exact (hsound.bare m l hl hm).of_same hslot herrorSlot
  · exact hsound.bare m x hx hm

/-- Nor have those that are behind others. -/
theorem isBare_of_behind {xs ys : List Nat} {i j : Nat} {x : Lane}
    (hbegun : h.begun = xs ++ i :: ys) (hi : b'.isUnderWay i) (hj : j ∉ xs) (hij : j ≠ i)
    (hx : b'.lanes[j]? = some x) : x.IsBare := by
  have hi' := Broker.isUnderWay_of_turn hl hadvances hlanes hi
  rw [hlanes] at hx
  rcases getElem?_set_cases hx with ⟨rfl, rfl⟩ | ⟨-, hx⟩
  · have hqueue := hsound.not_hasQueue hbegun hi' hj hij hl
    obtain ⟨-, -, hslot, herrorSlot, -⟩ := hadvances.of_not_hasQueue hqueue
    exact (hsound.behind xs ys i j l hbegun hi' hj hij hl).of_same hslot herrorSlot
  · exact hsound.behind xs ys i j x hbegun hi' hj hij hx

/-- A forwarder stays where it stands, in line or out of it. -/
theorem stay (hsigns : b'.queueState.SignsKept) (hline : b'.line = h.broker.line)
    (hended : l'.forwarder.isEnded = l.forwarder.isEnded)
    (hqueued : l'.forwarder.isQueued = l.forwarder.isQueued) : Sound ⟨b', h.begun⟩ := by
  have hitem {m : Nat} {x : Lane} (hx : b'.lanes[m]? = some x) :
      m = n ∧ x = l' ∨ m ≠ n ∧ h.broker.lanes[m]? = some x :=
    getElem?_set_cases (hlanes ▸ hx)
  constructor
  case signsKept => exact hsigns
  case nodup => exact hsound.nodup
  case known =>
    intro m hm
    show m < b'.lanes.length
    rw [hlanes, List.length_set]
    exact hsound.known m hm
  case line =>
    show b'.line = h.begun.filter b'.isUnderWay
    rw [hline, hsound.line]
    refine List.filter_congr fun m _ => ?_
    by_cases hmn : m = n
    · rw [hmn, Broker.isUnderWay_of_set hl hlanes, hended, Broker.isUnderWay_eq hl]
    · exact (Broker.isUnderWay_of_ne hlanes hmn).symm
  case queued =>
    intro m x hx hq
    rcases hitem hx with ⟨rfl, rfl⟩ | ⟨-, hx⟩
    · exact hsound.queued m l hl (hqueued ▸ hq)
    · exact hsound.queued m x hx hq
  case stands =>
    intro m x hx hm
    rcases hitem hx with ⟨rfl, rfl⟩ | ⟨-, hx⟩
    · rw [hqueued, hended]
      exact hsound.stands m l hl hm
    · exact hsound.stands m x hx hm
  case bare => exact fun m x hx hm => hsound.isBare_of_not_begun hl hadvances hlanes hm hx
  case behind =>
    exact fun xs ys i j x hbegun hi hj hij hx =>
      hsound.isBare_of_behind hl hadvances hlanes hbegun hi hj hij hx

/-- A forwarder begins: it joins the line. -/
theorem join (hsigns : b'.queueState.SignsKept) (hline : b'.line = h.broker.line ++ [n])
    (hstarting : l.forwarder = .starting) (hqueueing : l'.forwarder = .queueing) :
    Sound ⟨b', h.begun ++ [n]⟩ := by
  obtain ⟨hlt, -⟩ := List.getElem?_eq_some_iff.mp hl
  have hitem {m : Nat} {x : Lane} (hx : b'.lanes[m]? = some x) :
      m = n ∧ x = l' ∨ m ≠ n ∧ h.broker.lanes[m]? = some x :=
    getElem?_set_cases (hlanes ▸ hx)
  have hn : n ∉ h.begun := by
    intro hn
    have hstands := hsound.stands n l hl hn
    rw [hstarting] at hstands
    cases hstands
  constructor
  case signsKept => exact hsigns
  case nodup =>
    exact List.Nodup.append hsound.nodup (List.nodup_singleton n) (List.disjoint_singleton.mpr hn)
  case known =>
    intro m hm
    show m < b'.lanes.length
    rw [hlanes, List.length_set]
    rcases List.mem_append.mp hm with hm | hm
    · exact hsound.known m hm
    · rw [List.mem_singleton.mp hm]
      exact hlt
  case line =>
    show b'.line = (h.begun ++ [n]).filter b'.isUnderWay
    have hjoined : b'.isUnderWay n = true := by
      rw [Broker.isUnderWay_of_set hl hlanes, hqueueing]
      rfl
    rw [hline, hsound.line, List.filter_append, List.filter_cons_of_pos hjoined]
    congr 1
    exact List.filter_congr fun m hm =>
      (Broker.isUnderWay_of_ne hlanes fun hmn => hn (hmn ▸ hm)).symm
  case queued =>
    intro m x hx hq
    rcases hitem hx with ⟨rfl, rfl⟩ | ⟨-, hx⟩
    · exact List.mem_append_right _ (List.mem_singleton_self _)
    · exact List.mem_append_left _ (hsound.queued m x hx hq)
  case stands =>
    intro m x hx hm
    rcases hitem hx with ⟨rfl, rfl⟩ | ⟨hmn, hx⟩
    · rw [hqueueing]
      rfl
    · rcases List.mem_append.mp hm with hm | hm
      · exact hsound.stands m x hx hm
      · exact absurd (List.mem_singleton.mp hm) hmn
  case bare =>
    exact fun m x hx hm =>
      hsound.isBare_of_not_begun hl hadvances hlanes (fun hmem => hm (List.mem_append_left _ hmem))
        hx
  case behind =>
    intro xs ys i j x hbegun hi hj hij hx
    rcases List.eq_nil_or_concat ys with rfl | ⟨ys, m, rfl⟩
    · -- It is the last one, so the others have not begun.
      obtain ⟨rfl, -⟩ := List.append_inj' hbegun rfl
      exact hsound.isBare_of_not_begun hl hadvances hlanes hj hx
    · rw [List.concat_eq_append, ← List.cons_append, ← List.append_assoc] at hbegun
      obtain ⟨hbegun, -⟩ := List.append_inj' hbegun rfl
      exact hsound.isBare_of_behind hl hadvances hlanes hbegun hi hj hij hx

/-- A forwarder ends: it leaves the line for good. -/
theorem leave (hsigns : b'.queueState.SignsKept) (hline : b'.line = h.broker.line.erase n)
    (hended : l'.forwarder = .ended) : Sound ⟨b', h.begun⟩ := by
  have hitem {m : Nat} {x : Lane} (hx : b'.lanes[m]? = some x) :
      m = n ∧ x = l' ∨ m ≠ n ∧ h.broker.lanes[m]? = some x :=
    getElem?_set_cases (hlanes ▸ hx)
  constructor
  case signsKept => exact hsigns
  case nodup => exact hsound.nodup
  case known =>
    intro m hm
    show m < b'.lanes.length
    rw [hlanes, List.length_set]
    exact hsound.known m hm
  case line =>
    show b'.line = h.begun.filter b'.isUnderWay
    have hgone : b'.isUnderWay n = false := by
      rw [Broker.isUnderWay_of_set hl hlanes, hended]
      rfl
    rw [hline, hsound.line, (hsound.nodup.filter _).erase_eq_filter, List.filter_filter]
    refine List.filter_congr fun m _ => ?_
    by_cases hmn : m = n
    · rw [hmn, hgone]
      simp
    · rw [Broker.isUnderWay_of_ne hlanes hmn]
      simp [hmn]
  case queued =>
    intro m x hx hq
    rcases hitem hx with ⟨rfl, rfl⟩ | ⟨-, hx⟩
    · rw [hended] at hq
      cases hq
    · exact hsound.queued m x hx hq
  case stands =>
    intro m x hx hm
    rcases hitem hx with ⟨rfl, rfl⟩ | ⟨-, hx⟩
    · rw [hended]
      rfl
    · exact hsound.stands m x hx hm
  case bare => exact fun m x hx hm => hsound.isBare_of_not_begun hl hadvances hlanes hm hx
  case behind =>
    exact fun xs ys i j x hbegun hi hj hij hx =>
      hsound.isBare_of_behind hl hadvances hlanes hbegun hi hj hij hx

end Turn

/-- A forwarder takes a step. It may join the line, or leave it for good. -/
theorem turn (hsound : h.Sound) (hl : h.broker.lanes[n]? = some l)
    (hturned : h.broker.Turned n l b') (hsigns : b'.queueState.SignsKept) :
    Sound ⟨b', h.begun ++ b'.line.drop h.broker.line.length⟩ := by
  obtain ⟨l', hadvances, hlanes⟩ := hturned
  rcases hadvances.line_cases with ⟨hline, hended, hqueued⟩ | ⟨hline, hstarting, hqueueing⟩ |
    ⟨hline, -, hended⟩
  · rw [hline, List.drop_length, List.append_nil]
    exact hsound.stay hl hadvances hlanes hsigns hline hended hqueued
  · rw [hline, List.drop_left]
    exact hsound.join hl hadvances hlanes hsigns hline hstarting hqueueing
  · have hdrop : b'.line.drop h.broker.line.length = [] := by
      rw [hline]
      exact List.drop_eq_nil_of_le List.length_erase_le
    rw [hdrop, List.append_nil]
    exact hsound.leave hl hadvances hlanes hsigns hline hended

/-- Whatever happens keeps the line. -/
theorem after (hsound : h.Sound) (e : Broker.Event) : (h.after e).Sound := by
  have hsigns := Broker.signsKept_apply hsound.signsKept e
  cases Broker.happens_apply hsound.signsKept e with
  | byUser _ hchanged =>
    rw [Handover.after, hchanged.line, List.drop_length, List.append_nil]
    exact hsound.changedByUser hchanged hsigns
  | opened _ hchanged =>
    rw [Handover.after, hchanged.line, List.drop_length, List.append_nil]
    exact (hsound.open _ _).changedByUser hchanged hsigns
  | missed _ hsame =>
    rw [Handover.after, hsame, List.drop_length, List.append_nil]
    exact hsound
  | turned _ hl hturned => exact hsound.turn hl hturned hsigns

theorem run (hsound : h.Sound) (events : List Broker.Event) : (h.run events).Sound :=
  List.foldlRecOn events Handover.after hsound fun _ hsound e _ => hsound.after e

end Sound

/-- The line of a new transport is empty. -/
theorem sound_ofCapacity? {capacity : Nat} {b : Broker} (h : Broker.ofCapacity? capacity = some b) :
    Sound { broker := b } := by
  have hsigns := Ledger.signsKept_ofCapacity? h
  obtain rfl := Broker.eq_of_ofCapacity? h
  constructor
  case signsKept => exact hsigns
  case nodup => exact List.nodup_nil
  case known => rintro n ⟨⟩
  case line => rfl
  case queued => rintro n l ⟨⟩
  case stands => rintro n l ⟨⟩
  case bare => rintro n l ⟨⟩
  case behind => rintro xs ys i j l hbegun hi hj hij ⟨⟩

/-! ## The order of opening -/

end Handover

/-- Whether the forwarder has not begun. -/
def Forwarder.isStarting : Forwarder → Bool
  | .starting => true
  | _ => false

/-- Whether a forwarder that takes its first step in an event does so before those of later
lanes. -/
def Broker.inTurn (b : Broker) (e : Broker.Event) : Bool :=
  e.turnOf.all fun n => (b.lanes[n]?).all fun l =>
    !l.forwarder.isStarting || (b.lanes.take n).all fun k => !k.forwarder.isStarting

theorem Broker.not_starting_of_inTurn {b : Broker} {e : Broker.Event} {m n : Nat} {k l : Lane}
    (h : b.inTurn e) (he : e.turnOf = some n) (hl : b.lanes[n]? = some l)
    (hstarting : l.forwarder = .starting) (hmn : m < n) (hk : b.lanes[m]? = some k) :
    k.forwarder ≠ .starting := by
  rw [inTurn, he, Option.all_some, hl, Option.all_some, hstarting] at h
  have hearlier : (b.lanes.take n).all fun k => !k.forwarder.isStarting := h
  have hmem : k ∈ b.lanes.take n := List.mem_of_getElem? ((List.getElem?_take_of_lt hmn).trans hk)
  have hk' := List.all_eq_true.mp hearlier k hmem
  intro hkstarting
  rw [hkstarting] at hk'
  cases hk'

namespace Handover

/-- Whether forwarders take their first steps in the order in which their lanes were opened. -/
def inTurn : Handover → List Broker.Event → Bool
  | _, [] => true
  | h, e :: events => h.broker.inTurn e && (h.after e).inTurn events

/-- Lanes have begun in the order in which they were opened, and those that have not begun come
later. -/
structure Ordered (h : Handover) : Prop where
  begun : h.begun.Pairwise (· < ·)
  later : ∀ (m n : Nat) (l : Lane), m ∈ h.begun → h.broker.lanes[n]? = some l →
    l.forwarder = .starting → m < n

namespace Ordered

variable {h : Handover}

/-- Nobody begins, and whoever has not begun had not before. -/
theorem of_same (hordered : h.Ordered) {b' : Broker}
    (hline : b'.line.drop h.broker.line.length = [])
    (hstarting : ∀ (m n : Nat) (l' : Lane), m ∈ h.begun → b'.lanes[n]? = some l' →
      l'.forwarder = .starting →
        m < n ∨ ∃ l, h.broker.lanes[n]? = some l ∧ l.forwarder = .starting) :
    Ordered ⟨b', h.begun ++ b'.line.drop h.broker.line.length⟩ := by
  rw [hline, List.append_nil]
  refine ⟨hordered.begun, fun m n l' hm hl' hl'starting => ?_⟩
  rcases hstarting m n l' hm hl' hl'starting with hlt | ⟨l, hl, hlstarting⟩
  · exact hlt
  · exact hordered.later m n l hm hl hlstarting

/-- What users do to a lane does not bring it back to its beginning. -/
theorem starting_of_changedByUser {l l' : Lane} (hchanged : l.ChangedByUser l')
    (hstarting : l'.forwarder = .starting) :
    l.forwarder = .starting := by
  rcases hchanged.forwarder with hsame | ⟨deadline, -, hparked⟩
  · exact hsame.symm.trans hstarting
  · cases hparked.symm.trans hstarting

theorem after (hordered : h.Ordered) (hsound : h.Sound) {e : Broker.Event}
    (hturn : h.broker.inTurn e) :
    (h.after e).Ordered := by
  cases Broker.happens_apply hsound.signsKept e with
  | byUser _ hchanged =>
    refine hordered.of_same (by rw [hchanged.line, List.drop_length]) fun m n l' _ hl' hstarting =>
      ?_
    obtain ⟨l, hl, hlane⟩ := hchanged.before n l' hl'
    exact .inr ⟨l, hl, starting_of_changedByUser hlane hstarting⟩
  | opened _ hchanged =>
    refine hordered.of_same (by rw [hchanged.line, List.drop_length]) fun m n l' hm hl' hstarting =>
      ?_
    obtain ⟨l, hl, hlane⟩ := hchanged.before n l' hl'
    rcases getElem?_concat_cases hl with hl | ⟨rfl, -⟩
    · exact .inr ⟨l, hl, starting_of_changedByUser hlane hstarting⟩
    · exact .inl (hsound.known m hm)
  | missed _ hsame =>
    refine hordered.of_same (by rw [hsame, List.drop_length]) fun m n l' _ hl' hstarting => ?_
    rw [hsame] at hl'
    exact .inr ⟨l', hl', hstarting⟩
  | @turned n l he hl hturned =>
    obtain ⟨l', hadvances, hlanes⟩ := hturned
    have hitem {m : Nat} {x : Lane} (hx : (h.broker.apply e).lanes[m]? = some x) :
        m = n ∧ x = l' ∨ m ≠ n ∧ h.broker.lanes[m]? = some x := by
      rw [hlanes] at hx
      exact getElem?_set_cases hx
    rcases hadvances.line_cases with
      ⟨hline, hended, hqueued⟩ | ⟨hline, hstarting, hqueueing⟩ | ⟨hline, -, hended⟩
    · -- It stays where it stands.
      refine hordered.of_same (by rw [hline, List.drop_length]) fun m j x _ hx hxstarting => .inr ?_
      rcases hitem hx with ⟨rfl, rfl⟩ | ⟨-, hx⟩
      · refine ⟨l, hl, ?_⟩
        rw [hxstarting] at hended hqueued
        cases hforwarder : l.forwarder with
        | starting => rfl
        | ended =>
          rw [hforwarder] at hended
          cases hended
        | _ =>
          rw [hforwarder] at hqueued
          cases hqueued
      · exact ⟨x, hx, hxstarting⟩
    · -- It begins, after those before it and before those after it.
      rw [Handover.after, hline, List.drop_left]
      constructor
      case begun =>
        refine List.pairwise_append.mpr ⟨hordered.begun, List.pairwise_singleton _ _,
          fun m hm n' hn' => ?_⟩
        rw [List.mem_singleton.mp hn']
        exact hordered.later m n l hm hl hstarting
      case later =>
        intro m j x hm hx hxstarting
        rcases hitem hx with ⟨rfl, rfl⟩ | ⟨hjn, hx⟩
        · cases hqueueing.symm.trans hxstarting
        · rcases List.mem_append.mp hm with hm | hm
          · exact hordered.later m j x hm hx hxstarting
          · rw [List.mem_singleton.mp hm]
            by_contra hle
            exact Broker.not_starting_of_inTurn hturn he hl hstarting (by omega) hx hxstarting
    · -- It ends.
      have hdrop : (h.broker.apply e).line.drop h.broker.line.length = [] := by
        rw [hline]
        exact List.drop_eq_nil_of_le List.length_erase_le
      refine hordered.of_same hdrop fun m j x _ hx hxstarting => .inr ?_
      rcases hitem hx with ⟨rfl, rfl⟩ | ⟨-, hx⟩
      · cases hended.symm.trans hxstarting
      · exact ⟨x, hx, hxstarting⟩

theorem run (hordered : h.Ordered) (hsound : h.Sound) {events : List Broker.Event}
    (hturn : h.inTurn events) :
    (h.run events).Ordered := by
  induction events generalizing h with
  | nil => exact hordered
  | cons e events ih =>
    obtain ⟨hfirst, hrest⟩ := Bool.and_eq_true_iff.mp hturn
    exact ih (hordered.after hsound hfirst) (hsound.after e) hrest

end Ordered

end Handover

/-! ## Getting the queue, and leaving it -/

namespace Broker

variable {b : Broker} {e : Broker.Event} {m n : Nat} {k l l' : Lane}

theorem eq_of_hasQueue (hsigns : b.queueState.SignsKept) (hk : b.lanes[m]? = some k)
    (hl : b.lanes[n]? = some l) (hkqueue : k.forwarder.hasQueue) (hlqueue : l.forwarder.hasQueue) :
    m = n := by
  have hm : b.line.head? = some m := hsigns.queue (getElem?_forwarders hk) hkqueue
  have hn : b.line.head? = some n := hsigns.queue (getElem?_forwarders hl) hlqueue
  exact Option.some.inj (hm.symm.trans hn)

/-- Nobody takes anything but a forwarder that has the queue. -/
theorem leavesAlone (hsigns : b.queueState.SignsKept)
    (hqueue : ∀ (n : Nat) (l : Lane), e.turnOf = some n → b.lanes[n]? = some l →
      l.forwarder.hasQueue = false) :
    b.incoming <+: (b.apply e).incoming ∧ b.returned.Sublist (b.apply e).returned := by
  cases happens_apply hsigns e with
  | byUser _ hchanged => exact ⟨hchanged.incoming, hchanged.returned⟩
  | opened _ hchanged => exact ⟨hchanged.incoming, hchanged.returned⟩
  | missed _ hsame =>
    rw [hsame]
    exact ⟨List.prefix_refl _, List.Sublist.refl _⟩
  | turned he hl hturned =>
    obtain ⟨l', hadvances, -⟩ := hturned
    obtain ⟨hincoming, hreturned, -⟩ := hadvances.of_not_hasQueue (hqueue _ _ he hl)
    rw [hincoming, hreturned]
    exact ⟨List.prefix_refl _, List.Sublist.refl _⟩

/-- A forwarder gets the queue in a step of its own, when it is its turn, and its wait begins
then. -/
theorem enters (hsigns : b.queueState.SignsKept) (hl : b.lanes[n]? = some l)
    (hl' : (b.apply e).lanes[n]? = some l') (hbefore : l.forwarder.hasQueue = false)
    (hafter : l'.forwarder.hasQueue) :
    e.turnOf = some n ∧ b.line.head? = some n ∧ l'.forwarder = .looking (b.deadlineOf l.limit) := by
  rcases (happens_apply hsigns e).lane hl hl' with ⟨hchanged, -⟩ | ⟨he, hadvances, -⟩
  · rw [hchanged.forwarder_congr Forwarder.hasQueue fun _ => rfl, hbefore] at hafter
    cases hafter
  · obtain ⟨-, -, -, -, hgets⟩ := hadvances.of_not_hasQueue hbefore
    exact ⟨he, hgets hafter⟩

/-- However a forwarder ends, a message that it had in hand is returned, and if it had the queue
nobody has the queue yet. -/
theorem ends (hsigns : b.queueState.SignsKept) (hl : b.lanes[n]? = some l)
    (hl' : (b.apply e).lanes[n]? = some l') (hbefore : l.forwarder.isEnded = false)
    (hafter : l'.forwarder.isEnded) :
    (∀ d, l.forwarder = .offering d → (b.apply e).returned = insertParcel d.toParcel b.returned) ∧
      (l.forwarder.hasQueue → ∀ (m : Nat) (k : Lane), (b.apply e).lanes[m]? = some k →
        k.forwarder.hasQueue = false) := by
  rcases (happens_apply hsigns e).lane hl hl' with ⟨hchanged, -⟩ | ⟨-, hadvances, hlanes⟩
  · rw [hchanged.forwarder_congr Forwarder.isEnded fun _ => rfl, hbefore] at hafter
    cases hafter
  constructor
  · intro d hoffering
    generalize (b.apply e).line = line, (b.apply e).incoming = incoming,
      (b.apply e).returned = returned at hadvances ⊢
    cases hadvances with
    | giveBack h =>
      obtain rfl := Forwarder.offering.inj (h.symm.trans hoffering)
      rfl
    | finish _ hhand _ =>
      rw [hoffering] at hhand
      cases hhand
    | reportLast h => cases h.symm.trans hoffering
    | rest => cases hbefore.symm.trans hafter
    | _ => cases hafter
  · intro hqueue m k hk
    rw [hlanes] at hk
    rcases getElem?_set_cases hk with ⟨rfl, rfl⟩ | ⟨hmn, hk⟩
    · cases hforwarder : k.forwarder with
      | ended => rfl
      | _ =>
        rw [hforwarder] at hafter
        cases hafter
    · by_contra hkqueue
      exact hmn (eq_of_hasQueue hsigns hk hl (by simpa using hkqueue) hqueue)

end Broker

end Courier
