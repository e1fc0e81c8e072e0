import Courier.Proofs.Broker.Relay
import Courier.Proofs.Broker.Returning

/-!
# What the next forwarder delivers, in all

When nobody has the queue, what the next forwarder delivers is what was returned until then, and
after that what is on the queue (`Relay.Redelivers`), unless more is returned meanwhile.

`Relay.Holds` says so of the returned messages. That those on the queue follow is kept by each step
as well: the messages that were handed over, the one in hand and those that are there for forwarders
(`Broker.supply`) are, in that order, those that there were, and maybe new ones behind them
(`Relay.Supplies`). It is so because a forwarder looks for a new envelope only when it has found no
returned message.

What was returned does not depend on the order in which readers have let go of messages, so what is
delivered first does not either (`Handover.redelivered_in_order`).
-/

namespace Courier

/-- The messages that are there for forwarders, in the order in which these look for them. -/
def Broker.supply (b : Broker) : List Parcel := b.returned ++ b.incoming.filterMap Envelope.parcel?

/-- Whether no message is in a forwarder's hand, and one that looks for a new envelope leaves no
returned message behind. -/
structure Broker.IsClear (b : Broker) : Prop where
  offering : ∀ (n : Nat) (l : Lane), b.lanes[n]? = some l → l.forwarder.isOffering = false
  awaitingNew : ∀ (n : Nat) (l : Lane), b.lanes[n]? = some l → l.forwarder.isAwaitingNew →
    b.returned = []

/-- The message that is handed over, if it is one. -/
def parcelOf? (x : Except String Delivery) : Option Parcel := x.toOption.map Delivery.toParcel

/-- The messages that were handed over. -/
def Relay.messages (r : Relay) : List Parcel := r.handed.filterMap fun x => parcelOf? x.2

theorem Forwarder.hasQueue_of_isOffering {f : Forwarder} (h : f.isOffering) : f.hasQueue := by
  cases f <;> first | rfl | cases h

/-- Nothing comes into a slot that stays as it is. -/
theorem Lane.messages_gains {l l' : Lane} (hslot : l'.slot = l.slot) :
    (l.gains l').filterMap parcelOf? = [] := by
  have herrors (errors : List String) : (errors.map Except.error).filterMap parcelOf? = [] := by
    induction errors with
    | nil => rfl
    | cons error errors ih => exact ih
  rw [gains, List.filterMap_append, hslot]
  cases l.slot <;> cases l.errorSlot <;> simp [herrors]

namespace Broker

variable {b b' : Broker} {n : Nat} {l l' : Lane} {line : List Nat} {incoming : List Envelope}
  {returned : List Parcel}

theorem supply_congr (hreturned : b'.returned = b.returned) (hincoming : b'.incoming = b.incoming) :
    b'.supply = b.supply := by
  rw [supply, hreturned, hincoming, supply]

/-- Only a forwarder that looks for a new envelope takes one. -/
theorem Advances.incoming_eq (h : b.Advances n l l' line incoming returned)
    (hawaiting : l.forwarder.isAwaitingNew = false) : incoming = b.incoming := by
  cases h with
  | takeMessage h | takeError h => cases hawaiting.symm.trans h
  | _ => rfl

/-- A forwarder that has no message in hand leaves the messages as they are, those on the queue
followed by new ones at most, or takes the first one in hand. One that looks for a new envelope has
found none that was returned. -/
theorem Advances.supply_cases (h : b.Advances n l l' line incoming returned)
    (hoffering : l.forwarder.isOffering = false)
    (hawaiting : l.forwarder.isAwaitingNew → b.returned = []) :
    l'.slot = l.slot ∧
      ((∃ new, returned = b.returned ∧
          incoming.filterMap Envelope.parcel? = b.incoming.filterMap Envelope.parcel? ++ new ∧
          l'.forwarder.isOffering = false ∧ (l'.forwarder.isAwaitingNew → b.returned = [])) ∨
        ∃ p d new, b.supply ++ new = p :: (returned ++ incoming.filterMap Envelope.parcel?) ∧
          p.Becomes d.toParcel ∧ l'.forwarder = .offering d) := by
  cases h with
  | rest => exact ⟨rfl, .inl ⟨[], rfl, (List.append_nil _).symm, hoffering, hawaiting⟩⟩
  | join | enter | followSign | timeOut | report | reportLast | finish =>
    exact ⟨rfl, .inl ⟨[], rfl, (List.append_nil _).symm, rfl, fun h => by cases h⟩⟩
  | choose _ hreturned =>
    exact ⟨rfl, .inl ⟨[], rfl, (List.append_nil _).symm, rfl, fun _ => hreturned⟩⟩
  | park h =>
    rw [h] at hawaiting
    exact ⟨rfl, .inl ⟨[], rfl, (List.append_nil _).symm, rfl, fun _ => hawaiting rfl⟩⟩
  | @takeReturned _ p _ d _ hreturned hd =>
    refine ⟨rfl, .inr ⟨p, d, [], ?_, hd, rfl⟩⟩
    rw [supply, hreturned, List.append_nil]
    rfl
  | @takeMessage p _ _ d h hincoming hrest hd =>
    obtain ⟨new, rfl⟩ := hrest
    refine ⟨rfl, .inr ⟨p, d, new.filterMap Envelope.parcel?, ?_, hd, rfl⟩⟩
    -- The first on the queue is the first of all, since nothing is returned.
    rw [supply, hawaiting h, hincoming, List.filterMap_append]
    rfl
  | takeError _ hincoming hrest =>
    obtain ⟨new, rfl⟩ := hrest
    refine ⟨rfl, .inl ⟨new.filterMap Envelope.parcel?, rfl, ?_, rfl, fun h => by cases h⟩⟩
    rw [hincoming, List.filterMap_append]
    rfl
  | handOver h | giveBack h =>
    rw [h] at hoffering
    cases hoffering

end Broker

namespace Relay

variable {r r' : Relay} {due : List Parcel} {e : Broker.Event} {events : List Broker.Event}
  {n : Nat}

/-- Where the messages are that are to be handed over: the first ones have been, in their order; the
next one may be in a forwarder's hand; the others are there for forwarders, and more may have come
since. -/
inductive Supplies (due : List Parcel) (r : Relay) : Prop
  /-- None is in a forwarder's hand. -/
  | free {more : List Parcel}
    (hdue : List.Forall₂ Parcel.Becomes (due ++ more) (r.messages ++ r.broker.supply))
    (hclear : r.broker.IsClear)
  /-- One is. -/
  | inHand {more : List Parcel} {n : Nat} {l : Lane} {d : Delivery}
    (hdue : List.Forall₂ Parcel.Becomes (due ++ more) (r.messages ++ d.toParcel :: r.broker.supply))
    (hl : r.broker.lanes[n]? = some l) (hoffering : l.forwarder = .offering d)

theorem messages_append (xs : List (Except String Delivery)) (h : Handover) (n : Nat) :
    (⟨h, r.handed ++ xs.map (Prod.mk n)⟩ : Relay).messages =
      r.messages ++ xs.filterMap parcelOf? := by
  rw [messages, List.filterMap_append, List.filterMap_map]
  rfl

/-- More messages may come at the end. -/
theorem forall₂_becomes_more {more xs : List Parcel}
    (h : List.Forall₂ Parcel.Becomes (due ++ more) xs) (new : List Parcel) :
    ∃ more', List.Forall₂ Parcel.Becomes (due ++ more') (xs ++ new) := by
  refine ⟨more ++ new, ?_⟩
  rw [← List.append_assoc]
  exact List.rel_append h (Parcel.forall₂_becomes_refl new)

namespace Supplies

theorem begin (hidle : r.broker.IsIdle) (hhanded : r.handed = []) : r.Supplies r.broker.supply := by
  have hmessages : r.messages = [] := by
    rw [messages, hhanded]
    rfl
  have hdue :
      List.Forall₂ Parcel.Becomes (r.broker.supply ++ []) (r.messages ++ r.broker.supply) := by
    rw [hmessages, List.append_nil]
    exact Parcel.forall₂_becomes_refl _
  refine .free hdue ⟨fun n l hl => ?_, fun n l hl hawaiting => ?_⟩
  · by_contra hoffering
    cases (hidle n l hl).symm.trans (Forwarder.hasQueue_of_isOffering (by simpa using hoffering))
  · cases (hidle n l hl).symm.trans (Forwarder.hasQueue_of_isAwaitingNew hawaiting)

/-- What users do adds messages to those on the queue at most. -/
theorem userChange (h : r.Supplies due) {b' : Broker} {begun : List Nat} {own : Option Nat}
    (hchanged : r.broker.ChangedByUser own b')
    (hle : b'.returned.length ≤ r.broker.returned.length) :
    Relay.Supplies due ⟨⟨b', begun⟩, r.handed⟩ := by
  have hreturned : b'.returned = r.broker.returned := (hchanged.returned.eq_of_length_le hle).symm
  obtain ⟨new, hincoming⟩ := hchanged.incoming
  have hsupply : b'.supply = r.broker.supply ++ new.filterMap Envelope.parcel? := by
    rw [Broker.supply, Broker.supply, hreturned, ← hincoming, List.filterMap_append,
      List.append_assoc]
  cases h with
  | free hdue hclear =>
    obtain ⟨more', hdue'⟩ := forall₂_becomes_more hdue (new.filterMap Envelope.parcel?)
    rw [List.append_assoc, ← hsupply] at hdue'
    refine .free hdue' ⟨fun n l' hl' => ?_, fun n l' hl' hdequeues => ?_⟩
    · obtain ⟨l, hl, hlane⟩ := hchanged.before n l' hl'
      rw [hlane.forwarder_congr Forwarder.isOffering fun _ => rfl]
      exact hclear.offering n l hl
    · obtain ⟨l, hl, hlane⟩ := hchanged.before n l' hl'
      rw [hlane.forwarder_congr Forwarder.isAwaitingNew fun _ => rfl] at hdequeues
      exact hreturned.trans (hclear.awaitingNew n l hl hdequeues)
  | @inHand more n l d hdue hl hoffering =>
    obtain ⟨l', hl', hlane⟩ := hchanged.after n l hl
    obtain ⟨more', hdue'⟩ := forall₂_becomes_more hdue (new.filterMap Envelope.parcel?)
    rw [List.append_assoc, List.cons_append, ← hsupply] at hdue'
    rcases hlane.forwarder with hsame | ⟨deadline, hparked, -⟩
    · exact .inHand hdue' hl' (hsame.trans hoffering)
    · cases hoffering.symm.trans hparked

/-- A lane that is opened has a forwarder that has not begun. -/
theorem «open» (h : r.Supplies due) (owner : Nat) (limit : Option Span) :
    Relay.Supplies due
      ⟨⟨{ r.broker with lanes := r.broker.lanes ++ [Lane.start owner limit] }, r.begun⟩,
        r.handed⟩ := by
  cases h with
  | free hdue hclear =>
    refine .free hdue ⟨fun n l hl => ?_, fun n l hl hdequeues => ?_⟩
    · rcases getElem?_concat_cases hl with hl | ⟨-, rfl⟩
      · exact hclear.offering n l hl
      · rfl
    · rcases getElem?_concat_cases hl with hl | ⟨-, rfl⟩
      · exact hclear.awaitingNew n l hl hdequeues
      · cases hdequeues
  | inHand hdue hl hoffering =>
    obtain ⟨hlt, -⟩ := List.getElem?_eq_some_iff.mp hl
    exact .inHand hdue ((List.getElem?_append_left hlt).trans hl) hoffering

/-- When no message is in hand, a forwarder that takes a step may take one in hand. -/
theorem turn_of_free {more : List Parcel} {l l' : Lane} {b' : Broker} {begun : List Nat}
    (hdue : List.Forall₂ Parcel.Becomes (due ++ more) (r.messages ++ r.broker.supply))
    (hclear : r.broker.IsClear) (hl : r.broker.lanes[n]? = some l)
    (hadvances : r.broker.Advances n l l' b'.line b'.incoming b'.returned)
    (hlanes : b'.lanes = r.broker.lanes.set n l') :
    Relay.Supplies due ⟨⟨b', begun⟩, r.handed ++ (l.gains l').map (Prod.mk n)⟩ := by
  have hmessages := messages_append (r := r) (l.gains l') ⟨b', begun⟩ n
  obtain ⟨hslot, hcases⟩ :=
    hadvances.supply_cases (hclear.offering n l hl) (hclear.awaitingNew n l hl)
  rw [Lane.messages_gains hslot, List.append_nil] at hmessages
  rcases hcases with ⟨new, hreturned, hincoming, hoffering', hawaiting'⟩ |
    ⟨p, d, new, hsupply, hd, hoffering'⟩
  · obtain ⟨more', hdue'⟩ := forall₂_becomes_more hdue new
    have hsupply : b'.supply = r.broker.supply ++ new := by
      rw [Broker.supply, hreturned, hincoming, ← List.append_assoc]
      rfl
    rw [List.append_assoc, ← hsupply, ← hmessages] at hdue'
    refine .free hdue' ⟨fun m x hx => ?_, fun m x hx hdequeues => ?_⟩
    all_goals
      change b'.lanes[m]? = some x at hx
      rw [hlanes] at hx
      rcases getElem?_set_cases hx with ⟨-, rfl⟩ | ⟨-, hx⟩
    · exact hoffering'
    · exact hclear.offering m x hx
    · exact hreturned.trans (hawaiting' hdequeues)
    · exact hreturned.trans (hclear.awaitingNew m x hx hdequeues)
  · obtain ⟨more', hdue'⟩ := forall₂_becomes_more hdue new
    rw [List.append_assoc, hsupply, ← hmessages] at hdue'
    have hpicked := Parcel.forall₂_becomes_trans hdue'
      (List.rel_append (Parcel.forall₂_becomes_refl _) (.cons hd (Parcel.forall₂_becomes_refl _)))
    obtain ⟨hlt, -⟩ := List.getElem?_eq_some_iff.mp hl
    have hl' : b'.lanes[n]? = some l' := by
      rw [hlanes]
      exact List.getElem?_set_self hlt
    exact .inHand hpicked hl' hoffering'

/-- When one is in hand, only that forwarder does anything about messages: it may hand the one
over. -/
theorem turn_of_inHand (hsound : r.Sound) {more : List Parcel} {m : Nat} {x l l' : Lane}
    {d : Delivery} {b' : Broker} {begun : List Nat}
    (hdue : List.Forall₂ Parcel.Becomes (due ++ more) (r.messages ++ d.toParcel :: r.broker.supply))
    (hx : r.broker.lanes[m]? = some x) (hoffering : x.forwarder = .offering d)
    (hl : r.broker.lanes[n]? = some l)
    (hadvances : r.broker.Advances n l l' b'.line b'.incoming b'.returned)
    (hlanes : b'.lanes = r.broker.lanes.set n l')
    (hle : b'.returned.length ≤ r.broker.returned.length) :
    Relay.Supplies due ⟨⟨b', begun⟩, r.handed ++ (l.gains l').map (Prod.mk n)⟩ := by
  have hmessages := messages_append (r := r) (l.gains l') ⟨b', begun⟩ n
  have hxqueue : x.forwarder.hasQueue := by
    rw [hoffering]
    rfl
  -- It takes the queue to hand over or to take anything, and whoever has a message in hand has it.
  have honly {i : Nat} {y : Lane} (hy : r.broker.lanes[i]? = some y)
      (hyqueue : y.forwarder.hasQueue) : i = m :=
    Broker.eq_of_hasQueue hsound.signsKept hy hx hyqueue hxqueue
  by_cases hnm : n = m
  · obtain rfl := hnm
    obtain rfl := Option.some.inj (hx.symm.trans hl)
    have hincoming : b'.incoming = r.broker.incoming :=
      hadvances.incoming_eq (by rw [hoffering]; rfl)
    rcases hadvances.of_offering hoffering with ⟨rfl, hreturned⟩ | ⟨hslot, hreturned, rfl⟩ |
      hreturned
    · obtain ⟨hlt, -⟩ := List.getElem?_eq_some_iff.mp hl
      have hx' : b'.lanes[n]? = some l' := by
        rw [hlanes]
        exact List.getElem?_set_self hlt
      rw [Lane.messages_gains rfl, List.append_nil] at hmessages
      rw [← hmessages, ← Broker.supply_congr hreturned hincoming] at hdue
      exact .inHand hdue hx' hoffering
    · rw [Lane.gains_of_handOver hslot] at hmessages ⊢
      rw [List.append_cons, ← Broker.supply_congr hreturned hincoming] at hdue
      have hlooking {i : Nat} {y : Lane} (hy : b'.lanes[i]? = some y)
          (hyqueue : y.forwarder.hasQueue) :
          y.forwarder = .looking (r.broker.deadlineOf x.limit) := by
        rw [hlanes] at hy
        rcases getElem?_set_cases hy with ⟨-, rfl⟩ | ⟨hin, hy⟩
        · rfl
        · exact absurd (honly hy hyqueue) hin
      refine .free (hmessages ▸ hdue) ⟨fun i y hy => ?_, fun i y hy hdequeues => ?_⟩
      · by_contra hoffers
        have hoffers : y.forwarder.isOffering := by simpa using hoffers
        rw [hlooking hy (Forwarder.hasQueue_of_isOffering hoffers)] at hoffers
        cases hoffers
      · rw [hlooking hy (Forwarder.hasQueue_of_isAwaitingNew hdequeues)] at hdequeues
        cases hdequeues
    · rw [hreturned, Broker.length_insertParcel] at hle
      exact absurd hle (Nat.not_succ_le_self _)
  · have hqueue : l.forwarder.hasQueue = false := by
      by_contra hqueue
      exact hnm (honly hl (by simpa using hqueue))
    obtain ⟨hincoming, hreturned, hslot, -⟩ := hadvances.of_not_hasQueue hqueue
    have hx' : b'.lanes[m]? = some x := by
      rw [hlanes, List.getElem?_set_ne hnm]
      exact hx
    rw [Lane.messages_gains hslot, List.append_nil] at hmessages
    rw [← hmessages, ← Broker.supply_congr hreturned hincoming] at hdue
    exact .inHand hdue hx' hoffering

/-- A forwarder takes a step. -/
theorem turn (h : r.Supplies due) (hsound : r.Sound) {l l' : Lane} {b' : Broker} {begun : List Nat}
    (hl : r.broker.lanes[n]? = some l)
    (hadvances : r.broker.Advances n l l' b'.line b'.incoming b'.returned)
    (hlanes : b'.lanes = r.broker.lanes.set n l')
    (hle : b'.returned.length ≤ r.broker.returned.length) :
    Relay.Supplies due ⟨⟨b', begun⟩, r.handed ++ (l.gains l').map (Prod.mk n)⟩ := by
  cases h with
  | free hdue hclear => exact turn_of_free hdue hclear hl hadvances hlanes
  | inHand hdue hx hoffering =>
    exact turn_of_inHand hsound hdue hx hoffering hl hadvances hlanes hle

theorem step (h : r.Supplies due) (hsound : r.Sound) (hstep : r.step e = some r') :
    r'.Supplies due := by
  refine step_induction (motive := fun r => r.Supplies due) ?userChange ?opening ?turn h hsound
    hstep
  case userChange => exact fun h hchanged hle => h.userChange hchanged hle
  case opening => exact fun h owner limit => h.open owner limit
  case turn => exact fun h hsound hl hadvances hlanes hle => h.turn hsound hl hadvances hlanes hle

/-- What has been handed over begins with what was to be, or is the beginning of it. -/
theorem inOrder (h : r.Supplies due) :
    List.Forall₂ Parcel.Becomes (due.take r.messages.length) (r.messages.take due.length) := by
  have htake {more xs ys : List Parcel}
      (hdue : List.Forall₂ Parcel.Becomes (due ++ more) (xs ++ ys)) :
      List.Forall₂ Parcel.Becomes (due.take xs.length) (xs.take due.length) := by
    rcases Nat.le_total due.length xs.length with hle | hle
    · have hfirst := List.forall₂_take due.length hdue
      rw [List.take_left, List.take_append_of_le_length hle] at hfirst
      rwa [List.take_of_length_le hle]
    · have hfirst := List.forall₂_take xs.length hdue
      rw [List.take_left, List.take_append_of_le_length hle] at hfirst
      rwa [List.take_of_length_le hle]
  cases h with
  | free hdue => exact htake hdue
  | inHand hdue => exact htake hdue

end Supplies

end Relay

/-! ## The next message -/

/-- Whether a message may come into the slot of a lane, and is read there. -/
structure Lane.IsOpen (l : Lane) : Prop where
  aborted : l.aborted = false
  reads : l.readsMessages = true
  slot : l.slot = none

theorem Lane.IsOpen.move {l : Lane} (h : l.IsOpen) (f : Forwarder) :
    { l with forwarder := f }.IsOpen :=
  ⟨h.aborted, h.reads, h.slot⟩

namespace Broker

variable {b b' : Broker} {n k : Nat} {l : Lane} {p : Parcel} {rest : List Envelope}
  {favourNew : Bool} {deadline : Option Nat}

/-- Whether a forwarder that takes steps puts a message in the slot, after so many steps at most. -/
def Serves (b : Broker) (n : Nat) (favourNew : Bool) (p : Parcel) (k : Nat) : Prop :=
  ∃ i d, i ≤ k ∧ p.Becomes d.toParcel ∧
    ((b.advances n favourNew i).lanes[n]?).bind Lane.slot = some d

namespace Serves

theorem mono {j : Nat} (h : b.Serves n favourNew p k) (hle : k ≤ j) : b.Serves n favourNew p j := by
  obtain ⟨i, d, hi, hd, hslot⟩ := h
  exact ⟨i, d, hi.trans hle, hd, hslot⟩

theorem succ (hstep : (b.advance n favourNew).1 = b') (h : b'.Serves n favourNew p k) :
    b.Serves n favourNew p (k + 1) := by
  obtain ⟨i, d, hi, hd, hslot⟩ := h
  refine ⟨i + 1, d, Nat.succ_le_succ hi, hd, ?_⟩
  rw [advances, hstep]
  exact hslot

theorem of_becomes {q : Parcel} (hp : p.Becomes q) (h : b.Serves n favourNew q k) :
    b.Serves n favourNew p k := by
  obtain ⟨i, d, hi, hd, hslot⟩ := h
  exact ⟨i, d, hi, hp.trans hd, hslot⟩

end Serves

variable (hl : b.lanes[n]? = some l) (hopen : l.IsOpen)
include hl hopen

theorem serves_offering {d : Delivery} (hoffering : l.forwarder = .offering d)
    (hd : p.Becomes d.toParcel) :
    b.Serves n favourNew p 1 :=
  ⟨1, d, Nat.le_refl 1, hd,
    advances_offering hl hopen.aborted hopen.reads hopen.slot hoffering favourNew⟩

/-- The first in line takes the first returned message in hand, and puts it in the slot, unless it
has got something else in hand or looks for a new envelope already. -/
theorem serves_returned {returned : List Parcel} (hreturned : b.returned = p :: returned)
    (hfirst : b.line.head? = some n) (hqueued : l.forwarder.isQueued)
    (hoffering : l.forwarder.isOffering = false) (hreporting : l.forwarder.isReporting = false)
    (hawaiting : l.forwarder.isAwaitingNew = false) :
    b.Serves n favourNew p 3 := by
  cases hforwarder : l.forwarder with
  | queueing =>
    obtain ⟨d, hd, hslot⟩ :=
      advances_queueing hl hopen.aborted hopen.reads hopen.slot hforwarder
        hfirst hreturned favourNew
    exact ⟨3, d, Nat.le_refl 3, hd, hslot⟩
  | looking =>
    obtain ⟨d, hd, hslot⟩ :=
      advances_looking hl hopen.aborted hopen.reads hopen.slot hforwarder hreturned favourNew
    exact ⟨2, d, Nat.le_succ 2, hd, hslot⟩
  | starting | ended =>
    rw [hforwarder] at hqueued
    cases hqueued
  | offering =>
    rw [hforwarder] at hoffering
    cases hoffering
  | reporting =>
    rw [hforwarder] at hreporting
    cases hreporting
  | choosing | parked =>
    rw [hforwarder] at hawaiting
    cases hawaiting

variable (hincoming : b.incoming = .message p :: rest)
include hincoming

/-- A forwarder that looks for a new envelope, or waits for one, takes it in hand at once unless it
follows a sign. -/
theorem serves_unsigned
    (h : l.forwarder = .choosing deadline ∧ (b.permit && !favourNew) = false ∨
      ∃ notified, l.forwarder = .parked deadline notified ∧ (notified && !favourNew) = false) :
    b.Serves n favourNew p 2 := by
  have hspeaks : b.speaks := by
    simp [speaks, hincoming]
  -- A sign that has reached a forwarder that waits is kept when it takes an envelope.
  obtain ⟨permit, hstep⟩ : ∃ permit, (b.advance n favourNew).1 =
      ({ b with permit, incoming := rest } : Broker).refill.pickUp n p := by
    rcases h with ⟨hchoosing, hsign⟩ | ⟨notified, hparked, hsign⟩
    · refine ⟨b.permit, ?_⟩
      simp [advance, hl, hopen.aborted, proceed, hchoosing, choose, hsign, hspeaks, takeNew,
        hincoming]
    · refine ⟨b.permit || notified, ?_⟩
      simp [advance, hl, hopen.aborted, proceed, hparked, resume, hsign, hspeaks, takeNew,
        hincoming]
  have hl' : ({ b with permit, incoming := rest } : Broker).refill.lanes[n]? = some l := by
    rw [lanes_refill]
    exact hl
  obtain ⟨d, hd, hcore⟩ := core_pickUp hl' p
  obtain ⟨hlt, -⟩ := List.getElem?_eq_some_iff.mp hl'
  have hpicked := (congrArg (fun g : Core => g.lanes[n]?) hcore).trans (List.getElem?_set_self hlt)
  exact .succ hstep (serves_offering hpicked (hopen.move _) rfl hd)

variable (hreturned : b.returned = [])
include hreturned

/-- One that looks for a returned message looks for a new envelope next. -/
theorem serves_unreturned (hlooking : l.forwarder = .looking deadline)
    (hsign : (b.permit && !favourNew) = false) :
    b.Serves n favourNew p 3 := by
  have hstep : (b.advance n favourNew).1 = b.setForwarder n (.choosing deadline) := by
    simp [advance, hl, hopen.aborted, proceed, hlooking, look, hreturned]
  have hl' := getElem?_setForwarder hl b.permit (.choosing deadline)
  exact .succ hstep (serves_unsigned hl' (hopen.move _) hincoming (.inl ⟨rfl, hsign⟩))

/-- A sign that was kept is followed once, and then there is none. -/
theorem serves_choosing (hchoosing : l.forwarder = .choosing deadline) :
    b.Serves n favourNew p 4 := by
  cases hsign : b.permit && !favourNew with
  | false => exact (serves_unsigned hl hopen hincoming (.inl ⟨hchoosing, hsign⟩)).mono (by decide)
  | true =>
    obtain ⟨hpermit, hfavour⟩ := Bool.and_eq_true_iff.mp hsign
    have hfavour : favourNew = false := by simpa using hfavour
    have hstep : (b.advance n favourNew).1 =
        ({ b with permit := false } : Broker).setForwarder n (.looking deadline) := by
      simp [advance, hl, hopen.aborted, proceed, hchoosing, choose, hpermit, hfavour]
    have hl' := getElem?_setForwarder hl false (.looking deadline)
    exact .succ hstep
      (serves_unreturned hl' (hopen.move _) hincoming hreturned rfl rfl)

theorem serves_looking (hlooking : l.forwarder = .looking deadline) : b.Serves n favourNew p 5 := by
  have hstep : (b.advance n favourNew).1 = b.setForwarder n (.choosing deadline) := by
    simp [advance, hl, hopen.aborted, proceed, hlooking, look, hreturned]
  have hl' := getElem?_setForwarder hl b.permit (.choosing deadline)
  exact .succ hstep (serves_choosing hl' (hopen.move _) hincoming hreturned rfl)

/-- The first in line takes the first message of the queue in hand when nothing is returned,
whatever signs have reached it, and puts it in the slot, unless it has got something else in
hand. -/
theorem serves_new (hfirst : b.line.head? = some n) (hqueued : l.forwarder.isQueued)
    (hoffering : l.forwarder.isOffering = false) (hreporting : l.forwarder.isReporting = false) :
    b.Serves n favourNew p 6 := by
  cases hforwarder : l.forwarder with
  | starting | ended =>
    rw [hforwarder] at hqueued
    cases hqueued
  | offering =>
    rw [hforwarder] at hoffering
    cases hoffering
  | reporting =>
    rw [hforwarder] at hreporting
    cases hreporting
  | queueing =>
    have hstep :
        (b.advance n favourNew).1 = b.setForwarder n (.looking (b.deadlineOf l.limit)) := by
      simp [advance, hl, hopen.aborted, proceed, hforwarder, takeQueue, holder?, hfirst]
    have hl' := getElem?_setForwarder hl b.permit (.looking (b.deadlineOf l.limit))
    exact .succ hstep (serves_looking hl' (hopen.move _) hincoming hreturned rfl)
  | looking => exact (serves_looking hl hopen hincoming hreturned hforwarder).mono (by decide)
  | choosing => exact (serves_choosing hl hopen hincoming hreturned hforwarder).mono (by decide)
  | parked deadline notified =>
    cases hsign : notified && !favourNew with
    | false =>
      exact (serves_unsigned hl hopen hincoming (.inr ⟨notified, hforwarder, hsign⟩)).mono
        (by decide)
    | true =>
      obtain ⟨rfl, hfavour⟩ := Bool.and_eq_true_iff.mp hsign
      have hfavour : favourNew = false := by simpa using hfavour
      have hstep : (b.advance n favourNew).1 = b.setForwarder n (.looking deadline) := by
        simp [advance, hl, hopen.aborted, proceed, hforwarder, resume, hfavour]
      have hl' := getElem?_setForwarder hl b.permit (.looking deadline)
      exact .succ hstep (serves_looking hl' (hopen.move _) hincoming hreturned rfl)

end Broker

namespace Relay

variable {r r' : Relay} {due : List Parcel} {n : Nat} {l : Lane}

/-- The first of the messages that have not been handed over is the first of those that are
there. -/
theorem exists_next {more xs ys : List Parcel}
    (hdue : List.Forall₂ Parcel.Becomes (due ++ more) (xs ++ ys)) (hmore : xs.length < due.length) :
    ∃ p q rest, due[xs.length]? = some p ∧ ys = q :: rest ∧ p.Becomes q := by
  have hrest := List.forall₂_drop xs.length hdue
  rw [List.drop_left, List.drop_append_of_le_length (Nat.le_of_lt hmore),
    List.drop_eq_getElem_cons hmore] at hrest
  cases hrest with
  | cons hp _ => exact ⟨_, _, _, List.getElem?_eq_getElem hmore, rfl, hp⟩

/-- As long as some of the messages have not been handed over, the first in line puts the next one
in a free slot in six steps at most, unless there is an error before it. -/
theorem Supplies.next (h : r.Supplies due) (hsound : r.Sound)
    (hfirst : r.broker.line.head? = some n) (hl : r.broker.lanes[n]? = some l) (hopen : l.IsOpen)
    (hreporting : l.forwarder.isReporting = false)
    (herrors : ∀ text, r.broker.incoming.head? ≠ some (.error text))
    (hmore : r.messages.length < due.length) (favourNew : Bool) :
    ∃ p, due[r.messages.length]? = some p ∧ r.broker.Serves n favourNew p 6 := by
  cases h with
  | @inHand _ m x d hdue hx hoffering =>
    obtain ⟨p, q, rest, hp, hq, hbecomes⟩ := exists_next hdue hmore
    obtain ⟨rfl, -⟩ := List.cons.inj hq
    have hm : r.broker.line.head? = some m :=
      hsound.signsKept.queue (Broker.getElem?_forwarders hx) (by rw [hoffering]; rfl)
    obtain rfl := Option.some.inj (hm.symm.trans hfirst)
    obtain rfl := Option.some.inj (hx.symm.trans hl)
    exact ⟨p, hp, (Broker.serves_offering hl hopen hoffering hbecomes).mono (by decide)⟩
  | free hdue hclear =>
    obtain ⟨p, q, rest, hp, hq, hbecomes⟩ := exists_next hdue hmore
    have hqueued := hsound.isQueued_of_head? hfirst hl
    refine ⟨p, hp, .of_becomes hbecomes ?_⟩
    cases hreturned : r.broker.returned with
    | cons q' returned =>
      rw [Broker.supply, hreturned, List.cons_append] at hq
      obtain ⟨rfl, -⟩ := List.cons.inj hq
      -- Otherwise it might take an envelope and pass the returned message.
      have hnotAwaiting : l.forwarder.isAwaitingNew = false := by
        by_contra hdequeues
        cases hreturned.symm.trans (hclear.awaitingNew n l hl (by simpa using hdequeues))
      have hserves : r.broker.Serves n favourNew q' 3 :=
        Broker.serves_returned hl hopen hreturned hfirst hqueued (hclear.offering n l hl) hreporting
          hnotAwaiting
      exact hserves.mono (by decide)
    | nil =>
      rw [Broker.supply, hreturned, List.nil_append] at hq
      cases hincoming : r.broker.incoming with
      | nil =>
        rw [hincoming] at hq
        cases hq
      | cons e incoming =>
        cases e with
        | error text =>
          rw [hincoming] at herrors
          exact absurd rfl (herrors text)
        | message q' =>
          rw [hincoming] at hq
          obtain ⟨rfl, -⟩ := List.cons.inj hq
          exact Broker.serves_new hl hopen hincoming hreturned hfirst hqueued
            (hclear.offering n l hl) hreporting

/-! ## Who hands them over -/

/-- Whether everything has come from the one that was first in line at the time `h`, or else from
the first one that has begun since, unless that has ended. -/
inductive Succeeds (h : Handover) (r : Relay) : Prop
  /-- Nobody has begun since. -/
  | nobody (hbegun : r.begun = h.begun) (hbefore : h.broker.line = []) (hline : r.broker.line = [])
    (hhanded : r.handed = [])
  /-- There is such a forwarder. -/
  | first {since : List Nat} {n : Nat} (hbegun : r.begun = h.begun ++ since)
    (hfirst : (h.broker.line ++ since).head? = some n) (hby : r.By n)

namespace Succeeds

variable {h : Handover} {e : Broker.Event}

theorem begin (hsound : h.Sound) : Succeeds h { toHandover := h } := by
  cases hline : h.broker.line with
  | nil => exact .nobody rfl hline hline rfl
  | cons n ns =>
    have hfirst : h.broker.line.head? = some n := by rw [hline]; rfl
    have hn : n ∈ h.begun.filter h.broker.isUnderWay := by
      rw [← hsound.line, hline]
      exact List.mem_cons_self
    have hby : ({ toHandover := h } : Relay).By n :=
      ⟨(List.mem_filter.mp hn).1, fun _ => ⟨hfirst, fun x hx => by cases hx⟩⟩
    exact .first (List.append_nil h.begun).symm (by rwa [List.append_nil]) hby

theorem step (hr : Succeeds h r) (hsound : r.Sound) (hstep : r.step e = some r') :
    Succeeds h r' := by
  cases hr with
  | @first since n hbegun hfirst hby =>
    have hby' := hby.step hsound hstep
    obtain ⟨-, rfl⟩ := step_eq_some hstep
    have hbegun' : (r.toHandover.after e).begun =
        h.begun ++ (since ++ (r.broker.apply e).line.drop r.broker.line.length) := by
      rw [← List.append_assoc, ← hbegun]
      rfl
    refine .first hbegun' ?_ hby'
    rw [← List.append_assoc, List.head?_append, hfirst]
    rfl
  | nobody hbegun hbefore hline hhanded =>
    obtain ⟨-, rfl⟩ := step_eq_some hstep
    -- Only the first in line hands anything over, and there is none.
    have hnothing : r.broker.hands e = [] := by
      refine List.eq_nil_iff_forall_not_mem.mpr fun x hx => ?_
      cases (congrArg List.head? hline).symm.trans (Broker.head?_of_hands hsound.signsKept hx)
    have hjoined : (r.toHandover.after e).begun = h.begun ++ (r.broker.apply e).line := by
      rw [Handover.after, hline, hbegun]
      rfl
    have hhanded' : r.handed ++ r.broker.hands e = [] := by rw [hhanded, hnothing]; rfl
    cases hnow : (r.broker.apply e).line with
    | nil => exact .nobody (by rw [hjoined, hnow, List.append_nil]) hbefore hnow hhanded'
    | cons n ns =>
      refine .first hjoined (by rw [hbefore, hnow]; rfl)
        ⟨?_, fun _ => ⟨congrArg List.head? hnow, fun x hx => ?_⟩⟩
      · rw [hjoined, hnow]
        exact List.mem_append_right _ List.mem_cons_self
      · rw [hhanded'] at hx
        cases hx

theorem by_first (hr : Succeeds h r)
    (hfirst : (h.broker.line ++ r.begun.drop h.begun.length).head? = some n) :
    r.By n := by
  cases hr with
  | nobody hbegun hbefore =>
    rw [hbegun, hbefore, List.drop_length] at hfirst
    cases hfirst
  | first hbegun hm hby =>
    rw [hbegun, List.drop_left, hm] at hfirst
    obtain rfl := Option.some.inj hfirst
    exact hby

end Succeeds

/-! ## The result -/

/-- What comes from a transport, at whose time `h` nobody has the queue, as long as nothing is
returned. -/
structure Redelivers (h : Handover) (r : Relay) : Prop where
  /-- The returned messages come first, with nothing between them, as they are. -/
  first : (r.handed.take h.broker.returned.length).map (fun x => parcelOf? x.2) =
    (h.broker.returned.take r.handed.length).map some
  /-- Then those on the queue come. -/
  onwards : List.Forall₂ Parcel.Becomes (h.broker.supply.take r.messages.length)
    (r.messages.take h.broker.supply.length)
  /-- They all come from the next forwarder, as long as it has not ended. -/
  byOne : ∀ n, (h.broker.line ++ r.begun.drop h.begun.length).head? = some n →
    r.broker.isUnderWay n → ∀ x ∈ r.handed, x.1 = n
  /-- Whoever has the queue goes on with the next one of the returned ones, as soon as the slot is
  free. -/
  next : ∀ (n : Nat) (l : Lane) (favourNew : Bool), r.broker.line.head? = some n →
    r.broker.lanes[n]? = some l → l.IsOpen → r.handed.length < h.broker.returned.length →
      ∃ p, h.broker.returned[r.handed.length]? = some p ∧ r.broker.Serves n favourNew p 3
  /-- So it does with those on the queue, unless there is an error before them. -/
  nextNew : ∀ (n : Nat) (l : Lane) (favourNew : Bool), r.broker.line.head? = some n →
    r.broker.lanes[n]? = some l → l.IsOpen → l.forwarder.isReporting = false →
    (∀ text, r.broker.incoming.head? ≠ some (.error text)) →
      r.messages.length < h.broker.supply.length →
        ∃ p, h.broker.supply[r.messages.length]? = some p ∧ r.broker.Serves n favourNew p 6

theorem parcels_of_isHanded {ps : List Parcel} {xs : List (Nat × Except String Delivery)}
    (h : List.Forall₂ Parcel.IsHanded ps xs) (hnamed : ∀ p ∈ ps, ∃ d : Delivery, p = d.toParcel) :
    xs.map (fun x => parcelOf? x.2) = ps.map some := by
  induction h with
  | nil => rfl
  | @cons p x ps xs hp _ ih =>
    obtain ⟨d, hx, hd⟩ := hp
    obtain ⟨d', rfl⟩ := hnamed p List.mem_cons_self
    rw [List.map_cons, List.map_cons, ih fun q hq => hnamed q (List.mem_cons_of_mem _ hq), hx]
    exact congrArg (fun q => some q :: ps.map some) (hd.eq_of_named rfl)

end Relay

namespace Handover

variable {h : Handover} {r : Relay} {events : List Broker.Event}

theorem broker_run (h : Handover) (events : List Broker.Event) :
    (h.run events).broker = events.foldl Broker.apply h.broker := by
  induction events generalizing h with
  | nil => rfl
  | cons e events ih => exact ih (h.after e)

theorem Sound.redelivers (hsound : h.Sound) (horderly : h.broker.IsOrderly)
    (hidle : h.broker.IsIdle) (hrun : ({ toHandover := h } : Relay).run events = some r) :
    r.Redelivers h := by
  obtain ⟨hholds, hsound'⟩ := Relay.run_induction (fun hr hsound hstep => hr.step hsound hstep)
    (Relay.Holds.begin (r := { toHandover := h }) hidle rfl) hsound hrun
  obtain ⟨hsupplies, -⟩ := Relay.run_induction (fun hr hsound hstep => hr.step hsound hstep)
    (Relay.Supplies.begin (r := { toHandover := h }) hidle rfl) hsound hrun
  obtain ⟨hsucceeds, -⟩ := Relay.run_induction (fun hr hsound hstep => hr.step hsound hstep)
    (Relay.Succeeds.begin hsound) hsound hrun
  constructor
  case first =>
    exact Relay.parcels_of_isHanded hholds.inOrder fun p hp =>
      horderly.named p (List.mem_of_mem_take hp)
  case onwards => exact hsupplies.inOrder
  case byOne => exact fun n hfirst hunderWay => ((hsucceeds.by_first hfirst).2 hunderWay).2
  case next =>
    intro n l favourNew hfirst hl hopen hmore
    obtain ⟨k, p, d, hk, hp, hd, hslot⟩ :=
      hholds.next hsound' hfirst hl hopen.aborted hopen.reads hopen.slot hmore favourNew
    exact ⟨p, hp, k, d, hk, hd, hslot⟩
  case nextNew =>
    intro n l favourNew hfirst hl hopen hreporting herrors hmore
    exact hsupplies.next hsound' hfirst hl hopen hreporting herrors hmore favourNew

/-- Readers let go of some things while nobody has the queue, in whatever order, and whatever else
happens meanwhile but to what they have: the same messages are returned at last. Whatever users do,
it depends on which messages go back and not on the order of it; each time that one does, they are
in the order of their numbers and none is lost; and all of them are delivered next, in that order,
before those on the queue. -/
theorem redelivered_in_order {capacity : Nat} {b : Broker}
    (hopen : Broker.ofCapacity? capacity = some b) (before : List Broker.Event)
    (hidle : (({ broker := b } : Handover).run before).broker.IsIdle) {drops : List Broker.Event}
    (hdrops : ∀ e ∈ drops, e.isDrop) :
    let h := ({ broker := b } : Handover).run before
    (∃ R : List Parcel, (R.Pairwise fun p q => p.seq < q.seq) ∧
      (∀ p, p ∈ R ↔ p ∈ h.broker.returned ∨ ∃ e ∈ drops, p ∈ h.broker.returns e) ∧
      ∀ events : List Broker.Event, (∀ e ∈ events, e.isPassive) →
      (events.filter Broker.Event.isDrop).Perm drops → (h.run events).broker.returned = R) ∧
    ∀ events : List Broker.Event, (∀ e ∈ events, e.turnOf = none) →
      (∀ xs e ys, events = xs ++ e :: ys → (h.run xs).broker.Regains e) ∧
      (∀ others : List Broker.Event, (∀ e ∈ others, e.turnOf = none) →
        (h.broker.returnsOf others).Perm (h.broker.returnsOf events) →
          (h.run others).broker.returned = (h.run events).broker.returned) ∧
      ∀ (further : List Broker.Event) (r : Relay),
        ({ toHandover := h.run events } : Relay).run further = some r →
        r.Redelivers (h.run events) := by
  intro h
  have hsound : h.Sound := (sound_ofCapacity? hopen).run before
  have horderly : h.broker.IsOrderly := by
    rw [broker_run]
    exact (Broker.isOrderly_ofCapacity? hopen).foldl before
  have horderly' (events : List Broker.Event) : (h.run events).broker.IsOrderly := by
    rw [broker_run]
    exact horderly.foldl events
  refine ⟨⟨(drops.foldl Broker.apply h.broker).returned, (horderly.foldl drops).sorted, fun p =>
    ?mem, ?same⟩, ?_⟩
  case mem =>
    exact Broker.mem_returned_foldl h.broker fun e he =>
      Broker.Event.isPassive_of_isDrop (hdrops e he)
  case same =>
    intro events hpassive hperm
    rw [broker_run]
    exact Broker.returned_eq_of_drops horderly hdrops hpassive hperm
  intro events husers
  refine ⟨fun xs e ys hevents => ?regains, fun others husers' hperm => ?order, fun further r hrun =>
    ?delivered⟩
  case regains =>
    have he : e ∈ events := by
      rw [hevents]
      exact List.mem_append_right _ List.mem_cons_self
    exact Broker.regains_apply (horderly' xs) (husers e he)
  case order =>
    rw [broker_run h others, broker_run h events]
    exact Broker.returned_eq_of_perm horderly husers husers' hperm
  case delivered =>
    have hidle' : (h.run events).broker.IsIdle := by
      rw [broker_run]
      exact hidle.foldl horderly husers
    exact (hsound.run events).redelivers (horderly' events) hidle' hrun

/-- A forwarder is aborted after two messages were received, with a third one in the slot. They are
let go of in the opposite order, while another one is published: the next forwarder delivers the
three, and then those on the queue. -/
theorem redelivered_in_order_of_three :
    let before : List Broker.Event :=
      [.publish (some "a") .null, .publish (some "b") .null, .publish (some "c") .null,
        .publish (some "d") .null, .create, .consume 0 0, .forward 0 false, .forward 0 false,
        .forward 0 false, .forward 0 false, .forward 0 false, .receive 0, .forward 0 false,
        .forward 0 false, .forward 0 false, .receive 0, .forward 0 false, .forward 0 false,
        .forward 0 false, .abort 0, .forward 0 false]
    let drops : List Broker.Event := [.dropMessage 0, .dropMessage 1, .dropMessages 0]
    let events : List Broker.Event :=
      [.dropMessages 0, .publish (some "e") .null, .dropMessage 1, .dropMessage 0]
    let further : List Broker.Event :=
      [.create, .consume 1 1, .forward 1 false, .forward 1 false, .forward 1 false,
        .forward 1 false, .receive 1, .forward 1 false, .forward 1 false, .receive 1,
        .forward 1 false, .forward 1 false, .receive 1, .forward 1 false, .forward 1 false,
        .forward 1 false, .forward 1 false, .forward 1 false, .receive 1, .forward 1 false,
        .forward 1 false, .forward 1 false]
    ∃ b, Broker.ofCapacity? 4 = some b ∧ ∃ h, ({ broker := b } : Handover).run before = h ∧
    h.broker.IsIdle ∧ (∀ e ∈ drops, e.isDrop) ∧ ∃ R : List Parcel, R.map Parcel.seq = [0, 1, 2] ∧
        (h.run drops).broker.returned = R ∧ (h.run events).broker.returned = R ∧
        ∃ r, ({ toHandover := h.run events } : Relay).run further = some r ∧
          r.handed.map (fun x => (x.1, x.2.toOption.map Delivery.seq)) =
            [(1, some 0), (1, some 1), (1, some 2), (1, some 3), (1, some 4)] ∧
            r.Redelivers (h.run events) := by
  intro before drops events further
  have hopen : Broker.ofCapacity? 4 = some { capacity := 4 } := rfl
  have hidle : (({ broker := { capacity := 4 } } : Handover).run before).broker.IsIdle := by
    intro n l hl
    match n with
    | 0 =>
      obtain rfl := Option.some.inj hl
      rfl
    | n + 1 => cases hl
  have hdrops : ∀ e ∈ drops, e.isDrop := by decide
  obtain ⟨⟨R, -, -, hsame⟩, husers⟩ := redelivered_in_order hopen before hidle hdrops
  have hreturned := hsame drops (by decide) (.refl _)
  have hreturned' := hsame events (by decide) (List.reverse_perm drops)
  obtain ⟨-, -, hrelays⟩ := husers events (by decide)
  have hseq :
      ((({ broker := { capacity := 4 } } : Handover).run before).run drops).broker.returned.map
      Parcel.seq = [0, 1, 2] := by
    decide +kernel
  have hrun :
      (({ toHandover := (({ broker := { capacity := 4 } } : Handover).run before).run events } :
      Relay).run further).map (fun r => r.handed.map fun x =>
        (x.1, x.2.toOption.map Delivery.seq)) =
        some [(1, some 0), (1, some 1), (1, some 2), (1, some 3), (1, some 4)] := by
    decide +kernel
  obtain ⟨r, hr, hhanded⟩ := Option.map_eq_some_iff.mp hrun
  exact ⟨_, hopen, _, rfl, hidle, hdrops, R, hreturned ▸ hseq, hreturned, hreturned', r, hr,
    hhanded, hrelays further r hr⟩

end Handover

end Courier
