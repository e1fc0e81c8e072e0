import Courier.Proofs.Broker.Forwarding
import Courier.Proofs.Broker.Core

/-!
# What forwarders without a limit do

A forwarder that was told no limit never gives up. In its turn it either waits, for a reason that
`Lane.Waits` names, or does one of a few things to the core, as `Core.ForwarderStep` says.

Only the forwarder that has the queue is looked at here: those of the other lanes have ended
(`Core.Alone`), as is the case when runs follow one another. `Broker.turns_advance` is about a turn
of such a forwarder, and `Broker.turns_overrun` about one that does not yet know that it is to end.
-/

namespace Courier

namespace Forwarder

/-- Whether the forwarder stands in line for the queue, or has it. -/
def isQueued : Forwarder → Bool
  | .starting | .ended => false
  | _ => true

/-- Whether the forwarder has found no returned message, and looks for an envelope. -/
def isAwaitingNew : Forwarder → Bool
  | .choosing _ | .parked .. => true
  | _ => false

/-- Whether the forwarder never gives up waiting. -/
def hasNoDeadline : Forwarder → Bool
  | .looking deadline | .choosing deadline | .parked deadline _ => deadline.isNone
  | .reporting _ last => !last
  | _ => true

end Forwarder

/-- Whether the forwarder of a lane has no limit. -/
structure Lane.HasNoLimit (l : Lane) : Prop where
  limit : l.limit = none
  forwarder : l.forwarder.hasNoDeadline

/-- What the forwarder of the `n`-th lane, which is `l`, waits for. -/
inductive Lane.Waits (n : Nat) (l : Lane) (g : Core) : Prop
  /-- It has ended. -/
  | ended (h : l.forwarder = .ended)
  /-- It waits for its turn to have the queue. -/
  | turn (h : l.forwarder = .queueing) (hturn : g.line.head? ≠ some n)
  /-- It waits for an envelope or a sign. -/
  | envelope (h : l.forwarder = .parked none false) (hincoming : g.incoming = [])
    (hpublishers : g.publishers ≠ 0)
  /-- It waits for the reader to take the message in the slot. -/
  | slot {d : Delivery} (h : l.forwarder = .offering d) (hslot : l.slot.isSome)
  /-- It waits for the reader to take the error in the slot. -/
  | errorSlot {error : String} (h : l.forwarder = .reporting error false)
    (hslot : l.errorSlot.isSome)

/-- What becomes of the sign when the forwarder of a lane takes an envelope: one that has reached it
is kept. -/
inductive Lane.Keeps (l : Lane) (permit : Bool) : Bool → Prop
  | choosing (h : l.forwarder = .choosing none) : Keeps l permit permit
  | parked {notified : Bool} (h : l.forwarder = .parked none notified) :
    Keeps l permit (permit || notified)

/-- What the forwarder of the `n`-th lane, which is `l`, can do in one step. -/
inductive Core.ForwarderStep (n : Nat) (l : Lane) (g : Core) : Core → Prop
  /-- It joins the line for the queue. -/
  | join (h : l.forwarder = .starting) :
    ForwarderStep n l g (({ g with line := g.line ++ [n] } : Core).setLane n { l with
      forwarder := .queueing })
  /-- It has the queue from now on. -/
  | enter (h : l.forwarder = .queueing) (hturn : g.line.head? = some n) :
    ForwarderStep n l g (g.setLane n { l with forwarder := .looking none })
  /-- It takes a returned message in hand. -/
  | takeReturned {p : Parcel} {rest : List Parcel} {d : Delivery} (h : l.forwarder = .looking none)
    (hreturned : g.returned = p :: rest) :
    ForwarderStep n l g (({ g with returned := rest } : Core).setLane n { l with
      forwarder := .offering d })
  /-- It finds no returned message. -/
  | choose (h : l.forwarder = .looking none) (hreturned : g.returned = []) :
    ForwarderStep n l g (g.setLane n { l with forwarder := .choosing none })
  /-- It follows a sign that was kept. -/
  | followPermit (h : l.forwarder = .choosing none) (hpermit : g.permit = true) :
    ForwarderStep n l g (({ g with permit := false } : Core).setLane n { l with
      forwarder := .looking none })
  /-- It follows a sign that has reached it. -/
  | followSign (h : l.forwarder = .parked none true) :
    ForwarderStep n l g (g.setLane n { l with forwarder := .looking none })
  /-- It takes a new message in hand. -/
  | takeMessage {p : Parcel} {rest : List Envelope} {permit : Bool} {d : Delivery}
    (h : l.Keeps g.permit permit) (hincoming : g.incoming = .message p :: rest) :
    ForwarderStep n l g ((({ g with permit := permit } : Core).dequeue rest).setLane n
      { l with forwarder := .offering d })
  /-- It takes a new error in hand. -/
  | takeError {text : String} {rest : List Envelope} {permit : Bool} (h : l.Keeps g.permit permit)
    (hincoming : g.incoming = .error text :: rest) :
    ForwarderStep n l g ((({ g with permit := permit } : Core).dequeue rest).setLane n
      { l with forwarder := .reporting text false })
  /-- It ends, for there will be no more envelopes. -/
  | finish {permit : Bool} (h : l.forwarder.isAwaitingNew) (hincoming : g.incoming = [])
    (hpublishers : g.publishers = 0) :
    ForwarderStep n l g (({ g with permit := permit, line := g.line.erase n } : Core).setLane n
      { l with forwarder := .ended })
  /-- It begins to wait for an envelope or a sign. -/
  | park (h : l.forwarder = .choosing none) (hincoming : g.incoming = []) :
    ForwarderStep n l g (g.setLane n { l with forwarder := .parked none false })
  /-- It hands a message over. -/
  | handOver {d : Delivery} (h : l.forwarder = .offering d) (hslot : l.slot = none) :
    ForwarderStep n l g (g.setLane n { l with slot := some d, forwarder := .looking none })
  /-- It hands an error over. -/
  | report {error : String} (h : l.forwarder = .reporting error false)
    (hslot : l.errorSlot = none) :
    ForwarderStep n l g (g.setLane n { l with errorSlot := some error, forwarder := .looking none })
  /-- It ends early, and gives back what it has in hand. -/
  | quit {returned : List Parcel} {permit : Bool} (h : l.forwarder.isEnded = false)
    (hgone : l.aborted = true ∨ l.readsMessages = false ∨ l.readsErrors = false)
    (hreturned : returned.length ≤ g.returned.length + 1) :
    ForwarderStep n l g (({ g with
      returned := returned, permit := permit, line := g.line.erase n } : Core).setLane n
        { l with forwarder := .ended })

/-- What a forwarder that makes `l'` of its lane `l` leaves as it is. It ends because there will be
no more envelopes, or because it is to end. -/
structure Core.ForwarderStepOnly (n : Nat) (l l' : Lane) (g g' : Core) : Prop where
  rest : g' = { g with
    incoming := g'.incoming, blocked := g'.blocked, returned := g'.returned, permit := g'.permit,
    line := g'.line, lanes := g.lanes.set n l' }
  begun : l.forwarder ≠ .ended
  aborted : l'.aborted = l.aborted
  readsMessages : l'.readsMessages = l.readsMessages
  readsErrors : l'.readsErrors = l.readsErrors
  ended : l'.forwarder = .ended →
    (l.forwarder.isAwaitingNew ∧ g.publishers = 0 ∧ g'.incoming = [] ∧ g'.returned = g.returned) ∨
      l.aborted = true ∨ l.readsMessages = false ∨ l.readsErrors = false

theorem Lane.Keeps.isAwaitingNew {l : Lane} {permit permit' : Bool} (h : l.Keeps permit permit') :
    l.forwarder.isAwaitingNew := by
  cases h with
  | choosing h | parked h =>
    rw [h]
    rfl

theorem Forwarder.isOffering_of_isAwaitingNew {f : Forwarder} (h : f.isAwaitingNew) :
    f.isOffering = false := by
  cases f <;> first | rfl | cases h

theorem Forwarder.ne_ended_of_isAwaitingNew {f : Forwarder} (h : f.isAwaitingNew) : f ≠ .ended := by
  rintro rfl
  cases h

/-- Taking an envelope off the queue changes nothing else. -/
theorem Core.dequeue_eq (g : Core) (rest : List Envelope) :
    ∃ incoming blocked, g.dequeue rest = { g with incoming := incoming, blocked := blocked } := by
  unfold dequeue
  split
  · exact ⟨_, _, rfl⟩
  · split <;> exact ⟨_, _, rfl⟩

theorem Core.ForwarderStep.only {n : Nat} {l : Lane} {g g' : Core} (h : g.ForwarderStep n l g') :
    ∃ l', Core.ForwarderStepOnly n l l' g g' := by
  cases h with
  | join h | enter h | takeReturned h | choose h | followPermit h | followSign h | park h
  | handOver h | report h =>
    exact ⟨_, rfl, by rw [h]; exact (nomatch ·), rfl, rfl, rfl, fun hended => by cases hended⟩
  | @takeMessage _ rest permit _ hkeeps | @takeError _ rest permit hkeeps =>
    obtain ⟨incoming, blocked, hdequeue⟩ := Core.dequeue_eq { g with permit := permit } rest
    rw [hdequeue]
    exact ⟨_, rfl, Forwarder.ne_ended_of_isAwaitingNew hkeeps.isAwaitingNew, rfl, rfl, rfl,
      fun hended => by cases hended⟩
  | finish h hincoming hpublishers =>
    exact ⟨_, rfl, Forwarder.ne_ended_of_isAwaitingNew h, rfl, rfl, rfl,
      fun _ => .inl ⟨h, hpublishers, hincoming, rfl⟩⟩
  | quit h hgone =>
    refine ⟨_, rfl, fun hended => ?_, rfl, rfl, rfl, fun _ => .inr hgone⟩
    rw [hended] at h
    cases h

namespace Broker

variable {b : Broker} {n : Nat} {l : Lane}

/-! ## Parts of a turn -/

/-- A forwarder that ends leaves the line, and gives back the message in its hand. -/
theorem core_finish (h : b.lanes[n]? = some l) (halone : b.core.Alone n) :
    ∃ returned permit, returned.length ≤ b.core.returned.length + 1 ∧
      (l.forwarder.isOffering = false → returned = b.core.returned) ∧
      (b.finish n l).core =
        ({ b.core with
          returned := returned, permit := permit, line := b.core.line.erase n } : Core).setLane n
            { l with forwarder := .ended } := by
  have hend {c : Broker} {l' : Lane} (h' : c.lanes[n]? = some l') :
      (((c.leaveLine n).setForwarder n .ended).wake (.reader l.owner)).core =
        ({ c.core with line := c.core.line.erase n } : Core).setLane n
          { l' with forwarder := .ended } := by
    have hlanes : (c.leaveLine n).lanes = c.lanes := congrArg Core.lanes (core_leaveLine c n)
    rw [core_wake, core_setForwarder (hlanes ▸ h'), core_leaveLine]
    rfl
  unfold finish
  cases hforwarder : l.forwarder with
  | offering d =>
    obtain ⟨g, f, hreturns, hgiven⟩ := core_giveBack h halone d
    have hlt : n < b.lanes.length := (List.getElem?_eq_some_iff.mp h).1
    have hg : g = { b.core with returned := g.returned, permit := g.permit } := hreturns.rest
    have hlanes : (b.giveBack d).lanes = b.lanes.set n { l with forwarder := f } := by
      show (b.giveBack d).core.lanes = _
      rw [hgiven, hg]
      rfl
    refine ⟨g.returned, g.permit, Nat.le_of_eq hreturns.length, (nomatch ·), ?_⟩
    show (Broker.wake _ _).core = _
    rw [hend (hlanes ▸ List.getElem?_set_self hlt), hgiven, hg]
    simp only [Core.setLane, List.set_set]
  | parked deadline notified =>
    cases notified with
    | true =>
      exact ⟨b.returned, true, Nat.le_succ _, fun _ => rfl, hend (c := { b with permit := true }) h⟩
    | false => exact ⟨b.returned, b.permit, Nat.le_succ _, fun _ => rfl, hend h⟩
  | _ => exact ⟨b.returned, b.permit, Nat.le_succ _, fun _ => rfl, hend h⟩

/-- A message is taken in hand. -/
theorem core_pickUp (hl : b.lanes[n]? = some l) (p : Parcel) :
    ∃ d : Delivery, p.Becomes d.toParcel ∧
      (b.pickUp n p).core = b.core.setLane n { l with forwarder := .offering d } := by
  unfold pickUp
  split
  · next id hid =>
    refine ⟨⟨p.seq, id, p.payload⟩, ⟨rfl, rfl, fun id' hid' => ?_⟩, core_setForwarder hl _⟩
    rw [← hid', hid]
    rfl
  · next hid =>
    refine ⟨⟨p.seq, .fresh b.freshIds, p.payload⟩, ⟨rfl, rfl, fun id hid' => ?_⟩,
      core_setForwarder (b := { b with freshIds := b.freshIds + 1 }) hl _⟩
    cases hid.symm.trans hid'

/-- A forwarder that ends early gives up what it does. -/
theorem forwarderStep_quit (h : b.lanes[n]? = some l) (halone : b.core.Alone n)
    (hended : l.forwarder.isEnded = false)
    (hgone : l.aborted = true ∨ l.readsMessages = false ∨ l.readsErrors = false) :
    b.core.ForwarderStep n l (b.finish n l).core := by
  obtain ⟨returned, permit, hlength, -, hcore⟩ := core_finish h halone
  rw [hcore]
  exact .quit hended hgone hlength

/-- A forwarder to whom the queue speaks takes an envelope, or ends. -/
theorem forwarderStep_takeNew {g : Core} {permit : Bool} (h : b.lanes[n]? = some l)
    (hcore : b.core = { g with permit := permit }) (halone : g.Alone n)
    (hkeeps : l.Keeps g.permit permit) (hspeaks : b.speaks = true) :
    g.ForwarderStep n l (b.takeNew n l).1.core := by
  have hrefilled (rest : List Envelope) :
      ({ b with incoming := rest } : Broker).refill.lanes[n]? = some l := by
    rwa [lanes_refill]
  have hincoming' : b.incoming = g.incoming := congrArg Core.incoming hcore
  unfold takeNew
  rcases hincoming : b.incoming with _ | ⟨⟨p⟩ | ⟨text⟩, rest⟩
  · have hpublishers : b.publishers = 0 := by simpa [speaks, hincoming] using hspeaks
    obtain ⟨returned, permit', -, hreturned, hfinish⟩ := core_finish h (hcore ▸ halone)
    show g.ForwarderStep n l (b.finish n l).core
    rw [hfinish, hreturned (Forwarder.isOffering_of_isAwaitingNew hkeeps.isAwaitingNew), hcore]
    exact .finish hkeeps.isAwaitingNew (hincoming'.symm.trans hincoming)
      ((congrArg Core.publishers hcore).symm.trans hpublishers)
  · obtain ⟨d, -, hd⟩ := core_pickUp (hrefilled rest) p
    show g.ForwarderStep n l (Broker.pickUp _ n p).core
    rw [hd, core_refill, hcore]
    exact .takeMessage hkeeps (hincoming'.symm.trans hincoming)
  · show g.ForwarderStep n l (Broker.setForwarder _ n _).core
    rw [core_setForwarder (hrefilled rest), core_refill, hcore]
    exact .takeError hkeeps (hincoming'.symm.trans hincoming)

/-! ## Turns -/

/-- Whether a turn comes to nothing for a reason, or does something to the core. -/
def Turns (b : Broker) (n : Nat) (l : Lane) (b' : Broker) : Prop :=
  b' = b ∧ l.Waits n b.core ∨ b.core.ForwarderStep n l b'.core

theorem deadlineOf_of_none (b : Broker) {limit : Option Span} (h : limit = none) :
    b.deadlineOf limit = none := by
  rw [h]
  rfl

theorem turns_takeQueue (h : b.lanes[n]? = some l) (hforwarder : l.forwarder = .queueing)
    (hlimit : l.limit = none) : b.Turns n l (b.takeQueue n l).1 := by
  unfold takeQueue
  split
  · next hturn =>
    refine .inr ?_
    rw [core_setForwarder h, deadlineOf_of_none b hlimit]
    exact .enter hforwarder (show b.core.line.head? = some n from hturn)
  · next hturn => exact .inl ⟨rfl, .turn hforwarder hturn⟩

theorem turns_look (h : b.lanes[n]? = some l) (hforwarder : l.forwarder = .looking none) :
    b.Turns n l (b.look n none).1 := by
  unfold look
  split
  · next p rest hreturned =>
    obtain ⟨d, -, hd⟩ := core_pickUp (b := { b with returned := rest }) h p
    refine .inr ?_
    rw [hd]
    exact .takeReturned hforwarder hreturned
  · next hreturned =>
    refine .inr ?_
    rw [core_setForwarder h]
    exact .choose hforwarder hreturned

/-- A queue that says nothing is empty, and has publishers. -/
theorem silent_of_speaks (h : b.speaks = false) : b.incoming = [] ∧ b.publishers ≠ 0 := by
  simpa [speaks] using h

theorem turns_choose (h : b.lanes[n]? = some l) (halone : b.core.Alone n)
    (hforwarder : l.forwarder = .choosing none) (favourNew : Bool) :
    b.Turns n l (b.choose n l none favourNew).1 := by
  refine .inr ?_
  unfold choose
  split
  · next hpermit =>
    rw [core_setForwarder (b := { b with permit := false }) h]
    exact .followPermit hforwarder (Bool.and_eq_true_iff.mp hpermit).1
  · split
    · next hspeaks => exact forwarderStep_takeNew h rfl halone (.choosing hforwarder) hspeaks
    · next hspeaks =>
      rw [Bool.not_eq_true] at hspeaks
      rw [isOver, Option.any_none, if_neg Bool.false_ne_true, core_setForwarder h]
      exact .park hforwarder (silent_of_speaks hspeaks).1

theorem turns_resume {notified : Bool} (h : b.lanes[n]? = some l) (halone : b.core.Alone n)
    (hforwarder : l.forwarder = .parked none notified) (favourNew : Bool) :
    b.Turns n l (b.resume n l none notified favourNew).1 := by
  unfold resume
  split
  · next hnotified =>
    rw [(Bool.and_eq_true_iff.mp hnotified).1] at hforwarder
    refine .inr ?_
    rw [core_setForwarder h]
    exact .followSign hforwarder
  · next hnotified =>
    split
    · next hspeaks =>
      exact .inr (forwarderStep_takeNew (b := { b with permit := b.permit || notified }) h rfl
        halone (.parked hforwarder) hspeaks)
    · next hspeaks =>
      rw [Bool.not_eq_true] at hspeaks
      obtain rfl : notified = false := by simpa [hspeaks] using hnotified
      rw [isOver, Option.any_none, if_neg Bool.false_ne_true]
      obtain ⟨hincoming, hpublishers⟩ := silent_of_speaks hspeaks
      exact .inl ⟨rfl, .envelope hforwarder hincoming hpublishers⟩

theorem turns_handOver {d : Delivery} (h : b.lanes[n]? = some l) (halone : b.core.Alone n)
    (hforwarder : l.forwarder = .offering d) (hlimit : l.limit = none) :
    b.Turns n l (b.handOver n l d).1 := by
  unfold handOver
  split
  · next hreads =>
    exact .inr (forwarderStep_quit h halone (by rw [hforwarder]; rfl)
      (.inr (.inl (by simpa using hreads))))
  · split
    · next hslot => exact .inl ⟨rfl, .slot hforwarder hslot⟩
    · next hslot =>
      refine .inr ?_
      show b.core.ForwarderStep n l (Broker.wake _ _).core
      rw [core_wake, core_modifyLane h, deadlineOf_of_none b hlimit]
      exact .handOver hforwarder (Option.not_isSome_iff_eq_none.mp hslot)

theorem turns_report {error : String} (h : b.lanes[n]? = some l) (halone : b.core.Alone n)
    (hforwarder : l.forwarder = .reporting error false) (hlimit : l.limit = none) :
    b.Turns n l (b.report n l error false).1 := by
  unfold report
  split
  · next hreads =>
    exact .inr (forwarderStep_quit h halone (by rw [hforwarder]; rfl)
      (.inr (.inr (by simpa using hreads))))
  · split
    · next hslot => exact .inl ⟨rfl, .errorSlot hforwarder hslot⟩
    · next hslot =>
      refine .inr ?_
      rw [if_neg Bool.false_ne_true]
      show b.core.ForwarderStep n l (Broker.wake _ _).core
      rw [core_wake, core_modifyLane h, deadlineOf_of_none b hlimit]
      exact .report hforwarder (Option.not_isSome_iff_eq_none.mp hslot)

/-- What a forwarder without a limit does next where it stands. -/
theorem turns_proceed (h : b.lanes[n]? = some l) (halone : b.core.Alone n)
    (hunlimited : l.HasNoLimit) (favourNew : Bool) : b.Turns n l (b.proceed n l favourNew).1 := by
  have hnever := hunlimited.forwarder
  unfold proceed
  cases hforwarder : l.forwarder with
  | starting =>
    refine .inr ?_
    show b.core.ForwarderStep n l (Broker.setForwarder _ n _).core
    rw [core_setForwarder (b := { b with line := b.line ++ [n] }) h]
    exact .join hforwarder
  | queueing => exact turns_takeQueue h hforwarder hunlimited.limit
  | looking deadline =>
    rw [hforwarder] at hnever
    obtain rfl := Option.isNone_iff_eq_none.mp hnever
    exact turns_look h hforwarder
  | choosing deadline =>
    rw [hforwarder] at hnever
    obtain rfl := Option.isNone_iff_eq_none.mp hnever
    exact turns_choose h halone hforwarder favourNew
  | parked deadline notified =>
    rw [hforwarder] at hnever
    obtain rfl := Option.isNone_iff_eq_none.mp hnever
    exact turns_resume h halone hforwarder favourNew
  | offering d => exact turns_handOver h halone hforwarder hunlimited.limit
  | reporting error last =>
    rw [hforwarder] at hnever
    obtain rfl : last = false := by simpa [Forwarder.hasNoDeadline] using hnever
    exact turns_report h halone hforwarder hunlimited.limit
  | ended => exact .inl ⟨rfl, .ended hforwarder⟩

/-- A forwarder without a limit waits in its turn, or does something. One that was aborted ends. -/
theorem turns_advance (h : b.lanes[n]? = some l) (halone : b.core.Alone n)
    (hunlimited : l.HasNoLimit) (favourNew : Bool) :
    (b.advance n favourNew).1 = b ∧ l.Waits n b.core ∧ (l.aborted = true → l.forwarder.isEnded) ∨
      b.core.ForwarderStep n l (b.advance n favourNew).1.core := by
  have hadvance : b.advance n favourNew =
      if l.aborted && !l.forwarder.isEnded then (b.finish n l, .resting)
      else b.proceed n l favourNew := by
    rw [advance, h]
  rw [hadvance]
  by_cases haborted : (l.aborted && !l.forwarder.isEnded) = true
  · rw [if_pos haborted]
    obtain ⟨haborted, hended⟩ := Bool.and_eq_true_iff.mp haborted
    exact .inr (forwarderStep_quit h halone (by simpa using hended) (.inl haborted))
  · rw [if_neg haborted]
    rcases turns_proceed h halone hunlimited favourNew with ⟨hrest, hwaits⟩ | hforward
    · exact .inl ⟨hrest, hwaits, fun h' => by simpa [h'] using haborted⟩
    · exact .inr hforward

/-- The same goes for one that does not notice that it is to end. -/
theorem turns_overrun (h : b.lanes[n]? = some l) (halone : b.core.Alone n)
    (hunlimited : l.HasNoLimit) (favourNew : Bool) : b.Turns n l (b.overrun n favourNew) := by
  rw [overrun, h]
  exact turns_proceed h halone hunlimited favourNew

/-- A forwarder that has ended does nothing. -/
theorem advance_of_ended (h : ∀ l, b.lanes[n]? = some l → l.forwarder = .ended) (favourNew : Bool) :
    (b.advance n favourNew).1 = b ∧ b.overrun n favourNew = b := by
  unfold advance overrun
  cases hl : b.lanes[n]? with
  | none => exact ⟨rfl, rfl⟩
  | some l => simp [proceed, h l hl, Forwarder.isEnded]

/-- A turn that does not come to nothing is that of the only forwarder that is there. -/
theorem forwarderStep_of_ne {b' : Broker} {lane : Nat} {favourNew : Bool} (halone : b.core.Alone n)
    (hunlimited : ∀ l ∈ b.lanes, l.HasNoLimit)
    (hturn : b' = (b.advance lane favourNew).1 ∨ b' = b.overrun lane favourNew) (hchange : b' ≠ b) :
    ∃ l, b.lanes[n]? = some l ∧ b.core.ForwarderStep n l b'.core := by
  have hbegun : ¬ ∀ l, b.lanes[lane]? = some l → l.forwarder = .ended := fun hended => by
    obtain ⟨hadvance, hoverrun⟩ := advance_of_ended hended favourNew
    rcases hturn with rfl | rfl
    · exact hchange hadvance
    · exact hchange hoverrun
  obtain ⟨l, hrest⟩ := not_forall.mp hbegun
  obtain ⟨hl, hended⟩ := Classical.not_imp.mp hrest
  obtain rfl : lane = n := by
    by_contra hne
    exact hended (halone lane l hl hne)
  have hunlimited := hunlimited l (List.mem_of_getElem? hl)
  refine ⟨l, hl, ?_⟩
  rcases hturn with rfl | rfl
  · rcases turns_advance hl halone hunlimited favourNew with ⟨hsame, -⟩ | hforward
    · exact absurd hsame hchange
    · exact hforward
  · rcases turns_overrun hl halone hunlimited favourNew with ⟨hsame, -⟩ | hforward
    · exact absurd hsame hchange
    · exact hforward

end Broker

end Courier
