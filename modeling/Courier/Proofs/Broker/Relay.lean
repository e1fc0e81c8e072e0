import Courier.Proofs.Broker.Handover

/-!
# What the next forwarder delivers first

When a forwarder has ended, the next one in line gets the queue, and what was returned until then
comes to its reader first, in the order of the numbers (`Relay.Holds`), unless more is returned
meanwhile.

`Relay.handed` remembers what has been handed over to readers since.
-/

namespace Courier

/-- What has come into the free slots of a lane. -/
def Lane.gains (l l' : Lane) : List (Except String Delivery) :=
  (if l.slot.isNone then l'.slot.toList.map Except.ok else []) ++
    (if l.errorSlot.isNone then l'.errorSlot.toList.map Except.error else [])

theorem Lane.gains_of_emptied {l l' : Lane} (hslot : l'.slot = l.slot ∨ l'.slot = none)
    (herrorSlot : l'.errorSlot = l.errorSlot ∨ l'.errorSlot = none) : l.gains l' = [] := by
  have hmessage : (if l.slot.isNone then l'.slot.toList.map Except.ok else []) =
      ([] : List (Except String Delivery)) := by
    rcases hslot with hslot | hslot
    · cases hbefore : l.slot <;> simp [hslot, hbefore]
    · simp [hslot]
  have herror : (if l.errorSlot.isNone then l'.errorSlot.toList.map Except.error else []) =
      ([] : List (Except String Delivery)) := by
    rcases herrorSlot with herrorSlot | herrorSlot
    · cases hbefore : l.errorSlot <;> simp [herrorSlot, hbefore]
    · simp [herrorSlot]
  rw [gains, hmessage, herror, List.append_nil]

theorem Lane.gains_of_same {l l' : Lane} (hslot : l'.slot = l.slot)
    (herrorSlot : l'.errorSlot = l.errorSlot) :
    l.gains l' = [] :=
  gains_of_emptied (.inl hslot) (.inl herrorSlot)

theorem Lane.gains_of_move (l : Lane) (f : Forwarder) : l.gains { l with forwarder := f } = [] :=
  gains_of_same rfl rfl

theorem Lane.gains_of_handOver {l : Lane} (hslot : l.slot = none) (d : Delivery) (f : Forwarder) :
    l.gains { l with slot := some d, forwarder := f } = [.ok d] := by
  cases herror : l.errorSlot <;> simp [gains, hslot, herror]

/-- What a forwarder hands over in an event, with its lane. -/
def Broker.hands (b : Broker) (e : Broker.Event) : List (Nat × Except String Delivery) :=
  match e.turnOf with
  | none => []
  | some n =>
    match b.lanes[n]?, (b.apply e).lanes[n]? with
    | some l, some l' => (l.gains l').map (Prod.mk n)
    | _, _ => []

/-- A transport, with what has been handed over to readers since a certain time. -/
structure Relay extends Handover where
  /-- What was handed over, with the lanes, in that order. -/
  handed : List (Nat × Except String Delivery) := []

namespace Relay

/-- What becomes of a transport in an event in which no message is returned. -/
def step (r : Relay) (e : Broker.Event) : Option Relay :=
  if (r.broker.apply e).returned.length ≤ r.broker.returned.length then
    some ⟨r.toHandover.after e, r.handed ++ r.broker.hands e⟩
  else none

/-- What becomes of a transport in several events, if no message is returned in them. -/
def run (r : Relay) (events : List Broker.Event) : Option Relay := events.foldlM step r

end Relay

/-- Whether a returned message is the one that was handed over. -/
def Parcel.IsHanded (p : Parcel) (x : Nat × Except String Delivery) : Prop :=
  ∃ d, x.2 = .ok d ∧ p.Becomes d.toParcel

/-! ## Steps of one forwarder -/

namespace Broker

variable {b : Broker} {e : Broker.Event} {n : Nat} {l l' : Lane}

theorem hands_of_user (he : e.turnOf = none) : b.hands e = [] := by
  rw [hands, he]

theorem hands_of_turn (he : e.turnOf = some n) (hl : b.lanes[n]? = some l)
    (hl' : (b.apply e).lanes[n]? = some l') : b.hands e = (l.gains l').map (Prod.mk n) := by
  simp only [hands, he, hl, hl']

theorem hands_of_missed (he : e.turnOf = some n) (hsame : b.apply e = b) : b.hands e = [] := by
  cases hl : b.lanes[n]? with
  | none => simp only [hands, he, hsame, hl]
  | some l => simp only [hands, he, hsame, hl, Lane.gains_of_same, List.map_nil]

/-- Only the first in line hands anything over. -/
theorem head?_of_hands (hsigns : b.queueState.SignsKept) {x : Nat × Except String Delivery}
    (hx : x ∈ b.hands e) :
    b.line.head? = some x.1 := by
  unfold hands at hx
  split at hx
  · cases hx
  · next n he =>
    split at hx
    · next l l' hl hl' =>
      obtain ⟨y, hy, rfl⟩ := List.mem_map.mp hx
      by_cases hqueue : l.forwarder.hasQueue
      · exact hsigns.queue (getElem?_forwarders hl) hqueue
      · have hnothing : l.gains l' = [] := by
          rcases (happens_apply hsigns e).lane hl hl' with ⟨hchanged, -⟩ | ⟨-, hadvances, -⟩
          · exact Lane.gains_of_emptied hchanged.slot hchanged.errorSlot
          · obtain ⟨-, -, hslot, herrorSlot, -⟩ := hadvances.of_not_hasQueue (by simpa using hqueue)
            exact Lane.gains_of_same hslot herrorSlot
        rw [hnothing] at hy
        cases hy
    · cases hx

/-- What a forwarder can do that looks for a returned message: take one, or look on if there is
none. -/
theorem Advances.of_looking {line : List Nat} {incoming : List Envelope} {returned : List Parcel}
    (h : b.Advances n l l' line incoming returned) {deadline : Option Nat}
    (hlooking : l.forwarder = .looking deadline) :
    l' = l ∧ returned = b.returned ∨
      (∃ p d, b.returned = p :: returned ∧ p.Becomes d.toParcel ∧
        l' = { l with forwarder := .offering d }) ∨
      b.returned = [] ∧ returned = [] ∧ l' = { l with forwarder := .choosing deadline } ∨
      returned = b.returned ∧ l' = { l with forwarder := .ended } := by
  have hawaiting : l.forwarder.isAwaitingNew = false := by
    rw [hlooking]
    rfl
  cases h with
  | rest => exact .inl ⟨rfl, rfl⟩
  | @takeReturned _ p _ d _ hreturned hd => exact .inr (.inl ⟨p, d, hreturned, hd, rfl⟩)
  | choose h hreturned =>
    obtain rfl := Forwarder.looking.inj (h.symm.trans hlooking)
    exact .inr (.inr (.inl ⟨hreturned, hreturned, rfl⟩))
  | finish => exact .inr (.inr (.inr ⟨rfl, rfl⟩))
  | takeMessage h | takeError h => cases hawaiting.symm.trans h
  | followSign h | timeOut h =>
    rcases h with h | h
    all_goals cases h.symm.trans hlooking
  | join h | enter h | park h | handOver h | report h | reportLast h | giveBack h =>
    cases h.symm.trans hlooking

/-- What a forwarder can do that has a message in hand: hand it over, or give it back. -/
theorem Advances.of_offering {line : List Nat} {incoming : List Envelope} {returned : List Parcel}
    (h : b.Advances n l l' line incoming returned) {d : Delivery}
    (hoffering : l.forwarder = .offering d) :
    l' = l ∧ returned = b.returned ∨
      l.slot = none ∧ returned = b.returned ∧
        l' = { l with slot := some d, forwarder := .looking (b.deadlineOf l.limit) } ∨
      returned = insertParcel d.toParcel b.returned := by
  have hawaiting : l.forwarder.isAwaitingNew = false := by
    rw [hoffering]
    rfl
  cases h with
  | rest => exact .inl ⟨rfl, rfl⟩
  | handOver h hslot =>
    obtain rfl := Forwarder.offering.inj (h.symm.trans hoffering)
    exact .inr (.inl ⟨hslot, rfl, rfl⟩)
  | giveBack h =>
    obtain rfl := Forwarder.offering.inj (h.symm.trans hoffering)
    exact .inr (.inr rfl)
  | finish _ hhand _ =>
    rw [hoffering] at hhand
    cases hhand
  | takeMessage h | takeError h => cases hawaiting.symm.trans h
  | followSign h | timeOut h =>
    rcases h with h | h
    all_goals cases h.symm.trans hoffering
  | join h | enter h | takeReturned h | choose h | park h | report h | reportLast h =>
    cases h.symm.trans hoffering

/-- A forwarder that has not ended had not ended before. -/
theorem isUnderWay_before (hsigns : b.queueState.SignsKept) (hn : n < b.lanes.length)
    (h : (b.apply e).isUnderWay n) :
    b.isUnderWay n := by
  have hl : b.lanes[n]? = some b.lanes[n] := List.getElem?_eq_getElem hn
  cases hl' : (b.apply e).lanes[n]? with
  | none =>
    rw [isUnderWay, hl'] at h
    cases h
  | some l' =>
    rw [isUnderWay_eq hl', Bool.not_eq_true'] at h
    rw [isUnderWay_eq hl, Bool.not_eq_true']
    rcases (happens_apply hsigns e).lane hl hl' with ⟨hchanged, -⟩ | ⟨-, hadvances, -⟩
    · rw [hchanged.forwarder_congr Forwarder.isEnded fun _ => rfl] at h
      exact h
    · exact hadvances.isEnded_before h

/-- The first in line stays the first in line until it ends. -/
theorem head?_apply (hsigns : b.queueState.SignsKept) (hfirst : b.line.head? = some n)
    (h : (b.apply e).isUnderWay n) :
    (b.apply e).line.head? = some n := by
  cases happens_apply hsigns e with
  | byUser _ hchanged => exact hchanged.line ▸ hfirst
  | opened _ hchanged => exact hchanged.line ▸ hfirst
  | missed _ hsame => rwa [hsame]
  | @turned m l _ hl hturned =>
    obtain ⟨l', hadvances, hlanes⟩ := hturned
    obtain ⟨ns, hline⟩ : ∃ ns, b.line = n :: ns := by
      cases hline : b.line with
      | nil =>
        rw [hline] at hfirst
        cases hfirst
      | cons m ns =>
        rw [hline] at hfirst
        exact ⟨ns, by rw [Option.some.inj hfirst]⟩
    rcases hadvances.line_cases with ⟨hstays, -⟩ | ⟨hjoined, -⟩ | ⟨hleft, -, hended⟩
    · rwa [hstays]
    · rw [hjoined, hline]
      rfl
    · have hmn : m ≠ n := by
        rintro rfl
        obtain ⟨hlt, -⟩ := List.getElem?_eq_some_iff.mp hl
        have hl' : (b.apply e).lanes[m]? = some l' := by
          rw [hlanes]
          exact List.getElem?_set_self hlt
        rw [isUnderWay_eq hl', hended] at h
        cases h
      rw [hleft, hline, List.erase_cons_tail (by simpa using Ne.symm hmn)]
      rfl

end Broker

namespace Relay

variable {r r' : Relay} {R : List Parcel} {e : Broker.Event} {events : List Broker.Event} {n : Nat}

theorem step_eq_some (h : r.step e = some r') :
    (r.broker.apply e).returned.length ≤ r.broker.returned.length ∧
      r' = ⟨r.toHandover.after e, r.handed ++ r.broker.hands e⟩ := by
  unfold step at h
  split at h
  · next hle => exact ⟨hle, (Option.some.inj h).symm⟩
  · cases h

/-- What is kept by what users do, by the opening of a lane and by the steps of forwarders is kept
by whatever happens. -/
theorem step_induction {motive : Relay → Prop}
    (userChange : ∀ {r : Relay} {own : Option Nat} {b' : Broker} {begun : List Nat}, motive r →
      r.broker.ChangedByUser own b' → b'.returned.length ≤ r.broker.returned.length →
      motive ⟨⟨b', begun⟩, r.handed⟩)
    (opening : ∀ {r : Relay}, motive r → ∀ (owner : Nat) (limit : Option Span),
      motive ⟨⟨{ r.broker with lanes := r.broker.lanes ++ [Lane.start owner limit] }, r.begun⟩,
      r.handed⟩)
    (turn : ∀ {r : Relay} {n : Nat} {l l' : Lane} {b' : Broker} {begun : List Nat}, motive r →
      r.Sound → r.broker.lanes[n]? = some l →
      r.broker.Advances n l l' b'.line b'.incoming b'.returned →
      b'.lanes = r.broker.lanes.set n l' → b'.returned.length ≤ r.broker.returned.length →
      motive ⟨⟨b', begun⟩, r.handed ++ (l.gains l').map (Prod.mk n)⟩) (h : motive r)
    (hsound : r.Sound) (hstep : r.step e = some r') : motive r' := by
  obtain ⟨hle, rfl⟩ := step_eq_some hstep
  cases Broker.happens_apply hsound.signsKept e with
  | byUser he hchanged =>
    rw [Broker.hands_of_user he, List.append_nil]
    exact userChange h hchanged hle
  | @opened he owner limit hchanged =>
    rw [Broker.hands_of_user he, List.append_nil]
    exact userChange
      (r := ⟨⟨{ r.broker with lanes := r.broker.lanes ++ [Lane.start owner limit] }, r.begun⟩,
        r.handed⟩)
      (opening h owner limit) hchanged hle
  | missed he hsame =>
    rw [Broker.hands_of_missed he hsame, List.append_nil, Handover.after, hsame]
    exact userChange h (.refl _ : r.broker.ChangedByUser none _) (Nat.le_refl _)
  | @turned n l he hl hturned =>
    obtain ⟨l', hadvances, hlanes⟩ := hturned
    obtain ⟨hlt, -⟩ := List.getElem?_eq_some_iff.mp hl
    have hl' : (r.broker.apply e).lanes[n]? = some l' := by
      rw [hlanes]
      exact List.getElem?_set_self hlt
    rw [Broker.hands_of_turn he hl hl']
    exact turn h hsound hl hadvances hlanes hle

/-! ## Whose turn it is -/

/-- Whether nobody else has handed anything over as long as a forwarder has not ended that was the
first in line. -/
def By (r : Relay) (n : Nat) : Prop :=
  n ∈ r.begun ∧ (r.broker.isUnderWay n → r.broker.line.head? = some n ∧ ∀ x ∈ r.handed, x.1 = n)

theorem By.step (h : r.By n) (hsound : r.Sound) (hstep : r.step e = some r') : r'.By n := by
  obtain ⟨-, rfl⟩ := step_eq_some hstep
  refine ⟨List.mem_append_left _ h.1, fun hunderWay => ?_⟩
  obtain ⟨hfirst, hhanded⟩ :=
    h.2 (Broker.isUnderWay_before hsound.signsKept (hsound.known n h.1) hunderWay)
  refine ⟨Broker.head?_apply hsound.signsKept hfirst hunderWay, fun x hx => ?_⟩
  rcases List.mem_append.mp hx with hx | hx
  · exact hhanded x hx
  · exact Option.some.inj ((Broker.head?_of_hands hsound.signsKept hx).symm.trans hfirst)

/-! ## What was returned comes first -/

/-- Where the messages are that had been returned when nobody had the queue: the first ones have
been handed over, in their order, and nothing else has; the next one may be in a forwarder's hand;
the others are still returned. Or all of them have been handed over. -/
inductive Holds (R : List Parcel) (r : Relay) : Prop
  /-- None is in a forwarder's hand. -/
  | free {done : List Parcel} (hreturned : R = done ++ r.broker.returned)
    (hdone : List.Forall₂ Parcel.IsHanded done r.handed)
    (hlooks : ∀ (n : Nat) (l : Lane), r.broker.lanes[n]? = some l → l.forwarder.hasQueue →
      ∃ deadline, l.forwarder = .looking deadline)
  /-- One is. -/
  | inHand {done : List Parcel} {p : Parcel} {n : Nat} {l : Lane} {d : Delivery}
    (hreturned : R = done ++ p :: r.broker.returned)
    (hdone : List.Forall₂ Parcel.IsHanded done r.handed)
    (hl : r.broker.lanes[n]? = some l) (hoffering : l.forwarder = .offering d)
    (hd : p.Becomes d.toParcel)
  /-- All of them have been handed over. -/
  | allHanded {first more : List (Nat × Except String Delivery)}
    (hhanded : r.handed = first ++ more) (hfirst : List.Forall₂ Parcel.IsHanded R first)

namespace Holds

theorem begin
    (hqueue : ∀ (n : Nat) (l : Lane), r.broker.lanes[n]? = some l → l.forwarder.hasQueue = false)
    (hhanded : r.handed = []) : r.Holds r.broker.returned := by
  have hdone : List.Forall₂ Parcel.IsHanded [] r.handed := hhanded ▸ .nil
  refine .free rfl hdone fun n l hl hhas => ?_
  rw [hqueue n l hl] at hhas
  cases hhas

/-- What users do concerns neither forwarders that look for returned messages nor those that have
one in hand. -/
theorem userChange (h : r.Holds R) {b' : Broker} {begun : List Nat} {own : Option Nat}
    (hchanged : r.broker.ChangedByUser own b')
    (hle : b'.returned.length ≤ r.broker.returned.length) :
    Relay.Holds R ⟨⟨b', begun⟩, r.handed⟩ := by
  have hreturned : b'.returned = r.broker.returned := (hchanged.returned.eq_of_length_le hle).symm
  cases h with
  | @free done hR hdone hlooks =>
    refine .free (by rw [hR, hreturned]) hdone fun n l' hl' hqueue => ?_
    obtain ⟨l, hl, hlane⟩ := hchanged.before n l' hl'
    rw [hlane.forwarder_congr Forwarder.hasQueue fun _ => rfl] at hqueue
    obtain ⟨deadline, hlooking⟩ := hlooks n l hl hqueue
    rcases hlane.forwarder with hsame | ⟨deadline', hparked, -⟩
    · exact ⟨deadline, hsame.trans hlooking⟩
    · cases hlooking.symm.trans hparked
  | @inHand done p n l d hR hdone hl hoffering hd =>
    obtain ⟨l', hl', hlane⟩ := hchanged.after n l hl
    rcases hlane.forwarder with hsame | ⟨deadline, hparked, -⟩
    · exact .inHand (by rw [hR, hreturned]) hdone hl' (hsame.trans hoffering) hd
    · cases hoffering.symm.trans hparked
  | allHanded hhanded hfirst => exact .allHanded hhanded hfirst

/-- A lane that is opened has a forwarder that has not begun. -/
theorem «open» (h : r.Holds R) (owner : Nat) (limit : Option Span) :
    Relay.Holds R ⟨⟨{ r.broker with lanes := r.broker.lanes ++ [Lane.start owner limit] }, r.begun⟩,
      r.handed⟩ := by
  cases h with
  | free hR hdone hlooks =>
    refine .free hR hdone fun n l hl hqueue => ?_
    rcases getElem?_concat_cases hl with hl | ⟨-, rfl⟩
    · exact hlooks n l hl hqueue
    · cases hqueue
  | inHand hR hdone hl hoffering hd =>
    obtain ⟨hlt, -⟩ := List.getElem?_eq_some_iff.mp hl
    exact .inHand hR hdone ((List.getElem?_append_left hlt).trans hl) hoffering hd
  | allHanded hhanded hfirst => exact .allHanded hhanded hfirst

/-- A forwarder takes a step. -/
theorem turn (h : r.Holds R) (hsound : r.Sound) {l l' : Lane} {b' : Broker} {begun : List Nat}
    (hl : r.broker.lanes[n]? = some l)
    (hadvances : r.broker.Advances n l l' b'.line b'.incoming b'.returned)
    (hlanes : b'.lanes = r.broker.lanes.set n l')
    (hle : b'.returned.length ≤ r.broker.returned.length) :
    Relay.Holds R ⟨⟨b', begun⟩, r.handed ++ (l.gains l').map (Prod.mk n)⟩ := by
  obtain ⟨hlt, -⟩ := List.getElem?_eq_some_iff.mp hl
  have hl' : b'.lanes[n]? = some l' := by
    rw [hlanes]
    exact List.getElem?_set_self hlt
  cases h with
  | @free done hR hdone hlooks =>
    have hlooks' (hlooking : l'.forwarder.hasQueue → ∃ deadline, l'.forwarder = .looking deadline)
        (m : Nat) (x : Lane) (hx : b'.lanes[m]? = some x) (hqueue : x.forwarder.hasQueue) :
        ∃ deadline, x.forwarder = .looking deadline := by
      rw [hlanes] at hx
      rcases getElem?_set_cases hx with ⟨-, rfl⟩ | ⟨-, hx⟩
      · exact hlooking hqueue
      · exact hlooks m x hx hqueue
    by_cases hqueue : l.forwarder.hasQueue
    · obtain ⟨deadline, hlooking⟩ := hlooks n l hl hqueue
      rcases hadvances.of_looking hlooking with ⟨rfl, hreturned⟩ | ⟨p, d, hreturned, hd, rfl⟩ |
        ⟨hbefore, -, -⟩ | ⟨hreturned, rfl⟩
      · rw [Lane.gains_of_same rfl rfl, List.map_nil, List.append_nil]
        exact .free (by rw [hR, hreturned]) hdone (hlooks' fun _ => ⟨deadline, hlooking⟩)
      · rw [Lane.gains_of_move, List.map_nil, List.append_nil]
        exact .inHand (by rw [hR, hreturned]) hdone hl' rfl hd
      · rw [hbefore, List.append_nil] at hR
        exact .allHanded rfl (hR ▸ hdone)
      · rw [Lane.gains_of_move, List.map_nil, List.append_nil]
        exact .free (by rw [hR, hreturned]) hdone (hlooks' fun hended => by cases hended)
    · obtain ⟨-, hreturned, hslot, herrorSlot, hgets⟩ :=
        hadvances.of_not_hasQueue (by simpa using hqueue)
      rw [Lane.gains_of_same hslot herrorSlot, List.map_nil, List.append_nil]
      exact .free (by rw [hR, hreturned]) hdone
        (hlooks' fun hhas => ⟨_, (hgets hhas).2⟩)
  | @inHand done p m x d hR hdone hx hoffering hd =>
    have hxqueue : x.forwarder.hasQueue := by
      rw [hoffering]
      rfl
    by_cases hmn : m = n
    · obtain rfl := hmn
      obtain rfl := Option.some.inj (hx.symm.trans hl)
      rcases hadvances.of_offering hoffering with ⟨rfl, hreturned⟩ | ⟨hslot, hreturned, rfl⟩ |
        hreturned
      · rw [Lane.gains_of_same rfl rfl, List.map_nil, List.append_nil]
        exact .inHand (by rw [hR, hreturned]) hdone hl' hoffering hd
      · rw [Lane.gains_of_handOver hslot]
        refine .free (by rw [hR, hreturned, List.append_assoc]; rfl)
          (List.rel_append hdone (.cons ⟨d, rfl, hd⟩ .nil)) fun i y hy hyqueue => ?_
        change b'.lanes[i]? = some y at hy
        rw [hlanes] at hy
        rcases getElem?_set_cases hy with ⟨-, rfl⟩ | ⟨him, hy⟩
        · exact ⟨_, rfl⟩
        · exact absurd (Broker.eq_of_hasQueue hsound.signsKept hy hx hyqueue hxqueue) him
      · rw [hreturned, Broker.length_insertParcel] at hle
        exact absurd hle (Nat.not_succ_le_self _)
    · have hqueue : l.forwarder.hasQueue = false := by
        by_contra hqueue
        exact hmn (Broker.eq_of_hasQueue hsound.signsKept hx hl hxqueue (by simpa using hqueue))
      obtain ⟨-, hreturned, hslot, herrorSlot, -⟩ := hadvances.of_not_hasQueue hqueue
      have hx' : b'.lanes[m]? = some x := by
        rw [hlanes, List.getElem?_set_ne (Ne.symm hmn)]
        exact hx
      rw [Lane.gains_of_same hslot herrorSlot, List.map_nil, List.append_nil]
      exact .inHand (by rw [hR, hreturned]) hdone hx' hoffering hd
  | @allHanded first more hhanded hfirst =>
    have hhanded' :
        r.handed ++ (l.gains l').map (Prod.mk n) =
          first ++ (more ++ (l.gains l').map (Prod.mk n)) := by
      rw [hhanded, List.append_assoc]
    exact .allHanded hhanded' hfirst

theorem step (h : r.Holds R) (hsound : r.Sound) (hstep : r.step e = some r') : r'.Holds R := by
  refine step_induction (motive := fun r => r.Holds R) ?userChange ?opening ?turn h hsound hstep
  case userChange => exact fun h hchanged hle => h.userChange hchanged hle
  case opening => exact fun h owner limit => h.open owner limit
  case turn => exact fun h hsound hl hadvances hlanes hle => h.turn hsound hl hadvances hlanes hle

end Holds

/-- What is kept by every step is kept by any number of them. -/
theorem run_induction {motive : Relay → Prop}
    (hstep : ∀ {r r' : Relay} {e : Broker.Event}, motive r → r.Sound → r.step e = some r' →
      motive r') (h : motive r) (hsound : r.Sound) (hrun : r.run events = some r') :
    motive r' ∧ r'.Sound := by
  refine foldlM_induction (motive := fun r => motive r ∧ r.Sound) hrun ⟨h, hsound⟩
    fun e _ r₁ r₂ ⟨h₁, hsound₁⟩ hnext => ⟨hstep h₁ hsound₁ hnext, ?_⟩
  obtain ⟨-, rfl⟩ := step_eq_some hnext
  exact hsound₁.after e

end Relay

/-! ## The next message -/

namespace Broker

variable {b : Broker} {n : Nat} {l : Lane}

/-- A forwarder that has a message in hand puts it in the slot, if the slot is free and its reader
takes messages. -/
theorem advances_offering (hl : b.lanes[n]? = some l) (haborted : l.aborted = false)
    (hreads : l.readsMessages = true) (hslot : l.slot = none) {d : Delivery}
    (hoffering : l.forwarder = .offering d) (favourNew : Bool) :
    ((b.advances n favourNew 1).lanes[n]?).bind Lane.slot = some d := by
  rw [advances, advances, advance_offering hl haborted hreads hslot hoffering favourNew]
  rfl

/-- One that looks for a returned message puts the first one in the slot in two steps. -/
theorem advances_looking (hl : b.lanes[n]? = some l) (haborted : l.aborted = false)
    (hreads : l.readsMessages = true) (hslot : l.slot = none) {deadline : Option Nat}
    (hlooking : l.forwarder = .looking deadline) {p : Parcel} {rest : List Parcel}
    (hreturned : b.returned = p :: rest) (favourNew : Bool) :
    ∃ d : Delivery, p.Becomes d.toParcel ∧
      ((b.advances n favourNew 2).lanes[n]?).bind Lane.slot = some d := by
  obtain ⟨hlt, -⟩ := List.getElem?_eq_some_iff.mp hl
  have hstep : (b.advance n favourNew).1 = { b with returned := rest }.pickUp n p := by
    simp [advance, hl, haborted, proceed, hlooking, look, hreturned]
  obtain ⟨d, hd, hcore⟩ := core_pickUp (b := { b with returned := rest }) hl p
  have hl' : (b.advance n favourNew).1.lanes[n]? = some { l with forwarder := .offering d } := by
    rw [hstep]
    exact (congrArg (fun g : Core => g.lanes[n]?) hcore).trans (List.getElem?_set_self hlt)
  exact ⟨d, hd, advances_offering hl' haborted hreads hslot rfl favourNew⟩

/-- One whose turn it is to have the queue does so in three. -/
theorem advances_queueing (hl : b.lanes[n]? = some l) (haborted : l.aborted = false)
    (hreads : l.readsMessages = true) (hslot : l.slot = none) (hqueueing : l.forwarder = .queueing)
    (hfirst : b.line.head? = some n) {p : Parcel} {rest : List Parcel}
    (hreturned : b.returned = p :: rest) (favourNew : Bool) :
    ∃ d : Delivery, p.Becomes d.toParcel ∧
      ((b.advances n favourNew 3).lanes[n]?).bind Lane.slot = some d := by
  have hstep : (b.advance n favourNew).1 = b.setForwarder n (.looking (b.deadlineOf l.limit)) := by
    simp [advance, hl, haborted, proceed, hqueueing, takeQueue, holder?, hfirst, Forwarder.isEnded]
  have hl' : (b.advance n favourNew).1.lanes[n]? =
      some { l with forwarder := .looking (b.deadlineOf l.limit) } := by
    rw [hstep]
    exact getElem?_setForwarder hl b.permit _
  have hreturned' : (b.advance n favourNew).1.returned = p :: rest := by
    rw [hstep]
    exact hreturned
  exact advances_looking hl' haborted hreads hslot rfl hreturned' favourNew

end Broker

/-- The first in line has begun, and has not ended. -/
theorem Handover.Sound.isQueued_of_head? {h : Handover} (hsound : h.Sound) {n : Nat} {l : Lane}
    (hfirst : h.broker.line.head? = some n) (hl : h.broker.lanes[n]? = some l) :
    l.forwarder.isQueued := by
  have hn : n ∈ h.broker.line := List.mem_of_head? hfirst
  rw [hsound.line] at hn
  obtain ⟨hbegun, hunderWay⟩ := List.mem_filter.mp hn
  rw [hsound.stands n l hl hbegun]
  rwa [Broker.isUnderWay_eq hl] at hunderWay

namespace Relay

variable {r : Relay} {R : List Parcel} {n : Nat} {l : Lane}

/-- As long as some of the messages have not been handed over, the first in line puts the next one
in a free slot in three steps at most. -/
theorem Holds.next (h : r.Holds R) (hsound : r.Sound) (hfirst : r.broker.line.head? = some n)
    (hl : r.broker.lanes[n]? = some l) (haborted : l.aborted = false)
    (hreads : l.readsMessages = true) (hslot : l.slot = none) (hmore : r.handed.length < R.length)
    (favourNew : Bool) :
    ∃ k p d, k ≤ 3 ∧ R[r.handed.length]? = some p ∧ p.Becomes d.toParcel ∧
      ((r.broker.advances n favourNew k).lanes[n]?).bind Lane.slot = some d := by
  cases h with
  | @free done hR hdone hlooks =>
    have hlength := hdone.length_eq
    obtain ⟨p, rest, hreturned⟩ : ∃ p rest, r.broker.returned = p :: rest := by
      cases hreturned : r.broker.returned with
      | nil =>
        rw [hR, hreturned, List.append_nil, hlength] at hmore
        exact absurd hmore (Nat.lt_irrefl _)
      | cons p rest => exact ⟨p, rest, rfl⟩
    have hnext : R[r.handed.length]? = some p := by
      rw [hR, hreturned, ← hlength, List.getElem?_append_right (Nat.le_refl _), Nat.sub_self]
      rfl
    have hqueued := hsound.isQueued_of_head? hfirst hl
    by_cases hqueue : l.forwarder.hasQueue
    · obtain ⟨deadline, hlooking⟩ := hlooks n l hl hqueue
      obtain ⟨d, hd, hslot'⟩ :=
        Broker.advances_looking hl haborted hreads hslot hlooking hreturned favourNew
      exact ⟨2, p, d, Nat.le_succ 2, hnext, hd, hslot'⟩
    · have hqueueing : l.forwarder = .queueing := by
        cases hforwarder : l.forwarder with
        | queueing => rfl
        | starting | ended =>
          rw [hforwarder] at hqueued
          cases hqueued
        | _ =>
          rw [hforwarder] at hqueue
          exact absurd rfl hqueue
      obtain ⟨d, hd, hslot'⟩ :=
        Broker.advances_queueing hl haborted hreads hslot hqueueing hfirst hreturned favourNew
      exact ⟨3, p, d, Nat.le_refl 3, hnext, hd, hslot'⟩
  | @inHand done p m x d hR hdone hx hoffering hd =>
    have hm : r.broker.line.head? = some m :=
      hsound.signsKept.queue (Broker.getElem?_forwarders hx) (by rw [hoffering]; rfl)
    obtain rfl := Option.some.inj (hm.symm.trans hfirst)
    obtain rfl := Option.some.inj (hx.symm.trans hl)
    have hnext : R[r.handed.length]? = some p := by
      rw [hR, ← hdone.length_eq, List.getElem?_append_right (Nat.le_refl _), Nat.sub_self]
      rfl
    exact ⟨1, p, d, Nat.le_add_left 1 2, hnext, hd,
      Broker.advances_offering hl haborted hreads hslot hoffering favourNew⟩
  | @allHanded first more hhanded hfirst =>
    rw [hhanded, List.length_append, ← hfirst.length_eq] at hmore
    exact absurd hmore (Nat.not_lt.mpr (Nat.le_add_right _ _))

/-- The first ones that were handed over are the first ones of the messages. -/
theorem Holds.inOrder (h : r.Holds R) :
    List.Forall₂ Parcel.IsHanded (R.take r.handed.length) (r.handed.take R.length) := by
  have hfirst {done later : List Parcel} (hdone : List.Forall₂ Parcel.IsHanded done r.handed)
      (hR : R = done ++ later) : List.Forall₂ Parcel.IsHanded (R.take r.handed.length)
      (r.handed.take R.length) := by
    have hle : r.handed.length ≤ R.length := by
      rw [hR, List.length_append, hdone.length_eq]
      exact Nat.le_add_right _ _
    rw [List.take_of_length_le hle, hR, ← hdone.length_eq, List.take_left]
    exact hdone
  cases h with
  | free hR hdone => exact hfirst hdone hR
  | inHand hR hdone => exact hfirst hdone hR
  | @allHanded first more hhanded hall =>
    have hle : R.length ≤ r.handed.length := by
      rw [hhanded, List.length_append, hall.length_eq]
      exact Nat.le_add_right _ _
    rw [List.take_of_length_le hle, hhanded, hall.length_eq, List.take_left]
    exact hall

/-- What was returned comes first: what has been handed over begins with it, in the order of the
numbers; the one that was `first` in line hands over all of it, as long as it has not ended; and the
one that is first in line goes on with the next message as soon as its slot is free. -/
structure Delivers (r : Relay) (R : List Parcel) (first : Option Nat) : Prop where
  sorted : R.Pairwise fun p q => p.seq ≤ q.seq
  inOrder : List.Forall₂ Parcel.IsHanded (R.take r.handed.length) (r.handed.take R.length)
  byOne : ∀ n, first = some n → r.broker.isUnderWay n → ∀ x ∈ r.handed, x.1 = n
  next : ∀ (n : Nat) (l : Lane) (favourNew : Bool), r.broker.line.head? = some n →
    r.broker.lanes[n]? = some l →
    l.aborted = false → l.readsMessages = true → l.slot = none → r.handed.length < R.length →
      ∃ k p d, k ≤ 3 ∧ R[r.handed.length]? = some p ∧ p.Becomes d.toParcel ∧
        ((r.broker.advances n favourNew k).lanes[n]?).bind Lane.slot = some d

end Relay

/-! ## The result -/

namespace Handover

/-- How forwarders that share a queue follow one another. -/
structure TakesTurns (h : Handover) : Prop where
  /-- At most one of them has the queue. -/
  one : ∀ (m n : Nat) (k l : Lane), h.broker.lanes[m]? = some k → h.broker.lanes[n]? = some l →
    k.forwarder.hasQueue → l.forwarder.hasQueue → m = n
  /-- Without a step of that one nothing is taken, neither an envelope nor a returned message. -/
  alone : ∀ e : Broker.Event,
    (∀ (n : Nat) (l : Lane), e.turnOf = some n → h.broker.lanes[n]? = some l →
      l.forwarder.hasQueue = false) → h.broker.incoming <+: (h.broker.apply e).incoming ∧
        h.broker.returned.Sublist (h.broker.apply e).returned
  /-- While one that has begun has not ended, nothing comes to those that have begun later or not at
  all, and none of them has the queue; so none of them waits for an envelope. -/
  behind : ∀ (xs ys : List Nat) (i j : Nat) (l : Lane), h.begun = xs ++ i :: ys →
    h.broker.isUnderWay i →
    j ∉ xs → j ≠ i → h.broker.lanes[j]? = some l → l.IsBare ∧ l.forwarder.hasQueue = false
  /-- The wait of one that gets the queue begins then. -/
  enters : ∀ (e : Broker.Event) (n : Nat) (l l' : Lane), h.broker.lanes[n]? = some l →
    (h.broker.apply e).lanes[n]? = some l' → l.forwarder.hasQueue = false → l'.forwarder.hasQueue →
      l'.forwarder = .looking (h.broker.deadlineOf l.limit)
  /-- However one ends, a message that it had in hand is returned then, and if it had the queue
  nobody has it. -/
  ends : ∀ (e : Broker.Event) (n : Nat) (l l' : Lane), h.broker.lanes[n]? = some l →
    (h.broker.apply e).lanes[n]? = some l' → l.forwarder.isEnded = false → l'.forwarder.isEnded →
      (∀ d, l.forwarder = .offering d →
        (h.broker.apply e).returned = Broker.insertParcel d.toParcel h.broker.returned) ∧
      (l.forwarder.hasQueue → ∀ (m : Nat) (k : Lane), (h.broker.apply e).lanes[m]? = some k →
        k.forwarder.hasQueue = false)
  /-- When nobody has the queue, what has been returned is what is delivered next, by the first in
  line. -/
  relays : (∀ (n : Nat) (l : Lane), h.broker.lanes[n]? = some l → l.forwarder.hasQueue = false) →
    ∀ (events : List Broker.Event) (r : Relay), ({ toHandover := h } : Relay).run events = some r →
      r.Delivers h.broker.returned h.broker.line.head?

theorem Sound.takesTurns {h : Handover} (hsound : h.Sound) : h.TakesTurns where
  one m n k l hk hl hkqueue hlqueue := Broker.eq_of_hasQueue hsound.signsKept hk hl hkqueue hlqueue
  alone e hqueue := Broker.leavesAlone hsound.signsKept hqueue
  behind xs ys i j l hbegun hi hj hij hl :=
    ⟨hsound.behind xs ys i j l hbegun hi hj hij hl, hsound.not_hasQueue hbegun hi hj hij hl⟩
  enters e n l l' hl hl' hbefore hafter :=
    (Broker.enters hsound.signsKept hl hl' hbefore hafter).2.2
  ends e n l l' hl hl' hbefore hafter := Broker.ends hsound.signsKept hl hl' hbefore hafter
  relays := by
    intro hqueue events r hrun
    have hbegin : Relay.Holds h.broker.returned { toHandover := h } :=
      Relay.Holds.begin (r := { toHandover := h }) hqueue rfl
    obtain ⟨hholds, hsound'⟩ :=
      Relay.run_induction (fun hr hsound hstep => hr.step hsound hstep) hbegin hsound hrun
    constructor
    case sorted => exact hsound.signsKept.sorted
    case inOrder => exact hholds.inOrder
    case byOne =>
      intro n hfirst hunderWay
      have hbegun : n ∈ h.begun := by
        have hn : n ∈ h.broker.line := List.mem_of_head? hfirst
        rw [hsound.line] at hn
        exact (List.mem_filter.mp hn).1
      have hby : Relay.By { toHandover := h } n :=
        ⟨hbegun, fun _ => ⟨hfirst, fun x hx => by cases hx⟩⟩
      obtain ⟨⟨-, hone⟩, -⟩ :=
        Relay.run_induction (motive := fun r => r.By n) (fun hr hsound hstep =>
          hr.step hsound hstep) hby hsound hrun
      exact (hone hunderWay).2
    case next =>
      intro n l favourNew hfirst hl haborted hreads hslot hmore
      exact hholds.next hsound' hfirst hl haborted hreads hslot hmore favourNew

/-- However many lanes share the queue of a new transport, and whatever happens to them, one
forwarder after the other has the queue, in the order in which they have begun, and hands it over
with all that was returned. That is the order in which their lanes were opened, if they begin in
that order. -/
theorem one_after_another {capacity : Nat} {b : Broker}
    (hopen : Broker.ofCapacity? capacity = some b) (events : List Broker.Event) :
    (({ broker := b } : Handover).run events).TakesTurns ∧
      (({ broker := b } : Handover).inTurn events →
        (({ broker := b } : Handover).run events).begun.Pairwise (· < ·)) := by
  have hsound := sound_ofCapacity? hopen
  refine ⟨(hsound.run events).takesTurns, fun hturn => ?_⟩
  have hordered : Ordered { broker := b } := ⟨.nil, fun m n l hm => by cases hm⟩
  exact (hordered.run hsound hturn).begun

/-- Two lanes are opened, and the first forwarder is aborted with a message in hand, while another
message is given back: the second one delivers both, and then one that was published meanwhile. -/
theorem one_after_another_of_two :
    let events : List Broker.Event :=
      [.create, .create, .publish (some "a") .null, .publish (some "b") .null, .consume 0 0,
        .forward 0 false, .forward 0 false, .forward 0 false, .forward 0 false, .forward 0 false,
        .forward 0 false, .forward 0 false, .receive 0, .consume 1 1, .forward 1 false,
        .dropMessage 0, .abort 0, .forward 0 false, .publish (some "c") .null]
    let further : List Broker.Event :=
      [.forward 1 false, .forward 1 false, .forward 1 false, .receive 1, .forward 1 false,
        .forward 1 false, .receive 1, .forward 1 false, .forward 1 false, .forward 1 false,
          .forward 1 false, .forward 1 false]
    ∃ b, Broker.ofCapacity? 2 = some b ∧ ∃ h, ({ broker := b } : Handover).run events = h ∧
      h.broker.returned.map Parcel.seq = [0, 1] ∧ h.begun = [0, 1] ∧ h.begun.Pairwise (· < ·) ∧
      ∃ r, ({ toHandover := h } : Relay).run further = some r ∧
        r.handed.map (fun x => (x.1, x.2.toOption.map Delivery.seq)) =
          [(1, some 0), (1, some 1), (1, some 2)] ∧
        r.Delivers h.broker.returned (some 1) := by
  intro events further
  have hopen : Broker.ofCapacity? 2 = some { capacity := 2 } := rfl
  obtain ⟨hturns, hordered⟩ := one_after_another hopen events
  have hrun :
      (({ toHandover := ({ broker := { capacity := 2 } } : Handover).run events } : Relay).run
        further).map (fun r => r.handed.map fun x => (x.1, x.2.toOption.map Delivery.seq)) =
          some [(1, some 0), (1, some 1), (1, some 2)] := by
    decide +kernel
  obtain ⟨r, hr, hhanded⟩ := Option.map_eq_some_iff.mp hrun
  refine ⟨_, hopen, _, rfl, rfl, rfl, hordered rfl, r, hr, hhanded, hturns.relays ?_ further r hr⟩
  intro n l hl
  match n with
  | 0 =>
    obtain rfl := Option.some.inj hl
    rfl
  | 1 =>
    obtain rfl := Option.some.inj hl
    rfl
  | n + 2 => cases hl

end Handover

end Courier
