import Courier.Broker.Clock
import Courier.Proofs.Broker.Redelivery

/-!
# No wake-up is lost

A forwarder that has to wait rests until it is woken. It rests only where it could not go on
(`Broker.Rests`): behind another one in line, before a queue that has nothing to say, or in front of
a slot that is not free. Whatever changes that wakes it (`Broker.Awake`), so that a forwarder which
has not been woken could not take a step if it had a turn (`Broker.advance_of_rests`).

What users do concerns all lanes, and what a forwarder does concerns all others
(`Broker.PreservesAwake`). Two things are needed from elsewhere (`QueueState.SignsKept`): only the
first in line waits for an envelope, so that waking that one is enough; and if a message was
returned, a sign has reached it.

Of the notifications it is assumed that one is kept if nobody waits for it, and that one which
reached a forwarder that ends is passed on.
-/

namespace Courier

namespace Broker

/-! ## Resting -/

/-- Whether the forwarder of a lane has been woken, and its turn is not over. -/
def IsWoken (b : Broker) (lane : Nat) : Prop := .forwarder lane ∈ b.ready

instance (b : Broker) (lane : Nat) : Decidable (b.IsWoken lane) :=
  inferInstanceAs (Decidable (_ ∈ b.ready))

/-- Whether a forwarder cannot go on from where it stands. -/
def Waits (b : Broker) (lane : Nat) (l : Lane) : Prop :=
  match l.forwarder with
  | .starting | .looking _ | .choosing _ => False
  | .queueing => b.holder? ≠ some lane
  | .parked deadline notified =>
    notified = false ∧ b.speaks = false ∧ b.isOver deadline = false
  | .offering _ => l.readsMessages = true ∧ l.slot.isSome
  | .reporting _ _ => l.readsErrors = true ∧ l.errorSlot.isSome
  | .ended => True

/-- Whether the forwarder of a lane has nothing to do: it has ended, or it is not asked to end and
cannot go on. A lane that is not there has no forwarder. -/
def Rests (b : Broker) (lane : Nat) : Prop :=
  ∀ l, b.lanes[lane]? = some l → l.forwarder.isEnded ∨ l.aborted = false ∧ b.Waits lane l

/-- Whether every forwarder that has something to do has been woken. -/
def Awake (b : Broker) : Prop := ∀ lane, b.IsWoken lane ∨ b.Rests lane

/-- A forwarder that rests could not take a step if it had a turn. -/
theorem advance_of_rests {b : Broker} {lane : Nat} (h : b.Rests lane) (favourNew : Bool) :
    b.advance lane favourNew = (b, .resting) := by
  unfold advance
  split
  · rfl
  next l hl =>
  cases hforwarder : l.forwarder with
  | ended => simp [Forwarder.isEnded, proceed, hforwarder]
  | _ =>
    obtain hended | ⟨haborted, hwaits⟩ := h l hl
    · simp [hforwarder, Forwarder.isEnded] at hended
    · simp_all [Waits, proceed, takeQueue, resume, handOver, report]

/-! ## What wakes forwarders -/

/-- Waking a task concerns the list of those that were woken, and nobody is taken off it. -/
theorem wake_eq (b : Broker) (t : Task) :
    ∃ ready, b.ready <+: ready ∧ b.wake t = { b with ready } := by
  unfold wake
  split
  · exact ⟨b.ready, List.prefix_refl _, rfl⟩
  · exact ⟨b.ready ++ [t], List.prefix_append _ _, rfl⟩

/-- Room that was made is filled from those that wait for it. -/
theorem refill_eq (b : Broker) : ∃ incoming blocked, b.refill = { b with incoming, blocked } := by
  unfold refill
  split
  · exact ⟨b.incoming, b.blocked, rfl⟩
  · split
    · exact ⟨_, _, rfl⟩
    · exact ⟨b.incoming, b.blocked, rfl⟩

theorem isWoken_wake (b : Broker) (lane : Nat) : (b.wake (.forwarder lane)).IsWoken lane := by
  unfold IsWoken wake
  split
  · assumption
  · simp

/-- Whether a change keeps the forwarders awake: those that were woken still are, in the same order,
and one that rested, except perhaps the one of the lane `own`, rests or has been woken. -/
structure PreservesAwake (own : Option Nat) (b b' : Broker) : Prop where
  ready : b.ready <+: b'.ready
  rests : ∀ lane, some lane ≠ own → b.Rests lane → b'.IsWoken lane ∨ b'.Rests lane

namespace PreservesAwake

variable {own : Option Nat} {b b₁ b₂ b' : Broker}

theorem refl (own : Option Nat) (b : Broker) :
    PreservesAwake own b b := ⟨List.prefix_refl _, fun _ _ => .inr⟩

theorem trans (h₁ : PreservesAwake own b b₁) (h₂ : PreservesAwake own b₁ b₂) :
    PreservesAwake own b b₂ where
  ready := h₁.ready.trans h₂.ready
  rests lane hne hrests := by
    rcases h₁.rests lane hne hrests with hwoken | hrests
    · exact .inl (h₂.ready.subset hwoken)
    · exact h₂.rests lane hne hrests

/-- What keeps all forwarders awake keeps all others awake. -/
theorem others (h : PreservesAwake none b b') (lane : Nat) : PreservesAwake (some lane) b b' :=
  ⟨h.ready, fun lane _ => h.rests lane (by simp)⟩

theorem awake (h : PreservesAwake none b b') (hb : b.Awake) : b'.Awake := fun lane =>
  (hb lane).elim (fun hwoken => .inl (h.ready.subset hwoken)) (h.rests lane (by simp))

/-- A change that the other forwarders do not go by: none of them gets the queue, and the queue does
not begin to speak. -/
theorem of_eq (hready : b.ready <+: b'.ready)
    (hlanes : ∀ lane, some lane ≠ own → b'.lanes[lane]? = b.lanes[lane]?)
    (hholder : ∀ lane, some lane ≠ own → b'.holder? = some lane → b.holder? = some lane)
    (hspeaks : b'.speaks = true → b.speaks = true) (hnow : b'.now = b.now) :
    PreservesAwake own b b' := by
  refine ⟨hready, fun lane hne hrests => .inr fun l hl => ?_⟩
  refine (hrests l ((hlanes lane hne).symm.trans hl)).imp_right (And.imp_right fun hwaits => ?_)
  unfold Waits at hwaits ⊢
  split at hwaits
  case h_4 => exact fun hfirst => hwaits (hholder lane hne hfirst)
  case h_5 =>
    obtain ⟨hunnotified, hsilent, hearly⟩ := hwaits
    refine ⟨hunnotified, ?_, by rwa [isOver, hnow]⟩
    by_contra hloud
    exact absurd (hspeaks (by simpa using hloud)) (by simp [hsilent])
  all_goals exact hwaits

/-- What keeps the forwarders awake after something that they do not go by, keeps them awake. -/
theorem of_same (h : PreservesAwake own b₁ b') (hready : b₁.ready = b.ready)
    (hlanes : b₁.lanes = b.lanes) (hline : b₁.line = b.line)
    (hspeaks : b₁.speaks = true → b.speaks = true) (hnow : b₁.now = b.now) :
    PreservesAwake own b b' :=
  (of_eq (hready ▸ List.prefix_refl _) (fun _ _ => by rw [hlanes])
    (fun _ _ => by rw [holder?, holder?, hline]; exact id) hspeaks hnow).trans h

theorem wake (own : Option Nat) (b : Broker) (t : Task) : PreservesAwake own b (b.wake t) := by
  obtain ⟨ready, hready, heq⟩ := wake_eq b t
  rw [heq]
  exact of_eq hready (fun _ _ => rfl) (fun _ _ => id) id rfl

theorem modifyLane (b : Broker) (lane : Nat) (f : Lane → Lane) :
    PreservesAwake (some lane) b (b.modifyLane lane f) :=
  of_eq (List.prefix_refl _) (fun m hne => by
    have hm : lane ≠ m := fun h => hne (congrArg some h.symm)
    simp [Broker.modifyLane, hm]) (fun _ _ => id) id rfl

end PreservesAwake

namespace PreservesAwake

variable {own : Option Nat} {b b' : Broker} {lane : Nat}

/-- A change that keeps all forwarders awake but one, and wakes that one, keeps all awake. -/
theorem all (h : PreservesAwake (some lane) b b') (hwoken : b'.IsWoken lane) :
    PreservesAwake none b b' := by
  refine ⟨h.ready, fun m _ hrests => ?_⟩
  by_cases hm : m = lane
  · exact .inl (hm ▸ hwoken)
  · exact h.rests m (fun heq => hm (Option.some.inj heq)) hrests

/-- A sign of a returned message reaches a forwarder and wakes it, or nobody waits for it. -/
theorem notify (b : Broker) : PreservesAwake none b b.notify := by
  unfold Broker.notify
  split
  · exact of_eq (List.prefix_refl _) (fun _ _ => rfl) (fun _ _ => id) id rfl
  next lane _ =>
  split
  · exact ((modifyLane b lane _).trans (wake _ _ _)).all (isWoken_wake _ lane)
  · exact of_eq (List.prefix_refl _) (fun _ _ => rfl) (fun _ _ => id) id rfl

theorem giveBack (b : Broker) (d : Delivery) : PreservesAwake none b (b.giveBack d) :=
  (notify { (b.log (.returned d.id)) with returned := insertParcel d.toParcel b.returned }).of_same
    rfl rfl rfl id rfl

end PreservesAwake

/-! ### The line for the queue -/

/-- Leaving the line may wake the next one in line. -/
theorem leaveLine_eq (b : Broker) (lane : Nat) :
    ∃ ready, b.ready <+: ready ∧
      b.leaveLine lane = { b with line := b.line.erase lane, ready } := by
  simp only [leaveLine]
  split
  · split
    · next next _ =>
      exact wake_eq { b with line := b.line.erase lane } (.forwarder next)
    · exact ⟨b.ready, List.prefix_refl _, rfl⟩
  · exact ⟨b.ready, List.prefix_refl _, rfl⟩

/-- A forwarder that has the queue because another one has left the line was woken. -/
theorem isWoken_leaveLine {b : Broker} {lane m : Nat} (hbefore : b.holder? ≠ some m)
    (hafter : (b.line.erase lane).head? = some m) : (b.leaveLine lane).IsWoken m := by
  have hfirst : b.holder? = some lane := by
    by_contra hne
    unfold holder? at hbefore hne
    cases hline : b.line with
    | nil => simp [hline] at hafter
    | cons first rest =>
      have hother : first ≠ lane := fun h => hne (by simp [hline, h])
      rw [hline, List.erase_cons_tail (by simpa using hother)] at hafter
      exact hbefore (by simpa [hline] using hafter)
  simp only [leaveLine, hfirst, if_true]
  split
  · next next hnext =>
    obtain rfl : next = m := Option.some.inj (hnext.symm.trans hafter)
    exact isWoken_wake _ next
  · next hnone => exact absurd (hnone.symm.trans hafter) (by simp)

theorem PreservesAwake.leaveLine (b : Broker) (lane : Nat) :
    PreservesAwake none b (b.leaveLine lane) := by
  obtain ⟨ready, hready, heq⟩ := leaveLine_eq b lane
  refine ⟨by rwa [heq], fun m _ hrests => ?_⟩
  by_cases hnext : (b.line.erase lane).head? = some m ∧ b.holder? ≠ some m
  · exact .inl (isWoken_leaveLine hnext.2 hnext.1)
  · rw [heq]
    refine .inr fun l hl => (hrests l hl).imp_right (And.imp_right fun hwaits => ?_)
    unfold Waits at hwaits ⊢
    split at hwaits
    case h_4 => exact fun hfirst => hnext ⟨hfirst, hwaits⟩
    all_goals exact hwaits

/-! ### Forwarders -/

namespace PreservesAwake

variable {lane : Nat} {b b' : Broker} {l : Lane}

/-- A forwarder that ends leaves everything to the others. -/
theorem finish (b : Broker) (lane : Nat) (l : Lane) :
    PreservesAwake (some lane) b (b.finish lane l) := by
  have hend (b' : Broker) : PreservesAwake (some lane) b'
      (((b'.leaveLine lane).setForwarder lane .ended).wake (.reader l.owner)) :=
    (((leaveLine b' lane).others lane).trans (modifyLane _ lane _)).trans (wake _ _ _)
  unfold Broker.finish
  cases l.forwarder with
  | offering d => exact ((giveBack b d).others lane).trans (hend _)
  | parked deadline notified =>
    cases notified with
    | false => exact hend b
    | true => exact (hend { b with permit := true }).of_same rfl rfl rfl id rfl
  | _ => exact hend b

theorem pickUp (b : Broker) (lane : Nat) (p : Parcel) :
    PreservesAwake (some lane) b (b.pickUp lane p) := by
  unfold Broker.pickUp
  split
  · exact modifyLane b lane _
  · exact (modifyLane { b with freshIds := b.freshIds + 1 } lane _).of_same rfl rfl rfl id rfl

/-- An envelope is taken off the queue: nobody rests before a queue that has one. -/
theorem takeNew (b : Broker) (lane : Nat) (l : Lane) :
    PreservesAwake (some lane) b (b.takeNew lane l).1 := by
  unfold Broker.takeNew
  split
  · exact finish b lane l
  · next p rest hincoming =>
    obtain ⟨incoming, blocked, heq⟩ := refill_eq { b with incoming := rest }
    rw [heq]
    exact (pickUp _ lane p).of_same rfl rfl rfl (fun _ => by simp [speaks, hincoming]) rfl
  · next text rest hincoming =>
    obtain ⟨incoming, blocked, heq⟩ := refill_eq { b with incoming := rest }
    rw [heq]
    exact (modifyLane _ lane _).of_same rfl rfl rfl (fun _ => by simp [speaks, hincoming]) rfl

theorem joinLine (b : Broker) (lane : Nat) : PreservesAwake (some lane) b (b.joinLine lane).1 := by
  have hjoined : PreservesAwake (some lane) b { b with line := b.line ++ [lane] } := by
    refine of_eq (List.prefix_refl _) (fun _ _ => rfl) (fun m hne hfirst => ?_) id rfl
    change (b.line ++ [lane]).head? = some m at hfirst
    rw [List.head?_append] at hfirst
    cases hhead : b.line.head? with
    | none => simp [hhead] at hfirst; exact absurd (congrArg some hfirst.symm) hne
    | some first => simpa [holder?, hhead] using hfirst
  exact hjoined.trans (modifyLane _ lane _)

theorem choose (b : Broker) (lane : Nat) (l : Lane) (deadline : Option Nat) (favourNew : Bool) :
    PreservesAwake (some lane) b (b.choose lane l deadline favourNew).1 := by
  unfold Broker.choose
  split
  · exact (modifyLane { b with permit := false } lane _).of_same rfl rfl rfl id rfl
  · split
    · exact takeNew b lane l
    · split <;> exact modifyLane b lane _

theorem resume (b : Broker) (lane : Nat) (l : Lane) (deadline : Option Nat)
    (notified favourNew : Bool) :
    PreservesAwake (some lane) b (b.resume lane l deadline notified favourNew).1 := by
  unfold Broker.resume
  split
  · exact modifyLane b lane _
  · split
    · exact (takeNew { b with permit := b.permit || notified } lane l).of_same rfl rfl rfl id rfl
    · split
      · exact modifyLane b lane _
      · exact refl _ b

theorem handOver (b : Broker) (lane : Nat) (l : Lane) (d : Delivery) :
    PreservesAwake (some lane) b (b.handOver lane l d).1 := by
  unfold Broker.handOver
  split
  · exact finish b lane l
  · split
    · exact refl _ b
    · exact (modifyLane b lane _).trans (wake _ _ _)

theorem report (b : Broker) (lane : Nat) (l : Lane) (error : String) (last : Bool) :
    PreservesAwake (some lane) b (b.report lane l error last).1 := by
  unfold Broker.report
  split
  · exact finish b lane l
  · split
    · exact refl _ b
    · split
      · exact (modifyLane b lane _).trans (finish _ lane l)
      · exact (modifyLane b lane _).trans (wake _ _ _)

/-- What a forwarder does keeps all others awake. -/
theorem proceed (b : Broker) (lane : Nat) (l : Lane) (favourNew : Bool) :
    PreservesAwake (some lane) b (b.proceed lane l favourNew).1 := by
  unfold Broker.proceed
  cases l.forwarder with
  | starting => exact joinLine b lane
  | queueing =>
    show PreservesAwake (some lane) b (b.takeQueue lane l).1
    unfold takeQueue
    split
    · exact modifyLane b lane _
    · exact refl _ b
  | looking deadline =>
    show PreservesAwake (some lane) b (b.look lane deadline).1
    unfold look
    split
    · next p rest _ => exact (pickUp { b with returned := rest } lane p).of_same rfl rfl rfl id rfl
    · exact modifyLane b lane _
  | choosing deadline => exact choose b lane l deadline favourNew
  | parked deadline notified => exact resume b lane l deadline notified favourNew
  | offering d => exact handOver b lane l d
  | reporting error last => exact report b lane l error last
  | ended => exact refl _ b

theorem advance (b : Broker) (lane : Nat) (favourNew : Bool) :
    PreservesAwake (some lane) b (b.advance lane favourNew).1 := by
  unfold Broker.advance
  split
  · exact refl _ b
  · split
    · exact finish b lane _
    · exact proceed b lane _ favourNew

theorem overrun (b : Broker) (lane : Nat) (favourNew : Bool) :
    PreservesAwake (some lane) b (b.overrun lane favourNew) := by
  unfold Broker.overrun
  cases b.lanes[lane]? with
  | none => exact refl _ b
  | some l => exact proceed b lane l favourNew

/-! ### Users -/

/-- When the queue has something to say, the one that waits for that is woken: it is the first in
line. -/
theorem wakeParked (h : b.queueState.SignsKept) (hready : b'.ready = b.ready)
    (hlanes : b'.lanes = b.lanes) (hline : b'.line = b.line) :
    PreservesAwake none b b'.wakeParked := by
  have hwake : ∃ ready, b.ready <+: ready ∧ b'.wakeParked = { b' with ready } := by
    rw [← hready]
    unfold Broker.wakeParked
    split
    · exact ⟨b'.ready, List.prefix_refl _, rfl⟩
    · split
      · exact wake_eq b' _
      · exact ⟨b'.ready, List.prefix_refl _, rfl⟩
  obtain ⟨ready, hgrown, heq⟩ := hwake
  refine ⟨by rwa [heq], fun m _ hrests => ?_⟩
  by_cases hparked : ∃ l, b.lanes[m]? = some l ∧ l.forwarder.isParked
  · obtain ⟨l, hl, hforwarder⟩ := hparked
    have hfirst : b'.holder? = some m := by
      rw [holder?, hline]
      refine h.queue (getElem?_forwarders hl) ?_
      cases hf : l.forwarder <;> simp_all [Forwarder.isParked, Forwarder.hasQueue]
    left
    simp only [Broker.wakeParked, hfirst, hlanes, hl, Option.any_some, hforwarder, if_true]
    exact isWoken_wake b' m
  · right
    rw [heq]
    intro l hl
    have hl' : b.lanes[m]? = some l := hlanes ▸ hl
    refine (hrests l hl').imp_right (And.imp_right fun hwaits => ?_)
    unfold Waits at hwaits ⊢
    split at hwaits
    case h_4 => simpa [holder?, hline] using hwaits
    case h_5 hforwarder => exact absurd ⟨l, hl', by rw [hforwarder]; rfl⟩ hparked
    all_goals exact hwaits

theorem send (h : b.queueState.SignsKept) (e : Envelope) : PreservesAwake none b (b.send e).1 := by
  unfold Broker.send
  split
  · exact refl none b
  · split
    · exact wakeParked h rfl rfl rfl
    · exact of_eq (List.prefix_refl _) (fun _ _ => rfl) (fun _ _ => id) id rfl

theorem dropPublisher (h : b.queueState.SignsKept) : PreservesAwake none b b.dropPublisher := by
  simp only [Broker.dropPublisher]
  split
  · exact wakeParked h rfl rfl rfl
  · next hsome =>
    refine of_eq (List.prefix_refl _) (fun _ _ => rfl) (fun _ _ => id) (fun hspeaks => ?_) rfl
    simp_all [speaks]

theorem clonePublisher (b : Broker) : PreservesAwake none b b.clonePublisher := by
  unfold Broker.clonePublisher
  split
  · exact refl none b
  · exact of_eq (List.prefix_refl _) (fun _ _ => rfl) (fun _ _ => id)
      (fun hspeaks => by simp_all [speaks]) rfl

theorem create (b : Broker) : PreservesAwake none b b.create.1 := by
  simp only [Broker.create]
  split <;> exact of_eq (List.prefix_refl _) (fun _ _ => rfl) (fun _ _ => id) id rfl

/-- A forwarder that begins is woken. -/
theorem consume (b : Broker) (consumer owner : Nat) :
    PreservesAwake none b (b.consume consumer owner).1 := by
  unfold Broker.consume
  split
  · exact refl none b
  next c _ =>
  split
  · exact refl none b
  · have hopened : PreservesAwake (some b.lanes.length) b
        ({ b with lanes := b.lanes ++ [Lane.start owner c.limit] }.modifyConsumer consumer fun c =>
          { c with lane := some b.lanes.length }) := by
      refine of_eq (List.prefix_refl _) (fun m hne => ?_) (fun _ _ => id) id rfl
      show (b.lanes ++ [Lane.start owner c.limit])[m]? = b.lanes[m]?
      have hm : m ≠ b.lanes.length := fun h => hne (congrArg some h)
      rw [List.getElem?_append]
      split
      · rfl
      · rw [List.getElem?_eq_none (by rw [List.length_singleton]; omega),
          List.getElem?_eq_none (by omega)]
    exact (hopened.trans (wake _ _ _)).all (isWoken_wake _ _)

/-- A forwarder that is asked to end is woken, unless it has ended. -/
theorem abort (b : Broker) (consumer : Nat) : PreservesAwake none b (b.abort consumer) := by
  simp only [Broker.abort]
  split
  · exact refl none b
  next lane _ =>
  have haborted : PreservesAwake (some lane) b
      ((b.modifyConsumer consumer fun c => { c with lane := none }).modifyLane lane fun l =>
        { l with aborted := true }) :=
    (modifyLane _ lane _).of_same rfl rfl rfl id rfl
  split
  · exact (haborted.trans (wake _ _ _)).all (isWoken_wake _ lane)
  · next hended =>
    refine ⟨haborted.ready, fun m _ hrests => ?_⟩
    by_cases hm : m = lane
    · subst hm
      refine .inr fun l hl => .inl ?_
      simpa [hl] using hended
    · exact haborted.rests m (fun heq => hm (Option.some.inj heq)) hrests

/-- A reader changes one of its streams: the forwarder is woken if it waits to hand something over
on it. -/
theorem wakeIf (b : Broker) (lane : Nat) (f : Lane → Lane) (waits : Forwarder → Bool)
    (hforwarder : ∀ l, (f l).forwarder = l.forwarder) (haborted : ∀ l, (f l).aborted = l.aborted)
    (hmessages : (∀ d, waits (.offering d) = true) ∨
      ∀ l, (f l).slot = l.slot ∧ (f l).readsMessages = l.readsMessages)
    (herrors : (∀ error last, waits (.reporting error last) = true) ∨
      ∀ l, (f l).errorSlot = l.errorSlot ∧ (f l).readsErrors = l.readsErrors) :
    PreservesAwake none b ((b.modifyLane lane f).wakeIf lane waits) := by
  unfold Broker.wakeIf
  split
  · exact ((modifyLane b lane f).trans (wake _ _ _)).all (isWoken_wake _ lane)
  next hnone =>
  refine ⟨List.prefix_refl _, fun m _ hrests => ?_⟩
  by_cases hm : m = lane
  · subst hm
    refine .inr fun l' hl' => ?_
    obtain ⟨l, hl, rfl⟩ : ∃ l, b.lanes[m]? = some l ∧ f l = l' := by
      simpa [Broker.modifyLane] using hl'
    have hunwaited : waits l.forwarder = false := by simpa [hl', hforwarder] using hnone
    rw [hforwarder, haborted]
    refine (hrests l hl).imp_right (And.imp_right fun hwaits => ?_)
    unfold Waits at hwaits ⊢
    rw [hforwarder]
    cases hl' : l.forwarder with
    | offering d =>
      rw [hl'] at hwaits hunwaited
      obtain ⟨hslot, hreads⟩ := hmessages.resolve_left (fun h => by simp [h d] at hunwaited) l
      exact ⟨hreads ▸ hwaits.1, hslot ▸ hwaits.2⟩
    | reporting error last =>
      rw [hl'] at hwaits hunwaited
      obtain ⟨hslot, hreads⟩ :=
        herrors.resolve_left (fun h => by simp [h error last] at hunwaited) l
      exact ⟨hreads ▸ hwaits.1, hslot ▸ hwaits.2⟩
    | _ =>
      rw [hl'] at hwaits
      exact hwaits
  · exact (modifyLane b lane f).rests m (fun heq => hm (Option.some.inj heq)) hrests

theorem takeMessage (b : Broker) (lane : Nat) : PreservesAwake none b (b.takeMessage lane) := by
  unfold Broker.takeMessage
  split
  · exact refl none b
  · next d _ =>
    exact (wakeIf { b with held := b.held ++ [Holding.mk d false] } lane
      (fun l => { l with slot := none }) Forwarder.isOffering (fun _ => rfl) (fun _ => rfl)
      (.inl fun _ => rfl) (.inr fun _ => ⟨rfl, rfl⟩)).of_same rfl rfl rfl id rfl

theorem takeError (b : Broker) (lane : Nat) : PreservesAwake none b (b.takeError lane) :=
  wakeIf b lane _ _ (fun _ => rfl) (fun _ => rfl) (.inr fun _ => ⟨rfl, rfl⟩) (.inl fun _ _ => rfl)

theorem dropErrors (b : Broker) (lane : Nat) : PreservesAwake none b (b.dropErrors lane) :=
  wakeIf b lane _ _ (fun _ => rfl) (fun _ => rfl) (.inr fun _ => ⟨rfl, rfl⟩) (.inl fun _ _ => rfl)

theorem dropMessages (b : Broker) (lane : Nat) : PreservesAwake none b (b.dropMessages lane) := by
  have hdropped : PreservesAwake none b
      ((b.modifyLane lane fun l => { l with readsMessages := false, slot := none }).wakeIf lane
        Forwarder.isOffering) :=
    wakeIf b lane _ _ (fun _ => rfl) (fun _ => rfl) (.inl fun _ => rfl) (.inr fun _ => ⟨rfl, rfl⟩)
  simp only [Broker.dropMessages]
  split
  · exact hdropped.trans (giveBack _ _)
  · exact hdropped

theorem settle (b : Broker) (seq : Nat) (disposition : Disposition) :
    PreservesAwake none b (b.settle seq disposition) := by
  unfold Broker.settle
  split
  · exact refl none b
  · exact of_eq (List.prefix_refl _) (fun _ _ => rfl) (fun _ _ => id) id rfl

theorem dropMessage (b : Broker) (seq : Nat) : PreservesAwake none b (b.dropMessage seq) := by
  unfold Broker.dropMessage
  split
  · exact refl none b
  · split
    · exact of_eq (List.prefix_refl _) (fun _ _ => rfl) (fun _ _ => id) id rfl
    · exact (giveBack { b with held := b.held.filter (·.delivery.seq ≠ seq) } _).of_same
        rfl rfl rfl id rfl

theorem wakeAll (b : Broker) (lanes : List Nat) :
    PreservesAwake none b (lanes.foldl (fun b lane => b.wake (.forwarder lane)) b) ∧
      ∀ lane ∈ lanes, (lanes.foldl (fun b lane => b.wake (.forwarder lane)) b).IsWoken lane := by
  induction lanes generalizing b with
  | nil => exact ⟨refl none b, fun lane h => absurd h List.not_mem_nil⟩
  | cons first lanes ih =>
    obtain ⟨hpreserves, hwoken⟩ := ih (b.wake (.forwarder first))
    refine ⟨(wake none b _).trans hpreserves, fun lane hlane => ?_⟩
    rcases List.mem_cons.mp hlane with rfl | hlane
    · exact hpreserves.ready.subset (isWoken_wake b lane)
    · exact hwoken lane hlane

/-- Time passes: those whose time is up are woken. -/
theorem setClock (b : Broker) (now : Nat) : PreservesAwake none b (b.setClock now) := by
  obtain ⟨hpreserves, hwoken⟩ := wakeAll { b with now } { b with now }.dueLanes
  refine ⟨hpreserves.ready, fun m _ hrests => ?_⟩
  by_cases hdue : m ∈ { b with now }.dueLanes
  · exact .inl (hwoken m hdue)
  · refine hpreserves.rests m (by simp) fun l hl => ?_
    refine (hrests l hl).imp_right (And.imp_right fun hwaits => ?_)
    unfold Waits at hwaits ⊢
    split at hwaits
    case h_5 deadline notified hforwarder =>
      refine ⟨hwaits.1, hwaits.2.1, ?_⟩
      by_contra hover
      refine hdue (List.mem_filter.mpr ⟨List.mem_range.mpr (List.getElem?_eq_some_iff.mp hl).1, ?_⟩)
      change b.lanes[m]? = some l at hl
      simpa [hl, hforwarder, Forwarder.deadline?, isOver] using hover
    all_goals exact hwaits

end PreservesAwake

/-! ## Turns -/

/-- One step of a forwarder that was woken. Its turn is over when it rests. -/
def turn (b : Broker) (lane : Nat) (favourNew : Bool) : Broker :=
  match b.advance lane favourNew with
  | (b, .running) => b
  | (b, .resting) => { b with ready := b.ready.erase (.forwarder lane) }

/-- The forwarder whose turn it is takes its step as a forwarder that was woken. -/
theorem runForwarder_eq_turn {b : Broker} {lane : Nat}
    (h : b.ready.head? = some (.forwarder lane)) :
    b.runForwarder lane = b.turn lane false := by
  have hready := (PreservesAwake.advance b lane false).ready
  unfold runForwarder turn
  cases hadvance : b.advance lane false with
  | mk b' pace =>
    rw [hadvance] at hready
    cases pace with
    | running => rfl
    | resting =>
      obtain ⟨rest, hrest⟩ := List.head?_eq_some_iff.mp h
      obtain ⟨more, hmore⟩ := hready
      have hcons : b'.ready = .forwarder lane :: (rest ++ more) := by
        rw [← hmore, hrest, List.cons_append]
      show b'.dismiss = { b' with ready := b'.ready.erase (.forwarder lane) }
      rw [dismiss, hcons, List.tail_cons, List.erase_cons_head]

theorem rests_finish (b : Broker) (lane : Nat) (l : Lane) : (b.finish lane l).Rests lane := by
  have hend (b' : Broker) (t : Task) : ((b'.setForwarder lane .ended).wake t).Rests lane := by
    obtain ⟨ready, -, heq⟩ := wake_eq (b'.setForwarder lane .ended) t
    rw [heq]
    intro l' hl'
    obtain ⟨l₀, -, rfl⟩ : ∃ l₀, b'.lanes[lane]? = some l₀ ∧
      { l₀ with forwarder := .ended } = l' := by
      simpa [setForwarder, modifyLane] using hl'
    exact .inl rfl
  exact hend _ _

section Resting

variable {b : Broker} {lane : Nat} {l : Lane}

theorem rests_of_waits (hl : b.lanes[lane]? = some l) (haborted : l.aborted = false)
    (hwaits : b.Waits lane l) : b.Rests lane := by
  intro l' hl'
  obtain rfl := Option.some.inj (hl.symm.trans hl')
  exact .inr ⟨haborted, hwaits⟩

theorem rests_takeNew (h : (b.takeNew lane l).2 = .resting) : (b.takeNew lane l).1.Rests lane := by
  unfold takeNew at h ⊢
  split at h
  · exact rests_finish b lane l
  · cases h
  · cases h

/-- A forwarder begins to wait for an envelope if there is none, and its time is not up. -/
theorem rests_choose (hl : b.lanes[lane]? = some l) (haborted : l.aborted = false)
    {deadline : Option Nat} {favourNew : Bool}
    (h : (b.choose lane l deadline favourNew).2 = .resting) :
    (b.choose lane l deadline favourNew).1.Rests lane := by
  unfold choose at h ⊢
  split at h
  · cases h
  next hunsigned =>
  rw [if_neg hunsigned]
  split at h
  · next hspeaks =>
    rw [if_pos hspeaks]
    exact rests_takeNew h
  next hsilent =>
  rw [if_neg hsilent]
  split at h
  · cases h
  · next hearly =>
    rw [if_neg hearly]
    have hparked : (b.setForwarder lane (.parked deadline false)).lanes[lane]? =
        some { l with forwarder := .parked deadline false } := by
      simp [setForwarder, modifyLane, hl]
    rw [Bool.not_eq_true] at hsilent hearly
    exact rests_of_waits hparked haborted ⟨rfl, hsilent, hearly⟩

theorem rests_resume (hl : b.lanes[lane]? = some l) (haborted : l.aborted = false)
    {deadline : Option Nat} {notified favourNew : Bool}
    (hforwarder : l.forwarder = .parked deadline notified)
    (h : (b.resume lane l deadline notified favourNew).2 = .resting) :
    (b.resume lane l deadline notified favourNew).1.Rests lane := by
  unfold resume at h ⊢
  split at h
  · cases h
  next hunsigned =>
  rw [if_neg hunsigned]
  split at h
  · next hspeaks =>
    rw [if_pos hspeaks]
    exact rests_takeNew h
  next hsilent =>
  rw [if_neg hsilent]
  split at h
  · cases h
  · next hearly =>
    rw [if_neg hearly]
    refine rests_of_waits hl haborted ?_
    rw [Waits, hforwarder]
    exact ⟨by simpa [hsilent] using hunsigned, by simpa using hsilent, by simpa using hearly⟩

theorem rests_handOver (hl : b.lanes[lane]? = some l) (haborted : l.aborted = false) {d : Delivery}
    (hforwarder : l.forwarder = .offering d) (h : (b.handOver lane l d).2 = .resting) :
    (b.handOver lane l d).1.Rests lane := by
  unfold handOver at h ⊢
  split at h
  · next hgone =>
    rw [if_pos hgone]
    exact rests_finish b lane l
  next hreads =>
  rw [if_neg hreads]
  split at h
  · next hfull =>
    rw [if_pos hfull]
    refine rests_of_waits hl haborted ?_
    rw [Waits, hforwarder]
    exact ⟨by simpa using hreads, hfull⟩
  · cases h

theorem rests_report (hl : b.lanes[lane]? = some l) (haborted : l.aborted = false)
    {error : String} {last : Bool} (hforwarder : l.forwarder = .reporting error last)
    (h : (b.report lane l error last).2 = .resting) :
    (b.report lane l error last).1.Rests lane := by
  unfold report at h ⊢
  split at h
  · next hgone =>
    rw [if_pos hgone]
    exact rests_finish b lane l
  next hreads =>
  rw [if_neg hreads]
  split at h
  · next hfull =>
    rw [if_pos hfull]
    refine rests_of_waits hl haborted ?_
    rw [Waits, hforwarder]
    exact ⟨by simpa using hreads, hfull⟩
  next hfree =>
  rw [if_neg hfree]
  split at h
  · next hlast =>
    rw [if_pos hlast]
    exact rests_finish _ lane l
  · cases h

/-- A forwarder stops only where it rests. -/
theorem rests_of_resting {favourNew : Bool} (h : (b.advance lane favourNew).2 = .resting) :
    (b.advance lane favourNew).1.Rests lane := by
  unfold advance at h ⊢
  cases hl : b.lanes[lane]? with
  | none => exact fun l hl' => absurd (hl.symm.trans hl') (by simp)
  | some l =>
    simp only [hl] at h ⊢
    split at h
    · next haborted =>
      rw [if_pos haborted]
      exact rests_finish b lane l
    next hon =>
    rw [if_neg hon]
    have haborted (hended : l.forwarder.isEnded = false) : l.aborted = false := by
      simpa [hended] using hon
    unfold proceed at h ⊢
    cases hforwarder : l.forwarder with
    | starting =>
      rw [hforwarder] at h
      cases h
    | queueing =>
      simp only [hforwarder, takeQueue] at h ⊢
      split at h
      · cases h
      · next hbehind =>
        rw [if_neg hbehind]
        refine rests_of_waits hl (haborted (by rw [hforwarder]; rfl)) ?_
        rw [Waits, hforwarder]
        exact hbehind
    | looking deadline =>
      simp only [hforwarder, look] at h
      split at h <;> cases h
    | choosing deadline =>
      simp only [hforwarder] at h ⊢
      exact rests_choose hl (haborted (by rw [hforwarder]; rfl)) h
    | parked deadline notified =>
      simp only [hforwarder] at h ⊢
      exact rests_resume hl (haborted (by rw [hforwarder]; rfl)) hforwarder h
    | offering d =>
      simp only [hforwarder] at h ⊢
      exact rests_handOver hl (haborted (by rw [hforwarder]; rfl)) hforwarder h
    | reporting error last =>
      simp only [hforwarder] at h ⊢
      exact rests_report hl (haborted (by rw [hforwarder]; rfl)) hforwarder h
    | ended =>
      intro l' hl'
      obtain rfl := Option.some.inj (hl.symm.trans hl')
      exact .inl (by rw [hforwarder]; rfl)

end Resting

/-- A forwarder that was woken is woken until it rests. -/
theorem Awake.turn {b : Broker} (h : b.Awake) {lane : Nat} (hwoken : b.IsWoken lane)
    (favourNew : Bool) : (b.turn lane favourNew).Awake := by
  have hpreserves := PreservesAwake.advance b lane favourNew
  have hresting (h : (b.advance lane favourNew).2 = .resting) :
      (b.advance lane favourNew).1.Rests lane := rests_of_resting h
  have hother (m : Nat) (hm : m ≠ lane) :
      (b.advance lane favourNew).1.IsWoken m ∨ (b.advance lane favourNew).1.Rests m :=
    (h m).elim (fun hwoken => .inl (hpreserves.ready.subset hwoken))
      (hpreserves.rests m fun heq => hm (Option.some.inj heq))
  unfold Broker.turn
  cases hadvance : b.advance lane favourNew with
  | mk b' pace =>
    rw [hadvance] at hpreserves hresting hother
    intro m
    by_cases hm : m = lane
    · subst hm
      cases pace with
      | running => exact .inl (hpreserves.ready.subset hwoken)
      | resting => exact .inr (hresting rfl)
    · cases pace with
      | running => exact hother m hm
      | resting =>
        refine (hother m hm).imp_left fun hstill => ?_
        exact (List.mem_erase_of_ne (by simpa using hm)).mpr hstill

/-! ## What can happen -/

/-- The transport after an event, if it can happen. A forwarder takes a step only if it was
woken. -/
def happen (b : Broker) : Event → Option Broker
  | .forward lane favourNew => if b.IsWoken lane then some (b.turn lane favourNew) else none
  | .overrun lane favourNew => if b.IsWoken lane then some (b.overrun lane favourNew) else none
  | e => some (b.apply e)

/-- The transport after several events, if they can happen one after the other. -/
def play (b : Broker) (events : List Event) : Option Broker := events.foldlM happen b

/-- What users do wakes every forwarder that it concerns. -/
theorem PreservesAwake.apply {b : Broker} (h : b.queueState.SignsKept) (e : Event)
    (hforward : ∀ lane favourNew, e ≠ .forward lane favourNew)
    (hoverrun : ∀ lane favourNew, e ≠ .overrun lane favourNew) :
    PreservesAwake none b (b.apply e) := by
  cases e with
  | publish name payload =>
    exact (send (b := { b with nextSeq := b.nextSeq + 1 }) h _).of_same rfl rfl rfl id rfl
  | fail text => exact send h _
  | clonePublisher => exact clonePublisher b
  | dropPublisher => exact dropPublisher h
  | create => exact create b
  | consume consumer owner => exact consume b consumer owner
  | abort consumer => exact abort b consumer
  | receive lane => exact takeMessage b lane
  | receiveError lane => exact takeError b lane
  | settle seq disposition => exact settle b seq disposition
  | dropMessage seq => exact dropMessage b seq
  | dropErrors lane => exact dropErrors b lane
  | dropMessages lane => exact dropMessages b lane
  | setClock now => exact setClock b now
  | forward lane favourNew => exact absurd rfl (hforward lane favourNew)
  | overrun lane favourNew => exact absurd rfl (hoverrun lane favourNew)
  | giveUp | failAttempts | dropFactory | setTimeout | close | dropConsumer =>
    exact of_eq (List.prefix_refl _) (fun _ _ => rfl) (fun _ _ => id) id rfl

/-- Whatever happens, every forwarder that has something to do has been woken. -/
theorem Awake.happen {b b' : Broker} {e : Event} (h : b.Awake) (hsigns : b.queueState.SignsKept)
    (he : b.happen e = some b') : b'.Awake ∧ b'.queueState.SignsKept := by
  cases e with
  | forward lane favourNew =>
    simp only [Broker.happen] at he
    split at he
    · next hwoken =>
      obtain rfl := Option.some.inj he
      refine ⟨h.turn hwoken favourNew, ?_⟩
      have hqueueState :
          (b.turn lane favourNew).queueState = (b.advance lane favourNew).1.queueState := by
        unfold Broker.turn
        cases b.advance lane favourNew with
        | mk b' pace => cases pace <;> rfl
      exact hqueueState ▸ signsKept_advance hsigns lane favourNew
    · cases he
  | overrun lane favourNew =>
    simp only [Broker.happen] at he
    split at he
    · next hwoken =>
      obtain rfl := Option.some.inj he
      have hpreserves := PreservesAwake.overrun b lane favourNew
      exact ⟨(hpreserves.all (hpreserves.ready.subset hwoken)).awake h,
        signsKept_overrun hsigns lane favourNew⟩
    · cases he
  | _ =>
    obtain rfl := Option.some.inj he
    exact ⟨(PreservesAwake.apply hsigns _ (by simp) (by simp)).awake h, signsKept_apply hsigns _⟩

theorem awake_play {b b' : Broker} {events : List Event} (h : b.Awake)
    (hsigns : b.queueState.SignsKept) (hplay : b.play events = some b') :
    b'.Awake ∧ b'.queueState.SignsKept :=
  foldlM_induction (motive := fun b => b.Awake ∧ b.queueState.SignsKept) hplay ⟨h, hsigns⟩
    fun _ _ _ _ ⟨hawake, hsigns⟩ he => hawake.happen hsigns he

theorem awake_ofCapacity? {capacity : Nat} {b : Broker} (h : ofCapacity? capacity = some b) :
    b.Awake := by
  obtain rfl := eq_of_ofCapacity? h
  exact fun lane => .inr fun l hl => absurd hl (by simp)

/-! ## The result -/

variable {capacity : Nat} {b₀ b : Broker} {events : List Event}

/-- Whatever happens to a new transport, a forwarder that was not woken could not take a step if it
had a turn, and one that waits for an envelope while there is a returned message was woken, by a
sign that has reached it. So when no forwarder is woken any more and the first in line has a reader,
there is a message in its slot, or it waits to hand over an error while there is one in its slot, or
there is neither a returned message nor anything on the queue. -/
theorem no_lost_wakeup (hopen : ofCapacity? capacity = some b₀) (hplay : b₀.play events = some b) :
    (∀ lane, ¬b.IsWoken lane → ∀ favourNew, b.advance lane favourNew = (b, .resting)) ∧
    (∀ lane l deadline notified, b.lanes[lane]? = some l →
      l.forwarder = .parked deadline notified → b.returned ≠ [] →
        notified = true ∧ b.IsWoken lane) ∧
    ((∀ lane, ¬b.IsWoken lane) → ∀ lane l, b.lanes[lane]? = some l →
      l.forwarder.isEnded = false → b.holder? = some lane → l.readsMessages = true →
      l.readsErrors = true →
        l.slot.isSome ∨ (l.forwarder.isReporting ∧ l.errorSlot.isSome) ∨
          (b.returned = [] ∧ b.incoming = [])) := by
  obtain ⟨hawake, hsigns⟩ :=
    awake_play (awake_ofCapacity? hopen) (Ledger.signsKept_ofCapacity? hopen) hplay
  have hnotified (lane : Nat) (l : Lane) (deadline : Option Nat) (notified : Bool)
      (hl : b.lanes[lane]? = some l) (hforwarder : l.forwarder = .parked deadline notified)
      (hreturned : b.returned ≠ []) : notified = true := by
    have htold := hsigns.sign (getElem?_forwarders hl) (by rw [hforwarder]; rfl) hreturned
    rwa [hforwarder] at htold
  refine ⟨fun lane hunwoken => advance_of_rests ((hawake lane).resolve_left hunwoken), ?_, ?_⟩
  · intro lane l deadline notified hl hforwarder hreturned
    have htrue := hnotified lane l deadline notified hl hforwarder hreturned
    refine ⟨htrue, (hawake lane).resolve_right fun hrests => ?_⟩
    obtain hended | ⟨-, hwaits⟩ := hrests l hl
    · simp [hforwarder, Forwarder.isEnded] at hended
    · rw [Waits, hforwarder] at hwaits
      exact absurd (htrue.symm.trans hwaits.1) (by simp)
  · intro hquiet lane l hl hon hfirst hmessages herrors
    obtain hended | ⟨-, hwaits⟩ := (hawake lane).resolve_left (hquiet lane) l hl
    · exact absurd (hon.symm.trans hended) (by simp)
    cases hforwarder : l.forwarder with
    | parked deadline notified =>
      rw [Waits, hforwarder] at hwaits
      obtain ⟨hunnotified, hsilent, -⟩ := hwaits
      refine .inr (.inr ⟨?_, ?_⟩)
      · by_contra hreturned
        have htrue := hnotified lane l deadline notified hl hforwarder hreturned
        exact absurd (htrue.symm.trans hunnotified) (by simp)
      · simp [speaks] at hsilent
        exact hsilent.1
    | offering d =>
      rw [Waits, hforwarder] at hwaits
      exact .inl hwaits.2
    | reporting error last =>
      rw [Waits, hforwarder] at hwaits
      exact .inr (.inl ⟨rfl, hwaits.2⟩)
    | queueing =>
      rw [Waits, hforwarder] at hwaits
      exact absurd hfirst hwaits
    | ended => simp [hforwarder, Forwarder.isEnded] at hon
    | _ =>
      rw [Waits, hforwarder] at hwaits
      exact hwaits.elim

/-- A message is given back to a forwarder that waits: it was woken, brings the message back to its
reader, and rests again when the message is in the slot. -/
theorem no_lost_wakeup_after_return :
    let waiting : List Event :=
      [.create, .consume 0 0, .forward 0 false, .forward 0 false, .forward 0 false,
        .forward 0 false, .publish (some "a") .null, .forward 0 false, .forward 0 false,
        .forward 0 false, .forward 0 false, .receive 0, .dropMessage 0]
    let resting : List Event :=
      [.forward 0 false, .forward 0 false, .forward 0 false, .forward 0 false, .forward 0 false]
    ∃ b₀ b₁ b₂ l, ofCapacity? 1 = some b₀ ∧ b₀.play waiting = some b₁ ∧ b₁.IsWoken 0 ∧
      b₀.play (waiting ++ resting) = some b₂ ∧ b₂.lanes[0]? = some l ∧
      (∀ favourNew, b₂.advance 0 favourNew = (b₂, .resting)) ∧
      (l.slot.isSome ∨ (l.forwarder.isReporting ∧ l.errorSlot.isSome) ∨
        (b₂.returned = [] ∧ b₂.incoming = [])) := by
  intro waiting resting
  obtain ⟨b₀, hopen⟩ : ∃ b₀, ofCapacity? 1 = some b₀ := ⟨_, rfl⟩
  obtain rfl := Option.some.inj hopen
  obtain ⟨b₁, l₁, hplay₁, hl₁, hforwarder₁, hreturned₁⟩ : ∃ b₁ l₁,
      ({ capacity := max 1 1 } : Broker).play waiting = some b₁ ∧ b₁.lanes[0]? = some l₁ ∧
        l₁.forwarder = .parked none true ∧ b₁.returned ≠ [] :=
    ⟨_, _, rfl, rfl, rfl, by decide⟩
  obtain ⟨b₂, l₂, hplay₂, hl₂, hready₂, hon₂, hfirst₂, hmessages₂, herrors₂⟩ : ∃ b₂ l₂,
      ({ capacity := max 1 1 } : Broker).play (waiting ++ resting) = some b₂ ∧
        b₂.lanes[0]? = some l₂ ∧ b₂.ready = [.reader 0] ∧ l₂.forwarder.isEnded = false ∧
        b₂.holder? = some 0 ∧ l₂.readsMessages = true ∧ l₂.readsErrors = true :=
    ⟨_, _, rfl, rfl, rfl, rfl, rfl, rfl, rfl⟩
  have hquiet : ∀ lane, ¬b₂.IsWoken lane := by simp [IsWoken, hready₂]
  obtain ⟨-, hwoken, -⟩ := no_lost_wakeup hopen hplay₁
  obtain ⟨hrests, -, hdone⟩ := no_lost_wakeup hopen hplay₂
  exact ⟨_, b₁, b₂, l₂, hopen, hplay₁, (hwoken 0 l₁ none true hl₁ hforwarder₁ hreturned₁).2, hplay₂,
    hl₂, hrests 0 (hquiet 0), hdone hquiet 0 l₂ hl₂ hon₂ hfirst₂ hmessages₂ herrors₂⟩

end Broker

end Courier
