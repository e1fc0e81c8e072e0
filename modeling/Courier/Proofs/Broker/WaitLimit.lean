import Courier.Proofs.Broker.Time
import Courier.Proofs.Broker.LaneEvents
import Courier.Proofs.Broker.Waking

/-!
# Waiting for an envelope

A forwarder with a limit gives up when it has waited so long without an envelope. Its wait begins
when it gets the queue, and again whenever it has handed something over. While it has something in
hand it does not wait, and a sign of a returned message that is not there any more does not prolong
its wait.

`WaitLog.since` remembers when each forwarder has begun to wait, and `WaitLog.gaveUp` those that
have given up. Nothing is said about the clock, which may be set to any time at any moment, except
where it is `punctual`: then it does not pass the end of a wait.
-/

namespace Courier

namespace Forwarder

/-- Until when a forwarder waits for an envelope, if it does so and not for ever. -/
def until? : Forwarder → Option Nat
  | .looking deadline | .choosing deadline | .parked deadline _ => deadline
  | _ => none

/-- Whether the forwarder has given up, and is about to say so. -/
def isLast : Forwarder → Bool
  | .reporting _ true => true
  | _ => false

theorem hasQueue_of_isSeeking {f : Forwarder} (h : f.isSeeking) : f.hasQueue := by
  cases f <;> first | rfl | cases h

end Forwarder

namespace Broker

/-- Whether the forwarder of a lane waits for an envelope. -/
def seeks (b : Broker) (n : Nat) : Bool := (b.lanes[n]?).any fun l => l.forwarder.isSeeking

/-- Whether the forwarder of a lane has given up, and is about to say so. -/
def reportsLast (b : Broker) (n : Nat) : Bool := (b.lanes[n]?).any fun l => l.forwarder.isLast

/-- Whether an event sets the clock only while no forwarder is about to look for an envelope, not
back, and not past the end of a wait. -/
def isPunctual (b : Broker) : Event → Bool
  | .setClock now =>
    decide (b.now ≤ now) && b.deadlines.all (now ≤ ·) &&
      b.lanes.all fun l => !l.forwarder.isSeeking || l.forwarder.isParked
  | _ => true

variable {b b' : Broker} {e : Event} {n : Nat} {l l' : Lane} {line : List Nat}
  {incoming : List Envelope} {returned : List Parcel}

theorem seeks_eq (hl : b.lanes[n]? = some l) : b.seeks n = l.forwarder.isSeeking := by
  rw [seeks, hl, Option.any_some]

theorem reportsLast_eq (hl : b.lanes[n]? = some l) : b.reportsLast n = l.forwarder.isLast := by
  rw [reportsLast, hl, Option.any_some]

theorem isOver_some (b : Broker) (time : Nat) : b.isOver (some time) = decide (time ≤ b.now) := rfl

/-! ## What steps do to a wait -/

/-- A forwarder keeps the limit of its lane. -/
theorem Advances.limit_eq (h : b.Advances n l l' line incoming returned) : l'.limit = l.limit := by
  cases h <;> rfl

/-- A forwarder begins to wait when it gets the queue, or when it has handed something over; one
that goes on waiting does so until the same time. -/
theorem Advances.seeks_cases (h : b.Advances n l l' line incoming returned)
    (hafter : l'.forwarder.isSeeking) :
    l.forwarder.isSeeking ∧ l'.forwarder.until? = l.forwarder.until? ∨
      l.forwarder.isSeeking = false ∧ l'.forwarder = .looking (b.deadlineOf l.limit) ∧
        (l.forwarder = .queueing ∨
          (∃ d, l.forwarder = .offering d ∧ l.slot = none ∧ l'.slot = some d) ∨
          ∃ error, l.forwarder = .reporting error false ∧ l.errorSlot = none ∧
            l'.errorSlot = some error) := by
  cases h with
  | rest => exact .inl ⟨hafter, rfl⟩
  | enter h =>
    rw [h]
    exact .inr ⟨rfl, rfl, .inl rfl⟩
  | choose h | park h =>
    rw [h]
    exact .inl ⟨rfl, rfl⟩
  | followSign h =>
    rcases h with h | h
    all_goals
      rw [h]
      exact .inl ⟨rfl, rfl⟩
  | @handOver d h hslot =>
    rw [h]
    exact .inr ⟨rfl, rfl, .inr (.inl ⟨d, rfl, hslot, rfl⟩)⟩
  | @report error h hslot =>
    rw [h]
    exact .inr ⟨rfl, rfl, .inr (.inr ⟨error, rfl, hslot, rfl⟩)⟩
  | join | takeReturned | takeMessage | takeError | timeOut | reportLast | giveBack | finish =>
    cases hafter

/-- A forwarder gives up only when its time is up and there is nothing for it. -/
theorem Advances.last_cases (h : b.Advances n l l' line incoming returned)
    (hafter : l'.forwarder.isLast) :
    l' = l ∨
      l.forwarder.isSeeking ∧ l'.forwarder = .reporting (idleError (l.limit.getD .zero)) true ∧
        b.returned = [] ∧ b.speaks = false ∧ b.isOver l.forwarder.until? = true := by
  cases h with
  | rest => exact .inl rfl
  | timeOut h hreturned hsilent hover =>
    rcases h with h | h
    all_goals
      rw [h]
      exact .inr ⟨rfl, rfl, hreturned, hsilent, hover⟩
  | join | enter | takeReturned | choose | followSign | takeMessage | takeError | park | handOver
  | report | reportLast | giveBack | finish => cases hafter

/-- One that has given up takes nothing, and goes no way but to its end. -/
theorem Advances.of_last (h : b.Advances n l l' line incoming returned)
    (hbefore : l.forwarder.isLast ∨ l.forwarder = .ended) :
    incoming = b.incoming ∧ returned = b.returned ∧
      (l'.forwarder.isLast ∨ l'.forwarder = .ended) := by
  have hidle : l.forwarder.isAwaitingNew = false ∧ l.forwarder.isSeeking = false := by
    rcases hbefore with hlast | hended
    · cases hforwarder : l.forwarder with
      | reporting => exact ⟨rfl, rfl⟩
      | _ =>
        rw [hforwarder] at hlast
        cases hlast
    · rw [hended]
      exact ⟨rfl, rfl⟩
  obtain ⟨hawaiting, hseeking⟩ := hidle
  cases h with
  | rest => exact ⟨rfl, rfl, hbefore⟩
  | reportLast => exact ⟨rfl, rfl, .inr rfl⟩
  | finish => exact ⟨rfl, rfl, .inr rfl⟩
  | takeMessage h | takeError h => cases hawaiting.symm.trans h
  | takeReturned h | choose h | park h =>
    rw [h] at hseeking
    cases hseeking
  | followSign h | timeOut h =>
    rcases h with h | h
    all_goals
      rw [h] at hseeking
      cases hseeking
  | join h | enter h | handOver h | report h | giveBack h =>
    rw [h] at hbefore
    rcases hbefore with hbefore | hbefore <;> cases hbefore

end Broker

/-- A transport and what it has accepted and delivered, with the times since when its forwarders
have been waiting for an envelope, and those that have given up. -/
structure WaitLog extends Ledger where
  /-- When the forwarder of each lane has last begun to wait. -/
  since : Nat → Nat := fun _ => 0
  /-- The lanes whose forwarders have given up. -/
  gaveUp : List Nat := []

namespace WaitLog

/-- The wait log after an event. -/
def after (v : WaitLog) (e : Broker.Event) : WaitLog where
  toLedger := v.toLedger.after e
  since n := if (v.broker.apply e).seeks n && !v.broker.seeks n then v.broker.now else v.since n
  gaveUp := v.gaveUp ++
    e.turnOf.toList.filter fun n => (v.broker.apply e).reportsLast n && !v.broker.reportsLast n

/-- The wait log after an event, if the queue still exists. -/
def step (v : WaitLog) (e : Broker.Event) : Option WaitLog :=
  if (v.broker.apply e).isAlive then some (v.after e) else none

/-- The wait log after several events, if the queue exists all along. -/
def run (v : WaitLog) (events : List Broker.Event) : Option WaitLog := events.foldlM step v

/-- Whether the clock is punctual in several events. -/
def punctual : WaitLog → List Broker.Event → Bool
  | _, [] => true
  | v, e :: events => v.broker.isPunctual e && (v.after e).punctual events

/-- What is known of forwarders that wait, and of those that have given up. -/
structure Sound (v : WaitLog) : Prop where
  contents : v.broker.contents.Sound v.accepted v.received
  signsKept : v.broker.queueState.SignsKept
  deadline : ∀ (n : Nat) (l : Lane), v.broker.lanes[n]? = some l → l.forwarder.isSeeking →
    l.forwarder.until? = l.limit.map fun limit => v.since n + limit.ceilMillis
  last : ∀ (n : Nat) (l : Lane), v.broker.lanes[n]? = some l → l.forwarder.isLast →
    ∃ limit, l.limit = some limit ∧ l.forwarder = .reporting (Broker.idleError limit) true
  gaveUp : ∀ n ∈ v.gaveUp, ∃ l, v.broker.lanes[n]? = some l ∧
    (l.forwarder.isLast ∨ l.forwarder = .ended)
  once : v.gaveUp.Nodup

variable {v v' : WaitLog} {e : Broker.Event} {events : List Broker.Event} {n : Nat} {l l' : Lane}

theorem since_of_seeking (hl : v.broker.lanes[n]? = some l) (h : l.forwarder.isSeeking) :
    (v.after e).since n = v.since n := by
  simp [after, Broker.seeks_eq hl, h]

theorem since_of_beginning (hl : v.broker.lanes[n]? = some l)
    (hl' : (v.broker.apply e).lanes[n]? = some l') (hbefore : l.forwarder.isSeeking = false)
    (hafter : l'.forwarder.isSeeking) :
    (v.after e).since n = v.broker.now := by
  simp [after, Broker.seeks_eq hl, Broker.seeks_eq hl', hbefore, hafter]

namespace Sound

/-- A lane that is there after an event was there before, or its forwarder has not begun. -/
theorem lane_before (hsound : v.Sound) (hl' : (v.broker.apply e).lanes[n]? = some l') :
    (∃ l, v.broker.lanes[n]? = some l ∧
      (l.ChangedByUser l' ∨
        v.broker.Advances n l l' (v.broker.apply e).line (v.broker.apply e).incoming
        (v.broker.apply e).returned)) ∨
      l'.forwarder = .starting := by
  have hhappens := Broker.happens_apply hsound.signsKept e
  rcases hhappens.before hl' with ⟨l, hl⟩ | hstarting
  · rcases hhappens.lane hl hl' with ⟨hchanged, -⟩ | ⟨-, hadvances, -⟩
    · exact .inl ⟨l, hl, .inl hchanged⟩
    · exact .inl ⟨l, hl, .inr hadvances⟩
  · exact .inr hstarting

/-- The wait of a forwarder ends when the limit has passed since it has begun. -/
theorem deadline_after (hsound : v.Sound) (hl' : (v.broker.apply e).lanes[n]? = some l')
    (hseeking : l'.forwarder.isSeeking) :
    l'.forwarder.until? = l'.limit.map fun limit => (v.after e).since n + limit.ceilMillis := by
  rcases hsound.lane_before hl' with ⟨l, hl, hchanged | hadvances⟩ | hstarting
  · have hbefore : l.forwarder.isSeeking := by
      rwa [hchanged.forwarder_congr Forwarder.isSeeking fun _ => rfl] at hseeking
    rw [hchanged.forwarder_congr Forwarder.until? fun _ =>
      rfl, hchanged.limit, since_of_seeking hl hbefore]
    exact hsound.deadline n l hl hbefore
  · rcases hadvances.seeks_cases hseeking with ⟨hbefore, huntil⟩ | ⟨hbefore, hlooking, -⟩
    · rw [huntil, hadvances.limit_eq, since_of_seeking hl hbefore]
      exact hsound.deadline n l hl hbefore
    · rw [hlooking, hadvances.limit_eq, since_of_beginning hl hl' hbefore hseeking]
      rfl
  · rw [hstarting] at hseeking
    cases hseeking

/-- A forwarder that gives up has a limit, has waited so long, and there is nothing for it. -/
theorem gives_up (hsound : v.Sound) (hl : v.broker.lanes[n]? = some l)
    (hl' : (v.broker.apply e).lanes[n]? = some l') (hbefore : l.forwarder.isLast = false)
    (hafter : l'.forwarder.isLast) :
    e.turnOf = some n ∧ ∃ limit, l.limit = some limit ∧ l'.limit = some limit ∧
      l'.forwarder = .reporting (Broker.idleError limit) true ∧
      l.forwarder.isSeeking ∧ v.since n + limit.ceilMillis ≤ v.broker.now ∧
      v.broker.returned = [] ∧ v.broker.incoming = [] ∧ v.broker.publishers ≠ 0 := by
  rcases (Broker.happens_apply hsound.signsKept e).lane hl hl' with ⟨hchanged, -⟩ |
    ⟨he, hadvances, -⟩
  · rw [hchanged.forwarder_congr Forwarder.isLast fun _ => rfl, hbefore] at hafter
    cases hafter
  · rcases hadvances.last_cases hafter with rfl | ⟨hseeking, hgaveUp, hreturned, hsilent, hover⟩
    · cases hbefore.symm.trans hafter
    · rw [hsound.deadline n l hl hseeking] at hover
      cases hlimit : l.limit with
      | none =>
        rw [hlimit] at hover
        cases hover
      | some limit =>
        rw [hlimit] at hgaveUp
        rw [hlimit, Option.map_some, Broker.isOver_some] at hover
        have hspeaks : v.broker.incoming = [] ∧ v.broker.publishers ≠ 0 := by
          simpa [Broker.speaks] using hsilent
        exact ⟨he, limit, rfl, hadvances.limit_eq.trans hlimit, hgaveUp, hseeking,
          of_decide_eq_true hover, hreturned, hspeaks⟩

theorem last_after (hsound : v.Sound) (hl' : (v.broker.apply e).lanes[n]? = some l')
    (hlast : l'.forwarder.isLast) :
    ∃ limit, l'.limit = some limit ∧ l'.forwarder = .reporting (Broker.idleError limit) true := by
  rcases hsound.lane_before hl' with ⟨l, hl, hlane⟩ | hstarting
  · cases hbefore : l.forwarder.isLast with
    | false =>
      obtain ⟨-, limit, -, hlimit, hgaveUp, -⟩ := hsound.gives_up hl hl' hbefore hlast
      exact ⟨limit, hlimit, hgaveUp⟩
    | true =>
      obtain ⟨limit, hlimit, hgaveUp⟩ := hsound.last n l hl hbefore
      rcases hlane with hchanged | hadvances
      · rcases hchanged.forwarder with hsame | ⟨deadline, hparked, -⟩
        · exact ⟨limit, hchanged.limit.trans hlimit, hsame.trans hgaveUp⟩
        · cases hgaveUp.symm.trans hparked
      · rcases hadvances.last_cases hlast with rfl | ⟨hseeking, -⟩
        · exact ⟨limit, hlimit, hgaveUp⟩
        · rw [hgaveUp] at hseeking
          cases hseeking
  · rw [hstarting] at hlast
    cases hlast

/-- One that has given up stays so. -/
theorem gaveUp_after (hsound : v.Sound) (hl : v.broker.lanes[n]? = some l)
    (h : l.forwarder.isLast ∨ l.forwarder = .ended) :
    ∃ l', (v.broker.apply e).lanes[n]? = some l' ∧
      (l'.forwarder.isLast ∨ l'.forwarder = .ended) := by
  have hhappens := Broker.happens_apply hsound.signsKept e
  obtain ⟨l', hl'⟩ := hhappens.kept hl
  refine ⟨l', hl', ?_⟩
  rcases hhappens.lane hl hl' with ⟨hchanged, -⟩ | ⟨-, hadvances, -⟩
  · rcases hchanged.forwarder with hsame | ⟨deadline, hparked, -⟩
    · rwa [hsame]
    · rw [hparked] at h
      rcases h with h | h <;> cases h
  · exact (hadvances.of_last h).2.2

/-- Whoever gives up had not given up before. -/
theorem once_after (hsound : v.Sound) (hl : v.broker.lanes[n]? = some l)
    (hl' : (v.broker.apply e).lanes[n]? = some l') (hbefore : l.forwarder.isLast = false)
    (hafter : l'.forwarder.isLast) : n ∉ v.gaveUp := by
  intro hn
  obtain ⟨-, limit, -, -, -, hseeking, -⟩ := hsound.gives_up hl hl' hbefore hafter
  obtain ⟨x, hx, hgaveUp⟩ := hsound.gaveUp n hn
  obtain rfl := Option.some.inj (hx.symm.trans hl)
  rcases hgaveUp with hlast | hended
  · cases hbefore.symm.trans hlast
  · rw [hended] at hseeking
    cases hseeking

theorem after (hsound : v.Sound) (e : Broker.Event) : (v.after e).Sound := by
  have hnew (n : Nat)
      (hn : n ∈ e.turnOf.toList.filter fun n => (v.broker.apply e).reportsLast n &&
        !v.broker.reportsLast n) :
      ∃ l l', v.broker.lanes[n]? = some l ∧ (v.broker.apply e).lanes[n]? = some l' ∧
        l.forwarder.isLast = false ∧ l'.forwarder.isLast := by
    obtain ⟨-, hgivesUp⟩ := List.mem_filter.mp hn
    obtain ⟨hafter, hbefore⟩ := Bool.and_eq_true_iff.mp hgivesUp
    cases hl' : (v.broker.apply e).lanes[n]? with
    | none =>
      rw [Broker.reportsLast, hl'] at hafter
      cases hafter
    | some l' =>
      rw [Broker.reportsLast_eq hl'] at hafter
      rcases (Broker.happens_apply hsound.signsKept e).before hl' with ⟨l, hl⟩ | hstarting
      · rw [Broker.reportsLast_eq hl, Bool.not_eq_true'] at hbefore
        exact ⟨l, l', hl, rfl, hbefore, hafter⟩
      · rw [hstarting] at hafter
        cases hafter
  constructor
  case contents => exact Ledger.sound_after hsound.contents e
  case signsKept => exact Broker.signsKept_apply hsound.signsKept e
  case deadline => exact fun n l' hl' hseeking => hsound.deadline_after hl' hseeking
  case last => exact fun n l' hl' hlast => hsound.last_after hl' hlast
  case gaveUp =>
    intro n hn
    rcases List.mem_append.mp hn with hn | hn
    · obtain ⟨l, hl, hgaveUp⟩ := hsound.gaveUp n hn
      exact hsound.gaveUp_after hl hgaveUp
    · obtain ⟨l, l', -, hl', -, hlast⟩ := hnew n hn
      exact ⟨l', hl', .inl hlast⟩
  case once =>
    refine List.Nodup.append hsound.once (List.Nodup.filter _ ?_) fun n hold hn => ?_
    · cases e.turnOf with
      | none => exact List.nodup_nil
      | some n => exact List.nodup_singleton n
    · obtain ⟨l, l', hl, hl', hbefore, hafter⟩ := hnew n hn
      exact hsound.once_after hl hl' hbefore hafter hold

end Sound

theorem step_eq_some (h : v.step e = some v') : v' = v.after e := by
  unfold step at h
  split at h
  · exact (Option.some.inj h).symm
  · cases h

theorem sound_run (hsound : v.Sound) (hrun : v.run events = some v') : v'.Sound := by
  refine foldlM_induction (motive := Sound) hrun hsound fun e _ v₁ v₂ h hstep => ?_
  obtain rfl := step_eq_some hstep
  exact h.after e

/-- Nobody waits at a new transport. -/
theorem sound_ofCapacity? {capacity : Nat} {b : Broker} (h : Broker.ofCapacity? capacity = some b) :
    Sound { broker := b } := by
  have hcontents := Ledger.sound_ofCapacity? h
  have hsigns := Ledger.signsKept_ofCapacity? h
  obtain rfl := Broker.eq_of_ofCapacity? h
  constructor
  case contents => exact hcontents
  case signsKept => exact hsigns
  case deadline => rintro n l ⟨⟩
  case last => rintro n l ⟨⟩
  case gaveUp => rintro n ⟨⟩
  case once => exact List.nodup_nil

/-! ## A punctual clock -/

/-- No wait is over for longer than it takes to notice. -/
def OnTime (v : WaitLog) : Prop :=
  ∀ (n : Nat) (l : Lane) (limit : Span), v.broker.lanes[n]? = some l → l.limit = some limit →
    l.forwarder.isSeeking → v.broker.now ≤ v.since n + limit.ceilMillis

theorem OnTime.after (h : v.OnTime) (hsound : v.Sound) (hpunctual : v.broker.isPunctual e) :
    (v.after e).OnTime := by
  intro n l' limit hl' hlimit hseeking
  show (v.broker.apply e).now ≤ (v.after e).since n + limit.ceilMillis
  by_cases hclock : ∃ now, e = .setClock now
  · obtain ⟨now, rfl⟩ := hclock
    obtain ⟨hbounds, hparked⟩ := Bool.and_eq_true_iff.mp hpunctual
    obtain ⟨-, hdeadlines⟩ := Bool.and_eq_true_iff.mp hbounds
    have hlanes : (v.broker.apply (.setClock now)).lanes = v.broker.lanes :=
      congrArg Core.lanes (Broker.core_setClock v.broker now)
    have hl : v.broker.lanes[n]? = some l' := hlanes ▸ hl'
    have hdeadline := (hsound.after (.setClock now)).deadline n l' hl' hseeking
    rw [hlimit, Option.map_some] at hdeadline
    have hpark : l'.forwarder.isParked := by
      have hone := List.all_eq_true.mp hparked l' (List.mem_of_getElem? hl)
      rw [hseeking] at hone
      exact hone
    have hmem : (v.after (.setClock now)).since n + limit.ceilMillis ∈ v.broker.deadlines := by
      refine List.mem_filterMap.mpr ⟨l', List.mem_of_getElem? hl, ?_⟩
      cases hforwarder : l'.forwarder with
      | parked deadline notified =>
        rw [hforwarder] at hdeadline
        exact hdeadline
      | _ =>
        rw [hforwarder] at hpark
        cases hpark
    have hnow : (v.broker.apply (.setClock now)).now = now := Broker.now_setClock _ _
    rw [hnow]
    exact of_decide_eq_true (List.all_eq_true.mp hdeadlines _ hmem)
  · rw [Broker.now_apply v.broker fun now he => hclock ⟨now, he⟩]
    rcases hsound.lane_before hl' with ⟨l, hl, hlane⟩ | hstarting
    · cases hbefore : l.forwarder.isSeeking with
      | true =>
        have hsame : l'.limit = l.limit := by
          rcases hlane with hchanged | hadvances
          · exact hchanged.limit
          · exact hadvances.limit_eq
        rw [since_of_seeking hl hbefore]
        exact h n l limit hl (hsame ▸ hlimit) hbefore
      | false =>
        rw [since_of_beginning hl hl' hbefore hseeking]
        exact Nat.le_add_right _ _
    · rw [hstarting] at hseeking
      cases hseeking

theorem onTime_run (h : v.OnTime) (hsound : v.Sound) (hpunctual : v.punctual events)
    (hrun : v.run events = some v') : v'.OnTime := by
  induction events generalizing v with
  | nil =>
    obtain rfl := Option.some.inj hrun
    exact h
  | cons e events ih =>
    obtain ⟨v₁, hstep, hrest⟩ := Option.bind_eq_some_iff.mp hrun
    obtain rfl := step_eq_some hstep
    obtain ⟨hfirst, hlater⟩ := Bool.and_eq_true_iff.mp hpunctual
    exact ih (h.after hsound hfirst) (hsound.after e) hlater hrest

theorem onTime_ofCapacity? {capacity : Nat} {b : Broker}
    (h : Broker.ofCapacity? capacity = some b) :
    OnTime { broker := b } := by
  obtain rfl := Broker.eq_of_ofCapacity? h
  rintro n l limit ⟨⟩

/-- Whether whoever gives up does so when its limit has just passed since it has begun to wait. -/
def Exact (v : WaitLog) : Prop :=
  ∀ (e : Broker.Event) (n : Nat) (l l' : Lane), v.broker.lanes[n]? = some l →
    (v.broker.apply e).lanes[n]? = some l' → l.forwarder.isLast = false → l'.forwarder.isLast →
      ∃ limit, l.limit = some limit ∧ v.broker.now = v.since n + limit.ceilMillis

theorem OnTime.exact (h : v.OnTime) (hsound : v.Sound) : v.Exact := by
  intro e n l l' hl hl' hbefore hafter
  obtain ⟨-, limit, hlimit, -, -, hseeking, hover, -⟩ := hsound.gives_up hl hl' hbefore hafter
  exact ⟨limit, hlimit, Nat.le_antisymm (h n l limit hl hlimit hseeking) hover⟩

end WaitLog

/-! ## Giving up in time -/

/-- The lane of a forwarder that has given up. -/
def Lane.givenUp (l : Lane) : Lane :=
  { l with forwarder := .reporting (Broker.idleError (l.limit.getD .zero)) true }

namespace Broker

variable {b b' : Broker} {n k : Nat} {l : Lane} {deadline : Option Nat}

theorem advances_succ {x : Option Lane} (favourNew : Bool) (hstep : (b.advance n favourNew).1 = b')
    (h : ∃ i ≤ k, (b'.advances n favourNew i).lanes[n]? = x) :
    ∃ i ≤ k + 1, (b.advances n favourNew i).lanes[n]? = x := by
  obtain ⟨i, hi, hlanes⟩ := h
  refine ⟨i + 1, Nat.succ_le_succ hi, ?_⟩
  rw [advances, hstep]
  exact hlanes

/-- A forwarder that looks for a new envelope, or waits for one, when its time is up and there is
none gives up at once, unless there is a sign. -/
theorem advances_unsigned (hl : b.lanes[n]? = some l) (haborted : l.aborted = false)
    (h : l.forwarder = .choosing deadline ∧ b.permit = false ∨ l.forwarder = .parked deadline false)
    (hsilent : b.speaks = false) (hover : b.isOver deadline = true) (favourNew : Bool) :
    ∃ i ≤ 1, (b.advances n favourNew i).lanes[n]? = some l.givenUp := by
  have hstep : (b.advance n favourNew).1 =
      b.setForwarder n (.reporting (idleError (l.limit.getD .zero)) true) := by
    rcases h with ⟨hchoosing, hpermit⟩ | hparked
    · simp [advance, hl, haborted, proceed, hchoosing, choose, hpermit, hsilent, hover, timeOut]
    · simp [advance, hl, haborted, proceed, hparked, resume, hsilent, hover, timeOut]
  exact advances_succ favourNew hstep ⟨0, Nat.le_refl 0, getElem?_setForwarder hl b.permit _⟩

/-- One that looks for a returned message looks for a new envelope next. -/
theorem advances_unreturned (hl : b.lanes[n]? = some l) (haborted : l.aborted = false)
    (hlooking : l.forwarder = .looking deadline) (hpermit : b.permit = false)
    (hreturned : b.returned = []) (hsilent : b.speaks = false) (hover : b.isOver deadline = true)
    (favourNew : Bool) :
    ∃ i ≤ 2, (b.advances n favourNew i).lanes[n]? = some l.givenUp := by
  have hstep : (b.advance n favourNew).1 = b.setForwarder n (.choosing deadline) := by
    simp [advance, hl, haborted, proceed, hlooking, look, hreturned]
  have hl' := getElem?_setForwarder hl b.permit (.choosing deadline)
  exact advances_succ favourNew hstep
    (advances_unsigned hl' haborted (.inl ⟨rfl, hpermit⟩) hsilent hover favourNew)

/-- A sign that was kept is followed once, and then there is none. -/
theorem advances_choosing (hl : b.lanes[n]? = some l) (haborted : l.aborted = false)
    (hchoosing : l.forwarder = .choosing deadline) (hreturned : b.returned = [])
    (hsilent : b.speaks = false) (hover : b.isOver deadline = true) (favourNew : Bool) :
    ∃ i ≤ 3, (b.advances n favourNew i).lanes[n]? = some l.givenUp := by
  cases hpermit : b.permit with
  | false =>
    obtain ⟨i, hi, hlanes⟩ :=
      advances_unsigned hl haborted (.inl ⟨hchoosing, hpermit⟩) hsilent hover favourNew
    exact ⟨i, by omega, hlanes⟩
  | true =>
    have hstep : (b.advance n favourNew).1 =
        ({ b with permit := false } : Broker).setForwarder n (.looking deadline) := by
      simp [advance, hl, haborted, proceed, hchoosing, choose, hpermit, hsilent]
    have hl' := getElem?_setForwarder hl false (.looking deadline)
    exact advances_succ favourNew hstep
      (advances_unreturned hl' haborted rfl rfl hreturned hsilent hover favourNew)

/-- A forwarder whose time is up gives up in five steps at most if there is nothing for it, whatever
signs have reached it. -/
theorem advances_over (hl : b.lanes[n]? = some l) (haborted : l.aborted = false)
    (hseeking : l.forwarder.isSeeking) (hreturned : b.returned = []) (hsilent : b.speaks = false)
    (hover : b.isOver l.forwarder.until? = true) (favourNew : Bool) :
    ∃ i ≤ 5, (b.advances n favourNew i).lanes[n]? = some l.givenUp := by
  have hlooked {b : Broker} {l : Lane} {deadline : Option Nat} (hl : b.lanes[n]? = some l)
      (haborted : l.aborted = false) (hlooking : l.forwarder = .looking deadline)
      (hreturned : b.returned = [])
      (hsilent : b.speaks = false) (hover : b.isOver deadline = true) :
      ∃ i ≤ 4, (b.advances n favourNew i).lanes[n]? = some l.givenUp := by
    have hstep : (b.advance n favourNew).1 = b.setForwarder n (.choosing deadline) := by
      simp [advance, hl, haborted, proceed, hlooking, look, hreturned]
    have hl' := getElem?_setForwarder hl b.permit (.choosing deadline)
    exact advances_succ favourNew hstep (advances_choosing hl' haborted rfl hreturned
      hsilent hover favourNew)
  cases hforwarder : l.forwarder with
  | looking deadline =>
    rw [hforwarder] at hover
    obtain ⟨i, hi, hlanes⟩ := hlooked hl haborted hforwarder hreturned hsilent hover
    exact ⟨i, by omega, hlanes⟩
  | choosing deadline =>
    rw [hforwarder] at hover
    obtain ⟨i, hi, hlanes⟩ :=
      advances_choosing hl haborted hforwarder hreturned hsilent hover favourNew
    exact ⟨i, by omega, hlanes⟩
  | parked deadline notified =>
    rw [hforwarder] at hover
    cases notified with
    | false =>
      obtain ⟨i, hi, hlanes⟩ :=
        advances_unsigned hl haborted (.inr hforwarder) hsilent hover favourNew
      exact ⟨i, by omega, hlanes⟩
    | true =>
      have hstep : (b.advance n favourNew).1 = b.setForwarder n (.looking deadline) := by
        simp [advance, hl, haborted, proceed, hforwarder, resume, hsilent]
      have hl' := getElem?_setForwarder hl b.permit (.looking deadline)
      have hgivesUp := hlooked hl' haborted rfl hreturned hsilent hover
      exact advances_succ favourNew hstep hgivesUp
  | _ =>
    rw [hforwarder] at hseeking
    cases hseeking

/-- It cannot rest then, so it has been woken. -/
theorem not_rests_of_over (hl : b.lanes[n]? = some l) (hseeking : l.forwarder.isSeeking)
    (hover : b.isOver l.forwarder.until? = true) : ¬ b.Rests n := by
  intro hrests
  rcases hrests l hl with hended | ⟨-, hwaits⟩
  · cases hforwarder : l.forwarder with
    | ended =>
      rw [hforwarder] at hseeking
      cases hseeking
    | _ =>
      rw [hforwarder] at hended
      cases hended
  · rw [Waits] at hwaits
    cases hforwarder : l.forwarder with
    | looking | choosing =>
      rw [hforwarder] at hwaits
      exact hwaits
    | parked deadline notified =>
      rw [hforwarder] at hwaits hover
      obtain ⟨-, -, hearly⟩ := hwaits
      cases hearly.symm.trans hover
    | _ =>
      rw [hforwarder] at hseeking
      cases hseeking

/-- One that has given up puts the error in the slot, if the slot is free and its reader takes
errors, and ends. -/
theorem advance_last (hl : b.lanes[n]? = some l) (haborted : l.aborted = false)
    (hreads : l.readsErrors = true) (hslot : l.errorSlot = none) {error : String}
    (hlast : l.forwarder = .reporting error true) (favourNew : Bool) :
    (b.advance n favourNew).1.lanes[n]? = some { l with
      errorSlot := some error, forwarder := .ended } := by
  obtain ⟨hlt, -⟩ := List.getElem?_eq_some_iff.mp hl
  have hstep : (b.advance n favourNew).1 =
      (b.modifyLane n fun l => { l with errorSlot := some error }).finish n l := by
    simp [advance, hl, haborted, proceed, hlast, report, hreads, hslot]
  have hlanes : ((b.modifyLane n fun l => { l with errorSlot := some error }).finish n l).lanes =
      b.lanes.set n { l with errorSlot := some error, forwarder := .ended } :=
    congrArg Core.lanes (core_reportLast hl hlast)
  rw [hstep, hlanes]
  exact List.getElem?_set_self hlt

end Broker

/-! ## The result for one transport -/

namespace WaitLog

/-- How forwarders wait for envelopes, and what becomes of those that give up. -/
structure Timely (v : WaitLog) : Prop where
  /-- A forwarder has the limit that its consumer had when it was started. -/
  starts : ∀ (consumer owner : Nat) (c : Consumer), v.broker.consumers[consumer]? = some c →
    c.lane = none →
    (v.broker.consume consumer owner).1.lanes = v.broker.lanes ++ [Lane.start owner c.limit]
  /-- It keeps that limit. -/
  keeps : ∀ (e : Broker.Event) (n : Nat) (l l' : Lane), v.broker.lanes[n]? = some l →
    (v.broker.apply e).lanes[n]? = some l' → l'.limit = l.limit
  /-- One that waits has the queue, and its wait ends when its limit has passed since it has
  begun. -/
  waits : ∀ (n : Nat) (l : Lane), v.broker.lanes[n]? = some l → l.forwarder.isSeeking →
    v.broker.holder? = some n ∧ l.forwarder.until? = l.limit.map fun limit =>
      v.since n + limit.ceilMillis
  /-- It begins to wait when it gets the queue, and whenever it has handed something over. -/
  begins : ∀ (e : Broker.Event) (n : Nat) (l l' : Lane), v.broker.lanes[n]? = some l →
    (v.broker.apply e).lanes[n]? = some l' → l.forwarder.isSeeking = false →
    l'.forwarder.isSeeking → (v.after e).since n = v.broker.now ∧
        (l.forwarder = .queueing ∨
          (∃ d, l.forwarder = .offering d ∧ l.slot = none ∧ l'.slot = some d) ∨
          ∃ error, l.forwarder = .reporting error false ∧ l.errorSlot = none ∧
            l'.errorSlot = some error)
  /-- As soon as it can hand something over, it does so and begins to wait. -/
  resumes : ∀ (n : Nat) (l : Lane) (favourNew : Bool), v.broker.lanes[n]? = some l →
    l.aborted = false → (∀ d, l.forwarder = .offering d → l.readsMessages = true → l.slot = none →
      (v.broker.advance n favourNew).1.lanes[n]? =
        some { l with slot := some d, forwarder := .looking (v.broker.deadlineOf l.limit) }) ∧
    ∀ error, l.forwarder = .reporting error false → l.readsErrors = true → l.errorSlot = none →
      (v.broker.advance n favourNew).1.lanes[n]? =
        some { l with errorSlot := some error, forwarder := .looking (v.broker.deadlineOf l.limit) }
  /-- Whatever else happens, signs of returned messages among it, it goes on waiting until the same
  time. -/
  goesOn : ∀ (e : Broker.Event) (n : Nat) (l l' : Lane), v.broker.lanes[n]? = some l →
    (v.broker.apply e).lanes[n]? = some l' → l.forwarder.isSeeking → l'.forwarder.isSeeking →
      (v.after e).since n = v.since n ∧ l'.forwarder.until? = l.forwarder.until?
  /-- It gives up only if it waits, its limit has passed since it has begun to, and there is nothing
  for it. -/
  givesUp : ∀ (e : Broker.Event) (n : Nat) (l l' : Lane), v.broker.lanes[n]? = some l →
    (v.broker.apply e).lanes[n]? = some l' → l.forwarder.isLast = false → l'.forwarder.isLast →
      n ∈ (v.after e).gaveUp ∧ ∃ limit, l.limit = some limit ∧
        l'.forwarder = .reporting (Broker.idleError limit) true ∧ l.forwarder.isSeeking ∧
        v.since n + limit.ceilMillis ≤ v.broker.now ∧
        v.broker.returned = [] ∧ v.broker.incoming = [] ∧ v.broker.publishers ≠ 0
  /-- If that is so it does not rest, and gives up in five steps at most. -/
  inTime : ∀ (n : Nat) (l : Lane) (limit : Span) (favourNew : Bool), v.broker.lanes[n]? = some l →
    l.limit = some limit → l.forwarder.isSeeking → l.aborted = false →
    v.since n + limit.ceilMillis ≤ v.broker.now →
    v.broker.returned = [] → v.broker.incoming = [] → v.broker.publishers ≠ 0 →
      ¬ v.broker.Rests n ∧ ∃ i ≤ 5, (v.broker.advances n favourNew i).lanes[n]? =
        some { l with forwarder := .reporting (Broker.idleError limit) true }
  /-- One that has given up puts the error in the slot when that is free, and ends. -/
  reports : ∀ (n : Nat) (l : Lane) (favourNew : Bool), v.broker.lanes[n]? = some l →
    l.forwarder.isLast → l.aborted = false → l.readsErrors = true → l.errorSlot = none →
      ∃ limit, l.limit = some limit ∧ (v.broker.advance n favourNew).1.lanes[n]? =
        some { l with errorSlot := some (Broker.idleError limit), forwarder := .ended }
  /-- No forwarder gives up twice. -/
  once : v.gaveUp.Nodup
  /-- One that has given up never does anything else again, and takes nothing. -/
  done : ∀ n ∈ v.gaveUp, (∃ l, v.broker.lanes[n]? = some l ∧
    (l.forwarder.isLast ∨ l.forwarder = .ended)) ∧ ∀ e : Broker.Event, e.turnOf = some n →
      (v.broker.apply e).incoming = v.broker.incoming ∧
      (v.broker.apply e).returned = v.broker.returned
  /-- No message is lost. -/
  accounted : v.toLedger.Accounted

variable {v : WaitLog} {e : Broker.Event} {n : Nat} {l l' : Lane}

theorem Sound.registerStep_on (hsound : v.Sound) (hl : v.broker.lanes[n]? = some l)
    (hl' : (v.broker.apply e).lanes[n]? = some l') (hbefore : l.forwarder.isSeeking)
    (hafter : l'.forwarder.isSeeking) : l'.forwarder.until? = l.forwarder.until? := by
  rcases (Broker.happens_apply hsound.signsKept e).lane hl hl' with ⟨hchanged, -⟩ |
    ⟨-, hadvances, -⟩
  · exact hchanged.forwarder_congr Forwarder.until? fun _ => rfl
  · rcases hadvances.seeks_cases hafter with ⟨-, huntil⟩ | ⟨hnot, -⟩
    · exact huntil
    · cases hbefore.symm.trans hnot

theorem Sound.begins (hsound : v.Sound) (hl : v.broker.lanes[n]? = some l)
    (hl' : (v.broker.apply e).lanes[n]? = some l') (hbefore : l.forwarder.isSeeking = false)
    (hafter : l'.forwarder.isSeeking) :
    l.forwarder = .queueing ∨
      (∃ d, l.forwarder = .offering d ∧ l.slot = none ∧ l'.slot = some d) ∨
      ∃ error, l.forwarder = .reporting error false ∧ l.errorSlot = none ∧
      l'.errorSlot = some error := by
  rcases (Broker.happens_apply hsound.signsKept e).lane hl hl' with ⟨hchanged, -⟩ |
    ⟨-, hadvances, -⟩
  · rw [hchanged.forwarder_congr Forwarder.isSeeking fun _ => rfl, hbefore] at hafter
    cases hafter
  · rcases hadvances.seeks_cases hafter with ⟨hseeking, -⟩ | ⟨-, -, hways⟩
    · cases hbefore.symm.trans hseeking
    · exact hways

/-- One that has given up takes nothing. -/
theorem Sound.takes_nothing (hsound : v.Sound) (hn : n ∈ v.gaveUp) (he : e.turnOf = some n) :
    (v.broker.apply e).incoming = v.broker.incoming ∧
      (v.broker.apply e).returned = v.broker.returned := by
  obtain ⟨l, hl, hgaveUp⟩ := hsound.gaveUp n hn
  cases Broker.happens_apply hsound.signsKept e with
  | byUser he' => cases he.symm.trans he'
  | opened he' => cases he.symm.trans he'
  | missed _ hsame =>
    rw [hsame]
    exact ⟨rfl, rfl⟩
  | turned he' hx hturned =>
    obtain rfl := Option.some.inj (he.symm.trans he')
    obtain rfl := Option.some.inj (hl.symm.trans hx)
    obtain ⟨l', hadvances, -⟩ := hturned
    obtain ⟨hincoming, hreturned, -⟩ := hadvances.of_last hgaveUp
    exact ⟨hincoming, hreturned⟩

theorem mem_gaveUp_after (he : e.turnOf = some n) (hl : v.broker.lanes[n]? = some l)
    (hl' : (v.broker.apply e).lanes[n]? = some l') (hbefore : l.forwarder.isLast = false)
    (hafter : l'.forwarder.isLast) : n ∈ (v.after e).gaveUp := by
  refine List.mem_append_right _ (List.mem_filter.mpr ⟨?_, ?_⟩)
  · rw [he]
    exact List.mem_singleton_self n
  · rw [Broker.reportsLast_eq hl, Broker.reportsLast_eq hl', hbefore, hafter]
    rfl

theorem Sound.timely (hsound : v.Sound) : v.Timely where
  starts consumer owner c hc hidle := by
    obtain ⟨-, hcore⟩ := Broker.core_consume hc hidle owner
    exact congrArg Core.lanes hcore
  keeps e n l l' hl hl' := by
    rcases (Broker.happens_apply hsound.signsKept e).lane hl hl' with ⟨hchanged, -⟩ |
      ⟨-, hadvances, -⟩
    · exact hchanged.limit
    · exact hadvances.limit_eq
  waits n l hl hseeking :=
    ⟨hsound.signsKept.queue (Broker.getElem?_forwarders hl)
      (Forwarder.hasQueue_of_isSeeking hseeking), hsound.deadline n l hl hseeking⟩
  begins e n l l' hl hl' hbefore hafter :=
    ⟨since_of_beginning hl hl' hbefore hafter, hsound.begins hl hl' hbefore hafter⟩
  resumes n l favourNew hl haborted :=
    ⟨fun d hoffering hreads hslot =>
      Broker.advance_offering hl haborted hreads hslot hoffering favourNew,
      fun error hreporting hreads hslot =>
        Broker.advance_reporting hl haborted hreads hslot hreporting favourNew⟩
  goesOn e n l l' hl hl' hbefore hafter :=
    ⟨since_of_seeking hl hbefore, hsound.registerStep_on hl hl' hbefore hafter⟩
  givesUp e n l l' hl hl' hbefore hafter := by
    obtain ⟨he, limit, hlimit, -, hgaveUp, hseeking, hover, hnothing⟩ :=
      hsound.gives_up hl hl' hbefore hafter
    exact ⟨mem_gaveUp_after he hl hl' hbefore hafter, limit, hlimit, hgaveUp, hseeking, hover,
      hnothing⟩
  inTime n l limit favourNew hl hlimit hseeking haborted htime hreturned hincoming hpublishers := by
    have hdeadline := hsound.deadline n l hl hseeking
    rw [hlimit, Option.map_some] at hdeadline
    have hover : v.broker.isOver l.forwarder.until? = true := by
      rw [hdeadline, Broker.isOver_some]
      exact decide_eq_true htime
    have hsilent : v.broker.speaks = false := by
      simp [Broker.speaks, hincoming, hpublishers]
    refine ⟨Broker.not_rests_of_over hl hseeking hover, ?_⟩
    have hgivesUp := Broker.advances_over hl haborted hseeking hreturned hsilent hover favourNew
    have hgetD : l.limit.getD .zero = limit := by rw [hlimit, Option.getD_some]
    rwa [Lane.givenUp, hgetD] at hgivesUp
  reports n l favourNew hl hlast haborted hreads hslot := by
    obtain ⟨limit, hlimit, hgaveUp⟩ := hsound.last n l hl hlast
    exact ⟨limit, hlimit, Broker.advance_last hl haborted hreads hslot hgaveUp favourNew⟩
  once := hsound.once
  done n hn := ⟨hsound.gaveUp n hn, fun e he => hsound.takes_nothing hn he⟩
  accounted := Ledger.accounted_of_sound hsound.contents

end WaitLog

end Courier
