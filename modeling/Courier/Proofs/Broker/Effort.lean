import Courier.Proofs.Broker.ForwarderSteps
import Mathlib.Algebra.GroupWithZero.Nat

/-!
# What a forwarder has still to do

A forwarder without a limit cannot go on for ever by itself. `Core.effort` weighs everything that is
under way, and each thing that the forwarder can do makes it lighter
(`Core.ForwarderStep.effort_lt`). What it weighs is chosen so that each step pays for the next: an
envelope weighs more the further it is from its reader, and a sign is heavy enough for the forwarder
to follow it in vain.

`Core.faults` counts the errors that are under way; the forwarder makes none. `Core.WellFormed` is
what a forwarder relies on, and keeps.
-/

namespace Courier

/-! ## Weights -/

/-- How much the parts of a core weigh. An envelope does not get heavier when it gets on the
queue. -/
structure Weights where
  /-- The weight of a lane. -/
  lane : Lane → Nat
  /-- The weight of an envelope on the queue. -/
  queued : Envelope → Nat
  /-- The weight of an envelope that waits for room. -/
  waiting : Envelope → Nat
  /-- The weight of a returned message. -/
  returned : Nat
  /-- The weight of a sign that is kept. -/
  sign : Nat
  /-- The weight of a publisher. -/
  publisher : Nat
  queued_le : ∀ e, queued e ≤ waiting e

namespace Core

/-- How much a core weighs. -/
def weight (s : Weights) (g : Core) : Nat :=
  (g.lanes.map s.lane).sum + (g.incoming.map s.queued).sum + (g.blocked.map s.waiting).sum
    + s.returned * g.returned.length + s.sign * g.permit.toNat + s.publisher * g.publishers

variable {s : Weights} {g : Core} {n : Nat} {l : Lane}

theorem weight_setLane (h : g.lanes[n]? = some l) (l' : Lane) :
    (g.setLane n l').weight s + s.lane l = g.weight s + s.lane l' := by
  obtain ⟨rest, hsum, hset⟩ := exists_sum_map_set s.lane h
  simp only [weight, setLane, hsum, hset]
  omega

theorem weight_setPermit (s : Weights) (g : Core) (permit : Bool) :
    ({ g with permit := permit } : Core).weight s + s.sign * g.permit.toNat =
      g.weight s + s.sign * permit.toNat := by
  simp only [weight]
  omega

/-- What is taken off the queue weighs nothing any more, and what gets its place weighs no more than
before. -/
theorem weight_dequeue {e : Envelope} {rest : List Envelope} (h : g.incoming = e :: rest) :
    (g.dequeue rest).weight s + s.queued e ≤ g.weight s := by
  unfold dequeue
  split
  · simp only [weight, h, List.map_cons, List.sum_cons]
    omega
  · next f later hblocked =>
    split
    · have hle := s.queued_le f
      simp only [weight, h, hblocked, List.map_cons, List.sum_cons, List.map_append, List.map_nil,
        List.sum_nil, List.sum_append]
      omega
    · simp only [weight, h, List.map_cons, List.sum_cons]
      omega

/-- An envelope that is sent is on the queue, or waits for room. -/
theorem weight_enqueue (s : Weights) (g : Core) (e : Envelope) :
    (g.enqueue e).weight s ≤ g.weight s + s.waiting e := by
  unfold enqueue
  split
  · have hle := s.queued_le e
    simp only [weight, List.map_append, List.map_cons, List.map_nil, List.sum_append, List.sum_cons,
      List.sum_nil]
    omega
  · simp only [weight, List.map_append, List.map_cons, List.map_nil, List.sum_append, List.sum_cons,
      List.sum_nil]
    omega

theorem lanes_dequeue (g : Core) (rest : List Envelope) : (g.dequeue rest).lanes = g.lanes := by
  unfold dequeue
  split
  · rfl
  · split <;> rfl

/-- Another lane makes the core heavier by as much as it is heavier. -/
theorem weight_setLane_lt {k : Nat} {l' : Lane} (h : g.lanes[n]? = some l)
    (hk : g.weight s + s.lane l' < k + s.lane l) : (g.setLane n l').weight s < k := by
  have hset := weight_setLane (s := s) h l'
  omega

end Core

/-! ## Effort -/

/-- How much a forwarder has to do where it stands. -/
def Forwarder.effort : Forwarder → Nat
  | .starting => 27
  | .queueing => 26
  | .looking _ => 25
  | .choosing _ => 24
  | .parked _ false => 23
  | .parked _ true => 26
  | .offering _ => 30
  | .reporting .. => 28
  | .ended => 0

theorem Forwarder.effort_ended : ended.effort = 0 := rfl

/-- A forwarder that has not ended has to do more than what it leaves behind weighs. -/
theorem Forwarder.le_effort {f : Forwarder} (h : f.isEnded = false) : 23 ≤ f.effort := by
  cases f with
  | ended => cases h
  | parked _ notified => cases notified <;> simp [effort]
  | _ => simp [effort]

theorem Forwarder.isEnded_of_isAwaitingNew {f : Forwarder} (h : f.isAwaitingNew) :
    f.isEnded = false := by
  cases f <;> first | rfl | cases h

/-- How much there is to do about a lane. -/
def Lane.effort (l : Lane) : Nat :=
  l.forwarder.effort + 4 * l.slot.isSome.toNat + 20 * l.readsMessages.toNat +
    20 * l.readsErrors.toNat

/-- How much there is to do about everything under way. -/
def Weights.effort : Weights where
  lane := Lane.effort
  queued _ := 10
  waiting _ := 12
  returned := 10
  sign := 2
  publisher := 1
  queued_le _ := by omega

namespace Core

/-- How much there is to do. -/
def effort (g : Core) : Nat := g.weight .effort

variable {g g' : Core} {n : Nat} {l : Lane}

/-- A forwarder that keeps its sign had more to do because of it. -/
theorem effort_keeps {permit permit' : Bool} (h : l.Keeps permit permit') :
    23 + 2 * permit'.toNat ≤ l.forwarder.effort + 2 * permit.toNat := by
  cases h with
  | choosing h =>
    rw [h, Forwarder.effort]
    omega
  | @parked notified h =>
    rw [h]
    cases notified <;> cases permit <;> simp [Forwarder.effort]

/-- What a forwarder takes off the queue weighs more there than in its hand. -/
theorem effort_take {permit : Bool} {e : Envelope} {rest : List Envelope} {f : Forwarder}
    (hl : g.lanes[n]? = some l) (hkeeps : l.Keeps g.permit permit)
    (hincoming : g.incoming = e :: rest) (hf : f.effort ≤ 30) :
    ((({ g with permit := permit } : Core).dequeue rest).setLane n { l with
      forwarder := f }).effort < g.effort := by
  have hdequeue := weight_dequeue (s := .effort) (g := { g with permit := permit }) hincoming
  have hpermit := weight_setPermit .effort g permit
  have hsign := effort_keeps hkeeps
  refine weight_setLane_lt (by rwa [lanes_dequeue]) ?_
  simp only [effort, Weights.effort, Lane.effort] at *
  omega

/-- Whatever a forwarder does, there is less to do after it. -/
theorem ForwarderStep.effort_lt (h : g.ForwarderStep n l g') (hl : g.lanes[n]? = some l) :
    g'.effort < g.effort := by
  cases h with
  | takeMessage hkeeps hincoming => exact effort_take hl hkeeps hincoming (Nat.le_refl 30)
  | takeError hkeeps hincoming => exact effort_take hl hkeeps hincoming (by decide : 28 ≤ 30)
  | join h | enter h | followSign h | choose h | park h | handOver h hslot | report h =>
    refine weight_setLane_lt hl ?_
    simp_all [effort, weight, Weights.effort, Lane.effort, Forwarder.effort]
  | takeReturned h hreturned =>
    refine weight_setLane_lt hl ?_
    simp only [effort, weight, Weights.effort, Lane.effort, Forwarder.effort, h, hreturned,
      List.length_cons]
    omega
  | followPermit h hpermit =>
    refine weight_setLane_lt hl ?_
    simp only [effort, weight, Weights.effort, Lane.effort, Forwarder.effort, h, hpermit,
      Bool.toNat_true, Bool.toNat_false]
    omega
  | @finish permit h =>
    have hhand := Forwarder.le_effort (Forwarder.isEnded_of_isAwaitingNew h)
    have hsign := permit.toNat_le
    refine weight_setLane_lt hl ?_
    simp only [effort, weight, Weights.effort, Lane.effort, Forwarder.effort_ended]
    omega
  | @quit returned permit h hgone hreturned =>
    have hhand := Forwarder.le_effort h
    have hsign := permit.toNat_le
    refine weight_setLane_lt hl ?_
    simp only [effort, weight, Weights.effort, Lane.effort, Forwarder.effort_ended]
    omega

end Core

/-- So a forwarder that does something changes the transport. -/
theorem Broker.ne_of_forwarderStep {b b' : Broker} {n : Nat} {l : Lane} (hl : b.lanes[n]? = some l)
    (h : b.core.ForwarderStep n l b'.core) : b' ≠ b := by
  rintro rfl
  exact absurd (h.effort_lt hl) (Nat.lt_irrefl _)

/-! ## Errors under way -/

/-- How many errors an envelope carries. -/
def Envelope.faults : Envelope → Nat
  | .message _ => 0
  | .error _ => 1

/-- How many errors are in a lane. -/
def Lane.faults (l : Lane) : Nat := l.errorSlot.isSome.toNat + l.forwarder.isReporting.toNat

/-- How many errors are under way. -/
def Weights.faults : Weights where
  lane := Lane.faults
  queued := Envelope.faults
  waiting := Envelope.faults
  returned := 0
  sign := 0
  publisher := 0
  queued_le _ := Nat.le_refl _

namespace Core

/-- How many errors are under way. -/
def faults (g : Core) : Nat := g.weight .faults

variable {g g' : Core} {n : Nat} {l : Lane}

/-- What a forwarder takes off the queue is in its hand then. -/
theorem faults_take {permit : Bool} {e : Envelope} {rest : List Envelope} {f : Forwarder}
    (hl : g.lanes[n]? = some l) (hincoming : g.incoming = e :: rest)
    (hf : f.isReporting.toNat = e.faults) :
    ((({ g with permit := permit } : Core).dequeue rest).setLane n { l with
      forwarder := f }).faults ≤ g.faults := by
  have hdequeue := weight_dequeue (s := .faults) (g := { g with permit := permit }) hincoming
  have hpermit := weight_setPermit .faults g permit
  refine Nat.le_of_lt_succ (weight_setLane_lt (by rwa [lanes_dequeue]) ?_)
  simp only [faults, Weights.faults, Lane.faults] at *
  omega

/-- A forwarder makes no errors. -/
theorem ForwarderStep.faults_le (h : g.ForwarderStep n l g') (hl : g.lanes[n]? = some l) :
    g'.faults ≤ g.faults := by
  cases h with
  | takeMessage hkeeps hincoming => exact faults_take hl hincoming rfl
  | takeError hkeeps hincoming => exact faults_take hl hincoming rfl
  | join h | enter h | followSign h | choose h | park h | handOver h | report h hslot
  | takeReturned h | followPermit h =>
    refine Nat.le_of_lt_succ (weight_setLane_lt hl ?_)
    simp_all [faults, weight, Weights.faults, Lane.faults, Forwarder.isReporting]
  | finish | quit =>
    have hnone : Forwarder.ended.isReporting.toNat = 0 := rfl
    refine Nat.le_of_lt_succ (weight_setLane_lt hl ?_)
    simp only [faults, weight, Weights.faults, Lane.faults, hnone]
    omega

/-! ## What a forwarder relies on -/

/-- Whether the forwarders in line are those that have joined it, each once. -/
structure InLine (line : List Nat) (lanes : List Lane) : Prop where
  mem : ∀ i, i ∈ line ↔ ∃ l, lanes[i]? = some l ∧ l.forwarder.isQueued
  nodup : line.Nodup

namespace InLine

variable {line : List Nat} {lanes : List Lane} {l' : Lane}

theorem mem_iff (h : InLine line lanes) (hl : lanes[n]? = some l) :
    n ∈ line ↔ l.forwarder.isQueued := by
  rw [h.mem, hl]
  simp

/-- The other lanes are what they were. -/
theorem of_set {line' : List Nat} (h : InLine line lanes) (hl : lanes[n]? = some l)
    (hothers : ∀ i, i ≠ n → (i ∈ line' ↔ i ∈ line)) (hself : n ∈ line' ↔ l'.forwarder.isQueued)
    (hnodup : line'.Nodup) : InLine line' (lanes.set n l') where
  mem i := by
    have hlt : n < lanes.length := (List.getElem?_eq_some_iff.mp hl).1
    by_cases hi : i = n
    · subst hi
      rw [hself, List.getElem?_set_self hlt]
      simp
    · rw [hothers i hi, List.getElem?_set_ne (Ne.symm hi)]
      exact h.mem i
  nodup := hnodup

/-- A forwarder that neither joins nor leaves. -/
theorem set (h : InLine line lanes) (hl : lanes[n]? = some l)
    (hqueued : l'.forwarder.isQueued = l.forwarder.isQueued) : InLine line (lanes.set n l') :=
  h.of_set hl (fun _ _ => Iff.rfl) (by rw [hqueued, h.mem_iff hl]) h.nodup

theorem join (h : InLine line lanes) (hl : lanes[n]? = some l)
    (hnew : l.forwarder.isQueued = false) (hqueued : l'.forwarder.isQueued) :
    InLine (line ++ [n]) (lanes.set n l') := by
  have hnot : n ∉ line := by
    rw [h.mem_iff hl, hnew]
    exact Bool.false_ne_true
  refine h.of_set hl (fun i hi => by simp [hi]) (by simp [hqueued]) ?_
  rw [List.nodup_append]
  exact ⟨h.nodup, List.pairwise_singleton .., fun i hi j hj heq =>
    hnot (List.mem_singleton.mp hj ▸ heq ▸ hi)⟩

theorem leave (h : InLine line lanes) (hl : lanes[n]? = some l)
    (hgone : l'.forwarder.isQueued = false) : InLine (line.erase n) (lanes.set n l') := by
  refine h.of_set hl (fun i hi => List.mem_erase_of_ne hi) ?_ (h.nodup.erase n)
  rw [hgone, h.nodup.mem_erase_iff]
  simp

/-- A lane is opened, and its forwarder has not begun. -/
theorem concat (h : InLine line lanes) (hnew : l.forwarder.isQueued = false) :
    InLine line (lanes ++ [l]) where
  mem i := by
    rw [h.mem, List.getElem?_append]
    split
    · rfl
    · next hge =>
      rw [List.getElem?_eq_none (Nat.le_of_not_lt hge), List.getElem?_singleton]
      split <;> simp [hnew]
  nodup := h.nodup

/-- A forwarder that is in line has the queue if all others have ended. -/
theorem head?_eq (h : InLine line lanes) (hl : lanes[n]? = some l) (hqueued : l.forwarder.isQueued)
    (halone : ∀ i l, lanes[i]? = some l → i ≠ n → l.forwarder = .ended) : line.head? = some n := by
  have hmem : n ∈ line := (h.mem_iff hl).mpr hqueued
  cases line with
  | nil => exact absurd hmem List.not_mem_nil
  | cons i line =>
    obtain ⟨l', hl', hqueued'⟩ := (h.mem i).mp (List.mem_cons_self ..)
    by_contra hne
    rw [halone i l' hl' fun hi => hne (by rw [hi]; rfl)] at hqueued'
    cases hqueued'

end InLine

/-- What a forwarder relies on while nobody sets limits: consumers can be made and have none,
forwarders in line stand there once, and an envelope waits only if the queue is full. -/
structure WellFormed (g : Core) : Prop where
  available : g.failuresLeft = 0
  kept : g.hasFactory = true
  capacity_pos : 1 ≤ g.capacity
  fullIfBlocked : g.blocked ≠ [] → g.capacity ≤ g.incoming.length
  noLimit : ∀ l ∈ g.lanes, l.HasNoLimit
  unlimited : ∀ c ∈ g.consumers, c.limit = none
  inLine : InLine g.line g.lanes

namespace WellFormed

theorem hasNoLimit (h : g.WellFormed) (hl : g.lanes[n]? = some l) : l.HasNoLimit :=
  h.noLimit l (List.mem_of_getElem? hl)

/-- Nothing waits for room if the queue is empty. -/
theorem blocked_of_empty (h : g.WellFormed) (hincoming : g.incoming = []) : g.blocked = [] := by
  by_contra hsome
  have hroomy := h.capacity_pos
  have hfull := h.fullIfBlocked hsome
  rw [hincoming, List.length_nil] at hfull
  omega

/-- Another lane may take the place of one, whatever was returned. -/
theorem setLane (h : g.WellFormed) {returned : List Parcel} {permit : Bool} {line : List Nat}
    {l' : Lane} (hunlimited : l'.HasNoLimit) (hline : InLine line (g.lanes.set n l')) :
    (({ g with returned := returned, permit := permit, line := line } : Core).setLane n
      l').WellFormed where
  available := h.available
  kept := h.kept
  capacity_pos := h.capacity_pos
  fullIfBlocked := h.fullIfBlocked
  noLimit k hk := by
    rcases List.mem_or_eq_of_mem_set hk with hk | rfl
    · exact h.noLimit k hk
    · exact hunlimited
  unlimited := h.unlimited
  inLine := hline

theorem setReturned (h : g.WellFormed) (returned : List Parcel) (permit : Bool) :
    ({ g with returned := returned, permit := permit } : Core).WellFormed :=
  ⟨h.available, h.kept, h.capacity_pos, h.fullIfBlocked, h.noLimit, h.unlimited, h.inLine⟩

theorem setConsumers (h : g.WellFormed) {consumers : List Consumer}
    (hlimit : ∀ c ∈ consumers, c.limit = none) :
    ({ g with consumers := consumers } : Core).WellFormed :=
  ⟨h.available, h.kept, h.capacity_pos, h.fullIfBlocked, h.noLimit, hlimit, h.inLine⟩

theorem setOutcomes (h : g.WellFormed) (outcomes : List Outcome) :
    ({ g with outcomes := outcomes } : Core).WellFormed :=
  ⟨h.available, h.kept, h.capacity_pos, h.fullIfBlocked, h.noLimit, h.unlimited, h.inLine⟩

/-- A lane may be opened whose forwarder has no limit. -/
theorem addLane (h : g.WellFormed) (owner : Nat) {limit : Option Span} (hlimit : limit = none) :
    ({ g with lanes := g.lanes ++ [Lane.start owner limit] } : Core).WellFormed where
  available := h.available
  kept := h.kept
  capacity_pos := h.capacity_pos
  fullIfBlocked := h.fullIfBlocked
  noLimit l hl := by
    rcases List.mem_append.mp hl with hl | hl
    · exact h.noLimit l hl
    · rw [List.mem_singleton.mp hl]
      exact ⟨hlimit, rfl⟩
  unlimited := h.unlimited
  inLine := h.inLine.concat rfl

/-- The queue stays full as long as an envelope waits. -/
theorem dequeue (h : g.WellFormed) {e : Envelope} {rest : List Envelope}
    (hincoming : g.incoming = e :: rest) :
    (g.dequeue rest).WellFormed := by
  have hpressed := h.fullIfBlocked
  rw [hincoming, List.length_cons] at hpressed
  unfold Core.dequeue
  split
  · next hblocked =>
    exact ⟨h.available, h.kept, h.capacity_pos, fun hne =>
      absurd hblocked hne, h.noLimit, h.unlimited, h.inLine⟩
  · next f later hblocked =>
    have hfull := hpressed (by rw [hblocked]; exact List.cons_ne_nil _ _)
    split
    · refine ⟨h.available, h.kept, h.capacity_pos, fun _ => ?_, h.noLimit, h.unlimited, h.inLine⟩
      rw [List.length_append]
      exact hfull
    · next hroom =>
      exact ⟨h.available, h.kept, h.capacity_pos, fun _ =>
        Nat.le_of_not_lt hroom, h.noLimit, h.unlimited, h.inLine⟩

theorem enqueue (h : g.WellFormed) (e : Envelope) : (g.enqueue e).WellFormed := by
  unfold Core.enqueue
  split
  · next hroom =>
    refine ⟨h.available, h.kept, h.capacity_pos, fun hne => ?_, h.noLimit, h.unlimited, h.inLine⟩
    exact absurd (List.isEmpty_iff.mp (Bool.and_eq_true_iff.mp hroom).2) hne
  · next hfull =>
    refine ⟨h.available, h.kept, h.capacity_pos, fun _ => ?_, h.noLimit, h.unlimited, h.inLine⟩
    by_cases hblocked : g.blocked = []
    · simpa [hblocked] using hfull
    · exact h.fullIfBlocked hblocked

/-- A forwarder keeps what it relies on. -/
theorem forwarderStep (h : g.WellFormed) (hl : g.lanes[n]? = some l)
    (hforward : g.ForwarderStep n l g') : g'.WellFormed := by
  have hlimit := (h.hasNoLimit hl).limit
  have hunlimited {f : Forwarder} {slot : Option Delivery} {errorSlot : Option String}
      (hf : f.hasNoDeadline) :
      ({ l with forwarder := f, slot := slot, errorSlot := errorSlot }).HasNoLimit :=
    ⟨hlimit, hf⟩
  cases hforward with
  | join hf => exact h.setLane (hunlimited rfl) (h.inLine.join hl (by rw [hf]; rfl) rfl)
  | enter hf | choose hf | followSign hf | park hf | handOver hf | report hf | takeReturned hf
  | followPermit hf => exact h.setLane (hunlimited rfl) (h.inLine.set hl (by rw [hf]; rfl))
  | @takeMessage _ _ permit _ hkeeps hincoming | @takeError _ _ permit hkeeps hincoming =>
    have hdequeued := (h.setReturned g.returned permit).dequeue hincoming
    refine hdequeued.setLane ?_ (hdequeued.inLine.set (by rwa [lanes_dequeue]) ?_)
    · exact hunlimited rfl
    · cases hkeeps with
      | choosing hf | parked hf =>
        rw [hf]
        rfl
  | finish | quit => exact h.setLane (hunlimited rfl) (h.inLine.leave hl rfl)

end WellFormed

end Core

end Courier
