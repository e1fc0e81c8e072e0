import Courier.Proofs.Broker.Time
import Courier.Proofs.Worker.Budget

/-!
# The runs that failures are spent on

A component is run again and again over the in-memory transport, whose factory was told to fail the
first `k` requests for a consumer. Nobody tells it anything else, and no run sees a request to stop
while it waits for its next attempt (`Campaign.allows`).

`Campaign.failure_budget` says which runs fail for want of a consumer, with how many attempts, and
what the factory has counted. A run that is at its attempts comes to their end
(`Campaign.inevitably_past`), and if it gets a consumer it can start it: whatever happens and
however runs overlap, none of them fails because its consumer does not start or because a message is
not settled.
-/

namespace Courier

namespace Worker

/-- Whether a run waits for its next attempt. -/
def isWaiting (w : Worker) (n : Nat) : Bool :=
  match (w.runs[n]?).map WorkerRun.phase with
  | some (.retrying ..) => true
  | _ => false

/-- Whether a run has neither got a consumer nor failed for want of one. -/
def IsAtAttempts (w : Worker) (n : Nat) : Prop := ∃ r, w.runs[n]? = some r ∧ r.phase.IsAcquiring

end Worker

/-- A worker, with the requests for a consumer that were answered so far, each with the number of
the run. -/
structure Campaign where
  /-- The worker. -/
  worker : Worker
  /-- The requests that were answered, in that order. -/
  asked : List (Nat × Except String Nat) := []

namespace Campaign

/-- Whether an event is one of a component with so many retries. -/
def allows (retries : UInt32) (w : Worker) : Worker.Event → Bool
  | .failAttempts _ => false
  | .start p _ _ => p.retries = retries
  | .run n => !(w.isWaiting n && w.seen n)
  | _ => true

/-- The campaign after an event, if it is one of the component and can happen. -/
def step (retries : UInt32) (c : Campaign) (e : Worker.Event) : Option Campaign :=
  if allows retries c.worker e then
    (c.worker.apply e).map fun w => ⟨w, c.asked ++ c.worker.asks e⟩
  else none

/-- The campaign after several events, if they can happen one after the other. -/
def run (retries : UInt32) (c : Campaign) (events : List Worker.Event) : Option Campaign :=
  events.foldlM (step retries) c

/-- A campaign before its first run, with a factory that is to fail `k` times. -/
def opening (b : Broker) (k : Nat) : Campaign := ⟨{ broker := b.failAttempts k }, []⟩

/-- The `n`-th run, which is at its attempts, takes a step, after whatever else has happened
meanwhile, and sees no request to stop after it. -/
def Tries (retries : UInt32) (n : Nat) (c c' : Campaign) : Prop :=
  c.worker.IsAtAttempts n ∧ c'.worker.seen n = false ∧ ∃ events c₁, (∀ e ∈ events, e ≠ .run n) ∧
    c.run retries events = some c₁ ∧ c₁.step retries (.run n) = some c'

/-! ## What is preserved -/

/-- How a campaign stands with its failures. -/
structure Sound (retries : UInt32) (k M : Nat) (c : Campaign) : Prop where
  budget : Budget retries k M c.worker.broker.register c.worker.profiledRuns c.asked
  counted : Counted k c.worker.broker.register c.worker.profiledRuns c.asked

variable {retries : UInt32} {k M n : Nat} {c c' : Campaign} {e : Worker.Event}

theorem occur_of_apply {w w' : Worker} (h : w.apply e = some w') : w.occur e = some w' := by
  cases e with
  | start profile processor signal =>
    simp only [Worker.apply] at h
    split at h
    · exact h
    · cases h
  | _ => exact h

theorem registerStep_of_step (h : c.step retries e = some c') :
    allows retries c.worker e ∧ c'.asked = c.asked ++ c.worker.asks e ∧
      c.worker.apply e = some c'.worker ∧
      RegisterStep c.worker.seen e c.worker.broker.register c.worker.profiledRuns
      c'.worker.broker.register c'.worker.profiledRuns (c.worker.asks e) := by
  unfold step at h
  split at h
  · next hallows =>
    obtain ⟨w, hw, rfl⟩ := Option.map_eq_some_iff.mp h
    exact ⟨hallows, rfl, hw, Worker.registerStep_of_occur (occur_of_apply hw)⟩
  · cases h

/-- Each event of the component is accounted for. -/
theorem Sound.step (h : c.Sound retries k M) (hM : M = min (retries.toNat + 1) (UInt32.size - 1))
    (hstep : c.step retries e = some c') : c'.Sound retries k M := by
  obtain ⟨hallows, hasked, happly, hregisterStep⟩ := registerStep_of_step hstep
  have hfail : ∀ count, e ≠ .failAttempts count := by
    rintro count rfl
    cases hallows
  refine ⟨?_, ?_⟩
  · rw [hasked]
    refine h.budget.registerStep hM hregisterStep hfail ?_ ?_
    · rintro p processor signal rfl
      refine ⟨of_decide_eq_true hallows, fun q hq => ?_⟩
      simp only [Worker.apply] at happly
      split at happly
      · next hidle =>
        obtain ⟨r, hr, rfl⟩ := List.mem_map.mp hq
        exact List.all_eq_true.mp hidle r hr
      · cases happly
    · rintro i q attempt deadline rfl hq hphase
      obtain ⟨r, hr, rfl⟩ := Worker.exists_of_profiledRuns hq
      have hwaiting : c.worker.isWaiting i := by
        rw [Worker.isWaiting, hr, Option.map_some]
        change r.phase = _ at hphase
        rw [hphase]
      rw [allows, hwaiting, Bool.true_and, Bool.not_eq_true'] at hallows
      exact hallows
  · rw [hasked]
    exact h.counted.registerStep hregisterStep hfail

theorem Sound.run (h : c.Sound retries k M) (hM : M = min (retries.toNat + 1) (UInt32.size - 1))
    {events : List Worker.Event} (hrun : c.run retries events = some c') : c'.Sound retries k M :=
  foldlM_induction (motive := fun c => c.Sound retries k M) hrun h fun _ _ _ _ hsound =>
    hsound.step hM

/-- Nothing has been spent before the first run. -/
theorem sound_opening {capacity : Nat} {b : Broker} (hopen : Broker.ofCapacity? capacity = some b)
    (k : Nat) :
    (opening b k).Sound retries k M := by
  have hnone : ∀ (i : Nat) (q : ProfiledRun), ([] : List ProfiledRun)[i]? ≠ some q :=
    fun i q hq => by simp at hq
  have hstats : b.stats = ⟨0, 0, 0⟩ := by
    obtain rfl := Broker.eq_of_ofCapacity? hopen
    rfl
  constructor
  case budget =>
    refine ⟨fun q hq => absurd hq List.not_mem_nil, fun x hx => absurd hx List.not_mem_nil,
      fun i q hq => absurd hq (hnone i q), fun i q hq => absurd hq (hnone i q), fun _ => ?_⟩
    show k = k - 0 * M
    omega
  case counted =>
    constructor <;> simp [opening, Broker.register, Broker.failAttempts, hstats,
      Worker.profiledRuns]

/-! ## A run comes to the end of its attempts -/

end Campaign

/-- A run that has ended with a result has that outcome. -/
theorem Phase.outcome?_of_result? {phase : Phase Delivery} {result : RunResult}
    (h : phase.result? = some result) : phase.outcome? = some result := by
  cases phase with
  | stopped => exact h
  | _ => cases h

/-- What happens beside a run that is at its attempts leaves it there. -/
theorem RegisterStep.keeps {seen : Nat → Bool} {g g' : Register} {ps ps' : List ProfiledRun}
    {q : ProfiledRun} {new : List (Nat × Except String Nat)} {n : Nat} {e : Worker.Event}
    (h : RegisterStep seen e g ps g' ps' new) (hn : ps[n]? = some q) (he : e ≠ .run n)
    (hacq : q.state.phase.IsAcquiring) : ps'[n]? = some q := by
  have hset {m : Nat} (x : ProfiledRun) (hm : m ≠ n) : (ps.set m x)[n]? = some q := by
    rw [List.getElem?_set_ne hm]
    exact hn
  cases h with
  | rest | fail => exact hn
  | start =>
    obtain ⟨hlt, -⟩ := List.getElem?_eq_some_iff.mp hn
    rw [List.getElem?_append_left hlt]
    exact hn
  | @work m now x a turn hm hphase =>
    refine hset _ ?_
    rintro rfl
    obtain rfl := Option.some.inj (hn.symm.trans hm)
    exact Phase.not_isAcquiring_of_hasLane (Phase.hasLane_of_isHandling hphase) hacq
  | refuse he' | create he' | wait he' | begin he' | turnAway he' | release he' | close he' =>
    refine hset _ ?_
    rintro rfl
    exact he he'

/-- A bound on the steps that a run may take until it is past its attempts, of which it may make
`M`. -/
def Phase.trials (M : Nat) : Phase Delivery → Nat
  | .creating attempt => 2 * (M - attempt.toNat) + 1
  | .retrying attempt _ => 2 * (M - attempt.toNat)
  | _ => 0

/-- Each answer to a run at its attempts leaves it with fewer steps, unless it has to wait
longer. -/
theorem Phase.trials_lt {p : Profile} {now failed : Nat} {phase : Phase Delivery}
    {a : Answer Delivery} {turn : Turn Delivery} (h : phase.step p now a = some turn)
    (hacq : phase.IsAcquiring) (hattempted : phase.Attempted p failed)
    (hover : ∀ attempt deadline, phase = .retrying attempt deadline → deadline ≤ now) :
    turn.phase.trials p.maxAttempts.toNat < phase.trials p.maxAttempts.toNat := by
  have hstepsTo := Phase.stepsTo_of_step h
  cases hstepsTo with
  | created | exhausted => exact Nat.succ_pos _
  | postponed => exact Nat.lt_succ_self _
  | gaveUp =>
    obtain ⟨hcount, hlimit⟩ := hattempted
    simp only [trials]
    omega
  | triedAgain =>
    obtain ⟨hcount, hlimit⟩ := hattempted
    obtain ⟨hnext, -⟩ := Phase.attempted_of_step h ⟨hcount, hlimit⟩ trivial
    simp only [Answer.isCreate, Bool.false_eq_true, if_false] at hnext
    simp only [trials]
    omega
  | waited hnot => exact absurd (hover _ _ rfl) hnot
  | _ => exact hacq.elim

namespace Worker

variable {w w' : Worker} {n : Nat} {r : WorkerRun}

/-- An answer takes a run on, and leaves its signal as it is. -/
theorem goesOn_of_answer {b : Broker} {q : WorkerRun} {a : Answer Delivery}
    (hlt : n < w.runs.length) (h : (w.onto b).answer n q a = some w') :
    w'.seen n = q.seesStop ∧ ∃ turn q', q.phase.step q.profile b.now a = some turn ∧
      w'.profiledRuns[n]? = some q' ∧ q'.state.phase = turn.phase := by
  constructor
  · obtain ⟨turn, -, rfl⟩ := Option.map_eq_some_iff.mp h
    have hself :
        (w.runs.modify n fun _ => (q.take turn).prepare)[n]? = some (q.take turn).prepare := by
      rw [List.getElem?_modify_eq, List.getElem?_eq_getElem hlt]
      rfl
    rw [seen]
    show ((w.runs.modify n fun _ => (q.take turn).prepare)[n]?).any WorkerRun.seesStop = _
    rw [hself, Option.any_some]
    unfold WorkerRun.prepare
    split <;> rfl
  · obtain ⟨turn, hturn, hprofiledRuns, -⟩ := profiledRuns_answer h
    refine ⟨turn, q.profiled.onto turn.phase, hturn, ?_, rfl⟩
    rw [hprofiledRuns]
    exact List.getElem?_set_self (by rw [profiledRuns, List.length_map]; exact hlt)

/-- A run at its attempts takes a step as soon as its wait is over. -/
theorem stepRun_isSome (hr : w.runs[n]? = some r) (hacq : r.phase.IsAcquiring)
    (hover : ∀ attempt deadline, r.phase = .retrying attempt deadline → deadline ≤ w.broker.now) :
    (w.stepRun n).isSome := by
  unfold stepRun
  rw [hr]
  cases hphase : r.phase with
  | creating attempt =>
    simp only [hphase, createFor]
    split
    · exact onto_answer_isSome (by simp [Phase.step])
    · exact onto_answer_isSome (by rw [hphase]; rfl)
  | retrying attempt deadline =>
    have hpast : (r.seesStop || deadline ≤ w.broker.now) = true := by
      rw [Bool.or_eq_true]
      exact .inr (decide_eq_true (hover attempt deadline hphase))
    simp only [hphase]
    rw [if_pos hpast]
    exact onto_answer_isSome (b := w.broker) (by rw [hphase]; rfl)
  | _ =>
    rw [hphase] at hacq
    exact hacq.elim

/-- A step of a run at its attempts gives it an answer, after its wait unless it sees a request to
stop. -/
theorem goesOn_of_stepRun (hr : w.runs[n]? = some r) (hacq : r.phase.IsAcquiring)
    (h : w.stepRun n = some w') :
    w'.seen n = w.seen n ∧ ∃ now a turn q', r.phase.step r.profile now a = some turn ∧
      w'.profiledRuns[n]? = some q' ∧ q'.state.phase = turn.phase ∧
      ∀ attempt deadline, r.phase = .retrying attempt deadline → w.seen n = true ∨
      deadline ≤ now := by
  obtain ⟨hlt, -⟩ := List.getElem?_eq_some_iff.mp hr
  rw [seen_eq hr]
  unfold stepRun at h
  rw [hr] at h
  cases hphase : r.phase with
  | creating attempt =>
    simp only [hphase, createFor] at h
    split at h
    · obtain ⟨hseen, turn, q', hturn, hq', hnext⟩ := goesOn_of_answer hlt h
      exact ⟨hseen, _, _, turn, q', hturn, hq', hnext, fun _ _ heq => by cases heq⟩
    · obtain ⟨hseen, turn, q', hturn, hq', hnext⟩ := goesOn_of_answer hlt h
      rw [hphase] at hturn
      exact ⟨hseen, _, _, turn, q', hturn, hq', hnext, fun _ _ heq => by cases heq⟩
  | retrying attempt deadline =>
    simp only [hphase] at h
    split at h
    · next hover =>
      obtain ⟨hseen, turn, q', hturn, hq', hnext⟩ := goesOn_of_answer (b := w.broker) hlt h
      rw [hphase] at hturn
      refine ⟨hseen, _, _, turn, q', hturn, hq', hnext, ?_⟩
      rintro attempt' deadline' heq
      cases heq
      simpa using hover
    · cases h
  | _ =>
    rw [hphase] at hacq
    exact hacq.elim

end Worker

namespace Campaign

variable {retries : UInt32} {k M n : Nat} {c c' : Campaign} {e : Worker.Event}

/-- What happens beside a run that is at its attempts leaves it there. -/
theorem profiledRuns_run {events : List Worker.Event} {q : ProfiledRun}
    (hrun : c.run retries events = some c') (hn : c.worker.profiledRuns[n]? = some q)
    (hothers : ∀ e ∈ events, e ≠ .run n) (hacq : q.state.phase.IsAcquiring) :
    c'.worker.profiledRuns[n]? = some q := by
  refine foldlM_induction (motive := fun c => c.worker.profiledRuns[n]? = some q) hrun hn
    fun e he c₁ c₂ hn₁ hstep => ?_
  obtain ⟨-, -, -, hregisterStep⟩ := registerStep_of_step hstep
  exact hregisterStep.keeps hn₁ (hothers e he) hacq

/-- A run at its attempts gets past them, if no request to stop is seen after its steps. -/
theorem inevitably_past (h : c.Sound retries k M)
    (hM : M = min (retries.toNat + 1) (UInt32.size - 1)) (hseen : c.worker.seen n = false) :
    Inevitably (Tries retries n) (fun c' => ¬ c'.worker.IsAtAttempts n) c := by
  refine inevitably_of_measure (fun c => c.Sound retries k M ∧ c.worker.seen n = false)
    (fun c => ((c.worker.profiledRuns[n]?).map fun q => q.state.phase.trials M).getD 0) ?_ ?_ ⟨h,
      hseen⟩
  · rintro x y ⟨hx, -⟩ ⟨⟨r, hr, hacq⟩, hunseen, events, x₁, hothers, hrun, hstep⟩
    have hx₁ := hx.run hM hrun
    have hbefore : x.worker.profiledRuns[n]? = some r.profiled := Worker.getElem?_profiledRuns hr
    have hprofiled := profiledRuns_run hrun hbefore hothers hacq
    obtain ⟨r₁, hr₁, hsame⟩ := Worker.exists_of_profiledRuns hprofiled
    have hphase : r₁.phase = r.phase := congrArg (fun q => q.state.phase) hsame
    have hprofile : r₁.profile = r.profile := congrArg ProfiledRun.profile hsame
    obtain ⟨-, -, happly, -⟩ := registerStep_of_step hstep
    rw [← hphase] at hacq
    obtain ⟨hsignal, now, a, turn, q, hturn, hq, hnext, hover⟩ :=
      Worker.goesOn_of_stepRun hr₁ hacq happly
    obtain ⟨-, failed, hattempted, -⟩ := hx₁.budget.underway n r₁.profiled (hsame ▸ hprofiled) hacq
    have hless := Phase.trials_lt hturn hacq hattempted fun attempt deadline hretrying =>
      (hover attempt deadline hretrying).resolve_left
        (by rw [← hsignal, hunseen]; exact Bool.false_ne_true)
    have hrules : r₁.profile.retries = retries :=
      hx₁.budget.rules r₁.profiled (List.mem_of_getElem? (hsame ▸ hprofiled))
    have hmax : r₁.profile.maxAttempts.toNat = M := by rw [Profile.maxAttempts_toNat, hrules, hM]
    refine ⟨⟨hx₁.step hM hstep, hunseen⟩, ?_⟩
    rw [hq, hbefore, Option.map_some, Option.map_some, Option.getD_some, Option.getD_some, hnext,
      ← hmax]
    rw [hphase] at hless
    exact hless
  · rintro x ⟨-, hunseen⟩ hnot
    obtain ⟨r, hr, hacq⟩ := not_not.mp hnot
    -- The clock is set to the end of its wait, if it waits.
    obtain ⟨now, hover⟩ : ∃ now, ∀ attempt deadline, r.phase = .retrying attempt deadline →
      deadline ≤ now := by
      cases hphase : r.phase with
      | retrying attempt deadline =>
        refine ⟨deadline, fun attempt' deadline' heq => ?_⟩
        cases heq
        exact Nat.le_refl _
      | _ => exact ⟨0, fun _ _ heq => by cases heq⟩
    obtain ⟨w, hw, hruns, hclock⟩ : ∃ w, x.worker.apply (.setClock now) = some w ∧
        w.runs = x.worker.runs ∧ w.broker.now = now := ⟨_, rfl, rfl, Broker.now_setClock _ now⟩
    have hr' : w.runs[n]? = some r := by rw [hruns, hr]
    have hunseen' : w.seen n = false := by rw [Worker.seen, hruns, ← Worker.seen, hunseen]
    obtain ⟨w', hw'⟩ := Option.isSome_iff_exists.mp
      (Worker.stepRun_isSome hr' hacq (by rw [hclock]; exact hover))
    obtain ⟨hsignal, -⟩ := Worker.goesOn_of_stepRun hr' hacq hw'
    have hallows : allows retries w (.run n) = true := by
      rw [allows, hunseen', Bool.and_false, Bool.not_false]
    have hwaits : x.run retries [.setClock now] = some ⟨w, x.asked ++ []⟩ := by
      obtain rfl := Option.some.inj hw
      rfl
    have htries : step retries ⟨w, x.asked ++ []⟩ (.run n) =
        some ⟨w', x.asked ++ [] ++ w.asks (.run n)⟩ := by
      rw [step, if_pos hallows]
      exact congrArg (Option.map _) hw'
    refine ⟨_, ⟨r, hr, hacq⟩, hsignal.trans hunseen', [.setClock now], _, ?_, hwaits, htries⟩
    intro e he
    rw [List.mem_singleton.mp he]
    intro heq
    cases heq

/-! ## The runs of a component -/

/-- A component with so many retries, and so at most `M` attempts to a run, is run again and again
over an in-memory transport whose factory is to fail `k` times. Whatever else happens, the `n`-th
run, counted from 0, fails for want of a consumer if and only if there are enough failures for it
and all before, `M` for each; then it has made `M` attempts. The first other run gets a consumer
after the `k % M` failures that are left, and each later one at its first attempt. The factory
counts all requests, and the consumers that it made; they are all closed when no run is in progress.

A run at its attempts gets past them, whatever happens beside it. And however runs overlap, none of
them fails because its consumer does not start or because a message is not settled. -/
theorem failure_budget {capacity : Nat} {b : Broker} (hopen : Broker.ofCapacity? capacity = some b)
    (k : Nat) (retries : UInt32) {M : Nat} (hM : M = min (retries.toNat + 1) (2 ^ 32 - 1)) :
    (∀ events c, (opening b k).run retries events = some c →
      (∀ n r, c.worker.runs[n]? = some r → ¬ r.phase.IsAcquiring →
        ((∃ m cause, r.phase.result? = some (.error (.acquisition m cause))) ↔ (n + 1) * M ≤ k) ∧
        ((n + 1) * M ≤ k → askedBy c.asked n = List.replicate M unavailable ∧
          ∃ m : UInt32, m.toNat = M ∧
            r.phase.result? = some (.error (.acquisition m Broker.unavailableError))) ∧
        (n * M ≤ k → k < (n + 1) * M →
          ∃ consumer, askedBy c.asked n = List.replicate (k % M) unavailable ++ [.ok consumer]) ∧
        (k < n * M → ∃ consumer, askedBy c.asked n = [.ok consumer])) ∧
      (∀ n, c.worker.seen n = false →
        Inevitably (Tries retries n) (fun c' => ¬ c'.worker.IsAtAttempts n) c) ∧
      c.worker.broker.stats.createAttempts = c.asked.length ∧
      c.worker.broker.stats.createAttempts =
        c.worker.broker.stats.created + min k c.worker.broker.stats.createAttempts ∧
      (c.worker.isIdle → c.worker.broker.stats.closed = c.worker.broker.stats.created)) ∧
    ∀ events w, (opening b k).worker.after events = some w → ∀ r ∈ w.runs, ∀ fault,
      r.phase.result? = some (.error fault) → fault.isRefusal = false := by
  refine ⟨fun events c hrun => ?_, fun events w hrun r hr fault hfault => ?_⟩
  · have hsound := (sound_opening hopen k).run hM hrun
    refine ⟨fun n r hr hpast => ?_, fun n hseen => inevitably_past hsound hM hseen,
      hsound.counted.attempts, hsound.counted.created, fun hidle =>
        hsound.counted.closed_eq fun q hq => ?_⟩
    · have hends := hsound.budget.concluded n r.profiled (Worker.getElem?_profiledRuns hr) hpast
      have hexhausted (hle : (n + 1) * M ≤ k) : askedBy c.asked n = List.replicate M unavailable ∧
          ∃ m : UInt32, m.toNat = M ∧
            r.phase.result? = some (.error (.acquisition m Broker.unavailableError)) := by
        obtain ⟨hmine, m, hm, hphase⟩ := hends.exhausted hle
        refine ⟨hmine, m, hm, ?_⟩
        change r.phase = _ at hphase
        rw [hphase]
        rfl
      refine ⟨⟨?_, fun hle => ?_⟩, hexhausted, hends.first, hends.later⟩
      · rintro ⟨m, cause, hresult⟩
        by_contra hlt
        exact hends.acquired (Nat.lt_of_not_le hlt) m cause (Phase.outcome?_of_result? hresult)
      · obtain ⟨-, m, -, hresult⟩ := hexhausted hle
        exact ⟨m, _, hresult⟩
    · obtain ⟨r, hr, rfl⟩ := List.mem_map.mp hq
      exact List.all_eq_true.mp hidle r hr
  · exact Worker.never_refused hrun hr (Phase.outcome?_of_result? hfault)

/-- Three failures for a component that tries twice: the first run has two of them and fails, the
second one gets a consumer after the third, and the third one gets a consumer at once. -/
theorem failure_budget_of_three :
    let events : List Worker.Event :=
      [.start ⟨"c", "p", .nackExit, 1, .zero⟩ (.accepting "p") (.ofBool false), .run 0, .run 0,
        .run 0, .start ⟨"c", "p", .nackExit, 1, .zero⟩ (.accepting "p") (.ofBool false), .run 1,
        .run 1, .run 1, .run 1, .setSignal 1 true, .run 1, .run 1, .forward 0 false, .run 1,
        .start ⟨"c", "p", .nackExit, 1, .zero⟩ (.accepting "p") (.ofBool false), .run 2, .run 2,
        .setSignal 2 true, .run 2, .run 2, .forward 1 false, .run 2]
    ∃ b, Broker.ofCapacity? 1 = some b ∧ ∃ c, (opening b 3).run 1 events = some c ∧
      c.worker.results =
        [some (.error (.acquisition 2 Broker.unavailableError)), some (.ok ()), some (.ok ())] ∧
      askedBy c.asked 0 = List.replicate 2 unavailable ∧
      (∃ consumer, askedBy c.asked 1 = [unavailable, .ok consumer]) ∧
      (∃ consumer, askedBy c.asked 2 = [.ok consumer]) ∧
      c.worker.broker.stats.createAttempts = c.worker.broker.stats.created + 3 ∧
      c.worker.broker.stats.closed = c.worker.broker.stats.created := by
  intro events
  obtain ⟨hruns, -⟩ := @failure_budget 1 _ rfl 3 1 2 rfl
  obtain ⟨hends, -, -, hcreated, hclosed⟩ := hruns events _ rfl
  obtain ⟨-, hfirst, -, -⟩ := hends 0 _ rfl id
  obtain ⟨-, -, hsecond, -⟩ := hends 1 _ rfl id
  obtain ⟨-, -, -, hthird⟩ := hends 2 _ rfl id
  exact ⟨_, rfl, _, rfl, rfl, (hfirst (by decide)).1, hsecond (by decide) (by decide),
    hthird (by decide), hcreated, hclosed rfl⟩

end Campaign

end Courier
