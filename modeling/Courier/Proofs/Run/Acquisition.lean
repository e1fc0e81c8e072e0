import Courier.Proofs.Run.Outcome
import Courier.Proofs.Run.Transition
import Courier.Rehearsal

/-!
# Acquisition with bounded retry

A run asks for a consumer when it starts, and again one retry wait after each attempt that failed,
until an attempt succeeds, the limit of attempts is reached or it is asked to stop during a wait.
`callTimes` is when it asks, `attempted` when each attempt is over and with what result.

The wait itself is left to a timer. It may let the run look at the signal any number of times, but
it is punctual (`Punctual`): it does not sleep beyond the end of the wait. The clock of a rehearsal
is (`Rehearsal.onTime_play`).

`Acquisition` has one case for each way in which things can stand: an attempt is being made, or a
wait is on, or there is a consumer, or all attempts have failed, or the run was asked to stop.
`acquisition_replay` says that there is no other, and `acquisition_of_punctual` that acquisition
comes to an end whatever the attempts lead to.
-/

namespace Courier

variable {μ : Type}

namespace Exchange

/-- When an attempt to create a consumer was over, and its result. -/
def attempt? (x : Exchange μ) : Option (Nat × Except String Unit) :=
  x.answer.created?.map fun result => (x.stamped.now, result)

/-- Whether a look at the signal during a wait showed the request to stop. -/
def isStop (x : Exchange μ) : Bool :=
  match x.answer with
  | .wait stop => stop
  | _ => false

variable [Identified μ]

/-- When the answer made the run ask for a consumer, if it did. -/
def call? (p : Profile) (x : Exchange μ) : Option Nat :=
  (x.phase.step p x.stamped.now x.answer).bind fun turn =>
    match turn.phase.request p with
    | some .create => some x.stamped.now
    | _ => none

end Exchange

namespace Run

/-- The attempts that are over, in order, each with its time and result. -/
def attempted (xs : List (Exchange μ)) : List (Nat × Except String Unit) :=
  xs.filterMap Exchange.attempt?

/-- When the run has asked for a consumer: at its start, and each time an answer made it. -/
def callTimes [Identified μ] (p : Profile) (start : Nat) (xs : List (Exchange μ)) : List Nat :=
  start :: xs.filterMap (Exchange.call? p)

/-- Whether no look at the signal during a wait showed the request to stop. -/
def Unstopped (xs : List (Exchange μ)) : Prop := ∀ x ∈ xs, x.isStop = false

/-- Whether no wait took longer than it should. -/
def Punctual (xs : List (Exchange μ)) : Prop :=
  ∀ x ∈ xs, ∀ attempt deadline, x.phase = .retrying attempt deadline → x.stamped.now ≤ deadline

variable [Identified μ]

/-- The attempts of a run: each but the last one failed, and was followed by the next one a retry
wait later. There are no more of them than the limit. -/
structure Trail (p : Profile) (start : Nat) (xs : List (Exchange μ)) (failed : List (Nat × String))
    (last : Option (Nat × Except String Unit)) : Prop where
  attempted : attempted xs = failed.map (fun f => (f.1, .error f.2)) ++ last.toList
  callTimes : callTimes p start xs = start :: failed.map fun f => f.1 + p.retryWait.ceilMillis
  limit : failed.length + 1 ≤ min (p.retries.toNat + 1) (2 ^ 32 - 1)

/-- How a run that makes its attempt after those that `failed` stands. -/
inductive Acquisition (p : Profile) (start : Nat) (xs : List (Exchange μ))
    (failed : List (Nat × String)) : Phase μ → Prop
  /-- The attempt is being made. -/
  | calling {n : UInt32} (trail : Trail p start xs failed none) (unstopped : Unstopped xs)
      (number : n.toNat = failed.length + 1) : Acquisition p start xs failed (.creating n)
  /-- The attempt has failed, and another one follows a retry wait later. -/
  | waiting {n : UInt32} {t : Nat} {cause : String}
      (trail : Trail p start xs failed (some (t, .error cause))) (unstopped : Unstopped xs)
      (number : n.toNat = failed.length + 1)
      (more : failed.length + 1 < min (p.retries.toNat + 1) (2 ^ 32 - 1)) :
      Acquisition p start xs failed (.retrying n (t + p.retryWait.ceilMillis))
  /-- The attempt has succeeded, and no other one follows. -/
  | created {phase : Phase μ} {t : Nat} (trail : Trail p start xs failed (some (t, .ok ())))
      (unstopped : Unstopped xs) (acquired : ¬phase.IsAcquiring) :
      Acquisition p start xs failed phase
  /-- The attempt has failed and was the last one that is allowed; this ended the run at once. -/
  | exhausted {before : List (Exchange μ)} {n : UInt32} {t : Nat} {cause : String}
      (trail : Trail p start xs failed (some (t, .error cause))) (unstopped : Unstopped xs)
      (number : n.toNat = failed.length + 1)
      (limit : failed.length + 1 = min (p.retries.toNat + 1) (2 ^ 32 - 1))
      (last : xs = before ++ [⟨.creating n, ⟨t, .create (.error cause)⟩⟩]) :
      Acquisition p start xs failed (.stopped (.error (.acquisition n cause)))
  /-- The attempt has failed, and the first look during a wait that showed the request to stop ended
  the run at once. -/
  | stopped {before : List (Exchange μ)} {n : UInt32} {t now : Nat} {cause : String}
      (trail : Trail p start xs failed (some (t, .error cause))) (unstopped : Unstopped before)
      (more : failed.length + 1 < min (p.retries.toNat + 1) (2 ^ 32 - 1))
      (last : xs = before ++
        [⟨.retrying n (t + p.retryWait.ceilMillis), ⟨now, .wait true⟩⟩])
      (early : now ≤ t + p.retryWait.ceilMillis) :
      Acquisition p start xs failed (.stopped (.ok ()))

/-! ## One answer -/

variable {p : Profile} {start : Nat} {xs : List (Exchange μ)} {x : Exchange μ}

omit [Identified μ] in
theorem attempted_concat : attempted (xs ++ [x]) = attempted xs ++ x.attempt?.toList :=
  filterMap_concat _ xs x

theorem callTimes_concat :
    callTimes p start (xs ++ [x]) = callTimes p start xs ++ (x.call? p).toList := by
  rw [callTimes, filterMap_concat, ← List.cons_append, ← callTimes]

omit [Identified μ] in
theorem Unstopped.concat (h : Unstopped xs) (hx : x.isStop = false) : Unstopped (xs ++ [x]) := by
  intro y hy
  rcases List.mem_append.mp hy with hy | hy
  · exact h y hy
  · rw [List.mem_singleton.mp hy]
    exact hx

/-- An answer makes the run ask for a consumer if it takes it to its next attempt. -/
theorem call?_of_step {turn : Turn μ} (h : x.phase.step p x.stamped.now x.answer = some turn) :
    x.call? p = match turn.phase.request p with
      | some .create => some x.stamped.now
      | _ => none := by
  rw [Exchange.call?, h, Option.bind_some]

/-- A run that has a consumer asks for no other one, and is done with its waits. -/
theorem settled_of_step {turn : Turn μ} (h : x.phase.step p x.stamped.now x.answer = some turn)
    (hover : ¬x.phase.IsAcquiring) :
    ¬turn.phase.IsAcquiring ∧ x.attempt? = none ∧ x.call? p = none ∧ x.isStop = false := by
  have hover' : ¬turn.phase.IsAcquiring := fun hacq => hover (Phase.isAcquiring_of_step h hacq)
  refine ⟨hover', ?_, ?_, ?_⟩
  · cases hanswer : x.answer with
    | create result =>
      rw [hanswer] at h
      obtain ⟨attempt, hphase, -⟩ := Phase.creating_of_create h
      exact absurd (by rw [hphase]; trivial) hover
    | _ => simp [Exchange.attempt?, hanswer, Answer.created?]
  · rw [call?_of_step h]
    cases hphase : turn.phase with
    | creating => exact absurd (by rw [hphase]; trivial) hover'
    | _ => rfl
  · cases hanswer : x.answer with
    | wait stop =>
      rw [hanswer] at h
      cases hphase : x.phase <;> rw [hphase] at h hover <;>
        simp [Phase.step, Phase.IsAcquiring] at h hover
    | _ => simp [Exchange.isStop, hanswer]

namespace Trail

variable {failed : List (Nat × String)} {last : Option (Nat × Except String Unit)}

/-- What does not concern an attempt leaves the attempts as they are. -/
theorem pass (h : Trail p start xs failed last) (hattempt : x.attempt? = none)
    (hcall : x.call? p = none) : Trail p start (xs ++ [x]) failed last where
  attempted := by rw [attempted_concat, hattempt, h.attempted]; simp
  callTimes := by rw [callTimes_concat, hcall, h.callTimes]; simp
  limit := h.limit

/-- An attempt is over. -/
theorem finish (h : Trail p start xs failed none) {t : Nat} {result : Except String Unit}
    (hattempt : x.attempt? = some (t, result)) (hcall : x.call? p = none) :
    Trail p start (xs ++ [x]) failed (some (t, result)) where
  attempted := by rw [attempted_concat, hattempt, h.attempted]; simp
  callTimes := by rw [callTimes_concat, hcall, h.callTimes]; simp
  limit := h.limit

/-- An attempt is made a retry wait after the one before has failed. -/
theorem retry {t : Nat} {cause : String} (h : Trail p start xs failed (some (t, .error cause)))
    (hattempt : x.attempt? = none) (hcall : x.call? p = some (t + p.retryWait.ceilMillis))
    (hmore : failed.length + 1 < min (p.retries.toNat + 1) (2 ^ 32 - 1)) :
    Trail p start (xs ++ [x]) (failed ++ [(t, cause)]) none where
  attempted := by rw [attempted_concat, hattempt, h.attempted]; simp
  callTimes := by rw [callTimes_concat, hcall, h.callTimes]; simp
  limit := by rw [List.length_append, List.length_singleton]; omega

end Trail

/-- Every answer takes acquisition on, if the timer is punctual. -/
theorem Acquisition.step {failed : List (Nat × String)} {turn : Turn μ}
    (h : Acquisition p start xs failed x.phase)
    (hturn : x.phase.step p x.stamped.now x.answer = some turn)
    (hpunctual : ∀ attempt deadline, x.phase = .retrying attempt deadline →
      x.stamped.now ≤ deadline) :
    ∃ failed', Acquisition p start (xs ++ [x]) failed' turn.phase := by
  have hmax : p.maxAttempts.toNat = min (p.retries.toNat + 1) (2 ^ 32 - 1) := p.maxAttempts_toNat
  obtain ⟨phase, now, answer⟩ := x
  have hcall := call?_of_step hturn
  have hstepsTo := Phase.stepsTo_of_step hturn
  change Acquisition p start xs failed phase at h
  change phase.StepsTo p now answer turn at hstepsTo
  cases h with
  | calling trail unstopped number =>
    cases hstepsTo with
    | created =>
      exact ⟨failed, .created (trail.finish rfl hcall) (unstopped.concat rfl) id⟩
    | exhausted hlast =>
      rw [UInt32.le_iff_toNat_le] at hlast
      have hlimit := trail.limit
      exact ⟨failed, .exhausted (trail.finish rfl hcall) (unstopped.concat rfl) number (by omega)
        rfl⟩
    | postponed hmore =>
      rw [UInt32.le_iff_toNat_le] at hmore
      exact ⟨failed, .waiting (trail.finish rfl hcall) (unstopped.concat rfl) number (by omega)⟩
  | @waiting n t cause trail unstopped number more =>
    have hearly := hpunctual _ _ rfl
    cases hstepsTo with
    | gaveUp => exact ⟨failed, .stopped (trail.pass rfl hcall) unstopped more rfl hearly⟩
    | triedAgain hover =>
      obtain rfl : now = t + p.retryWait.ceilMillis := Nat.le_antisymm hearly hover
      refine ⟨failed ++ [(t, cause)],
        .calling (trail.retry rfl hcall more) (unstopped.concat rfl) ?_⟩
      rw [List.length_append, List.length_singleton, p.toNat_add_one (by omega), number]
    | waited hnot =>
      exact ⟨failed, .waiting (trail.pass rfl hcall) (unstopped.concat rfl) number more⟩
  | created trail unstopped acquired =>
    obtain ⟨hover, hattempt, hnone, hstop⟩ := settled_of_step hturn acquired
    exact ⟨failed, .created (trail.pass hattempt hnone) (unstopped.concat hstop) hover⟩
  | exhausted | stopped => cases hstepsTo

/-- However a run has come to where it stands, with a punctual timer, it stands as one of the cases
says. -/
theorem acquisition_replay {history : List (Stamped μ)} {r : Run μ} (h : replay p history = some r)
    (hpunctual : Punctual (exchanges p history)) (start : Nat) :
    ∃ failed, Acquisition p start (exchanges p history) failed r.phase := by
  refine replay_induction (P := fun xs phase => Punctual xs →
    ∃ failed, Acquisition p start xs failed phase) h ?_ ?_ hpunctual
  · intro _
    exact ⟨[], .calling ⟨rfl, rfl, by simp⟩ (fun x hx => absurd hx List.not_mem_nil) rfl⟩
  · intro xs phase a turn hprevious hturn hpunctual
    obtain ⟨failed, hacq⟩ := hprevious fun x hx => hpunctual x (List.mem_append_left _ hx)
    exact hacq.step (x := ⟨phase, a⟩) hturn
      (hpunctual _ (List.mem_append_right _ (List.mem_singleton_self _)))

/-! ## The end of acquisition -/

/-- Whether acquisition can come to an end from here with a punctual timer, if no request to stop is
seen and the results of the next attempts are those of `created`. -/
def CanEnd (p : Profile) (history : List (Stamped μ)) (created : Nat → Except String Unit) : Prop :=
  ∃ more r, replay p (history ++ more) = some r ∧ Punctual (exchanges p (history ++ more)) ∧
    ¬r.phase.IsAcquiring ∧ ∀ i result, (creations more)[i]? = some result → result = created i

variable {history : List (Stamped μ)} {r : Run μ} {created : Nat → Except String Unit}

theorem Punctual.concat (h : replay p history = some r) (hpunctual : Punctual (exchanges p history))
    {a : Stamped μ}
    (ha : ∀ attempt deadline, r.phase = .retrying attempt deadline → a.now ≤ deadline) :
    Punctual (exchanges p (history ++ [a])) := by
  rw [exchanges_concat h]
  intro x hx
  rcases List.mem_append.mp hx with hx | hx
  · exact hpunctual x hx
  · rw [List.mem_singleton.mp hx]
    exact ha

/-- Acquisition can come to an end if it can after the wait. -/
theorem CanEnd.of_wait (now : Nat) (h : CanEnd p (history ++ [⟨now, .wait false⟩]) created) :
    CanEnd p history created := by
  obtain ⟨more, r, hreplay, hpunctual, hover, hresults⟩ := h
  rw [List.append_assoc] at hreplay hpunctual
  exact ⟨_, r, hreplay, hpunctual, hover, hresults⟩

/-- Acquisition can come to an end if it can after the next attempt. -/
theorem CanEnd.of_create (now : Nat)
    (h : CanEnd p (history ++ [⟨now, .create (created 0)⟩]) fun i => created (i + 1)) :
    CanEnd p history created := by
  obtain ⟨more, r, hreplay, hpunctual, hover, hresults⟩ := h
  rw [List.append_assoc] at hreplay hpunctual
  refine ⟨_, r, hreplay, hpunctual, hover, fun i result hresult => ?_⟩
  cases i with
  | zero => exact (Option.some.inj hresult).symm
  | succ i => exact hresults i result hresult

theorem canEnd_of_over (h : replay p history = some r) (hpunctual : Punctual (exchanges p history))
    (hover : ¬r.phase.IsAcquiring) : CanEnd p history created :=
  ⟨[], r, by rwa [List.append_nil], by rwa [List.append_nil], hover, fun i result hresult => by
    simp [creations] at hresult⟩

/-- What an answer to an attempt leads to. -/
theorem replay_create {n : UInt32} (h : replay p history = some r) (hphase : r.phase = .creating n)
    (now : Nat) (result : Except String Unit) :
    replay p (history ++ [⟨now, .create result⟩]) =
      some (r.take (Phase.afterCreate p now n result)) := by
  rw [replay_concat, h, Option.bind_some, Run.step, hphase]
  rfl

/-- What an answer to a wait leads to. -/
theorem replay_wait {n : UInt32} {deadline : Nat} (h : replay p history = some r)
    (hphase : r.phase = .retrying n deadline) (now : Nat) (stop : Bool) :
    replay p (history ++ [⟨now, .wait stop⟩]) =
      some (r.take (Phase.afterWait now n deadline stop)) := by
  rw [replay_concat, h, Option.bind_some, Run.step, hphase]
  rfl

/-- Acquisition comes to an end with an attempt that succeeds, and with the last one. -/
theorem canEnd_of_last {n : UInt32} (h : replay p history = some r)
    (hpunctual : Punctual (exchanges p history)) (hphase : r.phase = .creating n)
    (hlast : created 0 = .ok () ∨ p.maxAttempts ≤ n) : CanEnd p history created := by
  refine .of_create 0 (canEnd_of_over (replay_create h hphase 0 (created 0))
    (hpunctual.concat h (by simp [hphase])) ?_)
  cases hresult : created 0 with
  | ok => exact id
  | error cause =>
    have hlimit : p.maxAttempts ≤ n := hlast.resolve_left (by simp [hresult])
    simp [take, Phase.afterCreate, hlimit, Phase.IsAcquiring]

/-- An attempt that fails and is not the last one is followed by another one. -/
theorem canEnd_of_failed {n : UInt32} {cause : String} (h : replay p history = some r)
    (hpunctual : Punctual (exchanges p history)) (hphase : r.phase = .creating n)
    (hresult : created 0 = .error cause) (hmore : ¬p.maxAttempts ≤ n)
    (hnext : ∀ more s, replay p (history ++ more) = some s →
      Punctual (exchanges p (history ++ more)) → s.phase = .creating (n + 1) →
      CanEnd p (history ++ more) fun i => created (i + 1)) : CanEnd p history created := by
  have hreplay := replay_create h hphase 0 (created 0)
  have hpunctual' := hpunctual.concat h (a := ⟨0, .create (created 0)⟩) (by simp [hphase])
  have hwaits : (r.take (Phase.afterCreate p 0 n (created 0))).phase =
      .retrying n p.retryWait.ceilMillis := by
    simp [hresult, take, Phase.afterCreate, hmore]
  have htried := replay_wait hreplay hwaits p.retryWait.ceilMillis false
  have hpunctual'' := hpunctual'.concat hreplay (a := ⟨p.retryWait.ceilMillis, .wait false⟩) (by
    intro attempt deadline hretrying
    obtain ⟨rfl, rfl⟩ := Phase.retrying.inj (hwaits.symm.trans hretrying)
    exact Nat.le_refl _)
  refine .of_create 0 (.of_wait p.retryWait.ceilMillis ?_)
  rw [List.append_assoc] at htried hpunctual'' ⊢
  exact hnext _ _ htried hpunctual'' (by simp [take, Phase.afterWait])

/-- Acquisition can come to an end from every attempt on: each one that fails leaves one less. -/
theorem canEnd_of_creating {n : UInt32} {left : Nat} (h : replay p history = some r)
    (hpunctual : Punctual (exchanges p history)) (hphase : r.phase = .creating n)
    (hleft : p.maxAttempts.toNat ≤ n.toNat + left) : CanEnd p history created := by
  induction left generalizing history r n created with
  | zero => exact canEnd_of_last h hpunctual hphase (.inr (UInt32.le_iff_toNat_le.mpr hleft))
  | succ left ih =>
    by_cases hlast : p.maxAttempts ≤ n
    · exact canEnd_of_last h hpunctual hphase (.inr hlast)
    · cases hresult : created 0 with
      | ok => exact canEnd_of_last h hpunctual hphase (.inl hresult)
      | error cause =>
        refine canEnd_of_failed h hpunctual hphase hresult hlast fun more s hs hpunctual' hs' =>
          ih hs hpunctual' hs' ?_
        rw [UInt32.le_iff_toNat_le] at hlast
        rw [p.toNat_add_one (by omega)]
        omega

/-- Acquisition can come to an end from wherever it stands. -/
theorem canEnd_of_isAcquiring (h : replay p history = some r)
    (hpunctual : Punctual (exchanges p history)) (hacq : r.phase.IsAcquiring)
    (created : Nat → Except String Unit) : CanEnd p history created := by
  cases hphase : r.phase with
  | creating n => exact canEnd_of_creating h hpunctual hphase (Nat.le_add_left ..)
  | retrying n deadline =>
    refine .of_wait deadline (canEnd_of_creating (n := n + 1)
      (replay_wait h hphase deadline false) (hpunctual.concat h ?_) ?_ (Nat.le_add_left ..))
    · intro attempt deadline' hretrying
      obtain ⟨rfl, rfl⟩ := Phase.retrying.inj (hphase.symm.trans hretrying)
      exact Nat.le_refl _
    · simp [take, Phase.afterWait]
  | _ =>
    rw [hphase] at hacq
    exact hacq.elim

/-! ## The result -/

/-- Acquisition with a punctual timer stands as one of the cases of `Acquisition` says, at every
moment of every run; and as long as it is not over, it can come to an end whatever the next attempts
lead to. -/
theorem acquisition_of_punctual (h : replay p history = some r)
    (hpunctual : Punctual (exchanges p history)) (start : Nat) :
    (∃ failed, Acquisition p start (exchanges p history) failed r.phase) ∧
      (r.phase.IsAcquiring → ∀ created, CanEnd p history created) :=
  ⟨acquisition_replay h hpunctual start, canEnd_of_isAcquiring h hpunctual⟩

/-- A wait of a millisecond and a half, which takes two: it is looked at in between, the second
attempt starts in time and fails too, and the run is asked to stop before the third. -/
theorem acquisition_stopped_in_wait :
    ∃ r : Run Delivery, ∃ failed,
      replay ⟨"c", "script", .nack, 2, ⟨1500000⟩⟩
        [⟨3, .create (.error "DOWN")⟩, ⟨4, .wait false⟩, ⟨5, .wait false⟩,
          ⟨6, .create (.error "DOWN")⟩, ⟨7, .wait true⟩] = some r ∧
      Acquisition ⟨"c", "script", .nack, 2, ⟨1500000⟩⟩ 0
        (exchanges ⟨"c", "script", .nack, 2, ⟨1500000⟩⟩
          [⟨3, .create (.error "DOWN")⟩, ⟨4, .wait false⟩, ⟨5, .wait false⟩,
            ⟨6, .create (.error "DOWN")⟩, ⟨7, .wait true⟩]) failed r.phase ∧
      r.phase.result? = some (.ok ()) := by
  obtain ⟨r, hr, hresult⟩ : ∃ r : Run Delivery,
      replay ⟨"c", "script", .nack, 2, ⟨1500000⟩⟩
        [⟨3, .create (.error "DOWN")⟩, ⟨4, .wait false⟩, ⟨5, .wait false⟩,
          ⟨6, .create (.error "DOWN")⟩, ⟨7, .wait true⟩] = some r ∧
      r.phase.result? = some (.ok ()) := ⟨_, rfl, rfl⟩
  have hexchanges : exchanges ⟨"c", "script", .nack, 2, ⟨1500000⟩⟩
      [⟨3, .create (.error "DOWN")⟩, ⟨4, .wait false⟩, ⟨5, .wait false⟩,
        ⟨6, .create (.error "DOWN")⟩, ⟨7, .wait true⟩] =
      ([⟨.creating 1, ⟨3, .create (.error "DOWN")⟩⟩, ⟨.retrying 1 5, ⟨4, .wait false⟩⟩,
        ⟨.retrying 1 5, ⟨5, .wait false⟩⟩, ⟨.creating 2, ⟨6, .create (.error "DOWN")⟩⟩,
        ⟨.retrying 2 8, ⟨7, .wait true⟩⟩] : List (Exchange Delivery)) := rfl
  have hpunctual : Punctual (exchanges ⟨"c", "script", .nack, 2, ⟨1500000⟩⟩
      ([⟨3, .create (.error "DOWN")⟩, ⟨4, .wait false⟩, ⟨5, .wait false⟩,
        ⟨6, .create (.error "DOWN")⟩, ⟨7, .wait true⟩] : List (Stamped Delivery))) := by
    rw [hexchanges]
    simp only [Punctual, List.mem_cons, List.not_mem_nil, or_false]
    rintro x (rfl | rfl | rfl | rfl | rfl) attempt deadline hphase <;> cases hphase <;> decide
  obtain ⟨⟨failed, hacq⟩, -⟩ := acquisition_of_punctual hr hpunctual 0
  exact ⟨r, failed, hr, hacq, hresult⟩

end Run

/-! ## The clock of a rehearsal -/

/-- A wait that an answer begins or goes on with is not over yet, if it was not over before. -/
theorem Phase.le_deadline_of_step [Identified μ] {p : Profile} {now d : Nat} {phase : Phase μ}
    {a : Answer μ} {turn : Turn μ} {attempt : UInt32}
    (h : phase.step p now a = some turn)
    (hbefore : ∀ attempt deadline, phase = .retrying attempt deadline → now ≤ deadline)
    (hafter : turn.phase = .retrying attempt d) : now ≤ d := by
  have hstepsTo := stepsTo_of_step h
  cases hstepsTo <;> cases hafter
  · exact Nat.le_add_right ..
  · exact hbefore _ _ rfl

namespace Rehearsal

/-- Whether the wait in progress, if there is one, is not over its time. -/
def OnTime (r : Rehearsal) : Prop :=
  ∀ attempt deadline, r.phase = .retrying attempt deadline → r.now ≤ deadline

variable {r r' : Rehearsal}

theorem OnTime.of_eq (h : r.OnTime) (hphase : r'.phase = r.phase) (hnow : r'.now = r.now) :
    r'.OnTime := by
  intro attempt deadline hretrying
  rw [hnow]
  exact h attempt deadline (hphase ▸ hretrying)

theorem OnTime.perform (h : r.OnTime) (deed : Deed) : (r.perform deed).OnTime := by
  cases deed with
  | setSignal stop =>
    refine h.of_eq ?_ ?_ <;> simp only [Rehearsal.perform] <;> split <;> rfl
  | _ => exact h.of_eq rfl rfl

theorem OnTime.answer {s : Rehearsal} (h : r.OnTime) {a : Answer Message}
    (ha : s.answer a = some r') (hphase : s.phase = r.phase) (hnow : s.now = r.now) :
    r'.OnTime := by
  have hs : s.OnTime := h.of_eq hphase hnow
  obtain ⟨turn, hturn, rfl⟩ := Option.map_eq_some_iff.mp ha
  have htaken : (s.take turn).OnTime := fun attempt deadline hretrying =>
    Phase.le_deadline_of_step hturn hs hretrying
  refine htaken.of_eq ?_ ?_ <;> simp only [enterPhase] <;> split <;> rfl

theorem OnTime.work (h : r.OnTime) {finish : Rehearsal → Option Rehearsal}
    (hfinish : finish r = some r' → r'.OnTime) (hwork : r.work finish = some r') : r'.OnTime := by
  unfold Rehearsal.work at hwork
  split at hwork
  · exact hfinish hwork
  · cases hwork
  · obtain rfl := Option.some.inj hwork
    exact h.of_eq rfl rfl
  · next rest deed _ =>
    obtain rfl := Option.some.inj hwork
    have hrest : { r with errand := rest }.OnTime := h.of_eq rfl rfl
    exact hrest.perform deed

/-- Whatever a run in a rehearsal does, it does without letting the end of a wait pass. -/
theorem OnTime.step (h : r.OnTime) (hstep : r.step = some r') : r'.OnTime := by
  unfold Rehearsal.step at hstep
  split at hstep
  · exact h.work (fun hfinish => h.answer hfinish rfl rfl) hstep
  · dsimp only at hstep
    split at hstep
    · exact h.answer hstep rfl rfl
    · cases hstep
  · refine h.work (fun hfinish => ?_) hstep
    split at hfinish
    · exact h.answer hfinish rfl rfl
    · have hphase : r.openFeeds.phase = r.phase := by simp only [openFeeds, r.makeMessages_fst]
      have hnow : r.openFeeds.now = r.now := by simp only [openFeeds, r.makeMessages_fst]
      exact h.answer hfinish hphase hnow
  · split at hstep
    · cases hstep
    · next choice _ => refine h.answer hstep ?_ ?_ <;> cases choice <;> rfl
  · exact h.work (fun hfinish => h.answer hfinish rfl rfl) hstep
  · exact h.answer hstep rfl rfl
  · exact h.answer hstep rfl rfl
  · exact h.answer hstep rfl rfl
  · cases hstep

theorem OnTime.playDue (h : r.OnTime) (earliest : Nat) (timeline : List (Nat × Cue)) :
    (playDue earliest r timeline).OnTime := by
  induction timeline generalizing r earliest with
  | nil => exact h.of_eq rfl rfl
  | cons item rest ih =>
    unfold Rehearsal.playDue
    split
    · split
      · exact ih h _
      · exact ih (h.perform _) _
      · exact ih h _
    · exact h.of_eq rfl rfl

/-- The clock does not go past the end of a wait. -/
theorem OnTime.idle (h : r.OnTime) {limit : Nat} (hidle : r.idle limit = some r') : r'.OnTime := by
  unfold Rehearsal.idle at hidle
  split at hidle
  · obtain rfl := Option.some.inj hidle
    exact h.playDue 0 r.timeline
  · split at hidle
    · cases hidle
    · obtain rfl := Option.some.inj hidle
      intro attempt deadline hretrying
      have hwake : r.wakeAt? = some deadline := by
        have hphase : r.phase = .retrying attempt deadline := hretrying
        rw [wakeAt?, hphase]
      change earlier r.wakeAt? _ ≤ deadline
      rw [hwake]
      exact Nat.min_le_left ..

/-- No run in a rehearsal lets the end of a wait pass. -/
theorem onTime_play (h : r.OnTime) (limit fuel : Nat) : (r.play limit fuel).OnTime := by
  induction fuel generalizing r with
  | zero => exact h
  | succ fuel ih =>
    unfold play
    split
    · exact h
    · split
      · next hstep => exact ih (h.step hstep)
      · split
        · next hidle => exact ih (h.idle hidle)
        · exact h

end Rehearsal

end Courier
