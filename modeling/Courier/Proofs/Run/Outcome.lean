import Courier.Proofs.Run.Lifecycle
import Courier.Proofs.Run.Surroundings
import Mathlib.Tactic.IntervalCases

/-!
# Why a run ends as it does

Every run that ends has had an answer that decided how (`Phase.Decides`): nothing can change the
result from there on (`result?_iff_decides`), and nothing is processed or settled any more
(`idle_after`).

`Grounds` says for each result what has to have happened in a history for it, in terms of the
surroundings of the run. For a run that has ended this is also sufficient, so the grounds of any two
results exclude each other (`result_iff`).
-/

namespace Courier

variable {μ : Type}

/-! ## The answer that decides -/

/-- Whether an answer decides how a run in a phase will end. -/
inductive Phase.Decides (p : Profile) : Phase μ → Answer μ → RunResult → Prop
  /-- It stops waiting to try again. -/
  | stopWaiting {attempt : UInt32} {deadline : Nat} :
    Decides p (.retrying attempt deadline) (.wait true) (.ok ())
  /-- It stops looking around. -/
  | stopPolling {errorsOpen : Bool} {view : View μ} (hview : view.stop = true) :
    Decides p (.polling errorsOpen) (.poll view) (.ok ())
  /-- Its last attempt has failed. -/
  | exhausted {attempt : UInt32} {cause : String} (hlast : p.maxAttempts ≤ attempt) :
    Decides p (.creating attempt) (.create (.error cause)) (.error (.acquisition attempt cause))
  /-- Its consumer refuses to start. -/
  | refused {cause : String} :
    Decides p .consuming (.consume (.error cause)) (.error (.consume cause))
  /-- There is an error. -/
  | alerted {errorsOpen : Bool} {view : View μ} {cause : String}
      (hpick : view.pick errorsOpen = some (.error cause)) :
    Decides p (.polling errorsOpen) (.poll view) (.error (.transport cause))
  /-- There are no messages any more. -/
  | ranOut {errorsOpen : Bool} {view : View μ}
    (hpick : view.pick errorsOpen = some .messagesEnded) :
    Decides p (.polling errorsOpen) (.poll view) (.error .streamClosed)
  /-- A message could not be accepted. -/
  | unaccepted {errorsOpen : Bool} {m : μ} {cause : String} :
    Decides p (.settling errorsOpen m none) (.settle (.error cause))
      (.error (.acknowledge .ack cause))
  /-- A message could not be settled after its processing had failed. -/
  | unsettled {errorsOpen : Bool} {m : μ} {failure cause : String}
      (hflow : p.strategy.flow = .continue) :
    Decides p (.settling errorsOpen m (some failure)) (.settle (.error cause))
      (.error (.acknowledge p.strategy.disposition cause))
  /-- The processing of a message has failed, and that is the end. -/
  | brokeOff {errorsOpen : Bool} {m : μ} {failure : String} {result : Except String Unit}
      (hflow : p.strategy.flow = .exit) :
    Decides p (.settling errorsOpen m (some failure)) (.settle result)
      (.error (.processing failure))

namespace Phase

variable [Identified μ] {p : Profile} {phase : Phase μ} {a : Answer μ} {result : RunResult}
  {turn : Turn μ} {now : Nat}

/-- An answer that decides leads to the result. -/
theorem Decides.outcome?_of_step (h : phase.Decides p a result)
    (hturn : phase.step p now a = some turn) : turn.phase.outcome? = some result := by
  cases h with
  | stopWaiting =>
    obtain rfl := Option.some.inj hturn
    rfl
  | stopPolling hview =>
    obtain rfl := Option.some.inj hturn
    rw [View.pick_eq_stop.mpr hview]
    rfl
  | exhausted hlast =>
    obtain rfl := Option.some.inj hturn
    rw [afterCreate, if_pos hlast]
    rfl
  | refused | unaccepted =>
    obtain rfl := Option.some.inj hturn
    rfl
  | alerted hpick | ranOut hpick =>
    obtain rfl := Option.some.inj hturn
    rw [hpick]
    rfl
  | unsettled hflow =>
    obtain rfl := Option.some.inj hturn
    simp only [afterFailing, hflow]
    rfl
  | @brokeOff _ _ _ result hflow =>
    obtain rfl := Option.some.inj hturn
    cases result <;> (simp only [afterFailing, hflow]; rfl)

/-- Only an answer that decides leads to a result. -/
theorem decides_of_outcome? (hturn : phase.step p now a = some turn) (hnone : phase.outcome? = none)
    (hsome : turn.phase.outcome? = some result) : phase.Decides p a result := by
  unfold step at hturn
  split at hturn <;> cases hturn
  case h_1 attempt created =>
    cases created with
    | ok => cases hsome
    | error cause =>
      simp only [afterCreate] at hsome
      split at hsome
      · next hlast =>
        obtain rfl := Option.some.inj hsome
        exact .exhausted hlast
      · cases hsome
  case h_2 attempt deadline stop =>
    cases stop with
    | true =>
      obtain rfl := Option.some.inj hsome
      exact .stopWaiting
    | false =>
      simp only [afterWait, Bool.false_eq_true, if_false] at hsome
      split at hsome <;> cases hsome
  case h_3 => cases hsome
  case h_4 cause =>
    obtain rfl := Option.some.inj hsome
    exact .refused
  case h_5 errorsOpen view =>
    rcases hpick : view.pick errorsOpen with _ | choice <;> rw [hpick] at hsome
    · cases hsome
    · cases choice with
      | stop =>
        obtain rfl := Option.some.inj hsome
        exact .stopPolling (View.pick_eq_stop.mp hpick)
      | error cause =>
        obtain rfl := Option.some.inj hsome
        exact .alerted hpick
      | messagesEnded =>
        obtain rfl := Option.some.inj hsome
        exact .ranOut hpick
      | errorsEnded | message => cases hsome
  case h_6 processed => cases processed <;> cases hsome
  case h_7 settled =>
    cases settled with
    | ok => cases hsome
    | error cause =>
      obtain rfl := Option.some.inj hsome
      exact .unaccepted
  case h_8 failure settled =>
    cases hflow : p.strategy.flow with
    | «continue» =>
      cases settled with
      | ok =>
        simp only [afterFailing, hflow] at hsome
        cases hsome
      | error cause =>
        simp only [afterFailing, hflow] at hsome
        obtain rfl := Option.some.inj hsome
        exact .unsettled hflow
    | exit =>
      cases settled <;>
      · simp only [afterFailing, hflow] at hsome
        obtain rfl := Option.some.inj hsome
        exact .brokeOff hflow
  case h_9 | h_10 => cases hnone

end Phase

/-! ## What is over with the decision -/

/-- Whether a run was about to end, or had ended, all along. -/
def Run.Idle (xs : List (Exchange μ)) : Prop := ∀ x ∈ xs, x.phase.outcome?.isSome

/-- The processor of a run that is about to end is done. -/
theorem Exchange.processed?_eq_none {x : Exchange μ} (h : x.phase.outcome?.isSome) :
    x.processed? = none := by
  obtain ⟨phase, now, a⟩ := x
  cases phase with
  | releasing | closing | stopped => rfl
  | _ => exact absurd h Bool.false_ne_true

namespace Run.Idle

variable {xs : List (Exchange μ)}

theorem processed (h : Idle xs) : Run.processed xs = [] :=
  List.filterMap_eq_nil_iff.mpr fun x hx => Exchange.processed?_eq_none (h x hx)

end Run.Idle

namespace Run

variable [Identified μ] {p : Profile} {history : List (Stamped μ)} {r : Run μ} {result : RunResult}

/-- An answer that decides settles the outcome for good. -/
theorem outcome?_of_decides (h : replay p history = some r) {x : Exchange μ}
    (hx : x ∈ exchanges p history) (hdecides : x.phase.Decides p x.answer result) :
    r.phase.outcome? = some result := by
  refine replay_induction (P := fun xs phase => ∀ x ∈ xs, x.phase.Decides p x.answer result →
    phase.outcome? = some result) h (fun _ hx => absurd hx List.not_mem_nil) ?_ x hx hdecides
  intro xs phase a turn hprevious hturn x hx hdecides
  rcases List.mem_append.mp hx with hx | hx
  · exact Phase.outcome?_of_step hturn (hprevious x hx hdecides)
  · obtain rfl := List.mem_singleton.mp hx
    exact hdecides.outcome?_of_step hturn

/-- A run that has an outcome has had an answer that decided it. -/
theorem exists_decides (h : replay p history = some r) (houtcome : r.phase.outcome? = some result) :
    ∃ x ∈ exchanges p history, x.phase.Decides p x.answer result := by
  refine replay_induction (P := fun xs phase => phase.outcome? = some result →
    ∃ x ∈ xs, x.phase.Decides p x.answer result) h (fun hnone => nomatch hnone) ?_ houtcome
  intro xs phase a turn hprevious hturn hsome
  rcases hphase : phase.outcome? with _ | result'
  · exact ⟨⟨phase, a⟩, by simp, Phase.decides_of_outcome? hturn hphase hsome⟩
  · obtain rfl : result' = result :=
      Option.some.inj ((Phase.outcome?_of_step hturn hphase).symm.trans hsome)
    obtain ⟨x, hx, hdecides⟩ := hprevious hphase
    exact ⟨x, List.mem_append_left _ hx, hdecides⟩

/-- A run that has ended has the result that was decided. -/
theorem result?_iff_decides (h : replay p history = some r) (hended : r.phase.result?.isSome) :
    r.phase.result? = some result ↔
      ∃ x ∈ exchanges p history, x.phase.Decides p x.answer result := by
  obtain ⟨final, hfinal⟩ := Option.isSome_iff_exists.mp hended
  have houtcome : r.phase.outcome? = some final := by
    cases hphase : r.phase with
    | stopped =>
      rw [hphase] at hfinal
      exact hfinal
    | _ =>
      rw [hphase] at hfinal
      cases hfinal
  constructor
  · intro hresult
    obtain rfl := Option.some.inj (hfinal.symm.trans hresult)
    exact exists_decides h houtcome
  · rintro ⟨x, hx, hdecides⟩
    obtain rfl := Option.some.inj (houtcome.symm.trans (outcome?_of_decides h hx hdecides))
    exact hfinal

end Run

/-! ## What has to have happened -/

/-- The results of the attempts to create a consumer, in order. -/
def creations (history : List (Stamped μ)) : List (Except String Unit) :=
  history.filterMap fun a => a.answer.created?

theorem creations_eq_attempts (n : Nat) (history : List (Stamped μ)) :
    creations history = attempts (number n (history.map Stamped.answer)) := by
  induction history generalizing n with
  | nil => rfl
  | cons a history ih =>
    rw [List.map_cons, number, attempts, List.filterMap_cons, creations, List.filterMap_cons,
      ← creations, ← attempts, ← ih]

theorem length_creations (history : List (Stamped μ)) :
    (creations history).length = attemptsIn history := by
  rw [creations, List.length_filterMap_eq_countP, attemptsIn]
  congr 1
  funext a
  cases a.answer <;> rfl

namespace Run

/-- Whether the signal asked to stop when the run looked at it. -/
def SawStop (s : Surroundings μ) (xs : List (Exchange μ)) : Prop :=
  ∃ before x after, xs = before ++ x :: after ∧ x.answer.sample?.isSome ∧
    (s.signal before.length).isStop

/-- Whether every attempt that may be made was made and failed, `n` in all and the last one with
`cause`. -/
def UsedUp (p : Profile) (history : List (Stamped μ)) (n : UInt32) (cause : String) : Prop :=
  n.toNat = min (p.retries.toNat + 1) (UInt32.size - 1) ∧
    ∃ causes : List String, creations history = causes.map .error ∧ causes.length = n.toNat ∧
      causes.getLast? = some cause

/-- Whether the consumer refused to start. -/
def WasRefused (xs : List (Exchange μ)) (cause : String) : Prop :=
  ∃ x ∈ xs, x.answer = .consume (.error cause)

/-- Whether the first error of the stream was there when the run looked around, and no request to
stop. -/
def MetError (s : Surroundings μ) (xs : List (Exchange μ)) (cause : String) : Prop :=
  s.errors.head? = some cause ∧ ∃ before x after view, xs = before ++ x :: after ∧
    x.answer = .poll view ∧ view.errors = .item cause ∧ (s.signal before.length).isStop = false

/-- Whether the messages were at an end when the run looked around for the last time, and there was
neither a request to stop nor an error, and every message of the stream had been processed and
settled. -/
def RanOut (p : Profile) (s : Surroundings μ) (xs : List (Exchange μ)) : Prop :=
  ∃ before x after view, xs = before ++ x :: after ∧ x.answer = .poll view ∧
    (∀ y ∈ after, ∀ view, y.answer ≠ .poll view) ∧ view.messages = .ended ∧
    (∀ cause, view.errors ≠ .item cause) ∧ (s.signal before.length).isStop = false ∧
    (processed before).map Prod.fst = s.messages ∧
    settled p before = (processed before).map (settlement p)

/-- Whether the processor failed on the last message that it got, under a strategy that ends the run
then. -/
def BrokeOff (p : Profile) (xs : List (Exchange μ)) (cause : String) : Prop :=
  p.strategy = .nackExit ∧ ∃ m, (processed xs).getLast? = some (m, .error cause)

/-- Whether the settlement of the last message that was processed failed, other than after a failure
that ends the run by itself. -/
def FailedToSettle (p : Profile) (xs : List (Exchange μ)) (disposition : Disposition)
    (cause : String) :
    Prop :=
  ∃ done m result, processed xs = done ++ [(m, result)] ∧
    (settled p xs)[done.length]? = some (m, disposition, .error cause) ∧
    disposition = p.dispositionAfter (failure? result) ∧
    ¬ (p.strategy = .nackExit ∧ ∃ failure, result = .error failure)

variable [Identified μ]

/-- What has to have happened in a history for a run to end with a result. -/
def Grounds (p : Profile) (s : Surroundings μ) (history : List (Stamped μ)) : RunResult → Prop
  | .ok () => SawStop s (exchanges p history)
  | .error (.acquisition n cause) => UsedUp p history n cause
  | .error (.consume cause) => WasRefused (exchanges p history) cause
  | .error (.transport cause) => MetError s (exchanges p history) cause
  | .error .streamClosed => RanOut p s (exchanges p history)
  | .error (.processing cause) => BrokeOff p (exchanges p history) cause
  | .error (.acknowledge disposition cause) =>
    FailedToSettle p (exchanges p history) disposition cause

end Run

/-! ## Grounds and decisions -/

namespace Phase

variable {p : Profile} {phase : Phase μ} {a : Answer μ} {turn : Turn μ} {now : Nat}

theorem Decides.sample? (h : phase.Decides p a (.ok ())) : a.sample? = some true := by
  cases h with
  | stopWaiting => rfl
  | stopPolling hview => exact congrArg some hview

variable [Identified μ]

theorem decides_of_sample? (hturn : phase.step p now a = some turn)
    (hstop : a.sample? = some true) :
    phase.Decides p a (.ok ()) := by
  unfold step at hturn
  split at hturn <;> cases hturn
  case h_2 =>
    obtain rfl := Option.some.inj hstop
    exact .stopWaiting
  case h_5 => exact .stopPolling (Option.some.inj hstop)
  all_goals cases hstop

/-- Only a run that looks around can have an answer to it. -/
theorem polling_of_poll {view : View μ} (hturn : phase.step p now (.poll view) = some turn) :
    ∃ errorsOpen, phase = .polling errorsOpen ∧
      turn = afterPoll now errorsOpen (view.pick errorsOpen) := by
  cases phase with
  | polling errorsOpen => exact ⟨errorsOpen, rfl, (Option.some.inj hturn).symm⟩
  | settling errorsOpen m failure => cases failure <;> cases hturn
  | _ => cases hturn

/-- Only a consumer that is to start can refuse. -/
theorem consuming_of_consume {result : Except String Unit}
    (hturn : phase.step p now (.consume result) = some turn) : phase = .consuming := by
  cases phase with
  | consuming => rfl
  | settling errorsOpen m failure => cases failure <;> cases hturn
  | _ => cases hturn

end Phase

namespace Run

variable [Identified μ] {p : Profile} {history : List (Stamped μ)} {r : Run μ} {s : Surroundings μ}

theorem exists_step_of_mem (h : replay p history = some r) {x : Exchange μ}
    (hx : x ∈ exchanges p history) :
    ∃ turn, x.phase.step p x.stamped.now x.answer = some turn := by
  obtain ⟨before, after, hcut⟩ := List.append_of_mem hx
  obtain ⟨-, -, -, turn, -, -, -, -, hturn, -⟩ := exchanges_eq_append_cons h hcut
  exact ⟨turn, hturn⟩

theorem sawStop_iff (h : replay p history = some r) (hs : s.Informs (exchanges p history)) :
    SawStop s (exchanges p history) ↔
      ∃ x ∈ exchanges p history, x.phase.Decides p x.answer (.ok ()) := by
  constructor
  · rintro ⟨before, x, after, hcut, hsample, hstop⟩
    obtain ⟨stop, hsample⟩ := Option.isSome_iff_exists.mp hsample
    obtain rfl : stop = true := ((hs before x after hcut).sample hsample).symm.trans hstop
    have hx : x ∈ exchanges p history := hcut ▸ List.mem_append_right _ (List.mem_cons_self ..)
    obtain ⟨turn, hturn⟩ := exists_step_of_mem h hx
    exact ⟨x, hx, Phase.decides_of_sample? hturn hsample⟩
  · rintro ⟨x, hx, hdecides⟩
    obtain ⟨before, after, hcut⟩ := List.append_of_mem hx
    refine ⟨before, x, after, hcut, ?_, (hs before x after hcut).sample hdecides.sample?⟩
    rw [hdecides.sample?]
    rfl

theorem wasRefused_iff (h : replay p history = some r) {cause : String} :
    WasRefused (exchanges p history) cause ↔
      ∃ x ∈ exchanges p history, x.phase.Decides p x.answer (.error (.consume cause)) := by
  constructor
  · rintro ⟨x, hx, hanswer⟩
    obtain ⟨turn, hturn⟩ := exists_step_of_mem h hx
    rw [hanswer] at hturn
    refine ⟨x, hx, ?_⟩
    rw [hanswer, Phase.consuming_of_consume hturn]
    exact .refused
  · rintro ⟨⟨phase, now, a⟩, hx, hdecides⟩
    refine ⟨_, hx, ?_⟩
    change phase.Decides p a _ at hdecides
    cases hdecides
    rfl

/-! ### Attempts -/

/-- A run that has no consumer has failed to create one with every attempt, and may make another
one. -/
theorem attempts_of_isAcquiring (h : replay p history = some r) (hacq : r.phase.IsAcquiring) :
    ∃ causes : List String, creations history = causes.map .error ∧
      r.phase.Attempted p causes.length := by
  have hfailed : AllFailed (creations history) := by
    have hlife := lifespan_replay 0 h
    rw [creations_eq_attempts 0]
    cases hphase : r.phase with
    | creating | retrying =>
      rw [hphase] at hlife
      exact hlife.1
    | _ =>
      rw [hphase] at hacq
      exact hacq.elim
  obtain ⟨causes, hcauses⟩ := hfailed
  refine ⟨causes, hcauses, ?_⟩
  have hlength : causes.length = attemptsIn history := by
    rw [← length_creations, hcauses, List.length_map]
  rw [hlength]
  exact attempted_replay h hacq

theorem usedUp_iff (h : replay p history = some r) {n : UInt32} {cause : String} :
    UsedUp p history n cause ↔
      ∃ x ∈ exchanges p history, x.phase.Decides p x.answer (.error (.acquisition n cause)) := by
  rw [UsedUp, ← Profile.maxAttempts_toNat]
  constructor
  · rintro ⟨hlimit, causes, hcreations, hlength, hlast⟩
    obtain ⟨causes, rfl⟩ := List.getLast?_eq_some_iff.mp hlast
    rw [List.map_append] at hcreations
    obtain ⟨h₁, ⟨now, answer⟩, h₂, rfl, hbefore, ha, -⟩ :=
      exists_of_filterMap_eq_append_cons hcreations
    have hanswer : answer = .create (.error cause) := by
      cases answer <;> cases ha
      rfl
    subst hanswer
    rw [replay_append] at h
    obtain ⟨s, hreplay, hrest⟩ := Option.bind_eq_some_iff.mp h
    obtain ⟨s', hstep, -⟩ := Option.bind_eq_some_iff.mp hrest
    obtain ⟨turn, hturn, -⟩ := step_eq_some_iff.mp hstep
    obtain ⟨attempt, hphase, -⟩ := Phase.creating_of_create hturn
    -- The attempt that failed last is the one that is numbered by the limit.
    obtain ⟨causes', hcauses', hattempted⟩ :=
      attempts_of_isAcquiring hreplay (by rw [hphase]; trivial)
    have hsame : causes'.length = causes.length := by
      have := congrArg List.length (hcauses'.symm.trans hbefore)
      rwa [List.length_map, List.length_map] at this
    rw [hphase, hsame] at hattempted
    obtain rfl : attempt = n := by
      refine UInt32.toNat_inj.mp (hattempted.1.trans ?_)
      rw [← hlength, List.length_append, List.length_singleton]
    refine ⟨⟨.creating attempt, ⟨now, .create (.error cause)⟩⟩, ?_, .exhausted ?_⟩
    · rw [exchanges, exchangesFrom_append hreplay, exchangesFrom_cons hstep, hphase]
      exact List.mem_append_right _ (List.mem_cons_self ..)
    · rw [UInt32.le_iff_toNat_le, hlimit]
  · rintro ⟨⟨phase, now, a⟩, hx, hdecides⟩
    obtain ⟨before, after, hcut⟩ := List.append_of_mem hx
    obtain ⟨h₁, h₂, s, turn, rfl, hreplay, -, hphase, hturn, hafter, -⟩ :=
      exchanges_eq_append_cons h hcut
    change phase.Decides p a _ at hdecides
    cases hdecides with
    | exhausted hlast =>
      obtain ⟨causes, hcauses, hattempted⟩ :=
        attempts_of_isAcquiring hreplay (by rw [hphase]; trivial)
      rw [hphase] at hattempted
      obtain ⟨hcount, hlimit⟩ := hattempted
      rw [UInt32.le_iff_toNat_le, hcount] at hlast
      have hstopped : (s.take turn).phase = .stopped (.error (.acquisition n cause)) := by
        obtain rfl := Option.some.inj hturn
        change (Phase.afterCreate ..).phase = _
        rw [Phase.afterCreate, if_pos (UInt32.le_iff_toNat_le.mpr (hcount ▸ hlast))]
      obtain ⟨rfl, -⟩ := follow_of_stopped hstopped hafter
      refine ⟨by omega, causes ++ [cause], ?_, ?_, List.getLast?_concat⟩
      · rw [creations, filterMap_concat, ← creations, hcauses, List.map_append]
        rfl
      · rw [List.length_append, List.length_singleton, hcount]

end Run

/-! ### Errors -/

/-- Whether a run knows that its error stream has come to its end. -/
def Phase.KnowsEnd : Phase μ → Prop
  | .polling errorsOpen | .processing errorsOpen .. | .settling errorsOpen .. => errorsOpen = false
  | _ => False

/-- A run learns of the end of its error stream by looking at it. -/
theorem Phase.knowsEnd_of_step [Identified μ] {p : Profile} {phase : Phase μ} {a : Answer μ}
    {turn : Turn μ} {now : Nat} (hturn : phase.step p now a = some turn)
    (hknows : turn.phase.KnowsEnd) :
    phase.KnowsEnd ∨ ∃ errorsOpen view, phase = .polling errorsOpen ∧ a = .poll view ∧
      view.errors = .ended := by
  unfold step at hturn
  split at hturn <;> cases hturn
  case h_1 attempt created =>
    cases created with
    | ok => exact hknows.elim
    | error =>
      simp only [afterCreate] at hknows
      split at hknows <;> exact hknows.elim
  case h_2 =>
    simp only [afterWait] at hknows
    split at hknows
    · exact hknows.elim
    · split at hknows <;> exact hknows.elim
  case h_3 => cases hknows
  case h_5 errorsOpen view =>
    rcases hpick : view.pick errorsOpen with _ | choice <;> rw [hpick] at hknows
    · exact .inl hknows
    · cases choice with
      | message => exact .inl hknows
      | errorsEnded =>
        exact .inr ⟨errorsOpen, view, rfl, rfl, (View.pick_eq_errorsEnded.mp hpick).2.2⟩
      | stop | error | messagesEnded => exact hknows.elim
  case h_6 processed => cases processed <;> exact .inl hknows
  case h_7 settled =>
    cases settled with
    | ok => exact .inl hknows
    | error => exact hknows.elim
  case h_8 settled =>
    cases hflow : p.strategy.flow <;> cases settled <;> simp only [afterFailing, hflow] at hknows
    case continue.ok => exact .inl hknows
    all_goals exact hknows.elim
  all_goals exact hknows.elim

namespace Run

variable [Identified μ] {p : Profile} {history : List (Stamped μ)} {r : Run μ} {s : Surroundings μ}

/-- A run that has not come to an outcome has not taken an error off its stream. -/
theorem reported_eq_nil (h : replay p history = some r) (hnone : r.phase.outcome? = none) :
    reported (exchanges p history) = [] := by
  refine List.filterMap_eq_nil_iff.mpr fun x hx => ?_
  by_contra hsome
  obtain ⟨cause, hcause⟩ := Option.ne_none_iff_exists'.mp hsome
  have hdecides : x.phase.Decides p x.answer (.error (.transport cause)) := by
    obtain ⟨phase, now, a⟩ := x
    cases phase with
    | polling errorsOpen =>
      cases a with
      | poll view =>
        refine .alerted ?_
        simp only [Exchange.reported?, Exchange.answer] at hcause
        split at hcause
        · next hpick =>
          obtain rfl := Option.some.inj hcause
          exact hpick
        · cases hcause
      | _ => cases hcause
    | _ => cases hcause
  cases hnone.symm.trans (outcome?_of_decides h hx hdecides)

/-- Until a run has come to an outcome, it sees the beginning of the error stream. -/
theorem heads_errors (h : replay p history = some r) (hs : s.Informs (exchanges p history))
    {before after : List (Exchange μ)} {x : Exchange μ}
    (hcut : exchanges p history = before ++ x :: after) {view : View μ}
    (hx : x.answer = .poll view) :
    view.errors.Heads s.errors := by
  obtain ⟨h₁, h₂, s', turn, rfl, hreplay, rfl, hphase, hturn, -⟩ := exchanges_eq_append_cons h hcut
  rw [hx] at hturn
  obtain ⟨errorsOpen, hpolling, -⟩ := Phase.polling_of_poll hturn
  have hnone : s'.phase.outcome? = none := by
    rw [hphase, hpolling]
    rfl
  have hheads := (hs _ x after hcut).errors view hx
  rwa [reported_eq_nil hreplay hnone] at hheads

/-- A stream has no errors if a run knows that it has come to its end. -/
theorem errors_eq_nil (h : replay p history = some r) (hs : s.Informs (exchanges p history))
    (hknows : r.phase.KnowsEnd) : s.errors = [] := by
  have hend : ∃ x ∈ exchanges p history, ∃ view, x.answer = .poll view ∧ view.errors = .ended := by
    refine replay_induction (P := fun xs phase => phase.KnowsEnd →
      ∃ x ∈ xs, ∃ view, x.answer = .poll view ∧ view.errors = .ended)
      h (fun hstart => hstart.elim) ?_ hknows
    intro xs phase a turn hprevious hturn hknows
    rcases Phase.knowsEnd_of_step hturn hknows with hbefore | ⟨-, view, -, ha, hended⟩
    · obtain ⟨x, hx, hview⟩ := hprevious hbefore
      exact ⟨x, List.mem_append_left _ hx, hview⟩
    · exact ⟨⟨phase, a⟩, by simp, view, ha, hended⟩
  obtain ⟨x, hx, view, hanswer, hended⟩ := hend
  obtain ⟨before, after, hcut⟩ := List.append_of_mem hx
  have hheads := heads_errors h hs hcut hanswer
  rwa [hended] at hheads

theorem metError_iff (h : replay p history = some r) (hs : s.Informs (exchanges p history))
    {cause : String} : MetError s (exchanges p history) cause ↔
      ∃ x ∈ exchanges p history, x.phase.Decides p x.answer (.error (.transport cause)) := by
  constructor
  · rintro ⟨hhead, before, x, after, view, hcut, hanswer, herror, hsignal⟩
    have hsample : x.answer.sample? = some view.stop := congrArg Answer.sample? hanswer
    have hstop := ((hs before x after hcut).sample hsample).symm.trans hsignal
    obtain ⟨h₁, h₂, s', turn, rfl, hreplay, rfl, hphase, hturn, -⟩ :=
      exchanges_eq_append_cons h hcut
    rw [hanswer] at hturn
    obtain ⟨errorsOpen, hpolling, -⟩ := Phase.polling_of_poll hturn
    -- A run that no longer looks at the error stream has seen its end, but there is an error on it.
    have hopen : errorsOpen = true := by
      cases errorsOpen with
      | true => rfl
      | false =>
        have hknows : s'.phase.KnowsEnd := by
          rw [hphase, hpolling]
          rfl
        rw [hcut] at hs
        rw [errors_eq_nil hreplay hs.of_append hknows] at hhead
        cases hhead
    refine ⟨x, hcut ▸ List.mem_append_right _ (List.mem_cons_self ..), ?_⟩
    rw [hpolling, hanswer]
    exact .alerted (View.pick_eq_error.mpr ⟨hstop, hopen, herror⟩)
  · rintro ⟨⟨phase, now, a⟩, hx, hdecides⟩
    obtain ⟨before, after, hcut⟩ := List.append_of_mem hx
    change phase.Decides p a _ at hdecides
    cases hdecides with
    | @alerted errorsOpen view _ hpick =>
      obtain ⟨hstop, -, herror⟩ := View.pick_eq_error.mp hpick
      have hheads := heads_errors h hs hcut rfl
      rw [herror] at hheads
      refine ⟨hheads, before, _, after, view, hcut, rfl, herror, ?_⟩
      exact ((hs _ _ _ hcut).sample rfl).trans hstop

end Run

/-! ### Messages -/

namespace Run

variable [Identified μ] {p : Profile} {history : List (Stamped μ)} {r : Run μ} {s : Surroundings μ}

/-- A run is done with messages once its outcome is decided. -/
theorem idle_exchangesFrom {r' : Run μ} (h : follow p r history = some r')
    (houtcome : r.phase.outcome?.isSome) : Idle (exchangesFrom p r history) := by
  induction history generalizing r with
  | nil => exact fun _ hx => absurd hx List.not_mem_nil
  | cons a history ih =>
    obtain ⟨s, hs, hrest⟩ := Option.bind_eq_some_iff.mp h
    obtain ⟨turn, hturn, rfl⟩ := step_eq_some_iff.mp hs
    obtain ⟨result, hresult⟩ := Option.isSome_iff_exists.mp houtcome
    rw [exchangesFrom_cons hs]
    intro x hx
    rcases List.mem_cons.mp hx with rfl | hx
    · exact houtcome
    · refine ih hrest ?_ x hx
      exact Option.isSome_iff_exists.mpr ⟨result, Phase.outcome?_of_step hturn hresult⟩

theorem idle_after (h : replay p history = some r) {before after : List (Exchange μ)}
    {x : Exchange μ} (hcut : exchanges p history = before ++ x :: after) {result : RunResult}
    (hdecides : x.phase.Decides p x.answer result) : Idle after := by
  obtain ⟨h₁, h₂, s, turn, rfl, -, -, -, hturn, hafter, rfl⟩ := exchanges_eq_append_cons h hcut
  exact idle_exchangesFrom hafter
    (Option.isSome_iff_exists.mpr ⟨result, hdecides.outcome?_of_step hturn⟩)

theorem ranOut_iff (h : replay p history = some r) (hended : r.phase.result?.isSome)
    (hs : s.Informs (exchanges p history)) : RanOut p s (exchanges p history) ↔
      ∃ x ∈ exchanges p history, x.phase.Decides p x.answer (.error .streamClosed) := by
  constructor
  · rintro ⟨before, x, after, view, hcut, hanswer, hlast, hmessages, herrors, hsignal, -⟩
    have hsample : x.answer.sample? = some view.stop := congrArg Answer.sample? hanswer
    have hstop := ((hs before x after hcut).sample hsample).symm.trans hsignal
    obtain ⟨turn, hturn, hnext⟩ := next_phase h hcut
    rw [hanswer] at hturn
    obtain ⟨errorsOpen, hpolling, rfl⟩ := Phase.polling_of_poll hturn
    refine ⟨x, hcut ▸ List.mem_append_right _ (List.mem_cons_self ..), ?_⟩
    rw [hpolling, hanswer]
    refine .ranOut (View.pick_eq_messagesEnded.mpr ⟨hstop, hmessages, fun hopen => ⟨?_, herrors⟩⟩)
    -- A run that notes the end of the error stream looks around again.
    intro hnone
    rw [View.pick_eq_errorsEnded.mpr ⟨hstop, hopen, hnone⟩] at hnext
    rcases hnext with ⟨-, hphase⟩ | ⟨⟨phase, now, a⟩, rest, rfl, hphase⟩
    · rw [hphase] at hended
      cases hended
    · obtain rfl : phase = .polling false := hphase
      obtain ⟨turn', hturn'⟩ := exists_step_of_mem h (x := ⟨.polling false, ⟨now, a⟩⟩)
        (hcut ▸ by simp)
      cases a with
      | poll view' => exact hlast _ (List.mem_cons_self ..) view' rfl
      | _ => cases hturn'
  · rintro ⟨⟨phase, now, a⟩, hx, hdecides⟩
    obtain ⟨before, after, hcut⟩ := List.append_of_mem hx
    have hidle := idle_after h hcut hdecides
    change phase.Decides p a _ at hdecides
    cases hdecides with
    | @ranOut errorsOpen view hpick =>
      obtain ⟨hstop, hmessages, herrors⟩ := View.pick_eq_messagesEnded.mp hpick
      have hshows := hs before _ after hcut
      have hlast : ∀ y ∈ after, ∀ view, y.answer ≠ .poll view := by
        intro y hy view hanswer
        obtain ⟨turn, hturn⟩ := exists_step_of_mem h (x := y) (hcut ▸ by simp [hy])
        rw [hanswer] at hturn
        obtain ⟨errorsOpen, hpolling, -⟩ := Phase.polling_of_poll hturn
        have hsome := hidle y hy
        rw [hpolling] at hsome
        cases hsome
      obtain ⟨h₁, h₂, s', turn, rfl, hreplay, rfl, hphase, -⟩ := exchanges_eq_append_cons h hcut
      rw [hcut] at hs
      have hnone : ∀ cause, view.errors ≠ .item cause := by
        intro cause hitem
        cases errorsOpen with
        | true => exact (herrors rfl).2 cause hitem
        | false =>
          have hknows : s'.phase.KnowsEnd := by
            rw [hphase]
            rfl
          have hheads := hshows.errors view rfl
          rw [errors_eq_nil hreplay hs.of_append hknows, List.drop_nil, hitem] at hheads
          cases hheads
      have haccounts := accounts_replay hreplay
      rw [hphase] at haccounts
      obtain ⟨hreceived, hall⟩ := haccounts
      refine ⟨_, _, after, view, hcut, rfl, hlast, hmessages, hnone, ?_, ?_, hall.settled⟩
      · exact (hshows.sample rfl).trans hstop
      · have hend := hshows.messages view rfl
        rw [hmessages] at hend
        obtain ⟨rest, hrest⟩ := hs.of_append.received_prefix
        rw [← hrest, List.drop_left] at hend
        rw [← hreceived, ← hrest, hend, List.append_nil]

/-- Nothing is processed or settled after the last settlement, the one that decides. -/
theorem lists_of_settling (h : replay p history = some r) {x : Exchange μ}
    (hx : x ∈ exchanges p history) {result : RunResult}
    (hdecides : x.phase.Decides p x.answer result) {errorsOpen : Bool} {m : μ}
    {failure : Option String} (hphase : x.phase = .settling errorsOpen m failure)
    {settlement : Except String Unit} (hanswer : x.answer = .settle settlement) :
    ∃ done processed, Run.processed (exchanges p history) = done ++ [(m, processed)] ∧
      failure? processed = failure ∧
      (settled p (exchanges p history))[done.length]? =
        some (m, p.dispositionAfter failure, settlement) := by
  obtain ⟨before, after, hcut⟩ := List.append_of_mem hx
  have hidle := idle_after h hcut hdecides
  obtain ⟨h₁, h₂, s, turn, rfl, hreplay, rfl, hs, -⟩ := exchanges_eq_append_cons h hcut
  have haccounts := accounts_replay hreplay
  rw [hs, hphase] at haccounts
  obtain ⟨done, processed, hprocessed, hfailure, -, hall⟩ := haccounts
  obtain ⟨phase, now, a⟩ := x
  obtain rfl : phase = _ := hphase
  obtain rfl : a = _ := hanswer
  refine ⟨done, processed, ?_, hfailure, ?_⟩
  · rw [hcut, Run.processed, List.filterMap_append, ← Run.processed, hprocessed]
    refine congrArg (done ++ [(m, processed)] ++ ·) ?_ |>.trans (List.append_nil _)
    exact hidle.processed
  · rw [hcut, settled, List.filterMap_append, ← settled, hall.settled]
    rw [List.getElem?_append_right (by simp), List.length_map, Nat.sub_self]
    rfl

theorem brokeOff_iff (h : replay p history = some r) (hended : r.phase.result?.isSome)
    {cause : String} : BrokeOff p (exchanges p history) cause ↔
      ∃ x ∈ exchanges p history, x.phase.Decides p x.answer (.error (.processing cause)) := by
  constructor
  · rintro ⟨hstrategy, m, hlast⟩
    obtain ⟨done, hprocessed⟩ := List.getLast?_eq_some_iff.mp hlast
    obtain ⟨before, x, after, hcut, -, hx, -⟩ := exists_of_filterMap_eq_append_cons hprocessed
    obtain ⟨turn, hturn, hnext⟩ := next_phase h hcut
    obtain ⟨errorsOpen, since, hphase, hanswer⟩ := Exchange.processed?_eq_some hx
    rw [hphase, hanswer] at hturn
    obtain rfl := Option.some.inj hturn
    -- A run that has ended has also settled the message.
    rcases hnext with ⟨-, hphase⟩ | ⟨⟨phase, now, a⟩, rest, rfl, hphase⟩
    · rw [hphase] at hended
      cases hended
    · obtain rfl : phase = .settling errorsOpen m (some cause) := hphase
      have hy :
          (⟨.settling errorsOpen m (some cause), ⟨now, a⟩⟩ : Exchange μ) ∈ exchanges p history :=
        hcut ▸ by simp
      obtain ⟨turn, hturn⟩ := exists_step_of_mem h hy
      cases a with
      | settle result => exact ⟨_, hy, .brokeOff (FailStrategy.flow_eq_exit_iff.mpr hstrategy)⟩
      | _ => cases hturn
  · rintro ⟨⟨phase, now, a⟩, hx, hdecides⟩
    change phase.Decides p a _ at hdecides
    cases hdecides with
    | brokeOff hflow =>
      obtain ⟨done, processed, hprocessed, hfailure, -⟩ :=
        lists_of_settling h hx (.brokeOff hflow) rfl rfl
      obtain rfl := failure?_eq_some.mp hfailure
      exact ⟨FailStrategy.flow_eq_exit_iff.mp hflow, _, by rw [hprocessed, List.getLast?_concat]⟩

theorem failedToSettle_iff (h : replay p history = some r) (hended : r.phase.result?.isSome)
    {disposition : Disposition} {cause : String} :
    FailedToSettle p (exchanges p history) disposition cause ↔
      ∃ x ∈ exchanges p history,
        x.phase.Decides p x.answer (.error (.acknowledge disposition cause)) := by
  constructor
  · rintro ⟨done, m, result, hprocessed, hsettled, -, hgoesOn⟩
    obtain ⟨x, hx, hfailed⟩ := List.mem_filterMap.mp (List.mem_of_getElem? hsettled)
    refine ⟨x, hx, ?_⟩
    obtain ⟨errorsOpen, failure, hphase, hanswer, rfl⟩ := Exchange.settled?_eq_some hfailed
    rw [hphase, hanswer]
    cases failure with
    | none => exact .unaccepted
    | some failure =>
      cases hflow : p.strategy.flow with
      | «continue» => exact .unsettled hflow
      | exit =>
        -- The failed processing would have been the end, but it is excluded.
        have hbroke : BrokeOff p (exchanges p history) failure :=
          (brokeOff_iff h hended).mpr ⟨x, hx, by rw [hphase]; exact hanswer ▸ .brokeOff hflow⟩
        obtain ⟨hstrategy, m', hlast⟩ := hbroke
        rw [hprocessed, List.getLast?_concat] at hlast
        obtain ⟨-, rfl⟩ := Prod.ext_iff.mp (Option.some.inj hlast)
        exact absurd ⟨hstrategy, failure, rfl⟩ hgoesOn
  · rintro ⟨⟨phase, now, a⟩, hx, hdecides⟩
    change phase.Decides p a _ at hdecides
    cases hdecides with
    | unaccepted =>
      obtain ⟨done, result, hprocessed, hfailure, hsettled⟩ :=
        lists_of_settling h hx .unaccepted rfl rfl
      refine ⟨done, _, result, hprocessed, hsettled, by rw [hfailure]; rfl, ?_⟩
      rintro ⟨-, failure, rfl⟩
      cases hfailure
    | unsettled hflow =>
      obtain ⟨done, result, hprocessed, hfailure, hsettled⟩ :=
        lists_of_settling h hx (.unsettled hflow) rfl rfl
      refine ⟨done, _, result, hprocessed, hsettled, by rw [hfailure]; rfl, ?_⟩
      rintro ⟨hstrategy, -⟩
      rw [hstrategy] at hflow
      cases hflow

/-- Whatever its collaborators do, the result of a run that has ended is exactly the one for which
its history holds the grounds. -/
theorem result_iff (h : replay p history = some r) (hended : r.phase.result?.isSome)
    (hs : s.Informs (exchanges p history)) (result : RunResult) :
    r.phase.result? = some result ↔ Grounds p s history result := by
  rw [result?_iff_decides h hended]
  match result with
  | .ok () => exact (sawStop_iff h hs).symm
  | .error (.acquisition n cause) => exact (usedUp_iff h).symm
  | .error (.consume cause) => exact (wasRefused_iff h).symm
  | .error (.transport cause) => exact (metError_iff h hs).symm
  | .error .streamClosed => exact (ranOut_iff h hended hs).symm
  | .error (.processing cause) => exact (brokeOff_iff h hended).symm
  | .error (.acknowledge disposition cause) => exact (failedToSettle_iff h hended).symm

/-- A message is accepted and the next one fails, and so does its rejection: the run ends with the
failure of the processor. -/
theorem result_of_failed_rejection :
    let p : Profile := ⟨"c", "script", .nackExit, 0, .zero⟩
    let history : List (Stamped Delivery) :=
      [⟨0, .create (.ok ())⟩, ⟨0, .consume (.ok ())⟩,
        ⟨0, .poll ⟨false, .nothing, .item ⟨0, .given "a", .null⟩⟩⟩, ⟨1, .process (.ok ())⟩,
        ⟨1, .settle (.ok ())⟩, ⟨1, .poll ⟨false, .nothing, .item ⟨1, .given "b", .null⟩⟩⟩,
        ⟨2, .process (.error "PROC ERROR")⟩, ⟨2, .settle (.error "NACK ERROR")⟩, ⟨2, .release⟩,
        ⟨2, .close (.ok ())⟩]
    let s : Surroundings Delivery :=
      ⟨[⟨0, .given "a", .null⟩, ⟨1, .given "b", .null⟩], [], fun _ => .ofBool false⟩
    ∃ r, replay p history = some r ∧ r.phase.result?.isSome ∧ s.Informs (exchanges p history) ∧
      r.phase.result? = some (.error (.processing "PROC ERROR")) ∧
      Grounds p s history (.error (.processing "PROC ERROR")) := by
  -- The history is written out, for it is to be computed with.
  dsimp only
  refine ⟨_, rfl, rfl, ?informs, rfl, (result_iff rfl rfl ?informs _).mp rfl⟩
  refine Surroundings.informs_of_getElem fun i hi => ?_
  replace hi : i < 10 := hi
  interval_cases i
  case «2» | «5» => exact .of_look rfl trivial rfl
  all_goals exact .of_sample? rfl

end Run

end Courier
