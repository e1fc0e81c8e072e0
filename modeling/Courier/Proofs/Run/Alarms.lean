import Courier.Proofs.Run.Transition
import Courier.Rehearsal
import Courier.Worker.Basic

/-!
# What the log tells of a run

A notice that is a warning or worse is an alarm. Each alarm of a run belongs to one of its exchanges
(`Run.Told.log`), and `told_of_result` says which alarms those are that failures call for: one
warning for each failed attempt to create a consumer, one for each failure of the processor that the
run goes on after, none for what went well, and one error at the end of a run that has failed, with
the wording of its fault.

There is one exception. A run that has used up its attempts ends at once: it warns of the attempts
before the last one only, and says nothing about its end (`silent_after_last_attempt`).
-/

namespace Courier

variable {μ : Type} [Identified μ]

/-! ## Alarms -/

/-- Whether a notice tells that a run has failed. -/
def Notice.isEnding (n : Notice) : Bool := n.message = "Component stopped with error"

/-- The warnings, and what is worse, that a run logs upon an answer. -/
def Exchange.alarms (p : Profile) (x : Exchange μ) : List Notice :=
  (x.notices p).filter fun n => n.level.atLeast .warn

theorem Exchange.alarms_of_step {p : Profile} {x : Exchange μ} {turn : Turn μ}
    (h : x.phase.step p x.stamped.now x.answer = some turn) :
    x.alarms p = turn.notices.filter fun n => n.level.atLeast .warn := by
  rw [alarms, notices_of_step h]

/-- The errors that a run with this result logs about its end. If it has had no consumer, there are
none. -/
def endings : RunResult → List Notice
  | .ok () | .error (.acquisition ..) => []
  | .error fault => [.failed fault.message]

/-- What the log tells of a run that has ended with a result after the exchanges `xs`. -/
structure Run.Told (p : Profile) (r : Run μ) (xs : List (Exchange μ)) (result : RunResult) :
    Prop where
  /-- Everything but the start is logged upon an answer. -/
  log : r.notices = (Phase.start p : Turn μ).notices ++ xs.flatMap (Exchange.notices p)
  /-- A run that has failed says so once, with its fault, unless it has had no consumer. -/
  ending : r.notices.filter Notice.isEnding = endings result
  /-- A run that has ended well logs no error at all. -/
  well : result = .ok () → ∀ n ∈ r.notices, n.level ≠ .error
  /-- A failed attempt calls for one warning, unless it is the last thing that happens. -/
  attempt : ∀ before x after cause, xs = before ++ x :: after → x.answer = .create (.error cause) →
    ∃ attempt, x.phase = .creating attempt ∧ (after = [] → x.alarms p = []) ∧
      (after ≠ [] → x.alarms p = [.creationFailed attempt p.maxAttempts p.retryWait cause])
  /-- A failed attempt is the last thing that happens just if the run has had no consumer. -/
  exhausted : (∃ n cause, result = .error (.acquisition n cause)) ↔
    ∃ before x cause, xs = before ++ [x] ∧ x.answer = .create (.error cause)
  /-- A failure of the processor that the run goes on after calls for one warning. -/
  absorbed : ∀ before x y after m failure, xs = before ++ x :: y :: after →
    x.processed? = some (m, .error failure) → y.answer = .settle (.ok ()) →
    p.strategy.flow = .continue →
      x.alarms p ++ y.alarms p = [.absorbed (Identified.correlationId m) failure p.strategy]
  /-- A consumer that was created and a message that was processed call for none. -/
  silent : ∀ x ∈ xs, x.answer = .create (.ok ()) ∨ x.answer = .process (.ok ()) → x.alarms p = []

/-! ## The end of a run -/

namespace Run

variable {p : Profile} {history : List (Stamped μ)} {r : Run μ} {result : RunResult}

/-- A run that has used up its attempts has ended, right after the last one has failed. -/
theorem stopped_of_acquisition (h : replay p history = some r) {n : UInt32} {cause : String}
    (houtcome : r.phase.outcome? = some (.error (.acquisition n cause))) :
    r.phase.result?.isSome ∧
      ∃ before x, exchanges p history = before ++ [x] ∧ x.answer = .create (.error cause) := by
  refine stepsTo_induction (P := fun xs r =>
    r.phase.outcome? = some (.error (.acquisition n cause)) →
    r.phase.result?.isSome ∧ ∃ before x, xs = before ++ [x] ∧ x.answer = .create (.error cause))
    h (fun hstart => nomatch hstart) ?_ houtcome
  rintro before ⟨phase, notices, marks⟩ ⟨now, a⟩ turn - hprevious - hstepsTo houtcome
  cases hstepsTo with
  | exhausted hlast =>
    obtain ⟨rfl, rfl⟩ := Fault.acquisition.inj (Except.error.inj (Option.some.inj houtcome))
    exact ⟨rfl, _, _, rfl, rfl⟩
  | released | closed =>
    obtain rfl := Option.some.inj houtcome
    exact nomatch (hprevious rfl).1
  | _ => cases houtcome

/-- A run says that it has failed when it has closed its consumer, and not before. -/
theorem filter_isEnding (h : replay p history = some r) :
    r.notices.filter Notice.isEnding = (r.phase.result?.map endings).getD [] := by
  refine stepsTo_induction (P := fun _ r =>
    r.notices.filter Notice.isEnding = (r.phase.result?.map endings).getD []) h rfl ?_
  rintro before ⟨phase, notices, marks⟩ ⟨now, a⟩ turn hbefore hprevious - hstepsTo
  simp only at hprevious hstepsTo
  rw [take, List.filter_append, hprevious]
  cases hstepsTo with
  | @closed result closed =>
    have hclose : Notice.isEnding (Phase.closeNotice closed) = false := by cases closed <;> rfl
    have hend : [Phase.endNotice result].filter Notice.isEnding = endings result := by
      rcases result with fault | _
      · cases fault with
        | acquisition => cases (stopped_of_acquisition hbefore rfl).1
        | _ => rfl
      · rfl
    rw [List.filter_cons_of_neg (by rw [hclose]; exact Bool.false_ne_true), hend]
    rfl
  | _ => rfl

/-- A run that has not failed has logged no error. -/
theorem level_ne_error (h : replay p history = some r)
    (hwell : ∀ fault, r.phase.outcome? ≠ some (.error fault)) :
    ∀ n ∈ r.notices, n.level ≠ .error := by
  refine stepsTo_induction (P := fun _ r => (∀ fault, r.phase.outcome? ≠ some (.error fault)) →
    ∀ n ∈ r.notices, n.level ≠ .error) h ?_ ?_ hwell
  · rintro - n hn
    obtain rfl := List.mem_singleton.mp hn
    exact fun hlevel => nomatch hlevel
  rintro before ⟨phase, notices, marks⟩ ⟨now, a⟩ turn - hprevious hturn hstepsTo hwell n hn
  rcases List.mem_append.mp hn with hold | hnew
  · refine hprevious (fun fault hfault => ?_) n hold
    exact hwell fault (Phase.outcome?_of_step hturn hfault)
  · cases hstepsTo with
    | unrejected => exact absurd rfl (hwell _)
    | @closed result closed =>
      rcases result with fault | _
      · exact absurd rfl (hwell fault)
      · rcases List.mem_pair.mp hnew with rfl | rfl
        · cases closed <;> exact fun hlevel => nomatch hlevel
        · exact fun hlevel => nomatch hlevel
    | created | postponed | gaveUp | interrupted | reassured | received | absorbed =>
      obtain rfl := List.mem_singleton.mp hnew
      exact fun hlevel => nomatch hlevel
    | _ => cases hnew

/-! ## Failures on the way -/

/-- What happens upon an answer is the last thing that happens if it ends the run, and only then. -/
theorem eq_nil_iff_result? (h : replay p history = some r) (hend : r.phase.result? = some result)
    {before after : List (Exchange μ)} {x : Exchange μ} {turn : Turn μ}
    (hcut : exchanges p history = before ++ x :: after)
    (hturn : x.phase.step p x.stamped.now x.answer = some turn) :
    after = [] ↔ turn.phase.result?.isSome := by
  obtain ⟨turn', hturn', hnext⟩ := next_phase h hcut
  obtain rfl := Option.some.inj (hturn.symm.trans hturn')
  rcases hnext with ⟨rfl, hphase⟩ | ⟨y, rest, rfl, hphase⟩
  · rw [← hphase, hend]
    exact iff_of_true rfl rfl
  · refine iff_of_false (List.cons_ne_nil _ _) fun hstopped => ?_
    rw [List.append_cons] at hcut
    obtain ⟨turn'', hturn'', -⟩ := next_phase h hcut
    rw [hphase] at hturn''
    generalize turn.phase = phase at hturn'' hstopped
    cases phase with
    | stopped => cases hturn''
    | _ => cases hstopped

/-- A failed attempt calls for one warning, unless it is the last thing that happens. -/
theorem alarms_of_attempt (h : replay p history = some r) (hend : r.phase.result? = some result)
    {before after : List (Exchange μ)} {x : Exchange μ} {cause : String}
    (hcut : exchanges p history = before ++ x :: after) (hx : x.answer = .create (.error cause)) :
    ∃ attempt, x.phase = .creating attempt ∧ (after = [] → x.alarms p = []) ∧
      (after ≠ [] → x.alarms p = [.creationFailed attempt p.maxAttempts p.retryWait cause]) := by
  obtain ⟨turn, hturn, -⟩ := next_phase h hcut
  rw [eq_nil_iff_result? h hend hcut hturn, ne_eq, eq_nil_iff_result? h hend hcut hturn,
    Exchange.alarms_of_step hturn]
  obtain ⟨phase, now, a⟩ := x
  obtain rfl : a = .create (.error cause) := hx
  have hstepsTo := Phase.stepsTo_of_step hturn
  simp only at hstepsTo
  cases hstepsTo with
  | exhausted => exact ⟨_, rfl, fun _ => rfl, fun hmore => absurd rfl hmore⟩
  | postponed => exact ⟨_, rfl, fun hlast => (nomatch hlast), fun _ => rfl⟩

/-- A failure of the processor that the run goes on after calls for one warning. -/
theorem alarms_of_failure (h : replay p history = some r) {before after : List (Exchange μ)}
    {x y : Exchange μ} {m : μ} {failure : String}
    (hcut : exchanges p history = before ++ x :: y :: after)
    (hx : x.processed? = some (m, .error failure)) (hy : y.answer = .settle (.ok ()))
    (hflow : p.strategy.flow = .continue) :
    x.alarms p ++ y.alarms p = [.absorbed (Identified.correlationId m) failure p.strategy] := by
  obtain ⟨turn, hturn, hnext⟩ := next_phase h hcut
  have hphase : y.phase = turn.phase := by
    rcases hnext with ⟨hnil, -⟩ | ⟨z, rest, hcons, hz⟩
    · cases hnil
    · obtain ⟨rfl, -⟩ := List.cons.inj hcons
      exact hz
  rw [List.append_cons] at hcut
  obtain ⟨turn', hturn', -⟩ := next_phase h hcut
  rw [Exchange.alarms_of_step hturn, Exchange.alarms_of_step hturn']
  rw [hphase, hy] at hturn'
  obtain ⟨errorsOpen, since, hxphase, hxanswer⟩ := Exchange.processed?_eq_some hx
  rw [hxphase, hxanswer] at hturn
  obtain rfl := Option.some.inj hturn
  have hstepsTo := Phase.stepsTo_of_step hturn'
  cases hstepsTo with
  | absorbed => rfl
  | rejected hexit =>
    rw [hflow] at hexit
    cases hexit

/-- The log tells how a run has ended and what has failed on the way, but for a run that has used up
its attempts: that one warns of all failed attempts but the last, and ends without a word. -/
theorem told_of_result (h : replay p history = some r) (hend : r.phase.result? = some result) :
    r.Told p (exchanges p history) result := by
  have houtcome : r.phase.outcome? = some result := by
    cases hphase : r.phase with
    | stopped =>
      rw [hphase] at hend
      exact hend
    | _ =>
      rw [hphase] at hend
      cases hend
  constructor
  case log => exact notices_eq h
  case ending => rw [filter_isEnding h, hend, Option.map_some, Option.getD_some]
  case well =>
    rintro rfl
    exact level_ne_error h fun fault hfault => nomatch houtcome.symm.trans hfault
  case attempt => exact fun _ _ _ _ hcut hx => alarms_of_attempt h hend hcut hx
  case exhausted =>
    constructor
    · rintro ⟨n, cause, rfl⟩
      obtain ⟨-, before, x, hcut, hx⟩ := stopped_of_acquisition h houtcome
      exact ⟨before, x, cause, hcut, hx⟩
    · rintro ⟨before, ⟨phase, now, a⟩, cause, hcut, rfl : a = _⟩
      obtain ⟨turn, hturn, hnext⟩ := next_phase h hcut
      have hphase : r.phase = turn.phase := by
        rcases hnext with ⟨-, hphase⟩ | ⟨y, rest, hcons, -⟩
        · exact hphase
        · cases hcons
      have hstepsTo := Phase.stepsTo_of_step hturn
      rw [hphase] at houtcome
      simp only at hstepsTo
      cases hstepsTo with
      | exhausted => exact ⟨_, _, (Option.some.inj houtcome).symm⟩
      | postponed => cases houtcome
  case absorbed => exact fun _ _ _ _ _ _ hcut hx hy hflow => alarms_of_failure h hcut hx hy hflow
  case silent =>
    rintro x hx hwell
    obtain ⟨before, after, hcut⟩ := List.append_of_mem hx
    obtain ⟨turn, hturn, -⟩ := next_phase h hcut
    rw [Exchange.alarms_of_step hturn]
    obtain ⟨phase, now, a⟩ := x
    have hstepsTo := Phase.stepsTo_of_step hturn
    rcases hwell with rfl | rfl <;> simp only at hstepsTo <;> cases hstepsTo <;> rfl

/-- A run whose first attempt fails, that goes on after a failure of the processor, and ends with an
error of the transport. -/
theorem told_of_transport_error :
    let p : Profile := ⟨"c", "script", .nack, 1, .zero⟩
    let history : List (Stamped Delivery) :=
      [⟨0, .create (.error "DOWN")⟩, ⟨0, .wait false⟩, ⟨0, .create (.ok ())⟩,
        ⟨0, .consume (.ok ())⟩, ⟨0, .poll ⟨false, .nothing, .item ⟨0, .given "a", .null⟩⟩⟩,
        ⟨1, .process (.error "PROC ERROR")⟩, ⟨1, .settle (.ok ())⟩,
        ⟨1, .poll ⟨false, .item "LOST", .nothing⟩⟩, ⟨1, .release⟩, ⟨2, .close (.ok ())⟩]
    ∃ r : Run Delivery, replay p history = some r ∧
      r.phase.result? = some (.error (.transport "LOST")) ∧
      r.Told p (exchanges p history) (.error (.transport "LOST")) ∧
      r.notices.filter (fun n => n.level.atLeast .warn) =
        [.creationFailed 1 2 .zero "DOWN", .absorbed (.given "a") "PROC ERROR" .nack,
          .failed "an error occurred during message consumption: LOST"] := by
  -- The history is written out, for it is to be computed with.
  dsimp only
  exact ⟨_, rfl, rfl, told_of_result rfl rfl, rfl⟩

/-- A run without retries whose only attempt fails: it ends with a fault, and nothing that it logs
is a warning or worse. -/
theorem silent_after_last_attempt :
    let played :=
      (Rehearsal.ofScript ⟨"c", "script", .nackExit, 0, .zero⟩ [{ fault := some "DOWN" }]
      []).playRuns (.ofBool false) 60000 100 1
    played.2.map (fun report => report.result) = [some (.error (.acquisition 1 "DOWN"))] ∧
      ∀ n ∈ played.1.notices, n.level.atLeast .warn = false := by
  refine ⟨rfl, ?_⟩
  intro n hn
  obtain rfl := List.mem_singleton.mp hn
  rfl

end Run

end Courier
