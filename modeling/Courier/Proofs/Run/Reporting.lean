import Courier.Proofs.Run.History
import Courier.Worker.Basic

/-!
# What becomes of the errors that a run meets

A run meets an error when a call that it makes fails, or when it takes one off the error stream
(`Phase.errorIn`). The run reports it if the error is the source of the fault that it ends with, or
if it stands in an error field of a notice that is a warning or worse (`Run.Reports`).

`error_reported_unless_unsettled` says which errors are reported. The one exception is a failure of
the processor under a strategy that goes on, if the message could not be settled after it: the run
then ends with the failed settlement, and is the same whatever the processor's error was
(`follow_process_unsettled`).
-/

namespace Courier

/-! ## Errors and reports -/

/-- The error that an answer hands to a run: that of a failed call, or the one that the run takes
off the error stream. -/
def Phase.errorIn {μ : Type} : Phase μ → Answer μ → Option String
  | .creating _, .create (.error cause) => some cause
  | .consuming, .consume (.error cause) => some cause
  | .polling errorsOpen, .poll view =>
    match view.pick errorsOpen with
    | some (.error cause) => some cause
    | _ => none
  | .processing .., .process (.error cause) => some cause
  | .settling .., .settle (.error cause) => some cause
  | .closing _, .close (.error cause) => some cause
  | _, _ => none

/-- The value of an error field. -/
def errorField? : String × FieldValue → Option String
  | (key, .text value) => if key = "error" ∨ key = "processing_error" then some value else none
  | _ => none

/-- The values of the error fields of a notice that is a warning or worse. -/
def Notice.errorTexts (n : Notice) : List String :=
  if n.level.atLeast .warn then (n.fields fun _ => "").filterMap errorField? else []

/-- Whether a notice tells of an error, by itself or as the reason why a message was not settled. -/
def Notice.Tells (n : Notice) (cause : String) : Prop :=
  ∃ value ∈ n.errorTexts, value = cause ∨ ∃ d, value = (Fault.acknowledge d cause).message

/-- Whether a run reports an error, in the result that it ends with or in its log. -/
def Run.Reports {μ : Type} (r : Run μ) (cause : String) : Prop :=
  (∃ fault, r.phase.outcome? = some (.error fault) ∧ fault.cause? = some cause) ∨
    ∃ n ∈ r.notices, n.Tells cause

/-- Whether the processor failed under a strategy that goes on, and then the message could not be
settled. -/
def LeftUnsettled {μ : Type} (p : Profile) (a : Answer μ) (after : List (Stamped μ)) : Prop :=
  p.strategy.flow = .continue ∧ (∃ cause, a = .process (.error cause)) ∧
    ∃ cause b rest, after = b :: rest ∧ b.answer = .settle (.error cause)

/-- The wording of a failed settlement contains the reason. -/
theorem Fault.length_le_message_acknowledge (d : Disposition) (cause : String) :
    cause.length ≤ (Fault.acknowledge d cause).message.length := by
  have h :
      (Fault.acknowledge d cause).message = ("failed to " ++ d.name ++ " message: ") ++ cause :=
    rfl
  rw [h, String.length_append]
  exact Nat.le_add_left ..

namespace Notice

theorem tells_creationFailed (attempt maxAttempts : UInt32) (wait : Span) (cause : String) :
    (creationFailed attempt maxAttempts wait cause).Tells cause :=
  ⟨cause, by simp [errorTexts, level, fields, errorField?, Level.atLeast, Level.rank], .inl rfl⟩

theorem tells_absorbed (id : CorrelationId) (cause : String) (strategy : FailStrategy) :
    (absorbed id cause strategy).Tells cause :=
  ⟨cause, by simp [errorTexts, level, fields, errorField?, Level.atLeast, Level.rank], .inl rfl⟩

theorem tells_rejectFailed (id : CorrelationId) (d : Disposition) (cause failure : String) :
    (rejectFailed id (Fault.acknowledge d cause).message failure).Tells cause :=
  ⟨(Fault.acknowledge d cause).message,
    by simp [errorTexts, level, fields, errorField?, Level.atLeast, Level.rank], .inr ⟨d, rfl⟩⟩

theorem tells_closeFailed (cause : String) : (closeFailed cause).Tells cause :=
  ⟨cause, by simp [errorTexts, level, fields, errorField?, Level.atLeast, Level.rank], .inl rfl⟩

end Notice

/-! ## What one answer does to an error -/

/-- Whether a turn reports an error. -/
def Turn.Reports {μ : Type} (turn : Turn μ) (cause : String) : Prop :=
  (∃ fault, turn.phase.outcome? = some (.error fault) ∧ fault.cause? = some cause) ∨
    ∃ n ∈ turn.notices, n.Tells cause

variable {μ : Type}

namespace Phase

/-- The error of a failed attempt to create a consumer is logged, or ends the run. -/
theorem reports_afterCreate (p : Profile) (now : Nat) (attempt : UInt32) (cause : String) :
    (afterCreate p now attempt (.error cause) : Turn μ).Reports cause := by
  simp only [afterCreate]
  split
  · exact .inl ⟨_, rfl, rfl⟩
  · exact .inr ⟨_, List.mem_singleton_self _, Notice.tells_creationFailed ..⟩

/-- The error of a settlement ends the run or is logged, whatever became of the processing. -/
theorem reports_afterFailing (p : Profile) (errorsOpen : Bool) (id : CorrelationId)
    (failure cause : String) :
    (afterFailing p errorsOpen id failure (.error cause) : Turn μ).Reports cause := by
  cases hflow : p.strategy.flow with
  | «continue» =>
    refine .inl ⟨.acknowledge p.strategy.disposition cause, ?_, rfl⟩
    simp only [afterFailing, hflow, outcome?]
  | exit =>
    refine .inr ⟨_, ?_, Notice.tells_rejectFailed id p.strategy.disposition cause failure⟩
    simp only [afterFailing, hflow, List.mem_singleton]

/-- The error of the processor is logged or ends the run, unless the message is left unsettled. -/
theorem reports_processing_afterFailing (p : Profile) (errorsOpen : Bool) (id : CorrelationId)
    (failure : String) (result : Except String Unit) :
    (afterFailing p errorsOpen id failure result : Turn μ).Reports failure ∨
      p.strategy.flow = .continue ∧ ∃ cause, result = .error cause := by
  cases hflow : p.strategy.flow with
  | «continue» =>
    cases result with
    | ok =>
      refine .inl (.inr ⟨_, ?_, Notice.tells_absorbed id failure p.strategy⟩)
      simp only [afterFailing, hflow, List.mem_singleton]
    | error cause => exact .inr ⟨rfl, cause, rfl⟩
  | exit =>
    refine .inl (.inl ⟨.processing failure, ?_, rfl⟩)
    cases result <;> simp only [afterFailing, hflow, outcome?]

/-- An error is reported at once, but for that of the processor, which the run keeps until it has
settled the message. -/
theorem reports_of_errorIn [Identified μ] {p : Profile} {now : Nat} {phase : Phase μ}
    {a : Answer μ} {turn : Turn μ} {cause : String} (h : phase.step p now a = some turn)
    (herr : phase.errorIn a = some cause) :
    turn.Reports cause ∨
      a = .process (.error cause) ∧
      ∃ errorsOpen m, turn.phase = .settling errorsOpen m (some cause) := by
  unfold step at h
  split at h <;> cases h
  case h_1 now attempt result =>
    cases result with
    | ok => simp [errorIn] at herr
    | error cause' =>
      obtain rfl := Option.some.inj herr
      exact .inl (reports_afterCreate ..)
  case h_4 cause' =>
    obtain rfl := Option.some.inj herr
    exact .inl (.inl ⟨_, rfl, rfl⟩)
  case h_5 errorsOpen view =>
    simp only [errorIn] at herr
    split at herr
    · next hpick =>
      obtain rfl := Option.some.inj herr
      rw [hpick]
      exact .inl (.inl ⟨_, rfl, rfl⟩)
    · exact absurd herr (by simp)
  case h_6 errorsOpen m since result =>
    cases result with
    | ok => simp [errorIn] at herr
    | error cause' =>
      obtain rfl := Option.some.inj herr
      exact .inr ⟨rfl, errorsOpen, m, rfl⟩
  case h_7 result =>
    cases result with
    | ok => simp [errorIn] at herr
    | error cause' =>
      obtain rfl := Option.some.inj herr
      exact .inl (.inl ⟨_, rfl, rfl⟩)
  case h_8 result =>
    cases result with
    | ok => simp [errorIn] at herr
    | error cause' =>
      obtain rfl := Option.some.inj herr
      exact .inl (reports_afterFailing ..)
  case h_10 closed =>
    cases closed with
    | ok => simp [errorIn] at herr
    | error cause' =>
      obtain rfl := Option.some.inj herr
      exact .inl (.inr ⟨_, List.mem_cons_self .., Notice.tells_closeFailed _⟩)
  all_goals simp [errorIn] at herr

/-- The processor's error that the run has kept is reported with the next answer, unless the message
could not be settled. -/
theorem reports_of_settling [Identified μ] {p : Profile} {now : Nat} {errorsOpen : Bool} {m : μ}
    {a : Answer μ} {turn : Turn μ} {cause : String}
    (h : (settling errorsOpen m (some cause)).step p now a = some turn) :
    turn.Reports cause ∨ p.strategy.flow = .continue ∧ ∃ fault, a = .settle (.error fault) := by
  cases a with
  | settle result =>
    obtain rfl := Option.some.inj h
    rcases reports_processing_afterFailing p errorsOpen (Identified.correlationId m) cause
      result with
      hreports | ⟨hflow, fault, rfl⟩
    · exact .inl hreports
    · exact .inr ⟨hflow, fault, rfl⟩
  | _ => simp [step] at h

end Phase

/-! ## What a history does to an error -/

namespace Run

/-- What a turn reports, the run reports after it. -/
theorem reports_take {r : Run μ} {turn : Turn μ} {cause : String} (h : turn.Reports cause) :
    (r.take turn).Reports cause := by
  rcases h with hfault | ⟨n, hn, htells⟩
  · exact .inl hfault
  · exact .inr ⟨n, List.mem_append_right _ hn, htells⟩

variable [Identified μ]

/-- What a run reports, it reports for good. -/
theorem reports_of_step {p : Profile} {r r' : Run μ} {a : Stamped μ} {cause : String}
    (h : r.step p a = some r') (hreports : r.Reports cause) : r'.Reports cause := by
  obtain ⟨turn, hturn, rfl⟩ := step_eq_some_iff.mp h
  rcases hreports with ⟨fault, hfault, hcause⟩ | ⟨n, hn, htells⟩
  · exact .inl ⟨fault, Phase.outcome?_of_step hturn hfault, hcause⟩
  · exact .inr ⟨n, List.mem_append_left _ hn, htells⟩

theorem reports_of_follow {p : Profile} {r r' : Run μ} {history : List (Stamped μ)} {cause : String}
    (h : follow p r history = some r') (hreports : r.Reports cause) : r'.Reports cause :=
  follow_induction (P := fun r => r.Reports cause) h hreports
    fun _ _ _ _ hs hstep => reports_of_step hstep hs

/-- If a message is left unsettled, the run goes on in the same way whatever the processor's error
was. -/
theorem follow_process_unsettled {p : Profile} {r : Run μ} {now : Nat} {cause cause' fault : String}
    {b : Stamped μ} {rest : List (Stamped μ)} (hflow : p.strategy.flow = .continue)
    (hb : b.answer = .settle (.error fault)) :
    follow p r (⟨now, .process (.error cause)⟩ :: b :: rest)
      = follow p r (⟨now, .process (.error cause')⟩ :: b :: rest) := by
  obtain ⟨now', answer⟩ := b
  obtain rfl : answer = .settle (.error fault) := hb
  obtain ⟨phase, notices, marks⟩ := r
  cases phase with
  | processing errorsOpen m since =>
    simp [follow_cons, Run.step, Phase.step, Phase.afterProcess, Phase.afterFailing, Run.take,
      hflow]
  | settling errorsOpen m failure => cases failure <;> rfl
  | _ => rfl

/-- The texts that a run can report an error with. -/
def reportTexts (r : Run μ) : List String :=
  (match r.phase.outcome? with
    | some (.error fault) => fault.cause?.toList
    | _ => []) ++ r.notices.flatMap Notice.errorTexts

omit [Identified μ] in
/-- An error that a run reports is no longer than all that it reports together. -/
theorem length_le_of_reports {r : Run μ} {cause : String} (h : r.Reports cause) :
    cause.length ≤ (r.reportTexts.flatMap String.toList).length := by
  obtain ⟨value, hvalue, hle⟩ : ∃ value ∈ r.reportTexts, cause.length ≤ value.length := by
    rcases h with ⟨fault, hfault, hcause⟩ | ⟨n, hn, value, hvalue, htells⟩
    · refine ⟨cause, List.mem_append_left _ ?_, Nat.le_refl _⟩
      rw [hfault]
      exact Option.mem_toList.mpr hcause
    · refine ⟨value, List.mem_append_right _ (List.mem_flatMap.mpr ⟨n, hn, hvalue⟩), ?_⟩
      rcases htells with heq | ⟨d, heq⟩
      · exact Nat.le_of_eq (congrArg String.length heq.symm)
      · exact heq ▸ Fault.length_le_message_acknowledge d cause
  have hsublist : value.toList.Sublist (r.reportTexts.flatMap String.toList) :=
    List.sublist_flatten_of_mem (List.mem_map_of_mem hvalue)
  exact hle.trans hsublist.length_le

omit [Identified μ] in
/-- No run reports every error. -/
theorem exists_not_reports (r : Run μ) : ∃ cause, ¬ r.Reports cause := by
  refine ⟨String.ofList (List.replicate ((r.reportTexts.flatMap String.toList).length + 1) 'x'),
    fun h => ?_⟩
  have hle := length_le_of_reports h
  rw [String.length_ofList, List.length_replicate] at hle
  omega

/-- By the time a run has ended, it reports every error that it has met, unless the error is that of
the processor for a message that was left unsettled. Such an error is lost: the run is the same
whatever the error was, and there is an error that it does not report. -/
theorem error_reported_unless_unsettled {p : Profile} {before after : List (Stamped μ)}
    {a : Stamped μ} {r₀ r : Run μ} {cause : String} (hbefore : replay p before = some r₀)
    (herr : r₀.phase.errorIn a.answer = some cause)
    (h : replay p (before ++ a :: after) = some r) (hend : r.phase.result?.isSome) :
    (¬ LeftUnsettled p a.answer after → r.Reports cause) ∧
      (LeftUnsettled p a.answer after →
        (∀ other, replay p (before ++ ⟨a.now, .process (.error other)⟩ :: after) = some r) ∧
          ∃ other, ¬ r.Reports other) := by
  have hfollow : follow p r₀ (a :: after) = some r := by
    rw [replay_append, hbefore] at h
    exact h
  constructor
  · intro hsettled
    obtain ⟨s, hs, hrest⟩ := Option.bind_eq_some_iff.mp hfollow
    obtain ⟨turn, hturn, rfl⟩ := step_eq_some_iff.mp hs
    rcases Phase.reports_of_errorIn hturn herr with hreports | ⟨hprocess, errorsOpen, m, hphase⟩
    · exact reports_of_follow hrest (reports_take hreports)
    -- The processor's error is kept until the next answer, which is about the settlement.
    · cases after with
      | nil =>
        obtain rfl := Option.some.inj hrest
        simp [take, hphase, Phase.result?] at hend
      | cons b rest =>
        obtain ⟨s', hs', hrest'⟩ := Option.bind_eq_some_iff.mp hrest
        obtain ⟨turn', hturn', rfl⟩ := step_eq_some_iff.mp hs'
        rw [show (r₀.take turn).phase = .settling errorsOpen m (some cause) from hphase] at hturn'
        rcases Phase.reports_of_settling hturn' with hreports | ⟨hflow, fault, hb⟩
        · exact reports_of_follow hrest' (reports_take hreports)
        · exact absurd ⟨hflow, ⟨cause, hprocess⟩, fault, b, rest, rfl, hb⟩ hsettled
  · rintro ⟨hflow, ⟨cause', hprocess⟩, fault, b, rest, rfl, hb⟩
    refine ⟨fun other => ?_, exists_not_reports r⟩
    obtain ⟨now, answer⟩ := a
    obtain rfl : answer = .process (.error cause') := hprocess
    rw [replay_append, hbefore]
    exact (follow_process_unsettled hflow hb).trans hfollow

/-- A message whose processing failed and that could not be rejected, under a strategy that stops:
the error of the processor is reported. -/
theorem error_reported_under_exit :
    ∃ r : Run Delivery,
      replay ⟨"c", "script", .nackExit, 0, .zero⟩
        ([⟨0, .create (.ok ())⟩, ⟨0, .consume (.ok ())⟩,
          ⟨1, .poll ⟨false, .nothing, .item ⟨0, .given "a", .null⟩⟩⟩] ++
          ⟨2, .process (.error "processing")⟩ ::
            [⟨2, .settle (.error "settling")⟩, ⟨2, .release⟩, ⟨3, .close (.error "closing")⟩]) =
          some r ∧
        r.phase.result?.isSome ∧ r.Reports "processing" := by
  obtain ⟨r₀, hbefore, hphase⟩ : ∃ r₀ : Run Delivery,
      replay ⟨"c", "script", .nackExit, 0, .zero⟩
        [⟨0, .create (.ok ())⟩, ⟨0, .consume (.ok ())⟩,
          ⟨1, .poll ⟨false, .nothing, .item ⟨0, .given "a", .null⟩⟩⟩] = some r₀ ∧
        r₀.phase = .processing true ⟨0, .given "a", .null⟩ 1 := ⟨_, rfl, rfl⟩
  obtain ⟨r, hr, hend⟩ : ∃ r : Run Delivery,
      replay ⟨"c", "script", .nackExit, 0, .zero⟩
        ([⟨0, .create (.ok ())⟩, ⟨0, .consume (.ok ())⟩,
          ⟨1, .poll ⟨false, .nothing, .item ⟨0, .given "a", .null⟩⟩⟩] ++
          ⟨2, .process (.error "processing")⟩ ::
            [⟨2, .settle (.error "settling")⟩, ⟨2, .release⟩, ⟨3, .close (.error "closing")⟩]) =
          some r ∧ r.phase.result?.isSome := ⟨_, rfl, rfl⟩
  refine ⟨r, hr, hend, (error_reported_unless_unsettled hbefore ?_ hr hend).1 ?_⟩
  · rw [hphase]
    rfl
  · rintro ⟨hflow, -⟩
    exact absurd hflow (by decide)

/-- The same under a strategy that goes on: the error of the processor is not reported. -/
theorem error_lost_under_continue :
    ∃ r : Run Delivery,
      replay ⟨"c", "script", .nack, 0, .zero⟩
        [⟨0, .create (.ok ())⟩, ⟨0, .consume (.ok ())⟩,
          ⟨0, .poll ⟨false, .nothing, .item ⟨0, .given "a", .null⟩⟩⟩,
          ⟨0, .process (.error "PROC ERROR")⟩, ⟨0, .settle (.error "NACK ERROR")⟩, ⟨0, .release⟩,
          ⟨0, .close (.ok ())⟩] = some r ∧
        r.phase.result? = some (.error (.acknowledge .nack "NACK ERROR")) ∧
        ¬ r.Reports "PROC ERROR" := by
  refine ⟨⟨.stopped (.error (.acknowledge .nack "NACK ERROR")),
    [.starting "script" .nack 0 .zero, .created 1, .processing (.given "a"), .consumerClosed,
      .failed "failed to nack message: NACK ERROR"],
    [.acquisitionAttempt, .messageReceived, .processingFailed .nack (.ofMillis 0)]⟩, rfl, rfl, ?_⟩
  rintro (⟨fault, hfault, hcause⟩ | ⟨n, hn, value, hvalue, htells⟩)
  · cases hfault
    exact absurd hcause (by decide)
  · have hvalue' : value = "failed to nack message: NACK ERROR" := by
      simp only [List.mem_cons, List.not_mem_nil, or_false] at hn
      rcases hn with rfl | rfl | rfl | rfl | rfl <;>
        simp_all [Notice.errorTexts, Notice.level, Notice.fields, errorField?, Level.atLeast,
          Level.rank]
    rcases htells with heq | ⟨d, heq⟩
    · exact absurd (hvalue'.symm.trans heq) (by decide)
    · rw [hvalue'] at heq
      cases d <;> exact absurd heq (by decide)

end Run

end Courier
