import Courier.Proofs.Run.History
import Courier.Rehearsal
import Courier.Worker.Basic

/-!
# Runs that are asked to stop before they have a consumer

A run looks at the stop signal while it waits for another attempt, and whenever it looks around for
a message. So a request that is there by the time the last attempt to create a consumer has been
answered, and is not taken back, is seen before any message is: the run processes nothing and ends
after at most four further answers (`stop_by_last_attempt`).

A stop is meant to end every run well. Two failures go past it, because a run does not look at the
signal after them: that of the last attempt that it may make, and that of a consumer that refuses to
start (`resultWhenStopped`). `acquisition_fails_after_stop` is a run that is lost in this way.
-/

namespace Courier

variable {μ : Type}

/-- Why a consumer refused to start, if it did. -/
def Answer.refusal? : Answer μ → Option String
  | .consume (.error cause) => some cause
  | _ => none

/-- Whether an answer that says something about the stop signal comes from a look at a signal that
asks to stop. -/
def Answer.SeesStop (a : Answer μ) : Prop :=
  ∀ stop, a.sample? = some stop → ∃ l : Listener, ∃ s : Signal, s.isStop ∧ stop = (l.poll s).1

/-- A look at a signal that asks to stop finds that it does. -/
theorem Listener.poll_of_isStop {s : Signal} (l : Listener) (h : s.isStop) :
    (l.poll s).1 = true := by
  rcases hrequested : s.requested with _ | _
  · have hattended : s.attended = false := by simpa [Signal.isStop, hrequested] using h
    simp [poll, changed?, hrequested, hattended]
  · simp [poll, hrequested]

theorem Answer.sample?_ne_of_seesStop {a : Answer μ} (h : a.SeesStop) : a.sample? ≠ some false := by
  intro hfalse
  obtain ⟨l, s, hs, hlook⟩ := h false hfalse
  exact absurd (hlook.trans (l.poll_of_isStop hs)) (by decide)

/-- How a run ends that is asked to stop by the time its last attempt has been answered: it has made
`attempts` attempts, the last one with the result `created`, and `refusal?` is why its consumer
refused to start, if it did. -/
def resultWhenStopped (p : Profile) (attempts : Nat) (created : Except String Unit)
    (refusal? : Option String) : RunResult :=
  match created with
  | .error cause =>
    if attempts = p.maxAttempts.toNat then .error (.acquisition p.maxAttempts cause) else .ok ()
  | .ok () =>
    match refusal? with
    | some cause => .error (.consume cause)
    | none => .ok ()

namespace Phase

/-- The most answers that a run which is asked to stop takes until it has ended. There is none while
a consumer is being created, or a message is in process. -/
def answersLeft? : Phase μ → Option Nat
  | .retrying _ _ => some 1
  | .consuming => some 4
  | .polling _ => some 3
  | .releasing _ => some 2
  | .closing _ => some 1
  | .stopped _ => some 0
  | .creating _ | .processing .. | .settling .. => none

/-- Whether a run ends well if it is asked to stop. -/
def EndsWell : Phase μ → Prop
  | .retrying _ _ | .polling _ => True
  | .releasing result | .closing result | .stopped result => result = .ok ()
  | _ => False

/-- A run that takes no more answers has ended. -/
theorem result?_of_answersLeft? {phase : Phase μ} (h : phase.answersLeft? = some 0) :
    ∃ result, phase.result? = some result := by
  cases phase with
  | stopped result => exact ⟨result, rfl⟩
  | _ => simp [answersLeft?] at h

variable [Identified μ]

/-- Every answer takes a run that is asked to stop closer to its end. -/
theorem answersLeft?_of_step {p : Profile} {now n : Nat} {phase : Phase μ} {a : Answer μ}
    {turn : Turn μ} (h : phase.step p now a = some turn) (hn : phase.answersLeft? = some n)
    (hstop : a.sample? ≠ some false) : ∃ k < n, turn.phase.answersLeft? = some k := by
  unfold step at h
  -- The cases are numbered as the equations of `step` are, one or two for each phase.
  split at h <;> cases h
  case h_2 attempt deadline stop =>
    obtain rfl : stop = true := by simpa [Answer.sample?] using hstop
    obtain rfl := Option.some.inj hn
    exact ⟨0, Nat.zero_lt_one, rfl⟩
  case h_3 =>
    obtain rfl := Option.some.inj hn
    exact ⟨3, by omega, rfl⟩
  case h_4 =>
    obtain rfl := Option.some.inj hn
    exact ⟨1, by omega, rfl⟩
  case h_5 errorsOpen view =>
    obtain rfl := Option.some.inj hn
    have hview : view.stop = true := by simpa [Answer.sample?] using hstop
    refine ⟨2, by omega, ?_⟩
    simp [View.pick, hview, afterPoll, answersLeft?]
  case h_9 =>
    obtain rfl := Option.some.inj hn
    exact ⟨1, by omega, rfl⟩
  case h_10 =>
    obtain rfl := Option.some.inj hn
    exact ⟨0, by omega, rfl⟩
  all_goals exact absurd hn (by simp [answersLeft?])

/-- Only a run that starts its consumer can be refused. -/
theorem refusal?_of_step {p : Profile} {now : Nat} {phase : Phase μ} {a : Answer μ}
    {turn : Turn μ} (h : phase.step p now a = some turn) (hne : phase ≠ .consuming) :
    a.refusal? = none := by
  unfold step at h
  split at h <;> cases h
  case h_4 => exact absurd rfl hne
  all_goals rfl

/-- A run that is asked to stop and has not failed yet does not fail any more. -/
theorem endsWell_of_step {p : Profile} {now : Nat} {phase : Phase μ} {a : Answer μ}
    {turn : Turn μ} (h : phase.step p now a = some turn) (hwell : phase.EndsWell)
    (hstop : a.sample? ≠ some false) : turn.phase.EndsWell := by
  unfold step at h
  split at h <;> cases h
  case h_2 attempt deadline stop =>
    obtain rfl : stop = true := by simpa [Answer.sample?] using hstop
    exact rfl
  case h_5 errorsOpen view =>
    have hview : view.stop = true := by simpa [Answer.sample?] using hstop
    simp [View.pick, hview, afterPoll, EndsWell]
  case h_9 | h_10 => exact hwell
  all_goals exact absurd hwell (by simp [EndsWell])

end Phase

namespace Run

variable [Identified μ]

/-- A run that is asked to stop takes only so many answers. -/
theorem answersLeft?_of_follow {p : Profile} {r r' : Run μ} {history : List (Stamped μ)} {n : Nat}
    (h : follow p r history = some r') (hn : r.phase.answersLeft? = some n)
    (hstop : ∀ a ∈ history, a.answer.sample? ≠ some false) :
    ∃ k, r'.phase.answersLeft? = some k ∧ history.length + k ≤ n := by
  induction history generalizing r n with
  | nil =>
    obtain rfl := Option.some.inj h
    exact ⟨n, hn, by simp⟩
  | cons a history ih =>
    obtain ⟨s, hs, hrest⟩ := Option.bind_eq_some_iff.mp h
    obtain ⟨turn, hturn, rfl⟩ := step_eq_some_iff.mp hs
    obtain ⟨m, hlt, hm⟩ := Phase.answersLeft?_of_step hturn hn (hstop a (List.mem_cons_self ..))
    obtain ⟨k, hk, hle⟩ := ih hrest hm fun b hb => hstop b (List.mem_cons_of_mem a hb)
    refine ⟨k, hk, ?_⟩
    rw [List.length_cons]
    omega

/-- If a run that is asked to stop and has not failed yet has ended, it has ended well. -/
theorem result_of_endsWell {p : Profile} {r r' : Run μ} {history : List (Stamped μ)}
    {result : RunResult} (h : follow p r history = some r') (hwell : r.phase.EndsWell)
    (hstop : ∀ a ∈ history, a.answer.sample? ≠ some false)
    (hresult : r'.phase.result? = some result) : result = .ok () := by
  have hwell' : r'.phase.EndsWell :=
    follow_induction (P := fun r => r.phase.EndsWell) h hwell fun a ha s s' hs hstep => by
      obtain ⟨turn, hturn, rfl⟩ := step_eq_some_iff.mp hstep
      exact Phase.endsWell_of_step hturn hs (hstop a ha)
  cases hphase : r'.phase <;> simp_all [Phase.result?, Phase.EndsWell]

/-- A consumer that has started does not refuse to any more. -/
theorem findSome?_refusal?_of_follow {p : Profile} {r r' : Run μ} {history : List (Stamped μ)}
    {n : Nat} (h : follow p r history = some r') (hn : r.phase.answersLeft? = some n) (hlt : n < 4)
    (hstop : ∀ a ∈ history, a.answer.sample? ≠ some false) :
    (history.findSome? fun a => a.answer.refusal?) = none := by
  induction history generalizing r n with
  | nil => rfl
  | cons a history ih =>
    obtain ⟨s, hs, hrest⟩ := Option.bind_eq_some_iff.mp h
    obtain ⟨turn, hturn, rfl⟩ := step_eq_some_iff.mp hs
    obtain ⟨m, hm, hleft⟩ := Phase.answersLeft?_of_step hturn hn (hstop a (List.mem_cons_self ..))
    have hne : r.phase ≠ .consuming := by
      intro hphase
      rw [hphase] at hn
      exact absurd (Option.some.inj hn) (by omega)
    rw [List.findSome?_cons, Phase.refusal?_of_step hturn hne]
    exact ih hrest hleft (by omega) fun b hb => hstop b (List.mem_cons_of_mem a hb)

omit [Identified μ] in
/-- A run that has no consumer, or is asked to stop, has no message to process. -/
theorem request_ne_process {p : Profile} {r : Run μ} (m : μ)
    (h : r.phase.IsAcquiring ∨ ∃ n, r.phase.answersLeft? = some n) :
    r.phase.request p ≠ some (.process m) := by
  cases hphase : r.phase <;>
    simp_all [Phase.request, Phase.IsAcquiring, Phase.answersLeft?]

omit [Identified μ] in
/-- After an attempt, a run that is asked to stop takes at most four more answers. -/
theorem answersLeft?_afterCreate (p : Profile) (now : Nat) (attempt : UInt32)
    (created : Except String Unit) :
    ∃ n ≤ 4, (Phase.afterCreate p now attempt created : Turn μ).phase.answersLeft? = some n := by
  cases created with
  | ok => exact ⟨4, Nat.le_refl 4, rfl⟩
  | error cause =>
    simp only [Phase.afterCreate]
    split
    · exact ⟨0, by omega, rfl⟩
    · exact ⟨1, by omega, rfl⟩

/-- A run that has a consumer and is asked to stop ends well, unless the consumer refuses to
start. -/
theorem result_of_consuming {p : Profile} {r r' : Run μ} {history : List (Stamped μ)}
    {result : RunResult} (h : follow p r history = some r') (hphase : r.phase = .consuming)
    (hstop : ∀ a ∈ history, a.answer.sample? ≠ some false)
    (hresult : r'.phase.result? = some result) :
    result = match history.findSome? fun a => a.answer.refusal? with
      | some cause => .error (.consume cause)
      | none => .ok () := by
  cases history with
  | nil =>
    obtain rfl := Option.some.inj h
    exact absurd hresult (by simp [hphase, Phase.result?])
  | cons a history =>
    obtain ⟨s, hs, hrest⟩ := Option.bind_eq_some_iff.mp h
    obtain ⟨turn, hturn, rfl⟩ := step_eq_some_iff.mp hs
    have hstop' : ∀ b ∈ history, b.answer.sample? ≠ some false :=
      fun b hb => hstop b (List.mem_cons_of_mem a hb)
    rw [hphase] at hturn
    obtain ⟨now, answer⟩ := a
    cases answer with
    | consume consumed =>
      cases consumed with
      | ok =>
        obtain rfl := Option.some.inj hturn
        have hnone := findSome?_refusal?_of_follow hrest rfl (by omega : 3 < 4) hstop'
        have hskip : (⟨now, .consume (.ok ())⟩ :: history : List (Stamped μ)).findSome?
            (fun a => a.answer.refusal?) = none := hnone
        rw [hskip]
        exact result_of_endsWell hrest trivial hstop' hresult
      | error cause =>
        obtain rfl := Option.some.inj hturn
        exact result_of_outcome? hrest rfl hresult
    | _ => simp [Phase.step] at hturn

/-- How a run that is asked to stop ends after a failed attempt: with the failure if it was the last
attempt that it may make, and well otherwise. -/
theorem result_of_failed {p : Profile} {r r' : Run μ} {history : List (Stamped μ)} {now n : Nat}
    {attempt : UInt32} {cause : String} {result : RunResult}
    (h : follow p r history = some r')
    (hphase : r.phase = (Phase.afterCreate p now attempt (.error cause) : Turn μ).phase)
    (hattempt : attempt.toNat = n) (hlimit : n ≤ p.maxAttempts.toNat)
    (hstop : ∀ a ∈ history, a.answer.sample? ≠ some false)
    (hresult : r'.phase.result? = some result) :
    result = if n = p.maxAttempts.toNat then .error (.acquisition p.maxAttempts cause)
      else .ok () := by
  simp only [Phase.afterCreate] at hphase
  split at hphase
  · next hle =>
    rw [UInt32.le_iff_toNat_le, hattempt] at hle
    have hmax : n = p.maxAttempts.toNat := by omega
    obtain rfl : attempt = p.maxAttempts := UInt32.toNat_inj.mp (hattempt.trans hmax)
    obtain ⟨-, rfl⟩ := follow_of_stopped hphase h
    rw [hphase] at hresult
    rw [if_pos hmax, Option.some.inj hresult]
  · next hlt =>
    rw [UInt32.le_iff_toNat_le, hattempt] at hlt
    rw [if_neg (by omega)]
    exact result_of_endsWell h (by rw [hphase]; trivial) hstop hresult

/-- A run that is asked to stop by the time its last attempt has been answered, for good, processes
no message and ends after at most four further answers. Its result is `resultWhenStopped`. -/
theorem stop_by_last_attempt {p : Profile} {before after : List (Stamped μ)} {now : Nat}
    {created : Except String Unit} {r : Run μ}
    (h : replay p (before ++ ⟨now, .create created⟩ :: after) = some r)
    (hstop : ∀ a ∈ after, a.answer.SeesStop) :
    (∀ m, .process m ∉ requests p (before ++ ⟨now, .create created⟩ :: after)) ∧
      after.length ≤ 4 ∧ (r.phase.result? = none → after.length < 4) ∧
      ∀ result, r.phase.result? = some result →
        result = resultWhenStopped p (attemptsIn before + 1) created
          (after.findSome? fun a => a.answer.refusal?) := by
  have hstop' : ∀ a ∈ after, a.answer.sample? ≠ some false :=
    fun a ha => Answer.sample?_ne_of_seesStop (hstop a ha)
  rw [replay_append] at h
  obtain ⟨r₀, hbefore, hfollow⟩ := Option.bind_eq_some_iff.mp h
  obtain ⟨s, hs, hafter⟩ := Option.bind_eq_some_iff.mp hfollow
  obtain ⟨turn, hturn, rfl⟩ := step_eq_some_iff.mp hs
  obtain ⟨attempt, hphase, rfl⟩ := Phase.creating_of_create hturn
  obtain ⟨n, hn, hleft⟩ := answersLeft?_afterCreate (μ := μ) p now attempt created
  obtain ⟨k, hk, hle⟩ := answersLeft?_of_follow hafter hleft hstop'
  have hacquiring : r₀.phase.IsAcquiring := by rw [hphase]; trivial
  refine ⟨?_, by omega, ?_, ?_⟩
  · intro m hm
    obtain ⟨pre, ⟨rest, hpre⟩, r', hr', hrequest⟩ := mem_requests.mp hm
    refine request_ne_process m ?_ hrequest
    -- The moment of the request is before or after the answer to the last attempt.
    rcases List.append_eq_append_iff.mp hpre with ⟨mid, hmid, -⟩ | ⟨mid, rfl, hmid⟩
    · left
      rw [hmid, replay_append, hr'] at hbefore
      exact isAcquiring_of_follow hbefore hacquiring
    · rw [replay_append, hbefore] at hr'
      cases mid with
      | nil =>
        obtain rfl := Option.some.inj hr'
        exact .inl hacquiring
      | cons a mid =>
        obtain ⟨rfl, rfl⟩ := List.cons.inj hmid
        right
        rw [Option.bind_some, follow_cons, hs, Option.bind_some] at hr'
        obtain ⟨k, hk, -⟩ := answersLeft?_of_follow hr' hleft
          fun b hb => hstop' b (List.mem_append_left _ hb)
        exact ⟨k, hk⟩
  · intro hnone
    have hpos : k ≠ 0 := by
      rintro rfl
      obtain ⟨result, hresult⟩ := Phase.result?_of_answersLeft? hk
      exact absurd (hnone.symm.trans hresult) (by simp)
    omega
  · intro result hresult
    cases created with
    | ok => exact result_of_consuming hafter rfl hstop' hresult
    | error cause =>
      have hattempted := attempted_replay hbefore hacquiring
      rw [hphase] at hattempted
      exact result_of_failed hafter rfl hattempted.1 hattempted.2 hstop' hresult

/-- A signal that was left to itself after a first attempt had failed: the second attempt succeeds,
a message waits, and the run ends well without it. -/
theorem stop_by_second_attempt :
    ∃ r : Run Delivery,
      replay ⟨"c", "script", .nackExit, 1, .zero⟩
        ([⟨0, .create (.error "DOWN")⟩, ⟨0, .wait false⟩] ++ ⟨1, .create (.ok ())⟩ ::
          [⟨1, .consume (.ok ())⟩, ⟨1, .poll ⟨true, .nothing, .item ⟨0, .given "a", .null⟩⟩⟩,
            ⟨1, .release⟩, ⟨1, .close (.ok ())⟩]) = some r ∧
        (∀ m : Delivery, .process m ∉ requests ⟨"c", "script", .nackExit, 1, .zero⟩
          ([⟨0, .create (.error "DOWN")⟩, ⟨0, .wait false⟩] ++ ⟨1, .create (.ok ())⟩ ::
            [⟨1, .consume (.ok ())⟩, ⟨1, .poll ⟨true, .nothing, .item ⟨0, .given "a", .null⟩⟩⟩,
              ⟨1, .release⟩, ⟨1, .close (.ok ())⟩])) ∧
        r.phase.result? = some (.ok ()) := by
  obtain ⟨r, hr, result, hresult⟩ : ∃ r : Run Delivery,
      replay ⟨"c", "script", .nackExit, 1, .zero⟩
        ([⟨0, .create (.error "DOWN")⟩, ⟨0, .wait false⟩] ++ ⟨1, .create (.ok ())⟩ ::
          [⟨1, .consume (.ok ())⟩, ⟨1, .poll ⟨true, .nothing, .item ⟨0, .given "a", .null⟩⟩⟩,
            ⟨1, .release⟩, ⟨1, .close (.ok ())⟩]) = some r ∧
        ∃ result, r.phase.result? = some result := ⟨_, rfl, _, rfl⟩
  have hstop : ∀ a ∈ ([⟨1, .consume (.ok ())⟩,
      ⟨1, .poll ⟨true, .nothing, .item ⟨0, .given "a", .null⟩⟩⟩, ⟨1, .release⟩,
      ⟨1, .close (.ok ())⟩] : List (Stamped Delivery)), a.answer.SeesStop := by
    intro a ha stop hsample
    simp only [List.mem_cons, List.not_mem_nil, or_false] at ha
    rcases ha with rfl | rfl | rfl | rfl <;> cases hsample
    exact ⟨⟨0⟩, (Signal.ofBool false).abandon, rfl, rfl⟩
  obtain ⟨hprocess, -, -, hend⟩ := stop_by_last_attempt hr hstop
  obtain rfl := hend result hresult
  exact ⟨r, hr, hprocess, hresult⟩

/-- A run without retries that is asked to stop before it starts, where it should end well: its only
attempt fails, the signal is not looked at after it, and the run fails with it. -/
theorem acquisition_fails_after_stop :
    ((Rehearsal.ofScript ⟨"c", "script", .nackExit, 0, .zero⟩ [{ fault := some "DOWN" }]
      []).playRuns (.ofBool true) 60000 100 1).2.map (fun report => report.result) =
        [some (.error (.acquisition 1 "DOWN"))] :=
  rfl

end Run

end Courier
