import Courier.Proofs.Run.KeptOpen

/-!
# A consumer that drops its error stream

A run whose consumer drops the sender of its errors is compared with the run whose consumer keeps it
and is silent. They run alike (`RunsAlike`): they make the same calls at the same times, have the
same result, and differ in one notice. `replay_keepSender` makes the second run out of the first,
and `replay_dropSender` the first out of the second, for a drop at any moment after the last error.

The errors that were there before the drop come first on the stream, so the run still gets to see
them (`outcome?_of_errors`). If the messages come to their end as well, the run looks around once
for each message that is left, once for the end of each stream, and no more (`looks_le`).
-/

namespace Courier

variable {μ : Type}

/-! ## Whole runs -/

/-- What a run asks for upon an answer, and when, if it is not another look around. -/
def Exchange.demand? [Identified μ] (p : Profile) (x : Exchange μ) : Option (Nat × Request μ) :=
  (x.phase.step p x.stamped.now x.answer).bind fun turn =>
    match turn.phase.request p with
    | none | some .poll => none
    | some request => some (x.stamped.now, request)

namespace Run

variable [Identified μ] {p : Profile} {r s : Run μ} {history before after : List (Stamped μ)}

/-- What a run asks its collaborators for from now on, and when. -/
def demandsFrom (p : Profile) (r : Run μ) (history : List (Stamped μ)) : List (Nat × Request μ) :=
  (exchangesFrom p r history).filterMap (Exchange.demand? p)

/-- What a run that began at the time `start` has asked its collaborators for, and when. -/
def demands (p : Profile) (start : Nat) (history : List (Stamped μ)) : List (Nat × Request μ) :=
  (start, .create) :: demandsFrom p (Run.start p) history

/-- Whether a run whose consumer has dropped the sender of its errors goes like one whose consumer
has kept it. -/
structure RunsAlike (p : Profile) (dropped kept : List (Stamped μ)) (r s : Run μ) : Prop where
  /-- They ask their collaborators for the same, in the same order and at the same times. -/
  demands : ∀ start, demands p start dropped = demands p start kept
  /-- They are answered alike, at the same times. -/
  answers : unlooked dropped = unlooked kept
  /-- They stand alike, but for what is known of the error stream. -/
  phase : s.phase = r.phase.reopened
  /-- They have the same result. -/
  result : s.phase.result? = r.phase.result?
  /-- They count the same. -/
  marks : s.marks = r.marks
  /-- They log the same but for the end of the error stream. -/
  notices : s.notices = r.notices.filter fun n => !n.isErrorsEnded
  /-- That is logged once at the most. -/
  once : r.notices.countP Notice.isErrorsEnded ≤ 1
  /-- It costs one look around at the most. -/
  looks : kept.length ≤ dropped.length ∧ dropped.length ≤ kept.length + 1

theorem demandsFrom_cons {a : Stamped μ} (h : r.step p a = some s) :
    demandsFrom p r (a :: history) =
      ((⟨r.phase, a⟩ : Exchange μ).demand? p).toList ++ demandsFrom p s history := by
  rw [demandsFrom, exchangesFrom_cons h, List.filterMap_cons]
  cases (⟨r.phase, a⟩ : Exchange μ).demand? p <;> rfl

/-- What a run asks for does not depend on what it knows of the error stream. -/
theorem demand?_withSender {a : Stamped μ}
    (hended : r.phase = .polling true → a.answer.errorsSeen? ≠ some .ended)
    (hsilent : r.phase = .polling false → ∀ cause, a.answer.errorsSeen? ≠ some (.item cause)) :
    (⟨r.withSender.phase, a.mapErrors .keepSender⟩ : Exchange μ).demand? p =
      (⟨r.phase, a⟩ : Exchange μ).demand? p := by
  have hstep : r.withSender.phase.step p a.now (a.answer.mapErrors .keepSender) =
      (r.phase.step p a.now a.answer).map Turn.withSender := Phase.step_reopened hended hsilent
  simp only [Exchange.demand?, Exchange.answer, Stamped.mapErrors, hstep, Option.bind_map]
  congr 1
  funext turn
  simp only [Function.comp_apply, Turn.withSender, Phase.request_reopened]

theorem step_withSender {a : Stamped μ}
    (hended : r.phase = .polling true → a.answer.errorsSeen? ≠ some .ended)
    (hsilent : r.phase = .polling false → ∀ cause, a.answer.errorsSeen? ≠ some (.item cause)) :
    r.withSender.step p (a.mapErrors .keepSender) = (r.step p a).map withSender := by
  have hstep : r.withSender.phase.step p a.now (a.answer.mapErrors .keepSender) =
      (r.phase.step p a.now a.answer).map Turn.withSender := Phase.step_reopened hended hsilent
  rw [Run.step, Run.step, Stamped.mapErrors, hstep, Option.map_map, Option.map_map]
  congr 1
  funext turn
  exact (withSender_take r turn).symm

/-- The run after a look that notes the end of the error stream. -/
def noted (r : Run μ) : Run μ := r.take { phase := .polling false, notices := [.errorsEnded] }

omit [Identified μ] in
theorem ignoresErrors_noted (r : Run μ) : r.noted.phase.IgnoresErrors := .inl rfl

omit [Identified μ] in
/-- A look that notes the end of the error stream changes nothing else. -/
theorem withSender_noted (hpolling : r.phase = .polling true) :
    r.noted.withSender = r.withSender := by
  rw [noted, withSender_take, Run.take, Run.withSender, hpolling]
  simp [Turn.withSender, Phase.reopened, Notice.isErrorsEnded]

/-- A run that can note the end of its error stream does so when it looks around and sees it. -/
theorem step_of_errorsSeen?_ended {a : Stamped μ} (h : r.step p a = some s)
    (hhears : ¬ r.phase.KnowsEnd) (hended : a.answer.errorsSeen? = some .ended) :
    r.phase = .polling true ∧ s = r.noted := by
  obtain ⟨turn, hturn, rfl⟩ := step_eq_some_iff.mp h
  obtain ⟨view, ha, -⟩ := Answer.errorsSeen?_eq_some.mp hended
  obtain ⟨errorsOpen, hpolling, -⟩ := Phase.polling_of_poll (ha ▸ hturn)
  rw [hpolling] at hhears
  obtain rfl : errorsOpen = true := Bool.eq_true_of_not_eq_false hhears
  rw [hpolling, Phase.step_polling_ended hended] at hturn
  exact ⟨hpolling, congrArg r.take (Option.some.inj hturn).symm⟩

/-- A run that does not look at its error stream goes on as one whose error stream is silent. -/
theorem follow_map_keepSender (hignores : r.phase.IgnoresErrors)
    (hsilent : ∀ a ∈ history, ∀ cause, a.answer.errorsSeen? ≠ some (.item cause)) :
    follow p r.withSender (history.map (Stamped.mapErrors .keepSender)) =
      (follow p r history).map withSender := by
  induction history generalizing r with
  | nil => rfl
  | cons a history ih =>
    have hended : r.phase = .polling true → a.answer.errorsSeen? ≠ some .ended := fun hpolling =>
      absurd (hpolling ▸ hignores) Phase.not_ignoresErrors_polling
    rw [List.map_cons, follow_cons, follow_cons,
      step_withSender hended fun _ => hsilent a (List.mem_cons_self ..)]
    cases hs : r.step p a with
    | none => rfl
    | some s =>
      obtain ⟨turn, hturn, rfl⟩ := step_eq_some_iff.mp hs
      exact ih (Phase.ignoresErrors_of_step hturn hignores) fun b hb =>
        hsilent b (List.mem_cons_of_mem a hb)

/-- It asks for the same, too. -/
theorem demandsFrom_map_keepSender (h : follow p r history = some s)
    (hignores : r.phase.IgnoresErrors)
    (hsilent : ∀ a ∈ history, ∀ cause, a.answer.errorsSeen? ≠ some (.item cause)) :
    demandsFrom p r.withSender (history.map (Stamped.mapErrors .keepSender)) =
      demandsFrom p r history := by
  induction history generalizing r with
  | nil => rfl
  | cons a history ih =>
    have hended : r.phase = .polling true → a.answer.errorsSeen? ≠ some .ended := fun hpolling =>
      absurd (hpolling ▸ hignores) Phase.not_ignoresErrors_polling
    have ha : r.phase = .polling false → ∀ cause, a.answer.errorsSeen? ≠ some (.item cause) :=
      fun _ => hsilent a (List.mem_cons_self ..)
    obtain ⟨t, ht, hrest⟩ := Option.bind_eq_some_iff.mp h
    obtain ⟨turn, hturn, rfl⟩ := step_eq_some_iff.mp ht
    have hstep : r.withSender.step p (a.mapErrors .keepSender) = some (r.take turn).withSender := by
      rw [step_withSender hended ha, ht, Option.map_some]
    rw [List.map_cons, demandsFrom_cons hstep, demandsFrom_cons ht, demand?_withSender hended ha,
      ih hrest (Phase.ignoresErrors_of_step hturn hignores) fun b hb =>
        hsilent b (List.mem_cons_of_mem a hb)]

/-- A run whose consumer drops the sender of its errors goes like the one whose consumer keeps
it. -/
theorem follow_keepSender (h : follow p r history = some s) (hhears : ¬ r.phase.KnowsEnd)
    (hstays : StaysEnded history) :
    follow p r.withSender (keepSender history) = some s.withSender ∧
      demandsFrom p r.withSender (keepSender history) = demandsFrom p r history := by
  induction history generalizing r with
  | nil =>
    obtain rfl := Option.some.inj h
    exact ⟨rfl, rfl⟩
  | cons a history ih =>
    obtain ⟨hlater, hrest⟩ := List.pairwise_cons.mp hstays
    obtain ⟨t, ht, hfollow⟩ := Option.bind_eq_some_iff.mp h
    rw [keepSender]
    split
    · next hended =>
      -- The look notes the end, and nothing else comes of it.
      obtain ⟨hpolling, rfl⟩ := step_of_errorsSeen?_ended ht hhears hended
      have hsilent : ∀ b ∈ history, ∀ cause, b.answer.errorsSeen? ≠ some (.item cause) :=
        fun b hb cause hitem => by
          cases hlater b hb (Answer.errors?_of_errorsSeen? hended) _
            (Answer.errors?_of_errorsSeen? hitem)
      have hdemand : (⟨r.phase, a⟩ : Exchange μ).demand? p = none := by
        simp only [Exchange.demand?, Exchange.answer, hpolling, Phase.step_polling_ended hended]
        rfl
      have hgo : follow p r.noted.withSender (history.map (Stamped.mapErrors .keepSender)) =
          (follow p r.noted history).map withSender :=
            follow_map_keepSender r.ignoresErrors_noted hsilent
      have hdemands := demandsFrom_map_keepSender hfollow r.ignoresErrors_noted hsilent
      rw [withSender_noted hpolling] at hgo hdemands
      rw [demandsFrom_cons ht, hdemand, hgo, hdemands, follow, hfollow]
      exact ⟨rfl, rfl⟩
    · next hended =>
      obtain ⟨turn, hturn, rfl⟩ := step_eq_some_iff.mp ht
      have hsilent :
          r.phase = .polling false → ∀ cause, a.answer.errorsSeen? ≠ some (.item cause) :=
        fun hpolling => absurd (by rw [hpolling]; rfl) hhears
      have hstep :
          r.withSender.step p (a.mapErrors .keepSender) = some (r.take turn).withSender := by
        rw [step_withSender (fun _ => hended) hsilent, ht, Option.map_some]
      have hhears' : ¬ turn.phase.KnowsEnd := fun hknows =>
        (Phase.errorsSeen?_of_knowsEnd hturn hknows).elim hhears hended
      obtain ⟨hgo, hdemands⟩ := ih hfollow hhears' hrest
      rw [follow_cons, hstep, demandsFrom_cons hstep, demandsFrom_cons ht,
        demand?_withSender (fun _ => hended) hsilent, hdemands]
      exact ⟨hgo, rfl⟩

/-- A run whose consumer keeps the sender of its errors is not changed by that. -/
theorem follow_withSender (h : follow p r history = some s) (hhears : ¬ r.phase.KnowsEnd)
    (hopen : KeptOpen history) : follow p r.withSender history = some s.withSender := by
  have hself : keepSender history = history := by
    rw [← List.append_nil history, hopen.keepSender_append]
    rfl
  have hgo := (follow_keepSender h hhears hopen.staysEnded).1
  rwa [hself] at hgo

/-- If a run goes on with the sender kept, it goes on with the sender dropped. -/
theorem exists_follow_dropSender (h : follow p r history = some s) (hhears : ¬ r.phase.KnowsEnd)
    (hopen : KeptOpen history) (hsilent : FallsSilent history) :
    ∃ s', follow p r (dropSender history) = some s' := by
  induction history generalizing r with
  | nil => exact ⟨r, rfl⟩
  | cons a history ih =>
    obtain ⟨hlater, hrest⟩ := List.pairwise_cons.mp hsilent
    obtain ⟨ha, hopen'⟩ := List.forall_mem_cons.mp hopen
    obtain ⟨t, ht, hfollow⟩ := Option.bind_eq_some_iff.mp h
    rw [dropSender]
    split
    · next hnothing =>
      have hended : (a.mapErrors .dropSender).answer.errorsSeen? = some .ended := by
        rw [Stamped.mapErrors, Answer.errorsSeen?_mapErrors, hnothing]
        rfl
      have hpolling : r.phase = .polling true := by
        obtain ⟨turn, hturn, rfl⟩ := step_eq_some_iff.mp ht
        obtain ⟨view, hview, -⟩ := Answer.errorsSeen?_eq_some.mp hnothing
        obtain ⟨errorsOpen, hpolling, -⟩ := Phase.polling_of_poll (hview ▸ hturn)
        rw [hpolling] at hhears
        obtain rfl : errorsOpen = true := Bool.eq_true_of_not_eq_false hhears
        exact hpolling
      have hnoted : r.step p (a.mapErrors .dropSender) = some r.noted := by
        rw [Run.step, hpolling, Phase.step_polling_ended hended, Option.map_some, noted]
      -- After the look that notes the end, the run goes on as it does with the sender kept.
      have hnone : ∀ b ∈ (a :: history).map (Stamped.mapErrors .dropSender), ∀ cause,
          b.answer.errorsSeen? ≠ some (.item cause) := by
        intro b hb cause hitem
        obtain ⟨c, hc, rfl⟩ := List.mem_map.mp hb
        obtain ⟨offer, hoffer, hdropped⟩ := Option.map_eq_some_iff.mp
          ((Answer.errorsSeen?_mapErrors ..).symm.trans hitem)
        have hcause : offer = .item cause := by cases offer <;> simp_all [Offer.dropSender]
        rcases List.mem_cons.mp hc with rfl | hc
        · rw [hnothing, hcause] at hoffer
          cases hoffer
        · exact hlater c hc (Answer.errors?_of_errorsSeen? hnothing) cause
            (Answer.errors?_of_errorsSeen? (hcause ▸ hoffer))
      have hgo :
          follow p r.noted.withSender (((a :: history).map (Stamped.mapErrors .dropSender)).map _) =
          (follow p r.noted ((a :: history).map (Stamped.mapErrors .dropSender))).map withSender :=
        follow_map_keepSender r.ignoresErrors_noted hnone
      rw [hopen.map_keepSender_dropSender, withSender_noted hpolling,
        follow_withSender h hhears hopen] at hgo
      obtain ⟨s', hs', -⟩ := Option.map_eq_some_iff.mp hgo.symm
      exact ⟨s', by rw [follow_cons, hnoted]; exact hs'⟩
    · next hnothing =>
      have hstep : r.step p (a.mapErrors .dropSender) = some t := by
        rw [← ht]
        exact congrArg (Option.map r.take) (Phase.step_dropped hnothing)
      obtain ⟨turn, hturn, rfl⟩ := step_eq_some_iff.mp ht
      have hhears' : ¬ turn.phase.KnowsEnd := fun hknows =>
        (Phase.errorsSeen?_of_knowsEnd hturn hknows).elim hhears fun hended =>
          ha (Answer.errors?_of_errorsSeen? hended)
      obtain ⟨s', hs'⟩ := ih hfollow hhears' hopen' hrest
      exact ⟨s', by rw [follow_cons, hstep]; exact hs'⟩

/-- The end of the error stream is noted once at the most. -/
theorem countP_isErrorsEnded_le (h : follow p r history = some s) :
    s.notices.countP Notice.isErrorsEnded ≤ r.notices.countP Notice.isErrorsEnded + 1 ∧
      (r.phase.IgnoresErrors →
        s.notices.countP Notice.isErrorsEnded = r.notices.countP Notice.isErrorsEnded) := by
  induction history generalizing r with
  | nil =>
    obtain rfl := Option.some.inj h
    exact ⟨Nat.le_succ _, fun _ => rfl⟩
  | cons a history ih =>
    obtain ⟨t, ht, hfollow⟩ := Option.bind_eq_some_iff.mp h
    obtain ⟨turn, hturn, rfl⟩ := step_eq_some_iff.mp ht
    obtain ⟨hle, hignores⟩ := ih hfollow
    have hnotices : (r.take turn).notices.countP Notice.isErrorsEnded =
        r.notices.countP Notice.isErrorsEnded + turn.notices.countP Notice.isErrorsEnded :=
      List.countP_append
    by_cases hnone : ∀ n ∈ turn.notices, ¬ n.isErrorsEnded = true
    · rw [List.countP_eq_zero.mpr hnone, Nat.add_zero] at hnotices
      rw [hnotices] at hle hignores
      exact ⟨hle, fun hr => hignores (Phase.ignoresErrors_of_step hturn hr)⟩
    · obtain ⟨n, hn, hended⟩ : ∃ n ∈ turn.notices, n.isErrorsEnded = true := by simpa using hnone
      obtain ⟨hpolling, hseen⟩ := Phase.errorsSeen?_of_isErrorsEnded hturn hn hended
      rw [hpolling, Phase.step_polling_ended hseen] at hturn
      obtain rfl := Option.some.inj hturn
      rw [hignores (.inl rfl), hnotices]
      exact ⟨Nat.le_refl _, fun hr => absurd (hpolling ▸ hr) Phase.not_ignoresErrors_polling⟩

/-- A run whose consumer drops the sender of its errors goes like the one whose consumer keeps
it. -/
theorem replay_keepSender (h : replay p history = some r) (hstays : StaysEnded history) :
    ∃ s, replay p (keepSender history) = some s ∧ RunsAlike p history (keepSender history) r s := by
  obtain ⟨hgo, hdemands⟩ := follow_keepSender h (r := start p) nofun hstays
  refine ⟨r.withSender, hgo, ?_⟩
  constructor
  case demands =>
    intro start
    exact congrArg (List.cons _) hdemands.symm
  case answers => exact (unlooked_keepSender history).symm
  case phase => rfl
  case result => exact r.phase.result?_reopened
  case marks => rfl
  case notices => rfl
  case once => exact (countP_isErrorsEnded_le h).1
  case looks => exact ⟨length_keepSender_le history, length_le_length_keepSender history⟩

/-- If the sender is dropped at any moment after its last error, the run goes on as it does if the
sender is kept. -/
theorem replay_dropSender (h : replay p (before ++ after) = some s)
    (hopen : KeptOpen (before ++ after)) (hsilent : FallsSilent after) :
    ∃ r, replay p (before ++ dropSender after) = some r ∧
      RunsAlike p (before ++ dropSender after) (before ++ after) r s := by
  have hbefore : KeptOpen before := fun a ha => hopen a (List.mem_append_left _ ha)
  have hafter : KeptOpen after := fun a ha => hopen a (List.mem_append_right _ ha)
  rw [replay_append] at h
  obtain ⟨t, ht, hfollow⟩ := Option.bind_eq_some_iff.mp h
  have hhears : ¬ t.phase.KnowsEnd := by
    refine follow_induction (P := fun r => ¬ r.phase.KnowsEnd) ht nofun fun a ha u u' hu hstep => ?_
    obtain ⟨turn, hturn, rfl⟩ := step_eq_some_iff.mp hstep
    exact fun hknows => (Phase.errorsSeen?_of_knowsEnd hturn hknows).elim hu fun hended =>
      hbefore a ha (Answer.errors?_of_errorsSeen? hended)
  obtain ⟨r, hr⟩ := exists_follow_dropSender hfollow hhears hafter hsilent
  have hreplay : replay p (before ++ dropSender after) = some r := by
    rw [replay_append, ht]
    exact hr
  have hback : keepSender (before ++ dropSender after) = before ++ after := by
    rw [hbefore.keepSender_append, hafter.keepSender_dropSender]
  have hstays := hbefore.staysEnded_append (hafter.staysEnded_dropSender hsilent)
  obtain ⟨s', hs', halike⟩ := replay_keepSender hreplay hstays
  rw [hback] at hs' halike
  rw [replay_append, ht] at hs'
  obtain rfl := Option.some.inj (hfollow.symm.trans hs')
  exact ⟨r, hreplay, halike⟩

/-- An error that was there before the drop comes before the end of the stream: a run that gets to
know anything of the stream by a look ends with it. -/
theorem outcome?_of_errors {u : Surroundings μ} (h : replay p history = some r)
    (hu : u.Informs (exchanges p history)) {cause : String} (hcause : u.errors.head? = some cause)
    {x : Exchange μ} (hx : x ∈ exchanges p history) {offer : Offer String}
    (hlook : x.answer.errorsSeen? = some offer) (hoffer : offer ≠ .nothing) :
    r.phase.outcome? = some (.error (.transport cause)) := by
  obtain ⟨view, hview, hstop, rfl⟩ := Answer.errorsSeen?_eq_some.mp hlook
  obtain ⟨before, after, hcut⟩ := List.append_of_mem hx
  have hheads := heads_errors h hu hcut hview
  have herrors : view.errors = .item cause := by
    cases hviewErrors : view.errors with
    | nothing => exact absurd hviewErrors hoffer
    | ended =>
      rw [hviewErrors] at hheads
      cases (congrArg List.head? hheads).symm.trans hcause
    | item c =>
      rw [hviewErrors] at hheads
      rw [Option.some.inj (hheads.symm.trans hcause)]
  have hsignal : (u.signal before.length).isStop = false :=
    ((hu before x after hcut).sample (congrArg Answer.sample? hview)).trans hstop
  obtain ⟨y, hy, hdecides⟩ :=
    (metError_iff h hu).mp ⟨hcause, before, x, after, view, hcut, hview, herrors, hsignal⟩
  exact outcome?_of_decides h hy hdecides

end Run

/-! ## The last looks -/

/-- How many looks a run in a phase has made that had no message for it, since both streams came to
their ends. -/
def Phase.spent : Phase μ → Nat
  | .polling errorsOpen | .processing errorsOpen .. | .settling errorsOpen .. =>
    if errorsOpen then 0 else 1
  | .releasing _ | .closing _ | .stopped _ => 2
  | .creating _ | .retrying .. | .consuming => 0

theorem Phase.spent_le_two (phase : Phase μ) : phase.spent ≤ 2 := by
  cases phase <;> simp only [spent] <;> first | split <;> omega | omega

theorem Phase.spent_le_one {phase : Phase μ} (h : phase.outcome? = none) : phase.spent ≤ 1 := by
  cases phase with
  | releasing | closing | stopped => cases h
  | polling errorsOpen | processing errorsOpen | settling errorsOpen =>
    simp only [spent]
    split <;> omega
  | creating | retrying | consuming => exact Nat.zero_le _

/-- Whether both streams are seen at their ends, or with something on them, in every look. -/
def BothDropped (history : List (Stamped μ)) : Prop :=
  ∀ a ∈ history, ∀ view, a.answer = .poll view → view.errors ≠ .nothing ∧ view.messages ≠ .nothing

variable [Identified μ]

/-- Every look is for a message, or for the end of a stream, or the last one. -/
theorem Phase.look_of_step {p : Profile} {phase : Phase μ} {a : Stamped μ} {turn : Turn μ}
    (h : phase.step p a.now a.answer = some turn)
    (hdropped : ∀ view, a.answer = .poll view → view.errors ≠ .nothing ∧ view.messages ≠ .nothing) :
    (if a.answer.isLook then 1 else 0) + phase.spent ≤
      ((⟨phase, a⟩ : Exchange μ).received?.toList).length + turn.phase.spent := by
  obtain ⟨now, answer⟩ := a
  have hstepsTo := stepsTo_of_step h
  cases hstepsTo
  case idled errorsOpen view hpick =>
    exact absurd (View.pick_eq_none.mp hpick).2.1 (hdropped view rfl).2
  case received errorsOpen view m hpick =>
    have hreceived :
        (⟨.polling errorsOpen, ⟨now, .poll view⟩⟩ : Exchange μ).received? = some m := by
      simp only [Exchange.received?, Exchange.answer, hpick]
    rw [hreceived]
    exact Nat.le_refl _
  case reassured errorsOpen view hpick =>
    obtain ⟨-, rfl, -⟩ := View.pick_eq_errorsEnded.mp hpick
    exact Nat.le_add_left ..
  case interrupted errorsOpen _ _ | alerted errorsOpen _ _ _ | ranOut errorsOpen _ _ =>
    cases errorsOpen <;> simp [Answer.isLook, spent]
  all_goals simp [Answer.isLook, spent] <;> split <;> omega

namespace Run

variable {p : Profile} {r s : Run μ} {history before after : List (Stamped μ)}

/-- Once both streams have come to their ends, a run looks around once for each message that it
receives, and as often as its phase says besides. -/
theorem looksIn_le (h : follow p r history = some s) (hdropped : BothDropped history) :
    looksIn history + r.phase.spent ≤
      (received (exchangesFrom p r history)).length + s.phase.spent := by
  induction history generalizing r with
  | nil =>
    obtain rfl := Option.some.inj h
    simp [looksIn]
  | cons a history ih =>
    obtain ⟨t, ht, hfollow⟩ := Option.bind_eq_some_iff.mp h
    obtain ⟨turn, hturn, rfl⟩ := step_eq_some_iff.mp ht
    obtain ⟨ha, hrest⟩ := List.forall_mem_cons.mp hdropped
    have hone := Phase.look_of_step hturn ha
    have hlater : looksIn history + turn.phase.spent ≤ _ := ih hfollow hrest
    have hlooks : looksIn (a :: history) = looksIn history + if a.answer.isLook then 1 else 0 :=
      List.countP_cons
    have hreceived : (received (exchangesFrom p r (a :: history))).length =
        ((⟨r.phase, a⟩ : Exchange μ).received?.toList).length +
          (received (exchangesFrom p (r.take turn) history)).length := by
      rw [exchangesFrom_cons ht, ← List.singleton_append, received, List.filterMap_append,
        List.length_append, ← List.nil_append [_], filterMap_concat]
      rfl
    omega

/-- With `n` messages on its stream, a run whose streams have both come to their ends looks around
`n + 2` times at the most, counting those before for the messages that it received. Until the last
of them it may have no outcome. -/
theorem looks_le {u : Surroundings μ} (h : replay p (before ++ after) = some r)
    (hu : u.Informs (exchanges p (before ++ after))) (hdropped : BothDropped after) :
    looksIn after + (received (exchanges p before)).length ≤ u.messages.length + 2 ∧
      (r.phase.outcome? = none →
        looksIn after + (received (exchanges p before)).length ≤ u.messages.length + 1) := by
  have hprefix := hu.received_prefix.length_le
  rw [replay_append] at h
  obtain ⟨t, ht, hfollow⟩ := Option.bind_eq_some_iff.mp h
  have hcut : exchanges p (before ++ after) = exchanges p before ++ exchangesFrom p t after :=
    exchangesFrom_append ht
  rw [hcut, received, List.filterMap_append, List.length_append] at hprefix
  have hlooks : looksIn after + t.phase.spent ≤
      ((exchangesFrom p t after).filterMap Exchange.received?).length + r.phase.spent :=
    looksIn_le hfollow hdropped
  have hreceived : (received (exchanges p before)).length =
      ((exchanges p before).filterMap Exchange.received?).length := rfl
  have htwo := r.phase.spent_le_two
  refine ⟨by omega, fun hnone => ?_⟩
  have hone := Phase.spent_le_one hnone
  omega

/-- The end of the error stream does no harm. If a run goes on with the sender of the errors kept,
it goes on with the sender dropped at any moment after the last error, and the other way round: in
both it makes the same calls at the same times, with the same result, and the log differs in one
notice. An error that was there before the drop still ends the run. With `n` messages and both
senders dropped, there are `n + 2` looks around at the most, and by the last of them the run has its
outcome. -/
theorem errors_end_is_harmless (p : Profile) :
    (∀ (before after : List (Stamped μ)) (s : Run μ), replay p (before ++ after) = some s →
      KeptOpen (before ++ after) → FallsSilent after →
      ∃ r, replay p (before ++ dropSender after) = some r ∧
        RunsAlike p (before ++ dropSender after) (before ++ after) r s) ∧
    (∀ (history : List (Stamped μ)) (r : Run μ), replay p history = some r → StaysEnded history →
      ∃ s, replay p (keepSender history) = some s ∧ KeptOpen (keepSender history) ∧
        RunsAlike p history (keepSender history) r s) ∧
    (∀ (history : List (Stamped μ)) (r : Run μ) (u : Surroundings μ) (cause : String),
      replay p history = some r → u.Informs (exchanges p history) → u.errors.head? = some cause →
      (∃ x ∈ exchanges p history, ∃ offer, x.answer.errorsSeen? = some offer ∧ offer ≠ .nothing) →
      r.phase.outcome? = some (.error (.transport cause))) ∧
    ∀ (before after : List (Stamped μ)) (r : Run μ) (u : Surroundings μ),
      replay p (before ++ after) = some r → u.Informs (exchanges p (before ++ after)) →
      BothDropped after →
      looksIn after + (received (exchanges p before)).length ≤ u.messages.length + 2 ∧
        (r.phase.outcome? = none →
          looksIn after + (received (exchanges p before)).length ≤ u.messages.length + 1) := by
  refine ⟨fun _ _ _ => replay_dropSender, ?_, ?_, fun _ _ _ _ => looks_le⟩
  · intro history r h hstays
    obtain ⟨s, hs, halike⟩ := replay_keepSender h hstays
    exact ⟨s, hs, keptOpen_keepSender history, halike⟩
  · rintro history r u cause h hu hcause ⟨x, hx, offer, hlook, hoffer⟩
    exact outcome?_of_errors h hu hcause hx hlook hoffer

/-- The sender of the errors is dropped while a message is in process, and that of the messages
after the next one: the run makes four looks for two messages, and fails as it does with the first
sender kept. Where an error was there before the drop, the run ends with it. -/
theorem dropped_while_processing :
    let p : Profile := ⟨"c", "script", .nack, 0, .zero⟩
    let a : Delivery := ⟨0, .given "a", .null⟩
    let b : Delivery := ⟨1, .given "b", .null⟩
    let before : List (Stamped Delivery) :=
      [⟨0, .create (.ok ())⟩, ⟨0, .consume (.ok ())⟩, ⟨0, .poll ⟨false, .nothing, .item a⟩⟩]
    let after : List (Stamped Delivery) :=
      [⟨5, .process (.ok ())⟩, ⟨5, .settle (.ok ())⟩, ⟨6, .poll ⟨false, .nothing, .item b⟩⟩,
        ⟨7, .process (.error "PROC ERROR")⟩, ⟨7, .settle (.ok ())⟩,
        ⟨8, .poll ⟨false, .nothing, .ended⟩⟩, ⟨8, .release⟩, ⟨8, .close (.ok ())⟩]
    let late : List (Stamped Delivery) :=
      [⟨0, .create (.ok ())⟩, ⟨0, .consume (.ok ())⟩, ⟨0, .poll ⟨false, .item "DOWN", .item a⟩⟩]
    (∃ r s : Run Delivery, replay p (before ++ dropSender after) = some r ∧
      replay p (before ++ after) = some s ∧ s.phase.result? = some (.error .streamClosed) ∧
      RunsAlike p (before ++ dropSender after) (before ++ after) r s ∧
      looksIn (dropSender after) + (received (exchanges p before)).length = 4 ∧
      looksIn (dropSender after) + (received (exchanges p before)).length ≤ 2 + 2) ∧
    (∃ r s : Run Delivery, replay p (before ++ dropSender after) = some r ∧
      replay p (keepSender (before ++ dropSender after)) = some s ∧
      RunsAlike p (before ++ dropSender after) (keepSender (before ++ dropSender after)) r s) ∧
    ∃ r : Run Delivery, replay p late = some r ∧
      r.phase.outcome? = some (.error (.transport "DOWN")) := by
  intro p a b before after late
  obtain ⟨hdrop, hkeep, herror, hlooks⟩ := @errors_end_is_harmless Delivery _ p
  have hopen : KeptOpen (before ++ after) := by simp [KeptOpen, before, after, Answer.errors?]
  have hsilent : FallsSilent after := by simp [FallsSilent, after, Answer.errors?]
  obtain ⟨r, hr, halike⟩ := hdrop before after _ rfl hopen hsilent
  refine ⟨⟨r, _, hr, rfl, rfl, halike, rfl, ?looks⟩, ?kept, _, rfl, ?reported⟩
  case looks =>
    have hboth : BothDropped (dropSender after) := by
      simp [BothDropped, after, dropSender, Answer.errorsSeen?, Stamped.mapErrors, Answer.mapErrors,
        Offer.dropSender]
    refine (hlooks before (dropSender after) r ⟨[a, b], [], fun _ => .ofBool false⟩ hr ?_ hboth).1
    refine Surroundings.informs_of_getElem fun i hi => ?_
    replace hi : i < 12 := hi
    interval_cases i
    case «2» => exact .of_look rfl trivial rfl
    case «5» | «6» | «9» => exact .of_look rfl rfl rfl
    all_goals exact .of_sample? rfl
  case kept =>
    have hbefore : KeptOpen before := fun x hx => hopen x (List.mem_append_left _ hx)
    have hafter : KeptOpen after := fun x hx => hopen x (List.mem_append_right _ hx)
    obtain ⟨s, hs, -, halike'⟩ := hkeep (before ++ dropSender after) r hr
      (hbefore.staysEnded_append (hafter.staysEnded_dropSender hsilent))
    exact ⟨r, s, hr, hs, halike'⟩
  case reported =>
    refine herror late _ ⟨[a], ["DOWN"], fun _ => .ofBool false⟩ "DOWN" rfl ?_ rfl
      ⟨_, List.mem_of_getElem? (i := 2) rfl, _, rfl, by simp⟩
    refine Surroundings.informs_of_getElem fun i hi => ?_
    replace hi : i < 3 := hi
    interval_cases i
    case «2» => exact .of_look rfl rfl rfl
    all_goals exact .of_sample? rfl

end Run

end Courier
