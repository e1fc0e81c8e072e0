import Courier.Proofs.Run.Outcome
import Courier.Proofs.Run.Transition

/-!
# Histories in which the error stream comes to its end

A consumer may drop the sender of its errors at any moment and go on with its messages. A run notes
this when it looks around, and does not look at that stream again. The same history with the sender
kept is one in which the error stream is silent.

`keepSender` makes the second history out of the first: the look that noted the end is left out, and
the others show an error stream with nothing on it. `dropSender` goes the other way: the first look
after the drop that finds no error finds the end of the stream instead, and the run looks again at
once. Keeping the sender undoes the drop (`KeptOpen.keepSender_dropSender`).

A phase says whether the run still looks at the error stream. `Phase.step_reopened` compares one
answer to a run that does not with the answer of a kept sender to one that does: both take the run
on in the same way.
-/

namespace Courier

variable {μ : Type}

/-! ## Histories with and without the end of the error stream -/

/-- Whether a notice is of the end of the error stream. -/
def Notice.isErrorsEnded : Notice → Bool
  | .errorsEnded => true
  | _ => false

namespace Offer

variable {α : Type}

/-- What a stream has to offer if its sender is kept. -/
def keepSender : Offer α → Offer α
  | .ended => .nothing
  | offer => offer

/-- What a stream has to offer if its sender is gone. -/
def dropSender : Offer α → Offer α
  | .nothing => .ended
  | offer => offer

theorem keepSender_of_ne {offer : Offer α} (h : offer ≠ .ended) : offer.keepSender = offer := by
  cases offer with
  | ended => exact absurd rfl h
  | _ => rfl

theorem keepSender_dropSender {offer : Offer α} (h : offer ≠ .ended) :
    offer.dropSender.keepSender = offer := by
  cases offer with
  | ended => exact absurd rfl h
  | _ => rfl

end Offer

namespace Answer

/-- The answer with another offer of errors, if it is a look around. -/
def mapErrors (f : Offer String → Offer String) : Answer μ → Answer μ
  | .poll view => .poll { view with errors := f view.errors }
  | a => a

/-- What an answer shows of the error stream, if it is a look around. -/
def errors? : Answer μ → Option (Offer String)
  | .poll view => some view.errors
  | _ => none

/-- What a run that looks at the error stream gets to know of it by an answer. A request to stop
hides the stream. -/
def errorsSeen? : Answer μ → Option (Offer String)
  | .poll view => if view.stop then none else some view.errors
  | _ => none

/-- Whether an answer is a look around. -/
def isLook : Answer μ → Bool
  | .poll _ => true
  | _ => false

theorem errorsSeen?_eq_some {a : Answer μ} {offer : Offer String} :
    a.errorsSeen? = some offer ↔ ∃ view, a = .poll view ∧ view.stop = false ∧
      view.errors = offer := by
  cases a <;> simp [errorsSeen?]

theorem errors?_of_errorsSeen? {a : Answer μ} {offer : Offer String}
    (h : a.errorsSeen? = some offer) :
    a.errors? = some offer := by
  obtain ⟨view, rfl, -, herrors⟩ := errorsSeen?_eq_some.mp h
  exact congrArg some herrors

theorem mapErrors_eq_self {f : Offer String → Offer String} {a : Answer μ}
    (h : ∀ offer, a.errors? = some offer → f offer = offer) : a.mapErrors f = a := by
  cases a with
  | poll view => rw [mapErrors, h view.errors rfl]
  | _ => rfl

theorem mapErrors_mapErrors (f g : Offer String → Offer String) (a : Answer μ) :
    (a.mapErrors g).mapErrors f = a.mapErrors (f ∘ g) := by
  cases a <;> rfl

@[simp] theorem errors?_mapErrors (f : Offer String → Offer String) (a : Answer μ) :
    (a.mapErrors f).errors? = a.errors?.map f := by
  cases a <;> rfl

@[simp] theorem errorsSeen?_mapErrors (f : Offer String → Offer String) (a : Answer μ) :
    (a.mapErrors f).errorsSeen? = a.errorsSeen?.map f := by
  cases a with
  | poll view =>
    simp only [mapErrors, errorsSeen?]
    split <;> rfl
  | _ => rfl

theorem isLook_of_errorsSeen? {a : Answer μ} {offer : Offer String}
    (h : a.errorsSeen? = some offer) :
    a.isLook = true := by
  obtain ⟨view, rfl, -⟩ := errorsSeen?_eq_some.mp h
  rfl

end Answer

/-- The answer with another offer of errors, at the same time. -/
def Stamped.mapErrors (f : Offer String → Offer String) (a : Stamped μ) : Stamped μ :=
  ⟨a.now, a.answer.mapErrors f⟩

/-- The history in which the sender of the errors is kept: the look that noted the end is left out,
and no other one shows it. -/
def keepSender : List (Stamped μ) → List (Stamped μ)
  | [] => []
  | a :: history =>
    if a.answer.errorsSeen? = some .ended then history.map (Stamped.mapErrors .keepSender)
    else a.mapErrors .keepSender :: keepSender history

/-- The history in which the sender of the errors is dropped at the beginning: the first look that
would find nothing on the error stream finds its end, and another look follows at once. -/
def dropSender : List (Stamped μ) → List (Stamped μ)
  | [] => []
  | a :: history =>
    if a.answer.errorsSeen? = some .nothing then
      a.mapErrors .dropSender :: a.mapErrors .dropSender :: history.map
        (Stamped.mapErrors .dropSender)
    else a.mapErrors .dropSender :: dropSender history

/-- Whether no look shows the end of the error stream. -/
def KeptOpen (history : List (Stamped μ)) : Prop :=
  ∀ a ∈ history, a.answer.errors? ≠ some .ended

/-- Whether there are no errors any more once a look has shown none. -/
def FallsSilent (history : List (Stamped μ)) : Prop :=
  history.Pairwise fun a b =>
    a.answer.errors? = some .nothing → ∀ cause, b.answer.errors? ≠ some (.item cause)

/-- Whether the error stream is seen at its end once it has been. -/
def StaysEnded (history : List (Stamped μ)) : Prop :=
  history.Pairwise fun a b =>
    a.answer.errors? = some .ended → ∀ offer, b.answer.errors? = some offer → offer = .ended

/-- The answers that are not looks around, with their times. -/
def unlooked (history : List (Stamped μ)) : List (Stamped μ) :=
  history.filter fun a => !a.answer.isLook

/-- How often a run looks around in a history. -/
def looksIn (history : List (Stamped μ)) : Nat := history.countP fun a => a.answer.isLook

section Histories

variable {a : Stamped μ} {history before after : List (Stamped μ)}

theorem Stamped.mapErrors_keepSender_of_ne (h : a.answer.errors? ≠ some .ended) :
    a.mapErrors .keepSender = a := by
  obtain ⟨now, answer⟩ := a
  refine congrArg (Stamped.mk now) (Answer.mapErrors_eq_self fun offer hoffer => ?_)
  exact Offer.keepSender_of_ne fun hended => h (hended ▸ hoffer)

theorem Stamped.mapErrors_keepSender_dropSender (h : a.answer.errors? ≠ some .ended) :
    (a.mapErrors .dropSender).mapErrors .keepSender = a := by
  obtain ⟨now, answer⟩ := a
  refine congrArg (Stamped.mk now) ((Answer.mapErrors_mapErrors ..).trans ?_)
  refine Answer.mapErrors_eq_self fun offer hoffer => ?_
  exact Offer.keepSender_dropSender fun hended => h (hended ▸ hoffer)

theorem KeptOpen.map_keepSender_dropSender (h : KeptOpen history) :
    (history.map (Stamped.mapErrors .dropSender)).map (Stamped.mapErrors .keepSender) =
      history := by
  rw [List.map_map]
  exact (List.map_congr_left fun a ha => Stamped.mapErrors_keepSender_dropSender (h a ha)).trans
    (List.map_id _)

theorem KeptOpen.keepSender_append (h : KeptOpen before) :
    keepSender (before ++ after) = before ++ keepSender after := by
  induction before with
  | nil => rfl
  | cons a before ih =>
    have ha : a.answer.errors? ≠ some .ended := h a (List.mem_cons_self ..)
    have hseen : a.answer.errorsSeen? ≠ some .ended := fun hended =>
      ha (Answer.errors?_of_errorsSeen? hended)
    rw [List.cons_append, keepSender, if_neg hseen, Stamped.mapErrors_keepSender_of_ne ha,
      ih fun b hb => h b (List.mem_cons_of_mem a hb), List.cons_append]

/-- Keeping the sender undoes the drop. -/
theorem KeptOpen.keepSender_dropSender (h : KeptOpen history) :
    keepSender (dropSender history) = history := by
  induction history with
  | nil => rfl
  | cons a history ih =>
    have ha : a.answer.errors? ≠ some .ended := h a (List.mem_cons_self ..)
    have hrest : KeptOpen history := fun b hb => h b (List.mem_cons_of_mem a hb)
    have hback := Stamped.mapErrors_keepSender_dropSender ha
    rw [dropSender]
    split
    · next hnothing =>
      have hended : (a.mapErrors .dropSender).answer.errorsSeen? = some .ended := by
        rw [Stamped.mapErrors, Answer.errorsSeen?_mapErrors, hnothing]
        rfl
      rw [keepSender, if_pos hended, List.map_cons, hback, hrest.map_keepSender_dropSender]
    · next hnothing =>
      have hended : (a.mapErrors .dropSender).answer.errorsSeen? ≠ some .ended := by
        rw [Stamped.mapErrors, Answer.errorsSeen?_mapErrors]
        rcases hseen : a.answer.errorsSeen? with _ | (_ | cause | _)
        · exact nofun
        · exact absurd hseen hnothing
        · exact nofun
        · exact absurd (Answer.errors?_of_errorsSeen? hseen) ha
      rw [keepSender, if_neg hended, hback, ih hrest]

/-- What the senders say of two answers carries over to the drop. -/
theorem Stamped.ended_of_mapErrors_dropSender {b : Stamped μ} (ha : a.answer.errors? ≠ some .ended)
    (hb : b.answer.errors? ≠ some .ended)
    (h : a.answer.errors? = some .nothing → ∀ cause, b.answer.errors? ≠ some (.item cause)) :
    (a.mapErrors .dropSender).answer.errors? = some .ended →
      ∀ offer, (b.mapErrors .dropSender).answer.errors? = some offer → offer = .ended := by
  simp only [Stamped.mapErrors, Answer.errors?_mapErrors]
  rcases haErrors : a.answer.errors? with _ | (_ | _ | _)
  case some.nothing =>
    rcases hbErrors : b.answer.errors? with _ | (_ | cause | _)
    · exact nofun
    · exact fun _ offer hoffer => (Option.some.inj hoffer).symm
    · exact absurd hbErrors (h haErrors cause)
    · exact absurd hbErrors hb
  case some.ended => exact absurd haErrors ha
  all_goals exact nofun

theorem mem_dropSender {b : Stamped μ} (h : b ∈ dropSender history) :
    ∃ c ∈ history, c.mapErrors .dropSender = b := by
  induction history with
  | nil => cases h
  | cons a history ih =>
    rw [dropSender] at h
    split at h
    · rcases List.mem_cons.mp h with rfl | h
      · exact ⟨a, List.mem_cons_self .., rfl⟩
      · exact List.mem_map.mp h
    · rcases List.mem_cons.mp h with rfl | h
      · exact ⟨a, List.mem_cons_self .., rfl⟩
      · obtain ⟨c, hc, rfl⟩ := ih h
        exact ⟨c, List.mem_cons_of_mem a hc, rfl⟩

/-- The error stream is seen at its end from the first look after the drop that finds no error. -/
theorem KeptOpen.staysEnded_dropSender (h : KeptOpen history) (hsilent : FallsSilent history) :
    StaysEnded (dropSender history) := by
  induction history with
  | nil => exact List.Pairwise.nil
  | cons a history ih =>
    obtain ⟨hlater, hrest⟩ := List.pairwise_cons.mp hsilent
    obtain ⟨ha, hopen⟩ := List.forall_mem_cons.mp h
    rw [dropSender]
    split
    · next hnothing =>
      have hself : a.answer.errors? = some .nothing →
          ∀ cause, a.answer.errors? ≠ some (.item cause) :=
        fun hnone cause hitem => by cases hnone.symm.trans hitem
      have hmap : StaysEnded (history.map (Stamped.mapErrors .dropSender)) := by
        refine List.pairwise_map.mpr (hrest.imp_of_mem fun hb hc hbc => ?_)
        exact Stamped.ended_of_mapErrors_dropSender (hopen _ hb) (hopen _ hc) hbc
      have hhead : ∀ b ∈ history.map (Stamped.mapErrors .dropSender),
          (a.mapErrors .dropSender).answer.errors? = some .ended →
            ∀ offer, b.answer.errors? = some offer → offer = .ended := by
        intro b hb
        obtain ⟨c, hc, rfl⟩ := List.mem_map.mp hb
        exact Stamped.ended_of_mapErrors_dropSender ha (hopen c hc) (hlater c hc)
      refine List.pairwise_cons.mpr ⟨?_, List.pairwise_cons.mpr ⟨hhead, hmap⟩⟩
      exact List.forall_mem_cons.mpr ⟨Stamped.ended_of_mapErrors_dropSender ha ha hself, hhead⟩
    · refine List.pairwise_cons.mpr ⟨fun b hb => ?_, ih hopen hrest⟩
      obtain ⟨c, hc, rfl⟩ := mem_dropSender hb
      exact Stamped.ended_of_mapErrors_dropSender ha (hopen c hc) (hlater c hc)

theorem KeptOpen.staysEnded_append (h : KeptOpen before) (hafter : StaysEnded after) :
    StaysEnded (before ++ after) := by
  refine List.pairwise_append.mpr ⟨?_, hafter, fun a ha b _ hended => absurd hended (h a ha)⟩
  exact List.Pairwise.imp_of_mem (fun ha _ _ hended => absurd hended (h _ ha))
    (List.pairwise_of_forall fun _ _ => trivial)

theorem KeptOpen.staysEnded (h : KeptOpen history) : StaysEnded history := by
  rw [← List.append_nil history]
  exact h.staysEnded_append List.Pairwise.nil

/-- No look shows the end of the error stream if the sender is kept. -/
theorem keptOpen_keepSender (history : List (Stamped μ)) : KeptOpen (keepSender history) := by
  have hkept (b : Stamped μ) : (b.mapErrors .keepSender).answer.errors? ≠ some .ended := by
    rw [Stamped.mapErrors, Answer.errors?_mapErrors]
    rcases b.answer.errors? with _ | (_ | _ | _) <;> exact nofun
  induction history with
  | nil => exact nofun
  | cons a history ih =>
    rw [keepSender]
    split
    · intro b hb
      obtain ⟨c, -, rfl⟩ := List.mem_map.mp hb
      exact hkept c
    · intro b hb
      rcases List.mem_cons.mp hb with rfl | hb
      · exact hkept a
      · exact ih b hb

theorem unlooked_map_keepSender (history : List (Stamped μ)) :
    unlooked (history.map (Stamped.mapErrors .keepSender)) = unlooked history := by
  induction history with
  | nil => rfl
  | cons a history ih =>
    obtain ⟨now, answer⟩ := a
    cases answer with
    | poll => exact ih
    | _ => exact congrArg (List.cons _) ih

theorem unlooked_keepSender (history : List (Stamped μ)) :
    unlooked (keepSender history) = unlooked history := by
  induction history with
  | nil => rfl
  | cons a history ih =>
    rw [keepSender]
    split
    · next hended =>
      rw [unlooked_map_keepSender, unlooked, unlooked, List.filter_cons_of_neg]
      simp [Answer.isLook_of_errorsSeen? hended]
    · obtain ⟨now, answer⟩ := a
      cases answer with
      | poll => exact ih
      | _ => exact congrArg (List.cons _) ih

/-- The end of the error stream costs one look. -/
theorem length_le_length_keepSender (history : List (Stamped μ)) :
    history.length ≤ (keepSender history).length + 1 := by
  induction history with
  | nil => exact Nat.zero_le _
  | cons a history ih =>
    rw [keepSender]
    split
    · rw [List.length_map, List.length_cons]
    · simp only [List.length_cons]
      omega

theorem length_keepSender_le (history : List (Stamped μ)) :
    (keepSender history).length ≤ history.length := by
  induction history with
  | nil => exact Nat.le_refl _
  | cons a history ih =>
    rw [keepSender]
    split
    · simp
    · simp only [List.length_cons]
      omega

end Histories

/-! ## Runs that look at the error stream, and runs that do not -/

/-- The phase of a run that has not noted the end of the error stream. -/
def Phase.reopened : Phase μ → Phase μ
  | .polling _ => .polling true
  | .processing _ m since => .processing true m since
  | .settling _ m failure => .settling true m failure
  | phase => phase

/-- A turn without what is said of the end of the error stream. -/
def Turn.withSender (t : Turn μ) : Turn μ :=
  ⟨t.phase.reopened, t.notices.filter fun n => !n.isErrorsEnded, t.marks⟩

/-- A run without what is said of the end of the error stream. -/
def Run.withSender (r : Run μ) : Run μ :=
  ⟨r.phase.reopened, r.notices.filter fun n => !n.isErrorsEnded, r.marks⟩

theorem Run.withSender_take (r : Run μ) (t : Turn μ) :
    (r.take t).withSender = r.withSender.take t.withSender := by
  simp [Run.take, Run.withSender, Turn.withSender]

namespace Phase

variable {p : Profile} {now : Nat} {phase : Phase μ} {a : Answer μ} {turn : Turn μ}

theorem request_reopened (p : Profile) (phase : Phase μ) :
    phase.reopened.request p = phase.request p := by
  cases phase <;> rfl

theorem result?_reopened (phase : Phase μ) : phase.reopened.result? = phase.result? := by
  cases phase <;> rfl

/-- Whether a run will not look at its error stream any more. -/
def IgnoresErrors (phase : Phase μ) : Prop := phase.KnowsEnd ∨ phase.outcome?.isSome

theorem not_ignoresErrors_polling : ¬ (polling true : Phase μ).IgnoresErrors := by
  simp [IgnoresErrors, KnowsEnd, outcome?]

variable [Identified μ]

/-- A run that will not look at its error stream never does. -/
theorem ignoresErrors_of_step (h : phase.step p now a = some turn)
    (hignores : phase.IgnoresErrors) :
    turn.phase.IgnoresErrors := by
  have hstepsTo := stepsTo_of_step h
  rcases hignores with hknows | houtcome
  · cases hstepsTo
    case idled | received | succeeded | broke | accepted | absorbed => exact .inl hknows
    case reassured => exact .inl rfl
    all_goals first | exact .inr rfl | exact hknows.elim
  · obtain ⟨result, hresult⟩ := Option.isSome_iff_exists.mp houtcome
    exact .inr (by rw [outcome?_of_step h hresult]; rfl)

/-- The end of the error stream is noted by a run that looks at it, upon a look that shows it. -/
theorem errorsSeen?_of_isErrorsEnded (h : phase.step p now a = some turn) {n : Notice}
    (hn : n ∈ turn.notices) (hended : n.isErrorsEnded = true) :
    phase = .polling true ∧ a.errorsSeen? = some .ended := by
  have hstepsTo := stepsTo_of_step h
  cases hstepsTo
  case reassured errorsOpen view hpick =>
    obtain ⟨hstop, rfl, herrors⟩ := View.pick_eq_errorsEnded.mp hpick
    exact ⟨rfl, Answer.errorsSeen?_eq_some.mpr ⟨view, rfl, hstop, herrors⟩⟩
  case closed result closed =>
    simp only [List.mem_cons, List.not_mem_nil, or_false] at hn
    rcases hn with rfl | rfl
    · cases closed <;> cases hended
    · cases result <;> cases hended
  all_goals
    first
      | exact absurd hn List.not_mem_nil
      | (obtain rfl := List.mem_singleton.mp hn; cases hended)

/-- A run gets to know of the end of its error stream by a look that shows it. -/
theorem errorsSeen?_of_knowsEnd (h : phase.step p now a = some turn)
    (hknows : turn.phase.KnowsEnd) :
    phase.KnowsEnd ∨ a.errorsSeen? = some .ended := by
  have hstepsTo := stepsTo_of_step h
  cases hstepsTo
  case reassured errorsOpen view hpick =>
    obtain ⟨hstop, rfl, herrors⟩ := View.pick_eq_errorsEnded.mp hpick
    exact .inr (Answer.errorsSeen?_eq_some.mpr ⟨view, rfl, hstop, herrors⟩)
  case started => cases hknows
  case idled | received | succeeded | broke | accepted | absorbed => exact .inl hknows
  all_goals exact hknows.elim

/-- A run that looks at the error stream notes its end and looks around again. -/
theorem step_polling_ended (h : a.errorsSeen? = some .ended) :
    (polling true).step p now a =
      some { phase := .polling false, notices := [.errorsEnded] } := by
  obtain ⟨view, rfl, hstop, herrors⟩ := Answer.errorsSeen?_eq_some.mp h
  have hpick : view.pick true = some .errorsEnded :=
    View.pick_eq_errorsEnded.mpr ⟨hstop, rfl, herrors⟩
  rw [step, hpick]
  rfl

/-- A look shows the same to a run that looks at the silent error stream and to one that does
not. -/
theorem withSender_afterPoll (errorsOpen : Bool) (view : View μ)
    (hended : errorsOpen = true → (Answer.poll view).errorsSeen? ≠ some .ended)
    (hsilent : errorsOpen = false → ∀ cause, (Answer.poll view).errorsSeen? ≠ some (.item cause)) :
    afterPoll now true (View.pick true { view with errors := view.errors.keepSender }) =
      (afterPoll now errorsOpen (view.pick errorsOpen)).withSender := by
  obtain ⟨stop, errors, messages⟩ := view
  cases stop with
  | true => rfl
  | false =>
    cases errorsOpen with
    | true =>
      cases errors with
      | ended => exact absurd rfl (hended rfl)
      | _ => cases messages <;> rfl
    | false =>
      cases errors with
      | item cause => exact absurd rfl (hsilent rfl cause)
      | _ => cases messages <;> rfl

/-- A run that has noted the end of the error stream goes on as one whose error stream is silent,
and so does a run that has not, up to the look that notes it. -/
theorem step_reopened (hended : phase = .polling true → a.errorsSeen? ≠ some .ended)
    (hsilent : phase = .polling false → ∀ cause, a.errorsSeen? ≠ some (.item cause)) :
    phase.reopened.step p now (a.mapErrors .keepSender) =
      (phase.step p now a).map Turn.withSender := by
  cases phase with
  | creating attempt =>
    cases a with
    | create created =>
      cases created with
      | ok => rfl
      | error =>
        simp only [reopened, Answer.mapErrors, step, afterCreate, Option.map_some]
        split <;> rfl
    | _ => rfl
  | retrying attempt deadline =>
    cases a with
    | wait stop =>
      simp only [reopened, Answer.mapErrors, step, afterWait, Option.map_some]
      split
      · rfl
      · split <;> rfl
    | _ => rfl
  | consuming =>
    cases a with
    | consume started => cases started <;> rfl
    | _ => rfl
  | polling errorsOpen =>
    cases a with
    | poll view =>
      exact congrArg some (withSender_afterPoll errorsOpen view (fun h => hended (h ▸ rfl))
        fun h => hsilent (h ▸ rfl))
    | _ => rfl
  | processing errorsOpen m since =>
    cases a with
    | process result => cases result <;> rfl
    | _ => rfl
  | settling errorsOpen m failure =>
    cases a with
    | settle result =>
      cases failure with
      | none => cases result <;> rfl
      | some cause =>
        simp only [reopened, Answer.mapErrors, step, afterFailing, Option.map_some]
        cases p.strategy.flow <;> cases result <;> rfl
    | _ => cases failure <;> rfl
  | releasing result => cases a <;> rfl
  | closing result =>
    cases a with
    | close closed => cases closed <;> cases result <;> rfl
    | _ => rfl
  | stopped result => cases a <;> rfl

/-- A look that shows an error, or the request to stop, shows it all the same if the sender is
gone. -/
theorem step_dropped (h : a.errorsSeen? ≠ some .nothing) :
    phase.step p now (a.mapErrors .dropSender) = phase.step p now a := by
  cases a with
  | poll view =>
    obtain ⟨stop, errors, messages⟩ := view
    cases errors with
    | nothing =>
      cases stop with
      | false => exact absurd rfl h
      | true =>
        cases phase with
        | settling errorsOpen m failure => cases failure <;> rfl
        | _ => rfl
    | _ => rfl
  | _ => rfl

end Phase

end Courier
