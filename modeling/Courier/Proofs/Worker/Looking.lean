import Courier.Worker.Basic
import Mathlib.Data.List.Basic

/-!
# What runs see when they look around

A run that looks around at once sees its signal, its errors and its messages as they are at that
time. A run that looks at one source after the other sees each of them as it is when its turn comes.
What it sees is there in both cases (`Worker.Shows`), and most of what is said of a look needs no
more than that.

A look at once is a look at one source after the other that nobody interferes with
(`Worker.glances_of_pollFor`). But there is more that a run can see if somebody does: the end of its
messages, without the error that came before it.
-/

namespace Courier

/-! ## What a view shows -/

namespace Worker

variable {w w' : Worker} {n : Nat} {r : WorkerRun} {v : View Delivery} {errorsOpen : Bool}

/-- Whether what a view shows to a run is there. -/
structure Shows (w : Worker) (r : WorkerRun) (v : View Delivery) : Prop where
  stop : v.stop = true → r.seesStop = true
  errors : v.errors = .nothing ∨ v.errors = w.broker.offeredError r.lane
  messages : v.messages = .nothing ∨ v.messages = w.broker.offeredMessage r.lane

theorem shows_view (w : Worker) (r : WorkerRun) : w.Shows r (w.view r) := ⟨id, .inr rfl, .inr rfl⟩

theorem shows_viewOf (w : Worker) (r : WorkerRun) (source : Source) :
    w.Shows r (w.viewOf r source) := by
  cases source with
  | signal => exact ⟨id, .inl rfl, .inl rfl⟩
  | errors => exact ⟨nofun, .inr rfl, .inl rfl⟩
  | messages => exact ⟨nofun, .inl rfl, .inr rfl⟩

namespace Shows

theorem of_error (h : w.Shows r v) {text : String}
    (hpick : v.pick errorsOpen = some (.error text)) :
    errorsOpen = true ∧ w.broker.offeredError r.lane = .item text := by
  obtain ⟨-, hopen, herror⟩ := View.pick_eq_error.mp hpick
  rcases h.errors with hnone | hshown
  · cases hnone.symm.trans herror
  · exact ⟨hopen, hshown.symm.trans herror⟩

theorem of_errorsEnded (h : w.Shows r v) (hpick : v.pick errorsOpen = some .errorsEnded) :
    errorsOpen = true ∧ w.broker.offeredError r.lane = .ended := by
  obtain ⟨-, hopen, hended⟩ := View.pick_eq_errorsEnded.mp hpick
  rcases h.errors with hnone | hshown
  · cases hnone.symm.trans hended
  · exact ⟨hopen, hshown.symm.trans hended⟩

theorem of_message (h : w.Shows r v) {d : Delivery}
    (hpick : v.pick errorsOpen = some (.message d)) :
    w.broker.offeredMessage r.lane = .item d := by
  have hmessage := View.pick_eq_message hpick
  rcases h.messages with hnone | hshown
  · cases hnone.symm.trans hmessage
  · exact hshown.symm.trans hmessage

theorem of_messagesEnded (h : w.Shows r v) (hpick : v.pick errorsOpen = some .messagesEnded) :
    w.broker.offeredMessage r.lane = .ended := by
  obtain ⟨-, hended, -⟩ := View.pick_eq_messagesEnded.mp hpick
  rcases h.messages with hnone | hshown
  · cases hnone.symm.trans hended
  · exact hshown.symm.trans hended

/-- A message that a run acts on is in the slot of its lane. -/
theorem slot_of_message (h : w.Shows r v) {d : Delivery}
    (hpick : v.pick errorsOpen = some (.message d)) :
    (w.broker.lanes[r.lane]?).bind Lane.slot = some d := by
  have hoffered := h.of_message hpick
  cases hl : w.broker.lanes[r.lane]? with
  | none =>
    unfold Broker.offeredMessage at hoffered
    rw [hl] at hoffered
    cases hoffered
  | some l => exact (Broker.offeredMessage_eq_item hl).mp hoffered

end Shows

/-! ## Glances -/

/-- A run that looks around does something about whatever it sees. -/
theorem pick_of_actOn_eq_none (hphase : r.phase = .polling errorsOpen)
    (h : w.actOn n r errorsOpen v = none) : v.pick errorsOpen = none := by
  unfold actOn at h
  split at h
  · assumption
  · rw [answer, hphase] at h
    cases h

/-- A glance leads to what the run does about what it sees, or to the next source if it sees
nothing. -/
theorem glance_eq_some (h : w.glance n = some w') :
    ∃ r errorsOpen, w.runs[n]? = some r ∧ r.phase = .polling errorsOpen ∧
      (w.actOn n r errorsOpen (w.viewOf r r.upNext) = some w' ∨
        (w.viewOf r r.upNext).pick errorsOpen = none ∧
          w' = w.modifyRun n WorkerRun.lookFurther) := by
  unfold glance at h
  split at h
  · cases h
  next r hr =>
  split at h
  swap
  · cases h
  next errorsOpen hphase =>
  refine ⟨r, errorsOpen, hr, hphase, ?_⟩
  unfold glanceFor at h
  split at h
  · next hnone => exact .inr ⟨pick_of_actOn_eq_none hphase hnone, (Option.some.inj h).symm⟩
  · next w₁ hact => exact .inl (hact.trans h)

/-! ### A look at once -/

/-- What a run acts on is found at the signal, or else among the errors, or else among the
messages. -/
theorem pick_view (w : Worker) (r : WorkerRun) (errorsOpen : Bool) :
    (w.view r).pick errorsOpen = ((w.viewOf r .signal).pick errorsOpen).or
      (((w.viewOf r .errors).pick errorsOpen).or ((w.viewOf r .messages).pick errorsOpen)) := by
  unfold view viewOf View.pick
  cases r.seesStop <;> cases errorsOpen <;> cases w.broker.offeredError r.lane <;>
    cases w.broker.offeredMessage r.lane <;> rfl

/-- All that counts of a view is what the run acts on. -/
theorem actOn_congr {v' : View Delivery} (hphase : r.phase = .polling errorsOpen)
    (h : v.pick errorsOpen = v'.pick errorsOpen) :
    w.actOn n r errorsOpen v = w.actOn n r errorsOpen v' := by
  simp only [actOn, answer, hphase, Phase.step, h]

/-- What a run has looked at in vain is forgotten once it acts. -/
theorem actOn_lookFurther :
    (w.modifyRun n WorkerRun.lookFurther).actOn n r.lookFurther errorsOpen v =
      w.actOn n r errorsOpen v := by
  unfold actOn
  cases v.pick errorsOpen with
  | none => rfl
  | some choice =>
    refine congrArg (Option.map · (r.phase.step r.profile _ _)) (funext fun turn => ?_)
    have hruns : (w.runs.modify n WorkerRun.lookFurther).modify n (fun _ => (r.take turn).prepare) =
        w.runs.modify n fun _ => (r.take turn).prepare := List.modify_modify_eq ..
    simp only [modifyRun, onto]
    rw [← hruns]
    rfl

theorem viewOf_lookFurther (source : Source) :
    (w.modifyRun n WorkerRun.lookFurther).viewOf r.lookFurther source = w.viewOf r source := by
  cases source <;> rfl

theorem getElem?_lookFurther (hr : w.runs[n]? = some r) :
    (w.modifyRun n WorkerRun.lookFurther).runs[n]? = some r.lookFurther := by
  rw [modifyRun, List.getElem?_modify_eq, hr]
  rfl

/-- A glance that shows something is one that the run acts on. -/
theorem glance_of_pick (hr : w.runs[n]? = some r) (hphase : r.phase = .polling errorsOpen)
    (h : (w.viewOf r r.upNext).pick errorsOpen ≠ none) :
    w.glance n = w.actOn n r errorsOpen (w.viewOf r r.upNext) := by
  simp only [glance, hr, hphase, glanceFor]
  split
  · next hnone => exact absurd (pick_of_actOn_eq_none hphase hnone) h
  · next hsome => exact hsome.symm

/-- After a glance that shows nothing the run looks at the next source. -/
theorem glance_of_nothing (hr : w.runs[n]? = some r) (hphase : r.phase = .polling errorsOpen)
    (h : (w.viewOf r r.upNext).pick errorsOpen = none) :
    w.glance n = some (w.modifyRun n WorkerRun.lookFurther) := by
  simp only [glance, hr, hphase, glanceFor, actOn, h]

/-- So many glances of a run, with nothing in between. -/
def glances (w : Worker) (n : Nat) : Nat → Option Worker
  | 0 => some w
  | k + 1 => (w.glance n).bind fun w => w.glances n k

theorem modifyRun_lookFurther_thrice (w : Worker) (n : Nat) :
    ((w.modifyRun n WorkerRun.lookFurther).modifyRun n WorkerRun.lookFurther).modifyRun n
      WorkerRun.lookFurther = w := by
  have hthrice : (WorkerRun.lookFurther ∘ WorkerRun.lookFurther) ∘ WorkerRun.lookFurther = id := by
    funext q
    obtain ⟨-, -, -, -, -, -, -, -, upNext⟩ := q
    cases upNext <;> rfl
  simp only [modifyRun, List.modify_modify_eq]
  rw [← Function.comp_assoc, hthrice, List.modify_id]

/-- What glances lead to from the source that is up next. -/
theorem glances_succ (hr : w.runs[n]? = some r) (hphase : r.phase = .polling errorsOpen) (k : Nat) :
    w.glances n (k + 1) =
      if (w.viewOf r r.upNext).pick errorsOpen = none then
        (w.modifyRun n WorkerRun.lookFurther).glances n k
      else (w.actOn n r errorsOpen (w.viewOf r r.upNext)).bind fun w => w.glances n k := by
  rw [glances]
  split
  · next hnone => rw [glance_of_nothing hr hphase hnone, Option.bind_some]
  · next hsome => rw [glance_of_pick hr hphase hsome]

/-- A look at once is one, two or three glances with nothing in between. -/
theorem glances_of_pollFor (hr : w.runs[n]? = some r) (hphase : r.phase = .polling errorsOpen)
    (hnext : r.upNext = .signal) :
    ∃ k ≤ 3, w.glances n k = some ((w.pollFor n r errorsOpen).getD w) := by
  have hacts {source : Source} (hshown : (w.viewOf r source).pick errorsOpen ≠ none)
      (hsame : (w.view r).pick errorsOpen = (w.viewOf r source).pick errorsOpen) :
      w.actOn n r errorsOpen (w.viewOf r source) = some ((w.pollFor n r errorsOpen).getD w) := by
    rw [pollFor, actOn_congr hphase hsame]
    cases hact : w.actOn n r errorsOpen (w.viewOf r source) with
    | none => exact absurd (pick_of_actOn_eq_none hphase hact) hshown
    | some w' => rfl
  have hr₁ := getElem?_lookFurther hr
  have hr₂ := getElem?_lookFurther hr₁
  have hphase₁ : r.lookFurther.phase = .polling errorsOpen := hphase
  have hphase₂ : r.lookFurther.lookFurther.phase = .polling errorsOpen := hphase
  have hnext₁ : r.lookFurther.upNext = .errors := congrArg Source.next hnext
  have hnext₂ : r.lookFurther.lookFurther.upNext = .messages := congrArg Source.next hnext₁
  have hpick := w.pick_view r errorsOpen
  by_cases hsignal : (w.viewOf r .signal).pick errorsOpen = none
  case neg =>
    refine ⟨1, by decide, ?_⟩
    obtain ⟨choice, hchoice⟩ := Option.ne_none_iff_exists'.mp hsignal
    rw [hchoice, Option.some_or] at hpick
    rw [glances_succ hr hphase, hnext, if_neg hsignal, hacts hsignal (hpick.trans hchoice.symm)]
    rfl
  rw [hsignal, Option.none_or] at hpick
  by_cases herrors : (w.viewOf r .errors).pick errorsOpen = none
  case neg =>
    refine ⟨2, by decide, ?_⟩
    obtain ⟨choice, hchoice⟩ := Option.ne_none_iff_exists'.mp herrors
    rw [hchoice, Option.some_or] at hpick
    rw [glances_succ hr hphase, hnext, if_pos hsignal, glances_succ hr₁ hphase₁, hnext₁,
      viewOf_lookFurther, if_neg herrors, actOn_lookFurther,
        hacts herrors (hpick.trans hchoice.symm)]
    rfl
  rw [herrors, Option.none_or] at hpick
  refine ⟨3, Nat.le_refl _, ?_⟩
  rw [glances_succ hr hphase, hnext, if_pos hsignal, glances_succ hr₁ hphase₁, hnext₁,
    viewOf_lookFurther, if_pos herrors, glances_succ hr₂ hphase₂, hnext₂, viewOf_lookFurther,
    viewOf_lookFurther]
  split
  · next hmessages =>
    rw [modifyRun_lookFurther_thrice, pollFor, actOn, hpick, hmessages]
    rfl
  · next hmessages =>
    rw [actOn_lookFurther, actOn_lookFurther, hacts hmessages hpick]
    rfl

end Worker

end Courier
