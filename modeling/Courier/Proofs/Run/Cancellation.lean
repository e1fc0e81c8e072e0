import Courier.Proofs.Run.Interruption

/-!
# All views of a request to stop agree

A context asks whether it is cancelled, or waits for it, and a run looks around for a request to
stop. Each has a listener of its own, which has seen the signal at some time. `Audience` is a signal
with all who listen to it, and `Signal.Asks` says of a history what the signal asks for in the end:
by what was sent last, and by whether it was left. All listeners find just that, whatever they have
seen before.

A request that is not taken back is found by every later look (`Surroundings.Keeps`), so a run whose
processor returns while there is one processes no further message (`Run.processed?_of_isStop`).
-/

namespace Courier

/-! ## Histories of a signal -/

/-- Something that happens to a signal and the listeners on it. -/
inductive Signal.Event where
  /-- The signal is set, if anybody is left who can set it. -/
  | send (requested : Bool)
  /-- The signal is left to itself. -/
  | abandon
  /-- Somebody begins to listen. -/
  | join
  /-- A listener is copied, with what it has seen. -/
  | copy (listener : Nat)
  /-- A listener looks once while it waits for the signal. -/
  | look (listener : Nat)
deriving DecidableEq

namespace Signal

/-- The signal after an event. -/
def after (s : Signal) : Event → Signal
  | .send requested => if s.attended then s.send requested else s
  | .abandon => s.abandon
  | .join | .copy _ | .look _ => s

/-- What counts after a history: what was sent last before the signal was left, or what it said from
the start. -/
def lastSent (start : Bool) : List Event → Bool
  | [] => start
  | .send requested :: events => lastSent requested events
  | .abandon :: _ => start
  | .join :: events | .copy _ :: events | .look _ :: events => lastSent start events

/-- Whether a signal asks to stop after a history. -/
def Asks (start : Bool) (events : List Event) : Prop :=
  lastSent start events = true ∨ .abandon ∈ events

variable {s : Signal} {events : List Event}

/-- Nothing changes a signal that was left. -/
theorem foldl_after_of_not_attended (h : s.attended = false) : events.foldl after s = s := by
  induction events with
  | nil => rfl
  | cons e events ih =>
    have hsame : s.after e = s := by
      obtain ⟨requested, version, attended⟩ := s
      cases h
      cases e <;> rfl
    rw [List.foldl_cons, hsame]
    exact ih

/-- A signal says what counts after its history, and is attended to unless it was left. -/
theorem foldl_after (h : s.attended = true) :
    (events.foldl after s).requested = lastSent s.requested events ∧
      ((events.foldl after s).attended = false ↔ .abandon ∈ events) := by
  induction events generalizing s with
  | nil => simp [lastSent, h]
  | cons e events ih =>
    rw [List.foldl_cons]
    cases e with
    | send requested =>
      have hsend : s.after (.send requested) = s.send requested := if_pos h
      rw [hsend]
      obtain ⟨hrequested, hattended⟩ := ih (s := s.send requested) h
      exact ⟨hrequested, hattended.trans (by simp)⟩
    | abandon =>
      -- Nobody is left who could send, so the rest of the history does not count.
      rw [foldl_after_of_not_attended (s := s.after .abandon) rfl]
      exact ⟨rfl, by simp [after, abandon]⟩
    | join | copy | look =>
      obtain ⟨hrequested, hattended⟩ := ih h
      exact ⟨hrequested, hattended.trans (by simp)⟩

/-- A signal asks to stop just if its history does. -/
theorem isStop_foldl_iff (start : Bool) :
    (events.foldl after (.ofBool start)).isStop ↔ Asks start events := by
  obtain ⟨hrequested, hattended⟩ := foldl_after (s := .ofBool start) rfl
  rw [isStop, Bool.or_eq_true, hrequested, Bool.not_eq_true', hattended]
  rfl

/-- A request to stop stays unless it is taken back. -/
theorem isStop_foldl (h : s.isStop) (hkept : .send false ∉ events) :
    (events.foldl after s).isStop := by
  induction events generalizing s with
  | nil => exact h
  | cons e events ih =>
    rw [List.mem_cons, not_or] at hkept
    refine ih ?_ hkept.2
    cases e with
    | send requested =>
      cases requested with
      | false => exact absurd rfl hkept.1
      | true =>
        rw [after]
        split
        · rfl
        · exact h
    | abandon => simp [after, abandon, isStop]
    | join | copy | look => exact h

end Signal

/-- A signal and all who listen to it. -/
structure Audience where
  /-- The signal. -/
  signal : Signal
  /-- The listeners. -/
  listeners : List Listener

namespace Audience

/-- One listener on a new signal. -/
def start (requested : Bool) : Audience :=
  ⟨.ofBool requested, [.ofSignal (.ofBool requested)]⟩

/-- The listeners after an event. -/
def listenersAfter (a : Audience) : Signal.Event → List Listener
  | .send _ | .abandon => a.listeners
  | .join => a.listeners ++ [.ofSignal a.signal]
  | .copy n => a.listeners ++ (a.listeners[n]?).toList
  | .look n => a.listeners.modify n fun l => (l.poll a.signal).2

/-- The audience after an event. -/
def after (a : Audience) (e : Signal.Event) : Audience := ⟨a.signal.after e, a.listenersAfter e⟩

/-- The audience after a history. -/
def run (a : Audience) (events : List Signal.Event) : Audience := events.foldl after a

theorem signal_run (a : Audience) (events : List Signal.Event) :
    (a.run events).signal = events.foldl Signal.after a.signal := by
  induction events generalizing a with
  | nil => rfl
  | cons e events ih => exact ih (a.after e)

end Audience

/-! ## Views of a signal -/

theorem Listener.isCancelled_eq (l : Listener) (s : Signal) : l.isCancelled s = s.isStop := by
  unfold isCancelled changed? Signal.isStop
  cases s.attended <;> rfl

namespace Context

theorem isCancelled_eq (c : Context) (s : Signal) : c.isCancelled s = s.isStop :=
  c.listener.isCancelled_eq s

theorem cancelledNow_eq (c : Context) (s : Signal) : c.cancelledNow s = s.isStop :=
  c.listener.poll_fst s

end Context

/-! ## What a run does about a request -/

/-- Whether a run that stands there is done with processing, as long as it finds a request to stop
whenever it looks around. -/
inductive Phase.IsDone {μ : Type} : Phase μ → Prop
  | settling {errorsOpen : Bool} {m : μ} {failure : Option String} :
    IsDone (.settling errorsOpen m failure)
  | polling {errorsOpen : Bool} : IsDone (.polling errorsOpen)
  | releasing {result : RunResult} : IsDone (.releasing result)
  | closing {result : RunResult} : IsDone (.closing result)
  | stopped {result : RunResult} : IsDone (.stopped result)

namespace Stage

variable {μ : Type} {p : Profile} {x y : Stage μ}

theorem processed?_of_isDone (h : x.phase.IsDone) : ∀ c ∈ x.call? p, c.processed? = none := by
  intro c hc
  obtain ⟨hrequest, -⟩ := call?_eq_some.mp hc
  obtain ⟨request, answer?⟩ := c
  generalize x.phase = phase at h hrequest
  cases h <;> cases hrequest <;> rfl

variable [Identified μ]

/-- A run that is done with processing stays so if it finds a request to stop when it looks
around. -/
theorem LeadsTo.isDone (h : x.LeadsTo p y) (hx : x.phase.IsDone)
    (hstop : ∀ view, x.answer? = some (.poll view) → view.stop = true) : y.phase.IsDone := by
  obtain ⟨now, a, turn, ha, hstepsTo, hy⟩ := h.stepsTo
  rw [hy]
  generalize x.phase = phase at hx hstepsTo
  cases hx with
  | settling => cases hstepsTo <;> constructor
  | polling =>
    cases hstepsTo with
    -- A view with a request to stop picks that, and no message.
    | received hpick =>
      rw [View.pick_eq_stop.mpr (hstop _ ha)] at hpick
      cases hpick
    | _ => constructor
  | releasing | closing => cases hstepsTo; constructor
  | stopped => cases hstepsTo

end Stage

namespace Run

variable {μ : Type} [Identified μ] {p : Profile} {history : List (Stamped μ)} {r : Run μ}
  {s : Surroundings μ}

/-- A run that is done with processing stays so as long as there is a request to stop. -/
theorem isDone_of_isStop (h : replay p history = some r) (hs : s.Informs (exchanges p history))
    {before after : List (Stage μ)} {x : Stage μ} (hcut : stages p history = before ++ x :: after)
    (hx : x.phase.IsDone) (hstop : ∀ i, before.length ≤ i → (s.signal i).isStop) :
    ∀ y ∈ x :: after, y.phase.IsDone := by
  induction after generalizing before x with
  | nil => exact List.forall_mem_singleton.mpr hx
  | cons y after ih =>
    refine List.forall_mem_cons.mpr ⟨hx, ?_⟩
    have hy : y.phase.IsDone := by
      refine (leadsTo_of_stages h hcut).isDone hx fun view hview => ?_
      obtain ⟨earlier, e, later, hexchanges, hlength, rfl⟩ :=
        exchanges_of_stages h hcut (by rw [hview]; rfl)
      have hsample :=
        (hs earlier e later hexchanges).sample (congrArg Answer.sample? (Option.some.inj hview))
      rw [← hsample, hlength]
      exact hstop before.length (Nat.le_refl _)
    rw [List.append_cons] at hcut
    exact ih hcut hy fun i hi => hstop i (by rw [List.length_append] at hi; omega)

/-- A run whose processor is done while there is a request to stop, processes no further message. -/
theorem processed?_of_isStop (h : replay p history = some r) (hs : s.Informs (exchanges p history))
    {before after : List (Stage μ)} {x : Stage μ} {processed : Except String Unit}
    (hcut : stages p history = before ++ x :: after) (hx : x.answer? = some (.process processed))
    (hstop : ∀ i, before.length ≤ i → (s.signal i).isStop) :
    ∀ c ∈ after.filterMap (Stage.call? p), c.processed? = none := by
  obtain ⟨m, y, rest, -, rfl, hy, -⟩ := settles_of_process h hcut hx
  obtain ⟨errorsOpen, failure, hphase, -⟩ := Stage.settling_of_request (Stage.call?_eq_some.mp hy).1
  rw [List.append_cons] at hcut
  have hdone := isDone_of_isStop h hs hcut (hphase ▸ .settling) fun i hi =>
    hstop i (by rw [List.length_append] at hi; omega)
  intro c hc
  obtain ⟨z, hz, hcall⟩ := List.mem_filterMap.mp hc
  exact Stage.processed?_of_isDone (hdone z hz) c hcall

end Run

/-- Whether nobody takes a request back from the `n`-th answer of a run on. -/
def Surroundings.Keeps {μ : Type} (s : Surroundings μ) (n : Nat) : Prop :=
  ∀ i, n ≤ i → ∃ events : List Signal.Event, .send false ∉ events ∧
    s.signal (i + 1) = events.foldl Signal.after (s.signal i)

theorem Surroundings.Keeps.isStop {μ : Type} {s : Surroundings μ} {n : Nat} (h : s.Keeps n)
    (hstop : (s.signal n).isStop) : ∀ i, n ≤ i → (s.signal i).isStop := by
  intro i hi
  induction i, hi using Nat.le_induction with
  | base => exact hstop
  | succ i hi ih =>
    obtain ⟨events, hkept, hsignal⟩ := h i hi
    rw [hsignal]
    exact Signal.isStop_foldl ih hkept

/-! ## The result -/

/-- After every history of a signal and its listeners, all contexts and all runs find the same: a
request to stop just if it was sent last or the signal was left, and for ever if it was left. A run
whose processor is done while a context is cancelled processes no further message, unless the
request is taken back. -/
theorem Audience.views_agree (start : Bool) (events : List Signal.Event) :
    (∀ c : Context, c.listener ∈ ((Audience.start start).run events).listeners →
      ∀ l ∈ ((Audience.start start).run events).listeners,
        (c.isCancelled ((Audience.start start).run events).signal = true ↔
          Signal.Asks start events) ∧
        (c.cancelledNow ((Audience.start start).run events).signal = true ↔
          Signal.Asks start events) ∧
        ((l.poll ((Audience.start start).run events).signal).1 = true ↔ Signal.Asks start events)) ∧
    (.abandon ∈ events → ∀ later, ∀ c : Context,
      c.listener ∈ ((Audience.start start).run (events ++ later)).listeners →
        c.isCancelled ((Audience.start start).run (events ++ later)).signal = true) ∧
    ∀ (μ : Type) [Identified μ] (p : Profile) (history : List (Stamped μ)) (r : Run μ)
      (s : Surroundings μ), Run.replay p history = some r → s.Informs (Run.exchanges p history) →
      ∀ (before : List (Stage μ)) (x : Stage μ) (after : List (Stage μ)) (processed : Except String
        Unit), Run.stages p history = before ++ x :: after → x.answer? = some (.process processed) →
        ∀ c : Context, c.isCancelled (s.signal before.length) = true → s.Keeps before.length →
          ∀ call ∈ after.filterMap (Stage.call? p), call.processed? = none := by
  have hstops (events : List Signal.Event) :
      ((Audience.start start).run events).signal.isStop = true ↔ Signal.Asks start events := by
    rw [signal_run]
    exact Signal.isStop_foldl_iff start
  refine ⟨fun c _ l _ => ?_, fun hleft later c _ => ?_, ?_⟩
  · rw [c.isCancelled_eq, c.cancelledNow_eq, l.poll_fst]
    exact ⟨hstops events, hstops events, hstops events⟩
  · rw [c.isCancelled_eq, hstops]
    exact .inr (List.mem_append_left later hleft)
  · intro μ _ p history r s h hs before x after processed hcut hx c hc hkeeps
    rw [c.isCancelled_eq] at hc
    exact Run.processed?_of_isStop h hs hcut hx (hkeeps.isStop hc)

/-- A request was seen, taken back, and followed by the end of the signal, which no listener has
seen: all find it. A run whose processor is done while it is cancelled settles the message, and does
not process the one that waits. -/
theorem Audience.views_agree_after_retraction :
    let events : List Signal.Event := [.send true, .look 0, .send false, .copy 0, .abandon]
    let a : Delivery := ⟨0, .given "a", .null⟩
    let b : Delivery := ⟨1, .given "b", .null⟩
    let p : Profile := ⟨"c", "script", .nack, 0, .zero⟩
    let history : List (Stamped Delivery) :=
      [⟨0, .create (.ok ())⟩, ⟨0, .consume (.ok ())⟩, ⟨0, .poll ⟨false, .nothing, .item a⟩⟩,
        ⟨5, .process (.ok ())⟩, ⟨5, .settle (.ok ())⟩, ⟨5, .poll ⟨true, .nothing, .item b⟩⟩]
    ((Context.mk (.given "a") [] ⟨1⟩).isCancelled ((Audience.start false).run events).signal =
      true ↔ Signal.Asks false events) ∧
    ∃ r, Run.replay p history = some r ∧
    ∃ before x after, Run.stages p history = before ++ x :: after ∧
      x.answer? = some (.process (.ok ())) ∧ before.length = 3 ∧
      ∀ call ∈ after.filterMap (Stage.call? p), call.processed? = none := by
  intro events a b p history
  obtain ⟨hviews, -, hruns⟩ := Audience.views_agree false events
  refine ⟨(hviews _ (by decide) ⟨1⟩ (by decide)).1, _, rfl, [_, _, _], _, _, rfl, rfl, rfl, ?_⟩
  refine hruns Delivery p history _ ⟨[a, b], [], fun i => .ofBool (3 ≤ i)⟩ rfl ?informs [_, _, _]
    ⟨.processing true a 0, some (.process (.ok ()))⟩ _ _ rfl rfl
    (.make (.given "a") (.ofBool false)) rfl fun i hi => ⟨[], by simp, ?kept⟩
  case kept =>
    have hnow : 3 ≤ i := hi
    show Signal.ofBool (decide (3 ≤ i + 1)) = Signal.ofBool (decide (3 ≤ i))
    rw [decide_eq_true hnow, decide_eq_true (Nat.le_succ_of_le hnow)]
  case informs =>
    refine Surroundings.informs_of_getElem fun i hi => ?_
    replace hi : i < 6 := hi
    interval_cases i
    case «2» | «5» => exact .of_look rfl trivial rfl
    all_goals exact .of_sample? rfl

end Courier
