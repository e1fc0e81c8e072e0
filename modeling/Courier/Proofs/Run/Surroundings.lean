import Courier.Proofs.Run.Exchange

/-!
# What a run can get to see

The surroundings of a run are the items of its two streams, and a signal that changes as it likes.
An answer shows them as they are (`Surroundings.Shows`) if it offers what is left of the streams and
says what the signal says. What a run acts on then follows from what it sees (`View.pick`), and the
messages that it has received are the beginning of the stream
(`Surroundings.Informs.received_prefix`).
-/

namespace Courier

variable {μ : Type}

/-- A look at a signal finds out whether it asks to stop. -/
theorem Listener.poll_fst (l : Listener) (s : Signal) : (l.poll s).1 = s.isStop := by
  unfold poll changed? Signal.isStop
  cases s.requested <;> cases s.attended <;> rfl

/-- Whether a stream of which `rest` is left can offer this. -/
def Offer.Heads {α : Type} (rest : List α) : Offer α → Prop
  | .nothing => True
  | .item a => rest.head? = some a
  | .ended => rest = []

/-- What a run can get to see. -/
structure Surroundings (μ : Type) where
  /-- The items of the message stream, in order. -/
  messages : List μ
  /-- The items of the error stream, in order. -/
  errors : List String
  /-- The signal as it is when the run gets its `i`-th answer. -/
  signal : Nat → Signal

namespace Surroundings

/-- Whether an answer shows the surroundings as they are, after some exchanges. -/
structure Shows (s : Surroundings μ) (before : List (Exchange μ)) (a : Answer μ) : Prop where
  signal : ∀ stop, a.sample? = some stop →
    ∃ l : Listener, stop = (l.poll (s.signal before.length)).1
  errors : ∀ view, a = .poll view →
    view.errors.Heads (s.errors.drop (Run.reported before).length)
  messages : ∀ view, a = .poll view →
    view.messages.Heads (s.messages.drop (Run.received before).length)

/-- Whether all answers show the surroundings as they are. -/
def Informs (s : Surroundings μ) (xs : List (Exchange μ)) : Prop :=
  ∀ before x after, xs = before ++ x :: after → s.Shows before x.answer

variable {s : Surroundings μ} {xs : List (Exchange μ)} {x : Exchange μ}

theorem Informs.of_append {ys : List (Exchange μ)} (h : s.Informs (xs ++ ys)) : s.Informs xs := by
  rintro before x after rfl
  exact h before x (after ++ ys) (by simp)

/-- What is seen of the signal is what it says. -/
theorem Shows.sample {a : Answer μ} {stop : Bool} (h : s.Shows xs a) (ha : a.sample? = some stop) :
    (s.signal xs.length).isStop = stop := by
  obtain ⟨l, rfl⟩ := h.signal stop ha
  exact (l.poll_fst _).symm

/-- What has nothing to say about the surroundings shows them as they are. -/
theorem Shows.of_sample? {a : Answer μ} (h : a.sample? = none) : s.Shows xs a where
  signal _ hstop := nomatch h.symm.trans hstop
  errors _ hview := nomatch h.symm.trans (congrArg Answer.sample? hview)
  messages _ hview := nomatch h.symm.trans (congrArg Answer.sample? hview)

/-- A look shows the surroundings as they are if it shows the signal and what is left of the
streams. -/
theorem Shows.of_look {view : View μ}
    (hstop : view.stop = ((⟨0⟩ : Listener).poll (s.signal xs.length)).1)
    (herrors : view.errors.Heads (s.errors.drop (Run.reported xs).length))
    (hmessages : view.messages.Heads (s.messages.drop (Run.received xs).length)) :
    s.Shows xs (.poll view) where
  signal _ hstop' := ⟨⟨0⟩, (Option.some.inj hstop').symm.trans hstop⟩
  errors _ hview := Answer.poll.inj hview ▸ herrors
  messages _ hview := Answer.poll.inj hview ▸ hmessages

theorem informs_of_getElem (h : ∀ i (hi : i < xs.length), s.Shows (xs.take i) xs[i].answer) :
    s.Informs xs := by
  rintro before x after rfl
  simpa using h before.length (by simp)

end Surroundings

/-! ## What has been received -/

/-- The messages are received in the order of the stream, each once. -/
theorem Surroundings.Informs.received_prefix {s : Surroundings μ} {xs : List (Exchange μ)}
    (h : s.Informs xs) : Run.received xs <+: s.messages := by
  induction xs using List.reverseRecOn with
  | nil => exact List.nil_prefix
  | append_singleton xs x ih =>
    rw [Run.received_concat]
    cases hreceived : x.received? with
    | none =>
      rw [Option.toList_none, List.append_nil]
      exact ih h.of_append
    | some m =>
      obtain ⟨errorsOpen, view, -, hanswer, hpick⟩ := Exchange.received?_eq_some hreceived
      have hheads := (h xs x [] rfl).messages view hanswer
      rw [View.pick_eq_message hpick] at hheads
      exact concat_prefix_of_head? (ih h.of_append) hheads

end Courier
