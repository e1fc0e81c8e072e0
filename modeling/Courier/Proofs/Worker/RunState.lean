import Courier.Proofs.Broker.Effort
import Courier.Proofs.Run.History
import Courier.Worker.Basic

/-!
# What a run does about the core

A run has a *state* at the transport: where it stands, its consumer and its lane. `RunState.Steps`
says once what a step of a run does to its state and to the core, as long as a consumer can be had
and messages can be settled. All that is shown about such steps is shown by cases on it:

* the core stays well formed (`RunState.Steps.wellFormed`), and the state keeps fitting it
  (`RunState.Steps.fits`);
* there is less to do after each step (`RunState.Steps.workLeft_lt`);
* each error ends one run at most (`RunState.Steps.faults_le`).

A run that ends with its stream closed leaves the transport *exhausted*: with nothing under way and
nobody to publish anything more (`Core.Exhausted`).
-/

namespace Courier

/-- Where a run stands, its consumer and its lane. -/
structure RunState where
  /-- Where it stands. -/
  phase : Phase Delivery
  /-- Its consumer, once it has one. -/
  consumer : Nat
  /-- The lane of its consumer, once it has one. -/
  lane : Nat

/-- Where a run stands, its consumer and its lane. -/
def WorkerRun.state (r : WorkerRun) : RunState := ⟨r.phase, r.consumer, r.lane⟩

/-- What a step of a run does to the core and to the state of the run. The run sees a request to
stop if `stop` says so, and has the rules `p`. -/
inductive RunState.Steps (p : Profile) (stop : Bool) (g : Core) (s : RunState) :
    Core → RunState → Prop
  /-- It gets a consumer. -/
  | create {attempt : UInt32} (h : s.phase = .creating attempt) :
    Steps p stop g s { g with consumers := g.consumers ++ [Consumer.idle] }
      { s with phase := .consuming, consumer := g.consumers.length }
  /-- It starts its consumer, and gets a lane. -/
  | consume {owner : Nat} {c : Consumer} (h : s.phase = .consuming)
    (hc : g.consumers[s.consumer]? = some c) :
    Steps p stop g s
      (({ g with lanes := g.lanes ++ [Lane.start owner c.limit] } : Core).setConsumer s.consumer
        { c with lane := some g.lanes.length })
      { s with phase := .polling true, lane := g.lanes.length }
  /-- It sees the request to stop. -/
  | stop {errorsOpen : Bool} (h : s.phase = .polling errorsOpen) (hstop : stop = true) :
    Steps p stop g s g { s with phase := .releasing (.ok ()) }
  /-- It takes an error. -/
  | error {l : Lane} {text : String} (h : s.phase = .polling true) (hl : g.lanes[s.lane]? = some l)
    (hslot : l.errorSlot = some text) :
    Steps p stop g s (g.setLane s.lane { l with errorSlot := none })
      { s with phase := .releasing (.error (.transport text)) }
  /-- It sees the end of the errors. -/
  | errorsEnded {l : Lane} (h : s.phase = .polling true) (hl : g.lanes[s.lane]? = some l)
    (hended : l.forwarder = .ended) :
    Steps p stop g s g { s with phase := .polling false }
  /-- It takes a message. -/
  | message {errorsOpen : Bool} {l : Lane} {d : Delivery} {since : Nat}
    (h : s.phase = .polling errorsOpen) (hl : g.lanes[s.lane]? = some l) (hslot : l.slot = some d) :
    Steps p stop g s (g.setLane s.lane { l with slot := none })
      { s with phase := .processing errorsOpen d since }
  /-- It sees the end of the messages. -/
  | messagesEnded {errorsOpen : Bool} {l : Lane} (h : s.phase = .polling errorsOpen)
    (hl : g.lanes[s.lane]? = some l) (hslot : l.slot = none) (hended : l.forwarder = .ended) :
    Steps p stop g s g { s with phase := .releasing (.error .streamClosed) }
  /-- It is done with a message. -/
  | finish {errorsOpen : Bool} {d : Delivery} {since : Nat} {failure : Option String}
    (h : s.phase = .processing errorsOpen d since) :
    Steps p stop g s g { s with phase := .settling errorsOpen d failure }
  /-- It settles a message, and goes on. -/
  | goOn {errorsOpen : Bool} {d : Delivery} {failure : Option String}
    (h : s.phase = .settling errorsOpen d failure)
    (hflow : failure = none ∨ p.strategy.flow = .continue) :
    Steps p stop g s
      { g with outcomes := g.outcomes ++ [⟨d.seq, d.id, p.dispositionAfter failure⟩] }
      { s with phase := .polling errorsOpen }
  /-- It settles a message that it has failed with, and stops. -/
  | giveUp {errorsOpen : Bool} {d : Delivery} {cause : String}
    (h : s.phase = .settling errorsOpen d (some cause)) (hflow : p.strategy.flow = .exit) :
    Steps p stop g s
      { g with outcomes := g.outcomes ++ [⟨d.seq, d.id, p.dispositionAfter (some cause)⟩] }
      { s with phase := .releasing (.error (.processing cause)) }
  /-- It lets go of the errors. -/
  | dropErrors {result : RunResult} {l : Lane} (h : s.phase = .releasing result)
    (hl : g.lanes[s.lane]? = some l) (hreads : l.readsErrors = true) :
    Steps p stop g s (g.setLane s.lane { l with readsErrors := false, errorSlot := none }) s
  /-- It lets go of the messages. -/
  | dropMessages {result : RunResult} {l : Lane} {g₁ : Core} {f : Forwarder}
    (h : s.phase = .releasing result) (hl : g.lanes[s.lane]? = some l)
    (hreads : l.readsMessages = true) (hempties : g.Empties l g₁ f) :
    Steps p stop g s
      (g₁.setLane s.lane { l with readsMessages := false, slot := none, forwarder := f }) s
  /-- It lets go of all that is left, and asks its forwarder to end. -/
  | release {result : RunResult} {l : Lane} {g₁ : Core} {f : Forwarder} {consumers : List Consumer}
    (h : s.phase = .releasing result) (hl : g.lanes[s.lane]? = some l)
    (hempties : g.Empties l g₁ f) (hlimit : ∀ c ∈ consumers, c.limit = none) :
    Steps p stop g s
      (({ g₁ with consumers := consumers } : Core).setLane s.lane
        { l with readsErrors := false, errorSlot := none, readsMessages := false, slot := none,
                 forwarder := f, aborted := true })
      { s with phase := .closing result }
  /-- It closes its consumer. -/
  | close {result : RunResult} {consumers : List Consumer} (h : s.phase = .closing result)
    (hlimit : ∀ c ∈ consumers, c.limit = none) :
    Steps p stop g s { g with consumers := consumers } { s with phase := .stopped result }

/-! ## Fitting the core -/

/-- Nothing is under way, nobody is left to publish anything, and the lane is not in use any
more. -/
structure Core.Exhausted (g : Core) (n : Nat) : Prop where
  publishers : g.publishers = 0
  incoming : g.incoming = []
  returned : g.returned = []
  lane : ∀ l, g.lanes[n]? = some l → l.slot = none ∧ l.forwarder = .ended

/-- What a run finds in its lane while it handles messages: its forwarder has ended only if there is
no more to come. -/
structure Lane.Serves (g : Core) (errorsOpen : Bool) (l : Lane) : Prop where
  readsMessages : l.readsMessages = true
  readsErrors : l.readsErrors = true
  aborted : l.aborted = false
  errorsEnded : errorsOpen = false → l.forwarder = .ended
  ended : l.forwarder = .ended → g.publishers = 0 ∧ g.incoming = [] ∧ g.returned = []

/-- What the result of a run says about the core: that it is exhausted, or that the run was cut
short. -/
def Core.AllowsResult (g : Core) (n : Nat) : RunResult → Prop
  | .error .streamClosed => g.Exhausted n
  | .ok () | .error (.transport _) | .error (.processing _) => True
  | .error _ => False

namespace RunState

/-- Whether the consumer of a run is there, with this lane if it has one. -/
def Consumes (g : Core) (s : RunState) (lane : Option Nat) : Prop :=
  ∃ c, g.consumers[s.consumer]? = some c ∧ c.lane = lane

/-- Whether the core is as a run needs it where it stands. -/
def Fits (g : Core) (s : RunState) : Prop :=
  match s.phase with
  | .creating _ => True
  | .retrying .. => False
  | .consuming => s.Consumes g none
  | .polling errorsOpen | .processing errorsOpen _ _ | .settling errorsOpen _ _ =>
    s.Consumes g (some s.lane) ∧ ∃ l, g.lanes[s.lane]? = some l ∧ l.Serves g errorsOpen
  | .releasing result =>
    s.Consumes g (some s.lane) ∧ (∃ l, g.lanes[s.lane]? = some l) ∧ g.AllowsResult s.lane result
  | .closing result =>
    (∃ l, g.lanes[s.lane]? = some l ∧ (l.aborted = true ∨ l.forwarder = .ended)) ∧
      g.AllowsResult s.lane result
  | .stopped result => g.AllowsResult s.lane result

variable {p : Profile} {stop : Bool} {g g' : Core} {s s' : RunState}

/-- A core that is exhausted stays so as long as nothing is added. -/
theorem allowsResult_of_exhausted {n : Nat} {result : RunResult} (h : g.AllowsResult n result)
    (hexhausted : g.Exhausted n → g'.Exhausted n) : g'.AllowsResult n result := by
  unfold Core.AllowsResult at *
  split at h
  · exact hexhausted h
  · trivial
  · trivial
  · trivial
  · exact h.elim

end RunState

namespace Core

variable {g g' : Core} {n : Nat} {l l' : Lane} {f : Forwarder}

theorem getElem?_setLane (h : g.lanes[n]? = some l) : (g.setLane n l').lanes[n]? = some l' :=
  List.getElem?_set_self (List.getElem?_eq_some_iff.mp h).1

theorem Exhausted.setLane (h : g.Exhausted n) (hl : g.lanes[n]? = some l)
    (hslot : l.slot = none → l'.slot = none)
    (hended : l.forwarder = .ended → l'.forwarder = .ended) : (g.setLane n l').Exhausted n where
  publishers := h.publishers
  incoming := h.incoming
  returned := h.returned
  lane k hk := by
    obtain rfl : l' = k := Option.some.inj ((getElem?_setLane hl).symm.trans hk)
    obtain ⟨hnone, hend⟩ := h.lane l hl
    exact ⟨hslot hnone, hended hend⟩

/-- A slot is emptied without changing anything but the returned messages and their sign. -/
theorem Empties.rest (h : g.Empties l g' f) :
    g' = { g with returned := g'.returned, permit := g'.permit } := by
  rcases h with ⟨-, rfl, -⟩ | ⟨-, hreturns⟩
  · rfl
  · exact hreturns.rest

/-- A forwarder that gets a sign stands where it stood. -/
theorem Empties.forwarder_eq (h : g.Empties l g' f) :
    f = l.forwarder ∨ f = l.forwarder.withSign := by
  rcases h with ⟨-, -, rfl⟩ | ⟨-, hreturns⟩
  · exact .inl rfl
  · exact hreturns.sign.imp_right fun hsign => hsign.2.1

/-- There is nothing in the slot of a lane that is not in use. -/
theorem Exhausted.empties (h : g.Exhausted n) (hl : g.lanes[n]? = some l)
    (hempties : g.Empties l g' f) (consumers : List Consumer) (hslot : l'.slot = none)
    (hforwarder : l'.forwarder = f) :
    (({ g' with consumers := consumers } : Core).setLane n l').Exhausted n := by
  obtain ⟨hnone, hended⟩ := h.lane l hl
  rcases hempties with ⟨-, rfl, rfl⟩ | ⟨hsome, -⟩
  · have hexhausted : ({ g' with consumers := consumers } : Core).Exhausted n :=
      ⟨h.1, h.2, h.3, h.4⟩
    exact hexhausted.setLane hl (fun _ => hslot) fun hend => hforwarder.trans hend
  · rw [hnone] at hsome
    cases hsome

end Core

namespace Forwarder

theorem isQueued_withSign (f : Forwarder) : f.withSign.isQueued = f.isQueued := by
  cases f <;> rfl

theorem hasNoDeadline_withSign (f : Forwarder) : f.withSign.hasNoDeadline = f.hasNoDeadline := by
  cases f <;> rfl

theorem isReporting_withSign (f : Forwarder) : f.withSign.isReporting = f.isReporting := by
  cases f <;> rfl

end Forwarder

/-! ## What a step of a run preserves -/

namespace RunState.Steps

variable {p : Profile} {stop : Bool} {g g' : Core} {s s' : RunState}

/-- A run leaves the publishers and what they wait for as they are. -/
theorem publishing_eq (h : s.Steps p stop g g' s') :
    g'.publishers = g.publishers ∧ g'.blocked = g.blocked ∧ g'.nextSeq = g.nextSeq := by
  cases h with
  | dropMessages h hl hreads hempties | release h hl hempties =>
    rw [hempties.rest]
    exact ⟨rfl, rfl, rfl⟩
  | _ => exact ⟨rfl, rfl, rfl⟩

/-- A step of a run leaves the core well formed. -/
theorem wellFormed (h : s.Steps p stop g g' s') (hwf : g.WellFormed) : g'.WellFormed := by
  have hset {l l' : Lane} {g₁ : Core} (hl : g.lanes[s.lane]? = some l) (h₁ : g₁.WellFormed)
      (hlanes : g₁.lanes = g.lanes) (hlimit : l'.limit = l.limit)
      (hforwarder : l'.forwarder = l.forwarder ∨ l'.forwarder = l.forwarder.withSign) :
      (g₁.setLane s.lane l').WellFormed := by
    obtain ⟨hnone, hunlimited⟩ := hwf.hasNoLimit hl
    refine h₁.setLane ⟨hlimit.trans hnone, ?_⟩ (h₁.inLine.set (hlanes ▸ hl) ?_)
    · rcases hforwarder with hf | hf <;> rw [hf]
      · exact hunlimited
      · rwa [Forwarder.hasNoDeadline_withSign]
    · rcases hforwarder with hf | hf <;> rw [hf]
      exact Forwarder.isQueued_withSign _
  have hemptied {l : Lane} {g₁ : Core} {f : Forwarder} (hempties : g.Empties l g₁ f) :
      g₁.WellFormed ∧ g₁.lanes = g.lanes := by
    rw [hempties.rest]
    exact ⟨hwf.setReturned _ _, rfl⟩
  cases h with
  | create =>
    refine hwf.setConsumers fun c hc => ?_
    rcases List.mem_append.mp hc with hc | hc
    · exact hwf.unlimited c hc
    · rw [List.mem_singleton.mp hc]
      rfl
  | consume h hc =>
    have hlimit := hwf.unlimited _ (List.mem_of_getElem? hc)
    refine (hwf.addLane _ hlimit).setConsumers fun c hc => ?_
    rcases List.mem_or_eq_of_mem_set hc with hc | rfl
    · exact hwf.unlimited c hc
    · exact hlimit
  | stop | errorsEnded | messagesEnded | finish => exact hwf
  | goOn | giveUp => exact hwf.setOutcomes _
  | error h hl | message h hl | dropErrors h hl => exact hset hl hwf rfl rfl (.inl rfl)
  | dropMessages h hl hreads hempties =>
    obtain ⟨h₁, hlanes⟩ := hemptied hempties
    exact hset hl h₁ hlanes rfl hempties.forwarder_eq
  | release h hl hempties hlimit =>
    obtain ⟨h₁, hlanes⟩ := hemptied hempties
    exact hset hl (h₁.setConsumers hlimit) hlanes rfl hempties.forwarder_eq
  | close h hlimit => exact hwf.setConsumers hlimit

/-- A step of a run leaves the core as the run needs it. -/
theorem fits (h : s.Steps p stop g g' s') (hfits : s.Fits g) : s'.Fits g' := by
  unfold Fits at hfits
  cases h with
  | create h =>
    exact ⟨Consumer.idle, by simp, rfl⟩
  | consume h hc =>
    have hlt : s.consumer < g.consumers.length := (List.getElem?_eq_some_iff.mp hc).1
    refine ⟨⟨_, List.getElem?_set_self hlt, rfl⟩, _, List.getElem?_concat_length, ?_⟩
    exact ⟨rfl, rfl, rfl, (nomatch ·), (nomatch ·)⟩
  | stop h =>
    rw [h] at hfits
    obtain ⟨hconsumer, l, hl, -⟩ := hfits
    exact ⟨hconsumer, ⟨l, hl⟩, trivial⟩
  | error h hl =>
    rw [h] at hfits
    exact ⟨hfits.1, ⟨_, Core.getElem?_setLane hl⟩, trivial⟩
  | errorsEnded h hl hended =>
    rw [h] at hfits
    obtain ⟨hconsumer, l, hl', hserves⟩ := hfits
    obtain rfl := Option.some.inj (hl.symm.trans hl')
    exact ⟨hconsumer, _, hl, { hserves with errorsEnded := fun _ => hended }⟩
  | message h hl =>
    rw [h] at hfits
    obtain ⟨hconsumer, l, hl', hserves⟩ := hfits
    obtain rfl := Option.some.inj (hl.symm.trans hl')
    exact ⟨hconsumer, _, Core.getElem?_setLane hl, hserves.1, hserves.2, hserves.3, hserves.4,
      hserves.5⟩
  | messagesEnded h hl hslot hended =>
    rw [h] at hfits
    obtain ⟨hconsumer, l, hl', hserves⟩ := hfits
    obtain rfl := Option.some.inj (hl.symm.trans hl')
    obtain ⟨hpublishers, hincoming, hreturned⟩ := hserves.ended hended
    refine ⟨hconsumer, ⟨_, hl⟩, hpublishers, hincoming, hreturned, fun k hk => ?_⟩
    obtain rfl := Option.some.inj (hl.symm.trans hk)
    exact ⟨hslot, hended⟩
  | finish h =>
    rw [h] at hfits
    exact hfits
  | goOn h =>
    rw [h] at hfits
    obtain ⟨hconsumer, l, hl, hserves⟩ := hfits
    exact ⟨hconsumer, l, hl, hserves.1, hserves.2, hserves.3, hserves.4, hserves.5⟩
  | giveUp h =>
    rw [h] at hfits
    obtain ⟨hconsumer, l, hl, -⟩ := hfits
    exact ⟨hconsumer, ⟨l, hl⟩, trivial⟩
  | dropErrors h hl =>
    rw [h] at hfits
    obtain ⟨hconsumer, -, hallows⟩ := hfits
    simp only [Fits, h]
    exact ⟨hconsumer, ⟨_, Core.getElem?_setLane hl⟩,
      allowsResult_of_exhausted hallows fun hexhausted =>
      hexhausted.setLane hl id id⟩
  | @dropMessages _ l _ f h hl hreads hempties =>
    rw [h] at hfits
    obtain ⟨⟨c, hc, hlane⟩, -, hallows⟩ := hfits
    simp only [Fits, h]
    refine ⟨⟨c, ?_, hlane⟩, ⟨_, Core.getElem?_setLane (l := l) (by rw [hempties.rest]; exact hl)⟩,
      ?_⟩
    · rw [hempties.rest]
      exact hc
    · refine allowsResult_of_exhausted hallows fun hexhausted =>
        hexhausted.empties hl hempties _ ?_ ?_
      · rfl
      · rfl
  | @release _ l _ f _ h hl hempties =>
    rw [h] at hfits
    obtain ⟨-, -, hallows⟩ := hfits
    refine ⟨⟨_, Core.getElem?_setLane (l := l) (by rw [hempties.rest]; exact hl), .inl rfl⟩, ?_⟩
    refine allowsResult_of_exhausted hallows fun hexhausted =>
      hexhausted.empties hl hempties _ ?_ ?_
    · rfl
    · rfl
  | close h =>
    rw [h] at hfits
    exact allowsResult_of_exhausted hfits.2 fun hexhausted =>
      ⟨hexhausted.1, hexhausted.2, hexhausted.3, hexhausted.4⟩

end RunState.Steps

/-! ## What others do meanwhile -/

namespace RunState

variable {p : Profile} {stop : Bool} {g g' : Core} {s s' : RunState} {n : Nat} {l : Lane}

/-- The forwarder of its lane leaves the core as a run needs it. It has found no returned message
when it ends. -/
theorem Fits.forwarderStep (h : s.Fits g) (hlane : s.lane = n) (hl : g.lanes[n]? = some l)
    (hforward : g.ForwarderStep n l g')
    (hwaiting : l.readsMessages = true → l.forwarder.isAwaitingNew → g.returned = []) :
    s.Fits g' := by
  subst hlane
  obtain ⟨l', hrest, hbegun, haborted, hmessages, herrors, hended⟩ := hforward.only
  have hl' : g'.lanes[s.lane]? = some l' := by
    rw [hrest]
    exact Core.getElem?_setLane hl
  have hconsumes {lane : Option Nat} (hc : s.Consumes g lane) : s.Consumes g' lane := by
    rw [hrest]
    exact hc
  -- A lane that is not in use has no forwarder that could do anything.
  have hallows {result : RunResult} (hc : g.AllowsResult s.lane result) :
      g'.AllowsResult s.lane result :=
    allowsResult_of_exhausted hc fun hexhausted => absurd (hexhausted.lane l hl).2 hbegun
  have hserves {errorsOpen : Bool} (hs : l.Serves g errorsOpen) : l'.Serves g' errorsOpen := by
    refine ⟨hmessages.trans hs.readsMessages, herrors.trans hs.readsErrors,
      haborted.trans hs.aborted, fun hclosed => absurd (hs.errorsEnded hclosed) hbegun, fun hend =>
        ?_⟩
    rcases hended hend with ⟨hawaiting, hpublishers, hincoming, hreturned⟩ | hgone | hgone | hgone
    · refine ⟨?_, hincoming, hreturned.trans (hwaiting hs.readsMessages hawaiting)⟩
      rw [hrest]
      exact hpublishers
    · exact absurd (hs.aborted.symm.trans hgone) (by simp)
    · exact absurd (hs.readsMessages.symm.trans hgone) (by simp)
    · exact absurd (hs.readsErrors.symm.trans hgone) (by simp)
  have hactive {errorsOpen : Bool}
      (h : s.Consumes g (some s.lane) ∧ ∃ k, g.lanes[s.lane]? = some k ∧ k.Serves g errorsOpen) :
      s.Consumes g' (some s.lane) ∧ ∃ k, g'.lanes[s.lane]? = some k ∧ k.Serves g' errorsOpen := by
    obtain ⟨hconsumer, k, hk, hs⟩ := h
    obtain rfl := Option.some.inj (hl.symm.trans hk)
    exact ⟨hconsumes hconsumer, l', hl', hserves hs⟩
  unfold Fits at h ⊢
  split at h
  · trivial
  · exact h.elim
  · exact hconsumes h
  · exact hactive h
  · exact hactive h
  · exact hactive h
  · exact ⟨hconsumes h.1, ⟨l', hl'⟩, hallows h.2.2⟩
  · obtain ⟨⟨k, hk, hgone⟩, hc⟩ := h
    obtain rfl := Option.some.inj (hl.symm.trans hk)
    exact ⟨⟨l', hl', .inl (haborted.trans (hgone.resolve_right hbegun))⟩, hallows hc⟩
  · exact hallows h

/-- As long as there are publishers, they leave the core as a run needs it. -/
theorem Fits.publishing (h : s.Fits g) (hpublishers : g.publishers ≠ 0)
    (hlanes : g'.lanes = g.lanes) (hconsumers : g'.consumers = g.consumers) : s.Fits g' := by
  have hserves {errorsOpen : Bool} {l : Lane} (hs : l.Serves g errorsOpen) :
      l.Serves g' errorsOpen :=
    ⟨hs.1, hs.2, hs.3, hs.4, fun hend => absurd (hs.ended hend).1 hpublishers⟩
  have hallows {result : RunResult} (hc : g.AllowsResult s.lane result) :
      g'.AllowsResult s.lane result :=
    allowsResult_of_exhausted hc fun hexhausted => absurd hexhausted.publishers hpublishers
  unfold Fits Consumes at h ⊢
  rw [hlanes, hconsumers]
  split at h
  · trivial
  · exact h.elim
  · exact h
  · obtain ⟨hconsumer, k, hk, hs⟩ := h
    exact ⟨hconsumer, k, hk, hserves hs⟩
  · obtain ⟨hconsumer, k, hk, hs⟩ := h
    exact ⟨hconsumer, k, hk, hserves hs⟩
  · obtain ⟨hconsumer, k, hk, hs⟩ := h
    exact ⟨hconsumer, k, hk, hserves hs⟩
  · exact ⟨h.1, h.2.1, hallows h.2.2⟩
  · exact ⟨h.1, hallows h.2⟩
  · exact hallows h

end RunState

/-! ## What is left to do -/

/-- How far a run is from its end. -/
def Phase.stage : Phase Delivery → Nat
  | .creating _ | .retrying .. => 600
  | .consuming => 500
  | .polling errorsOpen => 400 + errorsOpen.toNat
  | .settling errorsOpen _ _ => 401 + errorsOpen.toNat
  | .processing errorsOpen _ _ => 402 + errorsOpen.toNat
  | .releasing _ => 300
  | .closing _ => 200
  | .stopped _ => 100

/-- Whether a run is to end with an error of the transport. -/
def Phase.meetsError (phase : Phase Delivery) : Bool :=
  match phase.outcome? with
  | some (.error (.transport _)) => true
  | _ => false

/-- Whether a run is to end with a failure of its processor. -/
def Phase.meetsFailure (p : Profile) : Phase Delivery → Bool
  | .settling _ _ (some _) => p.strategy.flow = .exit
  | .releasing (.error (.processing _)) | .closing (.error (.processing _))
  | .stopped (.error (.processing _)) => true
  | _ => false

namespace Core

variable {g g' : Core} {n : Nat} {l l' : Lane} {f : Forwarder}

theorem effort_withSign (h : f.isParked) : f.withSign.effort ≤ f.effort + 3 := by
  cases f with
  | parked deadline notified => cases notified <;> simp [Forwarder.withSign, Forwarder.effort]
  | _ => cases h

theorem effort_setLane_lt {k stage : Nat} (h : g.lanes[n]? = some l)
    (hk : g.effort + l'.effort + stage < k + l.effort) : (g.setLane n l').effort + stage < k := by
  have hset : (g.setLane n l').effort + l.effort = g.effort + l'.effort := weight_setLane h l'
  omega

theorem faults_setLane_le {k fault : Nat} (h : g.lanes[n]? = some l)
    (hk : g.faults + l'.faults + fault ≤ k + l.faults) : (g.setLane n l').faults + fault ≤ k := by
  have hset : (g.setLane n l').faults + l.faults = g.faults + l'.faults := weight_setLane h l'
  omega

/-- A message that goes back has to be taken up again, and its sign is to be followed. -/
theorem effort_empties (h : g.Empties l g' f) :
    g'.effort + f.effort ≤ g.effort + l.forwarder.effort + 13 * l.slot.isSome.toNat := by
  rcases h with ⟨-, rfl, rfl⟩ | ⟨hsome, hlength, hrest, hsign⟩
  · omega
  · have hpermit := g'.permit.toNat_le
    rw [hrest, hsome, Bool.toNat_true]
    simp only [effort, weight, Weights.effort]
    rcases hsign with rfl | ⟨hparked, rfl, hsame⟩
    · omega
    · have hwithSign := effort_withSign hparked
      rw [hsame]
      omega

theorem faults_empties (h : g.Empties l g' f) :
    g'.faults = g.faults ∧ f.isReporting = l.forwarder.isReporting := by
  constructor
  · rw [h.rest]
    simp only [faults, weight, Weights.faults]
    omega
  · rcases h.forwarder_eq with rfl | rfl
    · rfl
    · exact Forwarder.isReporting_withSign _

end Core

namespace RunState.Steps

variable {p : Profile} {stop : Bool} {g g' : Core} {s s' : RunState}

/-- There is less to do after each step of a run. -/
theorem workLeft_lt (h : s.Steps p stop g g' s') :
    g'.effort + s'.phase.stage < g.effort + s.phase.stage := by
  cases h with
  | create h | stop h | errorsEnded h | messagesEnded h | finish h | goOn h | giveUp h | close h =>
    rw [h]
    simp only [Phase.stage, Core.effort, Core.weight, Bool.toNat_true, Bool.toNat_false]
    omega
  | consume h hc =>
    rw [h]
    simp only [Phase.stage, Core.effort, Core.weight, Core.setConsumer, List.map_append,
      List.map_cons, List.map_nil, List.sum_append, List.sum_cons, List.sum_nil, Bool.toNat_true]
    simp only [Weights.effort, Lane.start, Lane.effort, Forwarder.effort, Option.isSome_none,
      Bool.toNat_true, Bool.toNat_false]
    omega
  | error h hl hslot =>
    refine Core.effort_setLane_lt hl ?_
    simp only [h, Phase.stage, Lane.effort, Bool.toNat_true]
    omega
  | message h hl hslot =>
    refine Core.effort_setLane_lt hl ?_
    simp only [h, hslot, Phase.stage, Lane.effort, Option.isSome_some, Option.isSome_none,
      Bool.toNat_true, Bool.toNat_false]
    omega
  | dropErrors h hl hreads =>
    refine Core.effort_setLane_lt hl ?_
    simp only [hreads, Lane.effort, Bool.toNat_true, Bool.toNat_false]
    omega
  | @dropMessages _ l g₁ f h hl hreads hempties =>
    have hempty := Core.effort_empties hempties
    have hslot := l.slot.isSome.toNat_le
    refine Core.effort_setLane_lt (l := l) (by rw [hempties.rest]; exact hl) ?_
    simp only [hreads, Lane.effort, Option.isSome_none, Bool.toNat_true, Bool.toNat_false]
    omega
  | @release _ l g₁ f consumers h hl hempties =>
    have hempty := Core.effort_empties hempties
    have hslot := l.slot.isSome.toNat_le
    have hsame : ({ g₁ with consumers := consumers } : Core).effort = g₁.effort := rfl
    refine Core.effort_setLane_lt (l := l) (by rw [hempties.rest]; exact hl) ?_
    simp only [hsame, h, Phase.stage, Lane.effort, Option.isSome_none, Bool.toNat_false]
    omega

/-- A run that takes an error is the only one to end with it. -/
theorem faults_le (h : s.Steps p stop g g' s') :
    g'.faults + s'.phase.meetsError.toNat ≤ g.faults + s.phase.meetsError.toNat := by
  cases h with
  | create h | stop h | errorsEnded h | messagesEnded h | finish h | goOn h | giveUp h | close h =>
    rw [h]
    exact Nat.le_refl _
  | consume h hc =>
    rw [h]
    simp only [Core.faults, Core.weight, Core.setConsumer, List.map_append, List.map_cons,
      List.map_nil, List.sum_append, List.sum_cons, List.sum_nil]
    exact Nat.le_refl _
  | error h hl hslot =>
    refine Core.faults_setLane_le hl ?_
    rw [h]
    simp only [hslot, Lane.faults, Option.isSome_some, Option.isSome_none, Phase.meetsError,
      Phase.outcome?, Bool.toNat_true, Bool.toNat_false]
    omega
  | message h hl hslot =>
    refine Core.faults_setLane_le hl ?_
    rw [h]
    exact Nat.le_refl _
  | dropErrors h hl hreads =>
    refine Core.faults_setLane_le hl ?_
    simp only [Lane.faults, Option.isSome_none, Bool.toNat_false]
    omega
  | @dropMessages _ l g₁ f h hl hreads hempties =>
    obtain ⟨hsame, hreporting⟩ := Core.faults_empties hempties
    refine Core.faults_setLane_le (l := l) (by rw [hempties.rest]; exact hl) ?_
    simp only [hsame, hreporting, Lane.faults]
    omega
  | @release _ l g₁ f consumers h hl hempties =>
    obtain ⟨hsame, hreporting⟩ := Core.faults_empties hempties
    have hsame' : ({ g₁ with consumers := consumers } : Core).faults = g.faults := hsame
    refine Core.faults_setLane_le (l := l) (by rw [hempties.rest]; exact hl) ?_
    simp only [hsame', hreporting, h, Lane.faults, Phase.meetsError, Phase.outcome?,
      Option.isSome_none, Bool.toNat_false]
    omega

/-- A run meets a failure of its processor only when the processor is done with a message. -/
theorem meetsFailure_le (h : s.Steps p stop g g' s')
    (hphase : ∀ e d t, s.phase ≠ .processing e d t) :
    (s'.phase.meetsFailure p).toNat ≤ (s.phase.meetsFailure p).toNat := by
  cases h with
  | finish h => exact absurd h (hphase _ _ _)
  | goOn | create | consume | stop | error | errorsEnded | message | messagesEnded =>
    exact Nat.zero_le _
  | giveUp h hflow =>
    rw [h]
    simp [Phase.meetsFailure, hflow]
  | dropErrors | dropMessages => exact Nat.le_refl _
  | @release result _ _ _ _ h | @close result _ h =>
    rw [h]
    rcases result with (_ | _) | _ <;> exact Nat.le_refl _

/-- A run is to end well only if it sees the request to stop. -/
theorem stop_of_outcome? (h : s.Steps p stop g g' s')
    (hbefore : s.phase.outcome? = some (.ok ()) → stop = true)
    (hok : s'.phase.outcome? = some (.ok ())) : stop = true := by
  cases h with
  | stop _ hstop => exact hstop
  | dropErrors | dropMessages => exact hbefore hok
  | release h | close h => exact hbefore (by rw [h]; exact hok)
  | _ => cases hok

end RunState.Steps

end Courier
