import Courier.Proofs.Run.History

/-!
# What passes between a run and its surroundings

`Run.exchanges` pairs every answer of a history with the phase that the run was in, and so with the
request that it made. What a run did with its messages can be read off the exchanges:
which ones it took off the stream (`received`), which ones it processed and with what result
(`processed`), and how it settled them (`settled`).

The phase that a run has come to says how these lists go together (`Phase.Accounts`): every message
that was received has been processed and then settled, but for the one in progress
(`accounts_replay`).
-/

namespace Courier

variable {μ : Type}

/-- What a call failed with, if it failed. -/
def failure? : Except String Unit → Option String
  | .ok () => none
  | .error cause => some cause

theorem failure?_eq_some {result : Except String Unit} {cause : String} :
    failure? result = some cause ↔ result = .error cause := by
  cases result <;> simp [failure?]

/-- There is one strategy that ends a run. -/
theorem FailStrategy.flow_eq_exit_iff {strategy : FailStrategy} :
    strategy.flow = .exit ↔ strategy = .nackExit := by
  cases strategy <;> decide

/-- An answer, and where the run stood when it was given. -/
structure Exchange (μ : Type) where
  /-- Where the run stood. -/
  phase : Phase μ
  /-- The answer, and its time. -/
  stamped : Stamped μ

namespace Exchange

/-- The answer. -/
def answer (x : Exchange μ) : Answer μ := x.stamped.answer

/-- The message that the run took off its stream. -/
def received? (x : Exchange μ) : Option μ :=
  match x.phase, x.answer with
  | .polling errorsOpen, .poll view =>
    match view.pick errorsOpen with
    | some (.message m) => some m
    | _ => none
  | _, _ => none

/-- The error that the run took off its stream. -/
def reported? (x : Exchange μ) : Option String :=
  match x.phase, x.answer with
  | .polling errorsOpen, .poll view =>
    match view.pick errorsOpen with
    | some (.error cause) => some cause
    | _ => none
  | _, _ => none

/-- The message that was processed, and the result. -/
def processed? (x : Exchange μ) : Option (μ × Except String Unit) :=
  match x.phase, x.answer with
  | .processing _ m _, .process result => some (m, result)
  | _, _ => none

/-- The message that was to be settled, how, and the result. -/
def settled? (p : Profile) (x : Exchange μ) : Option (μ × Disposition × Except String Unit) :=
  match x.phase, x.answer with
  | .settling _ m failure, .settle result => some (m, p.dispositionAfter failure, result)
  | _, _ => none

variable {x : Exchange μ} {m : μ} {result : Except String Unit}

/-- The message that was received is the one on offer. -/
theorem received?_eq_some {m : μ} (h : x.received? = some m) :
    ∃ errorsOpen view, x.phase = .polling errorsOpen ∧ x.answer = .poll view ∧
      view.pick errorsOpen = some (.message m) := by
  obtain ⟨phase, now, a⟩ := x
  cases phase with
  | polling errorsOpen =>
    cases a with
    | poll view =>
      simp only [received?, answer] at h
      split at h
      · next hpick =>
        obtain rfl := Option.some.inj h
        exact ⟨errorsOpen, view, rfl, rfl, hpick⟩
      · cases h
    | _ => cases h
  | _ => cases h

theorem processed?_eq_some (h : x.processed? = some (m, result)) :
    ∃ errorsOpen since, x.phase = .processing errorsOpen m since ∧ x.answer = .process result := by
  obtain ⟨phase, now, a⟩ := x
  cases phase with
  | processing errorsOpen m' since =>
    cases a with
    | process result' =>
      obtain ⟨rfl, rfl⟩ := Prod.mk.inj (Option.some.inj h)
      exact ⟨errorsOpen, since, rfl, rfl⟩
    | _ => cases h
  | _ => cases h

theorem settled?_eq_some {p : Profile} {disposition : Disposition}
    (h : x.settled? p = some (m, disposition, result)) :
    ∃ errorsOpen failure, x.phase = .settling errorsOpen m failure ∧ x.answer = .settle result ∧
      p.dispositionAfter failure = disposition := by
  obtain ⟨phase, now, a⟩ := x
  cases phase with
  | settling errorsOpen m' failure =>
    cases a with
    | settle result' =>
      obtain ⟨rfl, hrest⟩ := Prod.mk.inj (Option.some.inj h)
      obtain ⟨hdisposition, rfl⟩ := Prod.mk.inj hrest
      exact ⟨errorsOpen, failure, rfl, rfl, hdisposition⟩
    | _ => cases h
  | _ => cases h

end Exchange

/-! ## The exchanges of a history -/

namespace Run

/-- The messages that were taken off the stream, in order. -/
def received (xs : List (Exchange μ)) : List μ := xs.filterMap Exchange.received?

/-- The errors that were taken off the stream, in order. -/
def reported (xs : List (Exchange μ)) : List String := xs.filterMap Exchange.reported?

/-- The messages that were processed, in order, with the results. -/
def processed (xs : List (Exchange μ)) : List (μ × Except String Unit) :=
  xs.filterMap Exchange.processed?

/-- The settlements, in order. -/
def settled (p : Profile) (xs : List (Exchange μ)) : List (μ × Disposition × Except String Unit) :=
  xs.filterMap (Exchange.settled? p)

@[simp] theorem received_concat (xs : List (Exchange μ)) (x : Exchange μ) :
    received (xs ++ [x]) = received xs ++ x.received?.toList :=
  filterMap_concat _ xs x

@[simp] theorem processed_concat (xs : List (Exchange μ)) (x : Exchange μ) :
    processed (xs ++ [x]) = processed xs ++ x.processed?.toList :=
  filterMap_concat _ xs x

@[simp] theorem settled_concat (p : Profile) (xs : List (Exchange μ)) (x : Exchange μ) :
    settled p (xs ++ [x]) = settled p xs ++ (x.settled? p).toList :=
  filterMap_concat _ xs x

variable [Identified μ]

/-- What passes between a run and its surroundings from now on. -/
def exchangesFrom (p : Profile) (r : Run μ) : List (Stamped μ) → List (Exchange μ)
  | [] => []
  | a :: history => ⟨r.phase, a⟩ :: (r.step p a).elim [] fun r => exchangesFrom p r history

/-- What passes between a run and its surroundings. -/
def exchanges (p : Profile) (history : List (Stamped μ)) : List (Exchange μ) :=
  exchangesFrom p (start p) history

variable {p : Profile} {r r' : Run μ} {history : List (Stamped μ)}

theorem exchangesFrom_cons {s : Run μ} {a : Stamped μ} (h : r.step p a = some s) :
    exchangesFrom p r (a :: history) = ⟨r.phase, a⟩ :: exchangesFrom p s history := by
  rw [exchangesFrom, h, Option.elim_some]

theorem exchangesFrom_append {h₁ h₂ : List (Stamped μ)} (h : follow p r h₁ = some r') :
    exchangesFrom p r (h₁ ++ h₂) = exchangesFrom p r h₁ ++ exchangesFrom p r' h₂ := by
  induction h₁ generalizing r with
  | nil =>
    obtain rfl := Option.some.inj h
    rfl
  | cons a h₁ ih =>
    obtain ⟨s, hs, hrest⟩ := Option.bind_eq_some_iff.mp h
    rw [List.cons_append, exchangesFrom_cons hs, exchangesFrom_cons hs, ih hrest, List.cons_append]

/-- One more answer adds one more exchange. -/
theorem exchanges_concat (h : replay p history = some r) (a : Stamped μ) :
    exchanges p (history ++ [a]) = exchanges p history ++ [⟨r.phase, a⟩] := by
  have hlast : exchangesFrom p r [a] = [⟨r.phase, a⟩] := by
    rw [exchangesFrom]
    cases r.step p a <;> rfl
  rw [exchanges, exchangesFrom_append h, hlast]
  rfl

/-- What holds of a run at its beginning, and is kept with every exchange, holds after every
history. -/
theorem exchanges_induction {P : List (Exchange μ) → Run μ → Prop} (h : replay p history = some r)
    (base : P [] (start p))
    (next : ∀ before s a turn, replay p before = some s → P (exchanges p before) s →
      s.phase.step p a.now a.answer = some turn →
      P (exchanges p before ++ [⟨s.phase, a⟩]) (s.take turn)) :
    P (exchanges p history) r := by
  induction history using List.reverseRecOn generalizing r with
  | nil =>
    obtain rfl := Option.some.inj h
    exact base
  | append_singleton history a ih =>
    rw [replay_concat] at h
    obtain ⟨s, hs, hstep⟩ := Option.bind_eq_some_iff.mp h
    obtain ⟨turn, hturn, rfl⟩ := step_eq_some_iff.mp hstep
    rw [exchanges_concat hs]
    exact next history s a turn hs (ih hs) hturn

/-- What is kept for any exchanges and the phase that they lead to holds of the exchanges of every
history. -/
theorem replay_induction {P : List (Exchange μ) → Phase μ → Prop} (h : replay p history = some r)
    (base : P [] (.creating 1))
    (next : ∀ xs phase a turn, P xs phase → phase.step p a.now a.answer = some turn →
      P (xs ++ [⟨phase, a⟩]) turn.phase) : P (exchanges p history) r.phase :=
  exchanges_induction (P := fun xs r => P xs r.phase) h base
    fun before s a turn _ hprevious hturn =>
    next (exchanges p before) s.phase a turn hprevious hturn

/-- The exchanges of a history can be cut wherever the history can. -/
theorem exchangesFrom_eq_append_cons {before after : List (Exchange μ)} {x : Exchange μ}
    (h : follow p r history = some r')
    (hcut : exchangesFrom p r history = before ++ x :: after) :
    ∃ h₁ h₂ s turn, history = h₁ ++ x.stamped :: h₂ ∧ follow p r h₁ = some s ∧
      exchangesFrom p r h₁ = before ∧ s.phase = x.phase ∧
      x.phase.step p x.stamped.now x.answer = some turn ∧
      follow p (s.take turn) h₂ = some r' ∧ exchangesFrom p (s.take turn) h₂ = after := by
  induction history generalizing r before with
  | nil => cases before <;> cases hcut
  | cons a history ih =>
    obtain ⟨s, hs, hrest⟩ := Option.bind_eq_some_iff.mp h
    rw [exchangesFrom_cons hs] at hcut
    cases before with
    | nil =>
      obtain ⟨rfl, rfl⟩ := List.cons.inj hcut
      obtain ⟨turn, hturn, rfl⟩ := step_eq_some_iff.mp hs
      exact ⟨[], history, r, turn, rfl, rfl, rfl, rfl, hturn, hrest, rfl⟩
    | cons y before =>
      obtain ⟨rfl, hcut'⟩ := List.cons.inj hcut
      obtain ⟨h₁, h₂, t, turn, rfl, ht, rfl, hphase, hturn, hfollow, hafter⟩ := ih hrest hcut'
      refine ⟨a :: h₁, h₂, t, turn, rfl, ?_, exchangesFrom_cons hs, hphase, hturn, hfollow, hafter⟩
      rw [follow_cons, hs]
      exact ht

theorem exchanges_eq_append_cons {before after : List (Exchange μ)} {x : Exchange μ}
    (h : replay p history = some r) (hcut : exchanges p history = before ++ x :: after) :
    ∃ h₁ h₂ s turn, history = h₁ ++ x.stamped :: h₂ ∧ replay p h₁ = some s ∧
      exchanges p h₁ = before ∧ s.phase = x.phase ∧
      x.phase.step p x.stamped.now x.answer = some turn ∧
      follow p (s.take turn) h₂ = some r ∧ exchangesFrom p (s.take turn) h₂ = after :=
  exchangesFrom_eq_append_cons h hcut

/-- After an exchange, a run stands where its answer took it. -/
theorem next_phase {before after : List (Exchange μ)} {x : Exchange μ}
    (h : replay p history = some r) (hcut : exchanges p history = before ++ x :: after) :
    ∃ turn, x.phase.step p x.stamped.now x.answer = some turn ∧
      (after = [] ∧ r.phase = turn.phase ∨ ∃ y rest, after = y :: rest ∧ y.phase = turn.phase) := by
  obtain ⟨h₁, h₂, s, turn, rfl, -, -, -, hturn, hfollow, rfl⟩ := exchanges_eq_append_cons h hcut
  refine ⟨turn, hturn, ?_⟩
  cases h₂ with
  | nil =>
    obtain rfl := Option.some.inj hfollow
    exact .inl ⟨rfl, rfl⟩
  | cons a h₂ => exact .inr ⟨_, _, rfl, rfl⟩

end Run

/-! ## What a phase says about messages -/

/-- How a message is settled after its processing, if nothing goes wrong. -/
def settlement (p : Profile) (c : μ × Except String Unit) : μ × Disposition × Except String Unit :=
  (c.1, p.dispositionAfter (failure? c.2), .ok ())

/-- Whether each message that was processed was settled after it, and the run could go on. -/
structure AllSettled (p : Profile) (done : List (μ × Except String Unit))
    (settlements : List (μ × Disposition × Except String Unit)) : Prop where
  settled : settlements = done.map (settlement p)
  goesOn : ∀ c ∈ done, (failure? c.2).isSome → p.strategy.flow = .continue

/-- What has become of the messages of a run that stands in a phase. -/
def Phase.Accounts (p : Profile) (xs : List (Exchange μ)) : Phase μ → Prop
  | .creating _ | .retrying .. | .consuming =>
    Run.received xs = [] ∧ Run.processed xs = [] ∧ Run.settled p xs = []
  | .polling _ =>
    Run.received xs = (Run.processed xs).map Prod.fst ∧
      AllSettled p (Run.processed xs) (Run.settled p xs)
  | .processing _ m _ =>
    Run.received xs = (Run.processed xs).map Prod.fst ++ [m] ∧
      AllSettled p (Run.processed xs) (Run.settled p xs)
  | .settling _ m failure =>
    ∃ done result, Run.processed xs = done ++ [(m, result)] ∧ failure? result = failure ∧
      Run.received xs = (Run.processed xs).map Prod.fst ∧ AllSettled p done (Run.settled p xs)
  | .releasing _ | .closing _ | .stopped _ => Run.received xs = (Run.processed xs).map Prod.fst

namespace Phase

variable {p : Profile} {xs : List (Exchange μ)}

/-- What does not concern a message leaves the accounts as they are. -/
theorem accounts_concat (phase : Phase μ) (h : phase.Accounts p xs) {x : Exchange μ}
    (hreceived : x.received? = none) (hprocessed : x.processed? = none)
    (hsettled : x.settled? p = none) : phase.Accounts p (xs ++ [x]) := by
  have hlists : Run.received (xs ++ [x]) = Run.received xs ∧
      Run.processed (xs ++ [x]) = Run.processed xs ∧
      Run.settled p (xs ++ [x]) = Run.settled p xs := by
    simp [hreceived, hprocessed, hsettled]
  obtain ⟨hreceived', hprocessed', hsettled'⟩ := hlists
  cases phase <;> simpa only [Accounts, hreceived', hprocessed', hsettled'] using h

/-- A message that was received is processed next. -/
theorem accounts_afterPoll [Identified μ] {errorsOpen : Bool}
    (h : (polling errorsOpen).Accounts p xs) (now : Nat) (view : View μ) :
    (afterPoll now errorsOpen (view.pick errorsOpen)).phase.Accounts p
      (xs ++ [⟨.polling errorsOpen, ⟨now, .poll view⟩⟩]) := by
  have hprocessed : (⟨.polling errorsOpen, ⟨now, .poll view⟩⟩ : Exchange μ).processed? = none := rfl
  have hsettled : (⟨.polling errorsOpen, ⟨now, .poll view⟩⟩ : Exchange μ).settled? p = none := rfl
  have hreceived : (⟨.polling errorsOpen, ⟨now, .poll view⟩⟩ : Exchange μ).received? =
      match view.pick errorsOpen with
      | some (.message m) => some m
      | _ => none := rfl
  rcases hpick : view.pick errorsOpen with _ | choice
  · rw [hpick] at hreceived
    exact accounts_concat (.polling errorsOpen) h hreceived hprocessed hsettled
  · rw [hpick] at hreceived
    cases choice with
    | message m =>
      show Run.received _ = _ ∧ AllSettled p _ _
      rw [Run.received_concat, Run.processed_concat, Run.settled_concat, hreceived, hprocessed,
        hsettled]
      simp only [Option.toList_none, List.append_nil]
      exact ⟨congrArg (· ++ [m]) h.1, h.2⟩
    | stop | error | messagesEnded =>
      exact accounts_concat (.releasing _) h.1 hreceived hprocessed hsettled
    | errorsEnded => exact accounts_concat (.polling false) h hreceived hprocessed hsettled

/-- A message that was processed is settled next. -/
theorem accounts_afterProcess [Identified μ] {errorsOpen : Bool} {m : μ} {since : Nat}
    (h : (processing errorsOpen m since).Accounts p xs) (now : Nat) (elapsed : Span)
    (result : Except String Unit) :
    (afterProcess p elapsed errorsOpen m result).phase.Accounts p
      (xs ++ [⟨.processing errorsOpen m since, ⟨now, .process result⟩⟩]) := by
  obtain ⟨hreceived, hall⟩ := h
  have hprocessed :
      Run.processed (xs ++ [⟨.processing errorsOpen m since, ⟨now, .process result⟩⟩]) =
      Run.processed xs ++ [(m, result)] := Run.processed_concat ..
  have haccounts : (settling errorsOpen m (failure? result)).Accounts p
      (xs ++ [⟨.processing errorsOpen m since, ⟨now, .process result⟩⟩]) := by
    refine ⟨Run.processed xs, result, hprocessed, rfl, ?_, ?_⟩
    · rw [hprocessed, Run.received_concat, hreceived, List.map_append]
      exact List.append_nil _
    · rw [Run.settled_concat]
      exact (List.append_nil (Run.settled p xs)).symm ▸ hall
  cases result <;> exact haccounts

/-- A run goes on after it has settled a message, if it could. -/
theorem accounts_settling {errorsOpen : Bool} {m : μ} {failure : Option String}
    (h : (settling errorsOpen m failure).Accounts p xs) (now : Nat) (result : Except String Unit) :
    Run.received (xs ++ [⟨.settling errorsOpen m failure, ⟨now, .settle result⟩⟩]) =
        (Run.processed (xs ++ [⟨.settling errorsOpen m failure, ⟨now, .settle result⟩⟩])).map
          Prod.fst ∧
      (result = .ok () → (failure.isSome → p.strategy.flow = .continue) →
        AllSettled p
        (Run.processed (xs ++ [⟨.settling errorsOpen m failure, ⟨now, .settle result⟩⟩]))
          (Run.settled p (xs ++ [⟨.settling errorsOpen m failure, ⟨now, .settle result⟩⟩]))) := by
  obtain ⟨done, outcome, hprocessed, rfl, hreceived, hall⟩ := h
  have hprocessed' : Run.processed
      (xs ++ [⟨.settling errorsOpen m (failure? outcome), ⟨now, .settle result⟩⟩]) =
        done ++ [(m, outcome)] := by
    rw [Run.processed_concat, hprocessed]
    exact List.append_nil _
  refine ⟨?_, ?_⟩
  · rw [hprocessed', Run.received_concat, hreceived, hprocessed]
    exact List.append_nil _
  · rintro rfl hflow
    constructor
    case settled =>
      rw [hprocessed', Run.settled_concat, hall.settled, List.map_append]
      rfl
    case goesOn =>
      rw [hprocessed']
      intro c hc
      rcases List.mem_append.mp hc with hc | hc
      · exact hall.goesOn c hc
      · rw [List.mem_singleton.mp hc]
        exact hflow

/-- Every answer keeps the accounts. -/
theorem accounts_of_step [Identified μ] {phase : Phase μ} {a : Stamped μ} {turn : Turn μ}
    (h : phase.step p a.now a.answer = some turn) (haccounts : phase.Accounts p xs) :
    turn.phase.Accounts p (xs ++ [⟨phase, a⟩]) := by
  obtain ⟨now, answer⟩ := a
  simp only at h
  have hidle (hnone : Run.received xs = [] ∧ Run.processed xs = [] ∧ Run.settled p xs = []) :
      Run.received xs = (Run.processed xs).map Prod.fst ∧
        AllSettled p (Run.processed xs) (Run.settled p xs) := by
    rw [hnone.1, hnone.2.1, hnone.2.2]
    exact ⟨rfl, rfl, fun c hc => absurd hc List.not_mem_nil⟩
  unfold step at h
  split at h <;> cases h
  case h_1 attempt result =>
    have hkeep (phase' : Phase μ) (h : phase'.Accounts p xs) :=
      accounts_concat (x := ⟨.creating attempt, ⟨now, .create result⟩⟩) phase' h rfl rfl rfl
    cases result with
    | ok => exact hkeep .consuming haccounts
    | error cause =>
      simp only [afterCreate]
      split
      · exact hkeep (.stopped _) (hidle haccounts).1
      · exact hkeep (.retrying _ _) haccounts
  case h_2 attempt deadline stop =>
    have hkeep (phase' : Phase μ) (h : phase'.Accounts p xs) :=
      accounts_concat (x := ⟨.retrying attempt deadline, ⟨now, .wait stop⟩⟩) phase' h rfl rfl rfl
    simp only [afterWait]
    split
    · exact hkeep (.stopped _) (hidle haccounts).1
    · split <;> exact hkeep _ haccounts
  case h_3 => exact accounts_concat (.polling true) (hidle haccounts) rfl rfl rfl
  case h_4 => exact accounts_concat (.closing _) (hidle haccounts).1 rfl rfl rfl
  case h_5 errorsOpen view => exact accounts_afterPoll haccounts now view
  case h_6 errorsOpen m since result => exact accounts_afterProcess haccounts ..
  case h_7 errorsOpen m result =>
    obtain ⟨hreceived, hall⟩ := accounts_settling haccounts now result
    cases result with
    | ok => exact ⟨hreceived, hall rfl (by simp)⟩
    | error => exact hreceived
  case h_8 errorsOpen m failure result =>
    obtain ⟨hreceived, hall⟩ := accounts_settling haccounts now result
    cases hflow : p.strategy.flow with
    | «continue» =>
      cases result with
      | ok =>
        simp only [afterFailing, hflow]
        exact ⟨hreceived, hall rfl fun _ => hflow⟩
      | error =>
        simp only [afterFailing, hflow]
        exact hreceived
    | exit => cases result <;> (simp only [afterFailing, hflow]; exact hreceived)
  case h_9 => exact accounts_concat (.closing _) haccounts rfl rfl rfl
  case h_10 => exact accounts_concat (.stopped _) haccounts rfl rfl rfl

end Phase

/-- The messages of a run have been dealt with as its phase says. -/
theorem Run.accounts_replay [Identified μ] {p : Profile} {history : List (Stamped μ)} {r : Run μ}
    (h : Run.replay p history = some r) : r.phase.Accounts p (Run.exchanges p history) :=
  Run.replay_induction (P := fun xs phase => phase.Accounts p xs) h ⟨rfl, rfl, rfl⟩
    fun _ _ _ _ hprevious hturn => Phase.accounts_of_step hturn hprevious

end Courier
