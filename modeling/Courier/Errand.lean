import Courier.Processor

/-!
# Errands

An errand is what a collaborator still has to do for the call in progress. `Errand.move` takes it
one act further and names the `Deed`, the part of the act that reaches beyond the errand; or it says
how long the errand has to wait.
-/

namespace Courier

/-- A line of the record that scripted collaborators keep. Times are in milliseconds. -/
inductive Entry where
  /-- The `n`-th request for a consumer. -/
  | create (n now : Nat)
  /-- A consumer is asked to start. -/
  | consume (now : Nat)
  /-- A message reaches its processor. -/
  | process (id : CorrelationId) (now : Nat)
  /-- A message reaches its processor, which does not look at the time. -/
  | handle (id : CorrelationId)
  /-- A message is settled. -/
  | settle (disposition : Disposition) (id : CorrelationId)
  /-- A consumer is asked to close. -/
  | close (now : Nat)
  /-- A value was read. -/
  | decoded (v : Json)
  /-- Whether the work on the message is to be given up. -/
  | isCancelled (b : Bool)
  /-- The wait for giving up is over. -/
  | cancelled (now : Nat)
  /-- A header of the message. -/
  | header (key : String) (value : Option String)
  /-- A text. -/
  | note (text : String) (now : Nat)

/-- The identifier that an entry brings to light. -/
def Entry.id? : Entry → Option CorrelationId
  | .process id _ => some id
  | .handle id => some id
  | _ => none

/-- What an act does beyond the errand. -/
inductive Deed where
  /-- It puts a line on record. -/
  | enter (e : Entry)
  /-- It logs something. -/
  | log (n : Notice)
  /-- It sets the stop signal. -/
  | setSignal (stop : Bool)
  /-- It leaves the stop signal to itself. -/
  | abandonSignal
  /-- It puts a message on the message stream. -/
  | pushMessage (m : ScriptedMessage)
  /-- It puts an error on the error stream. -/
  | pushError (text : String)
  /-- It ends the message stream. -/
  | closeMessages
  /-- It ends the error stream. -/
  | closeErrors

/-- What is left to do for the call in progress. -/
structure Errand where
  /-- The acts that are left. -/
  acts : List Act := []
  /-- When the sleep in progress ends. -/
  wakeAt : Option Nat := none
  /-- The context of the message that the errand is about. -/
  context : Option Context := none

/-- How an errand goes on. -/
inductive Errand.Move where
  /-- Everything is done. -/
  | finished
  /-- It waits, for a time if one is given, else for the signal. -/
  | waiting (wakeAt : Option Nat)
  /-- It did something. -/
  | did (rest : Errand) (deed : Option Deed)

namespace Errand

/-- The errand of a collaborator that follows cues. -/
def ofCues (cues : List Cue) : Errand := { acts := cues.map Act.follow }

/-- The errand of a processor with a message. -/
def ofPlan (plan : Plan) (context : Context) : Errand := { acts := plan.acts, context }

/-- What a cue does at the time `now`. What concerns a message is passed over if there is none. -/
def follow (now : Nat) (s : Signal) (e : Errand) (rest : List Act) : Cue → Move
  | .requestStop => .did { e with acts := rest } (some (.setSignal true))
  | .retractStop => .did { e with acts := rest } (some (.setSignal false))
  | .abandonSignal => .did { e with acts := rest } (some .abandonSignal)
  | .sleep millis =>
    match e.wakeAt with
    | none => .did { e with wakeAt := some (now + millis) } none
    | some wakeAt =>
      if wakeAt ≤ now then .did { e with acts := rest, wakeAt := none } none
      else .waiting (some wakeAt)
  | .pushMessage m => .did { e with acts := rest } (some (.pushMessage m))
  | .pushError text => .did { e with acts := rest } (some (.pushError text))
  | .closeMessages => .did { e with acts := rest } (some .closeMessages)
  | .closeErrors => .did { e with acts := rest } (some .closeErrors)
  | .noteCancelled =>
    .did { e with acts := rest } (e.context.map fun c => .enter (.isCancelled (c.isCancelled s)))
  | .awaitCancel =>
    match e.context with
    | none => .did { e with acts := rest } none
    | some c =>
      if c.cancelledNow s then .did { e with acts := rest } (some (.enter (.cancelled now)))
      else .waiting none
  | .noteHeader key =>
    .did { e with acts := rest } (e.context.map fun c => .enter (.header key (c.header? key)))
  | .note text => .did { e with acts := rest } (some (.enter (.note text now)))

/-- Takes the errand one act further at the time `now`, while the signal is as it is. -/
def move (now : Nat) (s : Signal) (e : Errand) : Move :=
  match e.acts with
  | [] => .finished
  | .noteMessageTime :: rest =>
    .did { e with acts := rest } (e.context.map fun c => .enter (.process c.correlationId now))
  | .noteMessage :: rest =>
    .did { e with acts := rest } (e.context.map fun c => .enter (.handle c.correlationId))
  | .noteValue v :: rest => .did { e with acts := rest } (some (.enter (.decoded v)))
  | .log n :: rest => .did { e with acts := rest } (some (.log n))
  | .follow cue :: rest => follow now s e rest cue

/-! ## How far an errand gets -/

/-- The ways in which an errand goes on at the time `now`. -/
inductive Advances (now : Nat) (e : Errand) : Errand → Option Deed → Prop where
  /-- A sleep begins. -/
  | begin {millis : Nat} {acts : List Act} (hacts : e.acts = .follow (.sleep millis) :: acts)
      (hawake : e.wakeAt = none) : Advances now e { e with wakeAt := some (now + millis) } none
  /-- A sleep is over. -/
  | awake {millis : Nat} {acts : List Act} (hacts : e.acts = .follow (.sleep millis) :: acts) :
      Advances now e { e with acts, wakeAt := none } none
  /-- An act other than a sleep is done. What goes on a stream is what the act says. -/
  | act {act : Act} {acts : List Act} {deed : Option Deed} (hacts : e.acts = act :: acts)
      (hsleep : ∀ millis, act ≠ .follow (.sleep millis))
      (hmessage : ∀ m, deed = some (.pushMessage m) → act = .follow (.pushMessage m))
      (herror : ∀ text, deed = some (.pushError text) → act = .follow (.pushError text)) :
      Advances now e { e with acts } deed

theorem advances_of_move {e rest : Errand} {now : Nat} {s : Signal} {deed : Option Deed}
    (h : e.move now s = .did rest deed) : e.Advances now rest deed := by
  have hdone {act : Act} {acts : List Act} {deed' : Option Deed} (hacts : e.acts = act :: acts)
      (hsleep : ∀ millis, act ≠ .follow (.sleep millis))
      (hmessage : ∀ m, deed' = some (.pushMessage m) → act = .follow (.pushMessage m))
      (herror : ∀ text, deed' = some (.pushError text) → act = .follow (.pushError text))
      (h : Move.did { e with acts } deed' = .did rest deed) : e.Advances now rest deed := by
    obtain ⟨rfl, rfl⟩ := Move.did.inj h
    exact .act hacts hsleep hmessage herror
  unfold move at h
  split at h
  · cases h
  · next hacts => exact hdone hacts (by simp) (by simp) (by simp) h
  · next hacts => exact hdone hacts (by simp) (by simp) (by simp) h
  · next hacts => exact hdone hacts (by simp) (by simp) (by simp) h
  · next hacts => exact hdone hacts (by simp) (by simp) (by simp) h
  · next cue acts hacts =>
    cases cue with
    | sleep millis =>
      simp only [follow] at h
      split at h
      · next hawake =>
        obtain ⟨rfl, rfl⟩ := Move.did.inj h
        exact .begin hacts hawake
      · split at h
        · obtain ⟨rfl, rfl⟩ := Move.did.inj h
          exact .awake hacts
        · cases h
    | awaitCancel =>
      simp only [follow] at h
      split at h
      · exact hdone hacts (by simp) (by simp) (by simp) h
      · split at h
        · exact hdone hacts (by simp) (by simp) (by simp) h
        · cases h
    | _ => exact hdone hacts (by simp) (by simp) (by simp) h

theorem acts_of_finished {e : Errand} {now : Nat} {s : Signal} (h : e.move now s = .finished) :
    e.acts = [] := by
  unfold move at h
  split at h
  · next hacts => exact hacts
  case h_6 =>
    unfold follow at h
    repeat' split at h
    all_goals cases h
  all_goals cases h

/-- How much is left of an errand. A sleep counts once more until it has begun. -/
def load (e : Errand) : Nat := 2 * e.acts.length - e.wakeAt.isSome.toNat

/-- An errand that goes on gets shorter, or a sleep begins. -/
theorem load_lt_of_move {e rest : Errand} {now : Nat} {s : Signal} {deed : Option Deed}
    (h : e.move now s = .did rest deed) : rest.load < e.load := by
  cases advances_of_move h with
  | begin hacts hawake =>
    simp only [load, hacts, hawake, List.length_cons, Option.isSome_some, Option.isSome_none,
      Bool.toNat_true, Bool.toNat_false]
    omega
  | awake hacts =>
    have hone := e.wakeAt.isSome.toNat_le
    simp only [load, hacts, List.length_cons, Option.isSome_none, Bool.toNat_false]
    omega
  | act hacts =>
    have hone := e.wakeAt.isSome.toNat_le
    simp only [load, hacts, List.length_cons]
    omega

end Errand

end Courier
