import Courier.Errand
import Courier.Run
import Courier.Sum

/-!
# Rehearsals

A rehearsal carries runs of a component with scripted collaborators: a factory with a script for
each attempt, streams that are filled in advance, and a timeline of things that happen at given
times. The clock stands still while anything can be done, and then goes straight to the next time
that somebody waits for.

`Rehearsal.step` is one small step of the run in progress. `Rehearsal.play` takes steps until the
run has ended or its time is up.
-/

namespace Courier

instance : Identified Message := ⟨fun m => m.context.correlationId⟩

/-- What one request for a consumer leads to. -/
structure Attempt where
  /-- What happens before the answer. -/
  cues : List Cue := []
  /-- Why no consumer is created, if none is. -/
  fault : Option String := none
  /-- What happens when the consumer is asked to start. -/
  consumeCues : List Cue := []
  /-- Why it does not start, if it does not. -/
  consumeFault : Option String := none
  /-- The messages that it delivers from the start. -/
  messages : List ScriptedMessage := []
  /-- Whether more messages may follow. -/
  messagesOpen : Bool := true
  /-- The errors that it reports from the start. -/
  errors : List String := []
  /-- Whether more errors may follow. -/
  errorsOpen : Bool := true
  /-- Why it cannot be closed, if it cannot. -/
  closeFault : Option String := none

/-- The attempt that follows those of a script. -/
def Attempt.unscripted : Attempt := { fault := some "no consumer scripted" }

/-- A fault as the failed result of a call. -/
def failing : Option String → Except String Unit
  | some fault => .error fault
  | none => .ok ()

/-- A stream with everything on it already. -/
structure Feed (α : Type) where
  /-- What waits on it, oldest first. -/
  items : List α
  /-- Whether more may follow. -/
  isOpen : Bool

namespace Feed

variable {α : Type}

/-- What the stream has to offer. -/
def offer (f : Feed α) : Offer α :=
  match f.items with
  | a :: _ => .item a
  | [] => if f.isOpen then .nothing else .ended

/-- Puts an item on a stream that is open. -/
def push (f : Feed α) (a : α) : Feed α :=
  if f.isOpen then { f with items := f.items ++ [a] } else f

/-- Takes the oldest item off. -/
def pop (f : Feed α) : Feed α := { f with items := f.items.tail }

/-- Ends the stream after what is on it. -/
def close (f : Feed α) : Feed α := { f with isOpen := false }

end Feed

/-- The streams of a consumer that has started. -/
structure Feeds where
  /-- The messages. -/
  messages : Feed Message
  /-- The errors. -/
  errors : Feed String

/-- The state of a rehearsal. -/
structure Rehearsal where
  /-- The rules of the component. -/
  profile : Profile
  /-- The attempts that are left. -/
  script : List Attempt
  /-- What is still to happen, with its time. -/
  timeline : List (Nat × Cue)
  /-- The time in milliseconds since the rehearsal began. -/
  now : Nat := 0
  /-- The stop signal of the run in progress. -/
  signal : Signal
  /-- Where the run in progress stands. -/
  phase : Phase Message
  /-- What is left to do for its request. -/
  errand : Errand := {}
  /-- The attempt that its consumer comes from. -/
  attempt : Attempt := .unscripted
  /-- The streams of its consumer. -/
  feeds : Option Feeds := none
  /-- How many consumers were asked for. -/
  creations : Nat := 0
  /-- How many identifiers were made up. -/
  freshIds : Nat := 0
  /-- The record of the run in progress. -/
  entries : List Entry := []
  /-- The log. -/
  notices : List Notice := []
  /-- What was counted. -/
  marks : List Mark := []

namespace Rehearsal

/-! ## What collaborators do -/

/-- Puts a line on record. -/
def enter (r : Rehearsal) (e : Entry) : Rehearsal := { r with entries := r.entries ++ [e] }

/-- Makes a message of the script. -/
def makeMessage (r : Rehearsal) (m : ScriptedMessage) : Rehearsal × Message :=
  ({ r with freshIds := r.freshIds + 1 }, m.toMessage r.freshIds r.signal)

/-- Makes several messages of the script. -/
def makeMessages (r : Rehearsal) : List ScriptedMessage → Rehearsal × List Message
  | [] => (r, [])
  | m :: rest =>
    let (r, message) := r.makeMessage m
    let (r, messages) := r.makeMessages rest
    (r, message :: messages)

/-- Messages that are made use up identifiers, and nothing else changes. -/
theorem makeMessages_fst (r : Rehearsal) (ms : List ScriptedMessage) :
    (r.makeMessages ms).1 = { r with freshIds := r.freshIds + ms.length } := by
  induction ms generalizing r with
  | nil => rfl
  | cons m ms ih =>
    simp only [makeMessages, makeMessage, ih, List.length_cons]
    rw [Nat.add_assoc, Nat.add_comm 1]

/-- Puts a message on the message stream, if there is one. -/
def pushMessage (r : Rehearsal) (m : ScriptedMessage) : Rehearsal :=
  let (r, message) := r.makeMessage m
  { r with feeds := r.feeds.map fun f => { f with messages := f.messages.push message } }

/-- Does what an act does beyond its errand. -/
def perform (r : Rehearsal) : Deed → Rehearsal
  | .enter e => r.enter e
  | .log n => { r with notices := r.notices ++ [n] }
  | .setSignal stop => if r.signal.attended then { r with signal := r.signal.send stop } else r
  | .abandonSignal => { r with signal := r.signal.abandon }
  | .pushMessage m => r.pushMessage m
  | .pushError text =>
    { r with feeds := r.feeds.map fun f => { f with errors := f.errors.push text } }
  | .closeMessages =>
    { r with feeds := r.feeds.map fun f => { f with messages := f.messages.close } }
  | .closeErrors => { r with feeds := r.feeds.map fun f => { f with errors := f.errors.close } }

/-- Fills the streams of the consumer that starts. -/
def openFeeds (r : Rehearsal) : Rehearsal :=
  let (r, messages) := r.makeMessages r.attempt.messages
  { r with
    feeds := some ⟨⟨messages, r.attempt.messagesOpen⟩, ⟨r.attempt.errors, r.attempt.errorsOpen⟩⟩ }

/-! ## The run -/

/-- What the run sees when it looks around. -/
def view (r : Rehearsal) : View Message where
  stop := ((Listener.ofSignal r.signal).poll r.signal).1
  errors := (r.feeds.map fun f => f.errors.offer).getD .ended
  messages := (r.feeds.map fun f => f.messages.offer).getD .ended

/-- Takes what the run chose off its stream. -/
def takeChoice (r : Rehearsal) : Choice Message → Rehearsal
  | .error _ => { r with feeds := r.feeds.map fun f => { f with errors := f.errors.pop } }
  | .message _ => { r with feeds := r.feeds.map fun f => { f with messages := f.messages.pop } }
  | _ => r

/-- Prepares the request that the run makes in its phase. -/
def enterPhase (r : Rehearsal) : Rehearsal :=
  match r.phase with
  | .creating _ =>
    let attempt := r.script.head?.getD .unscripted
    { (r.enter (.create (r.creations + 1) r.now)) with
      creations := r.creations + 1, script := r.script.tail, attempt
      errand := .ofCues attempt.cues }
  | .consuming =>
    { (r.enter (.consume r.now)) with errand := .ofCues r.attempt.consumeCues }
  | .processing _ m _ =>
    { r with
      errand := .ofPlan (Processor.scripted.plan m.context.correlationId m.payload) m.context }
  | .closing _ => r.enter (.close r.now)
  | _ => r

/-- Goes on after a turn of the run. -/
def take (r : Rehearsal) (turn : Turn Message) : Rehearsal :=
  { r with phase := turn.phase, notices := r.notices ++ turn.notices,
           marks := r.marks ++ turn.marks }

/-- Answers the request of the run, and prepares the next one. -/
def answer (r : Rehearsal) (a : Answer Message) : Option Rehearsal :=
  (r.phase.step r.profile r.now a).map fun turn => (r.take turn).enterPhase

/-- Takes the errand in progress one act further; once it is finished, `finish` goes on. -/
def work (r : Rehearsal) (finish : Rehearsal → Option Rehearsal) : Option Rehearsal :=
  match r.errand.move r.now r.signal with
  | .finished => finish r
  | .waiting _ => none
  | .did rest none => some { r with errand := rest }
  | .did rest (some deed) => some ({ r with errand := rest }.perform deed)

/-- One small step of the run in progress; none if it waits or has ended. -/
def step (r : Rehearsal) : Option Rehearsal :=
  match r.phase with
  | .creating _ => r.work fun r => r.answer (.create (failing r.attempt.fault))
  | .retrying _ deadline =>
    let stop := ((Listener.ofSignal r.signal).poll r.signal).1
    if stop || deadline ≤ r.now then r.answer (.wait stop) else none
  | .consuming =>
    r.work fun r =>
      match r.attempt.consumeFault with
      | some fault => r.answer (.consume (.error fault))
      | none => r.openFeeds.answer (.consume (.ok ()))
  | .polling errorsOpen =>
    match r.view.pick errorsOpen with
    | none => none
    | some choice => (r.takeChoice choice).answer (.poll r.view)
  | .processing _ m _ =>
    r.work fun r =>
      r.answer (.process (Processor.scripted.plan m.context.correlationId m.payload).result)
  | .settling _ m failure =>
    let disposition := r.profile.dispositionAfter failure
    (r.enter (.settle disposition m.context.correlationId)).answer
      (.settle (m.settle disposition))
  | .releasing _ => { r with feeds := none }.answer .release
  | .closing _ => r.answer (.close (failing r.attempt.closeFault))
  | .stopped _ => none

/-! ## Time -/

/-- When the run in progress will go on by itself. -/
def wakeAt? (r : Rehearsal) : Option Nat :=
  match r.phase with
  | .retrying _ deadline => some deadline
  | .creating _ | .consuming | .processing .. => r.errand.wakeAt
  | _ => none

/-- The earlier of two times. -/
def earlier (a : Option Nat) (b : Nat) : Nat := min (a.getD b) b

/-- Lets everything happen that is due on the timeline. A sleep puts off what comes after it;
nothing happens before the time `earliest`. -/
def playDue (earliest : Nat) (r : Rehearsal) : List (Nat × Cue) → Rehearsal
  | [] => { r with timeline := [] }
  | (due, cue) :: rest =>
    if max due earliest ≤ r.now then
      match Errand.follow r.now r.signal {} [] cue with
      | .did e none => playDue (e.wakeAt.getD earliest) r rest
      | .did _ (some deed) => playDue earliest (r.perform deed) rest
      | _ => playDue earliest r rest
    else { r with timeline := (max due earliest, cue) :: rest }

/-- When the next thing on the timeline happens. -/
def nextCue? (r : Rehearsal) : Option Nat := r.timeline.head?.map (·.1)

/-- What happens while the run waits: what is due on the timeline, or else the clock goes on to the
next time that somebody waits for. Nothing happens any more once the time `limit` is reached. -/
def idle (limit : Nat) (r : Rehearsal) : Option Rehearsal :=
  if r.nextCue?.any (· ≤ r.now) then some (playDue 0 r r.timeline)
  else if limit ≤ r.now then none
  else some { r with now := earlier r.wakeAt? (earlier r.nextCue? limit) }

/-- Plays a run until it has ended or its time is up, in at most `fuel` steps. -/
def play (limit : Nat) : Nat → Rehearsal → Rehearsal
  | 0, r => r
  | fuel + 1, r =>
    match r.phase.result? with
    | some _ => r
    | none =>
      match r.step with
      | some r => r.play limit fuel
      | none =>
        match r.idle limit with
        | some r => r.play limit fuel
        | none => r

/-! ## Several runs -/

/-- What became of one run. -/
structure Report where
  /-- How it ended; nothing if it was given up when its time was up. -/
  result : Option RunResult
  /-- The record of the collaborators. -/
  entries : List Entry
  /-- When it was over. -/
  now : Nat

/-- A rehearsal before its first run. -/
def ofScript (profile : Profile) (script : List Attempt) (timeline : List (Nat × Cue)) :
    Rehearsal where
  profile := profile
  script := script
  timeline := timeline
  signal := .ofBool false
  phase := .stopped (.ok ())

/-- Starts the next run, on a signal of its own. -/
def startRun (signal : Signal) (r : Rehearsal) : Rehearsal :=
  ({ r with signal, entries := [], feeds := none }.take (Phase.start r.profile)).enterPhase

/-- Plays `runs` runs one after the other, each in at most `time` milliseconds. -/
def playRuns (signal : Signal) (time fuel : Nat) : Nat → Rehearsal → Rehearsal × List Report
  | 0, r => (r, [])
  | runs + 1, r =>
    let r := (r.startRun signal).play (r.now + time) fuel
    let report : Report := ⟨r.phase.result?, r.entries, r.now⟩
    let (r, reports) := r.playRuns signal time fuel runs
    (r, report :: reports)

/-- The identifiers in the order in which the collaborators came to know them. -/
def sightings (reports : List Report) : Sightings :=
  (reports.flatMap fun report => report.entries.filterMap Entry.id?).foldl Sightings.see {}

/-! ## Fuel

A step takes one of these off: a cue, an item of a stream, an attempt, or a phase of the run. The
script in the payload of a message counts with the message, for the processor follows it. The clock
goes on at most once between two steps.
-/

/-- A bound on the steps that a message with this payload takes. -/
def payloadLoad (v : Json) : Nat := 4 * (v.size + 1)

/-- A bound on the steps that follow from what a cue puts on a stream. -/
def cueLoad : Cue → Nat
  | .pushMessage m => payloadLoad m.payload
  | .pushError _ => 1
  | _ => 0

/-- A bound on the steps that cues take. -/
def cuesLoad (cues : List Cue) : Nat := sumOver (fun cue => 2 + cueLoad cue) cues

/-- A bound on the steps that the streams of a consumer take. -/
def deliveryLoad (a : Attempt) : Nat :=
  sumOver (fun m => payloadLoad m.payload) a.messages + a.errors.length

/-- A bound on the steps that an attempt takes. -/
def attemptLoad (a : Attempt) : Nat :=
  cuesLoad a.cues + cuesLoad a.consumeCues + deliveryLoad a

/-- A bound on the steps that the script and the timeline take. -/
def scriptLoad (r : Rehearsal) : Nat :=
  sumOver attemptLoad r.script + cuesLoad (r.timeline.map (·.2))

/-- A bound on the steps of each run, the clock's included. -/
def fuel (r : Rehearsal) : Nat := 2 * (r.scriptLoad + 2 * r.profile.retries.toNat + 7)

end Rehearsal

end Courier
