/-!
# The stop signal

A signal is a cell that says whether to stop. It may be set and taken back while somebody attends to
it; once nobody does, it counts as a request to stop, for it can no longer change. Listeners look at
the cell in three ways: reading it (`Listener.isCancelled`), waiting for it (`Listener.poll`), and
asking whether it changed since they last saw it (`Listener.changed?`).
-/

namespace Courier

/-- A cell that says whether to stop. -/
structure Signal where
  /-- What it says. -/
  requested : Bool
  /-- How often it has been set. -/
  version : Nat := 0
  /-- Whether somebody is left who can set it. -/
  attended : Bool := true
deriving DecidableEq, Repr

namespace Signal

/-- A signal that says `requested` from the start. -/
def ofBool (requested : Bool) : Signal := { requested }

/-- Sets the signal. -/
def send (s : Signal) (requested : Bool) : Signal :=
  { s with requested, version := s.version + 1 }

/-- Leaves the signal to itself. -/
def abandon (s : Signal) : Signal := { s with attended := false }

/-- Whether the signal asks to stop. -/
def isStop (s : Signal) : Bool := s.requested || !s.attended

end Signal

/-- A view of a signal that remembers the version seen last. -/
structure Listener where
  /-- The version seen last. -/
  seen : Nat
deriving DecidableEq, Repr

namespace Listener

/-- A listener who has seen the signal as it is. -/
def ofSignal (s : Signal) : Listener := ⟨s.version⟩

/-- Whether the signal was set since the listener last saw it; nothing once it is left to itself. -/
def changed? (l : Listener) (s : Signal) : Option Bool :=
  if s.attended then some (l.seen != s.version) else none

/-- Whether the signal says stop, or can say nothing any more. -/
def isCancelled (l : Listener) (s : Signal) : Bool := s.requested || (l.changed? s).isNone

/-- Looks once while waiting for the signal: whether the wait is over. The listener has then seen
it. -/
def poll (_ : Listener) (s : Signal) : Bool × Listener :=
  let marked : Listener := ⟨s.version⟩
  if s.requested then (true, marked) else ((marked.changed? s).isNone, marked)

end Listener

end Courier
