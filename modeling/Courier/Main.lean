import Courier.Demo

/-!
# The demonstration as a program

Reads its settings from the environment, writes its log to the standard output and its errors to the
standard error stream. The end of the standard input asks it to stop.
-/

namespace Courier.Demo

/-- The variables that the program reads. -/
def keysRead : List String :=
  ["ORDERS_NAME", "ORDERS_FAIL_STRATEGY", "ORDERS_RETRIES", "ORDERS_RETRY_WAIT_MS", "DEMO_EVENTS",
   "APP_ENV", "RUST_LOG"]

/-- The environment of the process, as far as the program reads it. -/
def readEnvironment : IO Environment := do
  let values ← keysRead.mapM fun key => do
    return (key, (← IO.getEnv key).map String.toUTF8)
  return fun key => (values.lookup key).bind id

/-- Writes notices to the log. -/
def writeLog (env : Environment) (notices : List Notice) : IO Unit :=
  (written env notices).forM fun n =>
    let write := ({} : Sightings).write
    IO.println (if writesJson env then (n.toJson write).write else n.toLine write)

/-- Reads the standard input to its end. -/
partial def awaitEnd (input : IO.FS.Stream) : IO Unit := do
  let line ← input.getLine
  unless line.isEmpty do awaitEnd input

/-- Writes what remains of the log and the errors, and answers with the exit code. -/
def conclude (env : Environment) (logged : Nat) (e : Ending) : IO UInt32 := do
  writeLog env (e.notices.drop logged)
  (e.errors.getD []).forM fun error => IO.eprintln ("Error: " ++ error)
  return e.exitCode.toUInt32

end Courier.Demo

open Courier.Demo in
/-- Runs the demonstration. -/
def main : IO UInt32 := do
  let env ← readEnvironment
  match prepare env with
  | .error refusal => conclude env 0 ⟨some refusal.errors, refusal.notices⟩
  | .ok s =>
    let w := work s
    match ending? w with
    | some e => conclude env 0 e
    | none =>
      writeLog env w.broker.notices
      awaitEnd (← IO.getStdin)
      match ending? (stop w) with
      | some e => conclude env w.broker.notices.length e
      | none => return 1
