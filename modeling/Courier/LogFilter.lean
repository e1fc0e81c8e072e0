import Courier.Json.Write
import Courier.Notice

/-!
# Filtering and writing the log

A filter is a list of directives, each a level for the notices of one origin or of all. Of the
directives that fit a notice the one with the longest origin decides.
-/

namespace Courier

/-- The part of the program that a notice comes from. -/
def Notice.origin : Notice → String
  | .orderAccepted .. | .settingsLoaded .. | .signalReceived => "consumer_demo"
  | _ => "async_component"

/-- The least rank that a filter lets pass; a rank above all levels lets nothing pass. -/
abbrev Threshold := Nat

namespace Threshold

/-- Lets everything pass. -/
def everything : Threshold := 0

/-- The threshold of a name: a level, `trace` for everything or `off` for nothing, in any case of
its letters, or one of the digits from 0 for nothing to 5 for everything. -/
def ofName? (s : String) : Option Threshold :=
  match FailStrategy.asciiLower s with
  | "trace" | "5" => some everything
  | "debug" | "4" => some Level.debug.rank
  | "info" | "3" => some Level.info.rank
  | "warn" | "2" => some Level.warn.rank
  | "error" | "1" => some Level.error.rank
  | "off" | "0" => some (Level.error.rank + 1)
  | _ => none

end Threshold

/-- A threshold for the notices of some origin. -/
structure Directive where
  /-- How the origin begins. -/
  origin : String
  /-- What is let pass. -/
  threshold : Threshold
deriving DecidableEq, Repr

/-- Which notices are written. -/
structure LogFilter where
  /-- The directives. -/
  directives : List Directive
deriving DecidableEq, Repr

namespace LogFilter

/-- Whether a character may stand in the name of an origin. -/
def isOriginChar (c : Char) : Bool := c.isAlphanum || c = '_' || c = ':' || c = '-'

/-- Reads a directive: a level, an origin, or an origin and a level with an equals sign between. -/
def readDirective? (s : List Char) : Option Directive :=
  match Threshold.ofName? (String.ofList s) with
  | some threshold => some ⟨"", threshold⟩
  | none =>
    let origin := s.takeWhile isOriginChar
    if origin.isEmpty then none
    else
      match s.dropWhile isOriginChar with
      | [] => some ⟨String.ofList origin, .everything⟩
      | '=' :: level =>
        (Threshold.ofName? (String.ofList level)).map fun t => ⟨String.ofList origin, t⟩
      | _ => none

/-- Splits at commas. -/
def splitCommas : List Char → List (List Char)
  | [] => [[]]
  | c :: rest =>
    match splitCommas rest with
    | [] => [[c]]
    | piece :: pieces => if c = ',' then [] :: piece :: pieces else (c :: piece) :: pieces

/-- Reads a filter: directives with commas between. A filter without any lets errors pass. -/
def ofText? (s : String) : Option LogFilter :=
  match (splitCommas s.toList).filter (fun piece => !piece.isEmpty) with
  | [] => some ⟨[⟨"", Level.error.rank⟩]⟩
  | pieces => (pieces.mapM readDirective?).map LogFilter.mk

/-- The filter that lets everything pass that is for the record or worse. -/
def standard : LogFilter := ⟨[⟨"", Level.info.rank⟩]⟩

/-- The better fit of two directives for one notice; of two that fit alike the later one. -/
def better (best : Option Directive) (d : Directive) : Option Directive :=
  match best with
  | some b => if d.origin.length < b.origin.length then some b else some d
  | none => some d

/-- Whether a notice is written. -/
def stepsTo (f : LogFilter) (n : Notice) : Bool :=
  ((f.directives.filter fun d => d.origin.toList.isPrefixOf n.origin.toList).foldl better none).any
    fun d => d.threshold ≤ n.level.rank

end LogFilter

/-! ## Written notices -/

/-- The value of a field as JSON. -/
def FieldValue.toJson : FieldValue → Json
  | .text s => .text s
  | .number n => .int n

/-- A notice as one JSON object, its fields beside its level and message. -/
def Notice.toJson (write : CorrelationId → String) (n : Notice) : Json :=
  .ofMembers ([("level", .text n.level.name), ("message", .text n.message)]
    ++ (n.fields write).map fun field => (field.1, field.2.toJson))

/-- A notice as a line for people to read. -/
def Notice.toLine (write : CorrelationId → String) (n : Notice) : String :=
  n.level.name ++ " " ++ n.message
    ++ String.join ((n.fields write).map fun field =>
      ", " ++ field.1 ++ ": " ++ field.2.write)

end Courier
