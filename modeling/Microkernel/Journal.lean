/-!
# Journal lines

What the library tells its operator: lines of text, each with a level. A filter names the least important level that is kept.
-/

namespace Microkernel

/-- How important a line is, the most important first. -/
inductive Level
  | error
  | warn
  | info
  | debug
  | trace
  deriving DecidableEq, Repr, Inhabited

namespace Level

def all : List Level := [error, warn, info, debug, trace]

def name : Level → String
  | error => "ERROR"
  | warn => "WARN"
  | info => "INFO"
  | debug => "DEBUG"
  | trace => "TRACE"

/-- The place of a level, counted from the most important one. -/
def rank : Level → Nat
  | error => 1
  | warn => 2
  | info => 3
  | debug => 4
  | trace => 5

end Level

/-- The least important level that is kept; `none` keeps nothing. -/
abbrev LevelFilter := Option Level

namespace LevelFilter

def all : List LevelFilter := none :: Level.all.map some

def name : LevelFilter → String
  | none => "OFF"
  | some level => level.name

/-- Whether a line of this level is kept. -/
def keeps (f : LevelFilter) (level : Level) : Bool := level.rank ≤ (f.map Level.rank).getD 0

end LevelFilter

/-- A line of the journal. -/
structure JournalLine where
  level : Level
  text : String
  deriving DecidableEq, Repr, Inhabited

namespace JournalLine

/-- A line as the journal shows it. -/
def render (l : JournalLine) : String := l.level.name ++ " " ++ l.text

/-- A line as a debug sink shows it, with the component that wrote it; the level fills five columns. -/
def renderFor (l : JournalLine) (component : String) : String :=
  let level := l.level.name
  "[" ++ level ++ String.ofList (List.replicate (5 - level.length) ' ') ++ " " ++ component ++ "] " ++ l.text

end JournalLine

end Microkernel
