/-
The log: records with a level, one line for each record that is serious enough.
-/

namespace Chip8.Log

/-- How serious a record is, least serious first. -/
inductive Level
  | debug
  | info
  | warning
  | error
deriving Repr, DecidableEq

namespace Level

def rank : Level → Nat
  | .debug => 0
  | .info => 1
  | .warning => 2
  | .error => 3

def name : Level → String
  | .debug => "DEBUG"
  | .info => "INFO"
  | .warning => "WARNING"
  | .error => "ERROR"

def all : List Level := [.debug, .info, .warning, .error]

/-- The level of a name; warnings when there is no such level. -/
def ofName (name : String) : Level :=
  (all.find? fun level => level.name = name).getD .warning

end Level

structure Record where
  level : Level
  text : String
deriving Repr, DecidableEq

def Record.line (record : Record) : String :=
  "[" ++ record.level.name ++ "] " ++ record.text ++ "\n"

/-- The lines of the records that are at least as serious as a level. -/
def lines (least : Level) (records : List Record) : String :=
  String.join ((records.filter fun record => least.rank ≤ record.level.rank).map
    Record.line)

end Chip8.Log
