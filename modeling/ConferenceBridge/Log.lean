import ConferenceBridge.Error
import ConferenceBridge.Text.Numeral

/-! Log lines and how severe they are. The library collects lines as values; where they go is for the
    host to say. -/

namespace ConferenceBridge.Log

/-- How severe a line is, the most severe first. -/
inductive Level where
  | error
  | warn
  | info
  | debug
  | trace
  deriving DecidableEq, Inhabited

namespace Level

/-- Every level, the most severe first. -/
def all : List Level := [.error, .warn, .info, .debug, .trace]

/-- The name shown before a line. -/
def name : Level → String
  | .error => "ERROR"
  | .warn => "WARN"
  | .info => "INFO"
  | .debug => "DEBUG"
  | .trace => "TRACE"

/-- One for the most severe level up to five for the least severe. -/
def verbosity : Level → Nat
  | .error => 1
  | .warn => 2
  | .info => 3
  | .debug => 4
  | .trace => 5

/-- The number that an unsigned decimal numeral stands for: digits, with at most one plus before
    them. -/
def numeral? (text : List Char) : Option Nat :=
  match text with
  | '+' :: digits => Text.numeral? 10 digits
  | digits => Text.numeral? 10 digits

/-- A level is given by its verbosity or by its name in letters of either case. -/
def ofText? (text : String) : Option Level :=
  match numeral? text.toList with
  | some n => all.find? (·.verbosity == n)
  | none => all.find? fun level => level.name.toList == text.toList.map Char.toUpper

/-- As `ofText?`, with the refusal spelled out. -/
def parse (text : String) : Except BridgeError Level :=
  match ofText? text with
  | some level => .ok level
  | none => .error (.badSettings ("Invalid log level: " ++ text))

end Level

/-- One line. -/
structure Line where
  level : Level
  text : String
  deriving DecidableEq

/-- The line is shown when lines up to this level are asked for. -/
def Line.within (line : Line) (level : Level) : Bool := line.level.verbosity ≤ level.verbosity

def debug (text : String) : Line := ⟨.debug, text⟩

def info (text : String) : Line := ⟨.info, text⟩

def warn (text : String) : Line := ⟨.warn, text⟩

/-- How the lines of a whole program are to be shown. -/
structure Settings where
  level : Level := .info
  /-- With the file and line they come from. -/
  fileInfo : Bool := false
  /-- With the spans that are entered and left. -/
  spans : Bool := false
  deriving DecidableEq

namespace Settings

/-- Only one subscriber can listen in a program: `installed` says what the settings of the one there
    is are, and a second is refused. -/
def install (s : Settings) (installed : Option Settings) : Except BridgeError Settings :=
  match installed with
  | none => .ok s
  | some _ => .error (.badSettings
      "Failed to install subscriber: a global default trace dispatcher has already been set")

end Settings
end ConferenceBridge.Log
