import EgressControl.Text.Terminal

/-! # Log lines

What the program reports while it works is a list of lines, each with its weight. -/

namespace EgressControl.Log

/-- How much a line weighs. -/
inductive Level where
  | debug
  | info
  | warn
  | error
  deriving DecidableEq, Repr

/-- The name of a level. -/
def Level.name : Level → String
  | debug => "DEBUG"
  | info => "INFO"
  | warn => "WARN"
  | error => "ERROR"

/-- Whether lines of a level are shown to a user who did or did not ask for more lines. -/
def Level.isShown (verbose : Bool) : Level → Bool
  | debug => verbose
  | info | warn | error => true

/-- One line of the log. -/
structure Line where
  level : Level
  text : String
  deriving DecidableEq, Repr

/-- A line for whoever looks for faults in the program. -/
def Line.debug (text : String) : Line := ⟨.debug, text⟩

/-- A line on the normal course of things. -/
def Line.info (text : String) : Line := ⟨.info, text⟩

/-- A line on something that went wrong and was passed over. -/
def Line.warn (text : String) : Line := ⟨.warn, text⟩

/-- A line on something that failed. -/
def Line.error (text : String) : Line := ⟨.error, text⟩

/-- A line as it is shown: the level, a space and the text. -/
def Line.render (l : Line) : String := l.level.name ++ " " ++ l.text

/-- A line as it is written for the user, up to its line end.  What follows a line end inside the
text stands on lines of its own, four spaces deeper.  Whatever is an order to a terminal is taken
out, be it the line end itself: where a string is left open the next line goes on behind it. -/
def Line.written (l : Line) : List Char :=
  Text.Terminal.plain
    ((l.render.toList.flatMap fun c => if c = '\n' then "\n    ".toList else [c]) ++ ['\n'])

end EgressControl.Log
