import EgressControl.CommandLine.Request
import EgressControl.Engine.Run

/-! # Carrying out a command

`execute` is the whole program but for the outside world: from the arguments to what is printed,
what the program's own part of the log says, and the code with which the process ends. -/

namespace EgressControl.CommandLine

/-- The version of the program. -/
def version : String := "0.3.0"

/-- What is printed when the program starts. -/
def banner : String :=
  "\n╔═══════════════════════════════════════════════════╗\n" ++
  "║          kntrl - eBPF egress control              ║\n" ++
  "╚═══════════════════════════════════════════════════╝\n    \n"

/-- The lines on what is about to be done. -/
def startLines (c : Config) : List Log.Line :=
  [.info "Starting kntrl...",
   .info ("   Mode: " ++ c.mode),
   .info ("   eBPF object: " ++ Text.quoted c.artifact),
   .info ("   Allow suffixes: " ++ ", ".intercalate c.suffixes)] ++
  c.reportFile.toList.map fun path => .info ("   Report file: " ++ Text.quoted path)

/-- A line with a figure. -/
def figureLine (label : String) (n : Nat) : Log.Line :=
  .info (Text.padRight 22 label ++ Text.padLeft 8 n.repr)

/-- A line across the summary. -/
def ruleLine : Log.Line := .info "============================================"

/-- The lines on a completed run. -/
def summaryLines (s : Engine.RunSummary) : List Log.Line :=
  [.info "", ruleLine, .info "             Summary Report", ruleLine, .info "",
   .info (Text.padRight 22 "  Mode:" ++ s.mode.name),
   figureLine "  Events processed:" s.consumer.processed,
   figureLine "  Malformed records:" s.consumer.malformed,
   figureLine "  Read errors:" s.consumer.readErrors,
   figureLine "  Closed events:" s.closedEvents,
   figureLine "  Unique connections:" s.uniqueConnections,
   .info "", .info "  Allow-list:",
   figureLine "    seeded:" s.seeded,
   figureLine "    added at runtime:" s.allowExtended,
   .info "", ruleLine]

/-- A cause of a failure; a number stands before it if there are several. -/
def causeLines (number : Option Nat) (cause : String) : List String :=
  let lines := (Text.cut (· = '\n') cause.toList).map String.ofList
  match number, lines with
  | _, [] => []
  | none, lines => lines.map ("    " ++ ·)
  | some n, first :: rest =>
    (Text.padLeft 5 n.repr ++ ": " ++ first) :: rest.map ("       " ++ ·)

/-- The lines on a failure that ends the program: what was attempted, and what lies behind. -/
def failureLines (attempt : String) : List String → List String
  | [] => ["Error: " ++ attempt]
  | [cause] => ["Error: " ++ attempt, "", "Caused by:"] ++ causeLines none cause
  | causes =>
    ["Error: " ++ attempt, "", "Caused by:"] ++
      (causes.mapIdx fun i cause => causeLines (some i) cause).flatten

/-- What a command comes to. -/
structure Execution where
  /-- The code with which the process ends. -/
  code : UInt32
  /-- What is printed. -/
  printed : String := ""
  /-- What the command line itself says in the log. -/
  ownLines : List Log.Line := []
  /-- Everything that the user is shown of the log. -/
  lines : List Log.Line := []
  /-- The failure, line by line. -/
  failure : List String := []
  disk : Disk

/-- A line that the user is shown beside what is printed. -/
structure ErrorLine where
  /-- Whether a line of the log begins here. -/
  opensRecord : Bool
  text : String
  deriving DecidableEq, Repr

/-- Puts each piece that does not end its line together with the next one; what is put together
is marked as its first piece is. -/
def wholeLines : List (Bool × List Char) → List (Bool × List Char)
  | [] => []
  | (mark, piece) :: pieces =>
    match wholeLines pieces with
    | [] => [(mark, piece)]
    | next :: rest =>
      if piece.getLast? = some '\n' then (mark, piece) :: next :: rest
      else (mark, piece ++ next.2) :: rest

/-- The lines that the user is shown when some lines of the log are written and then a failure. -/
def errorLines (log : List Log.Line) (failure : List String) : List ErrorLine :=
  let pieces := log.map (fun line => (true, line.written)) ++
    failure.map fun line => (false, line.toList ++ ['\n'])
  (wholeLines pieces).flatMap fun (mark, text) =>
    (Text.lines text).mapIdx fun i line => ⟨mark && i = 0, String.ofList line⟩

/-- The answer to arguments that are not carried out.  Of the help and of messages on wrong
arguments only the code is given. -/
def ofUsageError (d : Disk) : UsageError → Execution
  | .displayHelp => { code := 0, disk := d }
  | .displayVersion => { code := 0, printed := "kntrl " ++ version ++ "\n", disk := d }
  | _ => { code := 2, disk := d }

/-- The lines of a run, whoever wrote them. -/
def allLines (es : List Engine.Effect) : List Log.Line :=
  es.filterMap fun
    | .log _ line => some line
    | _ => none

/-- The lines that are shown. -/
def shownLines (verbose : Bool) (lines : List Log.Line) : List Log.Line :=
  lines.filter (·.level.isShown verbose)

/-- Carries a configuration out. -/
def perform (c : Config) (verbose : Bool) (h : Host) (r : Resolver) (signal : String) :
    Execution :=
  let outcome := Engine.run c h r signal
  let printed := banner ++ Engine.Effect.printed outcome.effects
  let before := startLines c
  let runLines := shownLines verbose (allLines outcome.effects)
  match outcome.result with
  | .error e =>
    { code := 1
      printed := printed
      ownLines := before
      lines := before ++ runLines
      failure := failureLines "kntrl engine failed" e.chain
      disk := outcome.disk }
  | .ok s =>
    { code := 0
      printed := printed
      ownLines := before ++ summaryLines s
      lines := before ++ runLines ++ summaryLines s
      disk := outcome.disk }

/-- Carries the arguments out. -/
def execute (args : List String) (h : Host) (r : Resolver) (signal : String) : Execution :=
  match Command.parse args with
  | .error e => ofUsageError h.disk e
  | .ok o =>
    match o.toConfig h.architecture with
    | .error e =>
      { code := 1
        printed := banner
        failure := failureLines "Invalid arguments" [e.message]
        disk := h.disk }
    | .ok c => perform c o.verbose h r signal

end EgressControl.CommandLine
