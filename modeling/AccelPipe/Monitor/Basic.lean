import AccelPipe.Monitor.Command
import AccelPipe.Simulator.ProgramFile
import AccelPipe.Simulator.View

/-! The monitor: commands, one to a line, that drive and show one simulator. A refused argument
changes nothing; the answer to it is a reminder of the command. -/
namespace AccelPipe

structure Monitor where
  simulator : Simulator
  /-- In ascending order. -/
  breakpoints : List Int := []

namespace Monitor

/-- What has come of a line: what is said, and whether the monitor stops or why the command failed.
What was said and changed before a failure stays. -/
structure Reply where
  monitor : Monitor
  lines : List String := []
  outcome : Except Failure Bool := .ok false

def Reply.text (r : Reply) : String := r.lines.foldl (fun text line => text ++ line ++ "\n") ""

variable (m : Monitor)

/-- A reply that changes nothing. -/
def say (lines : List String) : Reply := { monitor := m, lines }

def fail (failure : Failure) : Reply := { monitor := m, outcome := .error failure }

/-- Goes on with a result, if there is one. -/
def given {α : Type} (result : Except Failure α) (next : α → Reply) : Reply :=
  match result with
  | .ok a => next a
  | .error failure => m.fail failure

/-- Says what can be said, up to the first line that cannot. -/
def sayEach : List (Except Failure String) → Reply
  | [] => m.say []
  | .error failure :: _ => m.fail failure
  | .ok line :: rest =>
    let reply := sayEach rest
    { reply with lines := line :: reply.lines }

def withSimulator (s : Simulator) : Monitor := { m with simulator := s }

/-- A number, with any blanks around it. -/
def number (word : List Char) : Except Failure Int :=
  let word := Text.trim word
  (Text.readInteger word).mapError fun fault => .refused (.ofNumeral 0 word fault)

def words (argument : List Char) : Except Failure (List (List Char)) :=
  match Text.Shell.words argument with
  | .ok words => .ok words
  | .error lack => .error (.refused (.unfinished lack))

/-- The number at a place among some words, if they go so far. -/
def numberAt (words : List (List Char)) (i : Nat) (default : Int) : Except Failure Int :=
  match words[i]? with
  | some w => number w
  | none => .ok default

/-- The two numbers that a command may take, each with a value to fall back on. -/
def numbers (argument : List Char) (first second : Int) : Except Failure (Int × Int) := do
  let words ← words argument
  return (← numberAt words 0 first, ← numberAt words 1 second)

/-- The single number that a command may take. -/
def numberIn (argument : List Char) (default : Int) : Except Failure Int :=
  if argument.isEmpty then .ok default else number argument

/-- Loads the program in a file. Failures that have to do with the file are told and change
nothing. -/
def load (files : Files) (argument : List Char) : Reply :=
  m.given (words argument) fun
  | [] => m.say ["Usage: load <file>"]
  | word :: _ =>
    let path := String.ofList word
    match Image.ofFile files path with
    | .ok image =>
      let s := (m.simulator.load image none).2
      (m.withSimulator s).say
        ["Loaded " ++ Text.decimal image.size ++ " words from '" ++ path ++ "'"]
    | .error (.file f) => m.say ["Error: " ++ f.message]
    | .error (.assembly e) => m.say ["Error: " ++ e.message]
    | .error e => m.fail e

/-- Assembles a source given on the line, with semicolons between its lines. -/
def assemble (argument : List Char) : Reply :=
  m.given (words argument) fun
  | [] => m.say ["Usage: asm \"code; code; ...\""]
  | source :: _ =>
    let code := source.map fun c => if c = ';' then '\n' else c
    match (Assembly.assemble code 0).mapError Failure.ofAssembly with
    | .error (.assembly e) => m.say ["Assembly error: " ++ e.message]
    | .error e => m.fail e
    | .ok p =>
      let s := (m.simulator.load p.words.toArray none).2
      (m.withSimulator s).say ["Assembled " ++ Text.decimal p.words.length ++ " words"]

def data (argument : List Char) : Reply :=
  m.given (words argument) fun
  | addr :: w :: ws =>
    m.given (number addr) fun addr =>
    m.given ((w :: ws).mapM number) fun ws =>
      (m.withSimulator (m.simulator.preload addr ws)).say
        ["  Wrote " ++ Text.decimal ws.length ++ " words at " ++ Text.hex addr]
  | _ => m.say ["Usage: data <addr> <word...>"]

/-- Ticks so many times, or until the run is over; the lines say if it already was. -/
def tickTimes (s : Simulator) : Nat → Except Failure (List String) × Simulator
  | 0 => (.ok [], s)
  | n + 1 =>
    match s.tick with
    | (.ok (), s) => tickTimes s n
    | (.error (.halted status), s) => (.ok [Failure.message (.halted status)], s)
    | (.error e, s) => (.error e, s)

def tick (argument : List Char) : Reply :=
  m.given (numberIn argument 1) fun count =>
    let (ended, s) := tickTimes m.simulator count.toNat
    let m := m.withSimulator s
    m.given ended fun lines => m.say (lines ++ [s.pipeline.view])

/-- The address of a breakpoint that the last tick has committed. -/
def hit? (breakpoints : List Int) (before after : Simulator) : Option Int :=
  if after.pipeline.retired = before.pipeline.retired then none
  else
    match after.pipeline.commitLog with
    | c :: _ => if breakpoints.contains c.pc then some c.pc else none
    | [] => none

/-- Ticks so many times, until the run is over, or until a breakpoint has been committed. -/
def runTimes (breakpoints : List Int) (s : Simulator) :
    Nat → Except Failure (Option Int) × Simulator
  | 0 => (.ok none, s)
  | n + 1 =>
    if s.status.finished then (.ok none, s)
    else
      match s.tick with
      | (.error e, s') => (.error e, s')
      | (.ok (), s') =>
        match hit? breakpoints s s' with
        | some pc => (.ok (some pc), s')
        | none => runTimes breakpoints s' n

/-- Runs for a number of cycles from here on. -/
def run (argument : List Char) : Reply :=
  m.given (numberIn argument m.simulator.config.maxCycles) fun budget =>
    let (hit, s) := runTimes m.breakpoints m.simulator budget.toNat
    let m := m.withSimulator s
    m.given hit fun
    | some pc => m.say
      ["Breakpoint: committed " ++ Text.hexAddress pc ++ " at cycle " ++ Text.decimal s.cycle]
    | none => m.say [s.report.text]

/-- Adds a number to an ascending list, unless it is there. -/
def insertAscending (n : Int) : List Int → List Int
  | [] => [n]
  | k :: rest =>
    if n < k then n :: k :: rest
    else if n = k then k :: rest
    else k :: insertAscending n rest

def setBreakpoint (argument : List Char) : Reply :=
  if argument.isEmpty then m.say (m.breakpoints.map fun a => "  " ++ Text.hexAddress a)
  else
    m.given (number argument) fun addr =>
      { m with breakpoints := insertAscending addr m.breakpoints }.say
        ["Breakpoint set at " ++ Text.hexAddress addr]

def deleteBreakpoint (argument : List Char) : Reply :=
  m.given (number argument) fun addr =>
    { m with breakpoints := m.breakpoints.filter (· != addr) }.say []

def dump (argument : List Char) : Reply :=
  m.given (numbers argument 0 64) fun (addr, count) =>
    m.given (m.simulator.pipeline.memory.dump addr count 8) fun text => m.say [text]

/-- The program from an address on. The instruction that is being fetched is marked. -/
def disassembly (addr count : Int) : List String :=
  let first := addr / 4
  let shown := sectionOf m.simulator.program.toList first (first + count)
  let lines := AccelPipe.disassemble (shown.map Int.ofNat) (first * 4)
  lines.mapIdx fun i line =>
    let marked := m.simulator.pipeline.pc == some ((first + i) * 4)
    (if marked then ">>>" else "   ") ++ line

def disassemble (argument : List Char) : Reply :=
  m.given (numbers argument 0 16) fun (addr, count) => m.say (m.disassembly addr count)

def unitLines : List (Except Failure String) :=
  m.simulator.pipeline.units.state.map fun (name, state) =>
    Simulator.unitLine name state state.shown

def trace (argument : List Char) : Reply :=
  m.given (numbers argument 0 32) fun (start, count) =>
    m.say [m.simulator.traceText start (some count)]

def faultLines : List String :=
  if m.simulator.faults.isEmpty then ["  no faults"]
  else m.simulator.faults.map fun f => "  " ++ f.text

def registerLines : List String :=
  [m.simulator.pipeline.registers.dump,
   "  Cycle: " ++ Text.decimal m.simulator.cycle ++ "  Status: " ++ m.simulator.status.name]

def perform (files : Files) (c : Command) (argument : List Char) : Reply :=
  match c with
  | .load => m.load files argument
  | .assemble => m.assemble argument
  | .data => m.data argument
  | .reset => (m.withSimulator m.simulator.reset).say ["Reset."]
  | .tick => m.tick argument
  | .run => m.run argument
  | .setBreakpoint => m.setBreakpoint argument
  | .deleteBreakpoint => m.deleteBreakpoint argument
  | .registers => m.say m.registerLines
  | .stages => m.say [m.simulator.pipeline.view]
  | .dump => m.dump argument
  | .disassemble => m.disassemble argument
  | .units => m.sayEach m.unitLines
  | .trace => m.trace argument
  | .coverage => m.say [m.simulator.pipeline.coverage.report]
  | .faults => m.say m.faultLines
  | .report => m.say [m.simulator.report.text]
  | .status => m.given m.simulator.stateText fun text => m.say [text]
  | .config => m.say m.simulator.config.lines
  | .quit => { m.say ["Goodbye."] with outcome := .ok true }
  | .endOfInput => { m.say ["", "Goodbye."] with outcome := .ok true }
  | .help => m.say (if argument.isEmpty then helpLines else [helpOn (String.ofList argument)])

/-- Replies to a line. A refused argument is told, with a reminder of the command. -/
def answer (files : Files) (line : List Char) : Reply :=
  match Request.ofLine line with
  | .nothing => m.say []
  | .unknown word =>
    m.say ["Unknown command: " ++ Text.quoted (String.ofList word) ++
      ". Type 'help' for available commands."]
  | .command c argument =>
    let reply := m.perform files c argument
    match reply.outcome with
    | .error (.refused r) =>
      { reply with
        lines := reply.lines ++ ("  Error: " ++ r.message) :: c.reminder
        outcome := .ok false }
    | _ => reply

/-- The file that a line asks to load. -/
def fileOf? (line : List Char) : Option String :=
  match Request.ofLine line with
  | .command .load argument =>
    match words argument with
    | .ok (word :: _) => some (String.ofList word)
    | _ => none
  | _ => none

def greeting : String :=
  "\nAICore-5 pipeline monitor.  Type 'help' for commands, 'quit' to exit.\n\n"

def prompt : String := "AIC5> "

def endLine : List Char := ['E', 'O', 'F']

/-- Replies to lines until one stops the monitor; the end of the lines does too. -/
def converse (m : Monitor) (files : Files) : List (List Char) → Except Failure (Monitor × String)
  | [] => do
    let reply := m.answer files endLine
    let _ ← reply.outcome
    return (reply.monitor, prompt ++ reply.text)
  | line :: rest => do
    let reply := m.answer files line
    if ← reply.outcome then return (reply.monitor, prompt ++ reply.text)
    let (m, text) ← converse reply.monitor files rest
    return (m, prompt ++ reply.text ++ text)

end Monitor

end AccelPipe
