import AccelPipe.Text.Blank
import AccelPipe.Text.Columns

/-! The commands of the monitor, and how a line names one. -/
namespace AccelPipe.Monitor

inductive Command where
  | load
  | assemble
  | data
  | reset
  | tick
  | run
  | setBreakpoint
  | deleteBreakpoint
  | registers
  | stages
  | dump
  | disassemble
  | units
  | trace
  | coverage
  | faults
  | report
  | status
  | config
  | quit
  | endOfInput
  | help
deriving DecidableEq

/-- The names of the commands, in alphabetical order. -/
def names : List (String × Command) :=
  [("EOF", .endOfInput), ("asm", .assemble), ("bp", .setBreakpoint), ("bpd", .deleteBreakpoint),
   ("config", .config), ("coverage", .coverage), ("data", .data), ("disasm", .disassemble),
   ("dump", .dump), ("exit", .quit), ("faults", .faults), ("help", .help), ("load", .load),
   ("pipe", .stages), ("q", .quit), ("quit", .quit), ("regs", .registers), ("report", .report),
   ("reset", .reset), ("run", .run), ("status", .status), ("step", .tick), ("tick", .tick),
   ("trace", .trace), ("units", .units)]

namespace Command

def ofName? (name : String) : Option Command := names.lookup name

/-- What a command does, in one line. -/
def summary? : Command → Option String
  | load => some "Load a program image or assembly file: load <file>"
  | assemble => some "Assemble inline source and load it: asm \"li x1, 5; ecall\" "
  | data => some "Preload data words: data <addr> <word> [word ...]"
  | reset => some "Restart the run with the same program and data."
  | tick => some "Advance N clock cycles: tick [count]"
  | run => some "Run until exit, fault, breakpoint or cycle budget: run [max_cycles]"
  | setBreakpoint => some "Break after the instruction at an address commits: bp <address>"
  | deleteBreakpoint => some "Delete a breakpoint: bpd <address>"
  | registers => some "Show the register file."
  | stages => some "Show pipeline stage occupancy."
  | dump => some "Dump data memory words: dump <address> [count]"
  | disassemble => some "Disassemble the program: disasm [address] [count]"
  | units => some "Show accelerator unit state."
  | trace => some "Show the cycle trace: trace [start] [count]"
  | coverage => some "Show the coverage report."
  | faults => some "List recorded faults."
  | report => some "Show the run report."
  | status => some "Show full simulator state."
  | config => some "Show the active configuration."
  | quit => some "Exit the monitor."
  | endOfInput => none
  | help => some "List available commands with \"help\" or detailed help with \"help cmd\"."

/-- The summary as a reminder after a refused argument. -/
def reminder (c : Command) : List String :=
  match c.summary? with
  | some s => ["  " ++ String.ofList (Text.trim s.toList)]
  | none => []

end Command

/-- A list of names under a heading. -/
def topics (heading : String) (words : List String) : List String :=
  if words.isEmpty then []
  else [heading, String.ofList (List.replicate heading.length '=')] ++ Text.columns words 79 ++ [""]

def helpLines : List String :=
  let (documented, others) := names.partition fun (_, c) => c.summary?.isSome
  "" :: topics "Documented commands (type help <topic>):" (documented.map (·.1)) ++
    topics "Undocumented commands:" (others.map (·.1))

/-- The help on one command. -/
def helpOn (name : String) : String :=
  match (Command.ofName? name).bind Command.summary? with
  | some s => s
  | none => "*** No help on " ++ name

/-- The characters of a command's name. -/
def isNameChar (c : Char) : Bool := c.isAlphanum || c == '_'

/-- What a line asks for. -/
inductive Request where
  | nothing
  | command (command : Command) (argument : List Char)
  /-- No command; the first word of the line. -/
  | unknown (word : List Char)

/-- A line that starts with a question mark asks for help. -/
def Request.ofLine (line : List Char) : Request :=
  match Text.trim line with
  | [] => .nothing
  | '?' :: rest => .command .help (Text.trim rest)
  | line =>
    match Command.ofName? (String.ofList (line.takeWhile isNameChar)) with
    | some c => .command c (Text.trim (line.dropWhile isNameChar))
    | none => .unknown (Text.splitWord line).1

end AccelPipe.Monitor
