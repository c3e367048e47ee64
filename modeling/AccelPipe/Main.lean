import AccelPipe.CommandLine.Run

/-! The program: it reads the files that a command line names, carries the command line out and
prints what is said. The monitor reads its lines from the standard input. -/
namespace AccelPipe.CommandLine

/-- The reason behind a failed access to a path. -/
def reasonOf? : IO.Error → Option FileReason
  | .noFileOrDirectory _ _ _ => some .absent
  | .inappropriateType _ code _ => some (if code = 21 then .directory else .notDirectory)
  | .invalidArgument _ code _ => if code = 36 then some .nameTooLong else none
  | _ => none

/-- The outcome of an access to a path. Failures that say nothing about the path are raised. -/
def access {α : Type} (path : String) (action : IO α) : IO (Except FileFault α) := do
  try
    return .ok (← action)
  catch e =>
    match reasonOf? e with
    | some reason => return .error ⟨reason, path⟩
    | none => throw e

/-- The files at some paths. -/
def readFiles (paths : List String) : IO Files := do
  let known ← (paths.filter fun path => (Files.checkPath path).isOk).mapM fun path => do
    return (path, ← access path (ByteArray.toList <$> IO.FS.readBinFile (Text.shown path)))
  return fun path => (known.lookup path).getD (.error ⟨.absent, path⟩)

/-- The value of a computation that may fail. -/
def orRaise {α : Type} : Except Failure α → IO α
  | .ok a => return a
  | .error e => throw (IO.userError e.message)

/-- The form of a command line. -/
def usage : List String :=
  "usage: accelpipe [options] [program]" :: flags.map fun f => "  " ++ ", ".intercalate f.names

def sayError (line : String) : IO Unit := do (← IO.getStderr).putStrLn (Text.shown line)

/-- Notices that have come up since the last answer. -/
def newNotices (o : Options) (before after : Monitor) : List String :=
  (noticeLines o after.simulator).drop (noticeLines o before.simulator).length

/-- A line without its end. -/
def withoutEnd (line : String) : List Char :=
  let cs := line.toList
  if cs.getLast? == some '\n' then cs.dropLast else cs

/-- Reads and answers lines until the monitor stops. -/
partial def serve (o : Options) (m : Monitor) : IO Unit := do
  let out ← IO.getStdout
  out.putStr Monitor.prompt
  out.flush
  let input ← (← IO.getStdin).getLine
  let line := if input.isEmpty then Monitor.endLine else Text.ofCharacters (withoutEnd input)
  let files ← readFiles (Monitor.fileOf? line).toList
  let reply := m.answer files line
  out.putStr (Text.shown reply.text)
  out.flush
  (newNotices o m reply.monitor).forM sayError
  unless ← orRaise reply.outcome do serve o reply.monitor

def carryOut (o : Options) : IO UInt32 := do
  match ← orRaise (start o (← readFiles (inputs o))) with
  | .finished done =>
    if let some (path, bytes) := done.image then
      orRaise (Files.checkPath path)
      let written ← access path (IO.FS.writeBinFile (Text.shown path) bytes.toByteArray)
      orRaise (written.mapError .file)
    (← IO.getStdout).putStr (Text.shown (linesText done.output))
    done.errors.forM sayError
    return done.exit.toUInt32
  | .converse m =>
    (noticeLines o m.simulator).forM sayError
    (← IO.getStdout).putStr Monitor.greeting
    serve o m
    return 0

end AccelPipe.CommandLine

open AccelPipe.CommandLine in
def main (args : List String) : IO UInt32 := do
  match read (args.map fun arg => String.ofList (AccelPipe.Text.ofCharacters arg.toList)) with
  | .ok o => carryOut o
  | .error .help =>
    (← IO.getStdout).putStr (linesText usage)
    return 0
  | .error .invalid =>
    usage.forM sayError
    return 2
