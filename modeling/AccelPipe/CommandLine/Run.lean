import AccelPipe.CommandLine.Arguments
import AccelPipe.Config.File
import AccelPipe.Monitor.Basic
import AccelPipe.Simulator.Batch
import AccelPipe.Stimulus.Basic
import AccelPipe.Value.Json.Writer

/-! What a command line does: it assembles or disassembles a program, runs one, runs a batch of
random ones, or hands over to the monitor. -/
namespace AccelPipe.CommandLine

/-- What has been said, and how the process ends. -/
structure Outcome where
  exit : Nat
  output : List String := []
  errors : List String := []
  /-- A file to write. -/
  image : Option (String × Bytes) := none

def linesText (lines : List String) : String :=
  lines.foldl (fun text line => text ++ line ++ "\n") ""

inductive Task where
  | finished (outcome : Outcome)
  /-- The monitor goes on with this simulator. -/
  | converse (monitor : Monitor)

variable (o : Options) (files : Files)

/-- The severity from which on notices are shown. -/
def threshold : Nat := 2 - min o.verbose 2

/-- The notices that are shown, one to a line. -/
def noticeLines (s : Simulator) : List String :=
  (s.journal.notices.filter fun n => threshold o ≤ n.severity.rank).map Notice.line

def assemble (source image : String) : Except Failure Outcome := do
  match (Assembly.assemble (← files.text source) 0).mapError Failure.ofAssembly with
  | .error (.assembly e) => return { exit := 1, errors := ["Assembly error: " ++ e.message] }
  | .error e => throw e
  | .ok p =>
    let bytes := bytesOfWords p.words
    return {
      exit := 0
      output := (if o.listing then p.listing else []) ++
        ["Assembled " ++ source ++ " -> " ++ image ++ " (" ++ Text.decimal bytes.length ++
          " bytes)"]
      image := some (image, bytes) }

/-- A text option that has been left out or is empty. -/
def given (text : Option String) : Option String := text.filter (· != "")

def config : Except Failure Config := do
  let c ← match given o.config with
    | some path => Config.ofFile files path
    | none => pure {}
  if o.overrides.isEmpty then return c else (c.replace o.overrides).mapError .ofConfig

def batchLine (seed : Int) (r : Report) : String :=
  "  seed " ++ Text.padLeft 5 (Text.decimal seed) ++ "  " ++ r.verdict ++ "  " ++
    Text.padRight 20 r.status.name ++ " cycles=" ++ Text.padRight 7 (Text.decimal r.cycles) ++
    " retired=" ++ Text.padRight 6 (Text.decimal r.retired) ++ " CPI=" ++ threePlaces r.cpi

/-- Random programs of consecutive seeds. Seed and length are looked at only if there is a
program to make. -/
def stimuli (c : Config) (count : Nat) : Except Failure (List Stimulus) :=
  match count, o.seed, o.length with
  | 0, _, _ => .ok []
  | count, some seed, some length => Stimulus.generateMany count seed length c
  | _, _, _ => .error .wrongShape

/-- More than one run needs a positive number of workers. Runs are independent, so that number has
no effect on their reports. -/
def checkWorkers (runs : Nat) : Except Failure Unit :=
  if runs ≤ 1 then .ok ()
  else match o.workers with
    | none => .error .wrongShape
    | some n => if 0 < n then .ok () else .error (.refused .noWorkers)

def batch (c : Config) (count : Int) : Except Failure Outcome := do
  let stimuli ← stimuli o c count.toNat
  checkWorkers o stimuli.length
  let runs ← stimuli.mapM fun s => Job.run c ⟨s.words.toArray, s.data⟩
  let reports := runs.map Simulator.report
  let passed := (reports.filter Report.passed).length
  return {
    exit := if passed = reports.length then 0 else 1
    output := List.zipWith batchLine (stimuli.map Stimulus.seed) reports ++
      [Text.decimal passed ++ "/" ++ Text.decimal reports.length ++ " passed"]
    errors := runs.flatMap (noticeLines o) }

def number (text : List Char) : Except Failure Int :=
  (Text.readInteger text).mapError fun fault => .refused (.ofNumeral 0 text fault)

/-- The parts of a text between commas. -/
def commaParts : List Char → List (List Char)
  | [] => [[]]
  | c :: rest =>
    if c = ',' then [] :: commaParts rest
    else match commaParts rest with
      | [] => [[c]]
      | part :: parts => (c :: part) :: parts

/-- Data on the command line: an address, a colon, and words with commas between them. -/
def readData (text : String) : Except Failure (Int × List Int) := do
  let (addr, rest) := Text.cutAt ':' text.toList
  let addr ← number addr
  let parts := (commaParts (rest.getD [])).filter fun part => !(Text.trim part).isEmpty
  return (addr, ← parts.mapM number)

def preloadAll (s : Simulator) : Except Failure Simulator :=
  o.data.foldlM (fun s text => do
    match text with
    | some text =>
      let (addr, words) ← readData text
      return s.preload addr words
    | none => throw .noText) s

/-- A complete run, and what is to be shown of it. -/
def runToEnd (s : Simulator) : Except Failure Outcome := do
  let (r, s) := s.run none
  let _ ← r
  let report := s.report
  let state ← if o.state then List.singleton <$> s.stateText else pure []
  return {
    exit := if report.passed then 0 else 1
    output :=
      (if o.trace then [s.traceText 0 none] else []) ++ state ++
      (if o.coverage then [s.pipeline.coverage.report] else []) ++
      [if o.json then Json.layout (report.value Report.fraction) else report.text]
    errors := noticeLines o s }

/-- What is done with a simulator that has its program, if there is one. -/
def proceed (s : Simulator) (hasProgram : Bool) : Except Failure Task := do
  let s ← preloadAll o s
  if o.disassemble then
    let lines := disassemble (s.program.toList.map Int.ofNat) 0
    let output := if lines.isEmpty then [""] else lines
    return .finished { exit := 0, output, errors := noticeLines o s }
  if o.interactive || !hasProgram then return .converse { simulator := s }
  return .finished (← runToEnd o s)

def simulate (c : Config) : Except Failure Task := do
  let s ← Simulator.create c
  match given o.program with
  | none => proceed o s false
  | some path =>
    let refusal (message : String) : Task :=
      .finished { exit := 1, errors := ["Error loading " ++ path ++ ": " ++ message] }
    match Image.ofFile files path with
    | .ok image => proceed o (s.load image none).2 true
    | .error (.file f) => return refusal f.message
    | .error (.assembly e) => return refusal e.message
    | .error e => throw e

/-- Carries a command line out, up to the point where the monitor takes over. -/
def start : Except Failure Task :=
  match o.assemble with
  | some (source, image) => (assemble o files source image).map .finished
  | none =>
    match config o files with
    | .error (.config fault) =>
      .ok (.finished { exit := 2, errors := ["Configuration error: " ++ fault.message] })
    | .error e => .error e
    | .ok c =>
      match o.batch.filter (· != 0) with
      | some count => (batch o c count).map .finished
      | none => simulate o files c

/-- The files that a command line reads before the monitor takes over. -/
def inputs : List String :=
  match o.assemble with
  | some (source, _) => [source]
  | none => [o.config, o.program].filterMap given

end AccelPipe.CommandLine
