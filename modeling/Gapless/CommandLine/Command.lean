/-
# Gapless.CommandLine.Command -- replay a file and check what comes out

The command reads a file, cuts it up as the options say, replays the chunks through
a buffer and compares what was read with the file.  If an output is named it is
written before the comparison is announced.  The exit code is 0 when the bytes are
intact, 1 when they are not or when anything failed on the way, and 2 when the
arguments make no sense.  When there is no memory for a read the program ends without a
word: with a code of its own if no machine could have it (`ReplayFault.oversized`), and
from outside if this one has not.

Each record of the log is written twice.
-/
import Gapless.CommandLine.Arguments
import Gapless.CommandLine.Machine
import Gapless.Journal
import Gapless.Replay

namespace Gapless.CommandLine

set_option autoImplicit false

/-- What running the command comes to, apart from the files it wrote. -/
structure Outcome where
  /-- The exit code, unless the program was ended from outside. -/
  code : Option Nat
  log : List LogRecord := []
  /-- Lines for the standard output, after the log. -/
  output : List String := []
  /-- What is wrong with the arguments. -/
  complaint : Option Complaint := none
  deriving DecidableEq

inductive Failure where
  | file (fault : FileFault)
  | replay (refusal : Refusal)
  deriving DecidableEq

def Failure.message : Failure → String
  | .file fault => fault.message
  | .replay refusal => refusal.message

namespace Command

def logTarget : String := "stream_reassembly"

def announce (record : LogRecord) : List LogRecord := [record, record]

def failed (failure : Failure) : Outcome where
  code := some 1
  log := announce
    { level := .error, target := logTarget
      message := "replay failed error=" ++ failure.message }

def counts (report : ReplayReport) : String :=
  s!"chunks={report.chunks} reads={report.reads} stalled_polls={report.stalledPolls} " ++
    s!"peak_segments={report.peakSegments} peak_buffered_bytes={report.peakHeld}"

/-- The line that sums a replay up. -/
def summary (length : Nat) (report : ReplayReport) (intact : Bool) : String :=
  s!"{length} bytes in {report.chunks} chunks, {report.reads} reads, " ++
    s!"{report.stalledPolls} stalled polls, peak {report.peakSegments} segments / " ++
    s!"{report.peakHeld} bytes: " ++ (if intact then "intact" else "MISMATCH")

/-- The outcome of a replay of `input` that was carried to its end. -/
def finished (input : Bytes) (report : ReplayReport) : Outcome :=
  let intact := report.output = input
  { code := some (if intact then 0 else 1)
    log := announce
      { level := .info, target := logTarget, message := "replay finished " ++ counts report }
    output := [summary input.length report intact] }

/-- The outcome of such a replay after its output was written, or was not. -/
def concluded (input : Bytes) (report : ReplayReport) : Except FileFault Unit → Outcome
  | .error fault => failed (.file fault)
  | .ok () => finished input report

/-- Replay `input` as the options say. -/
def replay (options : Options) (input : Bytes) : Except ReplayFault ReplayReport :=
  ((Buffer.fresh options.limits).replay (options.plan.chunks input) options.readSize).result

def versionLine : String := "stream-reassembly 0.1.0"

def helpLines : List String :=
  ["Replay a file through a reassembly buffer as out-of-order chunks",
   "",
   "Usage: stream-reassembly [OPTIONS] <INPUT>",
   "",
   "Options:",
   "  -o, --output <OUTPUT>",
   "      --chunk-size <CHUNK_SIZE>",
   "      --overlap <OVERLAP>",
   "      --order <ORDER>",
   "      --duplicate-every <DUPLICATE_EVERY>",
   "      --read-size <READ_SIZE>",
   "      --max-buffered-bytes <MAX_BUFFERED_BYTES>",
   "      --max-segments <MAX_SEGMENTS>",
   "  -h, --help",
   "  -V, --version"]

section Running

variable {m : Type → Type} [Monad m]

/-- Write the output where the options name a place for it. -/
def writeOutput (machine : Machine m) (options : Options) (output : Bytes) :
    m (Except FileFault Unit) :=
  match options.output with
  | none => pure (.ok ())
  | some path => machine.write path output

/-- Replay what was read and write what came of it. -/
def replayAndWrite (machine : Machine m) (options : Options) (input : Bytes) : m Outcome := do
  match replay options input with
  | .error .oversized => return { code := some 101 }
  | .error (.refused refusal) => return failed (.replay refusal)
  | .ok report => return concluded input report (← writeOutput machine options report.output)

/-- Do what the options say.  Memory for the reads is asked for when the input is there. -/
def execute (machine : Machine m) (options : Options) : m Outcome := do
  match ← machine.read options.input with
  | .error fault => return failed (.file fault)
  | .ok input =>
      if options.readSize ≤ longestRequest ∧ ¬machine.hasRoom options.readSize then
        return { code := none }
      else replayAndWrite machine options input

/-- Run the command with the arguments that follow its name. -/
def run (machine : Machine m) (arguments : List String) : m Outcome :=
  match Options.ofArguments arguments with
  | .ok options => execute machine options
  | .error .help => pure { code := some 0, output := helpLines }
  | .error .version => pure { code := some 0, output := [versionLine] }
  | .error (.misuse complaint) => pure { code := some 2, complaint := some complaint }

end Running

end Command

end Gapless.CommandLine
