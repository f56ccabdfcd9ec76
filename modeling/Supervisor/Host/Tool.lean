import Supervisor.Fault
import Supervisor.Host.Basic
import Supervisor.Text.Blank
import Supervisor.Text.Utf8
/-!
# Tools

Programs that are run to their end: what they are run with, and what their end says.
-/
namespace Supervisor

structure Invocation where
  executable : Path
  args : List String := []
  /-- Variables that are added to those of the host. -/
  env : Table String := []
  timeout : Duration

structure ToolOutput where
  stdout : String
  stderr : String
deriving DecidableEq, Repr

/-- How the run of a tool ended. -/
inductive ToolEnd
  /-- It ended by itself; no exit code if it was killed. -/
  | exited (code : Option Int) (stdout stderr : List UInt8)
  | notStarted (e : SystemError)
  | overdue

namespace Invocation

/-- The name under which faults speak of the tool. -/
def toolName (i : Invocation) : String := (i.executable.fileName?).getD i.executable.text

/-- What a tool complains about; its exit code if it says nothing. -/
def complaint (code : Option Int) (stderr : String) : String :=
  let text := Text.trim stderr.toList
  if text.isEmpty then "command failed with exit code: " ++ Fault.exitCodeText code
  else String.ofList text

def judge (i : Invocation) : ToolEnd → Except Fault ToolOutput
  | .exited code stdout stderr =>
    let stderr := Text.decodeLossy stderr
    if code = some 0 then .ok ⟨Text.decodeLossy stdout, stderr⟩
    else .error (.externalTool i.toolName code (complaint code stderr))
  | .notStarted e => .error (.externalTool i.toolName none ("failed to execute: " ++ e.message))
  | .overdue =>
    .error (.timeout (i.toolName ++ " timed out after " ++ toString i.timeout.seconds ++ "s"))

end Invocation

/-- What is needed of a machine to run tools on it; `σ` is the state of the machine. -/
structure Workshop (σ : Type) where
  exists? : σ → Path → Bool
  find? : σ → String → Option Path
  run : Invocation → σ → Except Fault ToolOutput × σ
  removeDirectory : Path → σ → σ

end Supervisor
