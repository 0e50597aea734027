import TrieDispatch.Machine.Step
import TrieDispatch.Settings

namespace TrieDispatch.Machine

/-- The routine gets at least the stack depth recorded for it. -/
def Job.of (routine : Routine) (settings : MachineSettings) (key : String) (args : List Value) :
    Job :=
  ⟨routine, key.toList.toArray, args.toArray, max settings.maxStack routine.maxDepth⟩

def loop (step : Action (Option Bool)) (limit : Nat) :
    (budget : Nat) → Frame → Except Fault Bool × Frame
  | 0, frame => (.error (.stepLimit limit), frame)
  | budget + 1, frame =>
    match step frame with
    | .ok none frame => loop step limit budget frame
    | .ok (some found) frame => (.ok found, frame)
    | .error fault frame => (.error fault, frame)

/-- Whether a handler was found, and the last frame. -/
def run (routine : Routine) (settings : MachineSettings) (key : String) (out : Option Value)
    (args : List Value) : Except Fault Bool × Frame :=
  loop (step (.of routine settings key args)) settings.maxSteps settings.maxSteps
    (.start routine out)

end TrieDispatch.Machine
