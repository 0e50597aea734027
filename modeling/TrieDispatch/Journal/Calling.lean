import TrieDispatch.Code.Listing
import TrieDispatch.Dispatch
import TrieDispatch.Journal.Event

/-! # Events of calls -/

namespace TrieDispatch.Journal

open Machine

def instructionReached (job : Job) (frame : Frame) : Event :=
  ⟨.trace, "hookdispatch::vm::step",
    [("ip", toString frame.ip), ("mnemonic", (job.routine.lineAt frame.ip).text),
      ("stack_depth", toString frame.stack.size)]⟩

def handlerCalled (invocation : Invocation) : Event :=
  ⟨.trace, "hookdispatch::vm",
    [("handler", invocation.handler.name), ("arity", toString invocation.handler.arity),
      ("message", "call handler")]⟩

def returned (found : Bool) (steps : Nat) : Event :=
  ⟨.trace, "hookdispatch::vm",
    [("found", toString found), ("steps", toString steps), ("message", "return")]⟩

def newCalls (earlier : Nat) (frame : Frame) : Array Event :=
  (frame.calls.extract earlier frame.calls.size).map handlerCalled

/-- Adds the events of at most `budget` more steps. -/
def addSteps (job : Job) (trace : Bool) :
    (budget : Nat) → Frame → Array Event → Array Event
  | 0, _, events => events
  | budget + 1, frame, events =>
    let shown := trace && (job.routine.code.opcode? frame.ip).isSome
    let events := if shown then events.push (instructionReached job frame) else events
    let earlier := frame.calls.size
    match step job frame with
    | .ok none frame => addSteps job trace budget frame (events ++ newCalls earlier frame)
    | .ok (some found) frame => (events ++ newCalls earlier frame).push (returned found frame.steps)
    | .error _ frame => events ++ newCalls earlier frame

def running (routine : Routine) (settings : MachineSettings) (key : String) (out : Option Value)
    (args : List Value) : Array Event :=
  addSteps (.of routine settings key args) settings.trace settings.maxSteps (.start routine out) #[]

def keyUnknown (key : String) : Event :=
  ⟨.trace, "hookdispatch::dispatch", [("key", key), ("message", "no handler")]⟩

def calling (dispatch : Dispatch) (key : String) (out : Option Value) (args : List Value) :
    Array Event :=
  match dispatch with
  | .lookup directory => if directory.contains key then #[] else #[keyUnknown key]
  | .compiled routine settings => running routine settings key out args

end TrieDispatch.Journal
