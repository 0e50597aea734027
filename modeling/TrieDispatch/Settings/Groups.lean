import TrieDispatch.Settings
import TrieDispatch.Toml.Value

/-! # Settings from documents -/

namespace TrieDispatch

open Toml (Entries)

namespace Settings

/-- The settings of one group: by key, or in order. -/
inductive Group where
  | named (entries : Entries)
  | ordered (items : List Toml.Value)

/-- A date stands for a group without any of its keys. -/
def Group.of? : Option Toml.Value → Option Group
  | none => some (.named [])
  | some (.table _ entries) => some (.named entries)
  | some (.array items) => some (.ordered items)
  | some (.tables elements) => some (.ordered (elements.map (.table .header)))
  | some .date => some (.named [])
  | some _ => none

def Group.setting? (group : Group) (key : String) (position : Nat) : Option Toml.Value :=
  match group with
  | .named entries => entries.lookup key
  | .ordered items => items[position]?

def readFlag (default : Bool) : Option Toml.Value → Option Bool
  | none => some default
  | some (.boolean flag) => some flag
  | some _ => none

def readCount (default : Nat) : Option Toml.Value → Option Nat
  | none => some default
  | some (.integer number) => if 0 ≤ number then some number.toNat else none
  | some _ => none

def Group.compiler? (group : Group) : Option CompilerSettings := do
  let usual : CompilerSettings := default
  return {
    traceListing := ← readFlag usual.traceListing (group.setting? "trace_listing" 0)
    maxEncodePasses := ← readCount usual.maxEncodePasses (group.setting? "max_encode_passes" 1)
  }

def Group.machine? (group : Group) : Option MachineSettings := do
  let usual : MachineSettings := default
  return {
    maxStack := ← readCount usual.maxStack (group.setting? "max_stack" 0)
    maxSteps := ← readCount usual.maxSteps (group.setting? "max_steps" 1)
    trace := ← readFlag usual.trace (group.setting? "trace" 2)
  }

/-- What is absent keeps its default, and unknown keys are passed over. -/
def ofEntries? (entries : Entries) : Option Settings := do
  let compiler ← (← Group.of? (entries.lookup "compiler")).compiler?
  let machine ← (← Group.of? (entries.lookup "vm")).machine?
  return { compiler, machine }

variable (document? : String → Option Entries)

/-- Settings that are read are also in range. -/
def read (text : String) : Except SettingsError Settings :=
  match document? text with
  | none => .error (.malformed "not a TOML document")
  | some entries =>
    match ofEntries? entries with
    | none => .error (.malformed "a setting has the wrong type")
    | some settings => settings.validate.map fun _ => settings

def readFile (path : String) (content : Option ByteArray) : Except SettingsError Settings :=
  match content with
  | none => .error (.unreadable path "no such file")
  | some bytes =>
    match String.fromUTF8? bytes with
    | none => .error (.unreadable path "not valid UTF-8")
    | some text => read document? text

end Settings

end TrieDispatch
