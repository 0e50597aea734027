namespace TrieDispatch

structure CompilerSettings where
  traceListing : Bool
  maxEncodePasses : Nat
  deriving DecidableEq, Repr

instance : Inhabited CompilerSettings := ⟨⟨false, 256⟩⟩

structure MachineSettings where
  maxStack : Nat
  maxSteps : Nat
  trace : Bool
  deriving DecidableEq, Repr

instance : Inhabited MachineSettings := ⟨⟨256, 1000000, false⟩⟩

structure Settings where
  compiler : CompilerSettings
  machine : MachineSettings
  deriving DecidableEq, Repr, Inhabited

inductive SettingsError where
  | unreadable (path reason : String)
  | malformed (reason : String)
  | outOfRange (reason : String)
  deriving DecidableEq, Repr

def SettingsError.message : SettingsError → String
  | unreadable path reason => s!"Failed to read {path}: {reason}"
  | malformed reason => "Invalid configuration: " ++ reason
  | outOfRange reason => "Invalid configuration value: " ++ reason

def Settings.validate (settings : Settings) : Except SettingsError Unit :=
  if settings.compiler.maxEncodePasses = 0 then
    .error (.outOfRange "compiler.max_encode_passes must be at least 1")
  else if settings.machine.maxSteps = 0 then
    .error (.outOfRange "vm.max_steps must be at least 1")
  else .ok ()

end TrieDispatch
