import TrieDispatch.Proofs.Toml.Documents
import TrieDispatch.Settings.Read

/-! # Settings that are read -/

namespace TrieDispatch.Settings

section

variable {document? : String → Option Toml.Entries} {text path reason : String}
  {settings : Settings}

theorem read_eq_ok_iff :
    read document? text = .ok settings ↔ ∃ entries, document? text = some entries ∧
      ofEntries? entries = some settings ∧ settings.validate = .ok () := by
  rw [read]
  cases document? text with
  | none => simp
  | some entries =>
    cases typed : ofEntries? entries with
    | none => simp [typed]
    | some found =>
      cases valid : found.validate with
      | error error =>
        simp only [typed, valid, Except.map, Option.some.injEq, reduceCtorEq, false_iff]
        rintro ⟨_, rfl, same, valid'⟩
        cases typed.symm.trans same
        cases valid.symm.trans valid'
      | ok =>
        simp only [typed, valid, Except.map, Option.some.injEq, Except.ok.injEq]
        constructor
        · rintro rfl
          exact ⟨entries, rfl, typed, valid⟩
        · rintro ⟨_, rfl, same, -⟩
          exact Option.some.inj (typed.symm.trans same)

theorem read_ne_unreadable : read document? text ≠ .error (.unreadable path reason) := by
  rw [read]
  split
  next => simp
  next =>
    split
    next => simp
    next settings _ =>
      rw [validate]
      split
      next => simp [Except.map]
      next => split <;> simp [Except.map]

theorem readFile_toByteArray :
    readFile document? path (some text.toByteArray) = read document? text := by
  have decoded : String.fromUTF8? text.toByteArray = some text := dif_pos text.isValidUTF8
  rw [readFile, decoded]

/-- Reading a file fails for the file itself just when its content is no text. -/
theorem readFile_eq_unreadable_iff {content : Option ByteArray} :
    (∃ reason, readFile document? path content = .error (.unreadable path reason)) ↔
      ∀ text : String, content ≠ some text.toByteArray := by
  constructor
  · rintro ⟨reason, failed⟩ text rfl
    rw [readFile_toByteArray] at failed
    exact read_ne_unreadable failed
  · intro other
    cases content with
    | none => exact ⟨_, rfl⟩
    | some bytes =>
      by_cases valid : bytes.IsValidUTF8
      · exact absurd rfl (other (String.fromUTF8 bytes valid))
      · have undecoded : String.fromUTF8? bytes = none := dif_neg valid
        exact ⟨_, by rw [readFile, undecoded]⟩

end

namespace Group

/-- An array gives the settings of a group in the order of their keys. -/
theorem compiler?_ordered (items : List Toml.Value) :
    (ordered items).compiler? =
      (named (["trace_listing", "max_encode_passes"].zip items)).compiler? := by
  rcases items with _ | ⟨a, _ | ⟨b, items⟩⟩ <;> rfl

theorem machine?_ordered (items : List Toml.Value) :
    (ordered items).machine? =
      (named (["max_stack", "max_steps", "trace"].zip items)).machine? := by
  rcases items with _ | ⟨a, _ | ⟨b, _ | ⟨c, items⟩⟩⟩ <;> rfl

end Group

/-- The settings that a document mentions. -/
structure Given where
  traceListing : Option Bool
  maxEncodePasses : Option Nat
  maxStack : Option Nat
  maxSteps : Option Nat
  trace : Option Bool

namespace Given

def settings (given : Given) : Settings :=
  let usual : Settings := default
  { compiler := {
      traceListing := given.traceListing.getD usual.compiler.traceListing
      maxEncodePasses := given.maxEncodePasses.getD usual.compiler.maxEncodePasses }
    machine := {
      maxStack := given.maxStack.getD usual.machine.maxStack
      maxSteps := given.maxSteps.getD usual.machine.maxSteps
      trace := given.trace.getD usual.machine.trace } }

def flagPair (key : String) (flag? : Option Bool) : List (String × Toml.Scalar) :=
  (flag?.map fun b => (key, .flag b)).toList

def countPair (key : String) (count? : Option Nat) : List (String × Toml.Scalar) :=
  (count?.map fun n => (key, .number n)).toList

def compilerTable (given : Given) : Toml.Table where
  name := "compiler"
  pairs := flagPair "trace_listing" given.traceListing ++
    countPair "max_encode_passes" given.maxEncodePasses

def machineTable (given : Given) : Toml.Table where
  name := "vm"
  pairs := countPair "max_stack" given.maxStack ++ countPair "max_steps" given.maxSteps ++
    flagPair "trace" given.trace

def tables (given : Given) : List Toml.Table := [given.compilerTable, given.machineTable]

structure Fits (given : Given) : Prop where
  maxEncodePasses : ∀ n ∈ given.maxEncodePasses, Toml.Fits n
  maxStack : ∀ n ∈ given.maxStack, Toml.Fits n
  maxSteps : ∀ n ∈ given.maxSteps, Toml.Fits n

variable {given : Given} {key : String}

theorem writable_flagPair (bare : Toml.Bare key) (flag? : Option Bool) :
    ∀ entry ∈ flagPair key flag?, Toml.Bare entry.1 ∧ entry.2.Writable := by
  cases flag? with
  | none => simp [flagPair]
  | some b => simpa [flagPair, Toml.Scalar.Writable] using bare

theorem writable_countPair (bare : Toml.Bare key) {count? : Option Nat}
    (fits : ∀ n ∈ count?, Toml.Fits n) :
    ∀ entry ∈ countPair key count?, Toml.Bare entry.1 ∧ entry.2.Writable := by
  cases count? with
  | none => simp [countPair]
  | some n => simpa [countPair, Toml.Scalar.Writable] using ⟨bare, fits n rfl⟩

theorem writable_compilerTable (fits : given.Fits) : given.compilerTable.Writable where
  name := show Toml.Bare "compiler" by decide
  keys := List.forall_mem_append.2 ⟨writable_flagPair (by decide) _,
    writable_countPair (by decide) fits.maxEncodePasses⟩
  distinct := by
    rw [compilerTable]
    cases given.traceListing <;> cases given.maxEncodePasses <;> simp [flagPair, countPair]

theorem writable_machineTable (fits : given.Fits) : given.machineTable.Writable where
  name := show Toml.Bare "vm" by decide
  keys := List.forall_mem_append.2 ⟨List.forall_mem_append.2
    ⟨writable_countPair (by decide) fits.maxStack,
      writable_countPair (by decide) fits.maxSteps⟩,
    writable_flagPair (by decide) _⟩
  distinct := by
    rw [machineTable]
    cases given.maxStack <;> cases given.maxSteps <;> cases given.trace <;>
      simp [flagPair, countPair]

theorem compiler?_compilerTable (given : Given) :
    (Group.named given.compilerTable.entries).compiler? = some given.settings.compiler := by
  obtain ⟨traceListing, maxEncodePasses, -, -, -⟩ := given
  cases traceListing <;> cases maxEncodePasses <;> rfl

theorem machine?_machineTable (given : Given) :
    (Group.named given.machineTable.entries).machine? = some given.settings.machine := by
  obtain ⟨-, -, maxStack, maxSteps, trace⟩ := given
  cases maxStack <;> cases maxSteps <;> cases trace <;> rfl

theorem ofEntries?_tables (given : Given) :
    ofEntries? (given.tables.map Toml.Table.entry) = some given.settings := by
  show (Group.compiler? (.named given.compilerTable.entries)).bind (fun _ =>
    (Group.machine? (.named given.machineTable.entries)).bind _) = _
  rw [compiler?_compilerTable, machine?_machineTable]
  rfl

end Given

/-- The settings that a written document gives are read back, and the others have their
defaults. -/
theorem parse_written (given : Given) (fits : given.Fits) :
    parse (Toml.written given.tables) = given.settings.validate.map fun _ => given.settings := by
  have distinct : (given.tables.map Toml.Table.name).Nodup :=
    show ["compiler", "vm"].Nodup by decide
  have writable : ∀ table ∈ given.tables, table.Writable := List.forall_mem_cons.2
    ⟨Given.writable_compilerTable fits,
      List.forall_mem_singleton.2 (Given.writable_machineTable fits)⟩
  rw [parse, read, Toml.parse?_written writable distinct]
  dsimp only
  rw [Given.ofEntries?_tables]

end TrieDispatch.Settings
