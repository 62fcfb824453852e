import QuantumCircuit.Angle.Reading
import QuantumCircuit.Settings

/-!
# The command line

The words of a command line set options, count `-v`, or ask for help or the version.  A word is
a long option (`--depth 5`, `--depth=5`), a group of short ones (`-d 5`, `-d5`, `-d=5`, `-vd5`),
two dashes alone, or a value; there is nothing that a value without an option could mean.

An option whose value is a word of its own is pending: the value is looked at when the next
option begins or the command line ends.  So a bad value comes to light before any fault of a
later option, but not before a word that is no option at all.
-/

namespace QuantumCircuit

-- Powers with natural exponents are those of the core library, whatever else is imported.
attribute [local instance (2000)] instPowNat

namespace CommandLine

/-- The options that take a value. -/
inductive ValueOption
  | wires
  | depth
  | rotationStep
  | output
  | logFile
  deriving DecidableEq, Repr

/-- The options that stand alone. -/
inductive Flag
  | verbose
  | help
  | version
  deriving DecidableEq, Repr

/-- Why a command line is not carried out. -/
inductive UsageError
  | unknownArgument
  /-- An option without its value, or an empty path. -/
  | missingValue
  | repeatedOption
  | badValue
  /-- A value for an option that takes none. -/
  | unwantedValue
  | helpWanted
  | versionWanted
  deriving DecidableEq, Repr

/-- The text that is shown for a command line that is not carried out. -/
def UsageError.message : UsageError → String
  | unknownArgument => "unexpected argument"
  | missingValue => "a value is required"
  | repeatedOption => "an option cannot be used twice"
  | badValue => "invalid value"
  | unwantedValue => "unexpected value for a flag"
  | helpWanted => "Terminal editor for grid-based quantum circuits\n\n"
      ++ "-q, --qubits N         number of qubit wires\n"
      ++ "-d, --depth N          number of columns\n"
      ++ "    --rotation-step A  angle added per rotate keystroke\n"
      ++ "-o, --output FILE      file written on save\n"
      ++ "    --log-file FILE    file for logs\n"
      ++ "-v, --verbose          more logs\n"
      ++ "-h, --help             this text\n"
      ++ "-V, --version          the version"
  | versionWanted => "0.1.0"

/-- What the command line sets. -/
structure Options where
  wires : Option Nat := none
  depth : Option Nat := none
  rotationStep : Option Binary64 := none
  output : Option String := none
  logFile : Option String := none
  verbosity : Nat := 0
  deriving DecidableEq

/-! ### Names -/

/-- The option or flag of a long name. -/
def longOption? : String → Option (ValueOption ⊕ Flag)
  | "qubits" => some (.inl .wires)
  | "depth" => some (.inl .depth)
  | "rotation-step" => some (.inl .rotationStep)
  | "output" => some (.inl .output)
  | "log-file" => some (.inl .logFile)
  | "verbose" => some (.inr .verbose)
  | "help" => some (.inr .help)
  | "version" => some (.inr .version)
  | _ => none

/-- The option or flag of a letter. -/
def shortOption? : Char → Option (ValueOption ⊕ Flag)
  | 'q' => some (.inl .wires)
  | 'd' => some (.inl .depth)
  | 'o' => some (.inl .output)
  | 'v' => some (.inr .verbose)
  | 'h' => some (.inr .help)
  | 'V' => some (.inr .version)
  | _ => none

/-! ### Values -/

/-- A count below `2 ^ 64`: an optional plus sign and digits. -/
def count? (text : String) : Option Nat :=
  let digits := match text.toList with
    | '+' :: rest => rest
    | all => all
  let n := Nat.ofDigitChars 10 digits 0
  if !digits.isEmpty && digits.all Char.isDigit && n < 2 ^ (64 : Nat) then some n else none

/-- A count, its fault as a fault of the command line. -/
def readCount (text : String) : Except UsageError Nat := (count? text).elim (.error .badValue) .ok

/-- Why a text is no rotation step. -/
def rotationStepFault (text : String) : String := s!"'{text}' is not a number or pi expression"

/-- The rotation step that a text denotes. -/
def readRotationStep (text : String) : Except String Binary64 :=
  (Angle.read? text).elim (.error (rotationStepFault text)) .ok

/-- A path is any text but the empty one. -/
def readPath (text : String) : Except UsageError String :=
  if text.isEmpty then .error .missingValue else .ok text

namespace Options

/-- The option has been given. -/
def has (o : Options) : ValueOption → Bool
  | .wires => o.wires.isSome
  | .depth => o.depth.isSome
  | .rotationStep => o.rotationStep.isSome
  | .output => o.output.isSome
  | .logFile => o.logFile.isSome

/-- Sets an option to the value that a text denotes. -/
def assign (o : Options) (text : String) : ValueOption → Except UsageError Options
  | .wires => (readCount text).map fun n => { o with wires := some n }
  | .depth => (readCount text).map fun n => { o with depth := some n }
  | .rotationStep =>
    match readRotationStep text with
    | .ok step => .ok { o with rotationStep := some step }
    | .error _ => .error .badValue
  | .output => (readPath text).map fun p => { o with output := some p }
  | .logFile => (readPath text).map fun p => { o with logFile := some p }

/-- Sets an option that has not been given before. -/
def set (o : Options) (option : ValueOption) (text : String) : Except UsageError Options :=
  if o.has option then .error .repeatedOption else o.assign text option

end Options

/-! ### Words -/

/-- The options so far, and the option that is pending with its value, if it has come. -/
structure Progress where
  options : Options
  pending : Option (ValueOption × Option String)
  deriving DecidableEq

namespace Progress

/-- Nothing has been set, and nothing is pending. -/
def start : Progress := ⟨{}, none⟩

/-- Looks at the value of the pending option. -/
def settle (p : Progress) : Except UsageError Options :=
  match p.pending with
  | none => .ok p.options
  | some (_, none) => .error .missingValue
  | some (option, some text) => p.options.set option text

/-- Begins an option that takes a value, which may be attached. -/
def begin (p : Progress) (option : ValueOption) (attached : Option String) :
    Except UsageError Progress := do
  let options ← p.settle
  match attached with
  | some text => return ⟨← options.set option text, none⟩
  | none => return ⟨options, some (option, none)⟩

/-- Carries out a flag; the count of `-v` stops at 255. -/
def flag (p : Progress) (f : Flag) : Except UsageError Progress := do
  let options ← p.settle
  match f with
  | .verbose => return ⟨{ options with verbosity := min (options.verbosity + 1) 255 }, none⟩
  | .help => .error .helpWanted
  | .version => .error .versionWanted

/-- A long option, after its two dashes. -/
def long (p : Progress) (text : List Char) : Except UsageError Progress :=
  let name := String.ofList (text.takeWhile (· != '='))
  let attached := match text.dropWhile (· != '=') with
    | [] => none
    | _ :: value => some (String.ofList value)
  match longOption? name, attached with
  | some (.inl option), _ => p.begin option attached
  | some (.inr f), none => p.flag f
  | some (.inr _), some _ => .error .unwantedValue
  | none, _ => .error .unknownArgument

/-- What is attached to a short option: nothing, or a value after an optional equals sign. -/
def attachedValue : List Char → Option String
  | [] => none
  | '=' :: value => some (String.ofList value)
  | value => some (String.ofList value)

/-- A group of short options, after its dash. -/
def short (p : Progress) : List Char → Except UsageError Progress
  | [] => .ok p
  | c :: rest =>
    match shortOption? c with
    | some (.inl option) => p.begin option (attachedValue rest)
    | some (.inr f) => do
      let p ← p.flag f
      p.short rest
    | none => .error .unknownArgument

/-- A word that is no option: the value of the pending option, if that still lacks one. -/
def value (p : Progress) (text : String) : Except UsageError Progress :=
  match p.pending with
  | some (option, none) => .ok { p with pending := some (option, some text) }
  | _ => .error .unknownArgument

/-- One word in front of two dashes alone. -/
def word (p : Progress) (text : String) : Except UsageError Progress :=
  match text.toList with
  | '-' :: '-' :: rest => p.long rest
  | '-' :: c :: rest => p.short (c :: rest)
  | _ => p.value text

/-- All words.  After two dashes alone nothing may follow. -/
def words (p : Progress) : List String → Except UsageError Progress
  | [] => .ok p
  | "--" :: rest => if rest.isEmpty then .ok p else .error .unknownArgument
  | text :: rest => do
    let p ← p.word text
    p.words rest

end Progress

/-! ### The whole command line -/

/-- Takes an option from a variable of the surroundings if the command line does not set it. -/
def fromVariable (given : Option Nat) (text? : Option String) :
    Except UsageError (Option Nat) :=
  match given, text? with
  | some n, _ => .ok (some n)
  | none, some text => (readCount text).map some
  | none, none => .ok none

/-- The variable that stands in for the number of wires. -/
def wiresVariable : String := "Q_GRID_QUBITS"

/-- The variable that stands in for the number of columns. -/
def depthVariable : String := "Q_GRID_DEPTH"

/-- Reads a command line; `lookup` gives the variables of the surroundings. -/
def parse (words : List String) (lookup : String → Option String) :
    Except UsageError Options := do
  let options ← (← Progress.start.words words).settle
  let wires ← fromVariable options.wires (lookup wiresVariable)
  let depth ← fromVariable options.depth (lookup depthVariable)
  return { options with wires, depth }

/-- The settings that the options ask for. -/
def Options.settings (o : Options) : Settings :=
  let standard : Settings := {}
  { wires := o.wires.getD standard.wires
    depth := o.depth.getD standard.depth
    rotationStep := o.rotationStep.getD standard.rotationStep
    output := o.output.getD standard.output }

end CommandLine

end QuantumCircuit
