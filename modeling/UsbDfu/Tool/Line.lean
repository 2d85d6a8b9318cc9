import UsbDfu.Tool.Size
import UsbDfu.DeviceFilter
import UsbDfu.Fixup

/-!
# Command lines

A command line names a job and gives it options and, to some, a file. `Job.ofArguments` reads one
argument after the other. The value of an option is looked at only when the next option
or file comes, or the line ends; so of two mistakes the one that is noticed first is told.
-/

namespace UsbDfu.Tool

/-- What the user wants done. -/
inductive Job where
  | list (filter : DeviceFilter)
  | read (file : String) (filter : DeviceFilter) (start : Option Nat) (length : Option Nat)
  | write (file : String) (filter : DeviceFilter) (start : Option Nat) (fixups : List Fixup)
      (transferSize : Option UInt16)
  | detach (filter : DeviceFilter)
  deriving DecidableEq, Repr

/-! ## Mistakes -/

/-- Why a value of an option does not do. -/
inductive ValueError where
  | numeral (e : Text.NumeralError)
  | fixup (e : ConfigurationError)
  deriving DecidableEq, Repr

/-- The error in words. -/
def ValueError.message : ValueError → String
  | .numeral e => e.message
  | .fixup e => e.message

/-- Why a command line is not carried out. -/
inductive LineError where
  /-- The user asks for help. -/
  | help
  /-- The user asks for the version. -/
  | version
  | unknownJob
  | unknownArgument
  /-- An option has no value, or the file no name. -/
  | missingValue
  /-- An option that takes no value has one. -/
  | unwantedValue
  | badValue (e : ValueError)
  /-- An option is given twice. -/
  | repeated
  | missingFile
  deriving DecidableEq, Repr

/-! ## Options -/

/-- The options that take a value. -/
inductive LineOption where
  | vendor
  | product
  | serial
  | startAddress
  | length
  | addressFixup
  | transferSize
  deriving DecidableEq, Repr

namespace LineOption

/-- The name of the option after two dashes. -/
def longName : LineOption → String
  | .vendor => "vendor"
  | .product => "product"
  | .serial => "serial"
  | .startAddress => "start-address"
  | .length => "length"
  | .addressFixup => "address-fixup"
  | .transferSize => "transfer-size"

/-- The letter of the option after one dash. -/
def letter? : LineOption → Option Char
  | .vendor => some 'v'
  | .product => some 'p'
  | .serial => some 's'
  | .startAddress => some 'a'
  | .length => some 'l'
  | .addressFixup => none
  | .transferSize => some 't'

end LineOption

/-- The jobs by name. -/
inductive Verb where
  | list
  | read
  | write
  | detach
  deriving DecidableEq, Repr

namespace Verb

/-- The job of this name. -/
def ofName? : String → Option Verb
  | "list" => some .list
  | "read" => some .read
  | "write" => some .write
  | "detach" => some .detach
  | _ => none

/-- The options that every job has. -/
def filterOptions : List LineOption := [.vendor, .product, .serial]

/-- The options that the job takes. -/
def options : Verb → List LineOption
  | .list | .detach => filterOptions
  | .read => filterOptions ++ [.startAddress, .length]
  | .write => filterOptions ++ [.startAddress, .addressFixup, .transferSize]

/-- The job takes the name of a file. -/
def takesFile : Verb → Bool
  | .read | .write => true
  | .list | .detach => false

end Verb

/-! ## Values -/

/-- All that a command line has told so far. -/
structure Settings where
  file : Option String
  vendor : Option UInt16
  product : Option UInt16
  serial : Option String
  startAddress : Option Nat
  length : Option Nat
  fixups : List Fixup
  transferSize : Option UInt16
  deriving DecidableEq, Repr

/-- Four hexadecimal digits, as identifiers are written. -/
def readIdentifier (text : String) : Except Text.NumeralError UInt16 :=
  (Text.readUnsigned 16 0x10000 text.toList).map UInt16.ofNat

namespace Settings

/-- Nothing is set. -/
def none : Settings := ⟨.none, .none, .none, .none, .none, .none, [], .none⟩

/-- Which devices the settings ask for. -/
def filter (s : Settings) : DeviceFilter := ⟨s.vendor, s.product, s.serial⟩

/-- The option was given, and may be given only once. -/
def refuses (s : Settings) : LineOption → Bool
  | .vendor => s.vendor.isSome
  | .product => s.product.isSome
  | .serial => s.serial.isSome
  | .startAddress => s.startAddress.isSome
  | .length => s.length.isSome
  | .addressFixup => false
  | .transferSize => s.transferSize.isSome

/-- Takes in the value of an option. -/
def put (s : Settings) (o : LineOption) (text : String) : Except ValueError Settings :=
  match o with
  | .vendor => do
    let v ← (readIdentifier text).mapError .numeral
    pure { s with vendor := some v }
  | .product => do
    let p ← (readIdentifier text).mapError .numeral
    pure { s with product := some p }
  | .serial => pure { s with serial := some text }
  | .startAddress => do
    let a ← (Text.readMaybeHex addressSpace text.toList).mapError .numeral
    pure { s with startAddress := some a }
  | .length => do
    let n ← (readLength text.toList).mapError .numeral
    pure { s with length := some n }
  | .addressFixup => do
    let f ← (Fixup.parse text).mapError .fixup
    pure { s with fixups := s.fixups ++ [f] }
  | .transferSize => do
    let n ← (Text.readMaybeHex 0x10000 text.toList).mapError .numeral
    pure { s with transferSize := some (UInt16.ofNat n) }

/-- Takes in an option, given once more or for the first time. -/
def give (s : Settings) (o : LineOption) (text : String) : Except LineError Settings :=
  if s.refuses o then .error .repeated else (s.put o text).mapError .badValue

/-- Takes in the name of the file. -/
def giveFile (s : Settings) (name : String) : Except LineError Settings :=
  if name.isEmpty then .error .missingValue else .ok { s with file := some name }

end Settings

/-! ## Arguments -/

/-- What was given last and has not been looked at. -/
inductive Pending where
  | nothing
  /-- An option that waits for its value. -/
  | option (o : LineOption)
  | value (o : LineOption) (text : String)
  | file (name : String)
  deriving DecidableEq, Repr

/-- A command line that is read. -/
structure LineScan where
  settings : Settings
  pending : Pending
  /-- What comes next are files, whatever they look like. -/
  onlyFiles : Bool
  /-- A file has been given. -/
  hasFile : Bool
  deriving DecidableEq, Repr

namespace LineScan

/-- Nothing was read. -/
def fresh : LineScan := ⟨.none, .nothing, false, false⟩

/-- Looks at what is pending. -/
def settle (r : LineScan) : Except LineError LineScan := do
  let settings ←
    match r.pending with
    | .nothing => pure r.settings
    | .option _ => throw .missingValue
    | .value o text => r.settings.give o text
    | .file name => r.settings.giveFile name
  pure { r with settings := settings, pending := .nothing }

/-- An option with its value, or one whose value comes next. -/
def option (r : LineScan) (o : LineOption) (value : Option String) :
    Except LineError LineScan := do
  let r ← r.settle
  match value with
  | some text => settle { r with pending := .value o text }
  | none => pure { r with pending := .option o }

/-- The user asks for help; what came before has to be right. -/
def help (r : LineScan) : Except LineError LineScan := do
  let _ ← r.settle
  throw .help

/-- An argument that is no option. -/
def word (verb : Verb) (r : LineScan) (text : String) : Except LineError LineScan := do
  if verb.takesFile && !r.hasFile then do
    let r ← r.settle
    pure { r with pending := .file text, hasFile := true }
  else throw .unknownArgument

/-- An option by its long name, with a value after `=` or not. -/
def long (verb : Verb) (r : LineScan) (text : List Char) : Except LineError LineScan :=
  let name := String.ofList (text.takeWhile (· ≠ '='))
  let value :=
    match text.dropWhile (· ≠ '=') with
    | [] => none
    | _ :: value => some (String.ofList value)
  if name = "help" then if value.isSome then .error .unwantedValue else r.help
  else
    match verb.options.find? (·.longName = name) with
    | some o => r.option o value
    | none => .error .unknownArgument

/-- An option by its letter, with a value right behind it, after `=` or not. -/
def short (verb : Verb) (r : LineScan) (letter : Char) (rest : List Char) :
    Except LineError LineScan :=
  if letter = 'h' then r.help
  else
    match verb.options.find? (·.letter? = some letter), rest with
    | none, _ => .error .unknownArgument
    | some o, [] => r.option o none
    | some o, '=' :: value => r.option o (some (String.ofList value))
    | some o, value => r.option o (some (String.ofList value))

/-- Takes in one argument. -/
def argument (verb : Verb) (r : LineScan) (text : String) : Except LineError LineScan :=
  if r.onlyFiles then r.word verb text
  else
    match text.toList with
    | ['-', '-'] => .ok { r with onlyFiles := true }
    | '-' :: '-' :: cs => r.long verb cs
    | '-' :: c :: cs => r.short verb c cs
    | _ =>
      match r.pending with
      | .option o => .ok { r with pending := .value o text }
      | _ => r.word verb text

/-- The line has ended. -/
def finish (verb : Verb) (r : LineScan) : Except LineError Job := do
  let s := (← r.settle).settings
  match verb, s.file with
  | .list, _ => pure (.list s.filter)
  | .detach, _ => pure (.detach s.filter)
  | .read, some file => pure (.read file s.filter s.startAddress s.length)
  | .write, some file =>
    pure (.write file s.filter s.startAddress s.fixups s.transferSize)
  | .read, none | .write, none => throw .missingFile

end LineScan

/-! ## Lines -/

/-- The name of the job that explains the others. -/
def helpName : String := "help"

/-- Explains a job. -/
def helpOn : List String → LineError
  | [] => .help
  | [name] => if name = helpName ∨ (Verb.ofName? name).isSome then .help else .unknownJob
  | _ => .unknownJob

/-- After `--` no job can be named any more. -/
def afterDashes : List String → Except LineError Job
  | [] => .ok (.list .any)
  | name :: _ =>
    if name = helpName ∨ (Verb.ofName? name).isSome then .error .unknownArgument
    else .error .unknownJob

/-- An option in place of a job. -/
def topOption (cs : List Char) : LineError :=
  match cs with
  | '-' :: cs =>
    let name := String.ofList (cs.takeWhile (· ≠ '='))
    if name = "help" ∨ name = "version" then
      if cs.contains '=' then .unwantedValue else if name = "help" then .help else .version
    else .unknownArgument
  | 'h' :: _ => .help
  | 'V' :: _ => .version
  | _ => .unknownArgument

/-- The job that the arguments give; without any, all devices are listed. -/
def Job.ofArguments : List String → Except LineError Job
  | [] => .ok (.list .any)
  | name :: arguments =>
    match Verb.ofName? name, name.toList with
    | some verb, _ => do
      let r ← arguments.foldlM (LineScan.argument verb) .fresh
      r.finish verb
    | none, ['-', '-'] => afterDashes arguments
    | none, '-' :: c :: cs => .error (topOption (c :: cs))
    | none, _ => .error (if name = helpName then helpOn arguments else .unknownJob)

end UsbDfu.Tool
