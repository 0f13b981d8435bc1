import Depot.Net.Address
import Depot.Server.Config
import Depot.Text.Numerals

/-!
# The command line

The options of the server program. Arguments are read from left to right, and the first fault ends the
reading. Options take their value attached (`--port=1`, `-p1`, `-p=1`) or as the next argument, which
must not look like an option; such a value is looked at when the next option, or the end, shows that
it is complete. No option may be given twice, and there are no other arguments.
-/

namespace Depot.CommandLine

/-- An option with a value. -/
inductive Key
  | host
  | port
  | root
  | maxClients
  | keepalive
  | maxUpload
  | metrics
  deriving DecidableEq, Repr

/-- What an option does. -/
inductive Action
  | help
  | version
  | set (key : Key)
  deriving DecidableEq, Repr

/-- The ways in which a command line ends without settings. -/
inductive Refusal
  /-- Nothing of that name is known, or nothing may stand there. -/
  | unknownArgument
  /-- A value is missing. -/
  | invalidValue
  /-- A value does not have the form that its option needs. -/
  | valueValidation
  /-- An option is given twice. -/
  | argumentConflict
  /-- A value is given to an option that takes none. -/
  | tooManyValues
  | displayHelp
  | displayVersion
  deriving DecidableEq, Repr

/-- The name of a refusal. -/
def Refusal.label : Refusal → String
  | unknownArgument => "UnknownArgument"
  | invalidValue => "InvalidValue"
  | valueValidation => "ValueValidation"
  | argumentConflict => "ArgumentConflict"
  | tooManyValues => "TooManyValues"
  | displayHelp => "DisplayHelp"
  | displayVersion => "DisplayVersion"

/-- What the command line settles. -/
structure Settings where
  /-- The address to listen on. -/
  host : Net.Ip := .v4 0 0 0 0
  port : UInt16 := 2018
  /-- The directory of the store. -/
  root : String := "data"
  maxClients : Nat := 64
  /-- Milliseconds between two probes. -/
  keepaliveMillis : Nat := 1000
  maxUpload : Nat := 268435456
  /-- The address on which metrics are served, if they are. -/
  metrics : Option Net.Endpoint := none
  deriving DecidableEq, Repr

/-- The address and port to listen on. -/
def Settings.listen (s : Settings) : Net.Endpoint := { ip := s.host, port := s.port }

/-- The configuration of the server. -/
def Settings.config (s : Settings) : Config :=
  { maxClients := s.maxClients
    maxUpload := s.maxUpload
    liveness := .ofKeepalive (.millis s.keepaliveMillis) }

/-- The option with a long name. -/
def long? : String → Option Action
  | "host" => some (.set .host)
  | "port" => some (.set .port)
  | "root" => some (.set .root)
  | "max-clients" => some (.set .maxClients)
  | "keepalive-ms" => some (.set .keepalive)
  | "max-upload" => some (.set .maxUpload)
  | "metrics-addr" => some (.set .metrics)
  | "help" => some .help
  | "version" => some .version
  | _ => none

/-- The option with a letter. -/
def short? : Char → Option Action
  | 'p' => some (.set .port)
  | 'r' => some (.set .root)
  | 'h' => some .help
  | 'V' => some .version
  | _ => none

/-- The largest number that an option for a number takes. -/
def maxNumber : Nat := 18446744073709551615

/-- The port that a text means: a whole number, signed or not, in the range of ports. -/
def port? (text : String) : Option UInt16 :=
  match Text.Decimal.integer? 9223372036854775808 9223372036854775807 text with
  | some n => if 0 ≤ n ∧ n ≤ 65535 then some (UInt16.ofNat n.toNat) else none
  | none => none

/-- The settings with the value of an option read from its text. -/
def Settings.assign (s : Settings) (key : Key) (text : String) : Except Refusal Settings :=
  -- A text that has no value of its kind is refused under one name for all options.
  let valid {α : Type} (value : Option α) (use : α → Settings) : Except Refusal Settings :=
    match value with
    | some a => .ok (use a)
    | none => .error .valueValidation
  let number := Text.Decimal.natural? maxNumber text
  match key with
  | .host => valid (Net.Ip.parse? text) fun host => { s with host }
  | .port => valid (port? text) fun port => { s with port }
  | .root => if text.isEmpty then .error .invalidValue else .ok { s with root := text }
  | .maxClients => valid number fun maxClients => { s with maxClients }
  | .keepalive => valid number fun keepaliveMillis => { s with keepaliveMillis }
  | .maxUpload => valid number fun maxUpload => { s with maxUpload }
  | .metrics => valid (Net.Endpoint.parse? text) fun e => { s with metrics := some e }

/-- How far the arguments are read. -/
structure Reading where
  settings : Settings := {}
  /-- The options that have their value. -/
  given : List Key := []
  /-- The option whose value stands, or may stand, in an argument of its own. -/
  pending : Option (Key × Option String) := none

namespace Reading

/-- Gives an option its value. -/
def give (r : Reading) (key : Key) (text : String) : Except Refusal Reading :=
  if r.given.contains key then .error .argumentConflict
  else (r.settings.assign key text).map fun settings =>
    { settings, given := key :: r.given, pending := none }

/-- Settles the option that waits for its value. -/
def settle (r : Reading) : Except Refusal Reading :=
  match r.pending with
  | none => .ok r
  | some (_, none) => .error .invalidValue
  | some (key, some text) => { r with pending := none }.give key text

/-- Acts on an option, with the value attached to it, if any. -/
def act (r : Reading) (action : Action) (attached : Option String) : Except Refusal Reading := do
  let r ← r.settle
  match action, attached with
  | .help, _ => .error .displayHelp
  | .version, _ => .error .displayVersion
  | .set key, some text => r.give key text
  | .set key, none => .ok { r with pending := some (key, none) }

/-- Reads an option by its long name. -/
def readLong (r : Reading) (name : String) (attached : Option String) : Except Refusal Reading :=
  match long? name, attached with
  | none, _ => .error .unknownArgument
  | some .help, some _ => .error .tooManyValues
  | some .version, some _ => .error .tooManyValues
  | some action, attached => r.act action attached

/-- Reads options by their letters, up to the first one with a value: that is the rest, less an
equals sign in front, if there is a rest. -/
def readShort (r : Reading) : List Char → Except Refusal Reading
  | [] => .ok r
  | letter :: rest =>
      match short? letter with
      | none => .error .unknownArgument
      | some (.set key) =>
          match rest with
          | [] => r.act (.set key) none
          | '=' :: value => r.act (.set key) (some (String.ofList value))
          | value => r.act (.set key) (some (String.ofList value))
      | some action => (r.act action none).bind fun r => r.readShort rest

/-- Reads an argument that is no option: the value of the option that waits for one. -/
def readValue (r : Reading) (text : String) : Except Refusal Reading :=
  match r.pending with
  | some (key, none) => .ok { r with pending := some (key, some text) }
  | _ => .error .unknownArgument

/-- Cuts text at the first equals sign. -/
def cutAtEquals (cs : List Char) : String × Option String :=
  let name := cs.takeWhile (· ≠ '=')
  match cs.drop name.length with
  | [] => (String.ofList name, none)
  | _ :: value => (String.ofList name, some (String.ofList value))

/-- Reads one argument. -/
def readArgument (r : Reading) (argument : String) : Except Refusal Reading :=
  match argument.toList with
  | '-' :: '-' :: cs =>
      let (name, attached) := cutAtEquals cs
      r.readLong name attached
  | '-' :: c :: cs => r.readShort (c :: cs)
  | _ => r.readValue argument

/-- Reads the arguments. Two dashes alone end the options, and nothing may follow them. -/
def readAll (r : Reading) : List String → Except Refusal Settings
  | [] => r.settle.map Reading.settings
  | argument :: rest =>
      if argument = "--" then
        if rest.isEmpty then r.settle.map Reading.settings else .error .unknownArgument
      else (r.readArgument argument).bind fun r => r.readAll rest

end Reading

/-- The settings that the arguments of a command line give. -/
def parse (arguments : List String) : Except Refusal Settings :=
  ({} : Reading).readAll arguments

end Depot.CommandLine
