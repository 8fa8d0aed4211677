import TokenGate.Number.Binary64
import TokenGate.Provider.Config

/-!
# Arguments: the words of a command line

A command line is options and then at most one command, behind which come further options. A word
with two dashes names an option and may hold its value behind an equals sign; one with a single dash
names an option of one letter, the rest being its value. The value may also be the next word, unless
that looks like an option; the switch takes no value from there. It is read when the next option
comes, or at the end. A parameter behind the command counts more than the same one in front of it,
and both more than the environment.
-/

/-!
## Parameters: what can be set from the command line

A parameter has an option on the command line and a variable of the environment. Some parameters may
also be set behind a command. A value that cannot be read is a fault of its own, and an option that
is given needs one, except for the switch, which is then on.
-/

namespace TokenGate.CommandLine

/-- What ends the reading of a command line. -/
inductive UsageFault
  /-- Help is asked for. -/
  | help
  /-- The version is asked for. -/
  | version
  /-- An option or a word that is not known here. -/
  | unknownArgument
  /-- A word where a command is expected. -/
  | unknownCommand
  /-- An option without a value. -/
  | missingValue
  /-- A value for an option that takes none. -/
  | surplusValue
  /-- A value that cannot be read. -/
  | badValue
  /-- An option that is given twice. -/
  | repeated
  deriving DecidableEq, Repr

/-- What can be set. -/
inductive Parameter
  | config
  | port
  | host
  | logLevel
  | logFormat
  | issuer
  | clientId
  | deviceClientId
  | skipIssuerVerify
  deriving DecidableEq, Repr

namespace Parameter

/-- All parameters, in the order in which the environment is looked through. -/
def all : List Parameter :=
  [.config, .port, .host, .logLevel, .logFormat, .issuer, .clientId, .deviceClientId,
    .skipIssuerVerify]

/-- The option of a parameter. -/
def option : Parameter → String
  | .config => "config"
  | .port => "port"
  | .host => "host"
  | .logLevel => "log-level"
  | .logFormat => "log-format"
  | .issuer => "oidc-provider"
  | .clientId => "oidc-client-id"
  | .deviceClientId => "oidc-device-client-id"
  | .skipIssuerVerify => "oidc-skip-issuer-verify"

/-- The option of one letter, if there is one. -/
def letter? : Parameter → Option Char
  | .config => some 'c'
  | .port => some 'p'
  | _ => none

/-- The variable of a parameter. -/
def variableName : Parameter → String
  | .config => "ROR_AUTH_CONFIG"
  | .port => "ROR_AUTH_PORT"
  | .host => "ROR_AUTH_HOST"
  | .logLevel => "ROR_AUTH_LOG_LEVEL"
  | .logFormat => "ROR_AUTH_LOG_FORMAT"
  | .issuer => "OIDC_PROVIDER"
  | .clientId => "OIDC_CLIENT_ID"
  | .deviceClientId => "OIDC_DEVICE_CLIENT_ID"
  | .skipIssuerVerify => "OIDC_SKIP_ISSUER_VERIFY"

/-- Whether a parameter may also be set behind a command. -/
def isGlobal : Parameter → Bool
  | .port => false
  | .host => false
  | _ => true

end Parameter

/-! ### Values -/

/-- The values of the parameters that are set. -/
structure Values where
  config : Option String
  port : Option UInt16
  host : Option String
  logLevel : Option String
  logFormat : Option String
  issuer : Option String
  clientId : Option String
  deviceClientId : Option String
  skipIssuerVerify : Option Bool
  deriving DecidableEq, Repr

/-- The path of a file, which is not empty. -/
def readPath (s : String) : Except UsageFault String :=
  if s = "" then .error .missingValue else .ok s

/-- A port: an integer of 16 bits in decimal digits, with a sign or none. -/
def readPort (s : String) : Except UsageFault UInt16 :=
  let (negative, digits) := Number.Decimal.splitSign s.toList
  let n := Number.Decimal.natural digits
  if digits.isEmpty || !digits.all Number.Decimal.isDigit || (negative && n ≠ 0) || 65536 ≤ n then
    .error .badValue
  else .ok (UInt16.ofNat n)

/-- The words for on. -/
def onWords : List String := ["y", "yes", "t", "true", "on", "1"]

/-- The words for off. -/
def offWords : List String := ["n", "no", "f", "false", "off", "0"]

/-- The position of a switch, in any case of letters. -/
def readSwitch (s : String) : Except UsageFault Bool :=
  if onWords.contains s.toLower then .ok true
  else if offWords.contains s.toLower then .ok false
  else .error .badValue

namespace Values

/-- Nothing is set. -/
def empty : Values := ⟨none, none, none, none, none, none, none, none, none⟩

/-- Whether a parameter is set. -/
def has (v : Values) : Parameter → Bool
  | .config => v.config.isSome
  | .port => v.port.isSome
  | .host => v.host.isSome
  | .logLevel => v.logLevel.isSome
  | .logFormat => v.logFormat.isSome
  | .issuer => v.issuer.isSome
  | .clientId => v.clientId.isSome
  | .deviceClientId => v.deviceClientId.isSome
  | .skipIssuerVerify => v.skipIssuerVerify.isSome

/-- Sets a parameter to the value that a text stands for. -/
def set (v : Values) (p : Parameter) (s : String) : Except UsageFault Values :=
  match p with
  | .config => (fun path => { v with config := some path }) <$> readPath s
  | .port => (fun n => { v with port := some n }) <$> readPort s
  | .host => .ok { v with host := some s }
  | .logLevel => .ok { v with logLevel := some s }
  | .logFormat => .ok { v with logFormat := some s }
  | .issuer => .ok { v with issuer := some s }
  | .clientId => .ok { v with clientId := some s }
  | .deviceClientId => .ok { v with deviceClientId := some s }
  | .skipIssuerVerify => (fun b => { v with skipIssuerVerify := some b }) <$> readSwitch s

/-- The values that are set in the first place, and those of the second place where they are not. -/
def or (v w : Values) : Values where
  config := v.config.or w.config
  port := v.port.or w.port
  host := v.host.or w.host
  logLevel := v.logLevel.or w.logLevel
  logFormat := v.logFormat.or w.logFormat
  issuer := v.issuer.or w.issuer
  clientId := v.clientId.or w.clientId
  deviceClientId := v.deviceClientId.or w.deviceClientId
  skipIssuerVerify := v.skipIssuerVerify.or w.skipIssuerVerify

/-- Sets what is not yet set and has a variable in an environment. -/
def fill (environment : List (String × String)) :
    List Parameter → Values → Except UsageFault Values
  | [], v => .ok v
  | p :: rest, v =>
    match environment.lookup p.variableName with
    | some s => if v.has p then fill environment rest v else do
      fill environment rest (← v.set p s)
    | none => fill environment rest v

/-- The settings of the default provider that are set. -/
def overrides (v : Values) : DefaultProvider :=
  ⟨v.issuer, v.clientId, v.deviceClientId, v.skipIssuerVerify.getD false⟩

end Values

/-! ## Words -/

/-- What the program is to do. -/
inductive Command
  | serve
  | providers
  deriving DecidableEq, Repr

/-- The commands by their names. -/
def Command.names : List (String × Command) := [("serve", .serve), ("providers", .providers)]

/-- What a command line says. -/
structure Invocation where
  values : Values
  command : Option Command
  deriving DecidableEq, Repr

/-- How much the program is to say of what it does. -/
def Invocation.logLevel (i : Invocation) : String := i.values.logLevel.getD "info"

/-- Where a word stands. -/
inductive Level
  /-- In front of any command. -/
  | program
  /-- Behind a command. -/
  | command
  deriving DecidableEq, Repr

namespace Level

/-- The parameters that can be set. -/
def parameters : Level → List Parameter
  | .program => Parameter.all
  | .command => Parameter.all.filter Parameter.isGlobal

/-- The fault of a word that is no option. -/
def stray : Level → UsageFault
  | .program => .unknownCommand
  | .command => .unknownArgument

end Level

/-- The options that have been read. -/
structure Progress where
  values : Values
  /-- The option that still has to be read, with its value, if that has come. -/
  pending : Option (Parameter × Option String)

namespace Progress

/-- Nothing has been read. -/
def start : Progress := ⟨.empty, none⟩

/-- Sets a parameter, which may not have been set before. -/
def put (g : Progress) (p : Parameter) (s : String) : Except UsageFault Progress :=
  if g.values.has p then .error .repeated
  else (fun v => { g with values := v }) <$> g.values.set p s

/-- Reads the option that still has to be read. -/
def resolve (g : Progress) : Except UsageFault Progress :=
  match g.pending with
  | none => .ok g
  | some (_, none) => .error .missingValue
  | some (p, some s) => { g with pending := none }.put p s

/-- The option that waits for its value. -/
def awaiting? (g : Progress) : Option Parameter :=
  match g.pending with
  | some (p, none) => some p
  | _ => none

/-- An option, with the value that stands in its own word. -/
def option (g : Progress) (p : Parameter) (value : Option String) : Except UsageFault Progress := do
  let g ← g.resolve
  match value with
  | some s => g.put p s
  | none =>
    if p = .skipIssuerVerify then g.put p "true" else return { g with pending := some (p, none) }

/-- Ends with what an option asks for. -/
def quit (g : Progress) (f : UsageFault) : Except UsageFault Progress := do
  let _ ← g.resolve
  throw f

end Progress

/-- The name of an option and the value behind an equals sign. -/
def splitValue (cs : List Char) : String × Option String :=
  match cs.dropWhile (· ≠ '=') with
  | [] => (String.ofList cs, none)
  | _ :: value => (String.ofList (cs.takeWhile (· ≠ '=')), some (String.ofList value))

/-- A word with two dashes, from behind them. -/
def readLong (level : Level) (g : Progress) (cs : List Char) : Except UsageFault Progress :=
  let (name, value) := splitValue cs
  match level.parameters.find? (·.option = name) with
  | some p => g.option p value
  | none =>
    let asked : Option UsageFault :=
      if name = "help" then some .help
      else if name = "version" && level = .program then some .version
      else none
    match asked with
    | some f => if value.isSome then .error .surplusValue else g.quit f
    | none => .error .unknownArgument

/-- A word with one dash, from behind it. -/
def readShort (level : Level) (g : Progress) (letter : Char) (cs : List Char) :
    Except UsageFault Progress :=
  match level.parameters.find? (·.letter? = some letter) with
  | some p =>
    g.option p (match cs with
      | [] => none
      | '=' :: value => some (String.ofList value)
      | value => some (String.ofList value))
  | none =>
    if letter = 'h' then g.quit .help
    else if letter = 'V' && level = .program then g.quit .version
    else .error .unknownArgument

/-- What the words behind `help` ask for: help on commands that there are. -/
def readHelp : List String → UsageFault
  | [] => .help
  | [name] => if name = "help" || (Command.names.lookup name).isSome then .help else .unknownCommand
  | _ => .unknownCommand

/-- How the words of a level end. -/
inductive Ending
  | words
  /-- With a command, behind which further words stand. -/
  | command (command : Command) (rest : List String)

/-- The fault of a word behind two lone dashes. -/
def afterDashes (level : Level) (word : String) : UsageFault :=
  if word = "help" || (Command.names.lookup word).isSome then .unknownArgument else level.stray

/-- Reads the words of a level. -/
def readLevel (level : Level) (g : Progress) : List String → Except UsageFault (Progress × Ending)
  | [] => .ok (g, .words)
  | word :: rest =>
    let isOpen := level = .program && g.awaiting?.isNone
    let command := if isOpen then Command.names.lookup word else none
    match command with
    | some c => .ok (g, .command c rest)
    | none =>
      if isOpen && word = "help" then .error (readHelp rest)
      else match word.toList with
        | ['-', '-'] =>
          match rest with
          | [] => .ok (g, .words)
          | next :: _ => .error (afterDashes level next)
        | '-' :: '-' :: cs => do readLevel level (← readLong level g cs) rest
        | '-' :: letter :: cs => do readLevel level (← readShort level g letter cs) rest
        | _ =>
          match g.awaiting? with
          | some p => readLevel level { g with pending := some (p, some word) } rest
          | none => .error level.stray

/-- The values of a level with what the environment adds. -/
def finishLevel (level : Level) (environment : List (String × String)) (g : Progress) :
    Except UsageFault (Values × Values) := do
  let g ← g.resolve
  let filled ← g.values.fill environment level.parameters
  return (g.values, filled)

/-- Reads a command line in an environment. -/
def read (environment : List (String × String)) (words : List String) :
    Except UsageFault Invocation := do
  let (g, ending) ← readLevel .program .start words
  match ending with
  | .words =>
    let (_, values) ← finishLevel .program environment g
    return ⟨values, none⟩
  | .command c rest =>
    let (inner, _) ← readLevel .command .start rest
    let (given, _) ← finishLevel .command environment inner
    let (_, values) ← finishLevel .program environment g
    return ⟨given.or values, some c⟩

end TokenGate.CommandLine
