import TokenGate.Settings.Config
import TokenGate.Settings.Document
import TokenGate.Settings.Setting
import TokenGate.Text.Printable

/-!
# From settings to a configuration

Settings are read as data, and the settings of all sources together as a configuration.
-/

/-!
## Readings: settings as data

A reading takes a setting as data or says what is wrong with it, at which path below it, and where
the setting in question comes from. A record starts from its default: a table sets the members that
it names, in the order of its entries, and a list sets the members in the order of their
declaration. Names and items that no member answers to are passed over.
-/

namespace TokenGate.Settings

open TokenGate.Number

/-- The part of a setting that a misfit shows. -/
inductive Found
  | scalar (value : Scalar)
  | list
  | table
  deriving DecidableEq, Repr

/-- What a misfit shows of a setting. -/
def Setting.found : Setting → Found
  | .scalar _ s => .scalar s
  | .list _ _ => .list
  | .table _ _ => .table

/-- What is wrong with a setting. -/
inductive Mistake
  /-- A setting of another kind. -/
  | type
  /-- A setting of the right kind, out of its range. -/
  | range
  deriving DecidableEq, Repr

/-- A setting that does not have the shape that is asked for. -/
structure Misfit where
  mistake : Mistake
  found : Found
  expected : String
  origin : Origin
  /-- The names and indices that lead to the setting. -/
  path : List String
  deriving DecidableEq, Repr

/-- The wording of a scalar. -/
def Scalar.message : Scalar → String
  | .unit => "unit"
  | .bool b => s!"bool {b}"
  | .natural n =>
    if n < 18446744073709551616 then s!"unsigned int `{n}`" else s!"integer `{n}` as u128"
  | .integer z =>
    if -9223372036854775808 ≤ z then s!"signed int `{z}`" else s!"integer `{z}` as i128"
  | .real x => s!"float `{x.plain}`"
  | .text s => "string " ++ Text.Quoted.quote s

/-- The wording of what was found. -/
def Found.message : Found → String
  | .scalar s => s.message
  | .list => "sequence"
  | .table => "map"

/-- A path as its origin writes it. -/
def Origin.key (o : Origin) (path : List String) : String :=
  match o with
  | .file _ => ".".intercalate ("default" :: path)
  | .environment => ".".intercalate (path.map String.toUpper)

/-- The wording of an origin. -/
def Origin.message : Origin → String
  | .file name => s!"{name} YAML file"
  | .environment => "`ROR_AUTH_` environment variable(s)"

/-- The wording of a misfit. -/
def Misfit.message (m : Misfit) : String :=
  let what := match m.mistake with
    | .type => s!"invalid type: found {m.found.message}, expected {m.expected}"
    | .range => s!"invalid value {m.found.message}, expected {m.expected}"
  let key := if m.path = [] then "" else s!" for key {Text.Quoted.quote (m.origin.key m.path)}"
  s!"{what}{key} in {m.origin.message}"

/-- A way to read a setting. -/
abbrev Reading (α : Type) := Setting → Except Misfit α

namespace Reading

/-- The fault of a setting of another kind. -/
def mismatch {α : Type} (expected : String) (s : Setting) : Except Misfit α :=
  .error ⟨.type, s.found, expected, s.origin, []⟩

/-- The result for a setting under a name. -/
def below {α : Type} (name : String) : Except Misfit α → Except Misfit α
  | .ok a => .ok a
  | .error m => .error { m with path := name :: m.path }

/-- A text. -/
def text : Reading String
  | .scalar _ (.text s) => .ok s
  | s => mismatch "a string" s

/-- A truth value. -/
def bool : Reading Bool
  | .scalar _ (.bool b) => .ok b
  | s => mismatch "a boolean" s

/-- A natural below a bound, which is at most `2 ^ 64`. -/
def natural (bound : Nat) (expected : String) : Reading Nat
  | .scalar o (.natural n) =>
    if n < bound then .ok n
    else if n < 18446744073709551616 then .error ⟨.range, .scalar (.natural n), expected, o, []⟩
    else mismatch expected (.scalar o (.natural n))
  | .scalar o (.integer z) =>
    if 0 ≤ z then .ok z.toNat
    else if -9223372036854775808 ≤ z then .error ⟨.range, .scalar (.integer z), expected, o, []⟩
    else mismatch expected (.scalar o (.integer z))
  | s => mismatch expected s

/-- A natural of 16 bits. -/
def uint16 : Reading UInt16 := fun s => UInt16.ofNat <$> natural 65536 "u16" s

/-- A natural of 64 bits. -/
def uint64 : Reading UInt64 := fun s => UInt64.ofNat <$> natural 18446744073709551616 "u64" s

/-- The items of a list, the first of which has this index. -/
def items {α : Type} (item : Reading α) : Nat → List Setting → Except Misfit (List α)
  | _, [] => .ok []
  | index, s :: rest => do
    let a ← below (toString index) (item s)
    return a :: (← items item (index + 1) rest)

/-- A list of items. -/
def list {α : Type} (item : Reading α) : Reading (List α)
  | .list _ ss => items item 0 ss
  | s => mismatch "a sequence" s

/-- A value, or the lack of one. -/
def optional {α : Type} (reading : Reading α) : Reading (Option α)
  | .scalar _ .unit => .ok none
  | s => some <$> reading s

/-- A member of a record. -/
structure Member (α : Type) where
  name : String
  /-- Sets the member of a record. -/
  set : Setting → α → Except Misfit α

/-- A member that is read and put. -/
def member {α β : Type} (name : String) (reading : Reading β) (put : β → α → α) : Member α :=
  ⟨name, fun s a => (put · a) <$> reading s⟩

/-- Sets the members that the entries of a table name. -/
def setEntries {α : Type} (members : List (Member α)) :
    List (String × Setting) → α → Except Misfit α
  | [], a => .ok a
  | (name, s) :: rest, a =>
    match members.find? (·.name = name) with
    | some m => do setEntries members rest (← below name (m.set s a))
    | none => setEntries members rest a

/-- Sets the members that the items of a list stand for, the first of which has this index. -/
def setItems {α : Type} : Nat → List (Member α) → List Setting → α → Except Misfit α
  | index, m :: members, s :: rest, a => do
    setItems (index + 1) members rest (← below (toString index) (m.set s a))
  | _, _, _, a => .ok a

/-- A record that starts from its default. -/
def record {α : Type} (type : String) (start : α) (members : List (Member α)) : Reading α
  | .table _ entries => setEntries members entries start
  | .list _ ss => setItems 0 members ss start
  | s => mismatch s!"struct {type}" s

end Reading

end TokenGate.Settings

/-!
## Loading: the configuration of a file and an environment

The settings of the environment lie over those of the file, if one is named, and both over the
defaults. What they say together must have the shape of a configuration and be usable.
-/

namespace TokenGate

open TokenGate.Settings Reading

/-- Reads the settings of the listener. -/
def ServerConfig.reading : Reading ServerConfig :=
  record "ServerConfig" .default
    [ member "host" text fun s c => { c with host := s },
      member "port" uint16 fun n c => { c with port := n } ]

/-- Reads the settings of a provider. -/
def ProviderConfig.reading : Reading ProviderConfig :=
  record "ProviderConfig" empty
    [ member "issuer" text fun s c => { c with issuer := s },
      member "audiences" (list text) fun ss c => { c with audiences := ss },
      member "skip_issuer_verify" bool fun b c => { c with skipIssuerVerify := b },
      member "skip_signature_verify" bool fun b c => { c with skipSignatureVerify := b },
      member "jwks_uri" (optional text) fun s c => { c with jwksUri := s } ]

/-- Reads the settings of the default provider. -/
def DefaultProvider.reading : Reading DefaultProvider :=
  record "DefaultProviderSettings" empty
    [ member "issuer" (optional text) fun s d => { d with issuer := s },
      member "client_id" (optional text) fun s d => { d with clientId := s },
      member "device_client_id" (optional text) fun s d => { d with deviceClientId := s },
      member "skip_issuer_verify" bool fun b d => { d with skipIssuerVerify := b } ]

/-- Reads the settings of the authentication section. -/
def AuthConfig.reading : Reading AuthConfig :=
  record "AuthConfig" .default
    [ member "public_paths" (list text) fun ss a => { a with publicPaths := ss },
      member "verification_timeout_secs" uint64 fun n a => { a with verificationTimeout := n },
      member "discovery_timeout_secs" uint64 fun n a => { a with discoveryTimeout := n },
      member "leeway_secs" uint64 fun n a => { a with leeway := n },
      member "jwks_cache_ttl_secs" uint64 fun n a => { a with jwksCacheTtl := n },
      member "jwks_min_refresh_secs" uint64 fun n a => { a with jwksMinRefresh := n },
      member "default_provider" DefaultProvider.reading fun d a => { a with defaultProvider := d },
      member "providers" (list ProviderConfig.reading) fun ps a => { a with providers := ps } ]

/-- Reads the settings of the service. -/
def Config.reading : Reading Config :=
  record "Config" .default
    [ member "server" ServerConfig.reading fun s c => { c with server := s },
      member "auth" AuthConfig.reading fun a c => { c with auth := a } ]

/-- The configuration of all settings together. -/
def Config.ofSetting (s : Setting) : Except ServiceFault Config :=
  match Config.reading s with
  | .error m => .error (.config m.message)
  | .ok c => (fun _ => c) <$> c.validate

/-- A configuration file that is named. -/
structure ConfigFile where
  name : String
  /-- Its text, if it exists. -/
  text : Option String
  deriving DecidableEq, Repr

/-- The settings of a file. -/
def ConfigFile.settings (f : ConfigFile) : Except ServiceFault Setting :=
  match f.text with
  | none => .error (.config s!"Config file not found: {f.name}")
  | some text =>
    match Document.ofText? f.name text with
    | some s => .ok s
    | none => .error (.config s!"no table of settings in {f.name} YAML file")

/-- The configuration of a file, if one is named, and of the variables of an environment. -/
def Config.load (file : Option ConfigFile) (environment : List (String × String)) :
    Except ServiceFault Config := do
  let base ← match file with
    | some f => f.settings
    | none => .ok (.table .environment [])
  Config.ofSetting (base.overlay (Variable.ofEnvironment environment))

end TokenGate
