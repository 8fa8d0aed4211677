import TokenGate.CommandLine.Arguments
import TokenGate.Server.Router
import TokenGate.Settings.Load

/-!
# The program: what a command line does

The values of the command line and its variables lie over the configuration of the file and the
environment. The command `providers` loads the registry and prints it; otherwise the service starts.
The program ends with 0 if that works, with 1 if it does not, and with 2 if the command line cannot
be understood.
-/

namespace TokenGate.CommandLine

open TokenGate.Http

/-- The configuration with the values of a command line. -/
def Values.apply (v : Values) (c : Config) : Config where
  server := { host := v.host.getD c.server.host, port := v.port.getD c.server.port }
  auth := c.auth.override v.overrides

/-- What the program is given. -/
structure Surroundings where
  environment : List (String × String)
  /-- The texts of the files there are. -/
  file? : String → Option String
  network : Network

/-- What a run of the program does. -/
structure Run where
  exit : UInt32
  stdout : String
  stderr : String
  exchanges : List Exchange

/-- A run that ends with a fault it only logs. -/
def Run.failed (exchanges : List Exchange) : Run := ⟨1, "", "", exchanges⟩

/-- The configuration of an invocation. -/
def Invocation.config (i : Invocation) (s : Surroundings) : Except ServiceFault Config :=
  i.values.apply <$>
    Config.load (i.values.config.map fun name => ⟨name, s.file? name⟩) s.environment

/-- How a provider is listed. -/
def listProvider (issuer : String) (p : Provider) : String :=
  let audiences := ", ".intercalate p.audiences
  s!"{issuer}\n   Audiences: {audiences}\n   Trust mode: {p.trustMode.display}\n\n"

/-- How a registry is listed. -/
def listRegistry (r : Registry) : String :=
  s!"{r.size} OIDC provider(s):\n\n" ++ String.join (r.toList.map fun (i, p) => listProvider i p)

/-- Loads the registry and prints it. -/
def runProviders (net : Network) (c : Config) : Run :=
  let o := Server.start net c
  match o.result with
  | .ok r => ⟨0, listRegistry r, "", o.exchanges⟩
  | .error f => ⟨1, "", s!"No usable OIDC provider: {f.message}\n", o.exchanges⟩

/-- Starts the service. -/
def runServer (net : Network) (c : Config) : Run :=
  let o := Server.start net c
  match o.result, Server.checkAddress c with
  | .ok _, .ok _ => ⟨0, "", "", o.exchanges⟩
  | _, _ => .failed o.exchanges

/-- What is said to a command line that cannot be understood. -/
def UsageFault.message : UsageFault → String
  | .help => "Usage: ror-auth [OPTIONS] [COMMAND]"
  | .version => s!"ror-auth {Server.version}"
  | .unknownArgument => "error: unexpected argument"
  | .unknownCommand => "error: unrecognized subcommand"
  | .missingValue => "error: a value is required"
  | .surplusValue => "error: unexpected value"
  | .badValue => "error: invalid value"
  | .repeated => "error: the argument cannot be used multiple times"

/-- Runs the program. -/
def run (s : Surroundings) (words : List String) : Run :=
  match read s.environment words with
  | .error f =>
    if f = .help || f = .version then ⟨0, f.message ++ "\n", "", []⟩
    else ⟨2, "", f.message ++ "\n", []⟩
  | .ok i =>
    match i.config s with
    | .error _ => .failed []
    | .ok c =>
      match i.command with
      | some .providers => runProviders s.network c
      | _ => runServer s.network c

end TokenGate.CommandLine
