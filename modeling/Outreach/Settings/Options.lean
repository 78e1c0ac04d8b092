import Outreach.Settings.Environment

/-!
# Options

What a command line says about the settings. An option has a name and a value, as two arguments or
as one with an equals sign between; it counts more than the variable of the same setting, which is
then not even read.
-/

namespace Outreach.Settings

open Text

/-- What a command line says; what is not given stays. -/
structure Options where
  nodeId : Option String := none
  /-- The number of the socket that is listened on. -/
  httpSocket : Option UInt16 := none
  metricsSocket : Option UInt16 := none
  completionDelay : Option UInt64 := none
  noSeed : Bool := false
deriving DecidableEq

namespace Options

/-- Why a command line is refused. -/
inductive Fault where
  | unknown (argument : String)
  | valueMissing (name : String)
  /-- The value of an option does not suit it. -/
  | valueUnfit (name value : String)
deriving DecidableEq, Repr

def Fault.message : Fault → String
  | .unknown argument => "unexpected argument '" ++ argument ++ "'"
  | .valueMissing name => "a value is required for '" ++ name ++ "'"
  | .valueUnfit name value => "invalid value '" ++ value ++ "' for '" ++ name ++ "'"

def natBelow? (bound : Nat) (s : String) : Option Nat := (nat? s.toList).filter (· < bound)

/-- The options that have a value. -/
inductive Name where
  | nodeId
  | httpSocket
  | metricsSocket
  | completionDelay
deriving DecidableEq, Repr

namespace Name

def text : Name → String
  | .nodeId => "--node-id"
  | .httpSocket => "--http-port"
  | .metricsSocket => "--metrics-port"
  | .completionDelay => "--completion-delay-ms"

def environmentName : Name → String
  | .nodeId => "CRM__NODE_ID"
  | .httpSocket => "CRM__API__HTTP_PORT"
  | .metricsSocket => "CRM__METRICS__PORT"
  | .completionDelay => "CRM__CAMPAIGNS__COMPLETION_DELAY_MS"

def all : List Name := [.nodeId, .httpSocket, .metricsSocket, .completionDelay]

def ofText? (s : String) : Option Name := all.find? (·.text == s)

end Name

def set (o : Options) (name : Name) (value : String) : Except Fault Options :=
  let fit (o? : Option Options) : Except Fault Options :=
    match o? with
    | some o => .ok o
    | none => .error (.valueUnfit name.text value)
  match name with
  | .nodeId => .ok { o with nodeId := some value }
  | .httpSocket => fit ((natBelow? 0x10000 value).map fun n ↦ { o with httpSocket := some n.toUInt16 })
  | .metricsSocket =>
    fit ((natBelow? 0x10000 value).map fun n ↦ { o with metricsSocket := some n.toUInt16 })
  | .completionDelay =>
    fit ((natBelow? 0x10000000000000000 value).map fun n ↦ { o with completionDelay := some n.toUInt64 })

def has (o : Options) : Name → Bool
  | .nodeId => o.nodeId.isSome
  | .httpSocket => o.httpSocket.isSome
  | .metricsSocket => o.metricsSocket.isSome
  | .completionDelay => o.completionDelay.isSome

/-- An argument cut at its first equals sign. -/
def cut (argument : String) : String × Option String :=
  let cs := argument.toList
  (String.ofList (cs.takeWhile (· != '=')),
    if cs.contains '=' then some (String.ofList ((cs.dropWhile (· != '=')).drop 1)) else none)

/-- Go through the arguments of a command line. -/
def ofArguments : List String → Options → Except Fault Options
  | [], o => .ok o
  | "--no-seed" :: rest, o => ofArguments rest { o with noSeed := true }
  | argument :: rest, o =>
    match Name.ofText? (cut argument).1, (cut argument).2, rest with
    | none, _, _ => .error (.unknown argument)
    | some name, some value, rest => (o.set name value).bind (ofArguments rest)
    | some name, none, [] => .error (.valueMissing name.text)
    | some name, none, value :: rest => (o.set name value).bind (ofArguments rest)

/-- Take the values of options that are not given from the variables of their settings. -/
def withVariables (o : Options) (env : List (String × String)) : Except Fault Options :=
  Name.all.foldlM
    (fun o name ↦ match env.lookup name.environmentName with
      | some value => if o.has name then .ok o else o.set name value
      | none => .ok o) o

/-- The settings with what the options say in place of what they said. -/
def apply (o : Options) (s : Settings) : Settings :=
  { s with
    nodeId := o.nodeId.getD s.nodeId
    api := { s.api with httpSocket := o.httpSocket.getD s.api.httpSocket }
    metrics := { s.metrics with socket := o.metricsSocket.getD s.metrics.socket }
    campaigns := { s.campaigns with
      completionDelay := o.completionDelay.getD s.campaigns.completionDelay }
    seed := s.seed && !o.noSeed }

end Options

end Outreach.Settings
