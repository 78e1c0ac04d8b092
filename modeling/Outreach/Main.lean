import Outreach.Http.Replay
import Outreach.Http.Startup
import Outreach.Json.Writer
import Outreach.Settings.Options

/-!
# The command line

Reads requests from the standard input, one value on a line, and writes the reply to each. The
settings come from the environment, then from the options; settings that are refused are replaced by
the usual ones. The first request decides when the service begins. A request that the service does not
survive is the last.
-/

namespace Outreach

def variableNames : List String :=
  ["CRM__NODE_ID", "CRM__API__HOST", "CRM__API__HTTP_PORT", "CRM__API__FRONTEND_ORIGIN",
   "CRM__METRICS__ENABLED", "CRM__METRICS__PORT", "CRM__CAMPAIGNS__COMPLETION_DELAY_MS",
   "CRM__CAMPAIGNS__DELIVERY_RATE", "CRM__CAMPAIGNS__OPEN_RATE", "CRM__CAMPAIGNS__CLICK_RATE",
   "CRM__CAMPAIGNS__PREVIEW_SAMPLE_SIZE", "CRM__CAMPAIGNS__INSIGHTS_SAMPLE_SIZE",
   "CRM__AUTH__ADMIN_NAME", "CRM__AUTH__ADMIN_EMAIL", "CRM__AUTH__ADMIN_PASSWORD",
   "CRM__AUTH__TOKEN_TTL_HOURS", "CRM__SEED__ENABLED"]

def environment : IO (List (String × String)) :=
  variableNames.filterMapM fun name ↦ return (← IO.getEnv name).map (name, ·)

/-- Throws that follow from a first number. -/
def throwsFrom (salt n : Nat) : Nat :=
  let step (x : Nat) : Nat := (x * 0x5851F42D4C957F2D14057B7EF767814F + 0x14057B7EF767814F) % Nat.pow 2 320
  step (step (step (salt + n) / Nat.pow 2 64 + n * Nat.pow 2 130)) / Nat.pow 2 32

partial def serve (settings : Settings) (chance : Demo.Chance) (input output : IO.FS.Stream)
    (replay : Option Http.Replay) : IO UInt32 := do
  let line ← input.getLine
  if line.isEmpty then return 0
  match (Json.ofLine? line).bind Http.Timed.ofJson? with
  | none =>
    (← IO.getStderr).putStrLn "A line could not be read"
    serve settings chance input output replay
  | some t =>
    let r := replay.getD (Http.Replay.begin settings chance t.arrival)
    match r.step chance t with
    | (none, _) =>
      (← IO.getStderr).putStrLn "The service broke down"
      return 101
    | (some reply, r) =>
      output.putStrLn reply.toJson.render
      output.flush
      serve settings chance input output (some r)

def start (settings : Settings) : IO UInt32 := do
  let salt ← IO.rand 0 0xffffffffffffffff
  let service := Service.begin settings (Http.Replay.idOf 0) .epoch
  if let .error f := service.checkMetrics then
    (← IO.getStderr).putStrLn ("Failed to start metrics exporter: " ++ f.message)
  match service.checkHttp with
  | .error f =>
    (← IO.getStderr).putStrLn ("Error: " ++ f.message)
    return 1
  | .ok _ =>
    serve settings (throwsFrom salt) (← IO.getStdin) (← IO.getStdout) none

end Outreach

def main (arguments : List String) : IO UInt32 := do
  let env ← Outreach.environment
  match (Outreach.Settings.Options.ofArguments arguments {}).bind (·.withVariables env) with
  | .error f =>
    (← IO.getStderr).putStrLn ("error: " ++ f.message)
    return 2
  | .ok options =>
    match Outreach.Settings.ofEnvironment env with
    | .ok s => Outreach.start (options.apply s)
    | .error f =>
      (← IO.getStderr).putStrLn ("Failed to load config, using defaults " ++ f.message?.getD "")
      Outreach.start (options.apply .usual)
