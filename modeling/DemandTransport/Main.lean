import DemandTransport.Taxi.Service

/-!
# The command line of the taxi service

The only argument is the path of a file with settings. The lines go to the standard output as they
come about, a failure goes to the standard error.
-/

open DemandTransport DemandTransport.Taxi

/-- Why a file cannot be read. -/
def readFault (e : IO.Error) : String :=
  match e with
  | .noFileOrDirectory _ code _ =>
    "No such file or directory (os error " ++ Decimal.ofNat code.toNat ++ ")"
  | e => toString e

/-- The settings that the arguments ask for. -/
def readConfig (args : List String) : IO (Except Failure Config) :=
  match args with
  | [] => return .ok {}
  | path :: _ => do
    let content ← (IO.FS.readFile path).toBaseIO
    return Config.ofFile path (content.mapError readFault)

/-- Tell a failure. -/
def tell (failure : Failure) : IO UInt32 := do
  failure.lines.forM IO.eprintln
  return 1

/-- Run a simulation and tell how long it took and what came of it. -/
def runTimed (simulation : Simulation Float) : IO UInt32 := do
  let start ← IO.monoMsNow
  let outcome ← IO.lazyPure fun _ => complete simulation
  match outcome with
  | .error failure => tell failure
  | .ok final =>
    let elapsed := (← IO.monoMsNow) - start
    IO.println ""
    IO.println ("Simulation complete in " ++ Decimal.placesText 3 elapsed ++ " s")
    (closing final).forM fun line => IO.println line
    return 0

/-- Run the taxi service. -/
def main (args : List String) : IO UInt32 := do
  match (← readConfig args).bind prepare with
  | .error failure => tell failure
  | .ok prepared =>
    prepared.lines.forM fun line => IO.println line
    match prepared.simulation with
    | .error failure => tell failure
    | .ok simulation => runTimed simulation
