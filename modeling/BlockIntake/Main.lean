import BlockIntake.Node.Launch
import Std.Time.DateTime

/-!
# The command line

The program takes no arguments: it launches a node in the environment of the process, prints the
lines of the log, and ends with the exit code of the launch.
-/

namespace BlockIntake

/-- The variables a launch reads. -/
def launchVariables : List String :=
  ["BS_VERIFICATION_TYPE", "BS_VERIFICATION_SESSION_TYPE", "BS_VERIFICATION_HASHER",
    "BS_VERIFICATION_HASH_COMBINE_BATCH_SIZE", "BS_VERIFICATION_SESSION_QUEUE_CAPACITY",
    "BS_SERVICE_NAME", "BS_LOG_LEVEL", "RUST_LOG", "BS_JSON_LOGS", "KUBERNETES_SERVICE_HOST",
    "DOCKER_CONTAINER", "BS_DEMO_BLOCKS", "BS_DEMO_ITEMS_PER_BATCH", "BS_DEMO_EVENTS_PER_BLOCK",
    "BS_NOTIFIER_CAPACITY", "BS_HASHING_THREADS"]

/-- A number of a fixed width, with zeros before it. -/
def zeroPadded (width n : Nat) : String :=
  let digits := toString n
  String.ofList (List.replicate (width - digits.length) '0') ++ digits

/-- A time in coordinated universal time, to the microsecond. -/
def timeText (time : Std.Time.DateTime) : String :=
  let date := "-".intercalate [zeroPadded 4 time.year.toInt.toNat,
    zeroPadded 2 time.month.val.toNat, zeroPadded 2 time.day.val.toNat]
  let clock := ":".intercalate [zeroPadded 2 time.hour.val.toNat,
    zeroPadded 2 time.minute.val.toNat, zeroPadded 2 time.second.val.toNat]
  date ++ "T" ++ clock ++ "." ++ zeroPadded 6 (time.nanosecond.val.toNat / 1000) ++ "Z"

/-- The environment of the process, as far as a launch reads it. -/
def processEnvironment : IO Environment := do
  let entries ← launchVariables.filterMapM fun name => do
    return (← IO.getEnv name).map fun value => (name, value.toUTF8.toList)
  return ⟨entries⟩

end BlockIntake

open BlockIntake in
/-- Launch a node in the environment of the process. -/
def main : IO UInt32 := do
  let environment ← processEnvironment
  let start ← IO.monoMsNow
  let launch ← IO.lazyPure fun _ => Launch.run environment
  let elapsed := (← IO.monoMsNow) - start
  let time ← Std.Time.Timestamp.now
  let stamp : LogStamp := ⟨timeText (.ofTimestampWithZone time .UTC), "main"⟩
  for line in launch.lines stamp (launch.written elapsed) do
    IO.println line
  IO.eprint launch.report
  return launch.exitCode
