import SpotCapacity.Cluster.Inventory
import SpotCapacity.Program

/-!
# Command line

The program takes its settings from the environment and its cluster from an inventory on standard
input. It writes what the program writes and ends with its exit code.
-/

namespace SpotCapacity

/-- The variables of the environment that the program looks at. -/
def variableNames : List String :=
  Setting.all.map Setting.name ++ ["OPERATOR_NAMESPACE", "CONFIGMAP_NAME"]

def readEnvironment : IO (List (String × String)) :=
  variableNames.filterMapM fun name => do
    let value ← IO.getEnv name
    return value.map fun value => (name, value)

/-- Reports a failure and ends with the exit code of failures. -/
def fail (message : String) : IO UInt32 := do
  IO.eprintln message
  return 1

def runInventory : IO UInt32 := do
  let environment ← readEnvironment
  let lines ← (← IO.getStdin).lines
  match Inventory.ofLines? lines.toList with
  | none => fail "The inventory cannot be read"
  | some inventory =>
    let surroundings : Surroundings :=
      { time := inventory.time, environment := environment, configMap := .ok none
        clusters := [inventory.api], schedule := [] }
    let (result, execution) := (Program.run surroundings) Execution.start
    IO.print execution.output
    match result with
    | .ok () => return 0
    | .error (.exit code) => return code.toUInt32
    | .error (.fault fault) => fail fault.message

end SpotCapacity

def main : IO UInt32 := SpotCapacity.runInventory
