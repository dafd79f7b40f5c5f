import SpotCapacity.NodeMap.Basic
import SpotCapacity.Keyed

/-!
# Plans

Named lists of accounted nodes, on which moves of pods are tried out before anything is moved. A
step changes one list; the lists that it does not name keep their nodes, also those that were
copied from it.
-/

namespace SpotCapacity

abbrev Plan := List (String × List NodeInfo)

/-- A step of planning. Lists are named, nodes and pods within them are numbered from zero. -/
inductive PlanStep where
  | start (list : String) (node : Node)
  | account (list : String) (node : Node) (pods : List Pod)
  | copyAll (source target : String)
  | addPod (list : String) (index : Nat) (pod : Pod)
  | sortPods (list : String) (index : Nat)
  | move (source : String) (index pod : Nat) (target : String) (targetIndex : Nat)
  deriving Repr

/-- What became of a step. A step that names a list, node or pod that is not there does nothing. -/
inductive StepOutcome where
  | done
  | missing
  | failed (fault : Fault)
  deriving DecidableEq, Repr

namespace Plan

def info? (plan : Plan) (list : String) (index : Nat) : Option NodeInfo :=
  (plan.lookup list).bind (·[index]?)

def setInfo (plan : Plan) (list : String) (index : Nat) (info : NodeInfo) : Plan :=
  match plan.lookup list with
  | some infos => Keyed.put list (infos.set index info) plan
  | none => plan

def addPod (plan : Plan) (list : String) (index : Nat) (pod : Pod) : StepOutcome × Plan :=
  match plan.info? list index with
  | none => (.missing, plan)
  | some info =>
    match info.addPod pod with
    | (.ok (), info) => (.done, plan.setInfo list index info)
    | (.error fault, info) => (.failed fault, plan.setInfo list index info)

/-- Takes a step. A pod that is moved stays on its source too, as it does until the move is made. -/
def step (plan : Plan) : PlanStep → StepOutcome × Plan
  | .start list node => (.done, Keyed.put list [NodeInfo.uncounted node] plan)
  | .account list node pods =>
    match NodeInfo.ofPods node pods with
    | .ok info => (.done, Keyed.put list [info] plan)
    | .error fault => (.failed fault, plan)
  | .copyAll source target =>
    match plan.lookup source with
    | some infos => (.done, Keyed.put target infos plan)
    | none => (.missing, plan)
  | .addPod list index pod => plan.addPod list index pod
  | .sortPods list index =>
    match plan.info? list index with
    | none => (.missing, plan)
    | some info =>
      match info.sortPods with
      | .ok info => (.done, plan.setInfo list index info)
      | .error fault => (.failed fault, plan)
  | .move source index pod target targetIndex =>
    match (plan.info? source index).bind (·.pods[pod]?) with
    | none => (.missing, plan)
    | some pod => plan.addPod target targetIndex pod

end Plan

end SpotCapacity
