import SpotCapacity.Fault

/-!
# Label rules

A label rule selects nodes by one label: a key that must be present, or a key and the value it must
carry. `LabelRule.parse` reads a rule, `LabelRule.text` writes it. A node is classified by two
rules, of which the one for spot nodes is tried first.
-/

namespace SpotCapacity

/-- The labels of an object, each key once. -/
abbrev LabelSet := List (String × String)

/-- The capacity classes of nodes. Nodes that match neither rule are of no class. -/
inductive NodeClass where
  | spot
  | onDemand
  | none
  deriving DecidableEq, Repr

namespace NodeClass

def name : NodeClass → String
  | .spot => "spot"
  | .onDemand => "on-demand"
  | .none => "none"

def all : List NodeClass := [.spot, .onDemand, .none]

end NodeClass

/-- A rule on one label; without a value the key alone decides. -/
structure LabelRule where
  key : String
  value : Option String
  deriving DecidableEq, Repr

namespace LabelRule

/-- Reads a rule, `key` or `key=value`. Blanks around the rule and around its parts do not count,
and the key may not be empty. -/
def parse (written : String) : Except RuleFault LabelRule :=
  let text := Text.trim written.toList
  let separators := text.count '='
  let key := Text.trim (text.takeWhile (· != '='))
  if 1 < separators then .error (.separators (String.ofList text) separators)
  else if key = [] then .error (.emptyKey (String.ofList text))
  else
    match text.dropWhile (· != '=') with
    | [] => .ok ⟨String.ofList key, Option.none⟩
    | _ :: value => .ok ⟨String.ofList key, some (String.ofList (Text.trim value))⟩

def parse? : Option String → Except RuleFault LabelRule
  | Option.none => .error .missing
  | some written => parse written

def keyOnly (rule : LabelRule) : Bool := rule.value.isNone

def text (rule : LabelRule) : String :=
  match rule.value with
  | Option.none => rule.key
  | some value => rule.key ++ "=" ++ value

def accepts (rule : LabelRule) (labels : LabelSet) : Bool :=
  match labels.lookup rule.key, rule.value with
  | Option.none, _ => false
  | some _, Option.none => true
  | some carried, some wanted => carried == wanted

end LabelRule

/-- The class of an object with the given labels. -/
def NodeClass.ofLabels (spotRule onDemandRule : LabelRule) (labels : LabelSet) : NodeClass :=
  if spotRule.accepts labels then .spot
  else if onDemandRule.accepts labels then .onDemand
  else .none

end SpotCapacity
