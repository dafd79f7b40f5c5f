import SpotCapacity.Label
import SpotCapacity.Log.Line
import SpotCapacity.Text.UpperCase

/-!
# Values of settings

How the raw value of a setting becomes a valid one. Raw values are mostly text, but a configuration
can also hold other values or none. Integers are read with `Text.integer?` and kept within the
bounds of their setting; a value that cannot be used is a fault that names the setting.
-/

namespace SpotCapacity

inductive RawValue where
  | null
  | boolean (flag : Bool)
  | integer (n : Int)
  | double (number : Double)
  | text (text : String)
  | emptyList
  deriving DecidableEq, Repr

namespace RawValue

/-- A text that may be absent as a raw value. -/
def ofText? : Option String → RawValue
  | some written => .text written
  | none => .null

/-- A raw value as it appears in messages. Of the numbers with a point only zero and what is not a
number are shown. -/
def shown : RawValue → String
  | .null => "None"
  | .boolean flag => if flag then "True" else "False"
  | .integer n => toString n
  | .double number => number.fixed 1
  | .text written => written
  | .emptyList => "[]"

/-- The fault of a value that is taken for text and is none. -/
def textFault : RawValue → Fault
  | .boolean _ => .noMember .boolean "strip"
  | .integer _ => .noMember .integer "strip"
  | .double _ => .noMember .double "strip"
  | .emptyList => .noMember .list "strip"
  | _ => .noMember .null "strip"

/-- The integer that a value denotes for a setting. A number with a point is cut off toward zero. -/
def toInt (name : String) (raw : RawValue) : Except Fault Int :=
  let refused : Except Fault Int := .error (.setting (.notInteger name raw.shown))
  match raw with
  | .null => refused
  | .boolean flag => .ok (if flag then 1 else 0)
  | .integer n => .ok n
  | .double (.finite value) => .ok (value.num.tdiv value.den)
  | .double .negativeZero => .ok 0
  | .double (.infinite _) => .error .integerOfInfinity
  | .double .nan => refused
  | .text written =>
    match Text.integer? written.toList with
    | some n => .ok n
    | none => refused
  | .emptyList => refused

/-- An integer setting that is kept within bounds. The fault of one beyond them writes it, which is a fault
of its own for an integer that is too long. -/
def bounded (name : String) (raw : RawValue) (fault? : Int → Option SettingFault) :
    Except Fault Int := do
  let value ← raw.toInt name
  match fault? value with
  | none => return value
  | some fault =>
    let _ ← integerText value
    throw (.setting fault)

def labelRule (name : String) : RawValue → Except Fault LabelRule
  | .null => .error (.setting (.rule (some name) .missing))
  | .text written =>
    match LabelRule.parse written with
    | .ok rule => .ok rule
    | .error fault => .error (.setting (.rule (some name) fault))
  | other => .error other.textFault

/-- The lowest priority of pods that count on spot nodes, in the range of 32 bits. -/
def priorityThreshold (raw : RawValue) : Except Fault Int :=
  raw.bounded "PRIORITY_THRESHOLD" fun value =>
    if value < -2147483648 ∨ 2147483647 < value then some (.threshold value) else none

/-- The time between two cycles in seconds, at most an hour. -/
def housekeepingInterval (raw : RawValue) : Except Fault Int :=
  raw.bounded "HOUSEKEEPING_INTERVAL" fun value =>
    if value < 1 then some (.intervalTooShort value)
    else if 3600 < value then some (.intervalTooLong value)
    else none

def buildWorkers (raw : RawValue) : Except Fault Int :=
  raw.bounded "BUILD_WORKERS" fun value =>
    if value < 1 ∨ 64 < value then some (.workers value) else none

def rateLimit (raw : RawValue) : Except Fault Int :=
  raw.bounded "K8S_API_RATE_LIMIT" fun value =>
    if value < 1 then some (.rateLimit value) else none

def port (name : String) (raw : RawValue) : Except Fault Int :=
  raw.bounded name fun value =>
    if value < 1 ∨ 65535 < value then some (.port name value) else none

def isEmpty : RawValue → Bool
  | .null => true
  | .boolean flag => !flag
  | .integer n => n == 0
  | .double number => number.value? == some 0
  | .text written => written.isEmpty
  | .emptyList => true

/-- The text without blanks around it and in small letters. -/
def word (written : String) : String :=
  String.ofList (Text.lowerAscii (Text.trim written.toList))

/-- The log format that a value names; a value that is not given names none. -/
def logFormat (raw : RawValue) : Except Fault LogFormat :=
  if raw.isEmpty then .error (.setting (.logFormat raw.shown))
  else
    match raw with
    | .text written =>
      if word written = "json" then .ok .json
      else if word written = "text" then .ok .text
      else .error (.setting (.logFormat raw.shown))
    | other => .error other.textFault

end RawValue

end SpotCapacity
