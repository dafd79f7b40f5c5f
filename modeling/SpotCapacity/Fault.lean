import SpotCapacity.Quantity
import SpotCapacity.Text.Integer

/-!
# Faults

Everything that can go wrong, by cause. `Fault.kind` sorts the causes into the kinds that handlers
tell apart, `FaultKind.isLoad` being the one that the housekeeping cycle expects, and
`Fault.message` is the wording of each cause.
-/

namespace SpotCapacity

/-- A text that may be absent, as it appears in messages. -/
def shown : Option String → String
  | some text => text
  | none => "None"

/-- Why a text is no label rule. -/
inductive RuleFault where
  | missing
  | separators (rule : String) (count : Nat)
  | emptyKey (rule : String)
  deriving DecidableEq, Repr

/-- Why a setting has no valid value. -/
inductive SettingFault where
  | rule (name : Option String) (fault : RuleFault)
  | notInteger (name : String) (written : String)
  | threshold (value : Int)
  | intervalTooShort (value : Int)
  | intervalTooLong (value : Int)
  | workers (value : Int)
  | rateLimit (value : Int)
  | port (name : String) (value : Int)
  | logFormat (written : String)
  deriving DecidableEq, Repr

/-- The ways in which a request to the cluster API fails on its way. -/
inductive TransportKind where
  | http
  | protocol
  | timeout
  deriving DecidableEq, Repr

/-- The kinds of failure that a call can raise besides those of the API client. -/
inductive ForeignKind where
  | load
  | query
  | config
  | runtime
  | value
  | os
  deriving DecidableEq, Repr

/-- A failed call to the cluster API: refused with an HTTP status, lost on its way, given up after
too many attempts, or failed in a way that the API client does not know. -/
inductive ApiFailure where
  | refused (status : Option Int) (reason : Option String) (body : Option String)
  | transport (kind : TransportKind) (text : String)
  | retries (url : Option String)
  | foreign (kind : ForeignKind) (text : String)
  deriving DecidableEq, Repr

/-- What a query asked the cluster for. -/
inductive QueryTarget where
  | nodes
  | podsOn (node : Option String)
  deriving DecidableEq, Repr

/-- The kinds of value that settings and objects hold where text or an object is expected. -/
inductive ValueType where
  | null
  | boolean
  | integer
  | double
  | list
  deriving DecidableEq, Repr

inductive Fault where
  | setting (fault : SettingFault)
  | query (target : QueryTarget) (failure : ApiFailure)
  | api (failure : ApiFailure)
  | quantity (fault : QuantityFault)
  | noMember (type : ValueType) (member : String)
  | absentListCounted
  | absentListRead
  | noCallsKept
  | doubleRange
  | integerOfInfinity
  | integerTooLong
  | waitTooLong
  | unknownLevel (written : String)
  | levelOfOtherType (written : String)
  | noClusterConfig (text : String)
  deriving DecidableEq, Repr

/-- The kinds of fault that handlers and callers tell apart. -/
inductive FaultKind where
  | any
  | config
  | load
  | query
  | value
  | type
  | member
  | overflow
  | decimalInvalid
  | decimalOverflow
  | runtime
  | os
  | clusterConfig
  | refused
  | transport (kind : TransportKind)
  | retries
  deriving DecidableEq, Repr

namespace FaultKind

/-- The more general kinds that contain a kind, nearest first. -/
def ancestors : FaultKind → List FaultKind
  | .any => []
  | .config => [.value, .any]
  | .query => [.load, .any]
  | _ => [.any]

/-- Whether faults of this kind say that the cluster could not be read. -/
def isLoad (kind : FaultKind) : Bool := kind == .load || kind.ancestors.contains .load

/-- Whether faults of this kind say that the configuration is invalid. -/
def isConfig (kind : FaultKind) : Bool := kind == .config || kind.ancestors.contains .config

end FaultKind

def RuleFault.message : RuleFault → String
  | .missing => "Label rule is required"
  | .separators rule count =>
    s!"Invalid label rule '{rule}': expected 'key' or 'key=value', found {count} '=' separators"
  | .emptyKey rule => s!"Invalid label rule '{rule}': label key is empty"

def SettingFault.message : SettingFault → String
  | .rule none fault => fault.message
  | .rule (some name) fault => s!"Invalid {name}: {fault.message}"
  | .notInteger name written => s!"Invalid {name}: {written}. Must be an integer"
  | .threshold value => s!"PRIORITY_THRESHOLD out of range: {value}"
  | .intervalTooShort value => s!"HOUSEKEEPING_INTERVAL must be at least 1 second, got {value}"
  | .intervalTooLong value =>
    s!"HOUSEKEEPING_INTERVAL must be at most 3600 seconds (1 hour), got {value}"
  | .workers value => s!"BUILD_WORKERS must be between 1 and 64, got {value}"
  | .rateLimit value => s!"K8S_API_RATE_LIMIT must be at least 1, got {value}"
  | .port name value => s!"{name} must be between 1 and 65535, got {value}"
  | .logFormat written => s!"Invalid LOG_FORMAT: {written}. Must be 'json' or 'text'"

def QuantityFault.message : QuantityFault → String
  | .numberFormat number => s!"Invalid number format: {number}"
  | .unknownSuffix quantity => s!"{quantity} has unknown suffix"
  | .outOfRange quantity => s!"Invalid quantity: {quantity}"
  | .decimal .signaling => "[<class 'decimal.InvalidOperation'>]"
  | .decimal .overflow => "[<class 'decimal.Overflow'>]"
  | .decimal .ceilingOfNan => "cannot convert NaN to integer"
  | .decimal .ceilingOfInfinity => "cannot convert Infinity to integer"

def ApiFailure.message : ApiFailure → String
  | .refused status reason body =>
    let head := s!"({shown (status.map toString)})\nReason: {shown reason}\n"
    match body with
    | none => head
    | some "" => head
    | some text => head ++ s!"HTTP response body: {text}\n"
  | .transport _ text => text
  | .retries url => s!"None: Max retries exceeded with url: {shown url} (Caused by None)"
  | .foreign _ text => text

/-- Whether a failure is one by which the API client reports a failed call. -/
def ApiFailure.isReported : ApiFailure → Bool
  | .refused .. => true
  | .transport .. => true
  | .retries .. => true
  | .foreign .. => false

def ValueType.name : ValueType → String
  | .null => "NoneType"
  | .boolean => "bool"
  | .integer => "int"
  | .double => "float"
  | .list => "list"

namespace Fault

def message : Fault → String
  | .setting fault => fault.message
  | .query .nodes failure => s!"Failed to list nodes: {failure.message}"
  | .query (.podsOn node) failure =>
    s!"Failed to list pods on node {shown node}: {failure.message}"
  | .api failure => failure.message
  | .quantity fault => fault.message
  | .noMember type member => s!"'{type.name}' object has no attribute '{member}'"
  | .absentListCounted => "object of type 'NoneType' has no len()"
  | .absentListRead => "'NoneType' object is not iterable"
  | .noCallsKept => "min() arg is an empty sequence"
  | .doubleRange => "int too large to convert to float"
  | .integerOfInfinity => "cannot convert float infinity to integer"
  | .integerTooLong =>
    s!"Exceeds the limit ({Text.maxDigits} digits) for integer string conversion; " ++
      "use sys.set_int_max_str_digits() to increase the limit"
  | .waitTooLong => "timestamp too large to convert to C _PyTime_t"
  | .unknownLevel written => s!"Unknown level: '{written}'"
  | .levelOfOtherType written => s!"Level not an integer or a valid string: {written}"
  | .noClusterConfig text => text

def kind : Fault → FaultKind
  | .setting _ => .config
  | .query .. => .query
  | .api (.refused ..) => .refused
  | .api (.transport kind _) => .transport kind
  | .api (.retries _) => .retries
  | .api (.foreign .load _) => .load
  | .api (.foreign .query _) => .query
  | .api (.foreign .config _) => .config
  | .api (.foreign .runtime _) => .runtime
  | .api (.foreign .value _) => .value
  | .api (.foreign .os _) => .os
  | .quantity (.decimal .signaling) => .decimalInvalid
  | .quantity (.decimal .overflow) => .decimalOverflow
  | .quantity (.decimal .ceilingOfInfinity) => .overflow
  | .quantity _ => .value
  | .noMember .. => .member
  | .absentListCounted => .type
  | .absentListRead => .type
  | .noCallsKept => .value
  | .doubleRange => .overflow
  | .integerOfInfinity => .overflow
  | .integerTooLong => .value
  | .waitTooLong => .overflow
  | .unknownLevel _ => .value
  | .levelOfOtherType _ => .type
  | .noClusterConfig _ => .clusterConfig

end Fault

/-- An integer as text, if it is short enough to be written. -/
def integerText (n : Int) : Except Fault String :=
  if Text.isWritable n then .ok (toString n) else .error .integerTooLong

/-- A number that is short enough is written in full. -/
theorem integerText_of_short {n : Int} (short : Text.isWritable n = true) :
    integerText n = .ok (toString n) := if_pos short

/-- A number that is too long is not written at all. -/
theorem integerText_of_long {n : Int} (long : Text.isWritable n = false) :
    integerText n = .error .integerTooLong := by
  rw [integerText, long]
  rfl

end SpotCapacity
