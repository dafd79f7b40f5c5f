import SpotCapacity.Log.Record
import SpotCapacity.RateLimit

/-!
# Sessions

What the program does to its surroundings, as a trace: calls to the cluster API, log records and
sleeps, in their order. An `Act` runs in a session and ends with a value or a fault; what happened
before a fault stays in the trace.
-/

namespace SpotCapacity

inductive ApiCall where
  | listNodes
  | listPods (node : Option String)
  | readConfigMap (space name : String)
  deriving DecidableEq, Repr

/-- A call as text: the operation and what it selects. -/
def ApiCall.text : ApiCall → String
  | .listNodes => "list_node"
  | .listPods node => s!"list_pods spec.nodeName={shown node}"
  | .readConfigMap space name => s!"read_configmap {space}/{name}"

/-- Where the program looks for the cluster that it works on. -/
inductive ConfigSource where
  | inCluster
  | localConfig
  deriving DecidableEq, Repr

/-- Something that the program did. -/
inductive Event where
  | called (call : ApiCall)
  | consulted (source : ConfigSource)
  | logged (record : LogRecord)
  | delayed (duration : Double)
  | slept (duration : Double)
  | waited (seconds : Int)
  deriving Repr

/-- A running program: its clock, how much longer than asked it sleeps, its limiter, whether it was
asked to stop, and what it has done so far. -/
structure Session where
  now : Double
  oversleep : Double
  limiter : Option (Limiter Double)
  stopped : Bool
  trace : List Event
  deriving Repr

/-- A computation in a session. -/
abbrev Act (α : Type) := ExceptT Fault (StateM Session) α

namespace Session

/-- A session that starts on a clock and has done nothing. -/
def start (now : Double) (limiter : Option (Limiter Double)) : Session :=
  ⟨now, 0, limiter, false, []⟩

def note (session : Session) (event : Event) : Session :=
  { session with trace := session.trace ++ [event] }

def log (severity : Severity) (component : Component) (message : String) (session : Session) :
    Session :=
  session.note (.logged ⟨severity.level, component.logger, message, false⟩)

/-- Reports an unexpected fault, with a traceback. -/
def logUnexpected (component : Component) (message : String) (session : Session) : Session :=
  session.note (.logged ⟨Severity.error.level, component.logger, message, true⟩)

def requestStop (session : Session) : Session :=
  { session.log .info .monitor "Shutdown requested" with stopped := true }

def calls (session : Session) : List ApiCall :=
  session.trace.filterMap fun
    | .called call => some call
    | _ => none

/-- The places in the trace where the program looked for its cluster. -/
def consulted (session : Session) : List ConfigSource :=
  session.trace.filterMap fun
    | .consulted source => some source
    | _ => none

def records (session : Session) : List LogRecord :=
  session.trace.filterMap fun
    | .logged record => some record
    | _ => none

def sleeps (session : Session) : List Double :=
  session.trace.filterMap fun
    | .slept duration => some duration
    | _ => none

/-- The waits for the next cycle in the trace. -/
def waits (session : Session) : List Int :=
  session.trace.filterMap fun
    | .waited seconds => some seconds
    | _ => none

/-- The delays that were reported, in the trace. -/
def delays (session : Session) : List Double :=
  session.trace.filterMap fun
    | .delayed duration => some duration
    | _ => none

/-- The same session with an empty trace. -/
def cleared (session : Session) : Session := { session with trace := [] }

end Session

namespace Act

def change (f : Session → Session) : Act Unit := modify f

def note (event : Event) : Act Unit := change (·.note event)

def log (severity : Severity) (component : Component) (message : String) : Act Unit :=
  change (·.log severity component message)

/-- Ends with a value or a fault, without an effect. -/
def ofExcept {α : Type} : Except Fault α → Act α
  | .ok value => pure value
  | .error fault => throw fault

/-- Runs an act and goes on with its outcome, a fault included. -/
def outcome {α : Type} (act : Act α) : Act (Except Fault α) := fun session =>
  match act session with
  | (result, session) => (.ok result, session)

def elapse (duration : Double) : Act Unit :=
  change fun session => { session with now := session.now + duration }

/-- Waits for the limiter's grant of a call, if there is a limiter. A delay is logged, reported to
the metrics when the limiter does so, and slept. -/
def throttle : Act Unit := do
  let session ← get
  match session.limiter with
  | none => return ()
  | some limiter =>
    change fun session => { session with limiter := some (limiter.prune session.now) }
    let wake := fun (delay : Double) => session.now + (delay + session.oversleep)
    match limiter.acquire session.now wake with
    | .error fault => throw fault
    | .ok granted =>
      match granted.delay with
      | none => pure ()
      | some delay =>
        log .debug .rateLimit s!"Rate limit reached, sleeping {delay.fixed 2}s"
        if limiter.reports then note (.delayed delay)
        note (.slept delay)
      change fun session => { session with now := granted.time, limiter := some granted.limiter }

def requestStop : Act Unit := change Session.requestStop

end Act

end SpotCapacity
