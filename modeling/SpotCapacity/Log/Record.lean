/-!
# Log records

What the parts of the program report, before it is filtered and formatted.
-/

namespace SpotCapacity

inductive Severity where
  | debug
  | info
  | warning
  | error
  deriving DecidableEq, Repr

/-- The number of a severity in the order of levels. -/
def Severity.level : Severity → Int
  | .debug => 10
  | .info => 20
  | .warning => 30
  | .error => 40

/-- The parts of the program that report. -/
inductive Component where
  | nodes
  | cluster
  | rateLimit
  | settings
  | monitor
  | exporter
  deriving DecidableEq, Repr

def Component.logger (component : Component) : String :=
  "spot_rescheduler." ++
    match component with
    | .nodes => "nodes"
    | .cluster => "cluster"
    | .rateLimit => "resilience"
    | .settings => "config_loader"
    | .monitor => "monitor"
    | .exporter => "prometheus_exporter"

/-- One report: its level, who made it, its text, and whether a traceback goes with it. -/
structure LogRecord where
  level : Int
  logger : String
  message : String
  traceback : Bool
  deriving DecidableEq, Repr

/-- The name of a level; numbers between the named levels are written as such. -/
def levelName (level : Int) : String :=
  if level = 10 then "DEBUG"
  else if level = 20 then "INFO"
  else if level = 30 then "WARNING"
  else if level = 40 then "ERROR"
  else if level = 50 then "CRITICAL"
  else if level = 0 then "NOTSET"
  else s!"Level {level}"

end SpotCapacity
