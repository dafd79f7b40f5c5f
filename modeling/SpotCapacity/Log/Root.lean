import SpotCapacity.Fault
import SpotCapacity.Log.Line
import SpotCapacity.Text.UpperCase

/-!
# The root logger

All log records go to the root logger, which writes them with its handlers. A setup replaces
whatever handlers there are by one and gives root and handler the same level. Texts that name no
level stand for INFO, save for two: the standard formats have names as levels do, and a format is no
level.
-/

namespace SpotCapacity

/-- Writes the records from a level on in a format, with extra fields. -/
structure LogHandler where
  level : Int
  format : LogFormat
  extra : List (String × Json)
  deriving Repr

/-- The root logger: the level from which on it handles records, and its handlers. -/
structure RootLogger where
  level : Int
  handlers : List LogHandler
  deriving Repr

namespace RootLogger

/-- The root logger before any setup: it writes nothing. -/
def unset : RootLogger := ⟨Severity.warning.level, []⟩

def standardLevels : List (String × Int) :=
  [("DEBUG", 10), ("INFO", 20), ("WARNING", 30), ("WARN", 30), ("ERROR", 40), ("CRITICAL", 50),
   ("FATAL", 50), ("NOTSET", 0)]

/-- The name of the standard format and the format. -/
def standardFormat : String × String := ("BASIC_FORMAT", "%(levelname)s:%(name)s:%(message)s")

/-- The name of the table of standard formats, one for each style, and the table. -/
def standardStyles : String × String :=
  ("_STYLES",
   "\x7b'%': (<class 'logging.PercentStyle'>, '%(levelname)s:%(name)s:%(message)s'), " ++
   "'\x7b': (<class 'logging.StrFormatStyle'>, " ++
   "'\x7blevelname\x7d:\x7bname\x7d:\x7bmessage\x7d'), " ++
   "'$': (<class 'logging.StringTemplateStyle'>, " ++
   "'$\x7blevelname\x7d:$\x7bname\x7d:$\x7bmessage\x7d')\x7d")

/-- The level that a text stands for, in any case. -/
def levelOf (text : String) : Except Fault Int :=
  let name := String.ofList (Text.upper text.toList)
  match standardLevels.lookup name with
  | some level => .ok level
  | none =>
    if name = standardFormat.1 then .error (.unknownLevel standardFormat.2)
    else if name = standardStyles.1 then .error (.levelOfOtherType standardStyles.2)
    else .ok Severity.info.level

def withLevel (level : Int) (root : RootLogger) : RootLogger := { root with level := level }

def withoutHandlers (root : RootLogger) : RootLogger := { root with handlers := [] }

def addHandler (handler : LogHandler) (root : RootLogger) : RootLogger :=
  { root with handlers := root.handlers ++ [handler] }

/-- Sets up logging. On a fault nothing has changed. -/
def setup (level : String) (format : LogFormat) (extra : List (String × Json))
    (root : RootLogger) : Except Fault RootLogger := do
  let level ← levelOf level
  return (root.withLevel level).withoutHandlers.addHandler ⟨level, format, extra⟩

/-- What a handler writes for a record; nothing when the record has no line. -/
def write (handler : LogHandler) (time : Int) (record : LogRecord) : String :=
  if record.level < handler.level then ""
  else
    match handler.format with
    | .text => (record.textLine? time).getD ""
    | .json => (record.jsonLine? time handler.extra).getD ""

/-- What is written for a record. Records of level zero or below are never handled. -/
def emit (root : RootLogger) (time : Int) (record : LogRecord) : String :=
  if 0 < record.level ∧ root.level ≤ record.level then
    String.join (root.handlers.map fun handler => write handler time record)
  else ""

def emitAll (root : RootLogger) (time : Int) (records : List LogRecord) : String :=
  String.join (records.map (root.emit time))

end RootLogger

end SpotCapacity
