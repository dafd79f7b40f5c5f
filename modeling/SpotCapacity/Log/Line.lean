import SpotCapacity.Json
import SpotCapacity.Keyed
import SpotCapacity.Log.Record
import SpotCapacity.Log.Timestamp

/-!
# Log lines

A log record as one line, either plain text or a JSON object. A JSON line holds the attributes of
the record that its template names, followed by extra fields. An extra field gives a record an
attribute only if the record has none of that name and does not reserve the name, and the template
names all extra fields after its own. A record without a timestamp has no line.
-/

namespace SpotCapacity

inductive LogFormat where
  | json
  | text
  deriving DecidableEq, Repr

def LogFormat.name : LogFormat → String
  | .json => "json"
  | .text => "text"

namespace LogRecord

/-- The attributes of a record that is made at a time and has a timestamp. -/
def attributes (time : Int) (timestamp : String) (record : LogRecord) : List (String × Json) :=
  [("asctime", .string timestamp),
   ("levelname", .string (levelName record.level)), ("levelno", .integer record.level),
   ("name", .string record.logger), ("message", .string record.message),
   ("msg", .string record.message), ("args", .array []), ("exc_info", .null),
   ("exc_text", .null), ("stack_info", .null), ("threadName", .string "MainThread"),
   ("processName", .string "MainProcess"),
   ("created", .integer (Timestamp.seconds time)),
   ("msecs", .real (Timestamp.milliseconds time))]

/-- The names that a record reserves: those of its operations and of what tells where it was made.
None of them is an attribute that is written. -/
def reservedNames : List String :=
  ["filename", "funcName", "lineno", "module", "pathname", "process", "relativeCreated", "thread",
   "getMessage", "__class__", "__delattr__", "__dict__", "__dir__", "__doc__", "__eq__",
   "__format__", "__ge__", "__getattribute__", "__getstate__", "__gt__", "__hash__", "__init__",
   "__init_subclass__", "__le__", "__lt__", "__module__", "__ne__", "__new__", "__reduce__",
   "__reduce_ex__", "__repr__", "__setattr__", "__sizeof__", "__str__", "__subclasshook__",
   "__weakref__"]

def textLine? (time : Int) (record : LogRecord) : Option String :=
  (Timestamp.toSeconds? time).map fun timestamp =>
    s!"{timestamp} - {record.logger} - {levelName record.level} - {record.message}\n"

end LogRecord

namespace LineTemplate

/-- The name at the start of a text that a closing parenthesis ends, at least one character and all
on one line. -/
def name? : List Char → Option (List Char)
  | [] => none
  | first :: rest =>
    let name := first :: rest.takeWhile (· != ')')
    if name.length ≤ rest.length && !name.contains '\n' then some name else none

/-- The names between `%(` and `)` in a template. -/
def names (template : List Char) : List String :=
  go 0 template
where
  /-- The names in the rest of a template of which some characters belong to a name already. -/
  go : Nat → List Char → List String
    | _, [] => []
    | skipped + 1, _ :: rest => go skipped rest
    | 0, c :: rest =>
      match c, rest with
      | '%', '(' :: body =>
        match name? body with
        | some name => String.ofList name :: go (name.length + 2) rest
        | none => go 0 rest
      | _, _ => go 0 rest

/-- The template of a JSON line: time, level, logger and message, then the extra fields. -/
def withFields (fields : List (String × Json)) : String :=
  fields.foldl (fun template field => template ++ s!" %({field.1})s")
    "%(asctime)s %(levelname)s %(name)s %(message)s"

/-- The key under which an attribute stands in a JSON line. -/
def keyOf (name : String) : String :=
  if name = "asctime" then "timestamp"
  else if name = "levelname" then "level"
  else name

end LineTemplate

namespace LogRecord

/-- The fields of a JSON line. Those that the template names come first, in its order and `null` if
the record lacks them; of the other extra fields those follow that do not begin with a low line. -/
def jsonFields (time : Int) (timestamp : String) (extra : List (String × Json))
    (record : LogRecord) : List (String × Json) :=
  let own := record.attributes time timestamp
  let added := extra.filter fun field =>
    (own.lookup field.1).isNone && !reservedNames.contains field.1
  let all := own ++ added
  let named := LineTemplate.names (LineTemplate.withFields extra).toList
  let others := added.filter fun field =>
    !named.contains field.1 && field.1.toList.head? != some '_'
  Keyed.ofPairs
    (named.map (fun name => (LineTemplate.keyOf name, (all.lookup name).getD .null)) ++ others)

/-- A record as a JSON object on one line. -/
def jsonLine? (time : Int) (extra : List (String × Json)) (record : LogRecord) : Option String :=
  (Timestamp.toMilliseconds? time).map fun timestamp =>
    (Json.object (record.jsonFields time timestamp extra)).inlineText ++ "\n"

end LogRecord

end SpotCapacity
