import SpotCapacity.Text.Integer

/-!
# JSON

The values that are written as JSON, for log lines on one line and for the snapshot of a node map
with an indent of two. Text is written in printable ASCII: any other character becomes one or two
units of UTF-16 as `\u` escapes.
-/

namespace SpotCapacity

/-- A JSON value; an object keeps the order of its fields. The reals that are written here have a
whole value. -/
inductive Json where
  | null
  | boolean (flag : Bool)
  | integer (n : Int)
  | real (whole : Int)
  | string (text : String)
  | array (items : List Json)
  | object (fields : List (String × Json))
  deriving Inhabited, Repr

namespace Json

/-- The four hexadecimal digits of a unit of UTF-16. -/
def hexUnit (unit : Nat) : List Char :=
  [unit / 4096 % 16, unit / 256 % 16, unit / 16 % 16, unit % 16].map Nat.digitChar

def escapeUnit (unit : Nat) : List Char := '\\' :: 'u' :: hexUnit unit

/-- A character inside of a JSON string. -/
def escape (c : Char) : List Char :=
  let n := c.toNat
  if c = '"' then ['\\', '"']
  else if c = '\\' then ['\\', '\\']
  else if c = '\n' then ['\\', 'n']
  else if c = '\r' then ['\\', 'r']
  else if c = '\t' then ['\\', 't']
  else if n = 8 then ['\\', 'b']
  else if n = 12 then ['\\', 'f']
  else if 32 ≤ n ∧ n < 127 then [c]
  else if n < 0x10000 then escapeUnit n
  else escapeUnit (0xD800 + (n - 0x10000) / 1024) ++ escapeUnit (0xDC00 + (n - 0x10000) % 1024)

def quote (text : String) : String := "\"" ++ String.ofList (text.toList.flatMap escape) ++ "\""

mutual

/-- Whether all integers of the value are short enough to be written. -/
def isWritable : Json → Bool
  | .integer n => Text.isWritable n
  | .array items => allWritable items
  | .object fields => fieldsWritable fields
  | _ => true

def allWritable : List Json → Bool
  | [] => true
  | item :: rest => isWritable item && allWritable rest

def fieldsWritable : List (String × Json) → Bool
  | [] => true
  | (_, value) :: rest => isWritable value && fieldsWritable rest

end

/-- A value without parts as text; one decimal place tells a real from an integer. -/
def scalarText : Json → String
  | .null => "null"
  | .boolean flag => if flag then "true" else "false"
  | .integer n => toString n
  | .real whole => toString whole ++ ".0"
  | .string text => quote text
  | .array _ => "[]"
  | .object _ => "\x7b\x7d"

mutual

def inlineText : Json → String
  | .array items => "[" ++ ", ".intercalate (inlineItems items) ++ "]"
  | .object fields => "\x7b" ++ ", ".intercalate (inlineFields fields) ++ "\x7d"
  | scalar => scalarText scalar

def inlineItems : List Json → List String
  | [] => []
  | item :: rest => inlineText item :: inlineItems rest

def inlineFields : List (String × Json) → List String
  | [] => []
  | (key, value) :: rest => (quote key ++ ": " ++ inlineText value) :: inlineFields rest

end

/-- The start of a line at a depth. -/
def newline (depth : Nat) : String := String.ofList ('\n' :: List.replicate (2 * depth) ' ')

/-- Parts between brackets, each on a line of its own; brackets without parts stay together. -/
def block (left right : String) (depth : Nat) (parts : List String) : String :=
  if parts.isEmpty then left ++ right
  else
    left ++ newline (depth + 1) ++ ("," ++ newline (depth + 1)).intercalate parts ++
      newline depth ++ right

mutual

/-- The value over several lines, with an indent of two for each depth. -/
def indentedText (depth : Nat) : Json → String
  | .array items => block "[" "]" depth (indentedItems (depth + 1) items)
  | .object fields => block "\x7b" "\x7d" depth (indentedFields (depth + 1) fields)
  | scalar => scalarText scalar

def indentedItems (depth : Nat) : List Json → List String
  | [] => []
  | item :: rest => indentedText depth item :: indentedItems depth rest

def indentedFields (depth : Nat) : List (String × Json) → List String
  | [] => []
  | (key, value) :: rest =>
    (quote key ++ ": " ++ indentedText depth value) :: indentedFields depth rest

end

end Json

end SpotCapacity
