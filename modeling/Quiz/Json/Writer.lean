/-
Quiz.Json.Writer — a value written as JSON text, on one line or indented, and
as a message shows it.

Both forms of JSON text write fields in their order, with `: ` behind a name.
The line form puts `, ` between parts and keeps every code point above U+001F;
the indented form puts every part on a line of its own, two spaces deeper than
the bracket around it, and escapes whatever is not printable ASCII.

Inside a message a value stands with `None` for null, `True` and `False`,
texts in quotes, arrays and objects in their brackets.
-/
import Quiz.Json.Value
import Quiz.Number.Shortest
import Quiz.Text.Quoted

namespace Quiz.Json

/-! ## Text -/

/-- A `u` escape of one UTF-16 unit. -/
def unitEscape (n : Nat) : List Char :=
  '\\' :: 'u' :: Text.hexDigits 4 n

/-- The escape of any character: one unit, or the two of a pair. -/
def codeEscape (c : Char) : List Char :=
  let n := c.toNat
  if n < 0x10000 then unitEscape n
  else unitEscape (0xd800 + (n - 0x10000) / 0x400) ++ unitEscape (0xdc00 + (n - 0x10000) % 0x400)

/-- One character inside a JSON string. -/
def writtenChar (ascii : Bool) (c : Char) : List Char :=
  if c = '"' then ['\\', '"']
  else if c = '\\' then ['\\', '\\']
  else if c = '\n' then ['\\', 'n']
  else if c = '\r' then ['\\', 'r']
  else if c = '\t' then ['\\', 't']
  else if c = '\x08' then ['\\', 'b']
  else if c = '\x0c' then ['\\', 'f']
  else if c.toNat < 0x20 then codeEscape c
  else if ascii && 0x7f ≤ c.toNat then codeEscape c
  else (Text.CodePoint.scalar c).held

/-- One code point inside a JSON string. -/
def writtenCodePoint (ascii : Bool) : Text.CodePoint → List Char
  | .scalar c => writtenChar ascii c
  | .surrogate index =>
    if ascii then unitEscape (Text.CodePoint.unit index)
    else (Text.CodePoint.surrogate index).held

/-- A text as a JSON string. -/
def writtenText (ascii : Bool) (s : String) : String :=
  String.ofList ('"' :: ((Text.codePoints s).flatMap (writtenCodePoint ascii) ++ ['"']))

/-! ## Values -/

/-- A value without parts. -/
def writtenScalar (ascii : Bool) : Json → String
  | .null => "null"
  | .bool b => if b then "true" else "false"
  | .int n => toString n
  | .float x =>
    if x.isFinite then floatText x
    else if x.isNaN then "NaN"
    else if x < 0 then "-Infinity"
    else "Infinity"
  | .str s => writtenText ascii s
  | .arr _ => "[]"
  | .obj _ => "\x7b\x7d"

mutual

/-- Adds the line form of a value to `out`. -/
def lineOnto (out : String) : Json → String
  | .arr items => lineItems (out ++ "[") true items
  | .obj fs => lineFields (out ++ "\x7b") true fs
  | j => out ++ writtenScalar false j

/-- Adds the elements of an array and the closing bracket. -/
def lineItems (out : String) (first : Bool) : List Json → String
  | [] => out ++ "]"
  | j :: rest => lineItems (lineOnto (if first then out else out ++ ", ") j) false rest

/-- Adds the fields of an object and the closing brace. -/
def lineFields (out : String) (first : Bool) : List (String × Json) → String
  | [] => out ++ "\x7d"
  | (k, j) :: rest =>
    let start := (if first then out else out ++ ", ") ++ writtenText false k ++ ": "
    lineFields (lineOnto start j) false rest

end

/-- The value on one line. -/
def line (j : Json) : String :=
  lineOnto "" j

/-- A new line, indented `depth` steps. -/
def newLine (depth : Nat) : String :=
  String.ofList ('\n' :: List.replicate (2 * depth) ' ')

mutual

/-- Adds the indented form of a value at `depth` to `out`. -/
def indentOnto (out : String) (depth : Nat) : Json → String
  | .arr [] => out ++ "[]"
  | .arr (j :: rest) =>
    indentItems (indentOnto (out ++ "[" ++ newLine (depth + 1)) (depth + 1) j) depth rest
  | .obj [] => out ++ "\x7b\x7d"
  | .obj ((k, j) :: rest) =>
    let start := out ++ "\x7b" ++ newLine (depth + 1) ++ writtenText true k ++ ": "
    indentFields (indentOnto start (depth + 1) j) depth rest
  | j => out ++ writtenScalar true j

/-- Adds the elements behind the first one, and the closing bracket. -/
def indentItems (out : String) (depth : Nat) : List Json → String
  | [] => out ++ newLine depth ++ "]"
  | j :: rest =>
    indentItems (indentOnto (out ++ "," ++ newLine (depth + 1)) (depth + 1) j) depth rest

/-- Adds the fields behind the first one, and the closing brace. -/
def indentFields (out : String) (depth : Nat) : List (String × Json) → String
  | [] => out ++ newLine depth ++ "\x7d"
  | (k, j) :: rest =>
    let start := out ++ "," ++ newLine (depth + 1) ++ writtenText true k ++ ": "
    indentFields (indentOnto start (depth + 1) j) depth rest

end

/-- The value over several lines. -/
def indented (j : Json) : String :=
  indentOnto "" 0 j

/-! ## Values inside a message -/

mutual

/-- A value as a message quotes it. -/
def quoted : Json → String
  | .null => "None"
  | .bool b => if b then "True" else "False"
  | .int n => toString n
  | .float x => floatText x
  | .str s => Text.quoted s
  | .arr items => "[" ++ ", ".intercalate (quotedItems items) ++ "]"
  | .obj fs => "\x7b" ++ ", ".intercalate (quotedFields fs) ++ "\x7d"

/-- The elements of an array, one by one. -/
def quotedItems : List Json → List String
  | [] => []
  | j :: rest => j.quoted :: quotedItems rest

/-- The fields of an object, one by one. -/
def quotedFields : List (String × Json) → List String
  | [] => []
  | (k, j) :: rest => (Text.quoted k ++ ": " ++ j.quoted) :: quotedFields rest

end

/-- A value as running text: a text stands for itself, anything else is
written as a message quotes it. -/
def shown : Json → String
  | .str s => s
  | j => j.quoted

end Quiz.Json
