import LocalMetric.Text.Printable
/-!
# Quoted text

How messages and reports quote a string and write a list: single quotes unless only the text itself
holds one, and escapes for what cannot be shown.
-/
namespace LocalMetric.Text

def hex (width n : Nat) : List Char :=
  let ds := Nat.toDigits 16 n
  List.replicate (width - ds.length) '0' ++ ds

def quotedChar (quote c : Char) : List Char :=
  if c = quote ∨ c = '\\' then ['\\', c]
  else if c = '\n' then ['\\', 'n']
  else if c = '\r' then ['\\', 'r']
  else if c = '\t' then ['\\', 't']
  else if isPrintable c then [c]
  else if c.toNat < 0x100 then ['\\', 'x'] ++ hex 2 c.toNat
  else if c.toNat < 0x10000 then ['\\', 'u'] ++ hex 4 c.toNat
  else ['\\', 'U'] ++ hex 8 c.toNat

/-- A string in quotes. Double quotes are used if the text holds single ones only. -/
def quoted (s : String) : String :=
  let cs := s.toList
  let quote := if cs.contains '\'' && !cs.contains '"' then '"' else '\''
  String.ofList ([quote] ++ cs.flatMap (quotedChar quote) ++ [quote])

def listed (texts : List String) : String := "[" ++ ", ".intercalate texts ++ "]"

/-- A row in parentheses; a single item is followed by a comma. -/
def rowText : List String → String
  | [item] => "(" ++ item ++ ",)"
  | items => "(" ++ ", ".intercalate items ++ ")"

def shapeText (shape : List Nat) : String := rowText (shape.map toString)

end LocalMetric.Text
