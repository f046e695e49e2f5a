import ConferenceBridge.Json.Basic
import ConferenceBridge.Text.Numeral

/-! The text of a JSON value, on one line and without blanks. -/

namespace ConferenceBridge.Json

/-- How a character stands between quotes. -/
def escape (c : Char) : List Char :=
  if c = '"' then ['\\', '"']
  else if c = '\\' then ['\\', '\\']
  else if c.toNat < 0x20 then '\\' :: 'u' :: Text.hex 4 c.toNat
  else [c]

/-- A string between quotes. -/
def quote (s : String) : String :=
  if s.any fun c => c = '"' || c = '\\' || c.toNat < 0x20 then
    "\"" ++ String.ofList (s.toList.flatMap escape) ++ "\""
  else "\"" ++ s ++ "\""

mutual

/-- The text of a value. -/
def text : Json → String
  | .null => "null"
  | .bool b => if b then "true" else "false"
  | .int n => toString n
  | .real t => t
  | .str s => quote s
  | .arr items => "[" ++ itemTexts items ++ "]"
  | .obj fields => "\x7b" ++ fieldTexts fields ++ "\x7d"

/-- The texts of some values with commas between them. -/
def itemTexts : List Json → String
  | [] => ""
  | [item] => text item
  | item :: items => text item ++ "," ++ itemTexts items

/-- The texts of some fields with commas between them. -/
def fieldTexts : List (String × Json) → String
  | [] => ""
  | [(name, value)] => quote name ++ ":" ++ text value
  | (name, value) :: fields => quote name ++ ":" ++ text value ++ "," ++ fieldTexts fields

end

end ConferenceBridge.Json
