import ConferenceBridge.Text.Unprintable

/-! Text in double quotes as it stands in reports and log lines. A character that would not show by
    itself is written by an escape, so that two different texts never look alike. -/

namespace ConferenceBridge.Text

/-- The character shows by itself on a line. -/
def isPrintable (c : Char) : Bool :=
  let n := c.toNat
  if n < 0x80 then 0x20 ≤ n && n < 0x7F
  else !Unprintable.runs.any fun run => run.1 ≤ n && n ≤ run.2

/-- How a character is written between double quotes. -/
def escape (c : Char) : List Char :=
  match c with
  | '\x00' => ['\\', '0']
  | '\t' => ['\\', 't']
  | '\n' => ['\\', 'n']
  | '\r' => ['\\', 'r']
  | '"' => ['\\', '"']
  | '\\' => ['\\', '\\']
  | c =>
    if isPrintable c then [c]
    else ['\\', 'u', '\x7b'] ++ Nat.toDigits 16 c.toNat ++ ['\x7d']

/-- The text in double quotes. -/
def quoted (text : String) : String :=
  String.ofList ('"' :: (text.toList.flatMap escape) ++ ['"'])

end ConferenceBridge.Text
