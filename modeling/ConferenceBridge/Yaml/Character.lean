/-! The classes of characters that YAML text tells apart. The end of the text counts as a break where a
    function looks at what follows. -/

namespace ConferenceBridge.Yaml

/-- Ends a line: line feed, carriage return, next line, and the line and paragraph separators. -/
def isBreak (c : Char) : Bool :=
  c == '\n' || c == '\r' || c == '\u0085' || c == '\u2028' || c == '\u2029'

/-- Separates words: the space and the tab. -/
def isBlank (c : Char) : Bool := c == ' ' || c == '\t'

/-- Stands in a name: an ASCII letter or digit, the underscore and the hyphen. -/
def isNameChar (c : Char) : Bool := c.isAlphanum || c == '_' || c == '-'

/-- May stand in YAML text at all. -/
def isAllowed (c : Char) : Bool :=
  let n := c.toNat
  n == 0x09 || n == 0x0A || n == 0x0D || (0x20 ≤ n && n ≤ 0x7E) || n == 0x85
    || (0xA0 ≤ n && n ≤ 0xD7FF) || (0xE000 ≤ n && n ≤ 0xFFFD) || 0x10000 ≤ n

/-- May stand outside double quotes in text that is written. Tabs, byte order marks and controls may not. -/
def isPlainText (c : Char) : Bool :=
  let n := c.toNat
  n == 0x0A || (0x20 ≤ n && n ≤ 0x7E) || (0xA0 ≤ n && n ≤ 0xD7FF)
    || (0xE000 ≤ n && n ≤ 0xFFFD && n != 0xFEFF) || 0x10000 ≤ n

/-- A break, or the end of the text. -/
def atBreak : List Char → Bool
  | [] => true
  | c :: _ => isBreak c

/-- A blank, a break, or the end of the text. -/
def atSpace : List Char → Bool
  | [] => true
  | c :: _ => isBlank c || isBreak c

end ConferenceBridge.Yaml
