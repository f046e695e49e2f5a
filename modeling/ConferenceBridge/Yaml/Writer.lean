import ConferenceBridge.Yaml.Character
import ConferenceBridge.Yaml.Style
import ConferenceBridge.Yaml.Word

/-! A mapping of words to words, written as YAML: one entry a line, in order. A word stands plain where
    nothing in it could be taken for anything else, in single quotes where it could, in double quotes
    where characters have to be escaped, and as a block of lines where it has line feeds. -/

namespace ConferenceBridge.Yaml.Writer

/-! ### What a word allows -/

/-- What decides how a word can be written. -/
structure Shape where
  /-- Something in it would be read as a mark. -/
  marks : Bool
  /-- It holds breaks. -/
  breaks : Bool
  /-- It holds characters that have to be escaped. -/
  special : Bool
  leadingSpace : Bool
  trailingSpace : Bool
  leadingBreak : Bool
  trailingBreak : Bool
  /-- A space comes right after a break. -/
  breakSpace : Bool
  /-- A break comes right after a space. -/
  spaceBreak : Bool

/-- Characters that would start something else at the start of a word. -/
def isStartMark (c : Char) : Bool := "#,[]\x7b\x7d&*!|>'\"%@\x60".toList.contains c

/-- A mark among the characters after the first; `before` is the character before them. -/
def hasLaterMark (before : Char) : List Char → Bool
  | [] => false
  | c :: rest =>
    (c == ':' && (atSpace rest || rest.head? == some '\x00'))
      || (c == '#' && (isBlank before || isBreak before || before == '\x00'))
      || hasLaterMark c rest

/-- Something in the word would be read as a mark. -/
def hasMark (cs : List Char) : Bool :=
  match cs with
  | [] => false
  | c :: rest =>
    cs.take 3 == ['-', '-', '-'] || cs.take 3 == ['.', '.', '.'] || isStartMark c
      || ((c == '?' || c == ':' || c == '-') && (atSpace rest || rest.head? == some '\x00'))
      || hasLaterMark c rest

/-- Two characters of these kinds stand side by side. -/
def hasPair (p q : Char → Bool) : List Char → Bool
  | a :: b :: rest => (p a && q b) || hasPair p q (b :: rest)
  | _ => false

def shape (cs : List Char) : Shape where
  marks := hasMark cs
  breaks := cs.any isBreak
  special := cs.any (!isPlainText ·)
  leadingSpace := cs.head? == some ' '
  trailingSpace := cs.getLast? == some ' '
  leadingBreak := cs.head?.any isBreak
  trailingBreak := cs.getLast?.any isBreak
  breakSpace := hasPair isBreak (· == ' ') cs
  spaceBreak := hasPair (· == ' ') isBreak cs

namespace Shape

/-- The word can stand as it is. -/
def allowsPlain (s : Shape) : Bool :=
  !(s.marks || s.breaks || s.special || s.leadingSpace || s.trailingSpace || s.leadingBreak
    || s.trailingBreak || s.breakSpace || s.spaceBreak)

/-- The word can stand in single quotes. -/
def allowsSingle (s : Shape) : Bool := !(s.special || s.breakSpace || s.spaceBreak)

/-- The word can stand as a block of lines. -/
def allowsBlock (s : Shape) : Bool := !(s.special || s.trailingSpace || s.spaceBreak)

end Shape

/-- How a word is written. -/
def style (w : String) : Style :=
  let s := shape w.toList
  if w.toList.contains '\n' then (if s.allowsBlock then .literal else .doubleQuoted)
  else if !Word.isReserved w && s.allowsPlain then .plain
  else if s.allowsSingle then .singleQuoted
  else .doubleQuoted

/-! ### The styles -/

/-- The blanks before a line of a value. -/
def indentation : List Char := [' ', ' ']

/-- The characters between single quotes; `broken` tells that a break came right before. After a break
    the line is indented. -/
def singleBody : Bool → List Char → List Char
  | broken, [] => if broken then indentation else []
  | broken, c :: rest =>
    if isBreak c then c :: singleBody true rest
    else if c == ' ' then c :: singleBody broken rest
    else (if broken then indentation else []) ++ (if c == '\'' then ['\'', '\''] else [c])
      ++ singleBody false rest

/-- A number in hexadecimal with so many digits, in capitals. -/
def capitalHex (width n : Nat) : List Char := (Text.hex width n).map Char.toUpper

/-- How a character that cannot stand for itself is written in double quotes. -/
def escape (c : Char) : List Char :=
  '\\' :: match c with
  | '\x00' => ['0']
  | '\x07' => ['a']
  | '\x08' => ['b']
  | '\t' => ['t']
  | '\n' => ['n']
  | '\x0b' => ['v']
  | '\x0c' => ['f']
  | '\r' => ['r']
  | '\x1b' => ['e']
  | '"' => ['"']
  | '\\' => ['\\']
  | '\u0085' => ['N']
  | '\u00a0' => ['_']
  | '\u2028' => ['L']
  | '\u2029' => ['P']
  | c =>
    if c.toNat ≤ 0xFF then 'x' :: capitalHex 2 c.toNat
    else if c.toNat ≤ 0xFFFF then 'u' :: capitalHex 4 c.toNat
    else 'U' :: capitalHex 8 c.toNat

/-- The characters between double quotes. -/
def doubleBody (cs : List Char) : List Char :=
  cs.flatMap fun c =>
    if !isPlainText c || isBreak c || c == '"' || c == '\\' then escape c else [c]

/-- The lines of a block; `fresh` tells that a line begins. Only lines that hold something are
    indented. -/
def blockBody : Bool → List Char → List Char
  | _, [] => []
  | fresh, c :: rest =>
    if isBreak c then c :: blockBody true rest
    else (if fresh then indentation else []) ++ c :: blockBody false rest

/-- What the header of a block tells: the indentation where the first line does not show it, and what
    becomes of the breaks at the end. -/
def blockHints (cs : List Char) : List Char :=
  (if cs.head?.any fun c => c == ' ' || isBreak c then ['2'] else []) ++
    match cs.reverse with
    | [] => ['-']
    | last :: before =>
      if !isBreak last then ['-']
      else match before with
        | [] => ['+']
        | c :: _ => if isBreak c then ['+'] else []

/-- A word as the value of an entry, up to the end of its last line. -/
def value (w : String) : List Char :=
  let cs := w.toList
  match style w with
  | .plain => ' ' :: cs ++ ['\n']
  | .singleQuoted => " '".toList ++ singleBody false cs ++ "'\n".toList
  | .doubleQuoted => " \"".toList ++ doubleBody cs ++ "\"\n".toList
  | .literal | .folded =>
    " |".toList ++ blockHints cs ++ ['\n'] ++ blockBody true cs ++
      if cs.getLast?.any isBreak then [] else ['\n']

/-- A mapping, each key of which can stand as it is. -/
def mapping (entries : List (String × String)) : String :=
  String.ofList (entries.flatMap fun e => e.1.toList ++ ':' :: value e.2)

end ConferenceBridge.Yaml.Writer
