import ConferenceBridge.Yaml.Character
import ConferenceBridge.Yaml.Style
import ConferenceBridge.Yaml.Tag

/-! The tokens of YAML text, and a cursor that walks over the text and knows its place in it. -/

namespace ConferenceBridge.Yaml

/-- A tag as it is written: the handle that tells what it is short for, and the rest. A tag that is
    written in full has an empty handle. -/
structure TagText where
  handle : String
  suffix : Tag
  deriving DecidableEq

inductive Token where
  | version (major minor : Nat)
  /-- From here on, the handle is short for these first characters of a tag. -/
  | shorthand (handle : String) (lead : Tag)
  | documentStart
  | documentEnd
  | sequenceStart
  | mappingStart
  | blockEnd
  | flowSequenceStart
  | flowSequenceEnd
  | flowMappingStart
  | flowMappingEnd
  /-- The hyphen before an entry. -/
  | entry
  /-- The comma between flow entries. -/
  | comma
  | key
  | value
  | alias (name : String)
  | anchor (name : String)
  | tag (text : TagText)
  | scalar (style : Style) (text : String)
  deriving DecidableEq

/-- A place in the text: what is left of it, and how many bytes, lines and columns are behind. A character
    takes one column, and as many bytes as UTF-8 has for it. -/
structure Cursor where
  rest : List Char
  index : Nat := 0
  line : Nat := 0
  column : Nat := 0

namespace Cursor

/-- Passes over so many characters, none of which ends a line. -/
def skip (c : Cursor) (n : Nat) : Cursor :=
  { c with
    rest := c.rest.drop n
    index := (c.rest.take n).foldl (fun k x => k + x.utf8Size) c.index
    column := c.column + n }

/-- Passes over the characters that satisfy `p`, none of which ends a line. -/
def skipWhile (c : Cursor) (p : Char → Bool) : Cursor := c.skip (c.rest.takeWhile p).length

/-- Passes over a line break, if one is next. Gives what the break stands for. -/
def readBreak (c : Cursor) : List Char × Cursor :=
  let next (width : Nat) : Cursor := { c.skip width with line := c.line + 1, column := 0 }
  match c.rest with
  | '\r' :: '\n' :: _ => (['\n'], next 2)
  | x :: _ =>
    if x == '\u2028' || x == '\u2029' then ([x], next 1)
    else if isBreak x then (['\n'], next 1)
    else ([], c)
  | [] => ([], c)

def skipBreak (c : Cursor) : Cursor := c.readBreak.2

/-- Passes over blanks and a comment, up to the end of the line. -/
def skipTrailer (c : Cursor) : Cursor :=
  let c := c.skipWhile isBlank
  match c.rest with
  | '#' :: _ => c.skipWhile (!isBreak ·)
  | _ => c

/-- The next character is this one. -/
def isAt (c : Cursor) (x : Char) : Bool := c.rest.head? == some x

/-- A document marker is next: three of these characters at the start of a line, and a space. -/
def isAtMarker (c : Cursor) (x : Char) : Bool :=
  c.column == 0 && c.rest.take 3 == [x, x, x] && atSpace (c.rest.drop 3)

/-- A document starts or ends here. -/
def isAtDocumentMarker (c : Cursor) : Bool := c.isAtMarker '-' || c.isAtMarker '.'

end Cursor
end ConferenceBridge.Yaml
