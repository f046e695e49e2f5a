import ConferenceBridge.Yaml.Token.Scalar

/-! The tokens of a text. Indentation opens and closes block collections, and a word that a colon follows
    on the same line turns out to be a key only when the colon is reached, so its key token is put in
    front of it then. -/

namespace ConferenceBridge.Yaml

/-- A token that may turn out to start a key. -/
structure PossibleKey where
  /-- Nothing but a key can stand here. -/
  required : Bool
  /-- How many tokens stand before it. -/
  position : Nat
  /-- Where it starts. -/
  start : Cursor

/-- How far the text has been read. -/
structure Scan where
  cursor : Cursor
  tokens : Array Token := #[]
  /-- How many brackets are open. -/
  depth : Nat := 0
  /-- The column of the innermost block collection. -/
  indent : Int := -1
  /-- The columns of the block collections around it. -/
  outer : List Int := []
  /-- A key may start here. -/
  keyAllowed : Bool := true
  /-- What may turn out to be a key, for each open bracket from the innermost and for the block. -/
  keys : List (Option PossibleKey) := [none]

namespace Scan

def inFlow (s : Scan) : Bool := s.depth != 0

def push (s : Scan) (t : Token) : Scan := { s with tokens := s.tokens.push t }

/-- Puts a token in front of those from a position on. -/
def insert (s : Scan) (position : Nat) (t : Token) : Scan :=
  { s with tokens := s.tokens.insertIdxIfInBounds position t }

/-- The innermost possible key. -/
def key? (s : Scan) : Option PossibleKey := s.keys.head?.join

def setKey (s : Scan) (k : Option PossibleKey) : Scan := { s with keys := k :: s.keys.tail }

/-- Gives up the innermost possible key, unless it had to be one. -/
def dropKey (s : Scan) : Option Scan :=
  if s.key?.any (·.required) then none else some (s.setKey none)

/-- Notes that the next token may start a key, if one may start here. -/
def saveKey (s : Scan) : Option Scan :=
  if s.keyAllowed then do
    let s ← s.dropKey
    return s.setKey (some {
      required := !s.inFlow && s.indent == s.cursor.column
      position := s.tokens.size
      start := s.cursor })
  else some s

/-- A key is on one line, and its colon stands at most so many bytes after its start. -/
def longestKey : Nat := 1024

/-- The possible key can no longer be one. -/
def isStale (s : Scan) (k : PossibleKey) : Bool :=
  k.start.line < s.cursor.line || k.start.index + longestKey < s.cursor.index

/-- Gives up the possible keys that can no longer be keys. -/
def dropStaleKeys (s : Scan) : Option Scan :=
  if s.keys.any fun k => k.any fun k => k.required && s.isStale k then none
  else some { s with keys := s.keys.map fun k => k.filter (!s.isStale ·) }

/-- Opens a block collection at a column, unless one is open there or brackets are. Its first token goes
    to a position, or to the end. -/
def openBlock (s : Scan) (column : Nat) (position : Option Nat) (t : Token) : Scan :=
  if s.inFlow || (column : Int) ≤ s.indent then s
  else
    let s := { s with indent := column, outer := s.indent :: s.outer }
    match position with
    | some n => s.insert n t
    | none => s.push t

/-- Closes the block collections from the innermost whose columns lie beyond a column. -/
def closeBlocksAt (column : Int) : List Int → Scan → Scan
  | [], s => s
  | next :: outer, s =>
    if column < s.indent then closeBlocksAt column outer ({ s with indent := next, outer }.push .blockEnd)
    else s

/-- Closes the block collections that lie beyond a column, unless brackets are open. -/
def closeBlocks (s : Scan) (column : Int) : Scan :=
  if s.inFlow then s else closeBlocksAt column s.outer s

/-- Passes over blanks, comments and breaks up to the next token. A tab is passed over where no key may
    start, and a byte order mark at the start of a line; the mark takes a column like any other character. -/
def skipSpace : Nat → Scan → Scan
  | 0, s => s
  | fuel + 1, s =>
    let c := if s.cursor.column == 0 && s.cursor.isAt '\ufeff' then s.cursor.skip 1 else s.cursor
    let tabs := s.inFlow || !s.keyAllowed
    let c := c.skipWhile fun x => x == ' ' || (tabs && x == '\t')
    let c := if c.isAt '#' then c.skipWhile (!isBreak ·) else c
    match c.rest with
    | x :: _ =>
      if isBreak x then
        skipSpace fuel { s with cursor := c.skipBreak, keyAllowed := s.keyAllowed || !s.inFlow }
      else { s with cursor := c }
    | [] => { s with cursor := c }

/-- Passes over a mark of so many characters and adds its token. -/
def mark (s : Scan) (width : Nat) (t : Token) : Scan := { s with cursor := s.cursor.skip width }.push t

/-! ### Directives, anchors and tags -/

/-- A number of a version. -/
def versionNumber? (c : Cursor) : Option (Nat × Cursor) :=
  let ds := c.rest.takeWhile Char.isDigit
  if 9 < ds.length then none else (Text.numeral? 10 ds).map fun n => (n, c.skip ds.length)

/-- A handle: an exclamation mark, then perhaps a name and another one. -/
def handle? (c : Cursor) : Option (List Char × Cursor) :=
  match c.rest with
  | '!' :: rest =>
    let name := rest.takeWhile isNameChar
    let c := c.skip (1 + name.length)
    if c.isAt '!' then some ('!' :: name ++ ['!'], c.skip 1) else some ('!' :: name, c)
  | _ => none

/-- A character of a tag. Written in full, a tag may hold some marks more. -/
def isTagChar (full : Bool) (c : Char) : Bool :=
  isNameChar c || ";/?:@&=+$.%!~*'()".toList.contains c || (full && ",[]".toList.contains c)

/-- A byte given by a percent sign and two hexadecimal digits. -/
def escapedByte? : List Char → Option Nat
  | '%' :: a :: b :: _ => Text.numeral? 16 [a, b]
  | _ => none

/-- How many bytes follow the first one of a character. -/
def bytesAfter? (b : Nat) : Option Nat :=
  if b < 0x80 then some 0
  else if b / 32 = 6 then some 1
  else if b / 16 = 14 then some 2
  else if b / 8 = 30 then some 3
  else none

/-- So many escaped bytes that go on with a character, after those taken already in reverse. -/
def laterBytes? : Nat → List UInt8 → Cursor → Option (List UInt8 × Cursor)
  | 0, taken, c => some (taken, c)
  | k + 1, taken, c => do
    let b ← escapedByte? c.rest
    if b / 64 ≠ 2 then none else laterBytes? k (UInt8.ofNat b :: taken) (c.skip 3)

/-- The bytes of an escaped character, after those taken already in reverse. The first has to say how many
    follow it, and these that they follow; whether there is such a character does not matter. -/
def escapedBytes? (taken : List UInt8) (c : Cursor) : Option (List UInt8 × Cursor) := do
  let b ← escapedByte? c.rest
  let later ← bytesAfter? b
  laterBytes? later (UInt8.ofNat b :: taken) (c.skip 3)

/-- The bytes of a tag, after those taken already in reverse. -/
def tagRun? (full : Bool) : Nat → List UInt8 → Cursor → Option (List UInt8 × Cursor)
  | 0, _, _ => none
  | fuel + 1, taken, c =>
    match c.rest with
    | [] => some (taken, c)
    | x :: _ =>
      if !isTagChar full x then some (taken, c)
      else if x == '%' then
        match escapedBytes? taken c with
        | some (taken, c) => tagRun? full fuel taken c
        | none => none
      else tagRun? full fuel (UInt8.ofNat x.toNat :: taken) (c.skip 1)

/-- A tag or a part of one, in which something has to be written unless something came before. -/
def tagPart? (full someBefore : Bool) (c : Cursor) : Option (Tag × Cursor) := do
  let (taken, c) ← tagRun? full (c.rest.length + 1) [] c
  if taken.isEmpty && !someBefore then none else return (.ofBytes taken.reverse, c)

/-- A tag, the cursor being at its exclamation mark. The mark alone is a tag in full. -/
def tag? (flow : Bool) (c : Cursor) : Option (Token × Cursor) := do
  let (text, c) ←
    match c.rest with
    | '!' :: '<' :: _ => do
      let (suffix, c) ← tagPart? true false (c.skip 2)
      if c.isAt '>' then some (TagText.mk "" suffix, c.skip 1) else none
    | _ => do
      let (handle, c) ← handle? c
      if handle.length > 1 && handle.getLast? == some '!' then do
        let (suffix, c) ← tagPart? false false c
        some (TagText.mk (String.ofList handle) suffix, c)
      else do
        let (more, c) ← tagPart? false true c
        let suffix := (Tag.ofString (String.ofList (handle.drop 1))).append more
        some (if suffix.bytes.isEmpty then TagText.mk "" (.ofString "!") else TagText.mk "!" suffix, c)
  if atSpace c.rest || (flow && c.isAt ',') then some (.tag text, c) else none

/-- The name of an anchor or an alias, the cursor being at its mark. -/
def name? (c : Cursor) : Option (String × Cursor) :=
  let c := c.skip 1
  let name := c.rest.takeWhile isNameChar
  let c := c.skip name.length
  if !name.isEmpty && (atSpace c.rest || c.rest.head?.any ("?:,]\x7d%@\x60".toList.contains ·)) then
    some (String.ofList name, c)
  else none

/-- A directive, the cursor being at its percent sign. Its line holds nothing else but a comment. -/
def directive? (c : Cursor) : Option (Token × Cursor) := do
  let c := c.skip 1
  let name := c.rest.takeWhile isNameChar
  let c := c.skip name.length
  if !atSpace c.rest then none
  let (token, c) ←
    if name == "YAML".toList then do
      let (major, c) ← versionNumber? (c.skipWhile isBlank)
      if c.isAt '.' then do
        let (minor, c) ← versionNumber? (c.skip 1)
        some (Token.version major minor, c)
      else none
    else if name == "TAG".toList then do
      let (handle, c) ← handle? (c.skipWhile isBlank)
      if (handle.length == 1 || handle.getLast? == some '!') && c.rest.head?.any isBlank then do
        let (lead, c) ← tagPart? true false (c.skipWhile isBlank)
        if atSpace c.rest then some (Token.shorthand (String.ofList handle) lead, c) else none
      else none
    else none
  let c := c.skipTrailer
  if atBreak c.rest then return (token, c.skipBreak) else none

/-! ### One token after the other -/

/-- Adds a token that stands by itself and may start a key. -/
def leaf (s : Scan) (read : Cursor → Option (Token × Cursor)) : Option Scan := do
  let s ← s.saveKey
  let (token, c) ← read s.cursor
  return { s with keyAllowed := false, cursor := c }.push token

/-- Opens brackets. -/
def openFlow (s : Scan) (t : Token) : Option Scan := do
  let s ← s.saveKey
  return { s with keys := none :: s.keys, depth := s.depth + 1, keyAllowed := true }.mark 1 t

/-- Closes brackets. -/
def closeFlow (s : Scan) (t : Token) : Option Scan := do
  let s ← s.dropKey
  let s := if s.inFlow then { s with depth := s.depth - 1, keys := s.keys.tail } else s
  return { s with keyAllowed := false }.mark 1 t

/-- A comma. -/
def comma (s : Scan) : Option Scan := do
  let s ← s.dropKey
  return { s with keyAllowed := true }.mark 1 .comma

/-- Opens a block collection where a new one may start, if none is open at this column. -/
def openHere (s : Scan) (t : Token) : Option Scan :=
  if s.inFlow then some s
  else if s.keyAllowed then some (s.openBlock s.cursor.column none t)
  else none

/-- The hyphen before an entry. -/
def entry (s : Scan) : Option Scan := do
  let s ← s.openHere .sequenceStart
  let s ← s.dropKey
  return { s with keyAllowed := true }.mark 1 .entry

/-- The question mark before a key. -/
def explicitKey (s : Scan) : Option Scan := do
  let s ← s.openHere .mappingStart
  let s ← s.dropKey
  return { s with keyAllowed := !s.inFlow }.mark 1 .key

/-- The colon before a value. What has been read since the possible key turns out to be one. -/
def value (s : Scan) : Option Scan :=
  match s.key? with
  | some k =>
    let s := (s.insert k.position .key).openBlock k.start.column (some k.position) .mappingStart
    some (({ s with keyAllowed := false }.setKey none).mark 1 .value)
  | none => do
    let s ← s.openHere .mappingStart
    return { s with keyAllowed := !s.inFlow }.mark 1 .value

/-- Closes what is open outside brackets, as at the edges of a document. -/
def atEdge (s : Scan) : Option Scan := do
  let s ← (s.closeBlocks (-1)).dropKey
  return { s with keyAllowed := false }

/-- A block scalar. -/
def blockScalar (s : Scan) (style : Style) : Option Scan := do
  let s ← s.dropKey
  let (text, c) ← Scalar.block? (style == .folded) s.indent s.cursor
  return { s with keyAllowed := true, cursor := c }.push (.scalar style text)

/-- A plain scalar. After a break a key may start again. -/
def plainScalar (s : Scan) : Option Scan := do
  let s ← s.saveKey
  let (text, broken, c) ← Scalar.plain? s.inFlow (s.indent + 1) s.cursor
  return { s with keyAllowed := broken, cursor := c }.push (.scalar .plain text)

/-- A plain scalar may start with this text. -/
def startsPlain (flow : Bool) : List Char → Bool
  | [] => false
  | x :: rest =>
    if x == '-' then !(rest.head?.any isBlank)
    else if x == '?' || x == ':' then !flow && !atSpace rest
    else !isBlank x && !isBreak x && !",[]\x7b\x7d#&*!|>'\"%@\x60".toList.contains x

/-- The next token, the cursor being at it. -/
def token (s : Scan) : Option Scan :=
  let c := s.cursor
  if c.column == 0 && c.isAt '%' then do
    let s ← s.atEdge
    let (token, c) ← directive? s.cursor
    return { s with cursor := c }.push token
  else if c.isAtMarker '-' then s.atEdge.map (·.mark 3 .documentStart)
  else if c.isAtMarker '.' then s.atEdge.map (·.mark 3 .documentEnd)
  else
    match c.rest with
    | [] => none
    | x :: rest =>
      if x == '[' then s.openFlow .flowSequenceStart
      else if x == '\x7b' then s.openFlow .flowMappingStart
      else if x == ']' then s.closeFlow .flowSequenceEnd
      else if x == '\x7d' then s.closeFlow .flowMappingEnd
      else if x == ',' then s.comma
      else if x == '-' && atSpace rest then s.entry
      else if x == '?' && (s.inFlow || atSpace rest) then s.explicitKey
      else if x == ':' && (s.inFlow || atSpace rest) then s.value
      else if x == '*' then s.leaf fun c => (name? c).map fun r => (.alias r.1, r.2)
      else if x == '&' then s.leaf fun c => (name? c).map fun r => (.anchor r.1, r.2)
      else if x == '!' then s.leaf (tag? s.inFlow)
      else if x == '|' && !s.inFlow then s.blockScalar .literal
      else if x == '>' && !s.inFlow then s.blockScalar .folded
      else if x == '\'' then
        s.leaf fun c => (Scalar.quoted? '\'' c).map fun r => (.scalar .singleQuoted r.1, r.2)
      else if x == '"' then
        s.leaf fun c => (Scalar.quoted? '"' c).map fun r => (.scalar .doubleQuoted r.1, r.2)
      else if startsPlain s.inFlow c.rest then s.plainScalar
      else none

/-- All tokens from here on. Every token takes some of the text, so `fuel` stays above the length of what is
    left. -/
def tokensFrom : Nat → Scan → Option (Array Token)
  | 0, _ => none
  | fuel + 1, s =>
    match (skipSpace (fuel + 1) s).dropStaleKeys with
    | none => none
    | some s =>
      let s := s.closeBlocks s.cursor.column
      if s.cursor.rest.isEmpty then s.atEdge.map (·.tokens)
      else
        match s.token with
        | some s => tokensFrom fuel s
        | none => none

end Scan

/-- The tokens of a text, unless it holds characters that may not be there or breaks the rules for
    tokens. -/
def Token.ofText? (text : String) : Option (List Token) :=
  let cs := text.toList
  if cs.all isAllowed then (Scan.tokensFrom (cs.length + 2) { cursor := { rest := cs } }).map (·.toList)
  else none

end ConferenceBridge.Yaml
