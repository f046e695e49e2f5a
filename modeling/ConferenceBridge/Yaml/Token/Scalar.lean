import ConferenceBridge.Text.Numeral
import ConferenceBridge.Yaml.Token.Basic

/-! The text of scalars. Quoted and plain scalars may go over several lines: a single break between words
    is read as a space, and of several breaks the first is dropped. Block scalars keep their lines or
    fold them. Each function takes as fuel a bound on the steps it can need, which is the length of the
    text that is left. -/

namespace ConferenceBridge.Yaml.Scalar

/-! ### Between words -/

/-- What stands between two words of a scalar. -/
structure Gap where
  /-- The blanks before any break. -/
  blanks : List Char := []
  /-- A break is among it. -/
  broken : Bool := false
  /-- What the first break stands for. -/
  first : List Char := []
  /-- What the other breaks stand for. -/
  others : List Char := []

namespace Gap

/-- What a gap stands for. -/
def text (g : Gap) : List Char :=
  if !g.broken then g.blanks
  else if g.first == ['\n'] then (if g.others.isEmpty then [' '] else g.others)
  else g.first ++ g.others

/-- Passes over blanks and breaks. A tab before column `margin` of a later line is refused. -/
def read (margin : Int) : Nat → Gap → Cursor → Option (Gap × Cursor)
  | 0, _, _ => none
  | fuel + 1, g, c =>
    match c.rest with
    | [] => some (g, c)
    | x :: _ =>
      if isBlank x then
        if g.broken then
          if x == '\t' && (c.column : Int) < margin then none else read margin fuel g (c.skip 1)
        else read margin fuel { g with blanks := g.blanks ++ [x] } (c.skip 1)
      else if isBreak x then
        let (text, c) := c.readBreak
        if g.broken then read margin fuel { g with others := g.others ++ text } c
        else read margin fuel { g with blanks := [], broken := true, first := text } c
      else some (g, c)

end Gap

/-! ### Quoted scalars -/

/-- What a letter after a backslash stands for: a character, or so many hexadecimal digits. -/
def escaped? : Char → Option (Char ⊕ Nat)
  | '0' => some (.inl '\x00')
  | 'a' => some (.inl '\x07')
  | 'b' => some (.inl '\x08')
  | 't' => some (.inl '\t')
  | '\t' => some (.inl '\t')
  | 'n' => some (.inl '\n')
  | 'v' => some (.inl '\x0b')
  | 'f' => some (.inl '\x0c')
  | 'r' => some (.inl '\r')
  | 'e' => some (.inl '\x1b')
  | ' ' => some (.inl ' ')
  | '"' => some (.inl '"')
  | '/' => some (.inl '/')
  | '\\' => some (.inl '\\')
  | 'N' => some (.inl '\u0085')
  | '_' => some (.inl '\u00a0')
  | 'L' => some (.inl '\u2028')
  | 'P' => some (.inl '\u2029')
  | 'x' => some (.inr 2)
  | 'u' => some (.inr 4)
  | 'U' => some (.inr 8)
  | _ => none

/-- The character whose number has exactly these hexadecimal digits. -/
def codePoint? (width : Nat) (digits : List Char) : Option Char := do
  if digits.length ≠ width then none
  let n ← Text.numeral? 16 digits
  if (0xD800 ≤ n ∧ n ≤ 0xDFFF) ∨ 0x10FFFF < n then none else some (Char.ofNat n)

/-- The characters of a quoted scalar up to a blank, a break or the closing quote, put before those
    taken already in reverse. Tells whether it stopped at a break that a backslash has cancelled. -/
def quotedRun (quote : Char) : Nat → List Char → Cursor → Option (List Char × Bool × Cursor)
  | 0, _, _ => none
  | fuel + 1, taken, c =>
    match c.rest with
    | [] => some (taken, false, c)
    | x :: rest =>
      if isBlank x || isBreak x then some (taken, false, c)
      else if x == quote then
        if quote == '\'' && rest.head? == some '\'' then quotedRun quote fuel ('\'' :: taken) (c.skip 2)
        else some (taken, false, c)
      else if quote == '"' && x == '\\' then
        match rest with
        | [] => none
        | e :: digits =>
          if isBreak e then some (taken, true, (c.skip 1).skipBreak)
          else
            match escaped? e with
            | none => none
            | some (.inl y) => quotedRun quote fuel (y :: taken) (c.skip 2)
            | some (.inr width) =>
              match codePoint? width (digits.take width) with
              | some y => quotedRun quote fuel (y :: taken) (c.skip (2 + width))
              | none => none
      else quotedRun quote fuel (x :: taken) (c.skip 1)

/-- The rest of a quoted scalar after its opening quote, added to what is taken already in reverse. -/
def quotedRest (quote : Char) : Nat → List Char → Cursor → Option (String × Cursor)
  | 0, _, _ => none
  | fuel + 1, taken, c =>
    if c.isAtDocumentMarker || c.rest.isEmpty then none
    else
      match quotedRun quote (c.rest.length + 1) taken c with
      | none => none
      | some (taken, cancelled, c) =>
        if c.isAt quote then some (String.ofList taken.reverse, c.skip 1)
        else
          match Gap.read 0 (c.rest.length + 1) { broken := cancelled } c with
          | none => none
          | some (gap, c) => quotedRest quote fuel (gap.text.reverse ++ taken) c

/-- A quoted scalar, the cursor being at its opening quote. -/
def quoted? (quote : Char) (c : Cursor) : Option (String × Cursor) :=
  quotedRest quote (c.rest.length + 1) [] (c.skip 1)

/-! ### Plain scalars -/

/-- A character that ends a plain scalar inside brackets. -/
def isFlowMark (x : Char) : Bool := x == ',' || x == '[' || x == ']' || x == '\x7b' || x == '\x7d'

/-- A plain scalar ends before this text. -/
def endsPlain (flow : Bool) (cs : List Char) : Bool :=
  match cs with
  | [] => true
  | x :: rest => isBlank x || isBreak x || (x == ':' && atSpace rest) || (flow && isFlowMark x)

/-- A colon stands before a bracket or a comma inside brackets: it could be meant either way. -/
def isAmbiguous (flow : Bool) : List Char → Bool
  | ':' :: x :: _ => flow && (isFlowMark x || x == '?')
  | _ => false

/-- The characters of one word of a plain scalar, in reverse. -/
def plainWord (flow : Bool) : Nat → List Char → Cursor → Option (List Char × Cursor)
  | 0, _, _ => none
  | fuel + 1, word, c =>
    if isAmbiguous flow c.rest then none
    else if endsPlain flow c.rest then some (word, c)
    else
      match c.rest with
      | x :: _ => plainWord flow fuel (x :: word) (c.skip 1)
      | [] => some (word, c)

/-- The rest of a plain scalar, added to what is taken already in reverse; `gap` stands before its next
    word. Tells whether a break came last. -/
def plainRest (flow : Bool) (margin : Int) : Nat → List Char → Gap → Cursor →
    Option (String × Bool × Cursor)
  | 0, _, _, _ => none
  | fuel + 1, taken, gap, c =>
    let done (taken : List Char) (gap : Gap) (c : Cursor) :=
      some (String.ofList taken.reverse, gap.broken, c)
    if c.isAtDocumentMarker || c.isAt '#' then done taken gap c
    else
      match plainWord flow (c.rest.length + 1) [] c with
      | none => none
      | some (word, c) =>
        let (taken, gap) :=
          if word.isEmpty then (taken, gap) else (word ++ gap.text.reverse ++ taken, {})
        if c.rest.isEmpty || !atSpace c.rest then done taken gap c
        else
          match Gap.read margin (c.rest.length + 1) gap c with
          | none => none
          | some (gap, c) =>
            if !flow && (c.column : Int) < margin then done taken gap c
            else plainRest flow margin fuel taken gap c

/-- A plain scalar. Outside brackets its later lines have to be indented up to `margin`. Tells whether a
    break came last. -/
def plain? (flow : Bool) (margin : Int) (c : Cursor) : Option (String × Bool × Cursor) :=
  plainRest flow margin (c.rest.length + 1) [] {} c

/-! ### Block scalars -/

/-- What becomes of the breaks at the end of a block scalar. -/
inductive Chomping where
  /-- None is kept. -/
  | strip
  /-- One is kept. -/
  | clip
  /-- All are kept. -/
  | keep
  deriving DecidableEq

/-- A sign for the chomping. -/
def chomping? : Char → Option Chomping
  | '+' => some .keep
  | '-' => some .strip
  | _ => none

/-- An indentation from one to nine, or none if no digit is next. Zero is refused. -/
def indentation? (c : Cursor) : Option (Nat × Cursor) :=
  match c.rest with
  | x :: _ =>
    if x == '0' then none
    else if x.isDigit then some (x.toNat - '0'.toNat, c.skip 1)
    else some (0, c)
  | [] => some (0, c)

/-- The chomping and the indentation after the mark of a block scalar, in either order. -/
def header? (c : Cursor) : Option (Chomping × Nat × Cursor) :=
  match c.rest.head?.bind chomping? with
  | some chomping => (indentation? (c.skip 1)).map fun r => (chomping, r.1, r.2)
  | none => do
    let (n, c) ← indentation? c
    if n = 0 then return (.clip, 0, c)
    match c.rest.head?.bind chomping? with
    | some chomping => return (chomping, n, c.skip 1)
    | none => return (.clip, n, c)

/-- The empty lines before a line of a block scalar. Without a known indentation it is as deep as the
    deepest of them or the line itself, and at least `least`; a tab in the indentation is refused. Gives
    what the breaks stand for and the indentation. -/
def emptyLines (least : Int) : Nat → Nat → Nat → List Char → Cursor → Option (List Char × Nat × Cursor)
  | 0, _, _, _, _ => none
  | fuel + 1, indent, deepest, breaks, c =>
    let spaces := (c.rest.takeWhile (· == ' ')).length
    let c := c.skip (if indent = 0 then spaces else min spaces (indent - c.column))
    let deepest := max deepest c.column
    if (indent = 0 || c.column < indent) && c.isAt '\t' then none
    else
      match c.rest with
      | x :: _ =>
        if isBreak x then
          let (text, c) := c.readBreak
          emptyLines least fuel indent deepest (breaks ++ text) c
        else some (breaks, if indent = 0 then max deepest (max least 1).toNat else indent, c)
      | [] => some (breaks, if indent = 0 then max deepest (max least 1).toNat else indent, c)

/-- The lines of a block scalar, added to what is taken already in reverse. `pending` is the break after
    the last line and `empties` what the empty lines after it stand for; `wasBlank` tells that the last
    line began with a blank. Gives the text with the breaks that are left over at the end. -/
def blockLines (folded : Bool) (indent : Nat) : Nat → List Char → Bool → List Char → List Char → Cursor →
    Option (List Char × List Char × List Char × Cursor)
  | 0, _, _, _, _, _ => none
  | fuel + 1, taken, wasBlank, pending, empties, c =>
    match c.rest with
    | [] => some (taken, pending, empties, c)
    | x :: _ =>
      if c.column ≠ indent then some (taken, pending, empties, c)
      else
        let blank := isBlank x
        let joint :=
          if folded && pending == ['\n'] && !wasBlank && !blank then
            (if empties.isEmpty then [' '] else [])
          else pending
        let line := c.rest.takeWhile (!isBreak ·)
        let (pending, c') := (c.skip line.length).readBreak
        match emptyLines 0 (c'.rest.length + 1) indent 0 [] c' with
        | none => none
        | some (empties', _, c') =>
          blockLines folded indent fuel (line.reverse ++ (joint ++ empties).reverse ++ taken) blank pending
            empties' c'

/-- A block scalar, the cursor being at its mark. `parent` is the indentation it has to exceed. -/
def block? (folded : Bool) (parent : Int) (c : Cursor) : Option (String × Cursor) := do
  let (chomping, given, c) ← header? (c.skip 1)
  let c := c.skipTrailer
  if !atBreak c.rest then none
  let c := c.skipBreak
  let indent := if given = 0 then 0 else (max parent 0).toNat + given
  let (empties, indent, c) ← emptyLines (parent + 1) (c.rest.length + 1) indent 0 [] c
  let (taken, pending, empties, c) ← blockLines folded indent (c.rest.length + 1) [] false [] empties c
  let tail := match chomping with
    | .strip => []
    | .clip => pending
    | .keep => pending ++ empties
  return (String.ofList (taken.reverse ++ tail), c)

end ConferenceBridge.Yaml.Scalar
