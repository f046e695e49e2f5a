import ConferenceBridge.Yaml.Token.Basic

/-! The tree that some tokens stand for. A node may be named by an anchor and stand again, by an alias,
    wherever its name is used later. -/

namespace ConferenceBridge.Yaml

inductive Node where
  | scalar (anchor : Option String) (tag : Option Tag) (style : Style) (text : String)
  | sequence (anchor : Option String) (tag : Option Tag) (items : List Node)
  | mapping (anchor : Option String) (tag : Option Tag) (entries : List (Node × Node))
  | alias (name : String)
  deriving Inhabited

namespace Node

/-- What stands where nothing is written. -/
def blank : Node := .scalar none none .plain ""

/-- What a handle is short for. -/
abbrev Shorthands := List (String × Tag)

/-- The handles that need no directive. -/
def standardShorthands : Shorthands := [("!", .ofString "!"), ("!!", .core "")]

/-- A tag in full. A handle that nothing explains is refused. -/
def resolveTag? (shorthands : Shorthands) (t : TagText) : Option Tag :=
  if t.handle == "" then some t.suffix
  else (shorthands.lookup t.handle).map (·.append t.suffix)

/-- An anchor and a tag at the front, in either order. -/
def properties : List Token → Option String × Option TagText × List Token
  | .anchor a :: .tag t :: rest | .tag t :: .anchor a :: rest => (some a, some t, rest)
  | .anchor a :: rest => (some a, none, rest)
  | .tag t :: rest => (none, some t, rest)
  | rest => (none, none, rest)

/-- The next token is one of these, or there is none. -/
def isNext (ts : List Token) (those : List Token) : Bool :=
  match ts with
  | [] => false
  | t :: _ => those.contains t

mutual

/-- A node. `block` allows block collections, `indentless` a sequence of entries that are not indented. -/
def ofTokens? (sh : Shorthands) (block indentless : Bool) : Nat → List Token →
    Option (Node × List Token)
  | 0, _ => none
  | _ + 1, .alias name :: rest => some (.alias name, rest)
  | fuel + 1, ts =>
    let (anchor, tagText, rest) := properties ts
    match tagText.mapM (resolveTag? sh) with
    | none => none
    | some tag =>
      if indentless && isNext rest [.entry] then
        (indentlessItems? sh fuel rest).map fun r => (.sequence anchor tag r.1, r.2)
      else
        match rest with
        | .scalar style text :: rest => some (.scalar anchor tag style text, rest)
        | .flowSequenceStart :: rest =>
          (flowItems? sh true fuel rest).map fun r => (.sequence anchor tag r.1, r.2)
        | .flowMappingStart :: rest =>
          (flowEntries? sh true fuel rest).map fun r => (.mapping anchor tag r.1, r.2)
        | rest =>
          if block && isNext rest [.sequenceStart] then
            (blockItems? sh fuel (rest.drop 1)).map fun r => (.sequence anchor tag r.1, r.2)
          else if block && isNext rest [.mappingStart] then
            (blockEntries? sh fuel (rest.drop 1)).map fun r => (.mapping anchor tag r.1, r.2)
          else if anchor.isSome || tag.isSome then some (.scalar anchor tag .plain "", rest)
          else none

/-- A node, or nothing before one of these tokens. -/
def nodeBefore? (sh : Shorthands) (block indentless : Bool) (stop : List Token) :
    Nat → List Token → Option (Node × List Token)
  | 0, _ => none
  | fuel + 1, ts => if isNext ts stop then some (blank, ts) else ofTokens? sh block indentless fuel ts

/-- The entries of a block sequence up to its end. -/
def blockItems? (sh : Shorthands) : Nat → List Token → Option (List Node × List Token)
  | 0, _ => none
  | _ + 1, .blockEnd :: rest => some ([], rest)
  | fuel + 1, .entry :: rest =>
    match nodeBefore? sh true false [.entry, .blockEnd] fuel rest with
    | none => none
    | some (item, rest) => (blockItems? sh fuel rest).map fun r => (item :: r.1, r.2)
  | _ + 1, _ => none

/-- The entries of a sequence that is not indented, up to anything else. -/
def indentlessItems? (sh : Shorthands) : Nat → List Token → Option (List Node × List Token)
  | 0, _ => none
  | fuel + 1, .entry :: rest =>
    match nodeBefore? sh true false [.entry, .key, .value, .blockEnd] fuel rest with
    | none => none
    | some (item, rest) => (indentlessItems? sh fuel rest).map fun r => (item :: r.1, r.2)
  | _ + 1, rest => some ([], rest)

/-- The value after a key, if there is one. -/
def blockValue? (sh : Shorthands) : Nat → List Token → Option (Node × List Token)
  | 0, _ => none
  | fuel + 1, .value :: rest => nodeBefore? sh true true [.key, .value, .blockEnd] fuel rest
  | _ + 1, rest => some (blank, rest)

/-- The entries of a block mapping up to its end. -/
def blockEntries? (sh : Shorthands) : Nat → List Token → Option (List (Node × Node) × List Token)
  | 0, _ => none
  | _ + 1, .blockEnd :: rest => some ([], rest)
  | fuel + 1, .key :: rest =>
    match nodeBefore? sh true true [.key, .value, .blockEnd] fuel rest with
    | none => none
    | some (key, rest) =>
      match blockValue? sh fuel rest with
      | none => none
      | some (value, rest) => (blockEntries? sh fuel rest).map fun r => ((key, value) :: r.1, r.2)
  | _ + 1, _ => none

/-- The value after a key inside brackets, if there is one before they go on. -/
def flowValue? (sh : Shorthands) (close : Token) : Nat → List Token → Option (Node × List Token)
  | 0, _ => none
  | fuel + 1, .value :: rest => nodeBefore? sh false false [.comma, close] fuel rest
  | _ + 1, rest => some (blank, rest)

/-- The items of a flow sequence up to its end; commas stand between them and may stand after the last.
    A key makes an item a mapping of one entry. A key of which nothing is written takes the token after
    it away. -/
def flowItems? (sh : Shorthands) (first : Bool) : Nat → List Token → Option (List Node × List Token)
  | 0, _ => none
  | _ + 1, .flowSequenceEnd :: rest => some ([], rest)
  | fuel + 1, ts =>
    let rest := if first then some ts else match ts with
      | .comma :: rest => some rest
      | _ => none
    match rest with
    | none => none
    | some (.flowSequenceEnd :: rest) => some ([], rest)
    | some (.key :: rest) =>
      let key :=
        if isNext rest [.value, .comma, .flowSequenceEnd] then some (blank, rest.drop 1)
        else ofTokens? sh false false fuel rest
      match key with
      | none => none
      | some (key, rest) =>
        match flowValue? sh .flowSequenceEnd fuel rest with
        | none => none
        | some (value, rest) =>
          (flowItems? sh false fuel rest).map fun r => (.mapping none none [(key, value)] :: r.1, r.2)
    | some rest =>
      match ofTokens? sh false false fuel rest with
      | none => none
      | some (item, rest) => (flowItems? sh false fuel rest).map fun r => (item :: r.1, r.2)

/-- The entries of a flow mapping up to its end; commas stand between them and may stand after the last.
    What no key stands before has no value. -/
def flowEntries? (sh : Shorthands) (first : Bool) :
    Nat → List Token → Option (List (Node × Node) × List Token)
  | 0, _ => none
  | _ + 1, .flowMappingEnd :: rest => some ([], rest)
  | fuel + 1, ts =>
    let rest := if first then some ts else match ts with
      | .comma :: rest => some rest
      | _ => none
    match rest with
    | none => none
    | some (.flowMappingEnd :: rest) => some ([], rest)
    | some (.key :: rest) =>
      match nodeBefore? sh false false [.value, .comma, .flowMappingEnd] fuel rest with
      | none => none
      | some (key, rest) =>
        match flowValue? sh .flowMappingEnd fuel rest with
        | none => none
        | some (value, rest) =>
          (flowEntries? sh false fuel rest).map fun r => ((key, value) :: r.1, r.2)
    | some rest =>
      match ofTokens? sh false false fuel rest with
      | none => none
      | some (key, rest) =>
        (flowEntries? sh false fuel rest).map fun r => ((key, blank) :: r.1, r.2)

end

/-! ### Documents -/

/-- The directives before a document: at most one version, and a handle explained once. Only versions 1.1
    and 1.2 are known. -/
def directives? (version : Bool) (own : Shorthands) : List Token → Option (Shorthands × List Token)
  | .version major minor :: rest =>
    if version || major != 1 || (minor != 1 && minor != 2) then none else directives? true own rest
  | .shorthand handle lead :: rest =>
    if own.any (·.1 == handle) then none else directives? version (own ++ [(handle, lead)]) rest
  | rest => some (own ++ standardShorthands, rest)

/-- A token that stands at the edge of a document. -/
def isEdge : Token → Bool
  | .version .. | .shorthand .. | .documentStart | .documentEnd => true
  | _ => false

/-- What is left after a document may only be the marks of its end. -/
def endsStream (ts : List Token) : Bool := ts.all (· == .documentEnd)

/-- The one document of a text. -/
inductive Stream where
  /-- There is no document. -/
  | empty
  | document (root : Node)

/-- The document that all the tokens make up. A second one is refused. -/
def stream? (ts : List Token) : Option Stream := do
  if ts.isEmpty then return .empty
  let (sh, rest) ← directives? false [] ts
  let explicit := isNext rest [.documentStart]
  if !explicit && (rest.length != ts.length || rest.isEmpty) then none
  let rest := if explicit then rest.drop 1 else rest
  let (root, rest) ←
    if explicit && rest.head?.all isEdge then some (blank, rest)
    else ofTokens? sh true false (4 * rest.length + 4) rest
  if endsStream rest then return .document root else none

end Node
end ConferenceBridge.Yaml
