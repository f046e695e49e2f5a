/-! The tags of nodes. A tag is a run of bytes rather than a text, because escapes in it may spell bytes that
    no text has. The byte zero ends it. -/

namespace ConferenceBridge.Yaml

structure Tag where
  bytes : List UInt8
  deriving DecidableEq

namespace Tag

/-- The bytes as far as they belong to a tag. -/
def ofBytes (bytes : List UInt8) : Tag := ⟨bytes.takeWhile (· != 0)⟩

def ofString (s : String) : Tag := ofBytes (s.toList.flatMap String.utf8EncodeChar)

/-- One after the other: what a handle is short for, and the rest of the tag. -/
def append (a b : Tag) : Tag := ⟨a.bytes ++ b.bytes⟩

/-- The tag of this kind of scalar. -/
def core (kind : String) : Tag := ofString ("tag:yaml.org,2002:" ++ kind)

/-- The word after the exclamation mark of a private tag. Where the bytes are no text there is none. -/
def privateWord? (t : Tag) : Option String :=
  match t.bytes with
  | [] => none
  | b :: rest => if b == 0x21 then String.fromUTF8? rest.toByteArray else none

end Tag
end ConferenceBridge.Yaml
