import ConferenceBridge.Yaml.Node
import ConferenceBridge.Yaml.Token.OfText

/-! A document whose names are told apart by slots. A name takes the slot numbered by how many different
    names came before it, so using a name again gives it a new slot, which a new name may then take
    over. An alias stands for whatever came last into the slot that its name had at that place.

    To read a document is to follow its aliases, and a few of them make a short text stand for a long one. So
    their number is bounded, and a reading that would follow more fails. -/

namespace ConferenceBridge.Yaml

inductive Value where
  | scalar (tag : Option Tag) (style : Style) (text : String)
  | sequence (tag : Option Tag) (items : List Value)
  | mapping (tag : Option Tag) (entries : List (Value × Value))
  | alias (slot : Nat)
  deriving Inhabited

/-- A value that was put into a slot, and how many nodes began before it. -/
structure Anchored where
  slot : Nat
  order : Nat
  value : Value

/-- What has been seen of a document. -/
structure Numbering where
  /-- The slot of every name. -/
  names : List (String × Nat) := []
  anchored : List Anchored := []
  /-- How many nodes have begun. -/
  count : Nat := 0

namespace Numbering

/-- A node begins, perhaps with a name. Gives the slot of the name. -/
def enter (n : Numbering) (anchor : Option String) : Option Nat × Numbering :=
  let n' := { n with count := n.count + 1 }
  match anchor with
  | none => (none, n')
  | some name =>
    let slot := n.names.length
    (some slot, { n' with names := (name, slot) :: n.names.filter (·.1 != name) })

/-- A node has ended that began after so many others, perhaps with a slot. -/
def leave (n : Numbering) (slot : Option Nat) (order : Nat) (value : Value) : Numbering :=
  match slot with
  | none => n
  | some slot => { n with anchored := ⟨slot, order, value⟩ :: n.anchored }

end Numbering

namespace Value

mutual

/-- The value of a node. An alias of a name that has not occurred is refused. -/
def ofNode? : Node → Numbering → Option (Value × Numbering)
  | .scalar anchor tag style text, n =>
    let (slot, n') := n.enter anchor
    let v := .scalar tag style text
    some (v, n'.leave slot n.count v)
  | .sequence anchor tag items, n =>
    let (slot, n') := n.enter anchor
    match ofItems? items n' with
    | none => none
    | some (items, n') =>
      let v := .sequence tag items
      some (v, n'.leave slot n.count v)
  | .mapping anchor tag entries, n =>
    let (slot, n') := n.enter anchor
    match ofEntries? entries n' with
    | none => none
    | some (entries, n') =>
      let v := .mapping tag entries
      some (v, n'.leave slot n.count v)
  | .alias name, n =>
    (n.names.lookup name).map fun slot => (.alias slot, { n with count := n.count + 1 })

/-- The values of some nodes in order. -/
def ofItems? : List Node → Numbering → Option (List Value × Numbering)
  | [], n => some ([], n)
  | item :: items, n =>
    match ofNode? item n with
    | none => none
    | some (v, n) => (ofItems? items n).map fun r => (v :: r.1, r.2)

/-- The values of some entries in order, the key before its value. -/
def ofEntries? : List (Node × Node) → Numbering → Option (List (Value × Value) × Numbering)
  | [], n => some ([], n)
  | (key, value) :: entries, n =>
    match ofNode? key n with
    | none => none
    | some (k, n) =>
      match ofNode? value n with
      | none => none
      | some (v, n) => (ofEntries? entries n).map fun r => ((k, v) :: r.1, r.2)

end

mutual

/-- How many parts a value is written in: a collection has its start and its end besides what it holds. -/
def parts : Value → Nat
  | .scalar .. | .alias _ => 1
  | .sequence _ items => 2 + partsOfItems items
  | .mapping _ entries => 2 + partsOfEntries entries

def partsOfItems : List Value → Nat
  | [] => 0
  | item :: items => item.parts + partsOfItems items

def partsOfEntries : List (Value × Value) → Nat
  | [] => 0
  | (key, value) :: entries => key.parts + value.parts + partsOfEntries entries

end

end Value

/-- A reading of a document, which may fail. It knows how many aliases it may still follow. -/
abbrev Reading (α : Type) : Type := StateT Nat Option α

/-- The value of a document, and what its aliases stand for. -/
structure Document where
  root : Value
  anchored : List Anchored := []

namespace Document

/-- The document of a text, unless the text is no YAML or holds several. Without any document, nothing
    is written. -/
def ofText? (text : String) : Option Document := do
  let tokens ← Token.ofText? text
  match ← Node.stream? tokens with
  | .empty => return { root := .scalar none .plain "" }
  | .document node =>
    let (root, n) ← Value.ofNode? node {}
    return { root, anchored := n.anchored }

/-- What came last into a slot. -/
def inSlot? (d : Document) (slot : Nat) : Option Value :=
  let entries := d.anchored.filter (·.slot == slot)
  let last := entries.foldl (fun m a => max m a.order) 0
  (entries.find? (·.order == last)).map (·.value)

/-- What a value stands for. An alias is followed, as long as one may be. -/
def resolve (d : Document) : Value → Reading Value
  | .alias slot => fun
    | 0 => none
    | left + 1 => (d.inSlot? slot).map (·, left)
  | v => pure v

/-- As many aliases may be followed: a hundred for each part of the document. -/
def aliasBound (d : Document) : Nat := 100 * d.root.parts

/-- What a reading makes of the document, unless it fails. -/
def run? {α : Type} (d : Document) (reading : Reading α) : Option α := reading.run' d.aliasBound

end Document
end ConferenceBridge.Yaml
