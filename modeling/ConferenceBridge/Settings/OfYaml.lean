import ConferenceBridge.Codec
import ConferenceBridge.Yaml.Document
import ConferenceBridge.Yaml.Word

/-! The settings of a directory, read from YAML. Whatever is left out or left empty has its default.
    Unknown fields are passed over, a field given twice is refused, and of two profiles of one name the
    later counts. -/

namespace ConferenceBridge

/-! ### The values of a document -/

namespace Yaml

/-- The scalar may hold a number or a truth value: it is plain, or literal with the tag of its kind. -/
def mayHold (kind : String) (tag : Option Tag) (style : Style) : Bool :=
  style == .plain || (style == .literal && tag == some (.core kind))

/-- Nothing is written, or the word that says so. -/
def saysNothing (style : Style) (text : String) : Bool :=
  style == .plain && (text == "" || Word.isNull text)

namespace Document

/-- A truth value. -/
def bool (d : Document) (v : Value) : Reading Bool := do
  match ← d.resolve v with
  | .scalar tag style text => if mayHold "bool" tag style then Word.bool? text else failure
  | _ => failure

/-- A limit: absent when nothing is written or the word says so, and no tag stands before it. Where the tag
    says that there is nothing, the word has to. -/
def limit (d : Document) (v : Value) : Reading (Option Nat) := do
  match ← d.resolve v with
  | .scalar tag style text =>
    if tag == none && saysNothing style text then return none
    else if style == .plain && tag == some (.core "null") then
      if Word.isNull text then return none else failure
    else if mayHold "int" tag style then
      let n ← (Word.natural? text).filter (· < Codec.limitBound)
      return some n
    else failure
  | _ => failure

/-- One of several words: written as it is, or as a private tag with nothing else. -/
def word (d : Document) (v : Value) : Reading String := do
  match ← d.resolve v with
  | .scalar tag style text =>
    match tag.bind Tag.privateWord? with
    | some word => if saysNothing style text then return word else failure
    | none => return text
  | _ => failure

/-- The entries of a mapping by name. Where nothing is written there are none. -/
def entries (d : Document) (v : Value) : Reading (List (String × Value)) := do
  match ← d.resolve v with
  | .mapping _ entries =>
    entries.mapM fun e => do
      match ← d.resolve e.1 with
      | .scalar _ _ name => return (name, e.2)
      | _ => failure
  | .scalar _ .plain text => if text == "" then return [] else failure
  | _ => failure

/-- The fields of a record. None of those it has may be given twice. -/
def fields (d : Document) (names : List String) (v : Value) : Reading (List (String × Value)) := do
  let entries ← d.entries v
  if names.all fun name => (entries.map (·.1)).count name ≤ 1 then return entries else failure

end Document

/-- The value of a field, or its default when it is not given. -/
def field {α : Type} (fields : List (String × Value)) (name : String) (default : α)
    (read : Value → Reading α) : Reading α :=
  match fields.lookup name with
  | some v => read v
  | none => pure default

end Yaml

open Yaml

/-! ### Settings -/

def Policy.ofYaml (d : Document) (v : Value) : Reading Policy := do
  let word ← d.word v
  ofLabel? word

def Profile.ofYaml (d : Document) (v : Value) : Reading Profile := do
  let fs ← d.fields fieldNames v
  let marked ← field fs "marked" false d.bool
  let waitMarked ← field fs "wait_marked" false d.bool
  let endMarked ← field fs "end_marked" false d.bool
  let musicOnHold ← field fs "music_on_hold" false d.bool
  let quiet ← field fs "quiet" false d.bool
  return { marked, waitMarked, endMarked, musicOnHold, quiet }

def ConferenceSettings.ofYaml (d : Document) (v : Value) : Reading ConferenceSettings := do
  let fs ← d.fields fieldNames v
  let maxMembers ← field fs "max_members" none d.limit
  let policy ← field fs "demotion_policy" .demoteWaitMarked (Policy.ofYaml d)
  return { maxMembers, policy }

def Profiles.ofYaml (d : Document) (v : Value) : Reading Profiles := do
  let entries ← d.entries v
  let profiles ← entries.mapM fun e => do return (e.1, ← Profile.ofYaml d e.2)
  return ofList profiles

namespace DirectorySettings

/-- The settings that a document describes. -/
def ofYaml (d : Document) : Reading DirectorySettings := do
  let fs ← d.fields fieldNames d.root
  let maxConferences ← field fs "max_conferences" none d.limit
  let conference ← field fs "conference" {} (ConferenceSettings.ofYaml d)
  let profiles ← field fs "profiles" {} (Profiles.ofYaml d)
  return { maxConferences, conference, profiles }

/-- The settings that a text describes, if it describes any. -/
def ofText? (text : String) : Option DirectorySettings := do
  let d ← Document.ofText? text
  d.run? (ofYaml d)

/-- Why a text cannot be used as settings. -/
inductive Unusable where
  /-- The text is no YAML, or does not describe settings. -/
  | unreadable
  /-- The settings make no sense. -/
  | invalid (e : BridgeError)

/-- The settings that a text describes, if they can be used. -/
def load (text : String) : Except Unusable DirectorySettings :=
  match ofText? text with
  | none => .error .unreadable
  | some s =>
    match s.validate with
    | .ok _ => .ok s
    | .error e => .error (.invalid e)

end DirectorySettings
end ConferenceBridge
