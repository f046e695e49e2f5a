import ConferenceBridge.Action
import ConferenceBridge.Json.Basic
import ConferenceBridge.Settings.Basic

/-! Values of the bridge written as JSON and read back. A record is written as an object with all its
    fields. It is read from an object, where unknown fields are passed over, or from an array that gives
    the fields in order; options and settings have defaults for what is left out, and everything else
    is required. -/

namespace ConferenceBridge

namespace Codec

/-- Limits are below this. -/
def limitBound : Nat := UInt64.size

/-- A name for one of several values: the word alone, or an object whose one field has that name and
    says no more. -/
def word? (saysNothing : Json → Bool) : Json → Option String
  | .str s => some s
  | .obj [(name, value)] => if saysNothing value then some name else none
  | _ => none

def isNull : Json → Bool
  | .null => true
  | _ => false

/-- Inside a notification an empty object says nothing either. -/
def isNullOrEmpty : Json → Bool
  | .null | .obj [] => true
  | _ => false

def bool? : Json → Option Bool
  | .bool b => some b
  | _ => none

def string? : Json → Option String
  | .str s => some s
  | _ => none

/-- A limit: absent when it is null, else a whole number below the bound. -/
def limit? : Json → Option (Option Nat)
  | .null => some none
  | .int n => if 0 ≤ n ∧ n.toNat < limitBound then some (some n.toNat) else none
  | _ => none

/-- What is given for the fields of a record, by name or by place. -/
def given? (names : List String) : Json → Option (List (Option Json))
  | .obj fields => some (names.map fun name => fields.lookup name)
  | .arr items =>
    if items.length ≤ names.length then some ((List.range names.length).map (items[·]?)) else none
  | _ => none

/-- The value of a field, or its default when nothing is given. -/
def optional {α : Type} (default : α) (read : Json → Option α) : Option Json → Option α
  | some j => read j
  | none => some default

/-- The value of a field that has to be given. -/
def required {α : Type} (read : Json → Option α) (given : Option Json) : Option α := given.bind read

/-- A limit, null when it is absent. -/
def limit : Option Nat → Json
  | some n => .nat n
  | none => .null

end Codec

open Codec

def State.toJson (s : State) : Json := .str s.label

def State.ofJson? (j : Json) : Option State := (word? isNull j).bind ofLabel?

def Event.toJson (e : Event) : Json := .str e.label

def Event.ofJson? (j : Json) : Option Event := (word? isNull j).bind ofLabel?

def Membership.toJson (m : Membership) : Json := .str m.label

def Membership.ofJson? (j : Json) : Option Membership := (word? isNull j).bind ofLabel?

def Role.toJson (r : Role) : Json := .str r.label

def Role.ofJson? (j : Json) : Option Role := (word? isNull j).bind ofLabel?

def Prompt.toJson (p : Prompt) : Json := .str p.label

def Prompt.ofJson? (j : Json) : Option Prompt := (word? isNull j).bind ofLabel?

def Policy.toJson (p : Policy) : Json := .str p.label

def Policy.ofJson? (j : Json) : Option Policy := (word? isNull j).bind ofLabel?

namespace Profile

def fieldNames : List String := ["marked", "wait_marked", "end_marked", "music_on_hold", "quiet"]

def toJson (p : Profile) : Json :=
  .obj [("marked", .bool p.marked), ("wait_marked", .bool p.waitMarked),
    ("end_marked", .bool p.endMarked), ("music_on_hold", .bool p.musicOnHold), ("quiet", .bool p.quiet)]

def ofJson? (j : Json) : Option Profile :=
  match given? fieldNames j with
  | some [marked, waitMarked, endMarked, musicOnHold, quiet] => do
    let marked ← optional false bool? marked
    let waitMarked ← optional false bool? waitMarked
    let endMarked ← optional false bool? endMarked
    let musicOnHold ← optional false bool? musicOnHold
    let quiet ← optional false bool? quiet
    return { marked, waitMarked, endMarked, musicOnHold, quiet }
  | _ => none

end Profile

namespace Participant

def fieldNames : List String := ["id", "profile"]

def toJson (p : Participant) : Json := .obj [("id", .str p.id), ("profile", p.profile.toJson)]

def ofJson? (j : Json) : Option Participant :=
  match given? fieldNames j with
  | some [id, profile] => do
    let id ← required string? id
    let profile ← required Profile.ofJson? profile
    return { id, profile }
  | _ => none

end Participant

namespace ConferenceSettings

def fieldNames : List String := ["max_members", "demotion_policy"]

def toJson (s : ConferenceSettings) : Json :=
  .obj [("max_members", limit s.maxMembers), ("demotion_policy", s.policy.toJson)]

def ofJson? (j : Json) : Option ConferenceSettings :=
  match given? fieldNames j with
  | some [maxMembers, policy] => do
    let maxMembers ← optional none limit? maxMembers
    let policy ← optional .demoteWaitMarked Policy.ofJson? policy
    return { maxMembers, policy }
  | _ => none

end ConferenceSettings

namespace Profiles

def toJson (ps : Profiles) : Json := .obj (ps.entries.map fun e => (e.1, e.2.toJson))

/-- Named values, each read as a profile. -/
def entries? : List (String × Json) → Option (List (String × Profile))
  | [] => some []
  | (name, j) :: rest => do
    let profile ← Profile.ofJson? j
    let profiles ← entries? rest
    return (name, profile) :: profiles

def ofJson? : Json → Option Profiles
  | .obj fields => (entries? fields).map ofList
  | _ => none

end Profiles

namespace DirectorySettings

def fieldNames : List String := ["max_conferences", "conference", "profiles"]

def toJson (s : DirectorySettings) : Json :=
  .obj [("max_conferences", limit s.maxConferences), ("conference", s.conference.toJson),
    ("profiles", s.profiles.toJson)]

def ofJson? (j : Json) : Option DirectorySettings :=
  match given? fieldNames j with
  | some [maxConferences, conference, profiles] => do
    let maxConferences ← optional none limit? maxConferences
    let conference ← optional {} ConferenceSettings.ofJson? conference
    let profiles ← optional {} Profiles.ofJson? profiles
    return { maxConferences, conference, profiles }
  | _ => none

end DirectorySettings

namespace Notification

/-- The kinds of notification. -/
inductive Kind where
  | stateChanged
  | conferenceStarted
  | conferenceEnded
  | participantJoined
  | participantLeft
  | invalidEvent
  deriving DecidableEq

namespace Kind

/-- Every kind. -/
def all : List Kind :=
  [.stateChanged, .conferenceStarted, .conferenceEnded, .participantJoined, .participantLeft,
    .invalidEvent]

/-- The word that tells the kind. -/
def tag : Kind → String
  | .stateChanged => "state_changed"
  | .conferenceStarted => "conference_started"
  | .conferenceEnded => "conference_ended"
  | .participantJoined => "participant_joined"
  | .participantLeft => "participant_left"
  | .invalidEvent => "invalid_event"

def ofTag? (text : String) : Option Kind := all.find? (·.tag == text)

/-- The fields of a kind, in order. -/
def fieldNames : Kind → List String
  | .stateChanged => ["conference", "old_state", "new_state"]
  | .conferenceStarted | .conferenceEnded => ["conference"]
  | .participantJoined => ["conference", "participant", "membership"]
  | .participantLeft => ["conference", "participant"]
  | .invalidEvent => ["conference", "participant", "event", "state"]

end Kind

def kind : Notification → Kind
  | .stateChanged .. => .stateChanged
  | .conferenceStarted _ => .conferenceStarted
  | .conferenceEnded _ => .conferenceEnded
  | .participantJoined .. => .participantJoined
  | .participantLeft .. => .participantLeft
  | .invalidEvent .. => .invalidEvent

/-- The texts of the fields, in the order of `Kind.fieldNames`. -/
def fieldTexts : Notification → List String
  | .stateChanged conference old new => [conference, old.label, new.label]
  | .conferenceStarted conference | .conferenceEnded conference => [conference]
  | .participantJoined conference participant membership =>
    [conference, participant, membership.label]
  | .participantLeft conference participant => [conference, participant]
  | .invalidEvent conference participant event state =>
    [conference, participant, event.label, state.label]

/-- The name of every field with its text, the kind first. -/
def entries (n : Notification) : List (String × String) :=
  ("type", n.kind.tag) :: n.kind.fieldNames.zip n.fieldTexts

def toJson (n : Notification) : Json := .obj (n.entries.map fun e => (e.1, .str e.2))

/-- A word for one of several values, in a field of a notification. -/
def labelled? {α : Type} (ofLabel? : String → Option α) (j : Json) : Option α :=
  (word? isNullOrEmpty j).bind ofLabel?

/-- A notification of a kind from what is given for its fields. -/
def ofGiven? : Kind → List (Option Json) → Option Notification
  | .stateChanged, [conference, old, new] => do
    let conference ← required string? conference
    let old ← required (labelled? State.ofLabel?) old
    let new ← required (labelled? State.ofLabel?) new
    return .stateChanged conference old new
  | .conferenceStarted, [conference] => (required string? conference).map .conferenceStarted
  | .conferenceEnded, [conference] => (required string? conference).map .conferenceEnded
  | .participantJoined, [conference, participant, membership] => do
    let conference ← required string? conference
    let participant ← required string? participant
    let membership ← required (labelled? Membership.ofLabel?) membership
    return .participantJoined conference participant membership
  | .participantLeft, [conference, participant] => do
    let conference ← required string? conference
    let participant ← required string? participant
    return .participantLeft conference participant
  | .invalidEvent, [conference, participant, event, state] => do
    let conference ← required string? conference
    let participant ← required string? participant
    let event ← required (labelled? Event.ofLabel?) event
    let state ← required (labelled? State.ofLabel?) state
    return .invalidEvent conference participant event state
  | _, _ => none

/-- The kind that a value tells, and the value without it. -/
def tagged? : Json → Option (Kind × Json)
  | .obj fields => do
    let tag ← (fields.lookup "type").bind string?
    let kind ← Kind.ofTag? tag
    return (kind, .obj fields)
  | .arr (tag :: items) => do
    let kind ← (string? tag).bind Kind.ofTag?
    return (kind, .arr items)
  | _ => none

def ofJson? (j : Json) : Option Notification := do
  let (kind, rest) ← tagged? j
  let given ← given? kind.fieldNames rest
  ofGiven? kind given

end Notification
end ConferenceBridge
