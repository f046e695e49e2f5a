import ConferenceBridge.Table.Basic
import ConferenceBridge.Text.Quoted

/-! Values spelled out in full, as log lines and reports show them: the kind of the value, then each
    field with its name. -/

namespace ConferenceBridge

namespace Describe

/-- A kind of value with its fields in order. -/
def fields (kind : String) (entries : List (String × String)) : String :=
  kind ++ " \x7b " ++ ", ".intercalate (entries.map fun e => e.1 ++ ": " ++ e.2) ++ " \x7d"

/-- A kind of value that wraps one other. -/
def wrapped (kind inner : String) : String := kind ++ "(" ++ inner ++ ")"

/-- A list of values. -/
def list (items : List String) : String := "[" ++ ", ".intercalate items ++ "]"

def bool (b : Bool) : String := if b then "true" else "false"

/-- The identifier of a participant. -/
def participantId (id : String) : String := wrapped "ParticipantId" (Text.quoted id)

end Describe

open Describe

def Profile.describe (p : Profile) : String :=
  fields "UserProfile" [
    ("marked", bool p.marked), ("wait_marked", bool p.waitMarked), ("end_marked", bool p.endMarked),
    ("music_on_hold", bool p.musicOnHold), ("quiet", bool p.quiet)]

def Participant.describe (p : Participant) : String :=
  fields "ParticipantInfo" [("id", participantId p.id), ("profile", p.profile.describe)]

def Notification.describe : Notification → String
  | .stateChanged conference old new =>
    fields "StateChanged" [
      ("conference", Text.quoted conference), ("old_state", old.label), ("new_state", new.label)]
  | .conferenceStarted conference =>
    fields "ConferenceStarted" [("conference", Text.quoted conference)]
  | .conferenceEnded conference => fields "ConferenceEnded" [("conference", Text.quoted conference)]
  | .participantJoined conference participant membership =>
    fields "ParticipantJoined" [
      ("conference", Text.quoted conference), ("participant", participantId participant),
      ("membership", membership.label)]
  | .participantLeft conference participant =>
    fields "ParticipantLeft" [
      ("conference", Text.quoted conference), ("participant", participantId participant)]
  | .invalidEvent conference participant event state =>
    fields "InvalidEvent" [
      ("conference", Text.quoted conference), ("participant", participantId participant),
      ("event", event.label), ("state", state.label)]

def Action.describe : Action → String
  | .wait p => fields "Wait" [("participant", p.describe)]
  | .mix p => fields "Admit" [("participant", p.describe)]
  | .endSolo p => fields "SecondActive" [("participant", p.describe)]
  | .releaseAll ps => fields "ReleaseAll" [("participants", list (ps.map (·.describe)))]
  | .kick p => fields "Kick" [("participant", p.describe)]
  | .playPrompt id prompt =>
    fields "PlayPrompt" [("participant", participantId id), ("prompt", prompt.label)]
  | .announce prompt => fields "Announce" [("prompt", prompt.label)]
  | .publish n => wrapped "Publish" n.describe

/-- A state with what a table has for it, the names of its events in the order of their characters. -/
def Descriptor.describe (d : Descriptor) (s : State) : String :=
  let names := (d.handled.map (·.name)).mergeSort fun a b => a ≤ b
  fields "ConferenceState" [
    ("id", s.label), ("entry", bool d.entry.isSome), ("exit", bool d.exit.isSome),
    ("events", list (names.map Text.quoted))]

end ConferenceBridge
