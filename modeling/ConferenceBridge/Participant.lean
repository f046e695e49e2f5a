/-! Who takes part in a conference: the options a participant attaches with, the role they give it,
    and how far it has come through admission. -/

namespace ConferenceBridge

/-- The part a participant plays in admission. -/
inductive Role where
  /-- Goes straight into the live mix. -/
  | unmarked
  /-- Is live only once a marked participant has been present. -/
  | waitMarked
  /-- Leads the conference. -/
  | marked
  deriving DecidableEq, Inhabited

namespace Role

/-- Every role. -/
def all : List Role := [.unmarked, .waitMarked, .marked]

/-- The word that stands for the role in encoded values. -/
def label : Role → String
  | .unmarked => "Unmarked"
  | .waitMarked => "WaitMarked"
  | .marked => "Marked"

/-- The role with this label, if there is one. -/
def ofLabel? (text : String) : Option Role := all.find? (·.label == text)

theorem ofLabel?_label (r : Role) : ofLabel? r.label = some r := by cases r <;> decide

end Role

/-- The options of one attachment, fixed when the participant joins. -/
structure Profile where
  /-- Leads the conference; its presence makes the conference live. -/
  marked : Bool := false
  /-- Is parked until a marked participant is present. -/
  waitMarked : Bool := false
  /-- Is removed once the last marked participant leaves. -/
  endMarked : Bool := false
  /-- Hears music while it waits. -/
  musicOnHold : Bool := false
  /-- Hears no prompts, and its leaving is not announced. -/
  quiet : Bool := false
  deriving DecidableEq, Inhabited

namespace Profile

/-- A plain participant. -/
def plain : Profile := {}

/-- A leader. -/
def leader : Profile := { marked := true }

/-- A guest who waits, with music, for a leader. -/
def guest : Profile := { waitMarked := true, musicOnHold := true }

/-- Being marked outweighs being wait-marked. -/
def role (p : Profile) : Role :=
  if p.marked then .marked else if p.waitMarked then .waitMarked else .unmarked

theorem role_eq_marked_iff {p : Profile} : p.role = .marked ↔ p.marked = true := by
  unfold role
  cases p.marked <;> cases p.waitMarked <;> simp

end Profile

/-- A participant: who it is and the options it attaches with. -/
structure Participant where
  id : String
  profile : Profile
  deriving DecidableEq, Inhabited

namespace Participant

def role (p : Participant) : Role := p.profile.role

def isMarked (p : Participant) : Bool := p.profile.marked

end Participant

/-- How far a participant has come through admission. -/
inductive Membership where
  /-- No join has been applied yet. -/
  | attaching
  /-- Parked for a marked participant. -/
  | waiting
  /-- Mixed into the live audio. -/
  | active
  /-- A leave has been applied. -/
  | detaching
  deriving DecidableEq, Inhabited

namespace Membership

/-- Every membership. -/
def all : List Membership := [.attaching, .waiting, .active, .detaching]

/-- The word that stands for the membership in encoded values. -/
def label : Membership → String
  | .attaching => "Attaching"
  | .waiting => "Waiting"
  | .active => "Active"
  | .detaching => "Detaching"

/-- The membership with this label, if there is one. -/
def ofLabel? (text : String) : Option Membership := all.find? (·.label == text)

theorem ofLabel?_label (m : Membership) : ofLabel? m.label = some m := by cases m <;> decide

end Membership

/-- A recording that can be played. -/
inductive Prompt where
  /-- You are alone in this conference. -/
  | onlyPerson
  /-- The conference begins when the leader arrives. -/
  | waitForLeader
  /-- You are now placed into the conference. -/
  | placedIntoConference
  /-- The leader has left. -/
  | leaderHasLeft
  deriving DecidableEq, Inhabited

namespace Prompt

/-- Every prompt. -/
def all : List Prompt := [.onlyPerson, .waitForLeader, .placedIntoConference, .leaderHasLeft]

/-- The word that stands for the prompt in encoded values and log lines. -/
def label : Prompt → String
  | .onlyPerson => "OnlyPerson"
  | .waitForLeader => "WaitForLeader"
  | .placedIntoConference => "PlacedIntoConference"
  | .leaderHasLeft => "LeaderHasLeft"

/-- The prompt with this label, if there is one. -/
def ofLabel? (text : String) : Option Prompt := all.find? (·.label == text)

theorem ofLabel?_label (p : Prompt) : ofLabel? p.label = some p := by cases p <;> decide

end Prompt
end ConferenceBridge
