import ConferenceBridge.Participant

/-! What a participant's worker can raise against a conference: a join or a leave, each in the name
    of a role. -/

namespace ConferenceBridge

/-- A join or a leave of a participant of the given role. -/
inductive Event where
  | join (role : Role)
  | leave (role : Role)
  deriving DecidableEq, Inhabited

namespace Event

/-- Every event, joins before leaves. -/
def all : List Event := Role.all.map .join ++ Role.all.map .leave

theorem mem_all (e : Event) : e ∈ all := by
  rcases e with r | r <;> cases r <;> decide

/-- The role an event speaks for. -/
def role : Event → Role
  | .join r | .leave r => r

def isJoin : Event → Bool
  | .join _ => true
  | .leave _ => false

def isLeave (e : Event) : Bool := !e.isJoin

/-- The name shown in messages. -/
def name : Event → String
  | .join .unmarked => "JOIN"
  | .join .waitMarked => "JOIN_WAITMARKED"
  | .join .marked => "JOIN_MARKED"
  | .leave .unmarked => "LEAVE"
  | .leave .waitMarked => "LEAVE_WAITMARKED"
  | .leave .marked => "LEAVE_MARKED"

/-- The word that stands for the event in encoded values. -/
def label : Event → String
  | .join .unmarked => "Join"
  | .join .waitMarked => "JoinWaitMarked"
  | .join .marked => "JoinMarked"
  | .leave .unmarked => "Leave"
  | .leave .waitMarked => "LeaveWaitMarked"
  | .leave .marked => "LeaveMarked"

/-- The event with this name, if there is one. -/
def ofName? (text : String) : Option Event := all.find? (·.name == text)

/-- The event with this label, if there is one. -/
def ofLabel? (text : String) : Option Event := all.find? (·.label == text)

theorem ofName?_name (e : Event) : ofName? e.name = some e := by
  rcases e with r | r <;> cases r <;> decide

theorem ofLabel?_label (e : Event) : ofLabel? e.label = some e := by
  rcases e with r | r <;> cases r <;> decide

end Event

/-- The join a participant raises. -/
def Participant.joinEvent (p : Participant) : Event := .join p.role

/-- The leave a participant raises. -/
def Participant.leaveEvent (p : Participant) : Event := .leave p.role

end ConferenceBridge
