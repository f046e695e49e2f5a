import ConferenceBridge.Host
import ConferenceBridge.Table.Standard
import ConferenceBridge.Transition

/-! A conference: one room, the table that governs it, and what it lets others see. Callers raise events
    against it one after the other; the work an event defers is carried out after the room has changed,
    and cannot change it back. -/

namespace ConferenceBridge

/-- A participant as its own worker holds it. -/
structure Caller where
  participant : Participant
  /-- As of the last event that was accepted. -/
  membership : Membership := .attaching
  /-- Work deferred and not yet carried out. -/
  pending : Queue := []
  deriving DecidableEq, Inhabited

namespace Caller

/-- The state of the caller spelled out in full. -/
def describe (c : Caller) : String :=
  Describe.fields "Participant" [
    ("id", Describe.participantId c.participant.id),
    ("profile", c.participant.profile.describe),
    ("membership", c.membership.label),
    ("pending", Describe.fields "ActionQueue" [
      ("actions", Describe.list (c.pending.map (·.describe)))])]

end Caller

/-- What an accepted event came to. -/
structure Outcome where
  /-- The place of the event among those the conference has accepted. -/
  sequence : Nat
  event : Event
  previous : State
  state : State
  membership : Membership
  /-- How much of the deferred work was carried out. -/
  work : Report
  deriving DecidableEq

def Outcome.transitioned (o : Outcome) : Bool := o.previous != o.state

/-- A conference. -/
structure Conference where
  name : String
  table : Table
  settings : ConferenceSettings
  room : Room
  /-- How many events have been accepted. -/
  sequence : Nat := 0
  /-- How many participants are attached, as of the last accepted event. -/
  occupancy : Nat := 0
  /-- The state as of the last accepted event. -/
  published : State := .empty
  /-- How often a state has been published. -/
  publications : Nat := 0

/-- A conference at one moment. -/
structure Snapshot where
  name : String
  state : State
  /-- In order of admission. -/
  active : List String
  /-- In order of arrival. -/
  waiting : List String
  marked : Nat
  sequence : Nat
  deriving DecidableEq

namespace Snapshot

/-- The state that the counts call for. -/
def expected (s : Snapshot) : State := .ofCounts s.marked s.active.length s.waiting.length

/-- How many participants are attached. -/
def attached (s : Snapshot) : Nat := s.active.length + s.waiting.length

end Snapshot

/-- What became of an event that a caller raised. -/
structure Applied (σ : Type) where
  result : Except BridgeError Outcome
  conference : Conference
  caller : Caller
  world : σ
  notes : List Note := []

namespace Conference

/-- A conference with nobody in it. -/
def fresh (name : String) (settings : ConferenceSettings) (table : Table) : Conference :=
  { name, table, settings, room := { roster := .ofSettings settings } }

/-- A conference with nobody in it, unless the settings make no sense. -/
def create (name : String) (settings : ConferenceSettings) (table : Table) :
    Except BridgeError Conference :=
  settings.validate.map fun _ => fresh name settings table

def snapshot (c : Conference) : Snapshot :=
  { name := c.name
    state := c.room.state
    active := c.room.roster.activeIds
    waiting := c.room.roster.waitingIds
    marked := c.room.roster.marked
    sequence := c.sequence }

/-- Nobody is attached. -/
def isEmpty (c : Conference) : Bool := c.occupancy == 0

/-- The conference in a few words. -/
def describe (c : Conference) : String :=
  Describe.fields "Conference" [
    ("name", Text.quoted c.name), ("state", c.published.label), ("participants", toString c.occupancy)]

/-- How a conference meets an event of a caller. -/
def fire (c : Conference) (caller : Caller) (event : Event) : Firing :=
  c.table.fire c.name c.room caller.participant caller.pending event

/-- The conference after an accepted event. -/
def advance (c : Conference) (room : Room) (transition : Transition) : Conference :=
  { c with
    room
    sequence := c.sequence + 1
    occupancy := room.roster.size
    published := if transition.changed then transition.current else c.published
    publications := if transition.changed then c.publications + 1 else c.publications }

/-- Where a caller is after an accepted event. -/
def membershipAfter (room : Room) (id : String) (event : Event) : Membership :=
  if event.isLeave then .detaching else (room.roster.membership? id).getD .attaching

/-- The line that tells of an accepted event. -/
def appliedLine (name id : String) (event : Event) (sequence : Nat) (t : Transition) : Log.Line :=
  Log.debug ("Applied " ++ event.name ++ " from " ++ id ++ " to conference '" ++ name ++ "' (#"
    ++ toString sequence ++ ", " ++ t.previous.name ++ " -> " ++ t.current.name ++ ")")

/-- Tells of a refused event. A listener hears only of those that the state does not handle. -/
def tellRefusal {σ : Type} (host : Host σ) (name id : String) (event : Event) (e : BridgeError)
    (w : σ) : σ :=
  match e with
  | .unhandled _ _ _ state =>
    host.listener.invalidEvent name id event state
      (host.log (Log.warn ("Invalid event " ++ event.name ++ " from " ++ id ++ " in conference '"
        ++ name ++ "' (state " ++ state.name ++ ")")) w)
  | e =>
    host.log (Log.warn ("Event " ++ event.name ++ " from " ++ id ++ " rejected by conference '" ++ name
      ++ "': " ++ e.message)) w

/-- Applies one event that a caller raises, and carries out the work that it defers. -/
def apply {σ : Type} (host : Host σ) (c : Conference) (caller : Caller) (event : Event) (w : σ) :
    Applied σ :=
  let firing := c.fire caller event
  let id := caller.participant.id
  let w := host.logAll firing.log w
  match firing.result with
  | .error e =>
    { result := .error e
      conference := { c with room := firing.room }
      caller := { caller with pending := firing.pending }
      world := tellRefusal host c.name id event e w
      notes := firing.notes }
  | .ok transition =>
    let c := c.advance firing.room transition
    let membership := membershipAfter firing.room id event
    let (actions, pending) := firing.pending.drain
    let (work, w) := host.performAll c.name actions
      (host.log (appliedLine c.name id event c.sequence transition) w)
    { result := .ok {
        sequence := c.sequence, event, previous := transition.previous, state := transition.current,
        membership, work }
      conference := c
      caller := { caller with membership, pending }
      world := w
      notes := firing.notes }

/-- Raises the join of the caller's role. -/
def join {σ : Type} (host : Host σ) (c : Conference) (caller : Caller) (w : σ) : Applied σ :=
  c.apply host caller caller.participant.joinEvent w

/-- Raises the leave of the caller's role. -/
def leave {σ : Type} (host : Host σ) (c : Conference) (caller : Caller) (w : σ) : Applied σ :=
  c.apply host caller caller.participant.leaveEvent w

end Conference
end ConferenceBridge
