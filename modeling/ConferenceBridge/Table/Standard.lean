import ConferenceBridge.Table.Basic

/-! The table of an ordinary conference bridge. Every state admits everybody; a state lets go the roles
    that can be present in it. Entering a marked state sets the waiting participants free, and the
    conference starts and ends as the empty state is left and entered. -/

namespace ConferenceBridge
namespace Table

/-- A prompt for a participant, unless it asked for quiet. -/
def promptTo (p : Participant) (prompt : Prompt) : List Action :=
  if p.profile.quiet then [] else [.playPrompt p.id prompt]

/-- What is deferred for a participant that was told to wait. -/
def parkingActions (p : Participant) (due : Option Participant) : List Action :=
  (due.map Action.wait).toList ++ promptTo p .waitForLeader

/-- What is deferred for a participant that went live. -/
def admissionActions (c : Context) (roster : Roster) : List Action :=
  let p := c.participant
  .mix p :: ((roster.companion? p.id).map Action.endSolo).toList ++
    if !p.isMarked && (c.state == .empty || c.state == .inactive) then promptTo p .onlyPerson else []

/-- Admits whoever raised the event and asks for the state that follows. -/
def onJoin : Handler := fun c =>
  let p := c.participant
  match c.roster.attach c.conference p with
  | .error e => ⟨.error e, c.idle⟩
  | .ok (membership, roster) =>
    let (treatment, roster) := match membership with
      | .waiting =>
        let (due, roster) := roster.hold p.id
        (parkingActions p due, roster)
      | _ => (admissionActions c roster, roster)
    ⟨.ok (some roster.target),
      { roster
        deferred := treatment ++ [.publish (.participantJoined c.conference p.id membership)] }⟩

/-- Removes whoever raised the event and asks for the state that follows. -/
def onLeave : Handler := fun c =>
  let p := c.participant
  match c.roster.depart c.conference p.id with
  | .error e => ⟨.error e, c.idle⟩
  | .ok (parting, roster) =>
    let (due, roster) := roster.holdEach (parting.demoted.map (·.id))
    let farewell :=
      if parting.lastMarkedLeft && !p.profile.quiet then [Action.announce .leaderHasLeft] else []
    ⟨.ok (some roster.target),
      { roster
        deferred := parting.kicked.map .kick ++ due.map .wait ++ farewell ++
          [.publish (.participantLeft c.conference p.id)] }⟩

/-- Starts the waiting treatment that is still due. -/
def startWaits : Hook := fun c =>
  let (due, roster) := c.roster.holdWaiting
  { roster, deferred := due.map .wait }

/-- Sets the waiting participants free and greets the first leader. -/
def freeWaiting : Hook := fun c =>
  let (released, roster) := c.roster.release
  let p := c.participant
  { roster
    deferred :=
      (if released.isEmpty then [] else [.releaseAll released]) ++
      if c.event.isJoin && p.isMarked && roster.marked == 1 then promptTo p .placedIntoConference
      else [] }

/-- Tells that the conference has started. -/
def tellStart : Hook := fun c =>
  { c.idle with deferred := [.publish (.conferenceStarted c.conference)] }

/-- Tells that the conference has ended. -/
def tellEnd : Hook := fun c =>
  { c.idle with deferred := [.publish (.conferenceEnded c.conference)] }

/-- The roles that a state lets go. -/
def departing : State → List Role
  | .empty => []
  | .inactive => [.waitMarked]
  | .single | .multi => [.unmarked, .waitMarked]
  | .singleMarked => [.marked]
  | .multiMarked => [.unmarked, .waitMarked, .marked]

/-- Joins are handled in every state, leaves where the role can be present. -/
def standardHandlers (s : State) : Event → Option Handler
  | .join _ => some onJoin
  | .leave role => if role ∈ departing s then some onLeave else none

/-- What an ordinary bridge does in a state. -/
def standardDescriptor (s : State) : Descriptor where
  entry := match s with
    | .empty => some tellEnd
    | .inactive => some startWaits
    | .singleMarked | .multiMarked => some freeWaiting
    | .single | .multi => none
  exit := match s with
    | .empty => some tellStart
    | _ => none
  handlers := standardHandlers s

/-- The table of an ordinary conference bridge. -/
def standard : Table := ⟨standardDescriptor⟩

end Table
end ConferenceBridge
