import ConferenceBridge.Log
import ConferenceBridge.Table.Basic

/-! One event against one room. The table's handler decides; if it asks for another state, the exit
    hook of the old state runs, the change is published, and the entry hook of the new state runs. -/

namespace ConferenceBridge

/-- The state of a conference and who is attached to it. -/
structure Room where
  state : State := .empty
  roster : Roster := {}
  deriving DecidableEq

/-- The states before and after an event. -/
structure Transition where
  previous : State
  current : State
  deriving DecidableEq

def Transition.changed (t : Transition) : Bool := t.previous != t.current

/-- What became of an event. -/
structure Firing where
  result : Except BridgeError Transition
  room : Room
  /-- All the work that is deferred now. -/
  pending : Queue
  notes : List Note := []
  log : List Log.Line := []

namespace Table

/-- Runs the hook, if there is one, after a reaction. -/
def runHook (c : Context) (r : Reaction) (hook : Option Hook) : Reaction :=
  match hook with
  | some hook => c.followUp r hook
  | none => r

/-- The change of state after a handler's reaction: exit, publication, entry. -/
def change (t : Table) (c : Context) (r : Reaction) (target : State) : Reaction :=
  let left := runHook c r (t.descriptor c.state).exit
  let told := { left with
    deferred := left.deferred ++ [.publish (.stateChanged c.conference c.state target)] }
  runHook { c with state := target } told (t.descriptor target).entry

/-- The line that tells of a change of state. -/
def changeLine (conference : String) (old new : State) : Log.Line :=
  Log.debug ("Changing conference '" ++ conference ++ "' state from " ++ old.name ++ " to " ++ new.name)

/-- The warning that the state and the attached participants disagree, when they do. -/
def disagreement (conference : String) (room : Room) : List Log.Line :=
  if room.state = room.roster.target then []
  else [Log.warn ("Conference '" ++ conference ++ "' is in state " ++ room.state.name
    ++ " but its participants call for " ++ room.roster.target.name)]

/-- The handler for an event of this participant. An event that speaks for another role than the
    participant's own has none. -/
def handlerFor? (t : Table) (s : State) (p : Participant) (e : Event) : Option Handler :=
  if e.role = p.role then t.handler? s e else none

/-- Applies an event that `participant` raises. When a handler refuses, the work it deferred is dropped
    and the state stays. -/
def fire (t : Table) (conference : String) (room : Room) (participant : Participant)
    (pending : Queue) (event : Event) : Firing :=
  match t.handlerFor? room.state participant event with
  | none =>
    { result := .error (.unhandled conference participant.id event room.state), room, pending }
  | some handler =>
    let c : Context :=
      { conference, state := room.state, event, participant, roster := room.roster, pending }
    let answer := handler c
    match answer.target with
    | .error e =>
      { result := .error e
        room := { room with roster := answer.reaction.roster }
        pending := Queue.truncate (pending ++ answer.reaction.deferred) pending.length
        notes := answer.reaction.notes }
    | .ok target =>
      let current := target.getD room.state
      let moved := current ≠ room.state
      let reaction := if moved then t.change c answer.reaction current else answer.reaction
      let after : Room := ⟨current, reaction.roster⟩
      { result := .ok ⟨room.state, current⟩
        room := after
        pending := pending ++ reaction.deferred
        notes := reaction.notes
        log := (if moved then [changeLine conference room.state current] else []) ++
          disagreement conference after }

end Table
end ConferenceBridge
