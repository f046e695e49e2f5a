import ConferenceBridge.Action
import ConferenceBridge.Roster

/-! What a conference does in each state. A table has a descriptor for every state: the events it
    handles, and the hooks that run when it is entered and left. Handlers and hooks see a context and
    give back a reaction; they cannot take back work that was deferred before them. -/

namespace ConferenceBridge

/-- What a handler or hook can see. -/
structure Context where
  conference : String
  /-- The state that is being left, or that is being entered. -/
  state : State
  event : Event
  /-- Who raised the event. -/
  participant : Participant
  roster : Roster
  /-- The work deferred so far. -/
  pending : Queue

/-- A remark that a handler or hook leaves behind, with what it saw. -/
structure Note where
  text : String
  seen : Context

/-- What a handler or hook does: the roster it leaves, the work it defers and the notes it makes. -/
structure Reaction where
  roster : Roster
  deferred : List Action := []
  notes : List Note := []

/-- What runs when a state is entered or left. -/
abbrev Hook := Context → Reaction

/-- What a handler decides: the state it asks for, if any, or a refusal, and what it did until then. -/
structure Answer where
  target : Except BridgeError (Option State)
  reaction : Reaction

/-- What runs when an event is raised in a state that handles it. -/
abbrev Handler := Context → Answer

namespace Context

/-- Nothing is done. -/
def idle (c : Context) : Reaction := { roster := c.roster }

/-- The context once a reaction has taken place. -/
def after (c : Context) (r : Reaction) : Context :=
  { c with roster := r.roster, pending := c.pending ++ r.deferred }

/-- Runs a hook after a reaction and adds what it does. -/
def followUp (c : Context) (r : Reaction) (hook : Hook) : Reaction :=
  let next := hook (c.after r)
  { roster := next.roster
    deferred := r.deferred ++ next.deferred
    notes := r.notes ++ next.notes }

end Context

namespace Hook

/-- One hook after the other. -/
def andThen (first second : Hook) : Hook := fun c => c.followUp (first c) second

/-- The hook after the one that is there, if any. -/
def following (existing : Option Hook) (hook : Hook) : Hook :=
  match existing with
  | some first => andThen first hook
  | none => hook

end Hook

/-- What one state does. -/
structure Descriptor where
  entry : Option Hook := none
  exit : Option Hook := none
  handlers : Event → Option Handler := fun _ => none

namespace Descriptor

def handles (d : Descriptor) (e : Event) : Bool := (d.handlers e).isSome

/-- The events that are handled, in the order of `Event.all`. -/
def handled (d : Descriptor) : List Event := Event.all.filter d.handles

end Descriptor

/-- A descriptor for every state. -/
structure Table where
  descriptor : State → Descriptor

namespace Table

/-- A table in which no state does anything. -/
def bare : Table := ⟨fun _ => {}⟩

/-- The handler of an event in a state. -/
def handler? (t : Table) (s : State) (e : Event) : Option Handler := (t.descriptor s).handlers e

/-- What a table lacks. -/
inductive Gap where
  /-- The state cannot be joined by participants of this role. -/
  | noJoin (state : State) (role : Role)
  /-- Nobody can leave the state. -/
  | noLeave (state : State)
  deriving DecidableEq

def Gap.message : Gap → String
  | .noJoin state role => "State " ++ state.name ++ " does not handle " ++ (Event.join role).name
  | .noLeave state => "State " ++ state.name ++ " has no leave transition"

/-- What one state lacks: every state has to admit every role, and to let somebody go unless nobody is
    there. -/
def gapsOf (t : Table) (s : State) : List Gap :=
  ((Role.all.filter fun role => !(t.descriptor s).handles (.join role)).map (Gap.noJoin s)) ++
    if s ≠ .empty ∧ !(Role.all.any fun role => (t.descriptor s).handles (.leave role)) then
      [.noLeave s]
    else []

/-- What the table lacks, state by state. -/
def gaps (t : Table) : List Gap := State.all.flatMap t.gapsOf

/-- A table is fit for use if it lacks nothing; a refusal names all that is lacking. -/
def validate (t : Table) : Except BridgeError Unit :=
  match t.gaps with
  | [] => .ok ()
  | gaps => .error (.badSettings ("; ".intercalate (gaps.map (·.message))))

end Table
end ConferenceBridge
