import ConferenceBridge.Event
import ConferenceBridge.State

/-! The work that a transition leaves for later: actions for the media side and notifications for
    whoever listens. They are plain values in the order in which they are to be carried out. -/

namespace ConferenceBridge

/-- What is told to those who follow a conference. -/
inductive Notification where
  | stateChanged (conference : String) (old new : State)
  | conferenceStarted (conference : String)
  | conferenceEnded (conference : String)
  | participantJoined (conference participant : String) (membership : Membership)
  | participantLeft (conference participant : String)
  | invalidEvent (conference participant : String) (event : Event) (state : State)
  deriving DecidableEq, Inhabited

/-- One piece of deferred work. -/
inductive Action where
  /-- Start waiting treatment. -/
  | wait (participant : Participant)
  /-- Mix into the live audio. -/
  | mix (participant : Participant)
  /-- End what was done for a participant because it was alone: somebody has joined it. -/
  | endSolo (participant : Participant)
  /-- Mix a released waiting list into the live audio, in order. -/
  | releaseAll (participants : List Participant)
  /-- Remove from the bridge. -/
  | kick (participant : Participant)
  /-- Play a prompt to one participant. -/
  | playPrompt (participant : String) (prompt : Prompt)
  /-- Play a prompt to the whole conference. -/
  | announce (prompt : Prompt)
  /-- Tell those who listen. -/
  | publish (notification : Notification)
  deriving DecidableEq, Inhabited

/-- Deferred work that waits to be carried out, the oldest first. -/
abbrev Queue := List Action

namespace Queue
variable {q : Queue} {actions : List Action}

def enqueue (q : Queue) (action : Action) : Queue := q ++ [action]

/-- All the work in the queue, and the queue that is left. -/
def drain (q : Queue) : List Action × Queue := (q, [])

/-- Drops what was put in the queue after the first so many actions. -/
def truncate (q : Queue) (length : Nat) : Queue := q.take length

theorem truncate_append : truncate (q ++ actions) q.length = q := List.take_left

theorem foldl_enqueue : actions.foldl enqueue q = q ++ actions := by
  induction actions generalizing q with
  | nil => exact (List.append_nil q).symm
  | cons action actions ih => rw [List.foldl_cons, ih, enqueue, List.append_assoc, List.singleton_append]

/-- Work comes out of a queue in the order in which it went in, and once. -/
theorem drain_foldl_enqueue : drain (actions.foldl enqueue []) = (actions, []) := by
  rw [drain, foldl_enqueue, List.nil_append]

/-- Truncating a queue to a former length takes back what was put in since. -/
theorem truncate_foldl_enqueue : truncate (actions.foldl enqueue q) q.length = q := by
  rw [foldl_enqueue, truncate_append]

end Queue
end ConferenceBridge
