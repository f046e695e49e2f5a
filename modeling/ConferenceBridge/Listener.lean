import ConferenceBridge.Action
import ConferenceBridge.Log

/-! Those who listen to what happens in a conference. Telling them cannot fail. -/

namespace ConferenceBridge

/-- What a listener is told, in terms of a world that it changes. Only refused events and changes of
    state have to be heard. -/
structure Listener (σ : Type) where
  /-- In a named conference, a participant raised an event that the state does not handle. -/
  invalidEvent : String → String → Event → State → σ → σ
  /-- A named conference went from one state to another. -/
  stateChanged : String → State → State → σ → σ
  conferenceStarted : String → σ → σ := fun _ => id
  conferenceEnded : String → σ → σ := fun _ => id
  participantJoined : String → String → Membership → σ → σ := fun _ _ _ => id
  participantLeft : String → String → σ → σ := fun _ _ => id

namespace Listener

variable {σ : Type}

/-- Tells a listener of a notification. -/
def notify (l : Listener σ) : Notification → σ → σ
  | .stateChanged c old new => l.stateChanged c old new
  | .conferenceStarted c => l.conferenceStarted c
  | .conferenceEnded c => l.conferenceEnded c
  | .participantJoined c id membership => l.participantJoined c id membership
  | .participantLeft c id => l.participantLeft c id
  | .invalidEvent c id event state => l.invalidEvent c id event state

/-- A listener that writes what it hears to a log. -/
def logging (log : Log.Line → σ → σ) : Listener σ where
  invalidEvent c id event state :=
    log (Log.warn ("Invalid event " ++ event.name ++ " from participant " ++ id ++ " in conference '"
      ++ c ++ "' (state " ++ state.name ++ ")"))
  stateChanged c old new :=
    log (Log.debug ("Conference '" ++ c ++ "' changed state from " ++ old.name ++ " to " ++ new.name))
  conferenceStarted c := log (Log.info ("Conference '" ++ c ++ "' started"))
  conferenceEnded c := log (Log.info ("Conference '" ++ c ++ "' ended"))
  participantJoined c id membership :=
    log (Log.info ("Participant " ++ id ++ " joined conference '" ++ c ++ "' (" ++ membership.label
      ++ ")"))
  participantLeft c id := log (Log.info ("Participant " ++ id ++ " left conference '" ++ c ++ "'"))

/-- A listener that passes on what it hears as notifications. -/
def publishing (publish : Notification → σ → σ) : Listener σ where
  invalidEvent c id event state := publish (.invalidEvent c id event state)
  stateChanged c old new := publish (.stateChanged c old new)
  conferenceStarted c := publish (.conferenceStarted c)
  conferenceEnded c := publish (.conferenceEnded c)
  participantJoined c id membership := publish (.participantJoined c id membership)
  participantLeft c id := publish (.participantLeft c id)

end Listener
end ConferenceBridge
