import ConferenceBridge.Event
import ConferenceBridge.State

/-! Why an event, a join or a set of settings is refused. Each constructor is a cause; the wording
    is `BridgeError.message`. -/

namespace ConferenceBridge

/-- What went wrong. -/
inductive BridgeError where
  /-- The state does not handle the event, or the event speaks for another role. -/
  | unhandled (conference participant : String) (event : Event) (state : State)
  /-- The participant is not in the conference. -/
  | notAttached (conference participant : String)
  /-- The participant is in the conference already. -/
  | alreadyAttached (conference participant : String)
  /-- There is no room for a conference or a participant. -/
  | noRoom (detail : String)
  /-- The media side did not do what it was asked. -/
  | mediaFailed (detail : String)
  /-- Settings that make no sense. -/
  | badSettings (detail : String)
  deriving DecidableEq, Inhabited

namespace BridgeError

/-- The text shown for an error. -/
def message : BridgeError → String
  | .unhandled conference participant event state =>
    "Invalid event " ++ event.name ++ " for participant " ++ participant ++ " in conference '"
      ++ conference ++ "' (state " ++ state.name ++ ")"
  | .notAttached conference participant =>
    "Participant " ++ participant ++ " is not attached to conference '" ++ conference ++ "'"
  | .alreadyAttached conference participant =>
    "Participant " ++ participant ++ " is already attached to conference '" ++ conference ++ "'"
  | .noRoom detail => "Allocation failure: " ++ detail
  | .mediaFailed detail => "Media error: " ++ detail
  | .badSettings detail => "Configuration error: " ++ detail

/-- After such an error the caller can carry on as if it had raised nothing. -/
def recoverable : BridgeError → Bool
  | .unhandled .. | .notAttached .. | .alreadyAttached .. => true
  | .noRoom _ | .mediaFailed _ | .badSettings _ => false

end BridgeError
end ConferenceBridge
