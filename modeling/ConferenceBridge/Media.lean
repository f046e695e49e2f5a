import ConferenceBridge.Log

/-! The media side of a bridge: what can be asked of it, in terms of a world that it changes. Asking may
    fail; the world is changed in either case. -/

namespace ConferenceBridge

/-- Something asked of a world. -/
abbrev Call (σ : Type) := σ → Except BridgeError Unit × σ

namespace Call

/-- Nothing is asked. -/
def done {σ : Type} : Call σ := fun w => (.ok (), w)

/-- Makes one call for each of the items in turn, until one fails. -/
def each {σ α : Type} (call : α → Call σ) : List α → Call σ
  | [], w => (.ok (), w)
  | a :: as, w =>
    match call a w with
    | (.ok (), w) => each call as w
    | (.error e, w) => (.error e, w)

end Call

/-- What a media side can be asked for in a named conference. -/
structure Media (σ : Type) where
  /-- Start waiting treatment. -/
  wait : String → Participant → Call σ
  /-- Mix into the live audio. -/
  mix : String → Participant → Call σ
  /-- End what was done for a participant because it was alone. Nothing need have been done. -/
  endSolo : String → Participant → Call σ := fun _ _ => Call.done
  /-- Mix a released waiting list into the live audio: by itself, one admission after the other, given
      up at the first that fails. -/
  releaseAll : String → List Participant → Call σ := fun conference => Call.each (mix conference)
  /-- Remove from the bridge; the participant's own leave is to follow. -/
  kick : String → Participant → Call σ
  /-- Play a prompt to one participant, given by its identifier. -/
  playPrompt : String → String → Prompt → Call σ
  /-- Play a prompt to everybody. -/
  announce : String → Prompt → Call σ

/-- A media side that only writes what it is asked for to a log. -/
def Media.logging {σ : Type} (log : Log.Line → σ → σ) : Media σ :=
  let write (text : String) : Call σ := fun w => (.ok (), log (Log.info text) w)
  { wait := fun c p => write ("Participant " ++ p.id ++ " waiting in conference '" ++ c
      ++ "' (music on hold: " ++ (if p.profile.musicOnHold then "true" else "false") ++ ")")
    mix := fun c p => write ("Participant " ++ p.id ++ " mixed into conference '" ++ c ++ "'")
    endSolo := fun c p =>
      write ("Participant " ++ p.id ++ " no longer alone in conference '" ++ c ++ "'")
    kick := fun c p => write ("Participant " ++ p.id ++ " kicked from conference '" ++ c ++ "'")
    playPrompt := fun c id prompt =>
      write ("Playing " ++ prompt.label ++ " to " ++ id ++ " in conference '" ++ c ++ "'")
    announce := fun c prompt =>
      write ("Announcing " ++ prompt.label ++ " to conference '" ++ c ++ "'") }

end ConferenceBridge
