import ConferenceBridge.Describe
import ConferenceBridge.Media
import ConferenceBridge.Listener

/-! The surroundings of a bridge: its media side, its listener and its log, and how deferred work is
    carried out with them. Work that fails is counted and logged, and the rest is still carried out. -/

namespace ConferenceBridge

/-- What a bridge works with, in terms of a world that it changes. -/
structure Host (σ : Type) where
  media : Media σ
  listener : Listener σ
  log : Log.Line → σ → σ

/-- How much of some work was carried out. -/
structure Report where
  executed : Nat := 0
  failed : Nat := 0
  deriving DecidableEq

namespace Host

variable {σ : Type}

/-- Writes some lines to the log. -/
def logAll (host : Host σ) (lines : List Log.Line) (w : σ) : σ :=
  lines.foldl (fun w line => host.log line w) w

/-- A host that does nothing but write to a log. -/
def logging (log : Log.Line → σ → σ) : Host σ :=
  { media := Media.logging log, listener := Listener.logging log, log }

/-- What an action asks of the media side and the listener. -/
def call (host : Host σ) (conference : String) : Action → Call σ
  | .wait p => host.media.wait conference p
  | .mix p => host.media.mix conference p
  | .endSolo p => host.media.endSolo conference p
  | .releaseAll ps => host.media.releaseAll conference ps
  | .kick p => host.media.kick conference p
  | .playPrompt id prompt => host.media.playPrompt conference id prompt
  | .announce prompt => host.media.announce conference prompt
  | .publish n => fun w => (.ok (), host.listener.notify n w)

/-- Carries out one action. -/
def perform (host : Host σ) (conference : String) (action : Action) : Call σ := fun w =>
  host.call conference action (host.log (Log.debug ("Executing action: " ++ action.describe)) w)

/-- The warning that an action has failed. -/
def failureLine (conference : String) (action : Action) (e : BridgeError) : Log.Line :=
  Log.warn ("Deferred action " ++ action.describe ++ " failed in conference '" ++ conference ++ "': "
    ++ e.message)

/-- Carries out one action and counts it. -/
def step (host : Host σ) (conference : String) (done : Report × σ) (action : Action) : Report × σ :=
  match host.perform conference action done.2 with
  | (.ok (), w) => ({ done.1 with executed := done.1.executed + 1 }, w)
  | (.error e, w) =>
    ({ done.1 with failed := done.1.failed + 1 }, host.log (failureLine conference action e) w)

/-- Carries out all the actions in order. -/
def performAll (host : Host σ) (conference : String) (actions : List Action) (w : σ) : Report × σ :=
  actions.foldl (host.step conference) ({}, w)

end Host
end ConferenceBridge
