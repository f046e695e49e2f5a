import ConferenceBridge.Conference
import ConferenceBridge.Proofs.Room
import Mathlib.Logic.Function.Basic

/-! A conference in use. Callers raise events against it in any order, each with its own identifier and
    profile, and several of them may share an identifier. After every event, accepted or refused, an
    ordinary conference is settled and shows to the outside what is inside. -/

namespace ConferenceBridge

/-- One event and the caller that raises it. -/
structure Raise where
  caller : Nat
  event : Event

/-- A conference, the callers that use it and the world they are in. -/
structure Session (σ : Type) where
  conference : Conference
  callers : Nat → Caller
  world : σ

/-- What a conference hands to its host because of an accepted event, in order. -/
def Firing.drained (f : Firing) : List Action :=
  match f.result with
  | .ok _ => f.pending
  | .error _ => []

namespace Conference
variable {σ : Type} {c : Conference} {caller : Caller} {e : Event} {context : Context}

/-- An event that is refused leaves the conference and the caller as they were. -/
theorem apply_of_refused {error : BridgeError} (h : c.fire caller e = Table.refused context error)
    (hc : context.state = c.room.state ∧ context.roster = c.room.roster ∧ context.pending = caller.pending)
    (host : Host σ) (w : σ) :
    c.apply host caller e w =
      { result := .error error
        conference := c
        caller
        world := tellRefusal host c.name caller.participant.id e error w } := by
  simp [apply, h, Table.refused, hc, Host.logAll]

/-- An event that is accepted moves the conference and has all the work carried out. -/
theorem apply_of_accepted {work : List Action} {after : Roster}
    (h : c.fire caller e = Table.accepted context work after) (host : Host σ) (w : σ) :
    (∃ outcome, (c.apply host caller e w).result = .ok outcome) ∧
      (c.apply host caller e w).conference =
        c.advance ⟨after.target, after.settle⟩ ⟨context.state, after.target⟩ ∧
      (c.apply host caller e w).caller.pending = [] := by
  simp [apply, h, Table.accepted, Queue.drain]

theorem participant_apply {host : Host σ} {w : σ} :
    (c.apply host caller e w).caller.participant = caller.participant := by
  unfold apply
  dsimp only
  split <;> rfl

theorem name_apply {host : Host σ} {w : σ} : (c.apply host caller e w).conference.name = c.name := by
  unfold apply
  dsimp only
  split <;> rfl

end Conference

namespace Session
variable {σ : Type}

/-- A new conference, and callers of whom none has raised anything yet. -/
def start (name : String) (settings : ConferenceSettings) (table : Table) (people : Nat → Participant)
    (w : σ) : Session σ :=
  { conference := .fresh name settings table, callers := fun i => { participant := people i }, world := w }

/-- What becomes of an event. -/
def apply (host : Host σ) (s : Session σ) (r : Raise) : Applied σ :=
  s.conference.apply host (s.callers r.caller) r.event s.world

/-- The session after an event. -/
def step (host : Host σ) (s : Session σ) (r : Raise) : Session σ :=
  let applied := s.apply host r
  { conference := applied.conference
    callers := Function.update s.callers r.caller applied.caller
    world := applied.world }

/-- The session after some events. -/
def run (host : Host σ) (s : Session σ) (raises : List Raise) : Session σ := raises.foldl (step host) s

/-- What a handler sees of an event. -/
def context (s : Session σ) (r : Raise) : Context :=
  s.conference.room.context s.conference.name (s.callers r.caller).participant (s.callers r.caller).pending r.event

/-- What an event makes the conference hand over. -/
def drained (s : Session σ) (r : Raise) : List Action :=
  (s.conference.fire (s.callers r.caller) r.event).drained

/-- All that some events make the conference hand over, one event after the other. -/
def history (host : Host σ) (s : Session σ) : List Raise → List Action
  | [] => []
  | r :: raises => s.drained r ++ (s.step host r).history host raises

variable {host : Host σ} {s : Session σ} {r : Raise} {settings : ConferenceSettings}

theorem run_concat (raises : List Raise) (r : Raise) :
    s.run host (raises ++ [r]) = (s.run host raises).step host r := by
  simp [run, List.foldl_append]

theorem run_append (raises more : List Raise) :
    s.run host (raises ++ more) = (s.run host raises).run host more := List.foldl_append

theorem history_concat : ∀ (raises : List Raise) (r : Raise) (s : Session σ),
    s.history host (raises ++ [r]) = s.history host raises ++ (s.run host raises).drained r
  | [], r, s => by simp [history, run]
  | x :: raises, r, s => by
    rw [List.cons_append, history, history, history_concat raises r, List.append_assoc]
    rfl

/-- What every event keeps holds after any events. -/
theorem run_induction {P : Session σ → Prop} (h : P s) (keep : ∀ s r, P s → P (s.step host r))
    (raises : List Raise) : P (s.run host raises) := by
  induction raises generalizing s with
  | nil => exact h
  | cons r raises ih => exact ih (keep s r h)

/-! ### Ordinary conferences -/

/-- What holds of an ordinary conference and its callers between two events. -/
structure Settled (settings : ConferenceSettings) (s : Session σ) : Prop where
  table : s.conference.table = .standard
  room : s.conference.room.Settled
  policy : s.conference.room.roster.policy = settings.policy
  maxMembers : s.conference.room.roster.maxMembers = settings.maxMembers
  published : s.conference.published = s.conference.room.state
  occupancy : s.conference.occupancy = s.conference.room.roster.size
  pending : ∀ i, (s.callers i).pending = []

theorem settled_start (name : String) (settings : ConferenceSettings) (people : Nat → Participant) (w : σ) :
    (start name settings .standard people w).Settled settings where
  table := rfl
  room := ⟨Roster.Settled.ofSettings settings, rfl⟩
  policy := rfl
  maxMembers := rfl
  published := rfl
  occupancy := rfl
  pending _ := rfl

theorem Settled.fire_eq (h : s.Settled settings) (caller : Caller) (e : Event) :
    s.conference.fire caller e =
      Table.standard.fire s.conference.name s.conference.room caller.participant caller.pending e := by
  rw [Conference.fire, h.table]

/-- All that can become of an event: it is refused and nothing moves, or it is accepted. -/
theorem Settled.step_cases (h : s.Settled settings) (host : Host σ) (r : Raise) :
    ((∃ error, (s.apply host r).result = .error error) ∧ s.drained r = [] ∧
      (s.step host r).conference = s.conference ∧ (s.step host r).callers = s.callers) ∨
    ∃ work after, Table.Move (s.context r) work after ∧
      (∃ outcome, (s.apply host r).result = .ok outcome) ∧
      s.drained r = work ++ Table.changeWork (s.context r) after ∧
      (s.step host r).conference =
        s.conference.advance ⟨after.target, after.settle⟩ ⟨s.conference.room.state, after.target⟩ ∧
      ∀ i, ((s.step host r).callers i).pending = [] := by
  have hfire := h.fire_eq (s.callers r.caller) r.event
  rcases Table.fire_cases h.room s.conference.name (s.callers r.caller).participant
      (s.callers r.caller).pending r.event with ⟨error, hf⟩ | ⟨work, after, move, hf⟩
  · rw [hf] at hfire
    have happly : s.apply host r = _ := Conference.apply_of_refused hfire ⟨rfl, rfl, rfl⟩ host s.world
    refine Or.inl ⟨⟨error, congrArg Applied.result happly⟩, ?_, congrArg Applied.conference happly, ?_⟩
    · rw [drained, hfire]
      rfl
    · have hsame : (s.apply host r).caller = s.callers r.caller := congrArg Applied.caller happly
      simp only [step, hsame, Function.update_eq_self]
  · rw [hf] at hfire
    obtain ⟨hresult, hconf, hcaller⟩ := Conference.apply_of_accepted hfire host s.world
    refine Or.inr ⟨work, after, move, hresult, ?_, hconf, ?_⟩
    · simp [drained, hfire, Table.accepted, Firing.drained, Room.context, h.pending, context]
    · intro i
      by_cases hi : i = r.caller
      · have hown : (s.step host r).callers r.caller = (s.apply host r).caller := Function.update_self ..
        rw [hi, hown]
        exact hcaller
      · simp [step, hi, h.pending]

/-- All that can become of an event that is accepted. -/
theorem Settled.move_of_ok (h : s.Settled settings) {outcome : Outcome} (hok : (s.apply host r).result = .ok outcome) :
    ∃ work after, Table.Move (s.context r) work after ∧
      s.drained r = work ++ Table.changeWork (s.context r) after ∧
      (s.step host r).conference =
        s.conference.advance ⟨after.target, after.settle⟩ ⟨s.conference.room.state, after.target⟩ := by
  rcases h.step_cases host r with ⟨⟨error, herror⟩, -⟩ | ⟨work, after, move, -, hdrained, hconf, -⟩
  · rw [hok] at herror
    cases herror
  · exact ⟨work, after, move, hdrained, hconf⟩

/-- What an event makes of the roster. -/
theorem Settled.roster_cases (h : s.Settled settings) (host : Host σ) (r : Raise) :
    ((∃ error, (s.apply host r).result = .error error) ∧
      (s.step host r).conference.room.roster = s.conference.room.roster) ∨
    ∃ work after, Table.Move (s.context r) work after ∧ (∃ outcome, (s.apply host r).result = .ok outcome) ∧
      (s.step host r).conference.room.roster = after.settle := by
  rcases h.step_cases host r with ⟨herror, -, hc, -⟩ | ⟨work, after, move, hok, -, hc, -⟩
  · exact Or.inl ⟨herror, congrArg (·.room.roster) hc⟩
  · exact Or.inr ⟨work, after, move, hok, congrArg (·.room.roster) hc⟩

theorem Settled.of_conference (h : s.Settled settings) {t : Session σ} (hc : t.conference = s.conference)
    (hk : ∀ i, (t.callers i).pending = []) : t.Settled settings where
  table := hc ▸ h.table
  room := hc ▸ h.room
  policy := hc ▸ h.policy
  maxMembers := hc ▸ h.maxMembers
  published := hc ▸ h.published
  occupancy := hc ▸ h.occupancy
  pending := hk

theorem Settled.step (h : s.Settled settings) (host : Host σ) (r : Raise) : (s.step host r).Settled settings := by
  rcases h.step_cases host r with ⟨-, -, hc, hk⟩ | ⟨work, after, move, -, -, hc, hk⟩
  · exact h.of_conference hc (hk ▸ h.pending)
  · obtain ⟨hpolicy, hmost⟩ := move.settings h.room.roster
    -- Publishing the new state only if it differs comes to publishing it.
    have hpublished : (s.conference.advance ⟨after.target, after.settle⟩
        ⟨s.conference.room.state, after.target⟩).published = after.target := by
      by_cases ht : s.conference.room.state = after.target
      · simp [Conference.advance, Transition.changed, ht, h.published]
      · simp [Conference.advance, Transition.changed, ht]
    refine ⟨?_, ?_, ?_, ?_, ?_, ?_, hk⟩ <;> rw [hc]
    · exact h.table
    · exact ⟨move.settled h.room.roster, Roster.target_settle.symm⟩
    · exact (Roster.policy_settle after).trans (hpolicy.trans h.policy)
    · exact (Roster.maxMembers_settle after).trans (hmost.trans h.maxMembers)
    · exact hpublished
    · rfl

theorem Settled.run (h : s.Settled settings) (host : Host σ) (raises : List Raise) :
    (s.run host raises).Settled settings :=
  run_induction h (fun _ r h => h.step host r) raises

/-- An ordinary conference is settled after any events. -/
theorem settled_run (host : Host σ) (name : String) (settings : ConferenceSettings) (people : Nat → Participant)
    (w : σ) (raises : List Raise) :
    ((start name settings .standard people w).run host raises).Settled settings :=
  (settled_start name settings people w).run host raises

end Session
end ConferenceBridge
