import ConferenceBridge.Proofs.Session

/-! The state of an ordinary conference is a function of its counts, inside and as it is published, and
    the engine never has to warn that the two disagree. -/

namespace ConferenceBridge
namespace Table
variable {c : Context} {work : List Action} {r : Roster} {room : Room}

theorem level_of_mem_accepted {line : Log.Line} (h : line ∈ (accepted c work r).log) : line.level = .debug := by
  unfold accepted at h
  dsimp only at h
  split at h
  · cases h
  · rw [List.mem_singleton.mp h]
    rfl

/-- An ordinary conference that is settled logs nothing but its change of state. -/
theorem level_of_mem_fire (hroom : room.Settled) {name : String} {p : Participant} {pending : List Action}
    {e : Event} {line : Log.Line} (h : line ∈ (standard.fire name room p pending e).log) : line.level = .debug := by
  rcases fire_cases hroom name p pending e with ⟨error, hf⟩ | ⟨work, after, -, hf⟩
  · rw [hf] at h
    cases h
  · rw [hf] at h
    exact level_of_mem_accepted h

end Table

namespace Session

/-- After any events the state, inside and published, is the one that the counts call for, and the
    published number of participants is right. Whatever anybody raises next, the room it leads to agrees
    with its counts and nothing is logged as a warning. -/
theorem state_by_counts {σ : Type} (host : Host σ) (name : String) (settings : ConferenceSettings)
    (people : Nat → Participant) (w : σ) (raises : List Raise) :
    let c := ((start name settings .standard people w).run host raises).conference
    c.room.state =
      .ofCounts c.room.roster.marked c.room.roster.active.length c.room.roster.waiting.length ∧
    c.published = c.room.state ∧
    c.occupancy = c.room.roster.active.length + c.room.roster.waiting.length ∧
    ∀ (caller : Caller) (e : Event),
      Table.disagreement c.name (c.fire caller e).room = [] ∧
      ∀ line ∈ (c.fire caller e).log, line.level ≠ .warn := by
  intro c
  have h := settled_run host name settings people w raises
  refine ⟨h.room.state, h.published, h.occupancy, fun caller e => ?_⟩
  rw [h.fire_eq caller e]
  constructor
  · exact Table.disagreement_of_eq (Table.fire_settled h.room _ _ _ _).state
  · intro line hline
    rw [Table.level_of_mem_fire h.room hline]
    decide

end Session
end ConferenceBridge
