import ConferenceBridge.Proofs.Session

/-! Which events an ordinary conference accepts. The leaves that a state handles are listed by hand; they
    are right because of who can be attached in each state, so that nobody is kept in a conference. -/

namespace ConferenceBridge
open Table

namespace Roster
variable {r : Roster} {x : Record}

/-- A participant that is alone with a marked one is that one. -/
theorem Settled.role_eq_marked (h : r.Settled) (hpos : 0 < r.marked) (hone : r.size ≤ 1) (hx : x ∈ r.records) :
    x.role = .marked := by
  have hm : 0 < r.records.countP (·.isMarked) := by
    rw [records, List.countP_append, ← h.count]
    omega
  obtain ⟨y, hy, hym⟩ := List.countP_pos_iff.mp hm
  have hlen : r.records.length = 1 := by
    refine Nat.le_antisymm ?_ (List.length_pos_of_mem hx)
    rwa [records, List.length_append]
  obtain ⟨z, hz⟩ := List.length_eq_one_iff.mp hlen
  rw [hz, List.mem_singleton] at hx hy
  rw [hx, ← hy, Record.role_eq_marked_iff]
  exact hym

theorem mem_departing_of_ne_marked {role : Role} (h : role ≠ .marked) : role ∈ [Role.unmarked, .waitMarked] := by
  cases role with
  | unmarked => decide
  | waitMarked => decide
  | marked => exact absurd rfl h

/-- Whoever is attached, the state that the roster calls for lets it go. -/
theorem Settled.role_mem_departing (h : r.Settled) (hx : x ∈ r.records) : x.role ∈ departing r.target := by
  unfold target State.ofCounts
  rcases Nat.eq_zero_or_pos r.marked with h0 | hpos
  · have hrole := h.toSound.role_ne_marked h0 hx
    rw [if_neg (by omega)]
    cases ha : r.active with
    | nil =>
      -- Only wait-marked participants can wait.
      have hw : x ∈ r.waiting := (mem_records.mp hx).resolve_left (by rw [ha]; exact List.not_mem_nil)
      rw [(h.waiting x hw).gated]
      cases hws : r.waiting with
      | nil =>
        rw [hws] at hw
        cases hw
      | cons y ys => exact List.mem_singleton_self _
    | cons y ys =>
      cases ys with
      | nil => exact mem_departing_of_ne_marked hrole
      | cons z zs => exact mem_departing_of_ne_marked hrole
  · rw [if_pos hpos]
    split
    · rename_i hone
      rw [h.role_eq_marked hpos hone hx]
      decide
    · cases x.role <;> decide

end Roster

namespace Session
variable {σ : Type} {s : Session σ} {settings : ConferenceSettings} {caller : Caller}

theorem Settled.handles_iff (h : s.Settled settings) {role : Role} :
    (s.conference.table.descriptor s.conference.room.state).handles (.leave role) = true ↔
      role ∈ departing s.conference.room.state := by
  rw [h.table]
  exact handles_leave_iff

/-- Nobody is attached whose leave is not handled. -/
theorem Settled.role_mem_departing (h : s.Settled settings) {x : Record}
    (hx : x ∈ s.conference.room.roster.records) : x.role ∈ departing s.conference.room.state := by
  rw [h.room.state]
  exact h.room.roster.role_mem_departing hx

theorem Settled.refused (h : s.Settled settings) (host : Host σ) (w : σ) {e : Event} {error : BridgeError}
    (hf : standard.fire s.conference.name s.conference.room caller.participant caller.pending e =
      Table.refused (s.conference.room.context s.conference.name caller.participant caller.pending e) error) :
    (s.conference.apply host caller e w).result = .error error :=
  congrArg Applied.result (Conference.apply_of_refused ((h.fire_eq caller e).trans hf) ⟨rfl, rfl, rfl⟩ host w)

theorem Settled.accepted (h : s.Settled settings) (host : Host σ) (w : σ) {e : Event} {work : List Action}
    {after : Roster}
    (hf : standard.fire s.conference.name s.conference.room caller.participant caller.pending e =
      Table.accepted (s.conference.room.context s.conference.name caller.participant caller.pending e)
        work after) :
    (∃ outcome, (s.conference.apply host caller e w).result = .ok outcome) ∧
      (s.conference.apply host caller e w).conference.room.roster.people = after.people := by
  obtain ⟨hresult, hconf, -⟩ := Conference.apply_of_accepted ((h.fire_eq caller e).trans hf) host w
  refine ⟨hresult, ?_⟩
  rw [hconf]
  exact Roster.people_settle

theorem Settled.apply_join (h : s.Settled settings) (host : Host σ) (w : σ)
    (hid : caller.participant.id ∉ s.conference.room.roster.ids)
    (hroom : settings.maxMembers ≠ some s.conference.room.roster.size) :
    (∃ outcome, (s.conference.apply host caller (.join caller.participant.role) w).result = .ok outcome) ∧
      (s.conference.apply host caller (.join caller.participant.role) w).conference.room.roster.people.Perm
        (caller.participant :: s.conference.room.roster.people) := by
  have hfits : s.conference.room.roster.isFull = false := by
    rwa [← Bool.not_eq_true, h.room.roster.isFull_iff, h.maxMembers]
  obtain ⟨hresult, hpeople⟩ := h.accepted host w (fire_join h.room hid hfits)
  exact ⟨hresult, hpeople ▸ Roster.people_place_perm⟩

theorem Settled.apply_join_of_full (h : s.Settled settings) (host : Host σ) (w : σ)
    (hid : caller.participant.id ∉ s.conference.room.roster.ids)
    (hfull : settings.maxMembers = some s.conference.room.roster.size) :
    (s.conference.apply host caller (.join caller.participant.role) w).result =
      .error (.noRoom ("conference '" ++ s.conference.name ++ "' is full ("
        ++ toString s.conference.room.roster.size ++ " members)")) := by
  have hmax := h.maxMembers.trans hfull
  have hresult := h.refused host w (fire_join_of_full hid (h.room.roster.isFull_iff.mpr hmax))
  rwa [hmax] at hresult

theorem Settled.apply_leave (h : s.Settled settings) (host : Host σ) (w : σ) {x : Record}
    (hx : x ∈ s.conference.room.roster.records) (own : x.id = caller.participant.id)
    (handled : caller.participant.role ∈ departing s.conference.room.state) :
    (∃ outcome, (s.conference.apply host caller (.leave caller.participant.role) w).result = .ok outcome) ∧
      (s.conference.apply host caller (.leave caller.participant.role) w).conference.room.roster.people.Perm
        (s.conference.room.roster.people.filter (·.id != caller.participant.id)) := by
  obtain ⟨hresult, hpeople⟩ := h.accepted host w (fire_leave h.room hx own handled)
  refine ⟨hresult, ?_⟩
  rw [hpeople, ← own]
  exact Roster.people_departed_perm h.room.roster.distinct

/-- What an ordinary conference answers to any event after any others. An event that speaks for another
    role is not handled. A join is accepted unless the identifier is attached already or the limit is
    reached, and adds the participant. A leave is accepted if the state handles it and the identifier is
    attached, and takes out that identifier; a state that does not handle it has nobody attached of that
    role. So whoever is attached can leave in the role it attached under. -/
theorem acceptance_exact {σ : Type} (host : Host σ) (name : String) (settings : ConferenceSettings)
    (people : Nat → Participant) (w : σ) (raises : List Raise) (caller : Caller) (e : Event) (v : σ) :
    let c := ((start name settings .standard people w).run host raises).conference
    let p := caller.participant
    let r := c.room.roster
    let answer := c.apply host caller e v
    let after := answer.conference.room.roster
    let handled := (c.table.descriptor c.room.state).handles e = true
    (e.role ≠ p.role → answer.result = .error (.unhandled c.name p.id e c.room.state)) ∧
    (e = .join p.role →
      (p.id ∈ r.ids → answer.result = .error (.alreadyAttached c.name p.id)) ∧
      (p.id ∉ r.ids → settings.maxMembers = some r.size →
        answer.result = .error (.noRoom ("conference '" ++ c.name ++ "' is full (" ++ toString r.size
          ++ " members)"))) ∧
      (p.id ∉ r.ids → settings.maxMembers ≠ some r.size →
        (∃ outcome, answer.result = .ok outcome) ∧ after.people.Perm (p :: r.people))) ∧
    (e = .leave p.role →
      (handled → p.id ∈ r.ids →
        (∃ outcome, answer.result = .ok outcome) ∧ after.people.Perm (r.people.filter (·.id != p.id))) ∧
      (handled → p.id ∉ r.ids → answer.result = .error (.notAttached c.name p.id)) ∧
      (¬handled →
        answer.result = .error (.unhandled c.name p.id e c.room.state) ∧
        ∀ x ∈ r.records, x.role ≠ e.role)) ∧
    ∀ x ∈ r.records, ∀ k : Caller, k.participant.id = x.id → k.participant.role = x.role →
      (∃ outcome, (c.apply host k (.leave x.role) v).result = .ok outcome) ∧
      (c.apply host k (.leave x.role) v).conference.room.roster.people.Perm (r.people.filter (·.id != x.id)) := by
  intro c p r answer after handled
  have h := settled_run host name settings people w raises
  refine ⟨fun hrole => ?_, ?_, ?_, ?_⟩
  · exact h.refused host v (fire_of_role_ne hrole)
  · rintro rfl
    refine ⟨fun hid => ?_, fun hid hmost => ?_, fun hid hmost => ?_⟩
    · exact h.refused host v (fire_join_of_mem hid)
    · exact h.apply_join_of_full host v hid hmost
    · exact h.apply_join host v hid hmost
  · rintro rfl
    refine ⟨fun hh hid => ?_, fun hh hid => ?_, fun hh => ?_⟩
    · obtain ⟨x, hx, own⟩ := Roster.mem_ids.mp hid
      exact h.apply_leave host v hx own (h.handles_iff.mp hh)
    · exact h.refused host v (fire_leave_of_notMem (h.handles_iff.mp hh) hid)
    · have hdep := mt h.handles_iff.mpr hh
      have hresult := h.refused host v (fire_leave_of_unhandled hdep)
      refine ⟨hresult, fun x hx hr => ?_⟩
      have hr : x.role = p.role := hr
      exact hdep (hr ▸ h.role_mem_departing hx)
  · intro x hx k hid hrole
    have hdep : k.participant.role ∈ departing c.room.state := hrole ▸ h.role_mem_departing hx
    rw [← hrole, ← hid]
    exact h.apply_leave host v hx hid.symm hdep

end Session
end ConferenceBridge
