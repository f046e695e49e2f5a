import ConferenceBridge.Proofs.Acceptance
import ConferenceBridge.Proofs.Attachment
import ConferenceBridge.Proofs.ListenerView
import ConferenceBridge.Proofs.Roster.Several

/-! Events whose order does not matter. Participants that leave one after the other leave the same room in
    whatever order they go, although a leader among them has others demoted and asked to go on the way; and
    participants that arrive one after the other find the same places, but for the order in the lists. -/

namespace ConferenceBridge
open Roster Table

namespace Session
variable {σ : Type} {host : Host σ} {s : Session σ} {settings : ConferenceSettings} {r : Raise} {raises : List Raise}

/-- The participant that a caller raises events for. -/
def who (s : Session σ) (i : Nat) : Participant := (s.callers i).participant

/-- A caller raises the join of its participant's role. -/
def joinOf (s : Session σ) (i : Nat) : Raise := ⟨i, (s.who i).joinEvent⟩

/-- A caller raises the leave of its participant's role. -/
def leaveOf (s : Session σ) (i : Nat) : Raise := ⟨i, (s.who i).leaveEvent⟩

/-- All of some events are accepted, raised one after the other. -/
def AllAccepted (host : Host σ) (s : Session σ) (raises : List Raise) : Prop :=
  ∀ past r, past ++ [r] <+: raises → ∃ outcome, ((s.run host past).apply host r).result = .ok outcome

theorem AllAccepted.nil : s.AllAccepted host [] := fun past r h => absurd (List.prefix_nil.mp h) (by simp)

theorem AllAccepted.concat (h : s.AllAccepted host raises)
    (hr : ∃ outcome, ((s.run host raises).apply host r).result = .ok outcome) :
    s.AllAccepted host (raises ++ [r]) := by
  intro past next hpast
  rcases concat_prefix_concat_iff.mp hpast with ⟨rfl, rfl⟩ | hpast
  · exact hr
  · exact h past next hpast

theorem AllAccepted.of_concat (h : s.AllAccepted host (raises ++ [r])) :
    s.AllAccepted host raises ∧ ∃ outcome, ((s.run host raises).apply host r).result = .ok outcome :=
  ⟨fun past next hpast => h past next (hpast.trans (List.prefix_append raises [r])), h raises r (List.prefix_refl _)⟩

/-! ### What a run does not touch -/

theorem who_step (host : Host σ) (s : Session σ) (r : Raise) : (s.step host r).who = s.who := by
  funext i
  by_cases hi : i = r.caller
  · subst hi
    exact (congrArg Caller.participant (Function.update_self ..)).trans Conference.participant_apply
  · exact congrArg Caller.participant (Function.update_of_ne hi ..)

theorem who_run (host : Host σ) (s : Session σ) (raises : List Raise) : (s.run host raises).who = s.who :=
  run_induction (P := fun t => t.who = s.who) rfl (fun t r ht => (who_step host t r).trans ht) raises

theorem name_run (host : Host σ) (s : Session σ) (raises : List Raise) :
    (s.run host raises).conference.name = s.conference.name :=
  run_induction (P := fun t => t.conference.name = s.conference.name) rfl
    (fun _ _ ht => Conference.name_apply.trans ht) raises

theorem AllAccepted.sequence (h : s.AllAccepted host raises) :
    (s.run host raises).conference.sequence = s.conference.sequence + raises.length := by
  induction raises using List.reverseRecOn with
  | nil => rfl
  | append_singleton raises r ih =>
    obtain ⟨hall, outcome, ho⟩ := h.of_concat
    obtain ⟨hnumber, -, hseq, -⟩ := Conference.outcome_of_ok ho
    have hstep : ((s.run host raises).step host r).conference.sequence =
        (s.run host raises).conference.sequence + 1 := hseq.trans hnumber
    rw [run_concat, hstep, ih hall, List.length_append]
    rfl

/-- Runs of equally many accepted events that end in the same room show the same. -/
theorem AllAccepted.snapshot_eq {more : List Raise} (h : s.AllAccepted host raises) (h' : s.AllAccepted host more)
    (hlength : raises.length = more.length)
    (hroom : (s.run host raises).conference.room = (s.run host more).conference.room) :
    (s.run host raises).conference.snapshot = (s.run host more).conference.snapshot := by
  simp only [Conference.snapshot, name_run, hroom, h.sequence, h'.sequence, hlength]

theorem Settled.room_eq {t : Session σ} (h : s.Settled settings) (ht : t.Settled settings)
    (hroster : s.conference.room.roster = t.conference.room.roster) : s.conference.room = t.conference.room :=
  congrArg₂ Room.mk (by rw [h.room.state, ht.room.state, hroster]) hroster

/-! ### Several leaves -/

theorem Settled.step_of_accepted (h : s.Settled settings) (host : Host σ) {work : List Action} {after : Roster}
    (hf : standard.fire s.conference.name s.conference.room (s.who r.caller) (s.callers r.caller).pending r.event =
      Table.accepted (s.context r) work after) :
    (∃ outcome, (s.apply host r).result = .ok outcome) ∧
      (s.step host r).conference.room.roster = after.settle := by
  obtain ⟨hresult, hconf, -⟩ := Conference.apply_of_accepted ((h.fire_eq _ _).trans hf) host s.world
  exact ⟨hresult, congrArg (·.room.roster) hconf⟩

theorem Settled.step_leave (h : s.Settled settings) (host : Host σ) {i : Nat}
    (attached : s.who i ∈ s.conference.room.roster.people) :
    (∃ outcome, (s.apply host (s.leaveOf i)).result = .ok outcome) ∧
      (s.step host (s.leaveOf i)).conference.room.roster = s.conference.room.roster.leftBy [(s.who i).id] := by
  obtain ⟨x, hx, own⟩ := List.mem_map.mp attached
  have hid : x.id = (s.who i).id := congrArg Participant.id own
  have handled : (s.who i).role ∈ departing s.conference.room.state := own ▸ h.role_mem_departing hx
  obtain ⟨hresult, hroster⟩ := h.step_of_accepted (r := s.leaveOf i) host (fire_leave h.room hx hid handled)
  exact ⟨hresult, by rw [hroster, h.room.roster.settle_departed_eq_leftBy hx, hid]⟩

/-- Attached participants that leave one after the other are all let go. -/
theorem Settled.run_leaves (h : s.Settled settings) (host : Host σ) (leaving : List Nat)
    (distinct : ((leaving.map s.who).map (·.id)).Nodup)
    (attached : ∀ i ∈ leaving, s.who i ∈ s.conference.room.roster.people) :
    s.AllAccepted host (leaving.map s.leaveOf) ∧
      (s.run host (leaving.map s.leaveOf)).conference.room.roster =
        s.conference.room.roster.leftBy ((leaving.map s.who).map (·.id)) := by
  induction leaving using List.reverseRecOn with
  | nil => exact ⟨.nil, (leftBy_nil h.room.roster.toSound).symm⟩
  | append_singleton leaving i ih =>
    simp only [List.map_append, List.map_cons, List.map_nil] at distinct ⊢
    obtain ⟨hall, hroster⟩ := ih (List.nodup_append.mp distinct).1 fun j hj => attached j (List.mem_append_left _ hj)
    have hs := h.run host (leaving.map s.leaveOf)
    have hwho := who_run host s (leaving.map s.leaveOf)
    have hraise : (s.run host (leaving.map s.leaveOf)).leaveOf i = s.leaveOf i := by rw [leaveOf, hwho, leaveOf]
    -- Whoever is still to leave is still there.
    have there : (s.run host (leaving.map s.leaveOf)).who i ∈
        (s.run host (leaving.map s.leaveOf)).conference.room.roster.people := by
      rw [hroster, hwho, (people_leftBy_perm h.room.roster.toSound).mem_iff, List.mem_filter, decide_eq_true_eq]
      exact ⟨attached i (by simp), fun hid => (List.nodup_append.mp distinct).2.2 _ hid _ List.mem_cons_self rfl⟩
    obtain ⟨hok, hlast⟩ := hs.step_leave host there
    rw [hraise] at hok hlast
    refine ⟨hall.concat hok, ?_⟩
    rw [run_concat, hlast, hroster, hwho]
    exact leftBy_leftBy h.room.roster.toSound _ _

/-! ### Several joins -/

theorem Settled.step_join (h : s.Settled settings) (host : Host σ) {i : Nat}
    (new : (s.who i).id ∉ s.conference.room.roster.ids) (fits : s.conference.room.roster.isFull = false) :
    (∃ outcome, (s.apply host (s.joinOf i)).result = .ok outcome) ∧
      (s.step host (s.joinOf i)).conference.room.roster = (s.conference.room.roster.place (s.who i)).settle :=
  h.step_of_accepted (r := s.joinOf i) host (fire_join h.room new fits)

/-- New participants for whom there is room are all let in. -/
theorem Settled.run_joins (h : s.Settled settings) (host : Host σ) (joining : List Nat)
    (distinct : ((joining.map s.who).map (·.id)).Nodup)
    (new : ∀ i ∈ joining, (s.who i).id ∉ s.conference.room.roster.ids)
    (fits : ∀ most, settings.maxMembers = some most → s.conference.room.roster.size + joining.length ≤ most) :
    s.AllAccepted host (joining.map s.joinOf) ∧
      s.conference.room.roster.JoinedBy (joining.map s.who)
        (s.run host (joining.map s.joinOf)).conference.room.roster := by
  induction joining using List.reverseRecOn with
  | nil => exact ⟨.nil, h.room.roster.joinedBy_nil⟩
  | append_singleton joining i ih =>
    simp only [List.map_append, List.map_cons, List.map_nil, List.length_append, List.length_singleton]
      at distinct fits ⊢
    obtain ⟨hall, hjoined⟩ := ih (List.nodup_append.mp distinct).1
      (fun j hj => new j (List.mem_append_left _ hj))
      fun most hmost => by have := fits most hmost; omega
    have hs := h.run host (joining.map s.joinOf)
    have hwho := who_run host s (joining.map s.joinOf)
    have hraise : (s.run host (joining.map s.joinOf)).joinOf i = s.joinOf i := by rw [joinOf, hwho, joinOf]
    -- The identifier is still new, and there is still room.
    have hnew : ((s.run host (joining.map s.joinOf)).who i).id ∉
        (s.run host (joining.map s.joinOf)).conference.room.roster.ids := by
      rw [hwho, ← map_id_people, (hjoined.people_perm.map _).mem_iff, List.map_append, map_id_people, List.mem_append]
      rintro (hold | hid)
      · exact new i (by simp) hold
      · exact (List.nodup_append.mp distinct).2.2 _ hid _ List.mem_cons_self rfl
    have hroom : (s.run host (joining.map s.joinOf)).conference.room.roster.isFull = false := by
      rw [isFull_eq_false_iff, hs.maxMembers]
      intro most hmost
      have := fits most hmost
      rw [size_eq_length_people, hjoined.people_perm.length_eq, List.length_append, List.length_map,
        ← size_eq_length_people]
      omega
    obtain ⟨hok, hlast⟩ := hs.step_join host hnew hroom
    rw [hraise] at hok hlast
    refine ⟨hall.concat hok, ?_⟩
    rw [run_concat, hlast, hwho]
    exact hjoined.concat hs.room.roster _

/-- After any events attached participants may leave in any order, and new ones for whom there is room may join
    in any order: all are accepted. Those who leave leave the same room and the same snapshot behind, in which
    everybody else is attached. Those who join bring about the same state, and the same records live and waiting
    but for their order: those that were there and one for each of them. -/
theorem order_does_not_matter {σ : Type} (host : Host σ) (name : String) (settings : ConferenceSettings)
    (people : Nat → Participant) (w : σ) (raises : List Raise) :
    let now := (start name settings .standard people w).run host raises
    let roster := now.conference.room.roster
    let leave := fun is : List Nat => now.run host (is.map now.leaveOf)
    let join := fun is : List Nat => now.run host (is.map now.joinOf)
    (∀ leaving other : List Nat, (leaving.map now.who).Nodup → (∀ i ∈ leaving, now.who i ∈ roster.people) →
      leaving.Perm other →
        now.AllAccepted host (other.map now.leaveOf) ∧
        (leave leaving).conference.room = (leave other).conference.room ∧
        (leave leaving).conference.snapshot = (leave other).conference.snapshot ∧
        (leave leaving).conference.room.roster = roster.leftBy ((leaving.map now.who).map (·.id))) ∧
    ∀ joining other : List Nat, ((joining.map now.who).map (·.id)).Nodup →
      (∀ i ∈ joining, (now.who i).id ∉ roster.ids) →
      (∀ most, settings.maxMembers = some most → roster.size + joining.length ≤ most) → joining.Perm other →
        now.AllAccepted host (other.map now.joinOf) ∧
        (join joining).conference.room.state = (join other).conference.room.state ∧
        (join joining).conference.room.roster.Rearranged (join other).conference.room.roster ∧
        roster.JoinedBy (joining.map now.who) (join joining).conference.room.roster := by
  intro now roster leave join
  have h : now.Settled settings := settled_run host name settings people w raises
  refine ⟨fun leaving other distinct attached hperm => ?_, fun joining other distinct new fits hperm => ?_⟩
  · have ids : ((leaving.map now.who).map (·.id)).Nodup :=
      nodup_ids_of_attached h.room.roster.distinct distinct (by simpa using attached)
    obtain ⟨hall, hroster⟩ := h.run_leaves host leaving ids attached
    obtain ⟨hall', hroster'⟩ := h.run_leaves host other (((hperm.map _).map _).nodup_iff.mp ids)
      fun i hi => attached i (hperm.mem_iff.mpr hi)
    have hsame : (leave leaving).conference.room.roster = (leave other).conference.room.roster :=
      hroster.trans (.trans (leftBy_congr fun id => ((hperm.map _).map _).mem_iff) hroster'.symm)
    have hroom := (h.run host _).room_eq (h.run host _) hsame
    exact ⟨hall', hroom, hall.snapshot_eq hall' (hperm.map _).length_eq hroom, hroster⟩
  · obtain ⟨-, hjoined⟩ := h.run_joins host joining distinct new fits
    obtain ⟨hall', hjoined'⟩ := h.run_joins host other (((hperm.map _).map _).nodup_iff.mp distinct)
      (fun i hi => new i (hperm.mem_iff.mpr hi)) (hperm.length_eq ▸ fits)
    have hplaces := hjoined.rearranged hjoined' (hperm.map now.who)
    have hstate := (h.run host (joining.map now.joinOf)).room.state.trans hplaces.target
    exact ⟨hall', hstate.trans (h.run host (other.map now.joinOf)).room.state.symm, hplaces, hjoined⟩

end Session
end ConferenceBridge
