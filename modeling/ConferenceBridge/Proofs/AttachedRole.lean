import ConferenceBridge.Proofs.Acceptance
import ConferenceBridge.Proofs.Dismissal

/-! Whose role counts when somebody leaves. A leave is held against the profile of whoever raises it, and takes out
    whoever is attached under its identifier; the two profiles are never compared. What comes of it depends on the
    attached one only: taking out a participant that is not marked leaves the others as they are, and taking out a
    marked one counts as a leader's departure whichever leave it was. -/

namespace ConferenceBridge
open Roster Table

/-- Between these rosters the record is gone and the others are as they were, and the work does not touch them:
    nobody is asked to go or put to wait, and nothing is announced. -/
structure LeavesOthers (before after : Roster) (x : Record) (work : List Action) : Prop where
  roster : after = before.without x.id
  kick : ∀ q, .kick q ∉ work
  wait : ∀ q, .wait q ∉ work
  announce : ∀ prompt, .announce prompt ∉ work

namespace Roster
variable {r : Roster} {x : Record}

theorem Sound.marked_departed (h : r.Sound) (hx : x ∈ r.records) (hm : x.isMarked = true) :
    (r.departed x).marked + 1 = r.marked := by
  have hpos := h.marked_pos hx hm
  have hrest : (r.rest x).marked = r.marked - 1 := if_pos hm
  rw [(h.departed_fields hx).1, hrest]
  omega

end Roster

/-! ### One event -/

namespace Table
variable {c : Context} {x : Record}

theorem leaveWork_partingOf_of_unmarked (hm : x.isMarked = false) :
    leaveWork c (c.roster.partingOf x) = [.publish (.participantLeft c.conference c.participant.id)] := by
  rw [partingOf_of_unmarked hm]
  rfl

/-- The departure of somebody who is not marked defers nothing but notifications. -/
theorem leavesOthers_of_unmarked (h : c.roster.Settled) (hx : x ∈ c.roster.records) (hm : x.isMarked = false) :
    LeavesOthers c.roster (c.roster.departed x).settle x
      (leaveWork c (c.roster.partingOf x) ++ changeWork c (c.roster.departed x)) := by
  have untouched : ∀ {a : Action}, a ∈ leaveWork c (c.roster.partingOf x) ++ changeWork c (c.roster.departed x) →
      (∃ ps, a = .releaseAll ps) ∨ (∃ id prompt, a = .playPrompt id prompt) ∨ ∃ n, a = .publish n := by
    intro a ha
    rw [leaveWork_partingOf_of_unmarked hm] at ha
    rcases List.mem_append.mp ha with ha | ha
    · exact Or.inr (Or.inr ⟨_, List.mem_singleton.mp ha⟩)
    · rcases changeWork_cases ha with ⟨-, he⟩ | ⟨prompt, he⟩ | ⟨n, he⟩
      · exact Or.inl ⟨_, he⟩
      · exact Or.inr (Or.inl ⟨_, prompt, he⟩)
      · exact Or.inr (Or.inr ⟨n, he⟩)
  refine ⟨h.settle_departed_of_unmarked hx hm, fun q hq => ?_, fun q hq => ?_, fun prompt hq => ?_⟩ <;>
    rcases untouched hq with ⟨ps, he⟩ | ⟨id, prompt, he⟩ | ⟨n, he⟩ <;> cases he

end Table

/-! ### Runs -/

namespace Session
variable {σ : Type} {host : Host σ} {s : Session σ} {settings : ConferenceSettings} {r : Raise}

/-- A leave is accepted if it speaks for the role of whoever raises it, the state lets that role go, and somebody is
    attached under the identifier, in whatever role. -/
theorem Settled.leave_accepted_iff (h : s.Settled settings) (hleave : r.event.isLeave = true) :
    (∃ outcome, (s.apply host r).result = .ok outcome) ↔
      r.event.role = (s.callers r.caller).participant.role ∧ r.event.role ∈ departing s.conference.room.state ∧
        (s.callers r.caller).participant.id ∈ s.conference.room.roster.ids := by
  constructor
  · rintro ⟨outcome, hok⟩
    obtain ⟨work, after, move, -, -⟩ := h.move_of_ok hok
    cases move with
    | join event =>
      have hevent : r.event = .join _ := event
      rw [hevent] at hleave
      cases hleave
    | leave x attached own event handled =>
      have hevent : r.event = .leave (s.callers r.caller).participant.role := event
      exact ⟨by rw [hevent]; rfl, by rw [hevent]; exact handled, own ▸ mem_ids_of_mem attached⟩
  · rintro ⟨hrole, handled, hid⟩
    obtain ⟨x, hx, own⟩ := mem_ids.mp hid
    have hevent : r.event = .leave (s.callers r.caller).participant.role := by
      rw [← hrole]
      cases he : r.event with
      | join role =>
        rw [he] at hleave
        cases hleave
      | leave role => rfl
    rw [apply, hevent]
    exact (h.apply_leave host s.world hx own (hrole ▸ handled)).1

/-- What an accepted leave takes out, and what that does to the others. -/
theorem Settled.taken_out (h : s.Settled settings) (hleave : r.event.isLeave = true) {outcome : Outcome}
    (hok : (s.apply host r).result = .ok outcome) :
    let before := s.conference.room.roster
    let after := (s.step host r).conference.room.roster
    ∃ x ∈ before.records, x.id = (s.callers r.caller).participant.id ∧
      after.people.Perm (before.people.filter (·.id != x.id)) ∧
      (x.role ≠ .marked → LeavesOthers before after x (s.drained r)) ∧
      (x.role = .marked → after.marked + 1 = before.marked) := by
  intro before after
  obtain ⟨work, next, move, hd, hc⟩ := h.move_of_ok hok
  have hafter : after = next.settle := congrArg (·.room.roster) hc
  cases move with
  | join event =>
    have hevent : r.event = .join _ := event
    rw [hevent] at hleave
    cases hleave
  | leave x attached own event =>
    have hsettled : before.Settled := h.room.roster
    refine ⟨x, attached, own, ?_, fun hrole => ?_, fun hrole => ?_⟩
    · rw [hafter, people_settle]
      exact people_departed_perm hsettled.distinct
    · have hm : x.isMarked = false := Bool.not_eq_true _ ▸ mt Record.role_eq_marked_iff.mpr hrole
      rw [hafter, hd]
      exact leavesOthers_of_unmarked hsettled attached hm
    · rw [hafter, marked_settle]
      exact hsettled.toSound.marked_departed attached (Record.role_eq_marked_iff.mp hrole)

/-- After any events a leave is accepted if it speaks for the role of whoever raises it, the state lets that role go
    and the identifier is attached. It takes out the record of that identifier and no other, so the record has the
    role of the event exactly if it was attached in the role in which the leave is raised. Whatever the event, the
    others are left alone if the record is not marked, and one marked participant fewer is counted if it is. -/
theorem leaves_by_attached_role {σ : Type} (host : Host σ) (name : String) (settings : ConferenceSettings)
    (people : Nat → Participant) (w : σ) (raises : List Raise) :
    let now := (start name settings .standard people w).run host raises
    let before := now.conference.room.roster
    (∀ r, r.event.isLeave = true →
      ((∃ outcome, (now.apply host r).result = .ok outcome) ↔
        r.event.role = (now.callers r.caller).participant.role ∧ r.event.role ∈ departing now.conference.room.state ∧
          (now.callers r.caller).participant.id ∈ before.ids)) ∧
    ∀ r outcome, r.event.isLeave = true → (now.apply host r).result = .ok outcome →
      let p := (now.callers r.caller).participant
      let after := (now.step host r).conference.room.roster
      ∃ x ∈ before.records, x.id = p.id ∧ after.people.Perm (before.people.filter (·.id != x.id)) ∧
        (x.role = r.event.role ↔ x.role = p.role) ∧
        (x.role ≠ .marked → LeavesOthers before after x (now.drained r)) ∧
        (x.role = .marked → after.marked + 1 = before.marked) := by
  intro now before
  have h : now.Settled settings := settled_run host name settings people w raises
  refine ⟨fun r hleave => h.leave_accepted_iff hleave, fun r outcome hleave hok => ?_⟩
  obtain ⟨hrole, -, -⟩ := (h.leave_accepted_iff hleave).mp ⟨outcome, hok⟩
  obtain ⟨x, hx, own, hpeople, others, led⟩ := h.taken_out hleave hok
  exact ⟨x, hx, own, hpeople, by rw [hrole], others, led⟩

/-- A plain participant that comes by the identifier of the only leader takes it out with a plain leave: one guest is
    asked to go, another is parked, and it is announced that the leader has left. -/
theorem plain_leave_takes_out_leader :
    let leader : Participant := ⟨"m", .leader⟩
    let passing : Participant := ⟨"g", { waitMarked := true, endMarked := true }⟩
    let guest : Participant := ⟨"w", { waitMarked := true }⟩
    let people : Nat → Participant := fun i =>
      if i = 0 then leader else if i = 1 then passing else if i = 2 then guest else ⟨"m", .plain⟩
    let host : Host Unit := .logging fun _ => id
    let now := (start "room" {} .standard people ()).run host
      [⟨0, .join .marked⟩, ⟨1, .join .waitMarked⟩, ⟨2, .join .waitMarked⟩]
    let leave : Raise := ⟨3, .leave .unmarked⟩
    let before := now.conference.room.roster
    let after := (now.step host leave).conference.room.roster
    (∃ outcome, (now.apply host leave).result = .ok outcome) ∧
      (∃ x ∈ before.records, x.participant = leader ∧ x.role ≠ leave.event.role ∧ x.id ∉ after.ids) ∧
      before.marked = 1 ∧ after.marked = 0 ∧ .kick passing ∈ now.drained leave ∧ .wait guest ∈ now.drained leave ∧
      .announce .leaderHasLeft ∈ now.drained leave := by
  intro leader passing guest people host now leave before after
  have accepted : (now.apply host leave).result = .ok
      { sequence := 4, event := .leave .unmarked, previous := .multiMarked, state := .inactive
        membership := .detaching, work := ⟨5, 0⟩ } := by decide +kernel
  refine ⟨⟨_, accepted⟩, ?_⟩
  decide +kernel

end Session
end ConferenceBridge
