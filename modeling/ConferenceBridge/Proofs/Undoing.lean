import ConferenceBridge.Proofs.Reordering

/-! A join that is taken back at once. Under the policy that demotes, the leave of whoever has just come puts the
    others where they were, in the order in which they were. A leader that has found nobody marked leaves one trace:
    those who are to go without a leader have been asked to, since its leave is that of the last one. -/

namespace ConferenceBridge
open Roster

/-- The record after a last leader has left: asked to go if it does not stay without one, and then not treated. -/
def Record.sentOff (x : Record) : Record :=
  if x.participant.profile.endMarked then { x with kicked := true, onHold := false } else x

namespace Record
variable {x : Record}

@[simp] theorem id_sentOff (x : Record) : x.sentOff.id = x.id := by
  unfold sentOff
  split <;> rfl

theorem IsLive.dismissed_eq (h : x.IsLive) : x.dismissed = x.sentOff := by
  obtain ⟨participant, membership, onHold, kicked⟩ := x
  obtain rfl : onHold = false := h.free
  cases he : participant.profile.endMarked <;> cases kicked <;> simp [Record.dismissed, sentOff, needsKick, he]

/-- Released by a leader and parked again as it leaves, whoever waits is treated again unless it is to go. -/
theorem IsWaiting.parked_eq (h : x.IsWaiting) (treated : x.onHold = !x.kicked) :
    x.live.dismissed.parked.treated = x.sentOff := by
  have hended := h.ended
  have hplace := h.membership
  obtain ⟨participant, membership, onHold, kicked⟩ := x
  obtain rfl : membership = .waiting := hplace
  obtain rfl : onHold = !kicked := treated
  cases he : participant.profile.endMarked <;> cases kicked <;>
    simp_all [Record.dismissed, sentOff, needsKick, needsHold, Record.live, parked, Record.treated, Record.held]

end Record

namespace Roster
variable {r : Roster} {x : Record} {p : Participant}

/-- The roster after a last leader has left. -/
def sentOff (r : Roster) : Roster :=
  { r with active := r.active.map Record.sentOff, waiting := r.waiting.map Record.sentOff }

/-- What is left of a roster after a participant has come and gone: a leader, if there is no other, has sent off
    those who do not stay without one. -/
def visited (r : Roster) (p : Participant) : Roster :=
  if p.isMarked ∧ ∀ x ∈ r.records, x.isMarked = false then r.sentOff else r

theorem activeIds_visited : (r.visited p).activeIds = r.activeIds := by
  unfold visited
  split <;> simp [sentOff, activeIds, Function.comp_def]

theorem waitingIds_visited : (r.visited p).waitingIds = r.waitingIds := by
  unfold visited
  split <;> simp [sentOff, waitingIds, Function.comp_def]

theorem marked_visited : (r.visited p).marked = r.marked := by
  unfold visited
  split <;> rfl

theorem target_visited : (r.visited p).target = r.target := by
  unfold visited
  split <;> simp [sentOff, target]

theorem Sound.visited_eq (h : r.Sound) : r.visited p = if p.isMarked ∧ r.marked = 0 then r.sentOff else r := by
  have hnone : (∀ x ∈ r.records, x.isMarked = false) ↔ r.marked = 0 := by
    refine ⟨fun hall => Nat.eq_zero_of_not_pos fun hpos => ?_, h.isMarked_eq_false⟩
    obtain ⟨x, hx, hm⟩ := h.marked_pos_iff.mp hpos
    rw [hall x hx] at hm
    cases hm
  simp only [visited, hnone]

theorem Sound.remaining_eq {t : Roster} {ids : List String} (h : r.Sound)
    (active : t.active.filter (fun x => x.id ∉ ids) = r.active)
    (waiting : t.waiting.filter (fun x => x.id ∉ ids) = r.waiting)
    (maxMembers : t.maxMembers = r.maxMembers) (policy : t.policy = r.policy) : t.remaining ids = r := by
  simp only [Roster.remaining, withoutAll, active, waiting, maxMembers, policy, ← h.count]

/-- Once an arrival is gone again the others are as they were, or released if somebody was marked meanwhile. -/
theorem Settled.remaining_settle_place (h : r.Settled) (new : p.id ∉ r.ids) :
    (r.place p).settle.remaining [p.id] = if 0 < (r.place p).marked then r.release.2 else r := by
  have keep : ∀ l : List Record, (∀ x ∈ l, x ∈ r.records) → l.filter (fun x => x.id ∉ [p.id]) = l := by
    intro l hl
    rw [List.filter_eq_self]
    intro x hx
    simpa using fun hid : x.id = p.id => new (mem_ids.mpr ⟨x, hl x hx, hid⟩)
  have ha := keep r.active fun x hx => mem_records.mpr (Or.inl hx)
  have hw := keep r.waiting fun x hx => mem_records.mpr (Or.inr hx)
  rcases place_cases r p with ⟨-, -, hp, -⟩ | ⟨-, hp, he⟩
  · rw [h.settle_place_of_waiting hp, if_neg (by simp [(h.needsHold_place hp).1])]
    refine h.remaining_eq ha ?_ rfl rfl
    rw [List.filter_append, hw]
    simp [Record.awaiting, Record.id]
  · have hactive : (r.place p).active.filter (fun x => x.id ∉ [p.id]) = r.active := by
      rw [he, List.filter_append, ha]
      simp [Record.id]
    split
    · rename_i hpos
      rw [settle_of_pos hpos]
      refine h.toSound.release.remaining_eq ?_ rfl (maxMembers_place r p) (policy_place r p)
      show ((r.place p).active ++ (r.place p).waiting.map Record.live).filter _ = _
      rw [List.filter_append, hactive, filter_id_map Record.id_live, he, hw]
      rfl
    · rename_i h0
      rw [h.settle_place_of_zero hp (Nat.eq_zero_of_not_pos h0)]
      refine h.remaining_eq hactive ?_ (maxMembers_place r p) (policy_place r p)
      rw [he, hw]

/-- Whom a first leader has released, its leave parks again, and nobody else. -/
theorem Settled.split_release (h : r.Settled) (hp : r.policy = .demoteWaitMarked) (h0 : r.marked = 0) :
    (r.release.2.active.map Record.dismissed).filter (·.role != .waitMarked) = r.active.map Record.dismissed ∧
      (r.release.2.active.map Record.dismissed).filter (·.role == .waitMarked) =
        r.waiting.map fun x => x.live.dismissed := by
  have hmap : r.release.2.active.map Record.dismissed =
      r.active.map Record.dismissed ++ r.waiting.map fun x => x.live.dismissed := by
    simp [release, Function.comp_def]
  have hlive : ∀ x ∈ r.active.map Record.dismissed, x.role ≠ .waitMarked := by
    intro x hx
    obtain ⟨y, hy, rfl⟩ := List.mem_map.mp hx
    rw [Record.role_dismissed]
    exact h.gate hp h0 y hy
  have hparked : ∀ x ∈ r.waiting.map (fun x => x.live.dismissed), x.role = .waitMarked := by
    intro x hx
    obtain ⟨y, hy, rfl⟩ := List.mem_map.mp hx
    rw [Record.role_dismissed]
    exact (h.waiting y hy).gated
  rw [hmap, List.filter_append, List.filter_append]
  constructor
  · rw [List.filter_eq_self.mpr fun x hx => by simpa using hlive x hx,
      List.filter_eq_nil_iff.mpr fun x hx => by simp [hparked x hx], List.append_nil]
  · rw [List.filter_eq_nil_iff.mpr fun x hx => by simpa using hlive x hx,
      List.filter_eq_self.mpr fun x hx => by simp [hparked x hx], List.nil_append]

/-- A leader that comes and goes has those who wait made live and parked again, in the same order. -/
theorem Settled.unled_release (h : r.Settled) (hp : r.policy = .demoteWaitMarked) (h0 : r.marked = 0) :
    r.release.2.unled = r.sentOff := by
  obtain ⟨hactive, hwaiting⟩ := h.split_release hp h0
  have hdismissed : r.active.map Record.dismissed = r.active.map Record.sentOff :=
    List.map_congr_left fun x hx => (h.live x hx).dismissed_eq
  have htreated : r.waiting.map (fun x => x.live.dismissed.parked.treated) = r.waiting.map Record.sentOff :=
    List.map_congr_left fun x hx => (h.waiting x hx).parked_eq (h.treated x hx)
  rw [unled, loseLastMarked_of_demote (r := r.release.2) hp (nodup_active h.toSound.release.distinct), hactive,
    hwaiting, sentOff, ← hdismissed, ← htreated]
  simp [holdWaiting_eq, release, Function.comp_def]

/-- A participant that comes and goes leaves the others as they were, but for those that it has sent off as the
    only leader. -/
theorem Settled.leftBy_settle_place (h : r.Settled) (hp : r.policy = .demoteWaitMarked) (new : p.id ∉ r.ids) :
    (r.place p).settle.leftBy [p.id] = r.visited p := by
  have hmarked : (r.place p).marked = if p.isMarked then r.marked + 1 else r.marked := by
    rcases place_cases r p with ⟨hr, -, -, he⟩ | ⟨-, -, he⟩
    · rw [he, Participant.isMarked_of_role_eq_waitMarked hr]
      rfl
    · rw [he]
  have hrest : ((r.place p).settle.remaining [p.id]).marked = r.marked := by
    rw [h.remaining_settle_place new]
    split <;> rfl
  have hled : 0 < (r.place p).settle.marked ∧ ((r.place p).settle.remaining [p.id]).marked = 0 ↔
      p.isMarked = true ∧ r.marked = 0 := by
    rw [hrest, marked_settle, hmarked]
    refine and_congr_left fun h0 => ?_
    split <;> simp_all
  by_cases hl : p.isMarked = true ∧ r.marked = 0
  · have hpos : 0 < (r.place p).marked := by
      rw [hmarked, if_pos hl.1]
      exact Nat.succ_pos _
    rw [leftBy, if_pos (hled.mpr hl), h.visited_eq, if_pos hl, h.remaining_settle_place new, if_pos hpos,
      h.unled_release hp hl.2]
  · rw [leftBy, if_neg (mt hled.mp hl), h.visited_eq, if_neg hl, h.remaining_settle_place new]
    split
    · -- Somebody else is marked, so nobody was waiting.
      rename_i hpos
      have hr : 0 < r.marked := by
        refine Nat.pos_of_ne_zero fun h0 => ?_
        have hm : p.isMarked = false := by simpa [h0] using hl
        rw [hmarked, hm, h0] at hpos
        exact absurd hpos (by decide)
      rw [release_eq_self (h.led hr)]
    · rfl

end Roster

namespace Session
variable {σ : Type} {host : Host σ} {s : Session σ} {settings : ConferenceSettings}

theorem Settled.new_of_accepted (h : s.Settled settings) {i : Nat}
    (hok : ∃ outcome, (s.apply host (s.joinOf i)).result = .ok outcome) :
    (s.who i).id ∉ s.conference.room.roster.ids ∧ s.conference.room.roster.isFull = false := by
  obtain ⟨outcome, hok⟩ := hok
  rcases h.roster_cases host (s.joinOf i) with ⟨⟨error, he⟩, -⟩ | ⟨work, after, move, -⟩
  · rw [hok] at he
    cases he
  · cases move with
    | join _ new fits => exact ⟨new, fits⟩
    | leave _ _ _ event => cases event

/-- After any events under the policy that demotes, whoever joins can leave again at once, and that restores the
    snapshot, but for the number, which has gone up by two. The records of the others are as before and in the same
    order, except that a leader who has found nobody marked has had those asked to go who are to go without one. -/
theorem join_undone_by_leave {σ : Type} (host : Host σ) (name : String) (most : Option Nat)
    (people : Nat → Participant) (w : σ) (raises : List Raise) (i : Nat) :
    let now := (start name ⟨most, .demoteWaitMarked⟩ .standard people w).run host raises
    let joined := now.step host (now.joinOf i)
    let left := joined.step host (joined.leaveOf i)
    let roster := now.conference.room.roster
    (∃ outcome, (now.apply host (now.joinOf i)).result = .ok outcome) →
      (∃ outcome, (joined.apply host (joined.leaveOf i)).result = .ok outcome) ∧
      left.conference.snapshot = { now.conference.snapshot with sequence := now.conference.sequence + 2 } ∧
      left.conference.room = { now.conference.room with roster := roster.visited (now.who i) } := by
  intro now joined left roster hok
  have h : now.Settled ⟨most, .demoteWaitMarked⟩ := settled_run host name _ people w raises
  have hjoined : joined.Settled ⟨most, .demoteWaitMarked⟩ := h.step host (now.joinOf i)
  have hleft : left.Settled ⟨most, .demoteWaitMarked⟩ := hjoined.step host (joined.leaveOf i)
  obtain ⟨new, fits⟩ := h.new_of_accepted hok
  have hroster : joined.conference.room.roster = (roster.place (now.who i)).settle := (h.step_join host new fits).2
  have hwho : joined.who i = now.who i := congrFun (who_step host now _) i
  have attached : joined.who i ∈ joined.conference.room.roster.people := by
    rw [hroster, hwho, people_settle, people_place_perm.mem_iff]
    exact List.mem_cons_self
  obtain ⟨hleave, hafter⟩ := hjoined.step_leave host attached
  have hvisited : left.conference.room.roster = roster.visited (now.who i) := by
    rw [hafter, hwho, hroster, h.room.roster.leftBy_settle_place h.policy new]
  have hroom : left.conference.room = { now.conference.room with roster := roster.visited (now.who i) } := by
    refine congrArg₂ Room.mk ?_ hvisited
    rw [hleft.room.state, hvisited, target_visited, h.room.state]
  have hname : left.conference.name = now.conference.name := Conference.name_apply.trans Conference.name_apply
  have hsequence : left.conference.sequence = now.conference.sequence + 2 := by
    obtain ⟨_, hok⟩ := hok
    obtain ⟨_, hleave⟩ := hleave
    obtain ⟨hfirst, -, hfirst', -⟩ := Conference.outcome_of_ok hok
    obtain ⟨hsecond, -, hsecond', -⟩ := Conference.outcome_of_ok hleave
    calc left.conference.sequence = joined.conference.sequence + 1 := hsecond'.trans hsecond
      _ = now.conference.sequence + 1 + 1 := congrArg (· + 1) (hfirst'.trans hfirst)
  refine ⟨hleave, ?_, hroom⟩
  simp only [Conference.snapshot, hname, hroom, hsequence, activeIds_visited, waitingIds_visited, marked_visited]
  rfl

/-- A leader that looks in on a guest who is to go without one leaves it where it was, but asked to go. -/
theorem guest_sent_off_by_visit :
    let guest : Participant := ⟨"w", { waitMarked := true, endMarked := true }⟩
    let now := (start "room" ⟨none, .demoteWaitMarked⟩ .standard (fun i => if i = 0 then guest else ⟨"m", .leader⟩) ()).run
      (.logging fun _ => id) [⟨0, .join .waitMarked⟩]
    let joined := now.step (.logging fun _ => id) (now.joinOf 1)
    let left := joined.step (.logging fun _ => id) (joined.leaveOf 1)
    (∃ outcome, (now.apply (.logging fun _ => id) (now.joinOf 1)).result = .ok outcome) ∧
      left.conference.room =
        ⟨.inactive, { waiting := [{ participant := guest, membership := .waiting, kicked := true }] }⟩ := by
  intro guest now joined left
  have h : now.Settled ⟨none, .demoteWaitMarked⟩ := settled_run _ _ _ _ _ _
  have hnow : now.conference.room = ⟨.inactive, { waiting := [.awaiting guest] }⟩ := by decide +kernel
  have hok := (h.step_join (.logging fun _ => id) (i := 1) (by rw [hnow]; decide) (by rw [hnow]; rfl)).1
  obtain ⟨-, -, hroom⟩ := join_undone_by_leave (.logging fun _ => id) "room" none
    (fun i => if i = 0 then guest else ⟨"m", .leader⟩) () [⟨0, .join .waitMarked⟩] 1 hok
  exact ⟨hok, by rw [hroom, hnow]; decide⟩

end Session
end ConferenceBridge
