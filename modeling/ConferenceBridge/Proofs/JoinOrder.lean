import ConferenceBridge.Proofs.Attachment
import ConferenceBridge.Proofs.Work

/-! The queue of the wait-marked. Leaders come and go, and every time those who wait are released to the end of
    the live list and parked again at the end of the waiting list. Read from the live list on into the waiting
    list, the wait-marked stand in the order in which they have joined all the same: nobody is released or
    parked past another, and whoever joins stands behind everybody else. -/

namespace ConferenceBridge
open Roster Table

/-! ### Rosters -/

namespace Roster
variable {r : Roster} {x : Record} {p : Participant}

/-- The wait-marked participants, the live before the waiting. -/
def guests (r : Roster) : List Participant := (r.records.filter (·.role == .waitMarked)).map (·.participant)

theorem guests_eq : r.guests = r.people.filter (·.role == .waitMarked) := by
  rw [people, List.filter_map]
  rfl

theorem mem_people_of_mem_guests (h : p ∈ r.guests) : p ∈ r.people := List.mem_of_mem_filter (guests_eq ▸ h)

theorem guests_settle : r.settle.guests = r.guests := by rw [guests_eq, people_settle, guests_eq]

theorem Sound.waiting_sublist_guests (h : r.Sound) : (r.waiting.map (·.participant)).Sublist r.guests := by
  have hw : r.waiting.filter (·.role == .waitMarked) = r.waiting :=
    List.filter_eq_self.mpr fun x hx => beq_iff_eq.mpr (h.waiting x hx).gated
  rw [guests, records, List.filter_append, hw, List.map_append]
  exact List.sublist_append_right _ _

/-- Whoever arrives stands behind everybody else: where it goes live, nobody waits. -/
theorem Settled.guests_place (h : r.Settled) (p : Participant) :
    (r.place p).guests = r.guests ++ [p].filter (·.role == .waitMarked) := by
  rcases place_cases r p with ⟨-, -, -, he⟩ | ⟨hpos, -, he⟩
  · simp [he, guests_eq, people, records]
  · by_cases hr : p.role = .waitMarked
    · simp [he, guests_eq, people, records, h.led (hpos hr)]
    · simp [he, guests_eq, people, records, hr]

/-- Where nobody waits, demotion keeps the order of those it parks. -/
theorem guests_loseLastMarked (h : r.ids.Nodup) (hw : r.waiting = []) : r.loseLastMarked.2.2.guests = r.guests := by
  cases hp : r.policy with
  | keepActive =>
    rw [loseLastMarked_of_keepActive hp]
    simp only [guests_eq, people, records, List.map_append, map_participant_dismissed]
  | demoteWaitMarked =>
    rw [loseLastMarked_of_demote hp (nodup_active h)]
    have stayed : ((r.active.map Record.dismissed).filter (·.role != .waitMarked)).filter (·.role == .waitMarked) =
        [] := by
      simp [List.filter_filter]
    have parked : (((r.active.map Record.dismissed).filter (·.role == .waitMarked)).map Record.parked).filter
        (·.role == .waitMarked) = ((r.active.filter (·.role == .waitMarked)).map Record.dismissed).map Record.parked := by
      simp [List.filter_map, Function.comp_def, List.filter_filter]
    simp only [guests, records, hw, List.nil_append, List.append_nil, List.filter_append, stayed, parked, List.map_map,
      Function.comp_def, Record.participant_parked, Record.participant_dismissed]

theorem Settled.guests_departed (h : r.Settled) (hx : x ∈ r.records) :
    (r.departed x).guests = r.guests.filter (·.id != x.id) := by
  have hrest : (r.rest x).guests = r.guests.filter (·.id != x.id) := by
    rw [guests_eq, show (r.rest x).people = _ from people_without, guests_eq, List.filter_comm]
  unfold departed
  split
  · rename_i hl
    rw [guests_loseLastMarked (h.rest hx).distinct (h.waiting_rest (h.marked_pos hx hl.1) x), hrest]
  · exact hrest

end Roster

/-! ### One event -/

namespace Table
variable {c : Context} {work : List Action} {after : Roster} {ps : List Participant}

/-- A release names those who wait, in their order. -/
theorem Move.released (h : c.roster.Settled) (move : Move c work after)
    (ha : .releaseAll ps ∈ work ++ changeWork c after) : ps.Sublist (c.roster.waiting.map (·.participant)) := by
  cases move with
  | join =>
    rcases List.mem_append.mp ha with ha | ha
    · rcases joinWork_cases ha with ha | ha | ⟨_, ha⟩ | ⟨_, ha⟩ | ⟨_, ha⟩ <;> cases ha
    · rcases changeWork_cases ha with ⟨hpos, ha⟩ | ⟨_, ha⟩ | ⟨_, ha⟩ <;> cases ha
      rcases place_cases c.roster c.participant with ⟨-, h0, -, he⟩ | ⟨-, -, he⟩
      · rw [he] at hpos
        exact absurd h0 (Nat.ne_of_gt hpos)
      · rw [he]
  | leave x attached =>
    rcases List.mem_append.mp ha with ha | ha
    · rcases leaveWork_cases ha with ⟨_, -, ha⟩ | ⟨_, -, ha⟩ | ha | ha <;> cases ha
    · rcases changeWork_cases ha with ⟨hpos, ha⟩ | ⟨_, ha⟩ | ⟨_, ha⟩ <;> cases ha
      -- Somebody marked stays, so nobody waits.
      rw [h.departed_led attached hpos]
      exact List.nil_sublist _

end Table

/-! ### Runs -/

namespace Session
variable {σ : Type} {host : Host σ} {s : Session σ} {settings : ConferenceSettings} {raises : List Raise}
  {p q : Participant} {r : Raise}

/-- Both are attached, and the attachment of the one has begun before that of the other. -/
def JoinedBefore (host : Host σ) (s : Session σ) (raises : List Raise) (p q : Participant) : Prop :=
  ∃ (a : Attachment host s raises p) (b : Attachment host s raises q), a.earlier.length < b.earlier.length

/-- The order of two attachments stays what it is as long as both go on. -/
theorem JoinedBefore.extended (h : JoinedBefore host s raises p q) (hs : (s.run host raises).Settled settings)
    (hp : p ∈ (s.run host raises).conference.room.roster.people)
    (hq : q ∈ (s.run host raises).conference.room.roster.people)
    (hp' : p ∈ (s.run host (raises ++ [r])).conference.room.roster.people)
    (hq' : q ∈ (s.run host (raises ++ [r])).conference.room.roster.people) :
    JoinedBefore host s (raises ++ [r]) p q := by
  obtain ⟨a, b, hab⟩ := h
  exact ⟨a.extended (fun hj => hs.new_of_joins hj hp) hp', b.extended (fun hj => hs.new_of_joins hj hq) hq', hab⟩

/-- Whoever joins has joined after everybody else who is still there. -/
theorem JoinedBefore.begun (a : Attachment host s raises p) (hs : (s.run host raises).Settled settings)
    (hj : (s.run host raises).Joins host q.id r) (hp : p ∈ (s.run host raises).conference.room.roster.people)
    (hp' : p ∈ (s.run host (raises ++ [r])).conference.room.roster.people)
    (hq' : q ∈ (s.run host (raises ++ [r])).conference.room.roster.people) :
    JoinedBefore host s (raises ++ [r]) p q := by
  refine ⟨a.extended (fun hj => hs.new_of_joins hj hp) hp', .begun hj hq', ?_⟩
  have hlen := congrArg List.length a.split
  rw [List.length_append, List.length_cons] at hlen
  show a.earlier.length < raises.length
  omega

/-- What an event makes of the queue: some go, and at most one who joins comes to its end. -/
theorem Settled.guests_step (h : s.Settled settings) (host : Host σ) (r : Raise) :
    (s.step host r).conference.room.roster.guests.Sublist s.conference.room.roster.guests ∨
      ∃ p, s.Joins host p.id r ∧
        (s.step host r).conference.room.roster.guests = s.conference.room.roster.guests ++ [p] := by
  rcases h.roster_cases host r with ⟨-, hroster⟩ | ⟨work, after, move, accepted, hroster⟩
  · rw [hroster]
    exact Or.inl (List.Sublist.refl _)
  · rw [hroster, guests_settle]
    cases move with
    | join event =>
      have event : r.event = .join _ := event
      have hplace := h.room.roster.guests_place (s.callers r.caller).participant
      by_cases hr : (s.callers r.caller).participant.role = .waitMarked
      · refine Or.inr ⟨_, ⟨by rw [event]; rfl, rfl, accepted⟩, hplace.trans ?_⟩
        simp [hr]
      · refine Or.inl ?_
        rw [show ((s.context r).roster.place (s.context r).participant).guests = _ from hplace]
        simp [hr]
    | leave x attached =>
      rw [show ((s.context r).roster.departed x).guests = _ from h.room.roster.guests_departed attached]
      exact Or.inl List.filter_sublist

/-- After any events the queue stands in the order of the joins. -/
theorem Settled.guests_run (h : s.Settled settings) (hnone : s.conference.room.roster.people = [])
    (raises : List Raise) :
    (s.run host raises).conference.room.roster.guests.Pairwise (s.JoinedBefore host raises) := by
  induction raises using List.reverseRecOn with
  | nil =>
    have hempty : s.conference.room.roster.guests = [] := by rw [guests_eq, hnone, List.filter_nil]
    exact (congrArg (List.Pairwise _) hempty).mpr List.Pairwise.nil
  | append_singleton raises r ih =>
    have hs := h.run host raises
    have hstep := hs.guests_step host r
    rw [← run_concat] at hstep
    have inherit : ∀ l : List Participant, l.Sublist (s.run host raises).conference.room.roster.guests →
        (∀ p ∈ l, p ∈ (s.run host (raises ++ [r])).conference.room.roster.guests) →
        l.Pairwise (s.JoinedBefore host (raises ++ [r])) := by
      intro l hl hstay
      refine (ih.sublist hl).imp_of_mem fun hp hq hpq => ?_
      exact hpq.extended hs (mem_people_of_mem_guests (hl.subset hp)) (mem_people_of_mem_guests (hl.subset hq))
        (mem_people_of_mem_guests (hstay _ hp)) (mem_people_of_mem_guests (hstay _ hq))
    rcases hstep with hless | ⟨p, hj, hmore⟩
    · exact inherit _ hless fun _ hp => hp
    · have hstay : ∀ q ∈ (s.run host raises).conference.room.roster.guests,
          q ∈ (s.run host (raises ++ [r])).conference.room.roster.guests := by
        intro q hq
        rw [hmore]
        exact List.mem_append_left _ hq
      have hnew : p ∈ (s.run host (raises ++ [r])).conference.room.roster.guests := by
        rw [hmore]
        exact List.mem_append_right _ (List.mem_singleton_self p)
      rw [hmore]
      refine List.pairwise_append.mpr ⟨inherit _ (List.Sublist.refl _) hstay, List.pairwise_singleton _ p, ?_⟩
      intro q hq p' hp'
      obtain rfl := List.mem_singleton.mp hp'
      obtain ⟨a⟩ := h.attachment hnone (mem_people_of_mem_guests hq)
      exact .begun a hs hj (mem_people_of_mem_guests hq) (mem_people_of_mem_guests (hstay q hq))
        (mem_people_of_mem_guests hnew)

/-- After any events the wait-marked stand in the order of their last accepted joins, from the live list on into
    the waiting list; so do those who wait, and everybody whom the next event releases is named in that order. -/
theorem guests_by_joins {σ : Type} (host : Host σ) (name : String) (settings : ConferenceSettings)
    (people : Nat → Participant) (w : σ) (raises : List Raise) :
    let s := start name settings .standard people w
    let roster := (s.run host raises).conference.room.roster
    roster.guests.Pairwise (s.JoinedBefore host raises) ∧
    (roster.waiting.map (·.participant)).Pairwise (s.JoinedBefore host raises) ∧
    ∀ r ps, .releaseAll ps ∈ (s.run host raises).drained r → ps.Pairwise (s.JoinedBefore host raises) := by
  intro s roster
  have h : s.Settled settings := settled_start name settings people w
  have hnow : (s.run host raises).Settled settings := h.run host raises
  have hqueue : roster.guests.Pairwise (s.JoinedBefore host raises) := h.guests_run rfl raises
  have hwaiting := hqueue.sublist hnow.room.roster.waiting_sublist_guests
  refine ⟨hqueue, hwaiting, fun r ps hps => ?_⟩
  rcases hnow.step_cases host r with ⟨-, hd, -⟩ | ⟨work, after, move, -, hd, -⟩
  · rw [hd] at hps
    cases hps
  · rw [hd] at hps
    exact hwaiting.sublist (move.released hnow.room.roster hps)

end Session
end ConferenceBridge
