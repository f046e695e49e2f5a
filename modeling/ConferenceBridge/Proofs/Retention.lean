import ConferenceBridge.Proofs.Attachment

/-! The gate under the policy that keeps the live. It only holds up arrivals: whoever is live stays so until its
    own leave, and a wait-marked participant is live as soon as a marked one has been there with it once. So
    who is live cannot be told from who is attached, but from the course of each attachment. -/

namespace ConferenceBridge
open Roster Table

/-! ### Rosters -/

namespace Roster
variable {r : Roster} {x : Record} {p q : Participant}

/-- The participant is in the live mix. -/
def Live (r : Roster) (p : Participant) : Prop := ∃ x ∈ r.active, x.participant = p

theorem Live.mem_people (h : r.Live p) : p ∈ r.people := by
  obtain ⟨x, hx, rfl⟩ := h
  exact List.mem_map_of_mem (mem_records.mpr (Or.inl hx))

theorem mem_people : p ∈ r.people ↔ r.Live p ∨ ∃ x ∈ r.waiting, x.participant = p := by
  simp only [people, List.mem_map, mem_records, or_and_right, exists_or, Live]

/-- Whoever is live is so with the record that it is attached with. -/
theorem live_iff_mem_active (h : r.ids.Nodup) (hx : x ∈ r.records) : r.Live x.participant ↔ x ∈ r.active := by
  constructor
  · rintro ⟨y, hy, hyx⟩
    have hid : y.id = x.id := congrArg Participant.id hyx
    rwa [← List.inj_on_of_nodup_map h (mem_records.mpr (Or.inl hy)) hx hid]
  · exact fun hx => ⟨x, hx, rfl⟩

/-- Once the others are settled, those are live that were, and everybody attached if somebody is marked. -/
theorem live_settle_iff : r.settle.Live p ↔ r.Live p ∨ (0 < r.marked ∧ p ∈ r.people) := by
  rcases Nat.eq_zero_or_pos r.marked with h0 | hpos
  · simp [settle_of_zero h0, Live, holdWaiting, h0]
  · rw [settle_of_pos hpos, mem_people]
    simp [hpos, Live, release, or_and_right, exists_or]

theorem live_place_iff : (r.place p).Live q ↔ r.Live q ∨ (q = p ∧ r.placement p = .active) := by
  rcases place_cases r p with ⟨-, -, hw, he⟩ | ⟨-, ha, he⟩
  · simp [he, hw, Live]
  · simp [he, ha, Live, or_and_right, exists_or, @eq_comm _ q p]

/-- A departure demotes nobody under the policy that keeps the live. -/
theorem live_departed_iff (h : r.policy = .keepActive) : (r.departed x).Live p ↔ r.Live p ∧ p.id ≠ x.id := by
  have rest : (r.rest x).Live p ↔ r.Live p ∧ p.id ≠ x.id := by
    simp only [Live, Roster.rest, without, List.mem_filter, bne_iff_ne]
    constructor
    · rintro ⟨y, ⟨hy, hne⟩, rfl⟩
      exact ⟨⟨y, hy, rfl⟩, hne⟩
    · rintro ⟨⟨y, hy, rfl⟩, hne⟩
      exact ⟨y, ⟨hy, hne⟩, rfl⟩
  rw [← rest]
  unfold departed
  split
  · rw [loseLastMarked_of_keepActive (r := r.rest x) h]
    simp [Live]
  · rfl

end Roster

/-! ### One event -/

namespace Table
variable {c : Context} {work : List Action} {after : Roster} {p : Participant}

namespace Move

/-- Whoever stays attached through an event is live after it if it was before, or if somebody is marked then. -/
theorem live_settle_iff (h : c.roster.Settled) (move : Move c work after) (hp : c.roster.policy = .keepActive)
    (before : p ∈ c.roster.people) (attached : p ∈ after.people) :
    after.settle.Live p ↔ c.roster.Live p ∨ 0 < after.marked := by
  have same : after.Live p ↔ c.roster.Live p := by
    cases move with
    | join _ new =>
      have hne : p ≠ c.participant := by
        rintro rfl
        exact new (map_id_people ▸ List.mem_map_of_mem before)
      simp [live_place_iff, hne]
    | leave x =>
      have hne : p.id ≠ x.id := ((mem_people_departed h.distinct).mp attached).2
      simp [live_departed_iff hp, hne]
  rw [Roster.live_settle_iff, same, and_iff_left attached]

/-- An arrival that is wait-marked is live exactly if somebody is marked. -/
theorem live_arrival_iff (h : c.roster.Settled) (move : Move c work after) (hr : p.role = .waitMarked)
    (new : p ∉ c.roster.people) (attached : p ∈ after.people) : after.settle.Live p ↔ 0 < after.marked := by
  rw [Roster.live_settle_iff, and_iff_left attached, or_iff_right_iff_imp]
  intro hlive
  cases move with
  | join =>
    rcases live_place_iff.mp hlive with hold | ⟨rfl, ha⟩
    · exact absurd hold.mem_people new
    · rcases place_cases c.roster c.participant with ⟨-, -, hw, -⟩ | ⟨hpos, -, he⟩
      · rw [hw] at ha
        cases ha
      · rw [he, Participant.isMarked_of_role_eq_waitMarked hr]
        exact hpos hr
  | leave x =>
    exact absurd ((mem_people_departed h.distinct).mp attached).1 new

end Move
end Table

/-! ### Runs -/

namespace Session
variable {σ : Type} {host : Host σ} {s : Session σ} {p : Participant} {r : Raise} {settings : ConferenceSettings}

theorem Settled.live_step_iff (h : s.Settled settings) (hp : settings.policy = .keepActive)
    (before : p ∈ s.conference.room.roster.people) (attached : p ∈ (s.step host r).conference.room.roster.people) :
    (s.step host r).conference.room.roster.Live p ↔
      s.conference.room.roster.Live p ∨ 0 < (s.step host r).conference.room.roster.marked := by
  rcases h.roster_cases host r with ⟨-, hroster⟩ | ⟨work, after, move, -, hroster⟩
  · -- A refused event moves nobody, and where somebody is marked nobody waits.
    rw [hroster, iff_self_or]
    intro hpos
    rcases Roster.mem_people.mp before with hlive | ⟨x, hx, -⟩
    · exact hlive
    · rw [h.room.roster.led hpos] at hx
      cases hx
  · rw [hroster, people_settle] at attached
    rw [hroster, marked_settle]
    exact move.live_settle_iff h.room.roster (h.policy.trans hp) before attached

theorem Settled.live_arrival_iff (h : s.Settled settings) (hj : s.Joins host p.id r) (hr : p.role = .waitMarked)
    (attached : p ∈ (s.step host r).conference.room.roster.people) :
    (s.step host r).conference.room.roster.Live p ↔ 0 < (s.step host r).conference.room.roster.marked := by
  have new := h.new_of_joins hj
  rcases h.roster_cases host r with ⟨⟨error, he⟩, -⟩ | ⟨work, after, move, -, hroster⟩
  · obtain ⟨-, -, outcome, ho⟩ := hj
    rw [he] at ho
    cases ho
  · rw [hroster, people_settle] at attached
    rw [hroster, marked_settle]
    exact move.live_arrival_iff h.room.roster hr new attached

/-- At every moment of its attachment a wait-marked participant is live exactly if somebody marked has been there
    by then. -/
theorem Attachment.live_iff {raises : List Raise} (a : Attachment host s raises p) (h : s.Settled settings)
    (hp : settings.policy = .keepActive) (hr : p.role = .waitMarked) {past : List Raise} (hpast : past <+: a.since) :
    (a.moment past).conference.room.roster.Live p ↔
      ∃ first, first <+: past ∧ 0 < (a.moment first).conference.room.roster.marked := by
  induction past using List.reverseRecOn with
  | nil =>
    have attached := a.stayed [] (List.nil_prefix)
    change p ∈ (a.moment []).conference.room.roster.people at attached
    simp only [List.prefix_nil, exists_eq_left]
    rw [moment_nil] at attached ⊢
    exact (h.run host a.earlier).live_arrival_iff a.joined hr attached
  | append_singleton past r ih =>
    have hbefore : past <+: a.since := (List.prefix_append past [r]).trans hpast
    have attached := a.stayed _ hpast
    change p ∈ (a.moment (past ++ [r])).conference.room.roster.people at attached
    simp only [List.prefix_concat_iff, or_and_right, exists_or, exists_eq_left]
    rw [← ih hbefore, or_comm]
    rw [moment_concat] at attached ⊢
    exact (a.settled h past).live_step_iff hp (a.stayed past hbefore) attached

/-- Whoever is live stays so until its own leave is accepted. -/
theorem Settled.live_run (h : s.Settled settings) (hp : settings.policy = .keepActive)
    (hlive : s.conference.room.roster.Live p) (later : List Raise) :
    (s.run host later).conference.room.roster.Live p ∨
      ∃ past r rest, later = past ++ r :: rest ∧ (s.run host past).Leaves host p.id r := by
  induction later using List.reverseRecOn with
  | nil => exact Or.inl hlive
  | append_singleton later r ih =>
    rcases ih with hlive | ⟨past, next, rest, rfl, hl⟩
    · by_cases hl : (s.run host later).Leaves host p.id r
      · exact Or.inr ⟨later, r, [], rfl, hl⟩
      · have hs := h.run host later
        have attached := (hs.mem_people_step host r p).mpr (Or.inr ⟨hlive.mem_people, hl⟩)
        rw [run_concat]
        exact Or.inl ((hs.live_step_iff hp hlive.mem_people attached).mpr (Or.inl hlive))
    · exact Or.inr ⟨past, next, rest ++ [r], by simp, hl⟩

/-- After any events under the policy that keeps the live, a wait-marked participant is live exactly if
    somebody marked was attached at some moment since its last accepted join, all others are live, and
    whoever is live stays so, whatever is raised later, until its own leave is accepted. -/
theorem live_by_attachment {σ : Type} (host : Host σ) (name : String) (most : Option Nat)
    (people : Nat → Participant) (w : σ) (raises : List Raise) :
    let s := start name ⟨most, .keepActive⟩ .standard people w
    let roster := (s.run host raises).conference.room.roster
    (∀ x ∈ roster.records, ∃ a : Attachment host s raises x.participant,
      x.role = .waitMarked → (x ∈ roster.active ↔
        ∃ past, past <+: a.since ∧ ∃ y ∈ (a.moment past).conference.room.roster.records, y.isMarked = true)) ∧
    (∀ x ∈ roster.records, x.role ≠ .waitMarked → x ∈ roster.active) ∧
    ∀ x ∈ roster.active, ∀ later,
      (∃ y ∈ (s.run host (raises ++ later)).conference.room.roster.active, y.participant = x.participant) ∨
      ∃ past r rest, later = past ++ r :: rest ∧ (s.run host (raises ++ past)).Leaves host x.id r := by
  intro s roster
  have h : s.Settled ⟨most, .keepActive⟩ := settled_start name _ people w
  have hnow := (h.run host raises).room.roster
  refine ⟨fun x hx => ?_, fun x hx hr => ?_, fun x hx later => ?_⟩
  · obtain ⟨a⟩ := h.attachment rfl (List.mem_map_of_mem (f := (·.participant)) hx)
    refine ⟨a, fun hr => ?_⟩
    have hled : ∀ past, 0 < (a.moment past).conference.room.roster.marked ↔
        ∃ y ∈ (a.moment past).conference.room.roster.records, y.isMarked = true :=
      fun past => (a.settled h past).room.roster.marked_pos_iff
    have hlive := a.live_iff h rfl hr (List.prefix_refl a.since)
    rw [a.moment_since, live_iff_mem_active hnow.distinct hx] at hlive
    simpa only [hled] using hlive
  · rcases mem_records.mp hx with hx | hx
    · exact hx
    · exact absurd (hnow.waiting x hx).gated hr
  · simp only [run_append]
    exact (h.run host raises).live_run rfl ⟨x, hx, rfl⟩ later

end Session
end ConferenceBridge
