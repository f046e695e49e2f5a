import ConferenceBridge.Proofs.Session
import ConferenceBridge.Proofs.Work
import Mathlib.Data.List.Induction

/-! Participants that are to go. One that has been asked to stays attached until its own leave is applied,
    and leaders may come and go in between. It is neither parked nor admitted again, but a leader that
    arrives releases everybody who waits, and those to go are among them if the last leader's departure has
    parked them. -/

namespace ConferenceBridge
open Roster Table

/-- The action starts waiting treatment for this participant or mixes it into the live audio. -/
def Action.Recalls (id : String) : Action → Prop
  | .wait p | .mix p => p.id = id
  | .releaseAll ps => id ∈ ps.map (·.id)
  | .endSolo _ | .kick _ | .playPrompt .. | .announce _ | .publish _ => False

/-- After this work the participant has been asked to go and has not left since. -/
def BeingRemoved (work : List Action) (p : Participant) : Prop :=
  ∃ before since, work = before ++ .kick p :: since ∧
    ∀ conference, .publish (.participantLeft conference p.id) ∉ since

/-! ### Lists -/

theorem append_eq_append_cons {α : Type} {xs ys us vs : List α} {a : α} (h : xs ++ ys = us ++ a :: vs) :
    (∃ ws, xs = us ++ a :: ws ∧ vs = ws ++ ys) ∨ ∃ ws, us = xs ++ ws ∧ ys = ws ++ a :: vs := by
  rcases List.append_eq_append_iff.mp h with ⟨ws, hus, hys⟩ | ⟨ws, hxs, hvs⟩
  · exact Or.inr ⟨ws, hus, hys⟩
  · cases ws with
    | nil =>
      rw [List.append_nil] at hxs
      exact Or.inr ⟨[], by rw [hxs, List.append_nil], hvs.symm⟩
    | cons b ws =>
      obtain ⟨rfl, rfl⟩ := List.cons.inj hvs
      exact Or.inl ⟨ws, hxs, rfl⟩

theorem BeingRemoved.of_append {work more : List Action} {p : Participant} (h : BeingRemoved (work ++ more) p) :
    (BeingRemoved work p ∧ ∀ conference, .publish (.participantLeft conference p.id) ∉ more) ∨
      .kick p ∈ more := by
  obtain ⟨before, since, he, hleft⟩ := h
  rcases append_eq_append_cons he with ⟨ws, hwork, rfl⟩ | ⟨ws, -, hmore⟩
  · refine Or.inl ⟨⟨before, ws, hwork, fun n hn => ?_⟩, fun n hn => ?_⟩
    · exact hleft n (List.mem_append_left _ hn)
    · exact hleft n (List.mem_append_right _ hn)
  · exact Or.inr (by rw [hmore]; exact List.mem_append_right _ List.mem_cons_self)

/-! ### Rosters -/

namespace Roster
variable {r t : Roster} {x y : Record} {p : Participant}

/-- The participant is attached and has been asked to go. -/
def Dismissed (r : Roster) (p : Participant) : Prop := ∃ x ∈ r.records, x.participant = p ∧ x.kicked = true

theorem Dismissed.mem_ids (h : r.Dismissed p) : p.id ∈ r.ids := by
  obtain ⟨x, hx, rfl, -⟩ := h
  exact mem_ids_of_mem hx

/-- The record of a participant that is to go says so. -/
theorem Dismissed.record (h : r.Dismissed p) (hr : r.ids.Nodup) (hx : x ∈ r.records) (hid : x.id = p.id) :
    x.participant = p ∧ x.kicked = true := by
  obtain ⟨y, hy, rfl, hk⟩ := h
  obtain rfl := List.inj_on_of_nodup_map hr hx hy hid
  exact ⟨rfl, hk⟩

theorem Dismissed.place (h : r.Dismissed p) (q : Participant) : (r.place q).Dismissed p := by
  obtain ⟨x, hx, hp⟩ := h
  exact ⟨x, mem_records_place.mpr (Or.inl hx), hp⟩

/-- Whoever leads goes in among the live and leaves those who wait where they are. -/
theorem place_marked (hm : p.isMarked = true) : 0 < (r.place p).marked ∧ (r.place p).waiting = r.waiting := by
  rcases place_cases r p with ⟨hr, -⟩ | ⟨-, -, he⟩
  · rw [Participant.isMarked_of_role_eq_waitMarked hr] at hm
    cases hm
  · rw [he, hm]
    exact ⟨Nat.succ_pos _, rfl⟩

theorem Dismissed.settle (h : r.Dismissed p) : r.settle.Dismissed p := by
  obtain ⟨x, hx, hp, hk⟩ := h
  unfold Roster.settle
  split
  · rcases mem_records.mp hx with hx | hx
    · exact ⟨x, mem_records.mpr (Or.inl (List.mem_append_left _ hx)), hp, hk⟩
    · exact ⟨x.live, mem_records.mpr (Or.inl (List.mem_append_right _ (List.mem_map_of_mem hx))), hp, hk⟩
  · rcases mem_records.mp hx with hx | hx
    · exact ⟨x, mem_records.mpr (Or.inl hx), hp, hk⟩
    · -- No treatment is due to somebody who is to go.
      have hn : ¬x.needsHold = true := by simp [Record.needsHold, hk]
      exact ⟨x, mem_records.mpr (Or.inr (List.mem_map.mpr ⟨x, hx, if_neg hn⟩)), hp, hk⟩

/-- Whoever is live is still attached after the last marked participant is gone, asked to go if that is due. -/
theorem active_loseLastMarked (h : r.ids.Nodup) (hx : x ∈ r.active) : ∃ y ∈ r.loseLastMarked.2.2.records,
    y.participant = x.participant ∧ y.kicked = x.dismissed.kicked := by
  have hd : x.dismissed ∈ r.active.map Record.dismissed := List.mem_map_of_mem hx
  cases hp : r.policy with
  | keepActive =>
    rw [loseLastMarked_of_keepActive hp]
    exact ⟨x.dismissed, mem_records.mpr (Or.inl hd), x.participant_dismissed, rfl⟩
  | demoteWaitMarked =>
    rw [loseLastMarked_of_demote hp (nodup_active h)]
    by_cases hr : x.role = .waitMarked
    · have hm : x.dismissed ∈ (r.active.map Record.dismissed).filter (·.role == .waitMarked) :=
        List.mem_filter.mpr ⟨hd, by simp [hr]⟩
      exact ⟨x.dismissed.parked, mem_records.mpr (Or.inr (List.mem_append_right _ (List.mem_map_of_mem hm))),
        x.participant_dismissed, rfl⟩
    · exact ⟨x.dismissed, mem_records.mpr (Or.inl (List.mem_filter.mpr ⟨hd, by simp [hr]⟩)),
        x.participant_dismissed, rfl⟩

theorem waiting_loseLastMarked (h : r.ids.Nodup) (hx : x ∈ r.waiting) : x ∈ r.loseLastMarked.2.2.waiting := by
  cases hp : r.policy with
  | keepActive =>
    rw [loseLastMarked_of_keepActive hp]
    exact hx
  | demoteWaitMarked =>
    rw [loseLastMarked_of_demote hp (nodup_active h)]
    exact List.mem_append_left _ hx

theorem Dismissed.loseLastMarked (h : r.Dismissed p) (hr : r.ids.Nodup) : r.loseLastMarked.2.2.Dismissed p := by
  obtain ⟨x, hx, rfl, hk⟩ := h
  rcases mem_records.mp hx with hx | hx
  · obtain ⟨y, hy, hp, hyk⟩ := active_loseLastMarked hr hx
    exact ⟨y, hy, hp, by rw [hyk]; simp [Record.dismissed, Record.needsKick, hk]⟩
  · exact ⟨x, mem_records.mpr (Or.inr (waiting_loseLastMarked hr hx)), rfl, hk⟩

theorem kicked_loseLastMarked (h : r.ids.Nodup) :
    r.loseLastMarked.1 = (r.active.filter (·.needsKick)).map (·.participant) := by
  cases hp : r.policy with
  | keepActive => rw [loseLastMarked_of_keepActive hp]
  | demoteWaitMarked => rw [loseLastMarked_of_demote hp (nodup_active h)]

theorem dismissed_of_kicked (hr : r.ids.Nodup) (hp : p ∈ r.loseLastMarked.1) :
    r.loseLastMarked.2.2.Dismissed p := by
  rw [kicked_loseLastMarked hr] at hp
  obtain ⟨x, hx, rfl⟩ := List.mem_map.mp hp
  obtain ⟨hx, hn⟩ := List.mem_filter.mp hx
  obtain ⟨y, hy, hyp, hyk⟩ := active_loseLastMarked hr hx
  exact ⟨y, hy, hyp, by rw [hyk, Record.dismissed, if_pos hn]⟩

theorem Dismissed.departed (h : r.Dismissed p) (hr : r.Sound) (hx : x ∈ r.records) (hne : p.id ≠ x.id) :
    (r.departed x).Dismissed p := by
  have hrest : (r.rest x).Dismissed p := by
    obtain ⟨y, hy, rfl, hk⟩ := h
    have hy' : y.id ≠ x.id := hne
    refine ⟨y, ?_, rfl, hk⟩
    rcases mem_records.mp hy with hy | hy
    · exact mem_records.mpr (Or.inl (List.mem_filter.mpr ⟨hy, by simpa using hy'⟩))
    · exact mem_records.mpr (Or.inr (List.mem_filter.mpr ⟨hy, by simpa using hy'⟩))
  unfold Roster.departed
  split
  · exact hrest.loseLastMarked (hr.rest hx).distinct
  · exact hrest

theorem dismissed_of_parting (hr : r.Sound) (hx : x ∈ r.records) (hp : p ∈ (r.partingOf x).kicked) :
    (r.departed x).Dismissed p := by
  unfold Roster.partingOf at hp
  unfold Roster.departed
  split
  · rename_i hl
    rw [if_pos hl] at hp
    exact dismissed_of_kicked (hr.rest hx).distinct hp
  · rename_i hl
    rw [if_neg hl] at hp
    cases hp

/-- Whoever a departure demotes is still wanted. -/
theorem Settled.not_dismissed_of_demoted (h : r.Settled) (hx : x ∈ r.records) {q : Participant}
    (hq : q ∈ (r.partingOf x).demoted) (hid : q.id = p.id) : p.id ≠ x.id ∧ ¬(r.departed x).Dismissed p := by
  have hdistinct := (h.departed hx).distinct
  rw [h.demoted_eq hx] at hq
  obtain ⟨y, hy, rfl⟩ := List.mem_map.mp hq
  obtain ⟨hy, hn⟩ := List.mem_filter.mp hy
  have hrec : y ∈ (r.departed x).records := mem_records.mpr (Or.inr hy)
  have hyp : y.id = p.id := hid
  refine ⟨?_, fun hd => ?_⟩
  · rw [← hyp]
    exact ((mem_ids_departed h.distinct).mp (mem_ids_of_mem hrec)).2
  · have hk := (hd.record hdistinct hrec hyp).2
    simp [Record.needsHold, hk] at hn

/-- Those to go wait only where the policy parks them. -/
def ParkedByPolicy (r : Roster) : Prop := ∀ x ∈ r.waiting, x.kicked = true → r.policy = .demoteWaitMarked

theorem ParkedByPolicy.place (h : r.ParkedByPolicy) (p : Participant) : (r.place p).ParkedByPolicy := by
  intro x hx hk
  rw [policy_place]
  rcases place_cases r p with ⟨-, -, -, he⟩ | ⟨-, -, he⟩
  · rw [he] at hx
    rcases List.mem_append.mp hx with hx | hx
    · exact h x hx hk
    · rw [List.mem_singleton.mp hx] at hk
      cases hk
  · rw [he] at hx
    exact h x hx hk

theorem ParkedByPolicy.settle (h : r.ParkedByPolicy) : r.settle.ParkedByPolicy := by
  intro x hx hk
  rw [policy_settle]
  unfold Roster.settle at hx
  split at hx
  · cases hx
  · obtain ⟨y, hy, rfl⟩ := List.mem_map.mp hx
    refine h y hy ?_
    split at hk <;> exact hk

theorem ParkedByPolicy.departed (h : r.ParkedByPolicy) (hr : r.Sound) (hx : x ∈ r.records) :
    (r.departed x).ParkedByPolicy := by
  intro y hy hk
  rw [(hr.departed_fields hx).2.1]
  unfold Roster.departed at hy
  split at hy
  · cases hp : r.policy with
    | keepActive =>
      rw [loseLastMarked_of_keepActive (r := r.rest x) hp] at hy
      exact hp ▸ h y (List.mem_of_mem_filter hy) hk
    | demoteWaitMarked => rfl
  · exact h y (List.mem_of_mem_filter hy) hk

end Roster

/-! ### One event -/

namespace Table
variable {c : Context} {r after : Roster} {a : Action} {p : Participant} {work : List Action}

theorem kick_notMem_changeWork : .kick p ∉ changeWork c r := by
  intro h
  rcases changeWork_cases h with ⟨-, h⟩ | ⟨_, h⟩ | ⟨_, h⟩ <;> cases h

theorem kick_notMem_joinWork : .kick p ∉ joinWork c := by
  intro h
  rcases joinWork_cases h with h | h | ⟨_, h⟩ | ⟨_, h⟩ | ⟨_, h⟩ <;> cases h

namespace Move

/-- Only a departure asks participants to go, and then their records say so. -/
theorem dismissed_of_kick (h : c.roster.Settled) (move : Move c work after)
    (hk : .kick p ∈ work ++ changeWork c after) : after.Dismissed p := by
  have hw := (List.mem_append.mp hk).resolve_right kick_notMem_changeWork
  cases move with
  | join => exact absurd hw kick_notMem_joinWork
  | leave x attached =>
    rcases leaveWork_cases hw with ⟨q, hq, hk⟩ | ⟨_, -, hk⟩ | hk | hk <;> cases hk
    exact dismissed_of_parting h.toSound attached hq

/-- Whoever is to go remains so until its own leave. -/
theorem dismissed (h : c.roster.Settled) (move : Move c work after) (hd : c.roster.Dismissed p)
    (hleft : ∀ conference, .publish (.participantLeft conference p.id) ∉ work ++ changeWork c after) :
    after.Dismissed p := by
  cases move with
  | join => exact hd.place _
  | leave x attached own =>
    refine hd.departed h.toSound attached fun hid => hleft c.conference (List.mem_append_left _ ?_)
    rw [hid, own]
    exact List.mem_append_right _ (List.mem_singleton_self _)

/-- A join recalls nobody who is to go, unless it has those who wait released. -/
theorem recalled_of_join (h : c.roster.Settled) (new : c.participant.id ∉ c.roster.ids)
    (hd : c.roster.Dismissed p)
    (ha : a ∈ joinWork c ++ changeWork c (c.roster.place c.participant)) (hrecalls : a.Recalls p.id) :
    (∃ ps, a = .releaseAll ps) ∧ ∃ x ∈ c.roster.waiting, x.participant = p ∧ x.kicked = true := by
  rcases List.mem_append.mp ha with ha | ha
  · exfalso
    -- Whoever arrives is not attached yet.
    rcases joinWork_cases ha with rfl | rfl | ⟨_, rfl⟩ | ⟨_, rfl⟩ | ⟨_, rfl⟩
    · exact new (hrecalls ▸ hd.mem_ids)
    · exact new (hrecalls ▸ hd.mem_ids)
    all_goals cases hrecalls
  · rcases changeWork_cases ha with ⟨hpos, rfl⟩ | ⟨_, rfl⟩ | ⟨_, rfl⟩
    · refine ⟨⟨_, rfl⟩, ?_⟩
      rcases place_cases c.roster c.participant with ⟨-, h0, -, he⟩ | ⟨-, -, he⟩ <;> rw [he] at hpos hrecalls
      · exact absurd h0 (Nat.ne_of_gt hpos)
      · obtain ⟨q, hq, hid⟩ := List.mem_map.mp hrecalls
        obtain ⟨x, hx, rfl⟩ := List.mem_map.mp hq
        exact ⟨x, hx, hd.record h.distinct (mem_records.mpr (Or.inr hx)) hid⟩
    all_goals cases hrecalls

/-- A leave recalls nobody who is to go afterwards. -/
theorem not_recalled_of_leave {x : Record} (h : c.roster.Settled) (attached : x ∈ c.roster.records)
    (hd : p.id ≠ x.id → (c.roster.departed x).Dismissed p)
    (ha : a ∈ leaveWork c (c.roster.partingOf x) ++ changeWork c (c.roster.departed x)) : ¬a.Recalls p.id := by
  intro hrecalls
  rcases List.mem_append.mp ha with ha | ha
  · rcases leaveWork_cases ha with ⟨_, -, rfl⟩ | ⟨q, hq, rfl⟩ | rfl | rfl
    · cases hrecalls
    · obtain ⟨hne, hwanted⟩ := h.not_dismissed_of_demoted attached hq hrecalls
      exact hwanted (hd hne)
    all_goals cases hrecalls
  · rcases changeWork_cases ha with ⟨hpos, rfl⟩ | ⟨_, rfl⟩ | ⟨_, rfl⟩
    · -- Somebody marked stays, so nobody waits.
      rw [h.departed_led attached hpos] at hrecalls
      cases hrecalls
    all_goals cases hrecalls

/-- Nothing that an event defers recalls a participant that is to go, except that the release of those who
    wait names it if it is one of them. -/
theorem recalled (h : c.roster.Settled) (move : Move c work after) (ha : a ∈ work ++ changeWork c after)
    (hd : c.roster.Dismissed p ∨ .kick p ∈ work ++ changeWork c after) (hrecalls : a.Recalls p.id) :
    (∃ ps, a = .releaseAll ps) ∧ ∃ x ∈ c.roster.waiting, x.participant = p ∧ x.kicked = true := by
  have hkick := move.dismissed_of_kick h (p := p)
  cases move with
  | join _ new =>
    have hd : c.roster.Dismissed p := hd.resolve_right fun hk =>
      (List.mem_append.mp hk).elim kick_notMem_joinWork kick_notMem_changeWork
    exact recalled_of_join h new hd ha hrecalls
  | leave x attached =>
    refine absurd hrecalls (not_recalled_of_leave h attached (fun hne => ?_) ha)
    rcases hd with hd | hk
    · exact hd.departed h.toSound attached hne
    · exact hkick hk

theorem parkedByPolicy (h : c.roster.Settled) (move : Move c work after) (hp : c.roster.ParkedByPolicy) :
    after.ParkedByPolicy := by
  cases move with
  | join => exact hp.place _
  | leave x attached => exact hp.departed h.toSound attached

end Move
end Table

/-! ### Runs -/

namespace Session
variable {σ : Type} {host : Host σ} {s : Session σ} {p : Participant} {settings : ConferenceSettings}

/-- The event on which a piece of work was handed over, and what had been handed over before. -/
theorem history_split {past rest : List Action} {a : Action} {raises : List Raise}
    (h : s.history host raises = past ++ a :: rest) :
    ∃ earlier r done later, past = s.history host earlier ++ done ∧
      (s.run host earlier).drained r = done ++ a :: later := by
  induction raises using List.reverseRecOn generalizing rest with
  | nil => exact absurd h (by simp [history])
  | append_singleton raises r ih =>
    rw [history_concat] at h
    rcases append_eq_append_cons h with ⟨later, hpast, -⟩ | ⟨done, hpast, hdrained⟩
    · exact ih hpast
    · exact ⟨raises, r, done, rest, hpast, hdrained⟩

/-- Whoever is to go by the work handed over is attached, and its record says so. -/
theorem Settled.dismissed_run (h : s.Settled settings) {raises : List Raise}
    (hp : BeingRemoved (s.history host raises) p) : (s.run host raises).conference.room.roster.Dismissed p := by
  induction raises using List.reverseRecOn with
  | nil =>
    obtain ⟨before, since, he, -⟩ := hp
    exact absurd he (by simp [history])
  | append_singleton raises r ih =>
    have hs := h.run host raises
    rw [history_concat] at hp
    rw [run_concat]
    rcases hs.step_cases host r with ⟨-, hd, hc, -⟩ | ⟨work, after, move, -, hd, hc, -⟩
    · rw [hd, List.append_nil] at hp
      rw [hc]
      exact ih hp
    · rw [hd] at hp
      rw [hc]
      rcases hp.of_append with ⟨hp, hleft⟩ | hk
      · exact (move.dismissed hs.room.roster (ih hp) hleft).settle
      · exact (move.dismissed_of_kick hs.room.roster hk).settle

theorem Settled.parkedByPolicy_step (h : s.Settled settings) (hp : s.conference.room.roster.ParkedByPolicy)
    (host : Host σ) (r : Raise) : (s.step host r).conference.room.roster.ParkedByPolicy := by
  rcases h.step_cases host r with ⟨-, -, hc, -⟩ | ⟨work, after, move, -, -, hc, -⟩
  · rw [hc]
    exact hp
  · rw [hc]
    exact (move.parkedByPolicy h.room.roster hp).settle

theorem Settled.parkedByPolicy_run (h : s.Settled settings) (hp : s.conference.room.roster.ParkedByPolicy)
    (host : Host σ) (raises : List Raise) : (s.run host raises).conference.room.roster.ParkedByPolicy :=
  (run_induction (P := fun s => s.Settled settings ∧ s.conference.room.roster.ParkedByPolicy) ⟨h, hp⟩
    (fun _ r hs => ⟨hs.1.step host r, hs.1.parkedByPolicy_step hs.2 host r⟩) raises).2

/-- A leader that finds nobody marked releases a participant that is to go, if the gate has parked it. -/
theorem Settled.released (h : s.Settled settings) (hd : s.conference.room.roster.Dismissed p)
    (hr : p.role = .waitMarked) (hpolicy : settings.policy = .demoteWaitMarked)
    (h0 : s.conference.room.roster.marked = 0) {r : Raise} (hj : r.event = .join .marked)
    (hok : ∃ outcome, (s.apply host r).result = .ok outcome) :
    ∃ ps, .releaseAll ps ∈ s.drained r ∧ p.id ∈ ps.map (·.id) := by
  obtain ⟨x, hx, rfl, -⟩ := hd
  have hw : x ∈ s.conference.room.roster.waiting := by
    rcases mem_records.mp hx with ha | hw
    · exact absurd hr (h.room.roster.gate (h.policy.trans hpolicy) h0 x ha)
    · exact hw
  obtain ⟨outcome, hok⟩ := hok
  obtain ⟨work, after, move, hdrained, -⟩ := h.move_of_ok hok
  cases move with
  | join event =>
    have hm : (s.context r).participant.isMarked = true := by
      have hrole : Event.join .marked = .join (s.context r).participant.role := hj.symm.trans event
      exact Profile.role_eq_marked_iff.mp (Event.join.inj hrole).symm
    have hstate : (s.context r).state.isMarked = false := by
      rw [← Bool.not_eq_true]
      intro ht
      have hpos := isMarked_target.mp ((congrArg State.isMarked h.room.state).symm.trans ht)
      omega
    obtain ⟨hpos, he⟩ := place_marked (r := (s.context r).roster) hm
    have hw : x ∈ ((s.context r).roster.place (s.context r).participant).waiting := by rwa [he]
    refine ⟨_, ?_, List.mem_map_of_mem (List.mem_map_of_mem hw)⟩
    rw [hdrained]
    exact List.mem_append_right _ (releaseAll_mem_changeWork hstate hpos (List.ne_nil_of_mem hw))
  | leave _ _ _ event =>
    have hleave : r.event = .leave _ := event
    rw [hj] at hleave
    cases hleave

/-- After any events a participant that has been asked to go and has not left since is not parked, admitted or
    mixed in again, with one exception: a wait-marked one, under the policy that demotes, is released with the
    others who wait by the first leader that comes back. -/
theorem recalled_only_by_release (host : Host σ) (name : String) (settings : ConferenceSettings)
    (people : Nat → Participant) (w : σ) (raises : List Raise) (p : Participant) :
    let s := start name settings .standard people w
    let now := s.run host raises
    (∀ past a rest, s.history host raises = past ++ a :: rest → BeingRemoved past p → a.Recalls p.id →
      (∃ ps, a = .releaseAll ps) ∧ p.role = .waitMarked ∧ settings.policy = .demoteWaitMarked) ∧
    (BeingRemoved (s.history host raises) p → p.role = .waitMarked → settings.policy = .demoteWaitMarked →
      now.conference.room.roster.marked = 0 → ∀ r, r.event = .join .marked →
        (∃ outcome, (now.apply host r).result = .ok outcome) →
          ∃ ps, .releaseAll ps ∈ now.drained r ∧ p.id ∈ ps.map (·.id)) := by
  intro s now
  have h : s.Settled settings := settled_start name settings people w
  refine ⟨fun past a rest he hp hrecalls => ?_, fun hp hr hpolicy h0 r hj hok => ?_⟩
  · obtain ⟨earlier, r, done, later, rfl, hdrained⟩ := history_split he
    have hs := h.run host earlier
    have hparked := h.parkedByPolicy_run (fun x hx => absurd hx List.not_mem_nil) host earlier
    rcases hs.step_cases host r with ⟨-, hd, -⟩ | ⟨work, after, move, -, hd, -⟩
    · rw [hd] at hdrained
      exact absurd hdrained (by simp)
    · rw [hd] at hdrained
      have ha : a ∈ work ++ changeWork ((s.run host earlier).context r) after := by
        rw [hdrained]
        exact List.mem_append_right _ List.mem_cons_self
      have hgo : (s.run host earlier).conference.room.roster.Dismissed p ∨
          .kick p ∈ work ++ changeWork ((s.run host earlier).context r) after := by
        rcases hp.of_append with ⟨hp, -⟩ | hk
        · exact Or.inl (h.dismissed_run hp)
        · rw [hdrained]
          exact Or.inr (List.mem_append_left _ hk)
      obtain ⟨hps, x, hx, rfl, hk⟩ := move.recalled hs.room.roster ha hgo hrecalls
      exact ⟨hps, (hs.room.roster.waiting x hx).gated, hs.policy.symm.trans (hparked x hx hk)⟩
  · exact (h.run host raises).released (h.dismissed_run hp) hr hpolicy h0 hj hok

/-- A guest that was asked to go as the only leader left is released into the live audio by the next one. -/
theorem removed_guest_released :
    let leader : Participant := ⟨"m", .leader⟩
    let guest : Participant := ⟨"w", { waitMarked := true, endMarked := true }⟩
    let next : Participant := ⟨"n", .leader⟩
    let s := start "room" {} .standard (fun i => if i = 0 then leader else if i = 1 then guest else next) ()
    let history := s.history (.logging fun _ => id)
      [⟨0, .join .marked⟩, ⟨1, .join .waitMarked⟩, ⟨0, .leave .marked⟩, ⟨2, .join .marked⟩]
    ∃ past a rest, history = past ++ a :: rest ∧ BeingRemoved past guest ∧ a.Recalls guest.id := by
  intro leader guest next s history
  let before : List Action :=
    [.mix leader, .publish (.participantJoined "room" "m" .active), .publish (.conferenceStarted "room"),
      .publish (.stateChanged "room" .empty .singleMarked), .playPrompt "m" .placedIntoConference, .mix guest,
      .endSolo leader, .publish (.participantJoined "room" "w" .active),
      .publish (.stateChanged "room" .singleMarked .multiMarked)]
  let since : List Action :=
    [.announce .leaderHasLeft, .publish (.participantLeft "room" "m"),
      .publish (.stateChanged "room" .multiMarked .inactive), .mix next,
      .publish (.participantJoined "room" "n" .active), .publish (.stateChanged "room" .inactive .multiMarked)]
  have hhistory : history = before ++ .kick guest :: since ++
      .releaseAll [guest] :: [.playPrompt "n" .placedIntoConference] := by decide +kernel
  have hstays : ∀ conference, .publish (.participantLeft conference "w") ∉ since := by
    intro conference
    simp [since]
  exact ⟨_, _, _, hhistory, ⟨before, since, rfl, hstays⟩, List.mem_singleton_self _⟩

end Session
end ConferenceBridge
