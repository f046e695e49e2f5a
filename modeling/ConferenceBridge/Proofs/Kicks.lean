import ConferenceBridge.Proofs.Attachment
import ConferenceBridge.Proofs.Dismissal

/-! Who is asked to go, and how often. Only the leave of the last marked participant asks anybody to go, and it
    leaves nobody attached who is to go without a leader and has not been asked. Whoever has been asked is not
    asked again while it stays, however many leaders come and go. -/

namespace ConferenceBridge
open Roster Table

/-- The action asks a participant of this identifier to go. -/
def Action.isKickOf (id : String) : Action → Bool
  | .kick p => p.id == id
  | _ => false

/-! ### Rosters -/

theorem Record.IsLive.kicked_dismissed {x : Record} (h : x.IsLive) :
    x.dismissed.kicked = x.participant.profile.endMarked := by
  have hended := h.ended
  unfold Record.dismissed
  split
  · rename_i hn
    simp only [needsKick, Bool.and_eq_true] at hn
    exact hn.1.symm
  · rename_i hn
    cases hk : x.kicked with
    | true => exact (hended hk).symm
    | false => simpa [needsKick, hk] using hn

namespace Roster
variable {r : Roster} {x y : Record} {p q : Participant}

instance (r : Roster) (p : Participant) : Decidable (r.Dismissed p) :=
  inferInstanceAs (Decidable (∃ x ∈ r.records, _))

theorem Dismissed.mem_people (h : r.Dismissed p) : p ∈ r.people := by
  obtain ⟨x, hx, rfl, -⟩ := h
  exact List.mem_map_of_mem hx

theorem dismissed_place_iff : (r.place q).Dismissed p ↔ r.Dismissed p := by
  simp [Dismissed, mem_records_place, or_and_right, exists_or]

theorem dismissed_settle_iff : r.settle.Dismissed p ↔ r.Dismissed p := by
  refine ⟨?_, Dismissed.settle⟩
  rintro ⟨x, hx, rfl, hk⟩
  rcases Nat.eq_zero_or_pos r.marked with h0 | hpos
  · rw [settle_of_zero h0, holdWaiting_eq] at hx
    rcases mem_records.mp hx with hx | hx
    · exact ⟨x, mem_records.mpr (Or.inl hx), rfl, hk⟩
    · obtain ⟨y, hy, rfl⟩ := List.mem_map.mp hx
      exact ⟨y, mem_records.mpr (Or.inr hy), y.participant_treated.symm, y.kicked_treated ▸ hk⟩
  · rw [settle_of_pos hpos] at hx
    rcases List.mem_append.mp ((mem_records.mp hx).resolve_right List.not_mem_nil) with hx | hx
    · exact ⟨x, mem_records.mpr (Or.inl hx), rfl, hk⟩
    · obtain ⟨y, hy, rfl⟩ := List.mem_map.mp hx
      exact ⟨y, mem_records.mpr (Or.inr hy), rfl, hk⟩

/-- Where the records come from that are attached once the last marked participant is gone. -/
theorem mem_records_loseLastMarked (h : r.ids.Nodup) (hy : y ∈ r.loseLastMarked.2.2.records) : y ∈ r.waiting ∨
    ∃ z ∈ r.active, y.participant = z.participant ∧ y.kicked = z.dismissed.kicked := by
  cases hp : r.policy with
  | keepActive =>
    rw [loseLastMarked_of_keepActive hp] at hy
    rcases mem_records.mp hy with hy | hy
    · obtain ⟨z, hz, rfl⟩ := List.mem_map.mp hy
      exact Or.inr ⟨z, hz, z.participant_dismissed, rfl⟩
    · exact Or.inl hy
  | demoteWaitMarked =>
    rw [loseLastMarked_of_demote hp (nodup_active h)] at hy
    rcases mem_records.mp hy with hy | hy
    · obtain ⟨z, hz, rfl⟩ := List.mem_map.mp (List.mem_of_mem_filter hy)
      exact Or.inr ⟨z, hz, z.participant_dismissed, rfl⟩
    · rcases List.mem_append.mp hy with hy | hy
      · exact Or.inl hy
      · obtain ⟨w, hw, rfl⟩ := List.mem_map.mp hy
        obtain ⟨z, hz, rfl⟩ := List.mem_map.mp (List.mem_of_mem_filter hw)
        exact Or.inr ⟨z, hz, z.participant_dismissed, rfl⟩

theorem Sound.mem_kicked (h : r.Sound) (hx : x ∈ r.records) : p ∈ (r.partingOf x).kicked ↔
    r.LosesLast x ∧ ∃ z ∈ (r.rest x).active, z.participant = p ∧ z.needsKick = true := by
  unfold partingOf
  split
  · rename_i hl
    rw [kicked_loseLastMarked (h.rest hx).distinct]
    simp [hl, and_comm, and_assoc]
  · rename_i hl
    simp [hl]

theorem Sound.nodup_kicked (h : r.Sound) (hx : x ∈ r.records) : ((r.partingOf x).kicked.map (·.id)).Nodup := by
  unfold partingOf
  split
  · rw [kicked_loseLastMarked (h.rest hx).distinct, List.map_map]
    exact (nodup_active (h.rest hx).distinct).sublist (List.filter_sublist.map _)
  · exact List.nodup_nil

/-- A departure asks nobody to go but whom it lists, and none of these twice. -/
theorem Settled.count_kicked (h : r.Settled) (hx : x ∈ r.records) (hp : p ∈ r.people) :
    ((r.partingOf x).kicked.map (·.id)).count p.id = if p ∈ (r.partingOf x).kicked then 1 else 0 := by
  have hids : p.id ∈ (r.partingOf x).kicked.map (·.id) ↔ p ∈ (r.partingOf x).kicked := by
    refine ⟨fun hm => ?_, fun hm => List.mem_map_of_mem hm⟩
    obtain ⟨q, hq, hid⟩ := List.mem_map.mp hm
    obtain ⟨-, z, hz, rfl, -⟩ := (h.mem_kicked hx).mp hq
    have hpeople : z.participant ∈ r.people := List.mem_map_of_mem (mem_rest (mem_records.mpr (Or.inl hz)))
    rwa [← List.inj_on_of_nodup_map (map_id_people ▸ h.distinct) hpeople hp hid]
  rw [(h.nodup_kicked hx).count]
  simp only [hids]

theorem Sound.not_dismissed_of_kicked (h : r.Sound) (hx : x ∈ r.records) (hp : p ∈ (r.partingOf x).kicked) :
    ¬r.Dismissed p := by
  obtain ⟨-, z, hz, rfl, hn⟩ := (h.mem_kicked hx).mp hp
  intro hd
  have hk := (hd.record h.distinct (mem_rest (mem_records.mpr (Or.inl hz))) rfl).2
  simp [Record.needsKick, hk] at hn

/-- After the departure of the last marked participant everybody who is to go has been asked to. -/
theorem Settled.kicked_departed (h : r.Settled) (hx : x ∈ r.records) (hl : r.LosesLast x)
    (hy : y ∈ (r.departed x).records) : y.kicked = y.participant.profile.endMarked := by
  rw [departed, if_pos hl] at hy
  rcases mem_records_loseLastMarked (h.rest hx).distinct hy with hw | ⟨z, hz, hp, hk⟩
  · -- Nobody waits beside a marked participant, so nobody is passed over.
    rw [h.waiting_rest (h.marked_pos hx hl.1) x] at hw
    cases hw
  · rw [hk, hp]
    exact ((h.rest hx).live z hz).kicked_dismissed

/-- Those to go after a departure were to go before, or are asked by it. -/
theorem Settled.dismissed_departed_iff (h : r.Settled) (hx : x ∈ r.records) (hne : p.id ≠ x.id) :
    (r.departed x).Dismissed p ↔ r.Dismissed p ∨ p ∈ (r.partingOf x).kicked := by
  constructor
  · rintro ⟨y, hy, rfl, hk⟩
    by_cases hl : r.LosesLast x
    · rw [departed, if_pos hl] at hy
      rcases mem_records_loseLastMarked (h.rest hx).distinct hy with hw | ⟨z, hz, hp, hkept⟩
      · exact Or.inl ⟨y, mem_rest (mem_records.mpr (Or.inr hw)), rfl, hk⟩
      · rw [hp]
        by_cases hn : z.needsKick = true
        · exact Or.inr ((h.mem_kicked hx).mpr ⟨hl, z, hz, rfl, hn⟩)
        · rw [hkept, Record.dismissed, if_neg hn] at hk
          exact Or.inl ⟨z, mem_rest (mem_records.mpr (Or.inl hz)), rfl, hk⟩
    · rw [departed, if_neg hl] at hy
      exact Or.inl ⟨y, mem_rest hy, rfl, hk⟩
  · rintro (hd | hp)
    · exact hd.departed h.toSound hx hne
    · exact dismissed_of_parting h.toSound hx hp

end Roster

/-! ### One event -/

namespace Table
variable {c : Context} {work : List Action} {r after : Roster} {p : Participant} {id : String}

theorem count_kick_eq_zero {l : List Action} (h : ∀ q, .kick q ∉ l) : l.countP (Action.isKickOf id) = 0 := by
  rw [List.countP_eq_zero]
  intro a ha
  cases a with
  | kick q => exact absurd ha (h q)
  | _ => simp [Action.isKickOf]

theorem count_kick_leaveWork {parting : Parting} :
    (leaveWork c parting).countP (Action.isKickOf id) = (parting.kicked.map (·.id)).count id := by
  rw [countP_leaveWork rfl fun _ => rfl, List.count, List.countP_map]
  simp [Action.isKickOf, Function.comp_def]

namespace Move

theorem mem_kicked (move : Move c work after) (hk : .kick p ∈ work ++ changeWork c after) :
    ∃ x ∈ c.roster.records, c.event.isLeave = true ∧ after = c.roster.departed x ∧ p ∈ (c.roster.partingOf x).kicked := by
  have hw := (List.mem_append.mp hk).resolve_right kick_notMem_changeWork
  cases move with
  | join => exact absurd hw kick_notMem_joinWork
  | leave x attached _ event =>
    rcases leaveWork_cases hw with ⟨q, hq, hk⟩ | ⟨_, -, hk⟩ | hk | hk <;> cases hk
    exact ⟨x, attached, event ▸ rfl, rfl, hq⟩

/-- Whoever stays attached through an event is to go after it if it was before, or if the event asks it to. -/
theorem dismissed_iff (h : c.roster.Settled) (move : Move c work after) (hp : p ∈ after.people) :
    after.Dismissed p ↔ c.roster.Dismissed p ∨ .kick p ∈ work ++ changeWork c after := by
  cases move with
  | join => simp [dismissed_place_iff, kick_notMem_joinWork, kick_notMem_changeWork]
  | leave x attached =>
    have hne : p.id ≠ x.id := ((mem_people_departed h.distinct).mp hp).2
    rw [h.dismissed_departed_iff attached hne, List.mem_append, or_iff_left kick_notMem_changeWork]
    simp [leaveWork]

theorem not_dismissed_of_kick (h : c.roster.Settled) (move : Move c work after)
    (hk : .kick p ∈ work ++ changeWork c after) : ¬c.roster.Dismissed p := by
  obtain ⟨x, hx, -, -, hp⟩ := move.mem_kicked hk
  exact h.not_dismissed_of_kicked hx hp

/-- An event asks nobody to go twice. -/
theorem count_kick (h : c.roster.Settled) (move : Move c work after)
    (attached : p ∈ c.roster.people ∨ p ∈ after.people) :
    (work ++ changeWork c after).countP (Action.isKickOf p.id) =
      if .kick p ∈ work ++ changeWork c after then 1 else 0 := by
  rw [List.countP_append, count_kick_eq_zero (l := changeWork c after) fun _ => kick_notMem_changeWork, Nat.add_zero]
  simp only [List.mem_append, kick_notMem_changeWork, or_false]
  cases move with
  | join => simp [count_kick_eq_zero fun _ => kick_notMem_joinWork, kick_notMem_joinWork]
  | leave x hx =>
    have hp : p ∈ c.roster.people := attached.elim id fun h' => ((mem_people_departed h.distinct).mp h').1
    rw [count_kick_leaveWork, h.count_kicked hx hp]
    simp [leaveWork]

end Move
end Table

/-! ### Runs -/

namespace Session
variable {σ : Type} {host : Host σ} {s : Session σ} {settings : ConferenceSettings} {p : Participant} {r : Raise}
  {raises past : List Raise}

/-- The event is an accepted leave, and the participant that goes with it was the only marked one. -/
def LastMarkedLeaves (host : Host σ) (s : Session σ) (r : Raise) : Prop :=
  r.event.isLeave = true ∧ (∃ outcome, (s.apply host r).result = .ok outcome) ∧
    s.conference.room.roster.marked = 1 ∧ (s.step host r).conference.room.roster.marked = 0

/-- Only the leave of the last marked participant asks anybody to go, and then those who stay. -/
theorem Settled.lastMarkedLeaves_of_kick (h : s.Settled settings) (host : Host σ) (hk : .kick p ∈ s.drained r) :
    s.LastMarkedLeaves host r ∧ p.profile.endMarked = true ∧ (s.step host r).conference.room.roster.Dismissed p := by
  rcases h.step_cases host r with ⟨-, hd, -⟩ | ⟨work, after, move, hok, hd, hc, -⟩
  · rw [hd] at hk
    cases hk
  · rw [hd] at hk
    obtain ⟨x, hx, event, rfl, hp⟩ := move.mem_kicked hk
    obtain ⟨hl, z, -, rfl, hn⟩ := (h.room.roster.mem_kicked hx).mp hp
    obtain ⟨h1, h0⟩ := (h.room.roster.losesLast_iff hx).mp hl
    simp only [Record.needsKick, Bool.and_eq_true] at hn
    rw [LastMarkedLeaves, hc]
    refine ⟨⟨event, hok, h1, ?_⟩, hn.1, ?_⟩
    · exact (marked_settle _).trans h0
    · exact (dismissed_of_parting h.room.roster.toSound hx hp).settle

/-- After the leave of the last marked participant everybody is to go who is not to stay without a leader. -/
theorem Settled.dismissed_of_lastMarkedLeaves (h : s.Settled settings) (hl : s.LastMarkedLeaves host r) {x : Record}
    (hx : x ∈ (s.step host r).conference.room.roster.records) (he : x.participant.profile.endMarked = true) :
    (s.step host r).conference.room.roster.Dismissed x.participant := by
  obtain ⟨event, ⟨outcome, hok⟩, h1, h0⟩ := hl
  obtain ⟨work, after, move, -, hc⟩ := h.move_of_ok hok
  rw [hc] at h0 hx ⊢
  cases move with
  | join joins =>
    have joins : r.event = .join _ := joins
    rw [joins] at event
    cases event
  | leave y attached =>
    have hlast := (h.room.roster.losesLast_iff attached).mpr ⟨h1, (marked_settle _).symm.trans h0⟩
    have hp : x.participant ∈ ((s.context r).roster.departed y).people :=
      people_settle ▸ List.mem_map_of_mem (f := (·.participant)) hx
    obtain ⟨z, hz, hzx⟩ := List.mem_map.mp hp
    have hk := h.room.roster.kicked_departed attached hlast hz
    exact dismissed_settle_iff.mpr ⟨z, hz, hzx, by rw [hk, hzx, he]⟩

theorem Settled.dismissed_step_iff (h : s.Settled settings) (host : Host σ) (r : Raise)
    (hp : p ∈ (s.step host r).conference.room.roster.people) :
    (s.step host r).conference.room.roster.Dismissed p ↔
      s.conference.room.roster.Dismissed p ∨ .kick p ∈ s.drained r := by
  rcases h.step_cases host r with ⟨-, hd, hc, -⟩ | ⟨work, after, move, -, hd, hc, -⟩
  · simp [hd, hc]
  · rw [hc] at hp ⊢
    rw [hd]
    exact dismissed_settle_iff.trans (move.dismissed_iff h.room.roster (people_settle ▸ hp))

/-- The work that an event hands over asks a participant to go once or not at all, and not at all if it was to go
    before. -/
theorem Settled.count_kick_drained (h : s.Settled settings) (host : Host σ) (r : Raise)
    (attached : p ∈ s.conference.room.roster.people ∨ p ∈ (s.step host r).conference.room.roster.people) :
    (s.drained r).countP (Action.isKickOf p.id) = (if .kick p ∈ s.drained r then 1 else 0) ∧
      (.kick p ∈ s.drained r → ¬s.conference.room.roster.Dismissed p) := by
  rcases h.step_cases host r with ⟨-, hd, -⟩ | ⟨work, after, move, -, hd, hc, -⟩
  · simp [hd]
  · rw [hc] at attached
    rw [hd]
    refine ⟨move.count_kick h.room.roster (attached.imp_right fun hp => ?_), move.not_dismissed_of_kick h.room.roster⟩
    exact people_settle ▸ hp

namespace Attachment

/-- At every moment of an attachment the participant has been asked to go once if its record says so, and not at
    all otherwise. -/
theorem count_kick (a : Attachment host s raises p) (h : s.Settled settings) (hpast : past <+: a.since) :
    ((s.run host a.earlier).history host (a.join :: past)).countP (Action.isKickOf p.id) =
      if (a.moment past).conference.room.roster.Dismissed p then 1 else 0 := by
  have hs := h.run host a.earlier
  induction past using List.reverseRecOn with
  | nil =>
    have attached : p ∈ (a.moment []).conference.room.roster.people := a.stayed [] List.nil_prefix
    have hnew : ¬(s.run host a.earlier).conference.room.roster.Dismissed p := fun hd =>
      hs.new_of_joins a.joined hd.mem_people
    rw [moment_nil] at attached ⊢
    simp only [hs.dismissed_step_iff host a.join attached, hnew, false_or, history, List.append_nil]
    exact (hs.count_kick_drained host a.join (Or.inr attached)).1
  | append_singleton past r ih =>
    have hbefore : past <+: a.since := (List.prefix_append past [r]).trans hpast
    have attached : p ∈ (a.moment (past ++ [r])).conference.room.roster.people := a.stayed _ hpast
    have hmoment : (s.run host a.earlier).run host (a.join :: past) = a.moment past := (run_append _ _).symm
    rw [moment_concat] at attached ⊢
    obtain ⟨hcount, hfirst⟩ := (a.settled h past).count_kick_drained host r (Or.inr attached)
    rw [← List.cons_append, history_concat, List.countP_append, ih hbefore, hmoment, hcount]
    simp only [(a.settled h past).dismissed_step_iff host r attached]
    by_cases hk : .kick p ∈ (a.moment past).drained r
    · simp [hk, hfirst hk]
    · simp [hk]

/-- Whoever is to go has been asked to during its attachment. -/
theorem kick_of_dismissed (a : Attachment host s raises p) (h : s.Settled settings) (hpast : past <+: a.since)
    (hd : (a.moment past).conference.room.roster.Dismissed p) :
    ∃ before next, before ++ [next] <+: past ∧ .kick p ∈ (a.moment before).drained next := by
  have hs := h.run host a.earlier
  induction past using List.reverseRecOn with
  | nil =>
    have attached : p ∈ (a.moment []).conference.room.roster.people := a.stayed [] List.nil_prefix
    rw [moment_nil] at attached hd
    rcases (hs.dismissed_step_iff host a.join attached).mp hd with hold | hk
    · exact absurd hold.mem_people (hs.new_of_joins a.joined)
    · have leaves := (hs.lastMarkedLeaves_of_kick host hk).1.1
      have joins := a.joined.1
      cases he : a.join.event <;> simp [he, Event.isJoin, Event.isLeave] at joins leaves
  | append_singleton past r ih =>
    have hbefore : past <+: a.since := (List.prefix_append past [r]).trans hpast
    have attached : p ∈ (a.moment (past ++ [r])).conference.room.roster.people := a.stayed _ hpast
    rw [moment_concat] at attached hd
    rcases ((a.settled h past).dismissed_step_iff host r attached).mp hd with hold | hk
    · obtain ⟨before, next, hprefix, hk⟩ := ih hbefore hold
      exact ⟨before, next, hprefix.trans (List.prefix_append past [r]), hk⟩
    · exact ⟨past, r, List.prefix_refl _, hk⟩

end Attachment

/-- After any events everybody attached has been asked to go at most once since it joined, and its leave does not
    ask it again. Whatever asks anybody to go is an accepted leave that takes the number of those marked from one
    to zero, and it asks only those who stay and are to go without a leader. After every such leave each of those
    has been asked, by that leave or by an earlier one since it joined. -/
theorem kicked_once {σ : Type} (host : Host σ) (name : String) (settings : ConferenceSettings)
    (people : Nat → Participant) (w : σ) (raises : List Raise) :
    let s := start name settings .standard people w
    let now := s.run host raises
    (∀ p ∈ now.conference.room.roster.people, Nonempty (Attachment host s raises p)) ∧
    (∀ p (a : Attachment host s raises p) r,
      ((s.run host a.earlier).history host (a.join :: (a.since ++ [r]))).countP (Action.isKickOf p.id) ≤ 1) ∧
    (∀ r p, .kick p ∈ now.drained r → now.LastMarkedLeaves host r ∧ p.profile.endMarked = true ∧
      p ∈ (now.step host r).conference.room.roster.people) ∧
    ∀ r, now.LastMarkedLeaves host r → ∀ x ∈ (now.step host r).conference.room.roster.records,
      x.participant.profile.endMarked = true → x.kicked = true ∧
        ∃ (a : Attachment host s (raises ++ [r]) x.participant) (past : List Raise) (next : Raise),
          past ++ [next] <+: a.since ∧ .kick x.participant ∈ (a.moment past).drained next := by
  intro s now
  have h : s.Settled settings := settled_start name settings people w
  have hnow : now.Settled settings := h.run host raises
  refine ⟨fun p hp => h.attachment rfl hp, fun p a r => ?_, fun r p hk => ?_, fun r hl x hx he => ?_⟩
  · have hmoment : a.moment a.since = now := a.moment_since
    have hlast : (s.run host a.earlier).run host (a.join :: a.since) = now := (run_append _ _).symm.trans hmoment
    have hp : p ∈ (a.moment a.since).conference.room.roster.people := a.stayed a.since (List.prefix_refl _)
    rw [hmoment] at hp
    rw [← List.cons_append, history_concat, List.countP_append, a.count_kick h (List.prefix_refl _), hlast, hmoment]
    obtain ⟨hcount, hfirst⟩ := hnow.count_kick_drained host r (Or.inl hp)
    rw [hcount]
    by_cases hk : .kick p ∈ now.drained r
    · simp [hk, hfirst hk]
    · rw [if_neg hk]
      split <;> simp
  · obtain ⟨hl, he, hd⟩ := hnow.lastMarkedLeaves_of_kick host hk
    exact ⟨hl, he, hd.mem_people⟩
  · have hd := hnow.dismissed_of_lastMarkedLeaves hl hx he
    have hafter : (now.step host r) = s.run host (raises ++ [r]) := (run_concat raises r).symm
    refine ⟨(hd.record (hnow.step host r).room.roster.distinct hx rfl).2, ?_⟩
    rw [hafter] at hx hd
    obtain ⟨a⟩ := h.attachment rfl (List.mem_map_of_mem (f := (·.participant)) hx)
    rw [← a.moment_since] at hd
    obtain ⟨past, next, hprefix, hk⟩ := a.kick_of_dismissed h (List.prefix_refl _) hd
    exact ⟨a, past, next, hprefix, hk⟩

end Session
end ConferenceBridge
