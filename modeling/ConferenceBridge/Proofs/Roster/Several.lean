import ConferenceBridge.Proofs.Roster.Settled
import Mathlib.Data.List.Perm.Basic

/-! What several departures or several arrivals come to, each followed by settling the others. What is left by
    several departures depends on who has left only: if the last marked participant is among them, those who
    stay are treated once, whenever that was. What several arrivals lead to is the same but for the order. -/

namespace ConferenceBridge

/-- The record of an arrival that is live. -/
def Record.admitted (p : Participant) : Record := { participant := p, membership := .active }

/-- The record of an arrival that waits and is treated. -/
def Record.awaiting (p : Participant) : Record := { participant := p, membership := .waiting, onHold := true }

namespace Roster
variable {r t : Roster} {x : Record} {p : Participant} {ids more : List String} {ps : List Participant}

/-- Those attached are told apart by their identifiers. -/
theorem nodup_ids_of_attached (h : r.ids.Nodup) (hps : ps.Nodup) (attached : ∀ p ∈ ps, p ∈ r.people) :
    (ps.map (·.id)).Nodup := by
  have hpeople : (r.people.map (·.id)).Nodup := map_id_people ▸ h
  exact hps.map_on fun p hp q hq => List.inj_on_of_nodup_map hpeople (attached p hp) (attached q hq)

/-! ### Several departures -/

/-- The lists of the roster with some participants left out. -/
def withoutAll (r : Roster) (ids : List String) : Roster :=
  { r with
    active := r.active.filter fun x => x.id ∉ ids
    waiting := r.waiting.filter fun x => x.id ∉ ids }

/-- The roster without some participants, the marked ones counted again. -/
def remaining (r : Roster) (ids : List String) : Roster :=
  { r.withoutAll ids with marked := (r.withoutAll ids).active.countP (·.isMarked) }

/-- The roster once the last marked participant is gone and those who wait are treated. -/
def unled (r : Roster) : Roster := r.loseLastMarked.2.2.holdWaiting.2

/-- The roster that some departures leave. -/
def leftBy (r : Roster) (ids : List String) : Roster :=
  if 0 < r.marked ∧ (r.remaining ids).marked = 0 then (r.remaining ids).unled else r.remaining ids

theorem remaining_remaining : (r.remaining ids).remaining more = r.remaining (ids ++ more) := by
  simp only [remaining, withoutAll, List.filter_filter, List.mem_append, not_or, Bool.decide_and, Bool.and_comm]

theorem people_remaining : (r.remaining ids).people = r.people.filter fun p => p.id ∉ ids := by
  simp only [people, records, remaining, withoutAll, ← List.filter_append, List.filter_map]
  rfl

theorem remaining_congr (h : ∀ id, id ∈ ids ↔ id ∈ more) : r.remaining ids = r.remaining more := by
  simp only [remaining, withoutAll, h]

theorem leftBy_congr (h : ∀ id, id ∈ ids ↔ id ∈ more) : r.leftBy ids = r.leftBy more := by
  simp only [leftBy, remaining_congr h]

theorem marked_remaining_le (h : r.Sound) : (r.remaining ids).marked ≤ r.marked := by
  rw [h.count]
  exact (List.filter_sublist.countP_le)

theorem Sound.remaining (h : r.Sound) (ids : List String) : (r.remaining ids).Sound where
  distinct := h.distinct.sublist ((List.filter_sublist.append List.filter_sublist).map _)
  live x hx := h.live x (List.mem_of_mem_filter hx)
  waiting x hx := h.waiting x (List.mem_of_mem_filter hx)
  count := rfl
  fits most hmost :=
    Nat.le_trans (Nat.add_le_add (List.length_filter_le _ _) (List.length_filter_le _ _)) (h.fits most hmost)

theorem remaining_of_zero (h : r.Sound) (h0 : r.marked = 0) : r.remaining ids = r.withoutAll ids := by
  have hz : (r.remaining ids).marked = 0 := Nat.eq_zero_of_le_zero (h0 ▸ marked_remaining_le h)
  show { r.withoutAll ids with marked := (r.remaining ids).marked } = r.withoutAll ids
  rw [hz, ← h0]
  rfl

theorem rest_eq_remaining (h : r.Sound) (hx : x ∈ r.records) : r.rest x = r.remaining [x.id] := by
  have hlist : ∀ l : List Record, l.filter (·.id != x.id) = l.filter fun y => y.id ∉ [x.id] := fun l =>
    List.filter_congr fun y _ => by rw [Bool.eq_iff_iff]; simp
  have hcount := h.counted.count_rest hx
  simp only [Roster.rest, without, hlist] at hcount
  simp only [Roster.rest, without, Roster.remaining, withoutAll, hlist, hcount]

theorem marked_unled (h : r.ids.Nodup) : r.unled.marked = r.marked := (loseLastMarked_fields h).1

theorem Sound.unled (h : r.Sound) : r.unled.Sound := h.loseLastMarked.holdWaiting

/-- What is done to every record alike can be done before or after some leave. -/
theorem filter_id_map {f : Record → Record} (hf : ∀ x, (f x).id = x.id) (l : List Record) :
    (l.map f).filter (fun x => x.id ∉ ids) = (l.filter fun x => x.id ∉ ids).map f := by
  rw [List.filter_map]
  simp only [Function.comp_def, hf]

theorem holdWaiting_withoutAll : (r.withoutAll ids).holdWaiting.2 = r.holdWaiting.2.withoutAll ids := by
  simp only [holdWaiting_eq, withoutAll, filter_id_map Record.id_treated]

theorem loseLastMarked_withoutAll (h : r.ids.Nodup) :
    (r.withoutAll ids).loseLastMarked.2.2 = r.loseLastMarked.2.2.withoutAll ids := by
  cases hp : r.policy with
  | keepActive =>
    rw [loseLastMarked_of_keepActive hp, loseLastMarked_of_keepActive (r := r.withoutAll ids) hp]
    simp only [withoutAll, filter_id_map Record.id_dismissed]
  | demoteWaitMarked =>
    have ha := nodup_active h
    have ha' : ((r.withoutAll ids).active.map (·.id)).Nodup := ha.sublist (List.filter_sublist.map _)
    rw [loseLastMarked_of_demote hp ha, loseLastMarked_of_demote (r := r.withoutAll ids) hp ha']
    simp only [withoutAll, List.filter_append, filter_id_map Record.id_parked, ← filter_id_map Record.id_dismissed,
      List.filter_filter, Bool.and_comm]

/-- Those who leave after the last marked participant might as well have left before it. -/
theorem unled_withoutAll (h : r.ids.Nodup) : (r.withoutAll ids).unled = r.unled.withoutAll ids := by
  rw [unled, loseLastMarked_withoutAll h, holdWaiting_withoutAll]
  rfl

theorem leftBy_nil (h : r.Sound) : r.leftBy [] = r := by
  have hall : r.remaining [] = r := by simp [remaining, withoutAll, ← h.count]
  rw [leftBy, hall]
  exact if_neg fun hl => Nat.ne_of_gt hl.1 hl.2

theorem people_leftBy_perm (h : r.Sound) : (r.leftBy ids).people.Perm (r.people.filter fun p => p.id ∉ ids) := by
  rw [← people_remaining]
  unfold leftBy
  split
  · rw [unled, people_holdWaiting]
    exact people_loseLastMarked_perm (h.remaining ids).distinct
  · exact List.Perm.refl _

/-- Some departures and then some more are all of them. -/
theorem leftBy_leftBy (h : r.Sound) (ids more : List String) :
    (r.leftBy ids).leftBy more = r.leftBy (ids ++ more) := by
  have hrem := h.remaining ids
  by_cases hl : 0 < r.marked ∧ (r.remaining ids).marked = 0
  · -- The last marked participant has left before the others.
    have hz : (r.remaining ids).unled.marked = 0 := (marked_unled hrem.distinct).trans hl.2
    have hall : r.remaining (ids ++ more) = (r.remaining ids).withoutAll more := by
      rw [← remaining_remaining, remaining_of_zero hrem hl.2]
    have hfirst : r.leftBy ids = (r.remaining ids).unled := if_pos hl
    have hnone : ¬(0 < (r.remaining ids).unled.marked ∧ ((r.remaining ids).unled.remaining more).marked = 0) :=
      fun hn => Nat.ne_of_gt hn.1 hz
    rw [hfirst, leftBy, if_neg hnone, remaining_of_zero hrem.unled hz, leftBy, hall,
      if_pos ⟨hl.1, show (r.remaining ids).marked = 0 from hl.2⟩, unled_withoutAll hrem.distinct]
  · have hfirst : r.leftBy ids = r.remaining ids := if_neg hl
    have hpos : 0 < (r.remaining ids).marked ↔ 0 < r.marked := by
      have hle : (r.remaining ids).marked ≤ r.marked := marked_remaining_le h
      omega
    rw [hfirst, leftBy, leftBy, remaining_remaining]
    simp only [hpos]

theorem Settled.settle_departed_eq_leftBy (h : r.Settled) (hx : x ∈ r.records) :
    (r.departed x).settle = r.leftBy [x.id] := by
  have hrest := rest_eq_remaining h.toSound hx
  have hlast : r.LosesLast x ↔ 0 < r.marked ∧ (r.remaining [x.id]).marked = 0 := by
    rw [LosesLast, hrest]
    refine and_congr_left fun h0 => ⟨h.marked_pos hx, fun hpos => ?_⟩
    -- Had it not been marked, as many would be marked as before.
    by_contra hm
    rw [← hrest] at h0
    simp only [Roster.rest, if_neg hm] at h0
    omega
  rw [h.settle_departed_eq hx, departed, leftBy]
  simp only [hlast, hrest]
  split
  · rfl
  · rw [holdWaiting_eq_self]
    exact fun y hy => h.needsHold_eq_false y (List.mem_of_mem_filter hy)

/-! ### Several arrivals -/

/-- How a roster grows by some arrivals, but for the order: if somebody is marked in the end everybody is
    live, and otherwise the arrivals are where they were placed. -/
structure JoinedBy (r : Roster) (ps : List Participant) (t : Roster) : Prop where
  marked : t.marked = r.marked + ps.countP (·.isMarked)
  led : 0 < t.marked →
    t.active.Perm (r.active ++ (r.waiting.map Record.live ++ ps.map Record.admitted)) ∧ t.waiting = []
  unled : t.marked = 0 →
    t.active = r.active ++ (ps.filter (·.role != .waitMarked)).map Record.admitted ∧
    t.waiting = r.waiting ++ (ps.filter (·.role == .waitMarked)).map Record.awaiting

theorem Settled.joinedBy_nil (h : r.Settled) : r.JoinedBy [] r where
  marked := rfl
  led hpos := by simp [h.led hpos]
  unled _ := by simp

/-- If everybody who waits were released now, all would be live. -/
theorem JoinedBy.released_perm (h : r.JoinedBy ps t) : (t.active ++ t.waiting.map Record.live).Perm
    (r.active ++ (r.waiting.map Record.live ++ ps.map Record.admitted)) := by
  rcases Nat.eq_zero_or_pos t.marked with h0 | hpos
  · obtain ⟨ha, hw⟩ := h.unled h0
    have hlive : ∀ qs : List Participant, (qs.map Record.awaiting).map Record.live = qs.map Record.admitted :=
      fun qs => List.map_map
    have halves : ((ps.filter (·.role != .waitMarked)) ++ ps.filter (·.role == .waitMarked)).Perm ps :=
      List.perm_append_comm.trans (List.filter_append_perm _ _)
    rw [ha, hw, List.map_append, hlive, List.append_assoc]
    refine List.Perm.append_left _ ((List.perm_append_comm_assoc _ _ _).trans (List.Perm.append_left _ ?_))
    rw [← List.map_append]
    exact halves.map _
  · obtain ⟨ha, hw⟩ := h.led hpos
    rw [hw, List.map_nil, List.append_nil]
    exact ha

theorem JoinedBy.people_perm (h : r.JoinedBy ps t) : t.people.Perm (r.people ++ ps) := by
  have hperm := h.released_perm.map fun x : Record => x.participant
  have hlive : ∀ l : List Record, (l.map Record.live).map (·.participant) = l.map (·.participant) := fun l =>
    List.map_map
  have hnew : (ps.map Record.admitted).map (·.participant) = ps := List.map_map.trans (List.map_id _)
  simp only [List.map_append, hlive, hnew] at hperm
  simpa only [people, records, List.map_append, List.append_assoc] using hperm

/-- An arrival that is placed among the waiting is treated. -/
theorem Settled.settle_place_of_waiting (h : r.Settled) (hw : r.placement p = .waiting) :
    (r.place p).settle = { r with waiting := r.waiting ++ [.awaiting p] } := by
  have htreated : r.waiting.map Record.treated = r.waiting :=
    congrArg (·.2.waiting) (holdWaiting_eq_self h.needsHold_eq_false)
  rw [settle_of_zero (h.needsHold_place hw).1, (place_of_waiting hw).2]
  simp only [holdWaiting_eq, List.map_append, htreated]
  rfl

theorem JoinedBy.concat (h : r.JoinedBy ps t) (ht : t.Settled) (p : Participant) :
    r.JoinedBy (ps ++ [p]) (t.place p).settle := by
  have hcount : r.marked + (ps ++ [p]).countP (·.isMarked) = if p.isMarked then t.marked + 1 else t.marked := by
    rw [List.countP_append, List.countP_singleton, ← Nat.add_assoc, ← h.marked]
    split <;> rfl
  rcases place_cases t p with ⟨hr, h0, hw, -⟩ | ⟨hpos, ha, he⟩
  · have hm := Participant.isMarked_of_role_eq_waitMarked hr
    obtain ⟨hactive, hwaiting⟩ := h.unled h0
    rw [ht.settle_place_of_waiting hw]
    refine ⟨by rw [hcount, hm]; rfl, fun hpos => absurd h0 (Nat.ne_of_gt hpos), fun _ => ⟨?_, ?_⟩⟩
    · simp [hactive, hr]
    · simp [hwaiting, hr]
  · refine ⟨by rw [hcount, marked_settle, he], fun hled => ?_, fun h0 => ?_⟩
    · rw [marked_settle] at hled
      rw [settle_of_pos hled, he]
      refine ⟨?_, rfl⟩
      calc t.active ++ [Record.admitted p] ++ t.waiting.map Record.live
        _ = t.active ++ ([Record.admitted p] ++ t.waiting.map Record.live) := List.append_assoc ..
        List.Perm _ (t.active ++ (t.waiting.map Record.live ++ [Record.admitted p])) :=
          List.perm_append_comm.append_left _
        _ = t.active ++ t.waiting.map Record.live ++ [Record.admitted p] := (List.append_assoc ..).symm
        List.Perm _ (r.active ++ (r.waiting.map Record.live ++ ps.map Record.admitted) ++ [Record.admitted p]) :=
          h.released_perm.append_right _
        _ = r.active ++ (r.waiting.map Record.live ++ (ps ++ [p]).map Record.admitted) := by simp
    · rw [marked_settle] at h0
      have ht0 : t.marked = 0 := by
        rw [he] at h0
        dsimp only at h0
        split at h0 <;> omega
      have hr : p.role ≠ .waitMarked := fun hr => Nat.ne_of_gt (hpos hr) ht0
      obtain ⟨hactive, hwaiting⟩ := h.unled ht0
      rw [ht.settle_place_of_zero ha h0, he]
      exact ⟨by simp [hactive, hr, Record.admitted], by simp [hwaiting, hr]⟩

/-- The same participants in the same places with the same flags, in another order perhaps. -/
structure Rearranged (r t : Roster) : Prop where
  marked : r.marked = t.marked
  active : r.active.Perm t.active
  waiting : r.waiting.Perm t.waiting

theorem Rearranged.target (h : r.Rearranged t) : r.target = t.target := by
  simp only [Roster.target, h.marked, h.active.length_eq, h.waiting.length_eq]

theorem JoinedBy.rearranged {qs : List Participant} {u : Roster} (h : r.JoinedBy ps t) (h' : r.JoinedBy qs u)
    (hperm : ps.Perm qs) : t.Rearranged u := by
  have hm : t.marked = u.marked := by rw [h.marked, h'.marked, hperm.countP_eq]
  refine ⟨hm, ?_, ?_⟩ <;> rcases Nat.eq_zero_or_pos t.marked with h0 | hpos
  · rw [(h.unled h0).1, (h'.unled (hm ▸ h0)).1]
    exact ((hperm.filter _).map _).append_left _
  · refine (h.led hpos).1.trans (.trans ?_ (h'.led (hm ▸ hpos)).1.symm)
    exact ((hperm.map _).append_left _).append_left _
  · rw [(h.unled h0).2, (h'.unled (hm ▸ h0)).2]
    exact ((hperm.filter _).map _).append_left _
  · rw [(h.led hpos).2, (h'.led (hm ▸ hpos)).2]

end Roster
end ConferenceBridge
