import ConferenceBridge.Proofs.Roster.Sound

/-! The rosters between two events of an ordinary bridge. A marked participant leaves nobody waiting,
    everybody waiting has had treatment asked for unless it is to go, and a policy that demotes leaves
    no wait-marked participant live without a marked one. An event takes one participant in or out and
    then settles the others again. -/

namespace ConferenceBridge
namespace Roster
variable {r : Roster} {x : Record} {p : Participant}

/-! ### Holding -/

/-- The record after holding has been asked for under these identifiers. -/
def holding (ids : List String) (x : Record) : Record :=
  if x.id ∈ ids ∧ x.needsHold then x.held else x

@[simp] theorem id_holding (ids : List String) (x : Record) : (holding ids x).id = x.id := by
  unfold holding
  split <;> rfl

theorem holding_of_notMem {l : List String} (h : x.id ∉ l) : holding l x = x :=
  if_neg fun hh => h hh.1

theorem holding_of_not_needsHold {l : List String} (h : x.needsHold = false) : holding l x = x :=
  if_neg fun hh => by simp [h] at hh

theorem holding_of_mem {l : List String} (h : x.id ∈ l) :
    holding l x = x.treated := by
  simp only [holding, Record.treated, h, true_and]

/-- Held once is held: asking again changes nothing. -/
theorem holding_cons (id : String) (ids : List String) (x : Record) :
    holding (id :: ids) x = holding ids (holding [id] x) := by
  by_cases hid : x.id = id
  · rw [holding_of_mem (l := id :: ids) (by simp [hid]), holding_of_mem (l := [id]) (by simp [hid])]
    unfold Record.treated
    split
    · exact (holding_of_not_needsHold rfl).symm
    · rename_i hn
      exact (holding_of_not_needsHold (by simpa using hn)).symm
  · rw [holding_of_notMem (l := [id]) (by simpa using hid)]
    simp only [holding, List.mem_cons, hid, false_or]

theorem hold_of_mem (h : (r.waiting.map (·.id)).Nodup) (hx : x ∈ r.waiting) : r.hold x.id =
    (if x.needsHold then some x.participant else none,
      { r with waiting := r.waiting.map (holding [x.id]) }) := by
  unfold hold
  rw [find?_key_of_mem h hx]
  by_cases hn : x.needsHold = true
  · simp only [if_pos hn, Prod.mk.injEq, true_and]
    congr 1
    apply List.map_congr_left
    intro y hy
    by_cases hyx : y.id = x.id
    · obtain rfl := List.inj_on_of_nodup_map h hy hx hyx
      rw [holding_of_mem (List.mem_singleton_self _), if_pos rfl, Record.treated, if_pos hn]
    · rw [if_neg hyx, holding_of_notMem (by simpa using hyx)]
  · have hmap : r.waiting.map (holding [x.id]) = r.waiting := by
      refine (List.map_congr_left fun y hy => ?_).trans (List.map_id _)
      by_cases hyx : y.id = x.id
      · obtain rfl := List.inj_on_of_nodup_map h hy hx hyx
        exact holding_of_not_needsHold (by simpa using hn)
      · exact holding_of_notMem (by simpa using hyx)
    simp only [if_neg hn, hmap]

/-- Holding some waiting participants one after the other treats those of them to whom it is due. -/
theorem holdEach_eq : ∀ {gs : List Record} {r : Roster}, (r.waiting.map (·.id)).Nodup →
    (gs.map (·.id)).Nodup → (∀ g ∈ gs, g ∈ r.waiting) →
    r.holdEach (gs.map (·.id)) =
      ((gs.filter (·.needsHold)).map (·.participant),
        { r with waiting := r.waiting.map (holding (gs.map (·.id))) })
  | [], r, _, _, _ => by
    have hmap : r.waiting.map (holding []) = r.waiting :=
      (List.map_congr_left fun x _ => holding_of_notMem List.not_mem_nil).trans (List.map_id _)
    simp only [List.map_nil, List.filter_nil, hmap, holdEach]
  | g :: gs, r, hr, hgs, hmem => by
    simp only [List.map_cons, List.nodup_cons] at hgs
    obtain ⟨hg, hrest⟩ := List.forall_mem_cons.mp hmem
    have hids : (r.waiting.map (holding [g.id])).map (·.id) = r.waiting.map (·.id) := by
      simp [Function.comp_def]
    -- Those still to come are untouched by the first.
    have hmem' : ∀ y ∈ gs, y ∈ r.waiting.map (holding [g.id]) := by
      intro y hy
      have hne : y.id ≠ g.id := fun h => hgs.1 (List.mem_map.mpr ⟨y, hy, h⟩)
      exact List.mem_map.mpr ⟨y, hrest y hy, holding_of_notMem (by simpa using hne)⟩
    have ih := holdEach_eq (r := { r with waiting := r.waiting.map (holding [g.id]) }) (hids ▸ hr) hgs.2
      hmem'
    rw [List.map_cons, holdEach, hold_of_mem hr hg]
    dsimp only
    rw [ih]
    simp only [List.map_map, Function.comp_def, ← holding_cons]
    cases hn : g.needsHold <;> simp [hn]

/-- Holding one after the other all those that still need it, in any order, leaves what holding everybody leaves. -/
theorem holdEach_of_covering {gs : List Record} (h : (r.waiting.map (·.id)).Nodup) (hgs : (gs.map (·.id)).Nodup)
    (hmem : ∀ g ∈ gs, g ∈ r.waiting) (hall : ∀ x ∈ r.waiting, x.needsHold = true → x ∈ gs) :
    r.holdEach (gs.map (·.id)) = ((gs.filter (·.needsHold)).map (·.participant), r.holdWaiting.2) := by
  rw [holdEach_eq h hgs hmem]
  simp only [holdWaiting, Prod.mk.injEq, true_and]
  congr 1
  apply List.map_congr_left
  intro y hy
  by_cases hn : y.needsHold = true
  · exact holding_of_mem (List.mem_map_of_mem (hall y hy hn))
  · rw [if_neg hn]
    exact holding_of_not_needsHold (by simpa using hn)

/-- Holding in turn those that still need it is holding everybody. -/
theorem holdEach_needsHold (h : (r.waiting.map (·.id)).Nodup) :
    r.holdEach ((r.waiting.filter (·.needsHold)).map (·.id)) = r.holdWaiting := by
  rw [holdEach_of_covering h (h.sublist (List.filter_sublist.map _)) (fun g hg => List.mem_of_mem_filter hg)
    fun x hx hn => List.mem_filter.mpr ⟨hx, hn⟩]
  simp only [List.filter_filter, Bool.and_self, holdWaiting]

theorem holdWaiting_eq : r.holdWaiting = ((r.waiting.filter (·.needsHold)).map (·.participant),
    { r with waiting := r.waiting.map Record.treated }) := rfl

theorem holdWaiting_eq_self (h : ∀ x ∈ r.waiting, x.needsHold = false) : r.holdWaiting = ([], r) := by
  have hnone : r.waiting.filter (·.needsHold) = [] := by
    rw [List.filter_eq_nil_iff]
    intro x hx
    simp [h x hx]
  have hmap : r.waiting.map Record.treated = r.waiting := by
    refine (List.map_congr_left fun x hx => ?_).trans (List.map_id _)
    simp [Record.treated, h x hx]
  rw [holdWaiting_eq, hnone, hmap]
  rfl

theorem release_eq_self (h : r.waiting = []) : r.release = ([], r) := by
  obtain ⟨active, waiting, marked, maxMembers, policy⟩ := r
  obtain rfl : waiting = [] := h
  simp [release]

/-! ### Settling -/

/-- The roster once everybody waiting is released, if somebody is marked, or treated, if nobody is. -/
def settle (r : Roster) : Roster := if 0 < r.marked then r.release.2 else r.holdWaiting.2

theorem settle_of_pos (h : 0 < r.marked) : r.settle = r.release.2 := if_pos h

theorem settle_of_zero (h : r.marked = 0) : r.settle = r.holdWaiting.2 := if_neg (by omega)

theorem people_settle : r.settle.people = r.people := by
  unfold settle
  split
  · exact people_release
  · exact people_holdWaiting

@[simp] theorem marked_settle (r : Roster) : r.settle.marked = r.marked := by unfold settle; split <;> rfl
@[simp] theorem policy_settle (r : Roster) : r.settle.policy = r.policy := by unfold settle; split <;> rfl

@[simp] theorem maxMembers_settle (r : Roster) : r.settle.maxMembers = r.maxMembers := by
  unfold settle
  split <;> rfl

theorem ofCounts_pos {m a b c d : Nat} (hm : 0 < m) (h : a + b = c + d) :
    State.ofCounts m a b = State.ofCounts m c d := by
  simp only [State.ofCounts, if_pos hm, h]

/-- The target does not depend on when the others are settled. -/
theorem target_settle : r.settle.target = r.target := by
  unfold settle
  split
  · rename_i hpos
    exact ofCounts_pos hpos (by simp [release])
  · simp [target, holdWaiting]

theorem Sound.settle (h : r.Sound) : r.settle.Sound := by
  unfold Roster.settle
  split
  · exact h.release
  · exact h.holdWaiting

/-- What holds of a roster between two events. -/
structure Settled (r : Roster) : Prop extends Sound r where
  led : 0 < r.marked → r.waiting = []
  treated : ∀ x ∈ r.waiting, x.onHold = !x.kicked
  gate : r.policy = .demoteWaitMarked → r.marked = 0 → ∀ x ∈ r.active, x.role ≠ .waitMarked

theorem Settled.ofSettings (s : ConferenceSettings) : (Roster.ofSettings s).Settled where
  toSound := Sound.ofSettings s
  led _ := rfl
  treated _ hx := absurd hx List.not_mem_nil
  gate _ _ _ hx := absurd hx List.not_mem_nil

/-- Settling brings about all but the gate. -/
theorem Sound.settled (h : r.Sound)
    (gate : r.policy = .demoteWaitMarked → r.marked = 0 → ∀ x ∈ r.active, x.role ≠ .waitMarked) :
    r.settle.Settled where
  toSound := h.settle
  led hpos := by
    rw [settle_of_pos (by simpa using hpos)]
    rfl
  treated x hx := by
    rcases Nat.eq_zero_or_pos r.marked with h0 | hpos
    · rw [settle_of_zero h0] at hx
      obtain ⟨y, hy, rfl⟩ := List.mem_map.mp hx
      by_cases hn : y.needsHold = true
      · simp only [Record.needsHold, Bool.and_eq_true, Bool.not_eq_true'] at hn
        simp [Record.needsHold, hn.1, hn.2, Record.held]
      · have hw := (h.waiting y hy).wanted
        rw [if_neg hn]
        simp only [Record.needsHold] at hn
        revert hn hw
        cases y.onHold <;> cases y.kicked <;> simp
    · rw [settle_of_pos hpos] at hx
      cases hx
  gate hp h0 := by
    rw [policy_settle] at hp
    rw [marked_settle] at h0
    rw [settle_of_zero h0]
    exact gate hp h0

theorem Settled.needsHold_eq_false (h : r.Settled) : ∀ x ∈ r.waiting, x.needsHold = false := by
  intro x hx
  rw [Record.needsHold, h.treated x hx]
  cases x.kicked <;> rfl

/-! ### Arrivals -/

/-- A participant that is placed among the live does not pass the gate unless somebody is marked. -/
theorem Settled.gate_place (h : r.Settled) (hp : r.policy = .demoteWaitMarked)
    (h0 : (r.place p).marked = 0) : ∀ x ∈ (r.place p).active, x.role ≠ .waitMarked := by
  intro x hx
  rcases place_cases r p with ⟨-, hr0, -, he⟩ | ⟨hpos, -, he⟩
  · rw [he] at hx
    exact h.gate hp hr0 x hx
  · rw [he] at h0 hx
    have hr0 : r.marked = 0 := by
      dsimp only at h0
      split at h0 <;> omega
    rcases List.mem_append.mp hx with hx | hx
    · exact h.gate hp hr0 x hx
    · rw [List.mem_singleton.mp hx]
      intro hr
      have := hpos hr
      omega

theorem Settled.settle_place (h : r.Settled) (hid : p.id ∉ r.ids) (hroom : r.isFull = false) :
    (r.place p).settle.Settled :=
  (h.place hid hroom).settled fun hp h0 => h.gate_place (by rwa [policy_place] at hp) h0

/-- A participant that is placed among the waiting is the only one that still needs to be held. -/
theorem Settled.needsHold_place (h : r.Settled) (hw : r.placement p = .waiting) : (r.place p).marked = 0 ∧
    (r.place p).waiting.filter (·.needsHold) = [{ participant := p, membership := .waiting }] := by
  obtain ⟨h0, he⟩ := place_of_waiting hw
  have hnone : r.waiting.filter (·.needsHold) = [] := by
    rw [List.filter_eq_nil_iff]
    intro x hx
    simp [h.needsHold_eq_false x hx]
  rw [he]
  exact ⟨h0, by rw [List.filter_append, hnone]; rfl⟩

theorem Settled.hold_place (h : r.Settled) (hid : p.id ∉ r.ids) (hroom : r.isFull = false)
    (hw : r.placement p = .waiting) : (r.place p).hold p.id = (some p, (r.place p).settle) := by
  obtain ⟨hz, hneeds⟩ := h.needsHold_place hw
  have hnodup := nodup_waiting (h.place hid hroom).distinct
  have hmem : ({ participant := p, membership := .waiting } : Record) ∈ (r.place p).waiting :=
    List.mem_of_mem_filter (hneeds ▸ List.mem_singleton_self _)
  have hone : ((r.place p).hold p.id).1 = some p := congrArg Prod.fst (hold_of_mem hnodup hmem)
  have hall := holdEach_needsHold hnodup
  rw [hneeds] at hall
  rw [settle_of_zero hz, ← hall]
  exact Prod.ext hone rfl

/-- With nobody marked, placing a participant among the live leaves the others settled. -/
theorem Settled.settle_place_of_zero (h : r.Settled) (ha : r.placement p = .active)
    (h0 : (r.place p).marked = 0) : (r.place p).settle = r.place p := by
  rw [settle_of_zero h0, holdWaiting_eq_self]
  rw [place_of_active ha]
  exact h.needsHold_eq_false

/-! ### Departures -/

theorem Sound.marked_pos (h : r.Sound) (hx : x ∈ r.records) (hm : x.isMarked = true) : 0 < r.marked := by
  rcases mem_records.mp hx with hx | hx
  · rw [h.count, List.countP_pos_iff]
    exact ⟨x, hx, hm⟩
  · rw [(h.waiting x hx).not_isMarked] at hm
    cases hm

theorem Sound.marked_pos_iff (h : r.Sound) : 0 < r.marked ↔ ∃ x ∈ r.records, x.isMarked = true := by
  constructor
  · intro hpos
    rw [h.count, List.countP_pos_iff] at hpos
    obtain ⟨x, hx, hm⟩ := hpos
    exact ⟨x, mem_records.mpr (Or.inl hx), hm⟩
  · rintro ⟨x, hx, hm⟩
    exact h.marked_pos hx hm

theorem Sound.isMarked_eq_false (h : r.Sound) (h0 : r.marked = 0) : ∀ x ∈ r.records, x.isMarked = false := by
  intro x hx
  rw [← Bool.not_eq_true]
  intro hm
  have := h.marked_pos hx hm
  omega

theorem Sound.role_ne_marked (h : r.Sound) (h0 : r.marked = 0) (hx : x ∈ r.records) : x.role ≠ .marked := by
  rw [Ne, Record.role_eq_marked_iff, h.isMarked_eq_false h0 x hx]
  exact Bool.false_ne_true

theorem loseLastMarked_fields (h : r.ids.Nodup) : r.loseLastMarked.2.2.marked = r.marked ∧
    r.loseLastMarked.2.2.policy = r.policy ∧ r.loseLastMarked.2.2.maxMembers = r.maxMembers := by
  cases hp : r.policy with
  | keepActive =>
    rw [loseLastMarked_of_keepActive hp]
    exact ⟨rfl, hp, rfl⟩
  | demoteWaitMarked =>
    rw [loseLastMarked_of_demote hp (nodup_active h)]
    exact ⟨rfl, hp, rfl⟩

theorem Sound.departed_fields (h : r.Sound) (hx : x ∈ r.records) :
    (r.departed x).marked = (r.rest x).marked ∧ (r.departed x).policy = r.policy ∧
      (r.departed x).maxMembers = r.maxMembers := by
  unfold Roster.departed
  split
  · exact loseLastMarked_fields (h.rest hx).distinct
  · exact ⟨rfl, rfl, rfl⟩

theorem Sound.losesLast_iff (h : r.Sound) (hx : x ∈ r.records) :
    r.LosesLast x ↔ r.marked = 1 ∧ (r.departed x).marked = 0 := by
  rw [(h.departed_fields hx).1, LosesLast]
  refine and_congr_left fun h0 => ?_
  simp only [Roster.rest] at h0
  constructor
  · intro hm
    have := h.marked_pos hx hm
    rw [if_pos hm] at h0
    omega
  · intro h1
    by_contra hm
    rw [if_neg hm] at h0
    omega

/-- Beside a marked participant nobody waits, whoever is taken out. -/
theorem Settled.waiting_rest (h : r.Settled) (hpos : 0 < r.marked) (x : Record) : (r.rest x).waiting = [] := by
  show r.waiting.filter _ = []
  rw [h.led hpos, List.filter_nil]

/-- While somebody stays marked nobody comes to wait. -/
theorem Settled.departed_led (h : r.Settled) (hx : x ∈ r.records) (hpos : 0 < (r.departed x).marked) :
    (r.departed x).waiting = [] := by
  rw [(h.toSound.departed_fields hx).1] at hpos
  have hr : 0 < r.marked := by
    simp only [Roster.rest] at hpos
    split at hpos <;> omega
  have hw := h.waiting_rest hr x
  unfold Roster.departed
  rw [if_neg fun hl => by have := hl.2; omega, hw]

theorem Settled.gate_departed (h : r.Settled) (hx : x ∈ r.records) (hp : r.policy = .demoteWaitMarked)
    (h0 : (r.departed x).marked = 0) : ∀ y ∈ (r.departed x).active, y.role ≠ .waitMarked := by
  intro y hy
  rw [(h.toSound.departed_fields hx).1] at h0
  unfold Roster.departed at hy
  split at hy
  · rw [loseLastMarked_of_demote (r := r.rest x) hp (nodup_active (h.rest hx).distinct)] at hy
    simpa using (List.mem_filter.mp hy).2
  · rename_i hl
    have hm : x.isMarked = false := by
      rw [← Bool.not_eq_true]
      exact fun hm => hl ⟨hm, h0⟩
    have hr0 : r.marked = 0 := by simpa [Roster.rest, hm] using h0
    exact h.gate hp hr0 y (List.mem_of_mem_filter hy)

theorem Settled.settle_departed (h : r.Settled) (hx : x ∈ r.records) : (r.departed x).settle.Settled :=
  (h.departed hx).settled fun hp h0 => h.gate_departed hx ((h.toSound.departed_fields hx).2.1 ▸ hp) h0

/-- Settling after a departure is holding everybody that waits. -/
theorem Settled.settle_departed_eq (h : r.Settled) (hx : x ∈ r.records) :
    (r.departed x).settle = (r.departed x).holdWaiting.2 := by
  rcases Nat.eq_zero_or_pos (r.departed x).marked with h0 | hpos
  · exact settle_of_zero h0
  · have hw := h.departed_led hx hpos
    rw [settle_of_pos hpos, release_eq_self hw, holdWaiting_eq_self]
    rw [hw]
    exact fun y hy => absurd hy List.not_mem_nil

theorem not_losesLast (hm : x.isMarked = false) : ¬r.LosesLast x := fun hl =>
  Bool.false_ne_true (hm.symm.trans hl.1)

theorem departed_of_unmarked (hm : x.isMarked = false) : r.departed x = r.without x.id := by
  rw [departed, if_neg (not_losesLast hm), Roster.rest, hm]
  rfl

theorem partingOf_of_unmarked (hm : x.isMarked = false) : r.partingOf x = ⟨x, [], [], false⟩ :=
  if_neg (not_losesLast hm)

/-- The departure of somebody who is not marked leaves the others as they are. -/
theorem Settled.settle_departed_of_unmarked (h : r.Settled) (hx : x ∈ r.records) (hm : x.isMarked = false) :
    (r.departed x).settle = r.without x.id := by
  rw [h.settle_departed_eq hx, departed_of_unmarked hm, holdWaiting_eq_self]
  exact fun y hy => h.needsHold_eq_false y (List.mem_of_mem_filter hy)

/-- Those demoted by a departure are the ones that need to be held after it. -/
theorem Settled.demoted_eq (h : r.Settled) (hx : x ∈ r.records) :
    (r.partingOf x).demoted = (r.departed x).holdWaiting.1 := by
  unfold Roster.partingOf Roster.departed
  split
  · rename_i hl
    have hw := h.waiting_rest (h.marked_pos hx hl.1) x
    cases hp : r.policy with
    | keepActive =>
      rw [loseLastMarked_of_keepActive (r := r.rest x) hp]
      simp [holdWaiting, hw]
    | demoteWaitMarked =>
      rw [loseLastMarked_of_demote (r := r.rest x) hp (nodup_active (h.rest hx).distinct)]
      simp only [holdWaiting, hw, List.nil_append, List.filter_map (f := Record.parked), List.map_map]
      rfl
  · rw [holdWaiting_eq_self fun y hy => h.needsHold_eq_false y (List.mem_of_mem_filter hy)]

theorem Settled.holdEach_demoted (h : r.Settled) (hx : x ∈ r.records) :
    (r.departed x).holdEach ((r.partingOf x).demoted.map (·.id)) =
      ((r.partingOf x).demoted, (r.departed x).settle) := by
  have hall := holdEach_needsHold (nodup_waiting (h.departed hx).distinct)
  have hids : (r.partingOf x).demoted.map (·.id) =
      ((r.departed x).waiting.filter (·.needsHold)).map (·.id) := by
    rw [h.demoted_eq hx]
    exact List.map_map
  rw [hids, hall, h.settle_departed_eq hx, h.demoted_eq hx]

end Roster
end ConferenceBridge
