import ConferenceBridge.Proofs.Roster.Departure

/-! The rosters that the operations can build, in whatever order they are used: identifiers are
    distinct, the marked are counted, and the flags of a record fit the list it is in. Each operation
    moves people without losing or doubling any of them, and that carries most of the invariant. -/

namespace ConferenceBridge

namespace Record
variable {x : Record}

/-- What holds of a record in the live list. -/
structure IsLive (x : Record) : Prop where
  membership : x.membership = .active
  free : x.onHold = false
  ended : x.kicked = true → x.participant.profile.endMarked = true

/-- What holds of a record in the waiting list. -/
structure IsWaiting (x : Record) : Prop where
  membership : x.membership = .waiting
  gated : x.role = .waitMarked
  wanted : x.onHold = true → x.kicked = false
  ended : x.kicked = true → x.participant.profile.endMarked = true

theorem IsLive.dismissed (h : x.IsLive) : x.dismissed.IsLive := by
  unfold Record.dismissed
  split
  · rename_i hk
    have he : x.participant.profile.endMarked = true := by
      simp only [needsKick, Bool.and_eq_true] at hk
      exact hk.1
    exact ⟨h.membership, h.free, fun _ => he⟩
  · exact h

theorem IsLive.parked (h : x.IsLive) (hr : x.role = .waitMarked) : x.parked.IsWaiting :=
  ⟨rfl, hr, fun hh => absurd hh Bool.false_ne_true, h.ended⟩

theorem IsWaiting.live (h : x.IsWaiting) : x.live.IsLive := ⟨rfl, rfl, h.ended⟩

theorem IsWaiting.held (h : x.IsWaiting) (hk : x.needsHold = true) : x.held.IsWaiting := by
  simp only [needsHold, Bool.and_eq_true, Bool.not_eq_true'] at hk
  exact ⟨h.membership, h.gated, fun _ => hk.2, h.ended⟩

theorem IsWaiting.not_isMarked (h : x.IsWaiting) : x.isMarked = false :=
  Participant.isMarked_of_role_eq_waitMarked h.gated

end Record

namespace Roster
variable {r : Roster} {x : Record} {id : String} {p : Participant}

/-! ### Where people go -/

/-- How a participant is placed: at the end of the waiting list if it is wait-marked and nobody is
    marked, at the end of the live list otherwise. -/
theorem place_cases (r : Roster) (p : Participant) :
    (p.role = .waitMarked ∧ r.marked = 0 ∧ r.placement p = .waiting ∧
      r.place p = { r with waiting := r.waiting ++ [{ participant := p, membership := .waiting }] }) ∨
    ((p.role = .waitMarked → 0 < r.marked) ∧ r.placement p = .active ∧
      r.place p =
        { r with
          active := r.active ++ [{ participant := p, membership := .active }]
          marked := if p.isMarked then r.marked + 1 else r.marked }) := by
  by_cases hw : p.role = .waitMarked ∧ r.marked = 0
  · obtain ⟨hr, h0⟩ := hw
    have hm := Participant.isMarked_of_role_eq_waitMarked hr
    have hp : r.placement p = .waiting := by simp [placement, hr, h0]
    exact Or.inl ⟨hr, h0, hp, by simp [place, hp, hm]⟩
  · have hpos : p.role = .waitMarked → 0 < r.marked := fun hr =>
      Nat.pos_of_ne_zero fun h0 => hw ⟨hr, h0⟩
    have hp : r.placement p = .active := by
      unfold placement
      cases hr : p.role with
      | waitMarked => exact if_pos (hpos hr)
      | unmarked => rfl
      | marked => rfl
    exact Or.inr ⟨hpos, hp, by simp [place, hp]⟩

theorem place_of_waiting (hw : r.placement p = .waiting) : r.marked = 0 ∧
    r.place p = { r with waiting := r.waiting ++ [{ participant := p, membership := .waiting }] } := by
  rcases place_cases r p with ⟨-, h0, -, he⟩ | ⟨-, ha, -⟩
  · exact ⟨h0, he⟩
  · rw [ha] at hw
    cases hw

theorem place_of_active (ha : r.placement p = .active) : r.place p =
    { r with
      active := r.active ++ [{ participant := p, membership := .active }]
      marked := if p.isMarked then r.marked + 1 else r.marked } := by
  rcases place_cases r p with ⟨-, -, hw, -⟩ | ⟨-, -, he⟩
  · rw [ha] at hw
    cases hw
  · exact he

theorem people_place_perm : (r.place p).people.Perm (p :: r.people) := by
  rcases place_cases r p with ⟨-, -, -, h⟩ | ⟨-, -, h⟩
  · rw [h]
    simp only [people, records, ← List.append_assoc, List.map_append, List.map_cons, List.map_nil]
    exact List.perm_append_singleton _ _
  · rw [h]
    simp only [people, records, List.map_append, List.map_cons, List.append_assoc, List.cons_append,
      List.nil_append]
    exact List.perm_middle

theorem mem_records_place :
    x ∈ (r.place p).records ↔ x ∈ r.records ∨ x = { participant := p, membership := r.placement p } := by
  rcases place_cases r p with ⟨-, -, hp, h⟩ | ⟨-, hp, h⟩
  · simp only [h, hp, mem_records, List.mem_append, List.mem_singleton]
    exact or_assoc.symm
  · simp only [h, hp, mem_records, List.mem_append, List.mem_singleton]
    exact or_right_comm

theorem people_without : (r.without id).people = r.people.filter (·.id != id) := by
  simp only [people, records, without, ← List.filter_append, List.filter_map]
  rfl

theorem map_participant_dismissed (l : List Record) :
    (l.map Record.dismissed).map (·.participant) = l.map (·.participant) := by
  simp [Function.comp_def]

theorem people_loseLastMarked_perm (h : r.ids.Nodup) : r.loseLastMarked.2.2.people.Perm r.people := by
  cases hp : r.policy with
  | keepActive =>
    rw [loseLastMarked_of_keepActive hp]
    simp only [people, records, List.map_append, map_participant_dismissed]
    exact List.Perm.refl _
  | demoteWaitMarked =>
    rw [loseLastMarked_of_demote hp (nodup_active h)]
    -- The two halves of the live list come together around those who waited before.
    have split := List.filter_append_perm (fun x : Record => x.role == .waitMarked)
      (r.active.map Record.dismissed)
    have halves := (List.perm_append_comm.trans split).map (fun x : Record => x.participant)
    rw [map_participant_dismissed, List.map_append] at halves
    simp only [people, records, List.map_append, List.map_map, Function.comp_def,
      Record.participant_parked]
    refine (List.perm_append_comm.append_left _).trans ?_
    rw [← List.append_assoc]
    exact halves.append_right _

theorem people_departed_perm (h : r.ids.Nodup) :
    (r.departed x).people.Perm (r.people.filter (·.id != x.id)) := by
  have hrest : (r.rest x).people = r.people.filter (·.id != x.id) := people_without
  have hids : (r.rest x).ids.Nodup := by
    rw [← map_id_people, hrest]
    rw [← map_id_people] at h
    exact h.sublist (List.filter_sublist.map _)
  unfold departed
  split
  · rw [← hrest]
    exact people_loseLastMarked_perm hids
  · rw [hrest]

theorem mem_people_departed (h : r.ids.Nodup) : p ∈ (r.departed x).people ↔ p ∈ r.people ∧ p.id ≠ x.id := by
  rw [(people_departed_perm h).mem_iff, List.mem_filter, bne_iff_ne]

theorem people_release : r.release.2.people = r.people := by
  simp [release, people, records, Function.comp_def]

theorem map_participant_held (P : Record → Prop) [DecidablePred P] (l : List Record) :
    (l.map fun x => if P x then x.held else x).map (·.participant) = l.map (·.participant) := by
  rw [List.map_map]
  apply List.map_congr_left
  intro x _
  simp only [Function.comp_apply]
  split <;> rfl

theorem people_holdWaiting : r.holdWaiting.2.people = r.people := by
  simp only [holdWaiting, people, records, List.map_append, map_participant_held]

theorem people_hold : (r.hold id).2.people = r.people := by
  unfold hold
  split
  · split
    · simp only [people, records, List.map_append, map_participant_held]
    · rfl
  · rfl

/-! ### Identifiers -/

theorem mem_ids_departed (h : r.ids.Nodup) : id ∈ (r.departed x).ids ↔ id ∈ r.ids ∧ id ≠ x.id := by
  rw [← map_id_people, ← map_id_people]
  simp only [List.mem_map, mem_people_departed h]
  constructor
  · rintro ⟨p, ⟨hp, hne⟩, rfl⟩
    exact ⟨⟨p, hp, rfl⟩, hne⟩
  · rintro ⟨⟨p, hp, rfl⟩, hne⟩
    exact ⟨p, ⟨hp, hne⟩, rfl⟩

theorem mem_ids_place : id ∈ (r.place p).ids ↔ id = p.id ∨ id ∈ r.ids := by
  rw [← map_id_people, (people_place_perm.map _).mem_iff, List.map_cons, List.mem_cons, map_id_people]

theorem ids_release : r.release.2.ids = r.ids := by rw [← map_id_people, people_release, map_id_people]

theorem ids_holdWaiting : r.holdWaiting.2.ids = r.ids := by
  rw [← map_id_people, people_holdWaiting, map_id_people]

/-! ### Sizes and settings -/

theorem size_eq_length_people : r.size = r.people.length := by simp [people, records, size]

theorem isFull_eq_false_iff : r.isFull = false ↔ ∀ most, r.maxMembers = some most → r.size < most := by
  unfold isFull
  cases r.maxMembers <;> simp

@[simp] theorem policy_place (r : Roster) (p : Participant) : (r.place p).policy = r.policy := by
  unfold place
  dsimp only
  split <;> rfl

@[simp] theorem maxMembers_place (r : Roster) (p : Participant) : (r.place p).maxMembers = r.maxMembers := by
  unfold place
  dsimp only
  split <;> rfl

/-! ### The invariant -/

/-- What holds of a roster however the operations are used. -/
structure Sound (r : Roster) : Prop where
  distinct : r.ids.Nodup
  live : ∀ x ∈ r.active, x.IsLive
  waiting : ∀ x ∈ r.waiting, x.IsWaiting
  count : r.marked = r.active.countP (·.isMarked)
  fits : ∀ most, r.maxMembers = some most → r.size ≤ most

theorem Sound.ofSettings (s : ConferenceSettings) : (Roster.ofSettings s).Sound where
  distinct := List.nodup_nil
  live _ hx := absurd hx List.not_mem_nil
  waiting _ hx := absurd hx List.not_mem_nil
  count := rfl
  fits _ _ := Nat.zero_le _

theorem Sound.isFull_iff (h : r.Sound) : r.isFull = true ↔ r.maxMembers = some r.size := by
  have hfits := h.fits
  unfold isFull
  cases hm : r.maxMembers with
  | none => simp
  | some most =>
    have := hfits most hm
    simp only [decide_eq_true_eq, Option.some.injEq]
    omega

/-- An operation that moves people without losing or doubling any keeps identifiers distinct and the
    roster within its limit. -/
theorem Sound.of_perm (h : r.Sound) {t : Roster} (hp : t.people.Perm r.people)
    (hm : t.maxMembers = r.maxMembers) (live : ∀ x ∈ t.active, x.IsLive)
    (waiting : ∀ x ∈ t.waiting, x.IsWaiting) (count : t.marked = t.active.countP (·.isMarked)) :
    t.Sound where
  distinct := by
    rw [← map_id_people]
    exact (hp.map _).nodup_iff.mpr (map_id_people ▸ h.distinct)
  live := live
  waiting := waiting
  count := count
  fits most hmost := by
    rw [size_eq_length_people, hp.length_eq, ← size_eq_length_people]
    exact h.fits most (hm ▸ hmost)

theorem Sound.countP_waiting (h : r.Sound) : r.waiting.countP (·.isMarked) = 0 := by
  rw [List.countP_eq_zero]
  intro x hx
  simp [(h.waiting x hx).not_isMarked]

theorem Sound.counted (h : r.Sound) : r.Counted where
  distinct := h.distinct
  count := by rw [records, List.countP_append, h.countP_waiting, ← h.count, Nat.add_zero]
  leading x hx hm := by
    rcases mem_records.mp hx with ha | hw
    · exact ha
    · rw [(h.waiting x hw).not_isMarked] at hm
      cases hm

theorem Sound.place (h : r.Sound) (hid : p.id ∉ r.ids) (hroom : r.isFull = false) : (r.place p).Sound := by
  have hperm : (r.place p).people.Perm (p :: r.people) := people_place_perm
  have distinct : (r.place p).ids.Nodup := by
    rw [← map_id_people, (hperm.map _).nodup_iff, List.map_cons, map_id_people]
    exact List.nodup_cons.mpr ⟨hid, h.distinct⟩
  have fits : ∀ most, (r.place p).maxMembers = some most → (r.place p).size ≤ most := by
    intro most hmost
    rw [size_eq_length_people, hperm.length_eq, List.length_cons, ← size_eq_length_people]
    exact isFull_eq_false_iff.mp hroom most (maxMembers_place r p ▸ hmost)
  rcases place_cases r p with ⟨hr, -, -, he⟩ | ⟨-, -, he⟩
  · rw [he] at distinct fits ⊢
    refine ⟨distinct, h.live, fun x hx => ?_, h.count, fits⟩
    rcases List.mem_append.mp hx with hx | hx
    · exact h.waiting x hx
    · rw [List.mem_singleton.mp hx]
      exact ⟨rfl, hr, fun hh => absurd hh Bool.false_ne_true, fun hh => absurd hh Bool.false_ne_true⟩
  · rw [he] at distinct fits ⊢
    refine ⟨distinct, fun x hx => ?_, h.waiting, ?_, fits⟩
    · rcases List.mem_append.mp hx with hx | hx
      · exact h.live x hx
      · rw [List.mem_singleton.mp hx]
        exact ⟨rfl, rfl, fun hh => absurd hh Bool.false_ne_true⟩
    · simp only [List.countP_append, List.countP_singleton, h.count, Record.isMarked]
      split <;> rfl

theorem Sound.release (h : r.Sound) : r.release.2.Sound := by
  refine h.of_perm (by rw [people_release]) rfl ?_ (fun x hx => absurd hx List.not_mem_nil) ?_
  · intro x hx
    rcases List.mem_append.mp hx with hx | hx
    · exact h.live x hx
    · obtain ⟨y, hy, rfl⟩ := List.mem_map.mp hx
      exact (h.waiting y hy).live
  · show r.marked = (r.active ++ r.waiting.map (·.live)).countP (·.isMarked)
    rw [List.countP_append, List.countP_map]
    simp only [Function.comp_def, Record.isMarked_live, h.countP_waiting]
    exact h.count

theorem Sound.hold (h : r.Sound) (id : String) : (r.hold id).2.Sound := by
  have hperm : (r.hold id).2.people.Perm r.people := by rw [people_hold]
  revert hperm
  unfold Roster.hold
  split
  · rename_i record hfind
    split
    · rename_i hneeds
      intro hperm
      have hmem := List.mem_of_find?_eq_some hfind
      have hid : record.id = id := by simpa using List.find?_some hfind
      refine h.of_perm hperm rfl h.live ?_ h.count
      intro x hx
      obtain ⟨y, hy, rfl⟩ := List.mem_map.mp hx
      by_cases hyid : y.id = id
      · -- The one record of that identifier is the one whose flags were looked at.
        have hyr : y = record :=
          List.inj_on_of_nodup_map (nodup_waiting h.distinct) hy hmem (hyid.trans hid.symm)
        rw [if_pos hyid]
        exact (h.waiting y hy).held (hyr ▸ hneeds)
      · rw [if_neg hyid]
        exact h.waiting y hy
    · exact fun _ => h
  · exact fun _ => h

theorem Sound.holdEach (h : r.Sound) (ids : List String) : (r.holdEach ids).2.Sound := by
  induction ids generalizing r with
  | nil => exact h
  | cons id ids ih => exact ih (h.hold id)

theorem Sound.holdWaiting (h : r.Sound) : r.holdWaiting.2.Sound := by
  refine h.of_perm (by rw [people_holdWaiting]) rfl h.live ?_ h.count
  intro x hx
  obtain ⟨y, hy, rfl⟩ := List.mem_map.mp hx
  by_cases hn : y.needsHold = true
  · rw [if_pos hn]
    exact (h.waiting y hy).held hn
  · rw [if_neg hn]
    exact h.waiting y hy

/-! ### Departures keep it -/

theorem Sound.rest (h : r.Sound) (hx : x ∈ r.records) : (r.rest x).Sound where
  distinct := by
    rw [← map_id_people, show (r.rest x).people = _ from people_without]
    exact (map_id_people ▸ h.distinct : (r.people.map (·.id)).Nodup).sublist (List.filter_sublist.map _)
  live y hy := h.live y (List.mem_of_mem_filter hy)
  waiting y hy := h.waiting y (List.mem_of_mem_filter hy)
  count := h.counted.count_rest hx
  fits most hmost := by
    have hle : (r.rest x).size ≤ r.size := by
      rw [size_eq_length_people, size_eq_length_people, show (r.rest x).people = _ from people_without]
      exact List.length_filter_le _ _
    exact Nat.le_trans hle (h.fits most hmost)

theorem Sound.live_dismissed (h : r.Sound) : ∀ x ∈ r.active.map Record.dismissed, x.IsLive := by
  intro x hx
  obtain ⟨y, hy, rfl⟩ := List.mem_map.mp hx
  exact (h.live y hy).dismissed

theorem Sound.countP_dismissed (h : r.Sound) :
    (r.active.map Record.dismissed).countP (·.isMarked) = r.marked := by
  rw [List.countP_map, h.count]
  simp [Function.comp_def]

theorem Sound.loseLastMarked (h : r.Sound) : r.loseLastMarked.2.2.Sound := by
  have hperm := people_loseLastMarked_perm h.distinct
  cases hp : r.policy with
  | keepActive =>
    rw [loseLastMarked_of_keepActive hp] at hperm ⊢
    exact h.of_perm hperm rfl h.live_dismissed h.waiting h.countP_dismissed.symm
  | demoteWaitMarked =>
    rw [loseLastMarked_of_demote hp (nodup_active h.distinct)] at hperm ⊢
    refine h.of_perm hperm rfl ?_ ?_ ?_
    · exact fun x hx => h.live_dismissed x (List.mem_of_mem_filter hx)
    · intro x hx
      rcases List.mem_append.mp hx with hx | hx
      · exact h.waiting x hx
      · obtain ⟨y, hy, rfl⟩ := List.mem_map.mp hx
        obtain ⟨hy, hr⟩ := List.mem_filter.mp hy
        exact (h.live_dismissed y hy).parked (by simpa using hr)
    · -- Nobody who is parked is marked.
      rw [← h.countP_dismissed, List.countP_filter]
      apply List.countP_congr
      intro x _
      have hne : x.isMarked = true → x.role ≠ .waitMarked := fun hm hr => by
        rw [Record.role_eq_marked_iff.mpr hm] at hr
        cases hr
      simpa using hne

theorem Sound.departed (h : r.Sound) (hx : x ∈ r.records) : (r.departed x).Sound := by
  unfold Roster.departed
  split
  · exact (h.rest hx).loseLastMarked
  · exact h.rest hx

end Roster
end ConferenceBridge
