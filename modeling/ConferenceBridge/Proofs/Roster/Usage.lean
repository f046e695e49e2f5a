import ConferenceBridge.Proofs.Roster.Settled

/-! A roster in use. Its operations may be called in any order and with any arguments, also in orders that
    no conference brings about; some of the calls are refused. The two lists, the count of the marked and
    the flags of the records fit together after every call. -/

namespace ConferenceBridge
namespace Roster
variable {r : Roster} {x : Record}

/-- A call of one of the operations. -/
inductive Use where
  | attach (conference : String) (p : Participant)
  | depart (conference id : String)
  | release
  | hold (id : String)
  | holdWaiting

/-- The roster after a call. A call that is refused leaves it as it was. -/
def use (r : Roster) : Use → Roster
  | .attach conference p =>
    match r.attach conference p with
    | .ok (_, after) => after
    | .error _ => r
  | .depart conference id =>
    match r.depart conference id with
    | .ok (_, after) => after
    | .error _ => r
  | .release => r.release.2
  | .hold id => (r.hold id).2
  | .holdWaiting => r.holdWaiting.2

/-- The roster after some calls, one after the other. -/
def useAll (r : Roster) (uses : List Use) : Roster := uses.foldl use r

/-! ### One call -/

theorem use_attach_cases (r : Roster) (conference : String) (p : Participant) :
    r.use (.attach conference p) = r ∨
    (p.id ∉ r.ids ∧ r.isFull = false ∧ r.use (.attach conference p) = r.place p) := by
  by_cases hid : r.contains p.id = true
  · exact Or.inl (by simp [use, attach, hid])
  · rw [Bool.not_eq_true] at hid
    cases hfull : r.isFull
    · exact Or.inr ⟨contains_eq_false_iff.mp hid, rfl, by simp [use, attach, hid, hfull]⟩
    · exact Or.inl (by simp [use, attach, hid, hfull])

theorem use_depart_cases (h : r.ids.Nodup) (conference id : String) :
    r.use (.depart conference id) = r ∨
    ∃ x ∈ r.records, x.id = id ∧ r.use (.depart conference id) = r.departed x := by
  by_cases hid : id ∈ r.ids
  · obtain ⟨x, hx, rfl⟩ := mem_ids.mp hid
    exact Or.inr ⟨x, hx, rfl, by simp [use, depart_of_mem h hx]⟩
  · exact Or.inl (by simp [use, depart_of_notMem hid])

@[simp] theorem maxMembers_hold (r : Roster) (id : String) : (r.hold id).2.maxMembers = r.maxMembers := by
  unfold hold
  split
  · split <;> rfl
  · rfl

/-- A call keeps the roster sound, and none of them touches the limit. -/
theorem Sound.use (h : r.Sound) (u : Use) : (r.use u).Sound ∧ (r.use u).maxMembers = r.maxMembers := by
  cases u with
  | attach conference p =>
    rcases use_attach_cases r conference p with he | ⟨hid, hroom, he⟩
    · rw [he]
      exact ⟨h, rfl⟩
    · rw [he]
      exact ⟨h.place hid hroom, maxMembers_place r p⟩
  | depart conference id =>
    rcases use_depart_cases h.distinct conference id with he | ⟨x, hx, -, he⟩
    · rw [he]
      exact ⟨h, rfl⟩
    · rw [he]
      exact ⟨h.departed hx, (h.departed_fields hx).2.2⟩
  | release => exact ⟨h.release, rfl⟩
  | hold id => exact ⟨h.hold id, maxMembers_hold r id⟩
  | holdWaiting => exact ⟨h.holdWaiting, rfl⟩

theorem Sound.useAll (h : r.Sound) (uses : List Use) :
    (r.useAll uses).Sound ∧ (r.useAll uses).maxMembers = r.maxMembers := by
  induction uses generalizing r with
  | nil => exact ⟨h, rfl⟩
  | cons u uses ih =>
    obtain ⟨hs, hm⟩ := h.use u
    obtain ⟨hs', hm'⟩ := ih hs
    exact ⟨hs', hm'.trans hm⟩

/-! ### What a sound roster shows -/

/-- How the lists, the count and the flags of a roster fit together. -/
structure Consistent (r : Roster) : Prop where
  /-- No identifier occurs twice, in one list or in both. -/
  distinct : r.ids.Nodup
  /-- A record is found under its own identifier and under no other. -/
  keyed : ∀ id x, r.get? id = some x ↔ x ∈ r.records ∧ x.id = id
  active : ∀ x ∈ r.records, x.membership = .active ↔ x ∈ r.active
  waiting : ∀ x ∈ r.records, x.membership = .waiting ↔ x ∈ r.waiting
  count : r.marked = r.records.countP (·.isMarked)
  leading : ∀ x ∈ r.records, x.isMarked = true → x ∈ r.active
  gated : ∀ x ∈ r.waiting, x.role = .waitMarked
  held : ∀ x ∈ r.records, x.onHold = true → x ∈ r.waiting ∧ x.kicked = false
  ended : ∀ x ∈ r.records, x.kicked = true → x.participant.profile.endMarked = true

theorem get?_eq_some_iff {id : String} (h : r.ids.Nodup) :
    r.get? id = some x ↔ x ∈ r.records ∧ x.id = id := by
  constructor
  · intro hx
    rw [get?_eq_find?] at hx
    exact ⟨List.mem_of_find?_eq_some hx, by simpa using List.find?_some hx⟩
  · rintro ⟨hx, rfl⟩
    exact get?_of_mem h hx

/-- The list that a record is in can be read off its membership. -/
theorem Sound.membership_cases (h : r.Sound) (hx : x ∈ r.records) :
    (x ∈ r.active ∧ x ∉ r.waiting ∧ x.membership = .active) ∨
    (x ∈ r.waiting ∧ x ∉ r.active ∧ x.membership = .waiting) := by
  have apart : ∀ y, y ∈ r.active → y ∉ r.waiting := by
    intro y ha hw
    have hlive := (h.live y ha).membership
    rw [(h.waiting y hw).membership] at hlive
    cases hlive
  rcases mem_records.mp hx with ha | hw
  · exact Or.inl ⟨ha, apart x ha, (h.live x ha).membership⟩
  · exact Or.inr ⟨hw, fun ha => apart x ha hw, (h.waiting x hw).membership⟩

theorem Sound.consistent (h : r.Sound) : r.Consistent where
  distinct := h.distinct
  keyed _ _ := get?_eq_some_iff h.distinct
  active x hx := by
    rcases h.membership_cases hx with ⟨ha, -, hm⟩ | ⟨-, ha, hm⟩ <;> simp [ha, hm]
  waiting x hx := by
    rcases h.membership_cases hx with ⟨-, hw, hm⟩ | ⟨hw, -, hm⟩ <;> simp [hw, hm]
  count := h.counted.count
  leading := h.counted.leading
  gated x hx := (h.waiting x hx).gated
  held x hx ho := by
    rcases mem_records.mp hx with ha | hw
    · rw [(h.live x ha).free] at ho
      cases ho
    · exact ⟨hw, (h.waiting x hw).wanted ho⟩
  ended x hx hk := by
    rcases mem_records.mp hx with ha | hw
    · exact (h.live x ha).ended hk
    · exact (h.waiting x hw).ended hk

/-- Whatever is done with a new roster, it stays consistent and within its limit. -/
theorem consistent_of_any_use (s : ConferenceSettings) (uses : List Use) :
    let r := (ofSettings s).useAll uses
    r.Consistent ∧ ∀ most, s.maxMembers = some most → r.size ≤ most := by
  intro r
  obtain ⟨hs, hm⟩ := (Sound.ofSettings s).useAll uses
  exact ⟨hs.consistent, fun most hmost => hs.fits most (hm.trans hmost)⟩

end Roster
end ConferenceBridge
