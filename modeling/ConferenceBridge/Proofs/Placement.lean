import ConferenceBridge.Proofs.Session

/-! The gate for wait-marked participants. Under the policy that demotes, where people are is a function
    of who is attached: with a marked participant everybody is live, without one the wait-marked wait and
    nobody else does. -/

namespace ConferenceBridge
namespace Roster
variable {r t : Roster}

/-- Where the gate puts everybody attached: with a marked one among them all are live, without one each
    is placed by its role. -/
structure Gated (r : Roster) : Prop where
  led : (∃ x ∈ r.records, x.isMarked = true) → r.waiting = [] ∧ r.active = r.records
  unled : (∀ x ∈ r.records, x.isMarked = false) →
    r.active = r.records.filter (·.role == .unmarked) ∧ r.waiting = r.records.filter (·.role == .waitMarked)

theorem Settled.role_active (h : r.Settled) (hp : r.policy = .demoteWaitMarked) (h0 : r.marked = 0) {x : Record}
    (hx : x ∈ r.active) : x.role = .unmarked := by
  have hw := h.gate hp h0 x hx
  have hm := h.toSound.role_ne_marked h0 (mem_records.mpr (Or.inl hx))
  cases hr : x.role with
  | unmarked => rfl
  | waitMarked => exact absurd hr hw
  | marked => exact absurd hr hm

theorem Settled.gated (h : r.Settled) (hp : r.policy = .demoteWaitMarked) : r.Gated where
  led hm := by
    have hw := h.led (h.marked_pos_iff.mpr hm)
    exact ⟨hw, by rw [records, hw, List.append_nil]⟩
  unled hm := by
    have h0 : r.marked = 0 := by
      refine Nat.eq_zero_of_not_pos fun hpos => ?_
      obtain ⟨x, hx, hxm⟩ := h.marked_pos_iff.mp hpos
      rw [hm x hx] at hxm
      cases hxm
    have ha : ∀ x ∈ r.active, x.role = .unmarked := fun x hx => h.role_active hp h0 hx
    have hw : ∀ x ∈ r.waiting, x.role = .waitMarked := fun x hx => (h.waiting x hx).gated
    have keep : ∀ {l : List Record} {role : Role}, (∀ x ∈ l, x.role = role) → l.filter (·.role == role) = l :=
      fun hl => List.filter_eq_self.mpr fun x hx => by simp [hl x hx]
    have drop : ∀ {l : List Record} {role other : Role}, role ≠ other → (∀ x ∈ l, x.role = role) →
        l.filter (·.role == other) = [] :=
      fun hne hl => List.filter_eq_nil_iff.mpr fun x hx => by simp [hl x hx, hne]
    constructor
    · rw [records, List.filter_append, keep ha, drop (by decide) hw, List.append_nil]
    · rw [records, List.filter_append, drop (by decide) ha, keep hw, List.nil_append]

/-! ### The same people in the same places -/

theorem nodup_people (h : r.ids.Nodup) : r.people.Nodup :=
  List.Nodup.of_map (·.id) (by rwa [map_id_people])

theorem Sound.count_people (h : r.Sound) : r.marked = r.people.countP (·.isMarked) := by
  have hp : r.people.countP (·.isMarked) = r.records.countP (·.isMarked) := List.countP_map
  rw [hp, records, List.countP_append, h.countP_waiting, Nat.add_zero]
  exact h.count

/-- The live ones, found from everybody attached and from whether somebody is marked. -/
theorem Settled.active_people (h : r.Settled) (hp : r.policy = .demoteWaitMarked) :
    r.active.map (·.participant) =
      if 0 < r.marked then r.people else r.people.filter (·.role == .unmarked) := by
  have g := h.gated hp
  split
  · rename_i hpos
    rw [people, ← (g.led (h.marked_pos_iff.mp hpos)).2]
  · rename_i h0
    conv_lhs => rw [(g.unled (h.isMarked_eq_false (Nat.eq_zero_of_not_pos h0))).1]
    rw [people, List.filter_map]
    rfl

theorem Settled.waiting_people (h : r.Settled) (hp : r.policy = .demoteWaitMarked) :
    r.waiting.map (·.participant) =
      if 0 < r.marked then [] else r.people.filter (·.role == .waitMarked) := by
  have g := h.gated hp
  split
  · rename_i hpos
    rw [h.led hpos, List.map_nil]
  · rename_i h0
    conv_lhs => rw [(g.unled (h.isMarked_eq_false (Nat.eq_zero_of_not_pos h0))).2]
    rw [people, List.filter_map]
    rfl

/-- Rosters with the same people attached have the same ones live and the same ones waiting. -/
structure SamePlaces (r t : Roster) : Prop where
  marked : r.marked = t.marked
  active : (r.active.map (·.participant)).Perm (t.active.map (·.participant))
  waiting : (r.waiting.map (·.participant)).Perm (t.waiting.map (·.participant))

theorem Settled.samePlaces (hr : r.Settled) (ht : t.Settled) (hrp : r.policy = .demoteWaitMarked)
    (htp : t.policy = .demoteWaitMarked) (same : ∀ p, p ∈ r.people ↔ p ∈ t.people) : r.SamePlaces t := by
  have hperm : r.people.Perm t.people :=
    (List.perm_ext_iff_of_nodup (nodup_people hr.distinct) (nodup_people ht.distinct)).mpr same
  have hm : r.marked = t.marked := by rw [hr.count_people, ht.count_people, hperm.countP_eq]
  refine ⟨hm, ?_, ?_⟩
  · rw [hr.active_people hrp, ht.active_people htp, hm]
    split
    · exact hperm
    · exact hperm.filter _
  · rw [hr.waiting_people hrp, ht.waiting_people htp, hm]
    split
    · exact List.Perm.refl _
    · exact hperm.filter _

theorem SamePlaces.target (h : r.SamePlaces t) : r.target = t.target := by
  have ha := h.active.length_eq
  have hw := h.waiting.length_eq
  simp only [List.length_map] at ha hw
  simp only [Roster.target, h.marked, ha, hw]

end Roster

namespace Session

/-- After any events under the policy that demotes, the gate has placed everybody; and two conferences
    that end up with the same people attached, whatever happened before, are in the same state with the
    same people live and the same people waiting. -/
theorem placement_by_attachment {σ τ : Type} (host : Host σ) (other : Host τ) (name name' : String)
    (most most' : Option Nat) (people people' : Nat → Participant) (w : σ) (v : τ) (raises raises' : List Raise) :
    let room := ((start name ⟨most, .demoteWaitMarked⟩ .standard people w).run host raises).conference.room
    let room' := ((start name' ⟨most', .demoteWaitMarked⟩ .standard people' v).run other raises').conference.room
    room.roster.Gated ∧
    ((∀ p, p ∈ room.roster.people ↔ p ∈ room'.roster.people) →
      room.state = room'.state ∧ room.roster.SamePlaces room'.roster) := by
  intro room room'
  have h := settled_run host name ⟨most, .demoteWaitMarked⟩ people w raises
  have h' := settled_run other name' ⟨most', .demoteWaitMarked⟩ people' v raises'
  refine ⟨h.room.roster.gated h.policy, fun same => ?_⟩
  have places := h.room.roster.samePlaces h'.room.roster h.policy h'.policy same
  exact ⟨by rw [h.room.state, h'.room.state, places.target], places⟩

end Session
end ConferenceBridge
