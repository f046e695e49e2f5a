import ConferenceBridge.Proofs.Roster.Usage

/-! A departure read off the two lists. The roster erases first matches, sets flags in place and moves one
    participant after the other; all the same, the others keep their order, and the loss of the last marked
    participant splits the live list in two. -/

namespace ConferenceBridge
namespace Roster
variable {r : Roster} {x : Record} {id : String}

/-- The departure of a participant, read off the lists of the others. Nothing else happens unless the participant
    was marked and nobody else is. Then those who are to go are asked to, if they have not been asked before, and
    under the policy that demotes the wait-marked come after those who wait already; they are listed but for those
    who have been asked to go, before or now. -/
def parted (r : Roster) (x : Record) : Parting × Roster :=
  let live := r.active.filter (·.id != x.id)
  let waiting := r.waiting.filter (·.id != x.id)
  if x.isMarked ∧ ∀ y ∈ live, y.isMarked = false then
    let kicked := (live.filter (·.needsKick)).map (·.participant)
    match r.policy with
    | .demoteWaitMarked =>
      let gated := live.filter (·.role == .waitMarked)
      let demoted := gated.filter fun y => !y.kicked && !y.participant.profile.endMarked
      (⟨x, demoted.map (·.participant), kicked, true⟩,
        { r with
          active := (live.filter (·.role != .waitMarked)).map Record.dismissed
          waiting := waiting ++ gated.map (·.dismissed.parked)
          marked := 0 })
    | .keepActive =>
      (⟨x, [], kicked, true⟩, { r with active := live.map Record.dismissed, waiting, marked := 0 })
  else (⟨x, [], [], false⟩, { r with active := live, waiting, marked := live.countP (·.isMarked) })

theorem Counted.losesLast_iff (h : r.Counted) (hx : x ∈ r.records) :
    r.LosesLast x ↔ x.isMarked = true ∧ ∀ y ∈ r.active.filter (·.id != x.id), y.isMarked = false := by
  have hcount : (r.rest x).marked = (r.active.filter (·.id != x.id)).countP (·.isMarked) := h.count_rest hx
  simp only [LosesLast, hcount, List.countP_eq_zero, Bool.not_eq_true]

theorem nodup_active_rest (h : r.ids.Nodup) : ((r.rest x).active.map (·.id)).Nodup :=
  (nodup_active h).sublist (List.filter_sublist.map _)

/-- Whoever is dismissed is wanted no more. -/
theorem kicked_dismissed (y : Record) : y.dismissed.kicked = (y.kicked || y.participant.profile.endMarked) := by
  cases hk : y.kicked <;> cases he : y.participant.profile.endMarked <;>
    simp [Record.dismissed, Record.needsKick, hk, he]

/-- Asking some to go and then telling the wait-marked from the others, or the other way round. -/
theorem filter_role_dismissed (l : List Record) (f : Role → Bool) :
    (l.map Record.dismissed).filter (fun y => f y.role) = (l.filter fun y => f y.role).map Record.dismissed := by
  simp only [List.filter_map, Function.comp_def, Record.role_dismissed]

theorem Counted.parted_eq (h : r.Counted) (hx : x ∈ r.records) : r.parted x = (r.partingOf x, r.departed x) := by
  unfold parted partingOf departed
  dsimp only
  by_cases hl : r.LosesLast x
  · have h0 : (r.rest x).marked = 0 := hl.2
    rw [if_pos ((h.losesLast_iff hx).mp hl), if_pos hl, if_pos hl]
    cases hp : r.policy with
    | keepActive =>
      have hrest : (r.rest x).policy = .keepActive := hp
      rw [loseLastMarked_of_keepActive hrest, h0, hrest]
      rfl
    | demoteWaitMarked =>
      have hrest : (r.rest x).policy = .demoteWaitMarked := hp
      rw [loseLastMarked_of_demote hrest (nodup_active_rest h.distinct), h0, hrest,
        filter_role_dismissed _ (· == .waitMarked), filter_role_dismissed _ (· != .waitMarked)]
      simp only [List.filter_map, List.map_map, Function.comp_def, kicked_dismissed, Bool.not_or,
        Record.participant_dismissed]
      rfl
  · have hcount : (r.active.filter (·.id != x.id)).countP (·.isMarked) = (r.rest x).marked := (h.count_rest hx).symm
    rw [if_neg fun hall => hl ((h.losesLast_iff hx).mpr hall), if_neg hl, if_neg hl, hcount]
    rfl

/-- A departure fails exactly if nobody of that identifier is attached, and then it changes nothing. Otherwise it
    comes to what can be read off the lists of the others. -/
theorem depart_by_lists (h : r.Counted) (conference id : String) :
    (r.depart conference id = .error (.notAttached conference id) ↔ id ∉ r.ids) ∧
    (id ∉ r.ids → r.use (.depart conference id) = r) ∧
    ∀ x ∈ r.records, x.id = id → r.depart conference id = .ok (r.parted x) := by
  have present : ∀ x ∈ r.records, x.id = id → r.depart conference id = .ok (r.parted x) := by
    rintro x hx rfl
    rw [h.parted_eq hx]
    exact depart_of_mem h.distinct hx conference
  refine ⟨⟨fun hfail hid => ?_, fun hid => depart_of_notMem hid conference⟩, fun hid => ?_, present⟩
  · obtain ⟨x, hx, hxid⟩ := mem_ids.mp hid
    rw [present x hx hxid] at hfail
    cases hfail
  · simp only [use, depart_of_notMem hid conference]

/-- A leader leaves a guest, a guest who is to go without a leader, one who has been asked to go before and somebody
    who needs no leader. -/
theorem leader_leaves_guests :
    let guest (id : String) (endMarked : Bool) : Participant := ⟨id, { waitMarked := true, endMarked }⟩
    let leader : Record := ⟨⟨"leader", .leader⟩, .active, false, false⟩
    let plain : Record := ⟨⟨"plain", .plain⟩, .active, false, false⟩
    let asked : Record := ⟨guest "asked" true, .active, false, true⟩
    let r : Roster :=
      { active := [leader, asked, ⟨guest "ending" true, .active, false, false⟩, plain,
          ⟨guest "guest" false, .active, false, false⟩]
        waiting := [⟨guest "early" false, .waiting, true, false⟩]
        marked := 1 }
    r.Counted ∧ leader ∈ r.records ∧
      r.depart "room" "leader" = .ok (⟨leader, [guest "guest" false], [guest "ending" true], true⟩,
        { r with
          active := [plain]
          waiting := [⟨guest "early" false, .waiting, true, false⟩, asked.parked,
            ⟨guest "ending" true, .waiting, false, true⟩, ⟨guest "guest" false, .waiting, false, false⟩]
          marked := 0 }) := by
  intro guest leader plain asked r
  have counted : r.Counted := ⟨by decide, rfl, by decide⟩
  have attached : leader ∈ r.records := List.mem_cons_self
  obtain ⟨-, -, present⟩ := depart_by_lists counted "room" "leader"
  exact ⟨counted, attached, (present leader attached rfl).trans (by decide)⟩

end Roster
end ConferenceBridge
