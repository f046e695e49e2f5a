import ConferenceBridge.Proofs.Roster.Usage
import Mathlib.Data.List.Perm.Basic

/-! Waiting treatment for everybody at once and for one after the other. Both ask for it for the same
    participants and leave the same roster, in whatever order they are taken, and asking again does nothing. -/

namespace ConferenceBridge
namespace Roster
variable {r : Roster} {ids : List String}

/-- Holding everybody waiting one after the other, in order of arrival, is holding everybody. -/
theorem holdEach_waitingIds (h : r.waitingIds.Nodup) : r.holdEach r.waitingIds = r.holdWaiting :=
  holdEach_of_covering h h (fun _ hg => hg) fun _ hx _ => hx

/-- The order in which they are held does not matter for the roster, and for the answer only the order. -/
theorem holdEach_perm (h : r.waitingIds.Nodup) (hids : ids.Perm r.waitingIds) :
    (r.holdEach ids).2 = r.holdWaiting.2 ∧ (r.holdEach ids).1.Perm r.holdWaiting.1 := by
  -- The records in the order of the identifiers.
  obtain ⟨gs, rfl, hgs⟩ : ∃ gs : List Record, ids = gs.map (·.id) ∧ gs.Perm r.waiting := by
    have hcomp := congrFun (congrFun (List.eq_map_comp_perm (·.id : Record → String)) ids) r.waiting
    exact hcomp.mpr hids
  rw [holdEach_of_covering h (hids.nodup_iff.mpr h) (fun g hg => hgs.mem_iff.mp hg) fun x hx _ => hgs.mem_iff.mpr hx]
  exact ⟨rfl, (hgs.filter _).map _⟩

theorem needsHold_treated (x : Record) : x.treated.needsHold = false := by
  unfold Record.treated
  split
  · rfl
  · simpa using ‹¬x.needsHold = true›

theorem needsHold_holdWaiting (r : Roster) : ∀ x ∈ r.holdWaiting.2.waiting, x.needsHold = false := by
  intro x hx
  rw [holdWaiting_eq] at hx
  obtain ⟨y, -, rfl⟩ := List.mem_map.mp hx
  exact needsHold_treated y

theorem hold_eq_self (h : ∀ x ∈ r.waiting, x.needsHold = false) (id : String) : r.hold id = (none, r) := by
  unfold hold
  split
  · rename_i x hx
    rw [if_neg (by simp [h x (List.mem_of_find?_eq_some hx)])]
  · rfl

/-- Whatever has been done with a roster, asking for waiting treatment for everybody gives the same participants in
    the same order and leaves the same roster as asking for one after the other in order of arrival. Any other
    order leaves that roster too, and gives the same participants in its own order. After that nobody is due any
    more: neither asking for everybody nor asking for anyone gives or changes anything. -/
theorem treatment_one_by_one (s : ConferenceSettings) (uses : List Use) :
    let r := (ofSettings s).useAll uses
    let held := r.holdWaiting.2
    r.holdWaiting = r.holdEach r.waitingIds ∧
    (∀ ids, ids.Perm r.waitingIds → (r.holdEach ids).2 = held ∧ (r.holdEach ids).1.Perm r.holdWaiting.1) ∧
    held.holdWaiting = ([], held) ∧ ∀ id, held.hold id = (none, held) := by
  intro r held
  have distinct : r.waitingIds.Nodup := nodup_waiting ((Sound.ofSettings s).useAll uses).1.distinct
  have treated : ∀ x ∈ held.waiting, x.needsHold = false := needsHold_holdWaiting r
  exact ⟨(holdEach_waitingIds distinct).symm, fun ids hids => holdEach_perm distinct hids,
    holdWaiting_eq_self treated, hold_eq_self treated⟩

/-- Of one who is to go, one who has been asked to wait and one who has not, only the last is due. -/
example :
    let guest (id : String) (endMarked : Bool) : Participant := ⟨id, { waitMarked := true, endMarked }⟩
    let r := (ofSettings {}).useAll [.attach "room" ⟨"leader", .leader⟩, .attach "room" (guest "ending" true),
      .depart "room" "leader", .attach "room" (guest "early" false), .hold "early",
      .attach "room" (guest "late" false)]
    r.waitingIds = ["ending", "early", "late"] ∧ r.holdWaiting.1 = [guest "late" false] := by
  decide

end Roster
end ConferenceBridge
