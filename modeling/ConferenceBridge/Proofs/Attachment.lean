import ConferenceBridge.Proofs.Session
import Mathlib.Data.List.Infix
import Mathlib.Data.List.Induction

/-! How long a participant is attached: from the accepted join that brings it in to the next accepted leave
    of its identifier. Whatever is raised in between, it is there with the profile that it came with, and no
    other join of its identifier is accepted. -/

namespace ConferenceBridge
open Roster Table

theorem concat_prefix_concat_iff {α : Type} {xs ys : List α} {a b : α} :
    xs ++ [a] <+: ys ++ [b] ↔ (xs = ys ∧ a = b) ∨ xs ++ [a] <+: ys := by
  rw [List.prefix_concat_iff]
  exact or_congr_left ⟨fun h => ⟨(List.append_inj' h rfl).1, List.singleton_inj.mp (List.append_inj' h rfl).2⟩,
    fun h => by rw [h.1, h.2]⟩

namespace Session
variable {σ : Type} {host : Host σ} {s : Session σ} {settings : ConferenceSettings} {p : Participant} {r : Raise}

/-- The event is an accepted join of this identifier. -/
def Joins (host : Host σ) (s : Session σ) (id : String) (r : Raise) : Prop :=
  r.event.isJoin = true ∧ (s.callers r.caller).participant.id = id ∧ ∃ outcome, (s.apply host r).result = .ok outcome

/-- The event is an accepted leave of this identifier. -/
def Leaves (host : Host σ) (s : Session σ) (id : String) (r : Raise) : Prop :=
  r.event.isLeave = true ∧ (s.callers r.caller).participant.id = id ∧ ∃ outcome, (s.apply host r).result = .ok outcome

/-! ### One event -/

/-- Whoever is attached after an event has come with it or was attached before and has not left with it. -/
theorem Settled.mem_people_step (h : s.Settled settings) (host : Host σ) (r : Raise) (p : Participant) :
    p ∈ (s.step host r).conference.room.roster.people ↔
      (s.Joins host p.id r ∧ p = (s.callers r.caller).participant) ∨
        (p ∈ s.conference.room.roster.people ∧ ¬s.Leaves host p.id r) := by
  rcases h.roster_cases host r with ⟨⟨error, he⟩, hroster⟩ | ⟨work, after, move, accepted, hroster⟩
  · have refused : ¬∃ outcome, (s.apply host r).result = .ok outcome := by
      rintro ⟨outcome, ho⟩
      rw [he] at ho
      cases ho
    simp [hroster, Joins, Leaves, refused]
  · rw [hroster, people_settle]
    cases move with
    | join event new =>
      have event : r.event = .join _ := event
      rw [people_place_perm.mem_iff, List.mem_cons]
      simp only [Joins, Leaves, event, Event.isJoin, Event.isLeave, accepted, and_true, true_and, Bool.not_true,
        Bool.false_eq_true, false_and, not_false_eq_true]
      refine or_congr_left ⟨fun hp => ⟨?_, hp⟩, And.right⟩
      rw [hp]
      rfl
    | leave x attached own event =>
      have event : r.event = .leave _ := event
      rw [show (s.context r).roster = s.conference.room.roster from rfl, mem_people_departed h.room.roster.distinct, own]
      simp only [Joins, Leaves, event, Event.isJoin, Event.isLeave, accepted, and_true, true_and, Bool.not_false,
        Bool.false_eq_true, false_and, false_or, ne_eq]
      exact and_congr_right' (not_congr eq_comm)

/-- Whoever joins was not attached, under whatever profile. -/
theorem Settled.new_of_joins (h : s.Settled settings) (hj : s.Joins host p.id r) :
    p ∉ s.conference.room.roster.people := by
  obtain ⟨hjoin, hid, outcome, ho⟩ := hj
  rcases h.roster_cases host r with ⟨⟨error, he⟩, -⟩ | ⟨work, after, move, -⟩
  · rw [ho] at he
    cases he
  · cases move with
    | join _ new =>
      intro hp
      have hmem : p.id ∈ s.conference.room.roster.ids := map_id_people ▸ List.mem_map_of_mem hp
      exact new (hid ▸ hmem)
    | leave _ _ _ event =>
      have event : r.event = .leave _ := event
      rw [event] at hjoin
      cases hjoin

/-! ### Attachments -/

/-- The attachment of a participant after some events: the accepted join that has brought it in, which is the
    last one of its identifier, and the events since, during all of which it has been attached. -/
structure Attachment (host : Host σ) (s : Session σ) (raises : List Raise) (p : Participant) where
  earlier : List Raise
  join : Raise
  since : List Raise
  split : raises = earlier ++ join :: since
  joined : (s.run host earlier).Joins host p.id join
  latest : ∀ past next, past ++ [next] <+: since → ¬(s.run host (earlier ++ join :: past)).Joins host p.id next
  stayed : ∀ past, past <+: since → p ∈ (s.run host (earlier ++ join :: past)).conference.room.roster.people

namespace Attachment
variable {raises : List Raise}

/-- A moment of the attachment: the session after its join and some of the events since. -/
def moment (a : Attachment host s raises p) (past : List Raise) : Session σ :=
  s.run host (a.earlier ++ a.join :: past)

theorem moment_nil (a : Attachment host s raises p) : a.moment [] = (s.run host a.earlier).step host a.join :=
  run_concat a.earlier a.join

theorem moment_concat (a : Attachment host s raises p) (past : List Raise) (r : Raise) :
    a.moment (past ++ [r]) = (a.moment past).step host r := by
  rw [moment, ← List.cons_append, ← List.append_assoc]
  exact run_concat _ r

theorem moment_since (a : Attachment host s raises p) : a.moment a.since = s.run host raises := by
  rw [moment, ← a.split]

theorem settled (a : Attachment host s raises p) (h : s.Settled settings) (past : List Raise) :
    (a.moment past).Settled settings :=
  h.run host _

/-- An attachment begins with an accepted join. -/
def begun (hj : (s.run host raises).Joins host p.id r)
    (hp : p ∈ (s.run host (raises ++ [r])).conference.room.roster.people) :
    Attachment host s (raises ++ [r]) p where
  earlier := raises
  join := r
  since := []
  split := rfl
  joined := hj
  latest past next hnil := absurd (List.prefix_nil.mp hnil) (by simp)
  stayed past hnil := List.prefix_nil.mp hnil ▸ hp

/-- An attachment goes on with every event that the participant stays attached through. -/
def extended (a : Attachment host s raises p) (hj : ¬(s.run host raises).Joins host p.id r)
    (hp : p ∈ (s.run host (raises ++ [r])).conference.room.roster.people) :
    Attachment host s (raises ++ [r]) p where
  earlier := a.earlier
  join := a.join
  since := a.since ++ [r]
  split := (congrArg (· ++ [r]) a.split).trans (List.append_assoc ..)
  joined := a.joined
  latest past next hpast := by
    rcases concat_prefix_concat_iff.mp hpast with ⟨rfl, rfl⟩ | hpast
    · rwa [← a.split]
    · exact a.latest past next hpast
  stayed past hpast := by
    rcases List.prefix_concat_iff.mp hpast with rfl | hpast
    · rwa [← List.cons_append, ← List.append_assoc, ← a.split]
    · exact a.stayed past hpast

end Attachment

/-- Everybody attached after some events has come with an accepted join and has stayed since. -/
theorem Settled.attachment (h : s.Settled settings) (hnone : s.conference.room.roster.people = [])
    {raises : List Raise} (hp : p ∈ (s.run host raises).conference.room.roster.people) :
    Nonempty (Attachment host s raises p) := by
  induction raises using List.reverseRecOn with
  | nil =>
    have hp : p ∈ s.conference.room.roster.people := hp
    rw [hnone] at hp
    cases hp
  | append_singleton raises r ih =>
    have hstep := hp
    rw [run_concat] at hstep
    rcases ((h.run host raises).mem_people_step host r p).mp hstep with ⟨hj, -⟩ | ⟨hbefore, -⟩
    · exact ⟨.begun hj hp⟩
    · obtain ⟨a⟩ := ih hbefore
      exact ⟨a.extended (fun hj => (h.run host raises).new_of_joins hj hbefore) hp⟩

end Session
end ConferenceBridge
