import ConferenceBridge.Proofs.Room

/-! What an event can defer on the standard table, piece by piece: a join waits or mixes, a leave asks to go,
    demotes and announces, and a change of state releases, greets and tells. -/

namespace ConferenceBridge
open Roster
namespace Table
variable {c : Context} {r : Roster} {a : Action} {p : Participant}

theorem eq_of_mem_promptTo {prompt : Prompt} (h : a ∈ promptTo p prompt) : a = .playPrompt p.id prompt := by
  unfold promptTo at h
  split at h
  · cases h
  · exact List.mem_singleton.mp h

theorem admissionActions_cases (h : a ∈ admissionActions c r) : a = .mix c.participant ∨
    (∃ q, a = .endSolo q) ∨ ∃ prompt, a = .playPrompt c.participant.id prompt := by
  unfold admissionActions at h
  rcases List.mem_append.mp h with h | h
  · rcases List.mem_cons.mp h with rfl | h
    · exact Or.inl rfl
    · obtain ⟨q, -, rfl⟩ := Option.map_eq_some_iff.mp (Option.mem_toList.mp h)
      exact Or.inr (Or.inl ⟨q, rfl⟩)
  · split at h
    · exact Or.inr (Or.inr ⟨_, eq_of_mem_promptTo h⟩)
    · cases h

theorem joinWork_cases (h : a ∈ joinWork c) :
    a = .wait c.participant ∨ a = .mix c.participant ∨ (∃ q, a = .endSolo q) ∨
      (∃ prompt, a = .playPrompt c.participant.id prompt) ∨
      ∃ m, a = .publish (.participantJoined c.conference c.participant.id m) := by
  rcases List.mem_append.mp h with h | h
  · split at h
    · rcases List.mem_append.mp h with h | h
      · exact Or.inl (List.mem_singleton.mp h)
      · exact Or.inr (Or.inr (Or.inr (Or.inl ⟨_, eq_of_mem_promptTo h⟩)))
    · rcases admissionActions_cases h with rfl | he | hp
      · exact Or.inr (Or.inl rfl)
      · exact Or.inr (Or.inr (Or.inl he))
      · exact Or.inr (Or.inr (Or.inr (Or.inl hp)))
  · exact Or.inr (Or.inr (Or.inr (Or.inr ⟨_, List.mem_singleton.mp h⟩)))

theorem leaveWork_cases {parting : Parting} (h : a ∈ leaveWork c parting) :
    (∃ q ∈ parting.kicked, a = .kick q) ∨ (∃ q ∈ parting.demoted, a = .wait q) ∨
      a = .announce .leaderHasLeft ∨ a = .publish (.participantLeft c.conference c.participant.id) := by
  rcases List.mem_append.mp h with h | h
  · rcases List.mem_append.mp h with h | h
    · rcases List.mem_append.mp h with h | h
      · obtain ⟨q, hq, rfl⟩ := List.mem_map.mp h
        exact Or.inl ⟨q, hq, rfl⟩
      · obtain ⟨q, hq, rfl⟩ := List.mem_map.mp h
        exact Or.inr (Or.inl ⟨q, hq, rfl⟩)
    · split at h
      · exact Or.inr (Or.inr (Or.inl (List.mem_singleton.mp h)))
      · cases h
  · exact Or.inr (Or.inr (Or.inr (List.mem_singleton.mp h)))

/-- A leave is counted by whom it asks to go and whom it demotes, whatever it announces and tells. -/
theorem countP_leaveWork {parting : Parting} {f : Action → Bool} (announced : f (.announce .leaderHasLeft) = false)
    (told : ∀ n, f (.publish n) = false) : (leaveWork c parting).countP f =
      parting.kicked.countP (fun q => f (.kick q)) + parting.demoted.countP (fun q => f (.wait q)) := by
  have hfarewell : ∀ b : Bool, (if b then [Action.announce .leaderHasLeft] else []).countP f = 0 := by
    intro b
    cases b <;> simp [announced]
  unfold leaveWork
  rw [List.countP_append, List.countP_append, List.countP_append, hfarewell, List.countP_map, List.countP_map]
  simp [told, Function.comp_def]

theorem entryWork_cases (h : a ∈ entryWork c r.target r) :
    (0 < r.marked ∧ a = .releaseAll (r.waiting.map (·.participant))) ∨
      (∃ prompt, a = .playPrompt c.participant.id prompt) ∨ ∃ n, a = .publish n := by
  rcases Nat.eq_zero_or_pos r.marked with h0 | hpos
  · rw [entryWork_of_zero h0] at h
    split at h
    · exact Or.inr (Or.inr ⟨_, List.mem_singleton.mp h⟩)
    · cases h
  · rw [entryWork_of_pos hpos] at h
    rcases List.mem_append.mp h with h | h
    · split at h
      · cases h
      · exact Or.inl ⟨hpos, List.mem_singleton.mp h⟩
    · split at h
      · exact Or.inr (Or.inl ⟨_, eq_of_mem_promptTo h⟩)
      · cases h

theorem changeWork_cases (h : a ∈ changeWork c r) :
    (0 < r.marked ∧ a = .releaseAll (r.waiting.map (·.participant))) ∨
      (∃ prompt, a = .playPrompt c.participant.id prompt) ∨ ∃ n, a = .publish n := by
  unfold changeWork at h
  split at h
  · cases h
  · rcases List.mem_append.mp h with h | h
    · rcases List.mem_append.mp h with h | h
      · unfold exitWork at h
        split at h
        · exact Or.inr (Or.inr ⟨_, List.mem_singleton.mp h⟩)
        · cases h
      · exact Or.inr (Or.inr ⟨_, List.mem_singleton.mp h⟩)
    · exact entryWork_cases h

/-- A leader that finds nobody marked releases everybody who waits. -/
theorem releaseAll_mem_changeWork (hc : c.state.isMarked = false) (hpos : 0 < r.marked) (hw : r.waiting ≠ []) :
    .releaseAll (r.waiting.map (·.participant)) ∈ changeWork c r := by
  have ht : r.target ≠ c.state := by
    intro ht
    have hm := isMarked_target.mpr hpos
    rw [ht, hc] at hm
    cases hm
  unfold changeWork
  rw [if_neg ht, entryWork_of_pos hpos, if_neg (by simpa using hw)]
  exact List.mem_append_right _ List.mem_cons_self

end Table
end ConferenceBridge
