import ConferenceBridge.Proofs.Roster.Several
import ConferenceBridge.Proofs.Session

/-! Prompts and announcements. They are decided on from the room before an event, by the handler and by the hook of
    the state that is entered; those who hear them find the room as they were told. -/

namespace ConferenceBridge

/-- Something that is played, to the participant that is named or else to everybody. -/
structure Spoken where
  hearer : Option String
  prompt : Prompt
  deriving DecidableEq

/-- What an action plays. -/
def Action.spoken? : Action → Option Spoken
  | .playPrompt id prompt => some ⟨some id, prompt⟩
  | .announce prompt => some ⟨none, prompt⟩
  | _ => none

/-- What some work plays, in order. -/
def spoken (work : List Action) : List Spoken := work.filterMap Action.spoken?

@[simp] theorem spoken_append (work more : List Action) : spoken (work ++ more) = spoken work ++ spoken more :=
  List.filterMap_append

/-! ### Rosters -/

namespace Roster
variable {r : Roster} {p : Participant} {prompt : Prompt}

/-- A prompt tells a participant the truth: it waits, or nobody else is live and it is no leader, or it is the one
    leader. -/
def Warrants (r : Roster) (p : Participant) : Prompt → Prop
  | .waitForLeader => p.id ∈ r.waitingIds
  | .onlyPerson => p.isMarked = false ∧ r.active.map (·.participant) = [p]
  | .placedIntoConference => p.isMarked = true ∧ r.people.filter (·.isMarked) = [p]
  | .leaderHasLeft => False

instance (r : Roster) (p : Participant) : (prompt : Prompt) → Decidable (r.Warrants p prompt)
  | .waitForLeader => inferInstanceAs (Decidable (_ ∈ _))
  | .onlyPerson | .placedIntoConference => inferInstanceAs (Decidable (_ ∧ _))
  | .leaderHasLeft => inferInstanceAs (Decidable False)

/-- The prompt for an arriving participant, told from those who are there before it. -/
def greeting (r : Roster) (p : Participant) : Option Prompt :=
  if r.placement p = .waiting then some .waitForLeader
  else if r.marked = 0 then
    if p.isMarked then some .placedIntoConference else if r.active = [] then some .onlyPerson else none
  else none

theorem greeting_of_waiting (hw : r.placement p = .waiting) : r.greeting p = some .waitForLeader := if_pos hw

theorem greeting_of_active (ha : r.placement p = .active) : r.greeting p =
    if r.marked = 0 then
      if p.isMarked then some .placedIntoConference else if r.active = [] then some .onlyPerson else none
    else none :=
  if_neg fun hw => by
    rw [ha] at hw
    cases hw

theorem target_unled_iff : r.target = .empty ∨ r.target = .inactive ↔ r.marked = 0 ∧ r.active = [] := by
  unfold target State.ofCounts
  rcases Nat.eq_zero_or_pos r.marked with h0 | hpos
  · rw [if_neg (Nat.not_lt.mpr (Nat.le_of_eq h0))]
    cases ha : r.active with
    | nil => cases hw : r.waiting <;> simp [h0]
    | cons x xs => cases hxs : xs <;> simp [h0]
  · rw [if_pos hpos]
    split <;> simp [Nat.ne_of_gt hpos]

theorem Sound.leaders_eq_nil_iff (h : r.Sound) : r.people.filter (·.isMarked) = [] ↔ r.marked = 0 := by
  rw [h.counted.count, people, List.filter_map, List.map_eq_nil_iff, List.countP_eq_length_filter,
    List.length_eq_zero_iff]
  rfl

/-- An arriving leader is the only one if it has found none. -/
theorem Sound.only_leader_iff (h : r.Sound) (hm : p.isMarked = true) :
    (r.place p).settle.people.filter (·.isMarked) = [p] ↔ r.marked = 0 := by
  have hperm : ((r.place p).settle.people.filter (·.isMarked)).Perm (p :: r.people.filter (·.isMarked)) := by
    have hplaced := (people_place_perm (r := r) (p := p)).filter (·.isMarked)
    rwa [← people_settle, List.filter_cons_of_pos hm] at hplaced
  rw [← h.leaders_eq_nil_iff]
  constructor
  · intro hone
    rw [hone] at hperm
    exact (List.cons.inj (List.singleton_perm.mp hperm).symm).2
  · intro hnone
    rw [hnone] at hperm
    exact List.perm_singleton.mp hperm

/-- An arrival that goes live has company unless nobody is live before it. -/
theorem Settled.only_live_iff (h : r.Settled) (ha : r.placement p = .active) (hm : p.isMarked = false) :
    (r.place p).settle.active.map (·.participant) = [p] ↔ r.marked = 0 ∧ r.active = [] := by
  have hplace : r.place p = { r with active := r.active ++ [{ participant := p, membership := .active }] } := by
    simpa [hm] using place_of_active ha
  rcases Nat.eq_zero_or_pos r.marked with h0 | hpos
  · rw [h.settle_place_of_zero ha (by rw [hplace]; exact h0), hplace]
    simp [h0]
  · rw [settle_of_pos (by rw [hplace]; exact hpos), hplace]
    refine iff_of_false (fun hone => ?_) fun hnone => Nat.ne_of_gt hpos hnone.1
    have hlive : r.active.length = 0 := by
      have hlength := congrArg List.length hone
      simp only [release, List.map_append, List.length_append, List.length_map, List.length_singleton] at hlength
      omega
    rw [h.count, List.length_eq_zero_iff.mp hlive] at hpos
    exact Nat.lt_irrefl 0 hpos

/-- An arrival that goes live is not among those who wait. -/
theorem Settled.notMem_waitingIds_settle_place (h : r.Settled) (new : p.id ∉ r.ids) (ha : r.placement p = .active) :
    p.id ∉ (r.place p).settle.waitingIds := by
  rcases Nat.eq_zero_or_pos (r.place p).marked with h0 | hpos
  · rw [h.settle_place_of_zero ha h0, place_of_active ha]
    exact fun hm => new (ids_eq ▸ List.mem_append_right _ hm)
  · rw [settle_of_pos hpos]
    exact List.not_mem_nil

/-- What an arrival may be told is true is the greeting that could be told before. -/
theorem Settled.warrants_place (h : r.Settled) (new : p.id ∉ r.ids) :
    (r.place p).settle.Warrants p prompt ↔ r.greeting p = some prompt := by
  rcases place_cases r p with ⟨hrole, -, hw, -⟩ | ⟨-, ha, -⟩
  · have hm : p.isMarked = false := Participant.isMarked_of_role_eq_waitMarked hrole
    have hlive : p ∉ r.active.map (·.participant) := by
      intro hp
      obtain ⟨x, hx, rfl⟩ := List.mem_map.mp hp
      exact new (mem_ids_of_mem (mem_records.mpr (Or.inl hx)))
    rw [greeting_of_waiting hw, Option.some.injEq, h.settle_place_of_waiting hw]
    cases prompt with
    | waitForLeader =>
      refine iff_of_true ?_ rfl
      exact List.mem_map.mpr ⟨.awaiting p, List.mem_append_right _ (List.mem_singleton_self _), rfl⟩
    | onlyPerson =>
      refine iff_of_false (fun hone => hlive ?_) nofun
      rw [hone.2]
      exact List.mem_singleton_self p
    | placedIntoConference => exact iff_of_false (fun hone => Bool.false_ne_true (hm.symm.trans hone.1)) nofun
    | leaderHasLeft => exact iff_of_false id nofun
  · rw [greeting_of_active ha]
    have hwaits := h.notMem_waitingIds_settle_place new ha
    cases hm : p.isMarked with
    | false =>
      cases prompt <;> simp [Warrants, hm, hwaits, h.only_live_iff ha hm]
    | true =>
      cases prompt <;> simp [Warrants, hm, hwaits, h.toSound.only_leader_iff hm]

end Roster

/-! ### One event -/

namespace Table
open Roster
variable {c : Context} {r after : Roster} {work : List Action} {p : Participant}

/-- A greeting as it is played to a participant, unless that one asked for quiet. -/
def played (p : Participant) (greeting : Option Prompt) : List Spoken :=
  if p.profile.quiet then [] else greeting.toList.map (⟨some p.id, ·⟩)

theorem spoken_promptTo (p : Participant) (prompt : Prompt) : spoken (promptTo p prompt) = played p (some prompt) := by
  unfold promptTo played
  split <;> rfl

theorem played_none (p : Participant) : played p none = [] := ite_self _

theorem played_some (hq : p.profile.quiet = false) (prompt : Prompt) : played p (some prompt) = [⟨some p.id, prompt⟩] := by
  simp [played, hq]

theorem spoken_ite_promptTo (b : Bool) (p : Participant) (prompt : Prompt) :
    spoken (if b then promptTo p prompt else []) = played p (if b then some prompt else none) := by
  cases b
  · exact (played_none p).symm
  · exact spoken_promptTo p prompt

theorem spoken_map {α : Type} {f : α → Action} (h : ∀ a, (f a).spoken? = none) (l : List α) :
    spoken (l.map f) = [] := filterMap_map_of_none h l

theorem spoken_joinWork_of_waiting (hw : c.roster.placement c.participant = .waiting) :
    spoken (joinWork c) = played c.participant (some .waitForLeader) := by
  simp only [joinWork, hw, parkingActions, spoken_append, spoken_promptTo]
  exact List.append_nil _

theorem spoken_joinWork_of_active (ha : c.roster.placement c.participant = .active) :
    spoken (joinWork c) = played c.participant
      (if !c.participant.isMarked && (c.state == .empty || c.state == .inactive) then some .onlyPerson else none) := by
  have solo : ∀ q : Option Participant, spoken (q.map Action.endSolo).toList = [] := fun q => by cases q <;> rfl
  have admitted : ∀ work : List Action, spoken (.mix c.participant :: work) = spoken work := fun _ => rfl
  simp only [joinWork, ha, admissionActions, spoken_append, admitted, solo, spoken_ite_promptTo, List.nil_append]
  exact List.append_nil _

theorem spoken_leaveWork (c : Context) (parting : Parting) : spoken (leaveWork c parting) =
    if parting.lastMarkedLeft && !c.participant.profile.quiet then [⟨none, .leaderHasLeft⟩] else [] := by
  rw [leaveWork, spoken_append, spoken_append, spoken_append, spoken_map fun _ => rfl, spoken_map fun _ => rfl]
  split <;> rfl

theorem spoken_exitWork (c : Context) : spoken (exitWork c) = [] := by
  unfold exitWork
  split <;> rfl

theorem spoken_entryWork (c : Context) (r : Roster) : spoken (entryWork c r.target r) = played c.participant
    (if c.event.isJoin && c.participant.isMarked && r.marked == 1 then some .placedIntoConference else none) := by
  rcases Nat.eq_zero_or_pos r.marked with h0 | hpos
  · have hled : (c.event.isJoin && c.participant.isMarked && r.marked == 1) = false := by simp [h0]
    rw [entryWork_of_zero h0, hled, if_neg Bool.false_ne_true, played_none]
    split <;> rfl
  · have released : spoken (if r.waiting.isEmpty then [] else [.releaseAll (r.waiting.map (·.participant))]) = [] := by
      split <;> rfl
    rw [entryWork_of_pos hpos, spoken_append, released, spoken_ite_promptTo]
    rfl

/-- A change of state greets a leader that is the first. -/
theorem spoken_changeWork (c : Context) (r : Roster) : spoken (changeWork c r) = played c.participant
    (if r.target ≠ c.state ∧ c.event.isJoin = true ∧ c.participant.isMarked = true ∧ r.marked = 1 then
      some .placedIntoConference
    else none) := by
  unfold changeWork
  by_cases ht : r.target = c.state
  · rw [if_pos ht, if_neg fun h => h.1 ht]
    exact (played_none _).symm
  · have told : spoken [.publish (.stateChanged c.conference c.state r.target)] = [] := rfl
    rw [if_neg ht, spoken_append, spoken_append, spoken_exitWork, told, spoken_entryWork]
    simp [ht, and_assoc]

/-- A join plays the greeting and nothing else. -/
theorem spoken_join (hstate : c.state = c.roster.target) (hjoin : c.event.isJoin = true) :
    spoken (joinWork c ++ changeWork c (c.roster.place c.participant)) =
      played c.participant (c.roster.greeting c.participant) := by
  rw [spoken_append, spoken_changeWork]
  rcases place_cases c.roster c.participant with ⟨hrole, -, hw, -⟩ | ⟨-, ha, he⟩
  · have hm : c.participant.isMarked = false := Participant.isMarked_of_role_eq_waitMarked hrole
    rw [spoken_joinWork_of_waiting hw, greeting_of_waiting hw]
    simp [hm, played_none]
  · rw [spoken_joinWork_of_active ha, greeting_of_active ha]
    cases hm : c.participant.isMarked with
    | false =>
      have hunled : (c.state == .empty || c.state == .inactive) = decide (c.roster.marked = 0 ∧ c.roster.active = []) := by
        rw [Bool.eq_iff_iff, decide_eq_true_iff, ← target_unled_iff, ← hstate]
        simp
      rw [hunled]
      simp [played_none, ite_and]
    | true =>
      have hmarked : (c.roster.place c.participant).marked = c.roster.marked + 1 := by rw [he, hm]; rfl
      -- The first leader changes the state, whatever it was.
      have hmoved : (c.roster.place c.participant).target ≠ c.state ∧ c.event.isJoin = true ∧ true = true ∧
          (c.roster.place c.participant).marked = 1 ↔ c.roster.marked = 0 := by
        rw [hmarked]
        refine ⟨fun h => by omega, fun h0 => ⟨fun heq => ?_, hjoin, rfl, by omega⟩⟩
        have hled : (c.roster.place c.participant).target.isMarked = true := isMarked_target.mpr (by omega)
        rw [heq, hstate, isMarked_target] at hled
        omega
      rw [if_congr hmoved rfl rfl]
      simp [played_none]

/-- A leave announces that the last leader is gone, and nothing else. -/
theorem spoken_leave {x : Record} (hs : c.roster.Settled) (hx : x ∈ c.roster.records) (hleave : c.event.isJoin = false) :
    spoken (leaveWork c (c.roster.partingOf x) ++ changeWork c (c.roster.departed x)) =
      if c.participant.profile.quiet = false ∧ c.roster.marked = 1 ∧ (c.roster.departed x).marked = 0 then
        [⟨none, .leaderHasLeft⟩]
      else [] := by
  have hlast : (c.roster.partingOf x).lastMarkedLeft = decide (c.roster.LosesLast x) := by
    unfold partingOf
    split <;> simp [*]
  rw [spoken_append, spoken_leaveWork, spoken_changeWork, hleave, hlast]
  simp [played_none, hs.toSound.losesLast_iff hx, and_comm]

end Table

/-! ### Runs -/

namespace Session
open Roster Table
variable {σ : Type} {s : Session σ} {host : Host σ} {r : Raise} {settings : ConferenceSettings} {outcome : Outcome}

/-- What an accepted event plays, told from the room before it. -/
theorem Settled.spoken_cases (h : s.Settled settings) (hok : (s.apply host r).result = .ok outcome) :
    let p := (s.callers r.caller).participant
    let before := s.conference.room.roster
    let after := (s.step host r).conference.room.roster
    (r.event.isJoin = true ∧ p.id ∉ before.ids ∧ after = (before.place p).settle ∧
      spoken (s.drained r) = played p (before.greeting p)) ∨
    (r.event.isJoin = false ∧ spoken (s.drained r) =
      if p.profile.quiet = false ∧ before.marked = 1 ∧ after.marked = 0 then [⟨none, .leaderHasLeft⟩] else []) := by
  intro p before after
  obtain ⟨work, next, move, hdrained, hconf⟩ := h.move_of_ok hok
  have hafter : after = next.settle := congrArg (·.room.roster) hconf
  rw [hdrained, hafter]
  cases move with
  | join event new fits =>
    have hevent : r.event = .join p.role := event
    have hjoin : r.event.isJoin = true := by rw [hevent]; rfl
    exact Or.inl ⟨hjoin, new, rfl, spoken_join (c := s.context r) h.room.state hjoin⟩
  | leave x attached own event handled =>
    have hevent : r.event = .leave p.role := event
    have hleave : r.event.isJoin = false := by rw [hevent]; rfl
    rw [marked_settle]
    exact Or.inr ⟨hleave, spoken_leave (c := s.context r) h.room.roster attached hleave⟩

/-- After any events, whatever the policy, an accepted event plays what is true of the room it leaves. Whoever asked
    for quiet is greeted with nothing and leaves without an announcement. Anybody else who joins hears one prompt if
    it waits, if it is no leader and nobody else is live, or if it is the only leader, and then that prompt;
    nobody hears anything otherwise. A leave is announced if it takes away the last leader, and plays nothing else. -/
theorem prompts_tell_truth {σ : Type} (host : Host σ) (name : String) (settings : ConferenceSettings)
    (people : Nat → Participant) (w : σ) (raises : List Raise) (next : Raise) (outcome : Outcome) :
    let s := (start name settings .standard people w).run host raises
    let p := (s.callers next.caller).participant
    let before := s.conference.room.roster
    let after := (s.step host next).conference.room.roster
    let heard := spoken (s.drained next)
    (s.apply host next).result = .ok outcome →
      (p.profile.quiet = true → heard = []) ∧
      (p.profile.quiet = false → next.event.isJoin = true →
        (∀ prompt, after.Warrants p prompt → heard = [⟨some p.id, prompt⟩]) ∧
        ((∀ prompt, ¬after.Warrants p prompt) → heard = [])) ∧
      (p.profile.quiet = false → next.event.isLeave = true →
        heard = if before.marked = 1 ∧ after.marked = 0 then [⟨none, .leaderHasLeft⟩] else []) := by
  intro s p before after heard hok
  have hs : s.Settled settings := settled_run host name settings people w raises
  rcases hs.spoken_cases hok with ⟨hjoin, new, hafter, hheard⟩ | ⟨hleave, hheard⟩
  · have warrants : ∀ prompt, after.Warrants p prompt ↔ before.greeting p = some prompt := by
      intro prompt
      rw [show after = (before.place p).settle from hafter]
      exact hs.room.roster.warrants_place new
    refine ⟨fun hq => hheard.trans (if_pos hq), fun hq _ => ⟨fun prompt hw => ?_, fun hnone => ?_⟩, fun _ hleave => ?_⟩
    · rw [(warrants prompt).mp hw] at hheard
      exact hheard.trans (played_some hq prompt)
    · have hgreeting : before.greeting p = none :=
        Option.eq_none_iff_forall_ne_some.mpr fun prompt hg => hnone prompt ((warrants prompt).mpr hg)
      rw [hgreeting] at hheard
      exact hheard.trans (played_none p)
    · rw [Event.isLeave, hjoin] at hleave
      cases hleave
  · refine ⟨fun hq => ?_, fun _ hjoin => ?_, fun hq _ => ?_⟩
    · exact hheard.trans (if_neg fun h => by simp [p, hq] at h)
    · rw [hleave] at hjoin
      cases hjoin
    · exact hheard.trans (if_congr (and_iff_right hq) rfl rfl)

/-- A guest waits, and the leader who comes is told that it is placed into the conference. -/
theorem first_leader_greeted :
    let people : Nat → Participant := fun i => if i = 0 then ⟨"guest", .guest⟩ else ⟨"leader", .leader⟩
    let host : Host Unit := .logging fun _ => id
    let s := (start "room" {} .standard people ()).run host [⟨0, .join .waitMarked⟩]
    (∃ outcome, (s.apply host ⟨1, .join .marked⟩).result = .ok outcome) ∧
      spoken (s.drained ⟨1, .join .marked⟩) = [⟨some "leader", .placedIntoConference⟩] := by
  intro people host s
  have accepted : (s.apply host ⟨1, .join .marked⟩).result = .ok
      { sequence := 2, event := .join .marked, previous := .inactive, state := .multiMarked, membership := .active
        work := ⟨5, 0⟩ } := by decide +kernel
  obtain ⟨-, joins, -⟩ :=
    prompts_tell_truth host "room" {} people () [⟨0, .join .waitMarked⟩] ⟨1, .join .marked⟩ _ accepted
  exact ⟨⟨_, accepted⟩, (joins (by decide +kernel) rfl).1 .placedIntoConference (by decide +kernel)⟩

end Session
end ConferenceBridge
