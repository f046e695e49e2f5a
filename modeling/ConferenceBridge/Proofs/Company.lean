import ConferenceBridge.Proofs.Attachment
import ConferenceBridge.Proofs.Dismissal
import ConferenceBridge.Proofs.ListenerView
import ConferenceBridge.Proofs.Prompts

/-! Being alone in the live mix and getting company. Who comes to the live mix as the second is the company of the
    first, and the first is told of it by the same event. So whoever has been told that it is alone, and of no
    company since, is still the only one who is live. -/

namespace ConferenceBridge
open Roster Table

/-- Who is told by an action that it has company. -/
def Action.accompanied? : Action → Option Participant
  | .endSolo p => some p
  | _ => none

/-- Those who are told by some work that they have company, in order. -/
def accompanied (work : List Action) : List Participant := work.filterMap Action.accompanied?

@[simp] theorem accompanied_append (work more : List Action) :
    accompanied (work ++ more) = accompanied work ++ accompanied more :=
  List.filterMap_append

theorem mem_accompanied {work : List Action} {p : Participant} : p ∈ accompanied work ↔ .endSolo p ∈ work := by
  rw [accompanied, List.mem_filterMap]
  constructor
  · rintro ⟨a, ha, hp⟩
    cases a <;> cases hp
    exact ha
  · exact fun h => ⟨_, h, rfl⟩

/-- After this work the participant has been told that it is alone, and of no company since. -/
def ToldAlone (work : List Action) (p : Participant) : Prop :=
  ∃ before since, work = before ++ .playPrompt p.id .onlyPerson :: since ∧ .endSolo p ∉ since

theorem ToldAlone.mem {work : List Action} {p : Participant} (h : ToldAlone work p) :
    .playPrompt p.id .onlyPerson ∈ work := by
  obtain ⟨before, since, rfl, -⟩ := h
  exact List.mem_append_right _ List.mem_cons_self

theorem ToldAlone.of_append {work more : List Action} {p : Participant} (h : ToldAlone (work ++ more) p) :
    (ToldAlone work p ∧ .endSolo p ∉ more) ∨ .playPrompt p.id .onlyPerson ∈ more := by
  obtain ⟨before, since, he, untold⟩ := h
  rcases append_eq_append_cons he with ⟨ws, hwork, rfl⟩ | ⟨ws, -, hmore⟩
  · rw [List.mem_append, not_or] at untold
    exact Or.inl ⟨⟨before, ws, hwork, untold.1⟩, untold.2⟩
  · exact Or.inr (hmore ▸ List.mem_append_right _ List.mem_cons_self)

/-! ### Rosters -/

namespace Roster
variable {r : Roster} {p : Participant} {x : Record}

/-- The participant is the only one who is live. -/
def Alone (r : Roster) (p : Participant) : Prop := r.active.map (·.participant) = [p]

theorem Alone.active_eq (h : r.Alone p) : ∃ y, r.active = [y] ∧ y.participant = p := by
  obtain ⟨y, hy, hp⟩ := List.map_eq_singleton_iff.mp h
  exact ⟨y, hy, hp⟩

/-- An arrival among the live is the company of the one who was alone. -/
theorem companion?_place (new : p.id ∉ r.ids) (ha : r.placement p = .active) :
    ((r.place p).companion? p.id).toList = if r.active.length = 1 then r.active.map (·.participant) else [] := by
  rw [place_of_active ha]
  unfold companion?
  cases hactive : r.active with
  | nil => simp
  | cons x xs =>
    cases xs with
    | nil =>
      have hx : x ∈ r.records := mem_records.mpr (Or.inl (hactive ▸ List.mem_singleton_self x))
      have hid : x.participant.id ≠ p.id := fun he => new (he ▸ mem_ids_of_mem hx)
      simp [hid, Record.id]
    | cons y ys => simp

/-- Where nobody leads the live mix is settled. -/
theorem active_settle_of_zero (h0 : r.marked = 0) : r.settle.active = r.active := by
  rw [settle_of_zero h0]
  rfl

/-- An arrival is live after its join exactly if it is placed among the live. -/
theorem mem_activeIds_settle_place_iff (new : p.id ∉ r.ids) :
    p.id ∈ (r.place p).settle.activeIds ↔ r.placement p = .active := by
  rcases place_cases r p with ⟨-, h0, hw, he⟩ | ⟨-, ha, he⟩
  · refine iff_of_false (fun hmem => new ?_) (by rw [hw]; decide)
    rw [activeIds, active_settle_of_zero (he ▸ h0), he] at hmem
    exact ids_eq ▸ List.mem_append_left _ hmem
  · refine iff_of_true (List.mem_map.mpr ⟨.admitted p, mem_active_settle ?_, rfl⟩) ha
    rw [he]
    exact List.mem_append_right _ (List.mem_singleton_self _)

end Roster

/-! ### One event -/

namespace Table
variable {c : Context} {work : List Action} {after : Roster} {p : Participant}

theorem accompanied_eq_nil (h : ∀ q, .endSolo q ∉ work) : accompanied work = [] :=
  List.eq_nil_iff_forall_not_mem.mpr fun q hq => h q (mem_accompanied.mp hq)

theorem accompanied_promptTo (p : Participant) (prompt : Prompt) : accompanied (promptTo p prompt) = [] :=
  accompanied_eq_nil fun q hq => by cases eq_of_mem_promptTo hq

theorem accompanied_changeWork (c : Context) (r : Roster) : accompanied (changeWork c r) = [] :=
  accompanied_eq_nil fun q hq => by
    rcases changeWork_cases hq with ⟨-, he⟩ | ⟨prompt, he⟩ | ⟨n, he⟩ <;> cases he

theorem accompanied_leaveWork (c : Context) (parting : Parting) : accompanied (leaveWork c parting) = [] :=
  accompanied_eq_nil fun q hq => by
    rcases leaveWork_cases hq with ⟨x, -, he⟩ | ⟨x, -, he⟩ | he | he <;> cases he

/-- A join tells whoever was alone of its company if it goes live, and tells nobody else. -/
theorem accompanied_joinWork (new : c.participant.id ∉ c.roster.ids) : accompanied (joinWork c) =
    if c.roster.placement c.participant = .active ∧ c.roster.active.length = 1 then
      c.roster.active.map (·.participant)
    else [] := by
  have told : ∀ n, accompanied [.publish n] = [] := fun _ => rfl
  rcases place_cases c.roster c.participant with ⟨-, -, hw, -⟩ | ⟨-, ha, -⟩
  · have parked : accompanied (parkingActions c.participant (some c.participant)) = [] := by
      rw [parkingActions, accompanied_append, accompanied_promptTo]
      rfl
    simp [joinWork, hw, parked, told]
  · have solo : ∀ q : Option Participant, accompanied (q.map Action.endSolo).toList = q.toList :=
      fun q => by cases q <;> rfl
    have greeted : ∀ b : Bool, accompanied (if b then promptTo c.participant .onlyPerson else []) = [] := by
      intro b
      cases b
      · rfl
      · exact accompanied_promptTo ..
    have admitted : ∀ work : List Action, accompanied (.mix c.participant :: work) = accompanied work := fun _ => rfl
    simp only [joinWork, ha, admissionActions, accompanied_append, admitted, solo, greeted, told, List.append_nil,
      companion?_place new ha, true_and]

namespace Move

/-- Whoever is alone and is told of no company is alone after the event, if it stays. -/
theorem alone (h : c.roster.Settled) (move : Move c work after) (only : c.roster.Alone p)
    (untold : .endSolo p ∉ work ++ changeWork c after) (stays : p ∈ after.people) : after.settle.Alone p := by
  obtain ⟨y, hactive, hy⟩ := only.active_eq
  cases move with
  | join event new fits =>
    rcases place_cases c.roster c.participant with ⟨-, h0, -, he⟩ | ⟨-, ha, -⟩
    · rw [Alone, active_settle_of_zero (he ▸ h0), he]
      exact only
    · -- Company is told of.
      refine absurd (List.mem_append_left _ (mem_accompanied.mp ?_)) untold
      rw [accompanied_joinWork new, if_pos ⟨ha, by rw [hactive]; rfl⟩, hactive]
      exact List.mem_singleton.mpr hy.symm
  | leave x attached own =>
    have hne : p.id ≠ x.id := ((mem_people_departed h.distinct).mp stays).2
    have hxy : x ≠ y := by
      rintro rfl
      exact hne (congrArg Participant.id hy.symm)
    -- So the one who leaves is waiting, and its departure leaves the others as they are.
    have hwaits : x ∈ c.roster.waiting := by
      rcases mem_records.mp attached with ha | hw
      · rw [hactive] at ha
        exact absurd (List.mem_singleton.mp ha) hxy
      · exact hw
    have hm : x.isMarked = false := (h.waiting x hwaits).not_isMarked
    have hid : y.id ≠ x.id := fun he => hne ((congrArg Participant.id hy).symm.trans he)
    rw [h.settle_departed_of_unmarked attached hm, Alone, without, hactive,
      List.filter_cons_of_pos (by simpa using hid), List.filter_nil]
    exact List.map_eq_singleton_iff.mpr ⟨y, rfl, hy⟩

end Move
end Table

/-! ### Runs -/

namespace Session
variable {σ : Type} {host : Host σ} {s : Session σ} {p : Participant} {r : Raise} {settings : ConferenceSettings}
  {raises past : List Raise}

/-- Whoever is told that it is alone has just joined and is alone. -/
theorem Settled.alone_of_prompt (h : s.Settled settings) {id : String}
    (hp : .playPrompt id .onlyPerson ∈ s.drained r) : s.Joins host id r ∧
      (s.step host r).conference.room.roster.Alone (s.callers r.caller).participant := by
  have hspoken : ⟨some id, .onlyPerson⟩ ∈ spoken (s.drained r) := List.mem_filterMap.mpr ⟨_, hp, rfl⟩
  have accepted : ∃ outcome, (s.apply host r).result = .ok outcome := by
    rcases h.step_cases host r with ⟨-, hd, -⟩ | ⟨-, -, -, hok, -⟩
    · rw [hd] at hp
      cases hp
    · exact hok
  obtain ⟨outcome, hok⟩ := accepted
  rcases h.spoken_cases hok with ⟨hjoin, new, hafter, hheard⟩ | ⟨-, hheard⟩
  · rw [hheard] at hspoken
    unfold played at hspoken
    split at hspoken
    · cases hspoken
    · obtain ⟨prompt, hgreeting, he⟩ := List.mem_map.mp hspoken
      obtain ⟨hid, rfl⟩ := Spoken.mk.inj he
      refine ⟨⟨hjoin, Option.some.inj hid, outcome, hok⟩, ?_⟩
      rw [hafter]
      exact ((h.room.roster.warrants_place new).mpr (Option.mem_toList.mp hgreeting)).2
  · rw [hheard] at hspoken
    split at hspoken
    · cases List.mem_singleton.mp hspoken
    · cases hspoken

theorem Settled.alone_step (h : s.Settled settings) (only : s.conference.room.roster.Alone p)
    (untold : .endSolo p ∉ s.drained r) (stays : p ∈ (s.step host r).conference.room.roster.people) :
    (s.step host r).conference.room.roster.Alone p := by
  rcases h.step_cases host r with ⟨-, -, hc, -⟩ | ⟨work, after, move, -, hd, hc, -⟩
  · rw [hc]
    exact only
  · rw [hc] at stays ⊢
    exact move.alone h.room.roster only (hd ▸ untold) (people_settle ▸ stays)

/-- An accepted event tells of company exactly whoever was alone and is joined in the live mix. -/
theorem Settled.accompanied_cases (h : s.Settled settings) {outcome : Outcome}
    (hok : (s.apply host r).result = .ok outcome) :
    let p := (s.callers r.caller).participant
    let before := s.conference.room.roster
    (r.event.isJoin = true ∧ accompanied (s.drained r) =
      if p.id ∈ (s.step host r).conference.room.roster.activeIds ∧ before.active.length = 1 then
        before.active.map (·.participant)
      else []) ∨
    (r.event.isJoin = false ∧ accompanied (s.drained r) = []) := by
  intro p before
  obtain ⟨work, after, move, hd, hc⟩ := h.move_of_ok hok
  rw [hd, accompanied_append, accompanied_changeWork, List.append_nil, hc]
  cases move with
  | join event new =>
    have hevent : r.event = .join p.role := event
    refine Or.inl ⟨by rw [hevent]; rfl, ?_⟩
    have hlive : p.id ∈ (before.place p).settle.activeIds ↔ before.placement p = .active :=
      mem_activeIds_settle_place_iff new
    rw [accompanied_joinWork new]
    exact if_congr (and_congr_left' hlive.symm) rfl rfl
  | leave x attached own event =>
    have hevent : r.event = .leave p.role := event
    exact Or.inr ⟨by rw [hevent]; rfl, accompanied_leaveWork ..⟩

/-- At every moment of its attachment a participant that has been told that it is alone, and of no company since,
    is alone. -/
theorem Attachment.alone (a : Attachment host s raises p) (h : s.Settled settings) (hpast : past <+: a.since)
    (told : ToldAlone ((s.run host a.earlier).history host (a.join :: past)) p) :
    (a.moment past).conference.room.roster.Alone p := by
  induction past using List.reverseRecOn with
  | nil =>
    have hs := h.run host a.earlier
    have attached : p ∈ (a.moment []).conference.room.roster.people := a.stayed [] List.nil_prefix
    have hprompt : .playPrompt p.id .onlyPerson ∈ (s.run host a.earlier).drained a.join := by
      simpa [history] using told.mem
    have halone : ((s.run host a.earlier).step host a.join).conference.room.roster.Alone _ :=
      (hs.alone_of_prompt hprompt).2
    rw [moment_nil] at attached ⊢
    rcases (hs.mem_people_step host a.join p).mp attached with ⟨-, hown⟩ | ⟨hbefore, -⟩
    · rwa [← hown] at halone
    · exact absurd hbefore (hs.new_of_joins a.joined)
  | append_singleton past r ih =>
    have hbefore : past <+: a.since := (List.prefix_append past [r]).trans hpast
    have attached : p ∈ (a.moment (past ++ [r])).conference.room.roster.people := a.stayed _ hpast
    have hmoment : (s.run host a.earlier).run host (a.join :: past) = a.moment past := (run_append _ _).symm
    rw [moment_concat] at attached ⊢
    rw [← List.cons_append, history_concat, hmoment] at told
    rcases told.of_append with ⟨told, untold⟩ | hprompt
    · exact (a.settled h past).alone_step (ih hbefore told) untold attached
    · -- Only a join tells anybody that it is alone, and the last one of this participant is past.
      exact absurd ((a.settled h past).alone_of_prompt hprompt).1 (a.latest past r hpast)

/-- After any events, whatever the policy, an accepted join tells of its company whoever was the only live
    participant, under the profile that one is attached with, if the one who joins goes live itself; it tells nobody
    otherwise, and a leave never does. So everybody attached who has been told since it joined that it is alone,
    and of no company after that, is the only live participant. -/
theorem alone_until_accompanied (host : Host σ) (name : String) (settings : ConferenceSettings)
    (people : Nat → Participant) (w : σ) (raises : List Raise) :
    let s := start name settings .standard people w
    let now := s.run host raises
    (∀ r outcome, (now.apply host r).result = .ok outcome →
      let before := now.conference.room.roster
      let after := (now.step host r).conference.room.roster
      (r.event.isJoin = true → accompanied (now.drained r) =
        if (now.callers r.caller).participant.id ∈ after.activeIds ∧ before.active.length = 1 then
          before.active.map (·.participant)
        else []) ∧
      (r.event.isLeave = true → accompanied (now.drained r) = [])) ∧
    (∀ p ∈ now.conference.room.roster.people, Nonempty (Attachment host s raises p)) ∧
    ∀ p (a : Attachment host s raises p),
      ToldAlone ((s.run host a.earlier).history host (a.join :: a.since)) p → now.conference.room.roster.Alone p := by
  intro s now
  have h : s.Settled settings := settled_start name settings people w
  refine ⟨fun r outcome hok => ?_, fun p hp => h.attachment rfl hp, fun p a told => ?_⟩
  · rcases (h.run host raises).accompanied_cases hok with ⟨hjoin, htold⟩ | ⟨hleave, htold⟩
    · exact ⟨fun _ => htold, fun hl => by rw [Event.isLeave, hjoin] at hl; cases hl⟩
    · exact ⟨fun hj => (by rw [hleave] at hj; cases hj), fun _ => htold⟩
  · have halone := a.alone h (List.prefix_refl _) told
    rwa [a.moment_since] at halone

end Session
end ConferenceBridge
