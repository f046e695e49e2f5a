import ConferenceBridge.Proofs.Attachment
import ConferenceBridge.Proofs.Refusal
import ConferenceBridge.Proofs.Roster.Several
import ConferenceBridge.Proofs.Work

/-! Waiting treatment. It is asked for once for every wait, by the event that makes a participant wait: by its own
    join, or by the leave of the last marked participant if that demotes it. So nothing is left to ask for when
    the conference falls inactive, although the hook for that state would. -/

namespace ConferenceBridge
open Roster Table

/-- The action starts waiting treatment under this identifier. -/
def Action.isWaitOf (id : String) : Action → Bool
  | .wait p => p.id == id
  | _ => false

/-! ### Rosters -/

namespace Roster
variable {r : Roster} {x z : Record} {p : Participant} {id : String}

/-- From one roster to the next the participant comes to wait, and it is not to go. -/
def ComesToWait (before after : Roster) (id : String) : Prop :=
  id ∉ before.waitingIds ∧ ∃ x ∈ after.waiting, x.id = id ∧ x.kicked = false

instance (before after : Roster) (id : String) : Decidable (before.ComesToWait after id) :=
  inferInstanceAs (Decidable (_ ∧ _))

theorem mem_waitingIds : id ∈ r.waitingIds ↔ ∃ x ∈ r.waiting, x.id = id := List.mem_map

theorem not_comesToWait_of_subset {t : Roster} (h : ∀ x ∈ t.waiting, x ∈ r.waiting) : ¬r.ComesToWait t id := by
  rintro ⟨hnew, x, hx, hid, -⟩
  exact hnew (mem_waitingIds.mpr ⟨x, h x hx, hid⟩)

/-- An arrival makes nobody wait but itself. -/
theorem Settled.comesToWait_place (h : r.Settled) (new : p.id ∉ r.ids) :
    r.ComesToWait (r.place p).settle id ↔ r.placement p = .waiting ∧ p.id = id := by
  rcases place_cases r p with ⟨-, -, hw, -⟩ | ⟨-, ha, he⟩
  · have hnew : p.id ∉ r.waitingIds := by
      intro hm
      obtain ⟨x, hx, hid⟩ := mem_waitingIds.mp hm
      exact new (mem_ids.mpr ⟨x, mem_records.mpr (Or.inr hx), hid⟩)
    rw [h.settle_place_of_waiting hw]
    constructor
    · rintro ⟨hfirst, x, hx, rfl, -⟩
      rcases List.mem_append.mp hx with hx | hx
      · exact absurd (mem_waitingIds.mpr ⟨x, hx, rfl⟩) hfirst
      · obtain rfl := List.mem_singleton.mp hx
        exact ⟨hw, rfl⟩
    · rintro ⟨-, rfl⟩
      exact ⟨hnew, .awaiting p, List.mem_append_right _ (List.mem_singleton_self _), rfl, rfl⟩
  · have hnone : ¬r.ComesToWait (r.place p).settle id := by
      refine not_comesToWait_of_subset fun x hx => ?_
      rcases Nat.eq_zero_or_pos (r.place p).marked with h0 | hpos
      · rw [h.settle_place_of_zero ha h0, he] at hx
        exact hx
      · rw [settle_of_pos hpos] at hx
        cases hx
    simp [hnone, ha]

/-- Those to be treated after a departure are those that it makes wait. -/
theorem Settled.needsHold_departed (h : r.Settled) (hx : x ∈ r.records) (hz : z ∈ (r.departed x).waiting) :
    z.needsHold = true ↔ z.id ∉ r.waitingIds ∧ z.kicked = false := by
  unfold departed at hz
  split at hz
  · rename_i hl
    have hnone : r.waiting = [] := h.led (h.marked_pos hx hl.1)
    have hfirst : z.id ∉ r.waitingIds := by simp [waitingIds, hnone]
    have hfree : z.onHold = false := by
      cases hp : r.policy with
      | keepActive =>
        rw [loseLastMarked_of_keepActive (r := r.rest x) hp] at hz
        simp [Roster.rest, without, hnone] at hz
      | demoteWaitMarked =>
        rw [loseLastMarked_of_demote (r := r.rest x) hp (nodup_active (h.rest hx).distinct)] at hz
        simp only [h.waiting_rest (h.marked_pos hx hl.1) x, List.nil_append] at hz
        obtain ⟨y, -, rfl⟩ := List.mem_map.mp hz
        rfl
    simp [Record.needsHold, hfirst, hfree]
  · have hz := List.mem_of_mem_filter hz
    have hold : z.id ∈ r.waitingIds := mem_waitingIds.mpr ⟨z, hz, rfl⟩
    simp [h.needsHold_eq_false z hz, hold]

/-- Those whom a departure makes wait are the ones that it lists as demoted. -/
theorem Settled.comesToWait_departed (h : r.Settled) (hx : x ∈ r.records) :
    r.ComesToWait (r.departed x).settle id ↔ id ∈ (r.partingOf x).demoted.map (·.id) := by
  rw [h.settle_departed_eq hx, h.demoted_eq hx, holdWaiting_eq]
  constructor
  · rintro ⟨hfirst, y, hy, rfl, hk⟩
    obtain ⟨z, hz, rfl⟩ := List.mem_map.mp hy
    rw [Record.id_treated] at hfirst ⊢
    rw [Record.kicked_treated] at hk
    have hneeds := (h.needsHold_departed hx hz).mpr ⟨hfirst, hk⟩
    exact List.mem_map.mpr ⟨z.participant, List.mem_map_of_mem (List.mem_filter.mpr ⟨hz, hneeds⟩), rfl⟩
  · intro hm
    obtain ⟨q, hq, rfl⟩ := List.mem_map.mp hm
    obtain ⟨z, hz, rfl⟩ := List.mem_map.mp hq
    obtain ⟨hz, hneeds⟩ := List.mem_filter.mp hz
    obtain ⟨hfirst, hk⟩ := (h.needsHold_departed hx hz).mp hneeds
    exact ⟨hfirst, z.held, List.mem_map.mpr ⟨z, hz, if_pos hneeds⟩, rfl, hk⟩

theorem Settled.nodup_demoted (h : r.Settled) (hx : x ∈ r.records) : ((r.partingOf x).demoted.map (·.id)).Nodup := by
  rw [h.demoted_eq hx]
  have hids : (r.departed x).holdWaiting.1.map (·.id) =
      ((r.departed x).waiting.filter (·.needsHold)).map (·.id) := List.map_map
  rw [hids]
  exact (nodup_waiting (h.departed hx).distinct).sublist (List.filter_sublist.map _)

end Roster

/-! ### One event -/

namespace Table
variable {c : Context} {work : List Action} {r after : Roster} {id : String}

theorem count_wait_changeWork : (changeWork c r).countP (Action.isWaitOf id) = 0 := by
  rw [List.countP_eq_zero]
  intro a ha
  rcases changeWork_cases ha with ⟨-, rfl⟩ | ⟨_, rfl⟩ | ⟨_, rfl⟩ <;> simp [Action.isWaitOf]

theorem count_wait_promptTo {p : Participant} {prompt : Prompt} :
    (promptTo p prompt).countP (Action.isWaitOf id) = 0 := by
  unfold promptTo
  split <;> rfl

theorem count_wait_admissionActions : (admissionActions c r).countP (Action.isWaitOf id) = 0 := by
  rw [List.countP_eq_zero]
  intro a ha
  rcases admissionActions_cases ha with rfl | ⟨_, rfl⟩ | ⟨_, rfl⟩ <;> simp [Action.isWaitOf]

theorem count_wait_joinWork : (joinWork c).countP (Action.isWaitOf id) =
    if c.roster.placement c.participant = .waiting ∧ c.participant.id = id then 1 else 0 := by
  unfold joinWork
  rw [List.countP_append]
  cases hp : c.roster.placement c.participant with
  | waiting => simp [parkingActions, count_wait_promptTo, List.countP_cons, Action.isWaitOf]
  | attaching => simp [count_wait_admissionActions, Action.isWaitOf]
  | active => simp [count_wait_admissionActions, Action.isWaitOf]
  | detaching => simp [count_wait_admissionActions, Action.isWaitOf]

theorem count_wait_leaveWork {parting : Parting} (h : (parting.demoted.map (·.id)).Nodup) :
    (leaveWork c parting).countP (Action.isWaitOf id) = if id ∈ parting.demoted.map (·.id) then 1 else 0 := by
  rw [countP_leaveWork rfl fun _ => rfl, ← h.count, List.count, List.countP_map]
  simp [Action.isWaitOf, Function.comp_def]

/-- An event asks for waiting treatment once for everybody that it makes wait, and for nobody else. -/
theorem Move.count_wait (h : c.roster.Settled) (move : Move c work after) :
    (work ++ changeWork c after).countP (Action.isWaitOf id) =
      if c.roster.ComesToWait after.settle id then 1 else 0 := by
  rw [List.countP_append, count_wait_changeWork, Nat.add_zero]
  cases move with
  | join _ new => simp only [count_wait_joinWork, h.comesToWait_place new]
  | leave x attached => simp only [count_wait_leaveWork (h.nodup_demoted attached), h.comesToWait_departed attached]

/-! ### Falling inactive -/

/-- What has been done by the time the entry hook of a state runs: a handler's reaction, the hook of the state that
    is left, and the change is told. -/
def told (t : Table) (c : Context) (x : Reaction) (target : State) : Reaction :=
  let left := runHook c x (t.descriptor c.state).exit
  { left with deferred := left.deferred ++ [.publish (.stateChanged c.conference c.state target)] }

/-- What the entry hook sees then. -/
def entering (t : Table) (c : Context) (x : Reaction) (target : State) : Context :=
  Context.after { c with state := target } (t.told c x target)

/-- A change of state is over once it is told, if the entry hook has nothing to do. -/
theorem change_of_idle {t : Table} {x : Reaction} {target : State} {hook : Hook}
    (h : (t.descriptor target).entry = some hook)
    (hidle : hook (t.entering c x target) = (t.entering c x target).idle) :
    t.change c x target = t.told c x target := by
  have hchange : t.change c x target = Context.followUp { c with state := target } (t.told c x target) hook := by
    unfold change
    rw [h]
    rfl
  have hidle : hook (Context.after { c with state := target } (t.told c x target)) =
      { roster := (t.told c x target).roster } := hidle
  rw [hchange, Context.followUp, hidle]
  simp

theorem roster_entering_standard (x : Reaction) (target : State) :
    (standard.entering c x target).roster = x.roster := by
  show (runHook c x (standard.descriptor c.state).exit).roster = x.roster
  cases c.state <;> rfl

/-- A handler that has the conference fall inactive has had everybody treated who waits. -/
theorem treated_of_inactive {room : Room} {name : String} {p : Participant} {pending : List Action} {e : Event}
    {handler : Handler} {x : Reaction} (hroom : room.Settled)
    (hh : standard.handlerFor? room.state p e = some handler)
    (hx : handler (room.context name p pending e) = ⟨.ok (some .inactive), x⟩) :
    ∀ y ∈ x.roster.waiting, y.needsHold = false := by
  rcases handlerFor?_standard hh with rfl | rfl
  · by_cases hid : p.id ∈ room.roster.ids
    · rw [onJoin_of_mem (c := room.context name p pending e) hid] at hx
      cases hx
    · cases hfull : room.roster.isFull with
      | true =>
        rw [onJoin_of_full (c := room.context name p pending e) hid hfull] at hx
        cases hx
      | false =>
        have hsettled := hroom.roster.settle_place hid hfull
        rcases place_cases room.roster p with ⟨-, -, hw, -⟩ | ⟨-, ha, -⟩
        · rw [onJoin_of_waiting (c := room.context name p pending e) hroom.roster hid hfull hw] at hx
          obtain ⟨-, rfl⟩ := Answer.mk.inj hx
          exact hsettled.needsHold_eq_false
        · rw [onJoin_of_active (c := room.context name p pending e) hid hfull ha] at hx
          obtain ⟨htarget, rfl⟩ := Answer.mk.inj hx
          -- Nobody is marked in an inactive conference, so the others are as they were.
          have h0 : (room.roster.place p).marked = 0 := by
            by_contra hne
            exact target_ne_inactive_of_pos (Nat.pos_of_ne_zero hne) (Option.some.inj (Except.ok.inj htarget))
          rw [hroom.roster.settle_place_of_zero ha h0] at hsettled
          exact hsettled.needsHold_eq_false
  · by_cases hid : p.id ∈ room.roster.ids
    · obtain ⟨z, hz, hzid⟩ := mem_ids.mp hid
      rw [onLeave_of_mem (c := room.context name p pending e) hroom.roster hz hzid] at hx
      obtain ⟨-, rfl⟩ := Answer.mk.inj hx
      exact (hroom.roster.settle_departed hz).needsHold_eq_false
    · rw [onLeave_of_notMem (c := room.context name p pending e) hid] at hx
      cases hx

end Table

/-! ### Runs -/

namespace Session
variable {σ : Type} {host : Host σ} {s : Session σ} {settings : ConferenceSettings} {id : String} {r : Raise}

/-- With this event the participant comes to wait, and it is not to go. -/
abbrev BeginsWait (host : Host σ) (s : Session σ) (id : String) (r : Raise) : Prop :=
  s.conference.room.roster.ComesToWait (s.step host r).conference.room.roster id

/-- How often the participant comes to wait over some events. -/
def waitsBegun (host : Host σ) (s : Session σ) (id : String) : List Raise → Nat
  | [] => 0
  | r :: raises => (if s.BeginsWait host id r then 1 else 0) + (s.step host r).waitsBegun host id raises

theorem Settled.count_wait_drained (h : s.Settled settings) (host : Host σ) (id : String) (r : Raise) :
    (s.drained r).countP (Action.isWaitOf id) = if s.BeginsWait host id r then 1 else 0 := by
  rcases h.step_cases host r with ⟨-, hd, hc, -⟩ | ⟨work, after, move, -, hd, hc, -⟩
  · have hnone : ¬s.BeginsWait host id r := not_comesToWait_of_subset fun x hx => by rwa [hc] at hx
    rw [hd, if_neg hnone]
    rfl
  · simp only [BeginsWait, hd, hc]
    exact move.count_wait h.room.roster

theorem Settled.count_wait_history (host : Host σ) (id : String) : ∀ (raises : List Raise) {s : Session σ},
    s.Settled settings → (s.history host raises).countP (Action.isWaitOf id) = s.waitsBegun host id raises
  | [], _, _ => rfl
  | r :: raises, s, h => by
    rw [history, waitsBegun, List.countP_append, h.count_wait_drained host,
      Settled.count_wait_history host id raises (h.step host r)]

/-- Whoever comes to wait has come with the event, or was live before it. -/
theorem Settled.joins_or_live_of_beginsWait (h : s.Settled settings) (hw : s.BeginsWait host id r) :
    s.Joins host id r ∨ id ∈ s.conference.room.roster.activeIds := by
  obtain ⟨hfirst, x, hx, rfl, -⟩ := hw
  have hp : x.participant ∈ (s.step host r).conference.room.roster.people :=
    List.mem_map_of_mem (mem_records.mpr (Or.inr hx))
  rcases (h.mem_people_step host r x.participant).mp hp with ⟨hj, -⟩ | ⟨hbefore, -⟩
  · exact Or.inl hj
  · obtain ⟨y, hy, hyx⟩ := List.mem_map.mp hbefore
    have hid : y.id = x.id := congrArg Participant.id hyx
    rcases mem_records.mp hy with hy | hy
    · exact Or.inr (List.mem_map.mpr ⟨y, hy, hid⟩)
    · exact absurd (mem_waitingIds.mpr ⟨y, hy, hid⟩) hfirst

/-- After any events those are treated who wait and are not to go, and treatment has been asked for under every
    identifier as often as it has come to wait, by joining or out of the live list. The next event asks for it once
    for everybody that it makes wait; and if it has the conference fall inactive, the hook for that state finds
    nothing to do. -/
theorem treated_once_per_wait {σ : Type} (host : Host σ) (name : String) (settings : ConferenceSettings)
    (people : Nat → Participant) (w : σ) (raises : List Raise) :
    let s := start name settings .standard people w
    let now := s.run host raises
    let room := now.conference.room
    (∀ x ∈ room.roster.waiting, x.onHold = true ↔ x.kicked = false) ∧
    (∀ x ∈ room.roster.active, x.onHold = false) ∧
    (∀ id, (s.history host raises).countP (Action.isWaitOf id) = s.waitsBegun host id raises) ∧
    (∀ r id, (now.drained r).countP (Action.isWaitOf id) = (if now.BeginsWait host id r then 1 else 0) ∧
      (now.BeginsWait host id r → now.Joins host id r ∨ id ∈ room.roster.activeIds)) ∧
    ∀ r handler x, now.conference.table.handlerFor? room.state (now.context r).participant r.event = some handler →
      handler (now.context r) = ⟨.ok (some .inactive), x⟩ →
        let seen := now.conference.table.entering (now.context r) x .inactive
        ∃ hook, (now.conference.table.descriptor .inactive).entry = some hook ∧ hook seen = seen.idle ∧
          now.conference.table.change (now.context r) x .inactive =
            now.conference.table.told (now.context r) x .inactive := by
  intro s now room
  have h : s.Settled settings := settled_start name settings people w
  have hnow : now.Settled settings := h.run host raises
  refine ⟨fun x hx => ?_, fun x hx => (hnow.room.roster.live x hx).free, fun id => ?_, fun r id => ?_,
    fun r handler x hh hx => ?_⟩
  · rw [hnow.room.roster.treated x hx]
    cases x.kicked <;> simp
  · exact Settled.count_wait_history host id raises h
  · exact ⟨hnow.count_wait_drained host id r, hnow.joins_or_live_of_beginsWait⟩
  · rw [hnow.table] at hh ⊢
    have htreated := treated_of_inactive hnow.room hh hx
    have hidle : startWaits (standard.entering (now.context r) x .inactive) =
        (standard.entering (now.context r) x .inactive).idle := by
      simp only [startWaits, Context.idle, roster_entering_standard, holdWaiting_eq_self htreated, List.map_nil]
    exact ⟨startWaits, rfl, hidle, change_of_idle rfl hidle⟩

end Session
end ConferenceBridge
