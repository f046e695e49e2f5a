import ConferenceBridge.Proofs.Session
import Mathlib.Data.Finset.Basic
import Mathlib.Data.Finset.Dedup

/-! What those who listen are left with. Somebody who hears the notifications of a conference and nothing
    else knows its state, who is attached and whether it has started. Each event publishes what it changes,
    in an order in which every notification fits what was known before, so that the copy stays right. -/

namespace ConferenceBridge

/-- What somebody knows of a conference who hears its notifications. -/
structure ListenerView where
  state : State := .empty
  attached : Finset String := ∅
  started : Bool := false
  deriving DecidableEq

namespace ListenerView

/-- What is known after one more notification. -/
def learn (v : ListenerView) : Notification → ListenerView
  | .stateChanged _ _ new => { v with state := new }
  | .conferenceStarted _ => { v with started := true }
  | .conferenceEnded _ => { v with started := false }
  | .participantJoined _ id _ => { v with attached := insert id v.attached }
  | .participantLeft _ id => { v with attached := v.attached.erase id }
  | .invalidEvent .. => v

/-- What is known after some more notifications, in order. -/
def learnAll (v : ListenerView) (heard : List Notification) : ListenerView := heard.foldl learn v

/-- The notification fits what is known. Refused events are told of apart from the work of the others. -/
def Expects (v : ListenerView) : Notification → Prop
  | .stateChanged _ old new => old = v.state ∧ old ≠ new
  | .conferenceStarted _ => v.started = false
  | .conferenceEnded _ => v.started = true
  | .participantJoined _ id _ => id ∉ v.attached
  | .participantLeft _ id => id ∈ v.attached
  | .invalidEvent .. => False

/-- Notifications that fit, one after the other, and what is known after them. -/
inductive Follows : ListenerView → List Notification → ListenerView → Prop
  | nil {v} : Follows v [] v
  | cons {v n heard u} (fits : v.Expects n) (rest : Follows (v.learn n) heard u) : Follows v (n :: heard) u

namespace Follows
variable {v u t : ListenerView} {n : Notification} {heard more : List Notification}

theorem one (h : v.Expects n) : Follows v [n] (v.learn n) := .cons h .nil

theorem append (h : Follows v heard u) (h' : Follows u more t) : Follows v (heard ++ more) t := by
  induction h with
  | nil => exact h'
  | cons fits _ ih => exact .cons fits (ih h')

theorem learnAll_eq (h : Follows v heard u) : v.learnAll heard = u := by
  induction h with
  | nil => rfl
  | cons _ _ ih => exact ih

theorem expects (h : Follows v heard u) {before rest : List Notification} (he : heard = before ++ n :: rest) :
    (v.learnAll before).Expects n := by
  induction h generalizing before with
  | nil => exact absurd he (by simp)
  | cons fits _ ih =>
    cases before with
    | nil =>
      obtain ⟨rfl, -⟩ := List.cons.inj he
      exact fits
    | cons m before =>
      obtain ⟨rfl, hrest⟩ := List.cons.inj (he.trans (List.cons_append ..))
      exact ih hrest

end Follows
end ListenerView

/-- What is to be known of a room. -/
def Room.view (room : Room) : ListenerView :=
  { state := room.state, attached := room.roster.ids.toFinset, started := !room.roster.isEmpty }

/-- The notification that a piece of work publishes. -/
def Action.notice? : Action → Option Notification
  | .publish n => some n
  | _ => none

/-- The notifications among some work, in order. -/
def notices (work : List Action) : List Notification := work.filterMap Action.notice?

@[simp] theorem notices_append (work more : List Action) : notices (work ++ more) = notices work ++ notices more :=
  List.filterMap_append

/-! ### Rosters -/

namespace Roster
variable {r : Roster} {p : Participant} {x : Record}

theorem isEmpty_iff : r.isEmpty = true ↔ r.active = [] ∧ r.waiting = [] := by simp [isEmpty]

/-- The state that the participants call for is the empty one exactly when there are none. -/
theorem Sound.target_eq_empty_iff (h : r.Sound) : r.target = .empty ↔ r.isEmpty = true := by
  rw [isEmpty_iff]
  unfold target State.ofCounts
  constructor
  · intro ht
    split at ht
    · split at ht <;> cases ht
    · cases ha : r.active with
      | nil =>
        cases hw : r.waiting with
        | nil => exact ⟨rfl, rfl⟩
        | cons y ys => simp [ha, hw] at ht
      | cons y ys =>
        simp only [ha, List.length_cons] at ht
        split at ht <;> simp_all
  · rintro ⟨ha, hw⟩
    have hm : r.marked = 0 := by rw [h.count, ha, List.countP_nil]
    simp [ha, hw, hm]

theorem ids_settle : r.settle.ids = r.ids := by rw [← map_id_people, people_settle, map_id_people]

theorem toFinset_ids_place : (r.place p).ids.toFinset = insert p.id r.ids.toFinset := by
  ext id
  simp [mem_ids_place]

theorem toFinset_ids_departed (h : r.ids.Nodup) : (r.departed x).ids.toFinset = r.ids.toFinset.erase x.id := by
  ext id
  simp [mem_ids_departed h, and_comm]

theorem mem_active_settle (hx : x ∈ r.active) : x ∈ r.settle.active := by
  unfold settle
  split
  · exact List.mem_append_left _ hx
  · exact hx

/-- The record of an arrival shows, once the others are settled, where it was placed. -/
theorem Settled.membership?_place (h : r.Settled) (new : p.id ∉ r.ids) (fits : r.isFull = false) :
    (r.place p).settle.membership? p.id = some (r.placement p) := by
  have hs := h.settle_place new fits
  obtain ⟨x, hx, hid, hm⟩ : ∃ x ∈ (r.place p).settle.records, x.id = p.id ∧ x.membership = r.placement p := by
    rcases place_cases r p with ⟨-, h0, hw, he⟩ | ⟨-, ha, he⟩
    · refine ⟨Record.held { participant := p, membership := .waiting }, ?_, rfl, hw.symm⟩
      have hz : (r.place p).marked = 0 := by rw [he]; exact h0
      rw [settle_of_zero hz, he]
      refine mem_records.mpr (Or.inr (List.mem_map.mpr ⟨{ participant := p, membership := .waiting }, ?_, rfl⟩))
      exact List.mem_append_right _ (List.mem_singleton_self _)
    · refine ⟨{ participant := p, membership := .active }, mem_records.mpr (Or.inl (mem_active_settle ?_)), rfl,
        ha.symm⟩
      rw [he]
      exact List.mem_append_right _ (List.mem_singleton_self _)
  rw [membership?, ← hid, get?_of_mem hs.distinct hx, Option.map_some, hm]

end Roster

/-! ### One event -/

namespace Table
open Roster
variable {c : Context} {r after : Roster} {work : List Action}

theorem notices_promptTo (p : Participant) (prompt : Prompt) : notices (promptTo p prompt) = [] := by
  unfold promptTo
  split <;> rfl

theorem notices_ite_promptTo (b : Bool) (p : Participant) (prompt : Prompt) :
    notices (if b then promptTo p prompt else []) = [] := by
  cases b
  · rfl
  · exact notices_promptTo p prompt

theorem notices_map {α : Type} {f : α → Action} (h : ∀ a, (f a).notice? = none) (l : List α) :
    notices (l.map f) = [] := filterMap_map_of_none h l

theorem notices_joinWork (c : Context) : notices (joinWork c) =
    [.participantJoined c.conference c.participant.id (c.roster.placement c.participant)] := by
  have solo : ∀ q : Option Participant, notices (q.map Action.endSolo).toList = [] := fun q => by cases q <;> rfl
  have admitted : notices (admissionActions c (c.roster.place c.participant)) = [] := by
    rw [admissionActions, notices_append, notices_ite_promptTo, List.append_nil]
    exact solo _
  have parked : notices (parkingActions c.participant (some c.participant)) = [] := by
    rw [parkingActions, notices_append, notices_promptTo]
    rfl
  rw [joinWork, notices_append]
  cases c.roster.placement c.participant with
  | waiting => rw [parked]; rfl
  | attaching => rw [admitted]; rfl
  | active => rw [admitted]; rfl
  | detaching => rw [admitted]; rfl

theorem notices_leaveWork (c : Context) (parting : Parting) :
    notices (leaveWork c parting) = [.participantLeft c.conference c.participant.id] := by
  have farewell : ∀ b : Bool, notices (if b then [.announce .leaderHasLeft] else []) = [] := fun b => by
    cases b <;> rfl
  rw [leaveWork, notices_append, notices_append, notices_append, farewell, notices_map fun _ => rfl,
    notices_map fun _ => rfl]
  rfl

theorem notices_entryWork (c : Context) (s : State) (r : Roster) :
    notices (entryWork c s r) = if s = .empty then [.conferenceEnded c.conference] else [] := by
  have released : notices (if r.waiting.isEmpty then [] else [.releaseAll (r.waiting.map (·.participant))]) = [] := by
    split <;> rfl
  cases s with
  | empty => rfl
  | inactive => rfl
  | single => rfl
  | multi => rfl
  | singleMarked => rw [entryWork, notices_append, released, notices_ite_promptTo]; rfl
  | multiMarked => rw [entryWork, notices_append, released, notices_ite_promptTo]; rfl

theorem notices_exitWork (c : Context) :
    notices (exitWork c) = if c.state = .empty then [.conferenceStarted c.conference] else [] := by
  unfold exitWork
  split <;> rfl

/-- A change of state is published so that it fits: the start before it, the end after it. -/
theorem follows_changeWork {v : ListenerView} (hstate : v.state = c.state)
    (hstarted : v.started = decide (c.state ≠ .empty)) :
    v.Follows (notices (changeWork c r)) { v with state := r.target, started := decide (r.target ≠ .empty) } := by
  unfold changeWork
  split
  · rename_i ht
    have hsame : { v with state := r.target, started := decide (r.target ≠ .empty) } = v := by
      rw [ht, ← hstarted, ← hstate]
    rw [hsame]
    exact .nil
  · rename_i ht
    have left : v.Follows (notices (exitWork c)) { v with started := true } := by
      rw [notices_exitWork]
      split
      · rename_i he
        exact .one (by rw [ListenerView.Expects, hstarted, he]; rfl)
      · rename_i he
        have hsame : { v with started := true } = v := by
          have : v.started = true := by rw [hstarted]; exact decide_eq_true he
          rw [← this]
        rw [hsame]
        exact .nil
    have told : ListenerView.Follows { v with started := true }
        (notices [.publish (.stateChanged c.conference c.state r.target)])
        { v with state := r.target, started := true } := .one ⟨hstate.symm, Ne.symm ht⟩
    have entered : ListenerView.Follows { v with state := r.target, started := true }
        (notices (entryWork c r.target r)) { v with state := r.target, started := decide (r.target ≠ .empty) } := by
      rw [notices_entryWork]
      split
      · rename_i he
        have hended : decide (r.target ≠ .empty) = false := decide_eq_false (not_not_intro he)
        rw [hended]
        exact .one rfl
      · rename_i he
        rw [decide_eq_true he]
        exact .nil
    rw [notices_append, notices_append]
    exact (left.append told).append entered

theorem participantJoined_notMem_changeWork {conference id : String} {m : Membership} :
    .participantJoined conference id m ∉ notices (changeWork c r) := by
  unfold changeWork
  split
  · exact List.not_mem_nil
  · rw [notices_append, notices_append, notices_exitWork, notices_entryWork]
    intro h
    split_ifs at h <;> simp [notices, Action.notice?] at h

theorem started_eq {room : Room} (h : room.Settled) : (!room.roster.isEmpty) = decide (room.state ≠ .empty) := by
  have hiff := h.roster.toSound.target_eq_empty_iff
  rw [← h.state] at hiff
  rw [Bool.eq_iff_iff, decide_eq_true_eq, Ne, hiff]
  cases room.roster.isEmpty <;> simp

namespace Move

/-- What an accepted event publishes fits the room before it and tells of the room after it. -/
theorem follows (h : Room.Settled ⟨c.state, c.roster⟩) (move : Move c work after) :
    (Room.view ⟨c.state, c.roster⟩).Follows (notices (work ++ changeWork c after))
      (Room.view ⟨after.target, after.settle⟩) := by
  have hafter : Room.Settled ⟨after.target, after.settle⟩ := ⟨move.settled h.roster, target_settle.symm⟩
  have hview : Room.view ⟨after.target, after.settle⟩ =
      { state := after.target, attached := after.ids.toFinset, started := decide (after.target ≠ .empty) } := by
    rw [Room.view, started_eq hafter, ids_settle]
  have changed : ListenerView.Follows { (Room.view ⟨c.state, c.roster⟩) with attached := after.ids.toFinset }
      (notices (changeWork c after)) (Room.view ⟨after.target, after.settle⟩) := by
    rw [hview]
    exact follows_changeWork rfl (started_eq h)
  rw [notices_append]
  refine .append ?_ changed
  cases move with
  | join _ new =>
    rw [notices_joinWork, toFinset_ids_place]
    exact .one (by simpa [ListenerView.Expects, Room.view] using new)
  | leave x attached own =>
    rw [notices_leaveWork, toFinset_ids_departed h.roster.distinct, ← own]
    exact .one (by simpa [ListenerView.Expects, Room.view] using mem_ids_of_mem attached)

/-- The membership that an accepted event publishes is the one that the roster shows after it. -/
theorem membership_told (h : c.roster.Settled) (move : Move c work after) {conference id : String} {m : Membership}
    (ht : .participantJoined conference id m ∈ notices (work ++ changeWork c after)) :
    c.event.isJoin = true ∧ id = c.participant.id ∧ after.settle.membership? id = some m := by
  rw [notices_append] at ht
  replace ht := (List.mem_append.mp ht).resolve_right participantJoined_notMem_changeWork
  cases move with
  | join event new fits =>
    rw [notices_joinWork] at ht
    obtain ⟨-, rfl, rfl⟩ := Notification.participantJoined.inj (List.mem_singleton.mp ht)
    exact ⟨by rw [event]; rfl, rfl, h.membership?_place new fits⟩
  | leave x attached own =>
    rw [notices_leaveWork] at ht
    cases List.mem_singleton.mp ht

end Move
end Table

/-! ### Outcomes -/

namespace Table
variable {t : Table} {name : String} {room : Room} {p : Participant} {pending : List Action} {e : Event}

/-- The states that an accepted event reports are those before and after it. -/
theorem states_of_ok {tr : Transition} (h : (t.fire name room p pending e).result = .ok tr) :
    tr.previous = room.state ∧ tr.current = (t.fire name room p pending e).room.state := by
  unfold fire at h ⊢
  split at h
  · cases h
  · dsimp only at h ⊢
    split at h
    · cases h
    · cases h
      exact ⟨rfl, rfl⟩

theorem state_of_error {error : BridgeError} (h : (t.fire name room p pending e).result = .error error) :
    (t.fire name room p pending e).room.state = room.state := by
  unfold fire at h ⊢
  split at h
  · rfl
  · dsimp only at h ⊢
    split at h
    · rfl
    · cases h

end Table

namespace Conference
variable {σ : Type} {c : Conference} {caller : Caller} {e : Event} {host : Host σ} {w : σ}

/-- What an accepted event came to, in terms of the conference before and after it. -/
theorem outcome_of_ok {o : Outcome} (h : (c.apply host caller e w).result = .ok o) :
    o.sequence = c.sequence + 1 ∧ o.previous = c.room.state ∧
      (c.apply host caller e w).conference.sequence = o.sequence ∧
      (c.apply host caller e w).conference.room.state = o.state ∧
      o.membership = membershipAfter (c.apply host caller e w).conference.room caller.participant.id e := by
  unfold apply at h ⊢
  dsimp only at h ⊢
  split at h
  · cases h
  · rename_i tr ht
    cases h
    obtain ⟨hp, hc⟩ := Table.states_of_ok ht
    exact ⟨rfl, hp, rfl, hc.symm, rfl⟩

theorem unnumbered_of_error {error : BridgeError} (h : (c.apply host caller e w).result = .error error) :
    (c.apply host caller e w).conference.sequence = c.sequence ∧
      (c.apply host caller e w).conference.room.state = c.room.state := by
  unfold apply at h ⊢
  dsimp only at h ⊢
  split at h
  · rename_i he
    exact ⟨rfl, Table.state_of_error he⟩
  · cases h

end Conference

namespace Session
variable {σ : Type} {host : Host σ} {s : Session σ} {settings : ConferenceSettings}

/-- What the accepted ones among some events came to, in order. -/
def outcomes (host : Host σ) (s : Session σ) : List Raise → List Outcome
  | [] => []
  | r :: raises => (s.apply host r).result.toOption.toList ++ (s.step host r).outcomes host raises

/-- Accepted events are numbered on from the last one, and each begins in the state in which the one before it
    ended. -/
theorem outcomes_chained (host : Host σ) : ∀ (raises : List Raise) (s : Session σ) (k : Nat) (o : Outcome),
    (s.outcomes host raises)[k]? = some o →
      o.sequence = s.conference.sequence + k + 1 ∧
      some o.previous = (s.conference.room.state :: (s.outcomes host raises).map (·.state))[k]?
  | [], s, k, o, h => by simp [outcomes] at h
  | r :: raises, s, k, o, h => by
    have ih := outcomes_chained host raises (s.step host r)
    cases hr : (s.apply host r).result with
    | error error =>
      obtain ⟨hseq, hstate⟩ := Conference.unnumbered_of_error hr
      have he : s.outcomes host (r :: raises) = (s.step host r).outcomes host raises := by
        simp [outcomes, hr, Except.toOption]
      have hi := ih k o (he ▸ h)
      rw [he, ← hseq, ← hstate]
      exact hi
    | ok first =>
      obtain ⟨hseq, hprev, hseq', hstate, -⟩ := Conference.outcome_of_ok hr
      have he : s.outcomes host (r :: raises) = first :: (s.step host r).outcomes host raises := by
        simp [outcomes, hr, Except.toOption]
      rw [he] at h ⊢
      cases k with
      | zero =>
        cases h
        exact ⟨hseq, congrArg some hprev⟩
      | succ k =>
        obtain ⟨hi, hip⟩ := ih k o h
        have hn : (s.step host r).conference.sequence = s.conference.sequence + 1 := hseq'.trans hseq
        have hs : (s.step host r).conference.room.state = first.state := hstate
        rw [hn] at hi
        rw [hs] at hip
        exact ⟨by omega, hip⟩

/-- The notifications handed over so far fit, one after the other, and tell of the room as it is. -/
theorem Settled.follows_run (host : Host σ) : ∀ (raises : List Raise) {s : Session σ}, s.Settled settings →
    (s.conference.room.view).Follows (notices (s.history host raises)) (s.run host raises).conference.room.view
  | [], s, _ => .nil
  | r :: raises, s, h => by
    have ih := Settled.follows_run host raises (h.step host r)
    have hstep : s.conference.room.view.Follows (notices (s.drained r)) (s.step host r).conference.room.view := by
      rcases h.step_cases host r with ⟨-, hd, hc, -⟩ | ⟨work, after, move, -, hd, hc, -⟩
      · rw [hd, hc]
        exact .nil
      · rw [hd, hc]
        exact move.follows h.room
    rw [history, notices_append]
    exact hstep.append ih

theorem Settled.membership_told (h : s.Settled settings) (host : Host σ) {r : Raise} {outcome : Outcome}
    (ho : (s.apply host r).result = .ok outcome) {conference id : String} {m : Membership}
    (ht : .participantJoined conference id m ∈ notices (s.drained r)) :
    id = (s.callers r.caller).participant.id ∧ outcome.membership = m ∧
      (s.step host r).conference.room.roster.membership? id = some m := by
  rcases h.step_cases host r with ⟨⟨error, he⟩, -⟩ | ⟨work, after, move, -, hd, hc, -⟩
  · rw [ho] at he
    cases he
  · rw [hd] at ht
    obtain ⟨hjoin, hid, hm⟩ := move.membership_told h.room.roster ht
    have hroster : (s.step host r).conference.room.roster = after.settle := by rw [hc]; rfl
    have hown : outcome.membership =
        Conference.membershipAfter (s.step host r).conference.room (s.context r).participant.id r.event :=
      (Conference.outcome_of_ok ho).2.2.2.2
    have hleave : r.event.isLeave = false := congrArg not hjoin
    refine ⟨hid, ?_, hroster ▸ hm⟩
    rw [hown, Conference.membershipAfter, hleave, if_neg Bool.false_ne_true, hroster, ← hid, hm]
    rfl

/-- Whatever is raised, the notifications of the accepted events tell all there is to know. Each fits what was
    known before it: a change of state begins in the known state and ends in another, whoever joins is new and
    whoever leaves is known, and the conference starts and ends by turns. After every event the state, those
    attached and whether anybody is there are as told; an arrival is told with the membership that the roster
    and the outcome show. The outcomes are numbered from one, each from the state of the one before it. -/
theorem notifications_tell_all (host : Host σ) (name : String) (settings : ConferenceSettings)
    (people : Nat → Participant) (w : σ) (raises : List Raise) :
    let s := start name settings .standard people w
    let now := s.run host raises
    let told := notices (s.history host raises)
    let outcomes := s.outcomes host raises
    (∀ before n rest, told = before ++ n :: rest → (ListenerView.learnAll {} before).Expects n) ∧
    ListenerView.learnAll {} told = now.conference.room.view ∧
    (∀ r outcome, (now.apply host r).result = .ok outcome → ∀ conference id m,
      .participantJoined conference id m ∈ notices (now.drained r) →
        id = (now.callers r.caller).participant.id ∧ outcome.membership = m ∧
        (now.step host r).conference.room.roster.membership? id = some m) ∧
    ∀ k o, outcomes[k]? = some o →
      o.sequence = k + 1 ∧ some o.previous = (State.empty :: outcomes.map (·.state))[k]? := by
  intro s now told outcomes
  have h : s.Settled settings := settled_start name settings people w
  have follows : ListenerView.Follows {} told now.conference.room.view := h.follows_run host raises
  refine ⟨fun before n rest he => follows.expects he, follows.learnAll_eq, ?_, fun k o ho => ?_⟩
  · exact fun r outcome ho conference id m ht => (h.run host raises).membership_told host ho ht
  · have hk := outcomes_chained host raises s k o ho
    rwa [show s.conference.sequence = 0 from rfl, Nat.zero_add] at hk

end Session
end ConferenceBridge
