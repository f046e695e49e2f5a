import ConferenceBridge.Proofs.Roster.Settled
import ConferenceBridge.Table.Standard
import ConferenceBridge.Transition

/-! How a settled room on the standard table meets an event. Either the event is refused and nothing
    moves, or one participant is placed or taken out, the others are settled, and the state is the one
    that the attached participants call for. The work that is deferred is given in full. -/

namespace ConferenceBridge
open Roster

/-! ### States and counts -/

namespace Roster
variable {r : Roster}

theorem isMarked_target : r.target.isMarked = true ↔ 0 < r.marked := by
  unfold target State.ofCounts
  split
  · rename_i h
    split <;> simp [State.isMarked, h]
  · rename_i h
    split <;> simp [State.isMarked, h]

theorem target_of_pos (h : 0 < r.marked) : r.target = .singleMarked ∨ r.target = .multiMarked := by
  unfold target State.ofCounts
  rw [if_pos h]
  split
  · exact Or.inl rfl
  · exact Or.inr rfl

theorem target_ne_inactive_of_pos (h : 0 < r.marked) : r.target ≠ .inactive := by
  rcases target_of_pos h with ht | ht <;> rw [ht] <;> decide

end Roster

/-- The state of a room is the one its participants call for, and they are settled. -/
structure Room.Settled (room : Room) : Prop where
  roster : room.roster.Settled
  state : room.state = room.roster.target

/-- What a handler sees when a participant raises an event. -/
def Room.context (room : Room) (name : String) (p : Participant) (pending : List Action) (e : Event) :
    Context :=
  { conference := name, state := room.state, event := e, participant := p, roster := room.roster, pending }

namespace Table

/-! ### Work -/

/-- What a join defers before the state changes. -/
def joinWork (c : Context) : List Action :=
  (match c.roster.placement c.participant with
    | .waiting => parkingActions c.participant (some c.participant)
    | _ => admissionActions c (c.roster.place c.participant)) ++
  [.publish (.participantJoined c.conference c.participant.id (c.roster.placement c.participant))]

/-- What a leave defers before the state changes, given what the departure brought about. -/
def leaveWork (c : Context) (parting : Parting) : List Action :=
  parting.kicked.map .kick ++ parting.demoted.map .wait ++
    (if parting.lastMarkedLeft && !c.participant.profile.quiet then [.announce .leaderHasLeft] else []) ++
    [.publish (.participantLeft c.conference c.participant.id)]

/-- What is deferred as a state is entered. An inactive conference has treated everybody already. -/
def entryWork (c : Context) (s : State) (r : Roster) : List Action :=
  match s with
  | .empty => [.publish (.conferenceEnded c.conference)]
  | .singleMarked | .multiMarked =>
    (if r.waiting.isEmpty then [] else [.releaseAll (r.waiting.map (·.participant))]) ++
      if c.event.isJoin && c.participant.isMarked && r.marked == 1 then
        promptTo c.participant .placedIntoConference
      else []
  | .inactive | .single | .multi => []

/-- What is deferred as a state is left: the conference starts when somebody is there. -/
def exitWork (c : Context) : List Action :=
  if c.state = .empty then [.publish (.conferenceStarted c.conference)] else []

/-- What a change of state defers. -/
def changeWork (c : Context) (r : Roster) : List Action :=
  if r.target = c.state then []
  else
    exitWork c ++ [.publish (.stateChanged c.conference c.state r.target)] ++ entryWork c r.target r

theorem filterMap_map_of_none {α β : Type} {f : α → Action} {view : Action → Option β} (h : ∀ a, view (f a) = none)
    (l : List α) : (l.map f).filterMap view = [] := by
  rw [List.filterMap_map, List.filterMap_eq_nil_iff]
  exact fun a _ => h a

/-- The roster once a state has been entered. -/
def entered (s : State) (r : Roster) : Roster :=
  match s with
  | .singleMarked | .multiMarked => r.release.2
  | .inactive => r.holdWaiting.2
  | .empty | .single | .multi => r

/-! ### The two ways to meet an event -/

/-- A refusal: nothing moves. -/
def refused (c : Context) (e : BridgeError) : Firing :=
  { result := .error e, room := ⟨c.state, c.roster⟩, pending := c.pending }

/-- An accepted event that leads to this roster, the others still to be settled. -/
def accepted (c : Context) (work : List Action) (r : Roster) : Firing :=
  { result := .ok ⟨c.state, r.target⟩
    room := ⟨r.target, r.settle⟩
    pending := c.pending ++ (work ++ changeWork c r)
    log := if r.target = c.state then [] else [changeLine c.conference c.state r.target] }

variable {c : Context} {r after : Roster} {room : Room} {name : String} {p : Participant}
  {pending : List Action} {e : Event}

/-- The hooks of the standard table around a change of state. -/
theorem change_standard (x : Reaction) (s : State) (hs : s = .inactive → x.roster.holdWaiting.1 = []) :
    standard.change c x s =
      { roster := entered s x.roster
        deferred := x.deferred ++
          (exitWork c ++ [.publish (.stateChanged c.conference c.state s)] ++ entryWork c s x.roster)
        notes := x.notes } := by
  have hexit : runHook c x (standard.descriptor c.state).exit =
      { x with deferred := x.deferred ++ exitWork c } := by
    cases hc : c.state <;> simp [exitWork, hc, runHook, standard, standardDescriptor, Context.followUp,
      tellStart, Context.idle, Context.after]
  unfold change
  rw [hexit]
  cases s with
  | empty =>
    simp [runHook, standard, standardDescriptor, Context.followUp, tellEnd, Context.idle, Context.after,
      entered, entryWork]
  | inactive =>
    have hnone := hs rfl
    simp [runHook, standard, standardDescriptor, Context.followUp, startWaits, Context.after, entered,
      entryWork, hnone]
  | single => simp [runHook, standard, standardDescriptor, entered, entryWork]
  | multi => simp [runHook, standard, standardDescriptor, entered, entryWork]
  | singleMarked =>
    simp [runHook, standard, standardDescriptor, Context.followUp, freeWaiting, Context.after, entered,
      entryWork, release]
  | multiMarked =>
    simp [runHook, standard, standardDescriptor, Context.followUp, freeWaiting, Context.after, entered,
      entryWork, release]

theorem entered_of_settled (h : r.Settled) : entered r.target r = r := by
  have led : r.target.isMarked = true → r.release.2 = r := fun hm => by
    rw [release_eq_self (h.led (isMarked_target.mp hm))]
  unfold entered
  cases ht : r.target with
  | empty => rfl
  | inactive => rw [holdWaiting_eq_self h.needsHold_eq_false]
  | single => rfl
  | multi => rfl
  | singleMarked => exact led (by rw [ht]; rfl)
  | multiMarked => exact led (by rw [ht]; rfl)

theorem entered_of_pos (h : 0 < r.marked) : entered r.target r = r.release.2 := by
  rcases target_of_pos h with ht | ht <;> rw [ht] <;> rfl

theorem entryWork_of_pos (h : 0 < r.marked) : entryWork c r.target r =
    (if r.waiting.isEmpty then [] else [.releaseAll (r.waiting.map (·.participant))]) ++
      if c.event.isJoin && c.participant.isMarked && r.marked == 1 then
        promptTo c.participant .placedIntoConference
      else [] := by
  rcases target_of_pos h with ht | ht <;> rw [ht] <;> rfl

theorem entryWork_of_zero (h : r.marked = 0) : entryWork c r.target r =
    if r.target = .empty then [.publish (.conferenceEnded c.conference)] else [] := by
  have hm : r.target.isMarked ≠ true := fun hm => absurd (isMarked_target.mp hm) (by omega)
  cases ht : r.target with
  | empty => rfl
  | inactive => rfl
  | single => rfl
  | multi => rfl
  | singleMarked => exact absurd (by rw [ht]; rfl) hm
  | multiMarked => exact absurd (by rw [ht]; rfl) hm

/-- What is deferred on entering a state does not change if the others were settled before, provided that
    there is nobody to release. -/
theorem entryWork_settle (h : 0 < r.marked → r.waiting = []) :
    entryWork c r.target r.settle = entryWork c r.target r := by
  have led : r.target.isMarked = true → r.settle = r := fun hm => by
    have hpos := isMarked_target.mp hm
    rw [settle_of_pos hpos, release_eq_self (h hpos)]
  cases ht : r.target with
  | empty => rfl
  | inactive => rfl
  | single => rfl
  | multi => rfl
  | singleMarked => rw [led (by rw [ht]; rfl)]
  | multiMarked => rw [led (by rw [ht]; rfl)]

theorem disagreement_of_eq (h : room.state = room.roster.target) : disagreement name room = [] := if_pos h

/-- A handler of the standard table that asks for the state its roster calls for. Either it has settled
    the others itself, or somebody is marked where nobody was and the entry hook releases them. -/
theorem fire_of_handler {handler : Handler} {x : Reaction} (hroom : room.Settled)
    (hh : standard.handlerFor? room.state p e = some handler)
    (hx : handler (room.context name p pending e) = ⟨.ok (some after.target), x⟩) (hn : x.notes = [])
    (hs : after.settle.Settled)
    (hr : (x.roster = after.settle ∧ (0 < after.marked → after.waiting = [])) ∨
      (x.roster = after ∧ 0 < after.marked ∧ room.roster.marked = 0)) :
    standard.fire name room p pending e = accepted (room.context name p pending e) x.deferred after := by
  -- Entering the new state settles whatever is left to settle.
  have hentered : entered after.target x.roster = after.settle := by
    rcases hr with ⟨hr, -⟩ | ⟨hr, hpos, -⟩
    · rw [hr, ← target_settle]
      exact entered_of_settled hs
    · rw [hr, entered_of_pos hpos, settle_of_pos hpos]
  have hwork : entryWork (room.context name p pending e) after.target x.roster =
      entryWork (room.context name p pending e) after.target after := by
    rcases hr with ⟨hr, hled⟩ | ⟨hr, -, -⟩
    · rw [hr, entryWork_settle hled]
    · rw [hr]
  have htreated : after.target = .inactive → x.roster.holdWaiting.1 = [] := by
    intro hi
    rcases hr with ⟨hr, -⟩ | ⟨-, hpos, -⟩
    · rw [hr, holdWaiting_eq_self hs.needsHold_eq_false]
    · exact absurd hi (target_ne_inactive_of_pos hpos)
  -- Without a change of state no hook runs, and then nobody is to be released.
  have hsame : after.target = room.state → x.roster = after.settle := by
    intro ht
    rcases hr with ⟨hr, -⟩ | ⟨-, hpos, h0⟩
    · exact hr
    · have hm : room.roster.target.isMarked = true := by
        rw [← hroom.state, ← ht]
        exact isMarked_target.mpr hpos
      have := isMarked_target.mp hm
      omega
  have hagree : disagreement name ⟨after.target, after.settle⟩ = [] := disagreement_of_eq target_settle.symm
  have hchange := change_standard (c := room.context name p pending e) x after.target htreated
  rw [hentered, hwork] at hchange
  simp only [Room.context] at hx hchange ⊢
  by_cases ht : after.target = room.state
  · have hsame := hsame ht
    rw [ht] at hagree
    simp [fire, hh, hx, accepted, changeWork, ht, hsame, hagree, hn]
  · simp [fire, hh, hx, accepted, changeWork, ht, hchange, hagree, hn]

/-! ### Handlers -/

theorem handlerFor?_of_role_ne {s : State} (h : e.role ≠ p.role) : standard.handlerFor? s p e = none := if_neg h

theorem handlerFor?_join (s : State) (p : Participant) :
    standard.handlerFor? s p (.join p.role) = some onJoin := if_pos rfl

theorem handlerFor?_leave {s : State} (h : p.role ∈ departing s) :
    standard.handlerFor? s p (.leave p.role) = some onLeave := by
  simp [handlerFor?, Event.role, handler?, standard, standardDescriptor, standardHandlers, h]

theorem handlerFor?_leave_eq_none {s : State} (h : p.role ∉ departing s) :
    standard.handlerFor? s p (.leave p.role) = none := by
  simp [handlerFor?, handler?, standard, standardDescriptor, standardHandlers, h]

theorem handles_leave_iff {s : State} {role : Role} :
    (standard.descriptor s).handles (.leave role) = true ↔ role ∈ departing s := by
  simp [Descriptor.handles, standard, standardDescriptor, standardHandlers]

theorem onJoin_of_mem (h : c.participant.id ∈ c.roster.ids) :
    onJoin c = ⟨.error (.alreadyAttached c.conference c.participant.id), c.idle⟩ := by
  simp [onJoin, attach, contains_eq_true_iff.mpr h]

theorem onJoin_of_full (h : c.participant.id ∉ c.roster.ids) (hfull : c.roster.isFull = true) :
    onJoin c =
      ⟨.error (.noRoom ("conference '" ++ c.conference ++ "' is full ("
        ++ toString (c.roster.maxMembers.getD 0) ++ " members)")), c.idle⟩ := by
  simp [onJoin, attach, contains_eq_false_iff.mpr h, hfull]

theorem onJoin_of_waiting (hs : c.roster.Settled) (hid : c.participant.id ∉ c.roster.ids)
    (hroom : c.roster.isFull = false) (hw : c.roster.placement c.participant = .waiting) :
    onJoin c = ⟨.ok (some (c.roster.place c.participant).target),
      { roster := (c.roster.place c.participant).settle, deferred := joinWork c }⟩ := by
  simp [onJoin, attach, contains_eq_false_iff.mpr hid, hroom, hw, hs.hold_place hid hroom hw, joinWork,
    target_settle]

theorem onJoin_of_active (hid : c.participant.id ∉ c.roster.ids) (hroom : c.roster.isFull = false)
    (ha : c.roster.placement c.participant = .active) :
    onJoin c = ⟨.ok (some (c.roster.place c.participant).target),
      { roster := c.roster.place c.participant, deferred := joinWork c }⟩ := by
  simp [onJoin, attach, contains_eq_false_iff.mpr hid, hroom, ha, joinWork]

theorem onLeave_of_notMem (h : c.participant.id ∉ c.roster.ids) :
    onLeave c = ⟨.error (.notAttached c.conference c.participant.id), c.idle⟩ := by
  simp [onLeave, depart_of_notMem h]

theorem onLeave_of_mem {x : Record} (hs : c.roster.Settled) (hx : x ∈ c.roster.records)
    (hid : x.id = c.participant.id) :
    onLeave c = ⟨.ok (some (c.roster.departed x).target),
      { roster := (c.roster.departed x).settle, deferred := leaveWork c (c.roster.partingOf x) }⟩ := by
  simp [onLeave, ← hid, depart_of_mem hs.distinct hx, hs.holdEach_demoted hx, leaveWork, target_settle]

/-! ### Events -/

theorem fire_of_none {t : Table} (h : t.handlerFor? room.state p e = none) :
    t.fire name room p pending e =
      refused (room.context name p pending e) (.unhandled name p.id e room.state) := by
  simp only [fire, h]
  rfl

theorem fire_of_refusal {handler : Handler} {error : BridgeError}
    (hh : standard.handlerFor? room.state p e = some handler)
    (hr : handler (room.context name p pending e) = ⟨.error error, (room.context name p pending e).idle⟩) :
    standard.fire name room p pending e = refused (room.context name p pending e) error := by
  simp only [Room.context] at hr
  simp only [fire, hh, hr, Queue.truncate_append]
  rfl

theorem fire_of_role_ne (h : e.role ≠ p.role) :
    standard.fire name room p pending e =
      refused (room.context name p pending e) (.unhandled name p.id e room.state) :=
  fire_of_none (handlerFor?_of_role_ne h)

theorem fire_join_of_mem (h : p.id ∈ room.roster.ids) :
    standard.fire name room p pending (.join p.role) =
      refused (room.context name p pending (.join p.role)) (.alreadyAttached name p.id) :=
  fire_of_refusal (handlerFor?_join room.state p) (onJoin_of_mem (c := room.context name p pending _) h)

theorem fire_join_of_full (h : p.id ∉ room.roster.ids) (hfull : room.roster.isFull = true) :
    standard.fire name room p pending (.join p.role) =
      refused (room.context name p pending (.join p.role))
        (.noRoom ("conference '" ++ name ++ "' is full (" ++ toString (room.roster.maxMembers.getD 0)
          ++ " members)")) :=
  fire_of_refusal (handlerFor?_join room.state p)
    (onJoin_of_full (c := room.context name p pending _) h hfull)

theorem fire_leave_of_notMem (hdep : p.role ∈ departing room.state) (h : p.id ∉ room.roster.ids) :
    standard.fire name room p pending (.leave p.role) =
      refused (room.context name p pending (.leave p.role)) (.notAttached name p.id) :=
  fire_of_refusal (handlerFor?_leave hdep) (onLeave_of_notMem (c := room.context name p pending _) h)

theorem fire_leave_of_unhandled (hdep : p.role ∉ departing room.state) :
    standard.fire name room p pending (.leave p.role) =
      refused (room.context name p pending (.leave p.role))
        (.unhandled name p.id (.leave p.role) room.state) :=
  fire_of_none (handlerFor?_leave_eq_none hdep)

theorem fire_join (hroom : room.Settled) (hid : p.id ∉ room.roster.ids) (hfits : room.roster.isFull = false) :
    standard.fire name room p pending (.join p.role) =
      accepted (room.context name p pending (.join p.role))
        (joinWork (room.context name p pending (.join p.role))) (room.roster.place p) := by
  have hh := handlerFor?_join room.state p
  have hs := hroom.roster.settle_place hid hfits
  rcases place_cases room.roster p with ⟨-, h0, hw, he⟩ | ⟨-, ha, he⟩
  · have hz : ¬0 < (room.roster.place p).marked := by
      rw [he]
      dsimp only
      omega
    have hx := onJoin_of_waiting (c := room.context name p pending (.join p.role)) hroom.roster hid hfits hw
    exact fire_of_handler hroom hh hx rfl hs (Or.inl ⟨rfl, fun h => absurd h hz⟩)
  · have hx := onJoin_of_active (c := room.context name p pending (.join p.role)) hid hfits ha
    refine fire_of_handler hroom hh hx rfl hs ?_
    -- The others are settled already unless the first marked participant has come.
    rcases Nat.eq_zero_or_pos (room.roster.place p).marked with h0 | hpos
    · exact Or.inl ⟨(hroom.roster.settle_place_of_zero ha h0).symm, fun h => absurd h0 (Nat.ne_of_gt h)⟩
    · rcases Nat.eq_zero_or_pos room.roster.marked with hr0 | hrpos
      · exact Or.inr ⟨rfl, hpos, hr0⟩
      · have hw : (room.roster.place p).waiting = [] := by
          rw [he]
          exact hroom.roster.led hrpos
        have hsame : room.roster.place p = (room.roster.place p).settle := by
          rw [settle_of_pos hpos, release_eq_self hw]
        exact Or.inl ⟨hsame, fun _ => hw⟩

theorem fire_leave {x : Record} (hroom : room.Settled) (hx : x ∈ room.roster.records) (hid : x.id = p.id)
    (hdep : p.role ∈ departing room.state) :
    standard.fire name room p pending (.leave p.role) =
      accepted (room.context name p pending (.leave p.role))
        (leaveWork (room.context name p pending (.leave p.role)) (room.roster.partingOf x))
        (room.roster.departed x) :=
  fire_of_handler hroom (handlerFor?_leave hdep)
    (onLeave_of_mem (c := room.context name p pending (.leave p.role)) hroom.roster hx hid) rfl
    (hroom.roster.settle_departed hx) (Or.inl ⟨rfl, hroom.roster.departed_led hx⟩)

/-- The events that are accepted: the work that such an event defers before the state changes, and the
    roster that it leads to before the others are settled. -/
inductive Move (c : Context) : List Action → Roster → Prop where
  | join (event : c.event = .join c.participant.role) (new : c.participant.id ∉ c.roster.ids)
      (fits : c.roster.isFull = false) : Move c (joinWork c) (c.roster.place c.participant)
  | leave (x : Record) (attached : x ∈ c.roster.records) (own : x.id = c.participant.id)
      (event : c.event = .leave c.participant.role) (handled : c.participant.role ∈ departing c.state) :
      Move c (leaveWork c (c.roster.partingOf x)) (c.roster.departed x)

/-- All that can become of an event in a settled room. -/
theorem fire_cases (hroom : room.Settled) (name : String) (p : Participant) (pending : List Action) (e : Event) :
    (∃ error, standard.fire name room p pending e = refused (room.context name p pending e) error) ∨
    ∃ work after, Move (room.context name p pending e) work after ∧
      standard.fire name room p pending e = accepted (room.context name p pending e) work after := by
  by_cases hrole : e.role = p.role
  · cases e with
    | join role =>
      obtain rfl : role = p.role := hrole
      by_cases hid : p.id ∈ room.roster.ids
      · exact Or.inl ⟨_, fire_join_of_mem hid⟩
      · cases hfull : room.roster.isFull
        · exact Or.inr ⟨_, _, Move.join rfl hid hfull, fire_join hroom hid hfull⟩
        · exact Or.inl ⟨_, fire_join_of_full hid hfull⟩
    | leave role =>
      obtain rfl : role = p.role := hrole
      by_cases hdep : p.role ∈ departing room.state
      · by_cases hid : p.id ∈ room.roster.ids
        · obtain ⟨x, hx, hxid⟩ := mem_ids.mp hid
          exact Or.inr ⟨_, _, Move.leave x hx hxid rfl hdep, fire_leave hroom hx hxid hdep⟩
        · exact Or.inl ⟨_, fire_leave_of_notMem hdep hid⟩
      · exact Or.inl ⟨_, fire_leave_of_unhandled hdep⟩
  · exact Or.inl ⟨_, fire_of_role_ne hrole⟩

namespace Move
variable {work : List Action}

theorem settled (h : c.roster.Settled) (move : Move c work after) : after.settle.Settled := by
  cases move with
  | join _ new fits => exact h.settle_place new fits
  | leave x attached => exact h.settle_departed attached

/-- Events do not touch the settings. -/
theorem settings (h : c.roster.Settled) (move : Move c work after) :
    after.policy = c.roster.policy ∧ after.maxMembers = c.roster.maxMembers := by
  cases move with
  | join => exact ⟨policy_place _ _, maxMembers_place _ _⟩
  | leave x attached => exact (h.toSound.departed_fields attached).2

end Move

/-- An event keeps a room settled. -/
theorem fire_settled (hroom : room.Settled) (name : String) (p : Participant) (pending : List Action)
    (e : Event) : (standard.fire name room p pending e).room.Settled := by
  rcases fire_cases hroom name p pending e with ⟨error, hf⟩ | ⟨work, after, move, hf⟩
  · rw [hf]
    exact hroom
  · rw [hf]
    exact ⟨move.settled hroom.roster, Roster.target_settle.symm⟩

end Table
end ConferenceBridge
