import ConferenceBridge.Proofs.Session
import ConferenceBridge.Table.Edit

/-! What an event that is refused leaves behind. Whatever the table, the engine gives the state and the work
    deferred before back as they were; the roster it gives back as the handler has left it, so that a
    refusal changes nothing exactly if the handlers take care of the roster themselves. The handlers of an
    ordinary conference do, and its host hears nothing but a warning and, if the state does not handle the
    event, that it was raised. -/

namespace ConferenceBridge
open Roster

namespace Table
variable {t : Table} {c : Context} {name : String} {room : Room} {p : Participant} {pending : List Action}
  {e : Event} {error : BridgeError} {handler : Handler}

/-! ### Any table -/

theorem fire_of_error (hh : t.handlerFor? room.state p e = some handler)
    (he : (handler (room.context name p pending e)).target = .error error) :
    t.fire name room p pending e =
      { result := .error error
        room := ⟨room.state, (handler (room.context name p pending e)).reaction.roster⟩
        pending
        notes := (handler (room.context name p pending e)).reaction.notes } := by
  simp only [Room.context] at he
  simp only [fire, hh, he, Queue.truncate_append]
  rfl

/-- The two ways in which an event is refused: no handler is found, or the handler refuses. -/
theorem fire_error_cases (h : (t.fire name room p pending e).result = .error error) :
    (t.handlerFor? room.state p e = none ∧ error = .unhandled name p.id e room.state) ∨
    ∃ handler, t.handlerFor? room.state p e = some handler ∧
      (handler (room.context name p pending e)).target = .error error := by
  cases hh : t.handlerFor? room.state p e with
  | none =>
    rw [fire_of_none hh] at h
    cases h
    exact Or.inl ⟨rfl, rfl⟩
  | some handler =>
    refine Or.inr ⟨handler, rfl, ?_⟩
    cases ht : (handler (room.context name p pending e)).target with
    | error other =>
      rw [fire_of_error hh ht] at h
      exact congrArg _ (Except.error.inj h)
    | ok target =>
      simp only [Room.context] at ht
      simp only [fire, hh, ht] at h
      cases h

/-- A handler that refuses an event leaves the roster as it found it. -/
def Careful (t : Table) : Prop :=
  ∀ (c : Context) (handler : Handler) (error : BridgeError),
    t.handlerFor? c.state c.participant c.event = some handler → (handler c).target = .error error →
      (handler c).reaction.roster = c.roster

theorem Careful.room_eq (ht : t.Careful) (h : (t.fire name room p pending e).result = .error error) :
    (t.fire name room p pending e).room = room := by
  rcases fire_error_cases h with ⟨hh, -⟩ | ⟨handler, hh, he⟩
  · rw [fire_of_none hh]
    rfl
  · have hroster := ht (room.context name p pending e) handler error hh he
    rw [fire_of_error hh he, hroster]
    rfl

/-- A refusal gives back the state and the work deferred before whatever the table, and the roster exactly
    for the tables whose handlers leave it alone when they refuse. -/
theorem refusal_atomic_iff_careful (t : Table) :
    (∀ name room p pending e error, (t.fire name room p pending e).result = .error error →
      (t.fire name room p pending e).room.state = room.state ∧
      (t.fire name room p pending e).pending = pending) ∧
    ((∀ name room p pending e error, (t.fire name room p pending e).result = .error error →
      (t.fire name room p pending e).room.roster = room.roster) ↔ t.Careful) := by
  refine ⟨fun name room p pending e error h => ?_, fun h c handler error hh he => ?_,
    fun ht name room p pending e error h => congrArg Room.roster (ht.room_eq h)⟩
  · rcases fire_error_cases h with ⟨hh, -⟩ | ⟨handler, hh, he⟩
    · rw [fire_of_none hh]
      exact ⟨rfl, rfl⟩
    · rw [fire_of_error hh he]
      exact ⟨rfl, rfl⟩
  · -- The room in which a handler sees just this context.
    have hf : t.fire c.conference ⟨c.state, c.roster⟩ c.participant c.pending c.event = _ :=
      fire_of_error hh he
    have hroster := h c.conference ⟨c.state, c.roster⟩ c.participant c.pending c.event error (by rw [hf])
    rwa [hf] at hroster

/-- A handler that admits a participant and only then finds that it cannot: the participant stays. -/
theorem refusal_keeps_arrival :
    let giveUp : Handler := fun c => { onJoin c with target := .error (.noRoom "no mixer available") }
    let t := standard.edit (.handle .empty (.join .unmarked) giveUp)
    let before : Room := {}
    let firing := t.fire "room" before ⟨"a", .plain⟩ [.announce .leaderHasLeft] (.join .unmarked)
    firing.result = .error (.noRoom "no mixer available") ∧ firing.room.roster.ids = ["a"] ∧
      firing.room ≠ before := by
  refine ⟨rfl, rfl, fun h => ?_⟩
  have hids : ["a"] = [] := congrArg (fun room => room.roster.ids) h
  cases hids

/-! ### The standard table -/

theorem attach_error {r : Roster} (h : r.attach name p = .error error) :
    error = .alreadyAttached name p.id ∨ ∃ detail, error = .noRoom detail := by
  unfold attach at h
  split at h
  · cases h
    exact Or.inl rfl
  · split at h <;> cases h
    exact Or.inr ⟨_, rfl⟩

theorem depart_error {r : Roster} {id : String} (h : r.depart name id = .error error) :
    error = .notAttached name id := by
  unfold depart at h
  split at h
  · cases h
    rfl
  · dsimp only at h
    split_ifs at h

theorem handlerFor?_standard {s : State} (h : standard.handlerFor? s p e = some handler) :
    handler = onJoin ∨ handler = onLeave := by
  unfold handlerFor? at h
  split at h
  · cases e with
    | join role =>
      left
      cases h
      rfl
    | leave role =>
      right
      simp only [handler?, standard, standardDescriptor, standardHandlers] at h
      split at h <;> cases h
      rfl
  · cases h

/-- The errors with which an ordinary conference refuses an event. -/
inductive Refusal (c : Context) : BridgeError → Prop where
  | unhandled : Refusal c (.unhandled c.conference c.participant.id c.event c.state)
  | alreadyAttached : Refusal c (.alreadyAttached c.conference c.participant.id)
  | noRoom (detail : String) : Refusal c (.noRoom detail)
  | notAttached : Refusal c (.notAttached c.conference c.participant.id)

theorem onJoin_refusal (h : (onJoin c).target = .error error) :
    onJoin c = ⟨.error error, c.idle⟩ ∧ Refusal c error := by
  unfold onJoin at h ⊢
  dsimp only at h ⊢
  split at h
  · rename_i other ha
    cases h
    rcases attach_error ha with rfl | ⟨detail, rfl⟩
    · exact ⟨rfl, .alreadyAttached⟩
    · exact ⟨rfl, .noRoom detail⟩
  · cases h

theorem onLeave_refusal (h : (onLeave c).target = .error error) :
    onLeave c = ⟨.error error, c.idle⟩ ∧ Refusal c error := by
  unfold onLeave at h ⊢
  dsimp only at h ⊢
  split at h
  · rename_i other hd
    cases h
    rw [depart_error hd]
    exact ⟨rfl, .notAttached⟩
  · cases h

theorem standard_careful : standard.Careful := by
  intro c handler error hh he
  rcases handlerFor?_standard hh with rfl | rfl
  · rw [(onJoin_refusal he).1]
    rfl
  · rw [(onLeave_refusal he).1]
    rfl

/-- An ordinary conference that refuses an event has left everything in place. -/
theorem fire_standard_error (h : (standard.fire name room p pending e).result = .error error) :
    standard.fire name room p pending e = refused (room.context name p pending e) error ∧
      Refusal (room.context name p pending e) error := by
  rcases fire_error_cases h with ⟨hh, rfl⟩ | ⟨handler, hh, he⟩
  · exact ⟨fire_of_none hh, .unhandled⟩
  · rcases handlerFor?_standard hh with rfl | rfl
    · obtain ⟨hj, hr⟩ := onJoin_refusal he
      exact ⟨fire_of_refusal hh hj, hr⟩
    · obtain ⟨hl, hr⟩ := onLeave_refusal he
      exact ⟨fire_of_refusal hh hl, hr⟩

end Table

/-! ### Conferences -/

namespace Conference
variable {σ : Type} {c : Conference} {caller : Caller} {e : Event} {context : Context} {error : BridgeError}

theorem result_error_iff (host : Host σ) (w : σ) :
    (c.apply host caller e w).result = .error error ↔ (c.fire caller e).result = .error error := by
  unfold apply
  dsimp only
  cases h : (c.fire caller e).result with
  | error other => simp
  | ok transition => simp

/-- An event that is refused leaves the work deferred before as it was, whatever the table. -/
theorem pending_of_error {error : BridgeError} (h : (c.fire caller e).result = .error error) :
    (c.fire caller e).pending = caller.pending := by
  rcases Table.fire_error_cases h with ⟨hh, -⟩ | ⟨handler, hh, he⟩
  · rw [fire, Table.fire_of_none hh]
    rfl
  · rw [fire, Table.fire_of_error hh he]

theorem apply_of_error {error : BridgeError} (h : (c.fire caller e).result = .error error) (host : Host σ) (w : σ) :
    c.apply host caller e w =
      { result := .error error
        conference := { c with room := (c.fire caller e).room }
        caller
        world := tellRefusal host c.name caller.participant.id e error (host.logAll (c.fire caller e).log w)
        notes := (c.fire caller e).notes } := by
  simp only [apply, h, pending_of_error h]

theorem apply_of_ok {transition : Transition} (h : (c.fire caller e).result = .ok transition) (host : Host σ) (w : σ) :
    let after := c.advance (c.fire caller e).room transition
    let membership := membershipAfter (c.fire caller e).room caller.participant.id e
    let carried := host.performAll c.name (c.fire caller e).pending
      (host.log (appliedLine c.name caller.participant.id e (c.sequence + 1) transition)
        (host.logAll (c.fire caller e).log w))
    c.apply host caller e w =
      { result := .ok {
          sequence := c.sequence + 1, event := e, previous := transition.previous, state := transition.current,
          membership, work := carried.1 }
        conference := after
        caller := { caller with membership, pending := [] }
        world := carried.2
        notes := (c.fire caller e).notes } := by
  simp only [apply, h]
  rfl

theorem apply_pending (h : caller.pending = []) (host : Host σ) (w : σ) :
    (c.apply host caller e w).caller.pending = [] := by
  cases hr : (c.fire caller e).result with
  | error error =>
    rw [apply_of_error hr]
    exact h
  | ok transition => rw [apply_of_ok hr]

/-- Of a refusal a host is told by a warning in its log; its listener hears of it only if the state does not
    handle the event. -/
theorem tellRefusal_cases (h : Table.Refusal context error) (host : Host σ) (name : String) (w : σ) :
    ∃ line : Log.Line, line.level = .warn ∧
      ((error = .unhandled context.conference context.participant.id context.event context.state ∧
        tellRefusal host name context.participant.id context.event error w =
          host.listener.invalidEvent name context.participant.id context.event context.state (host.log line w)) ∨
      ((∀ conference id event state, error ≠ .unhandled conference id event state) ∧
        tellRefusal host name context.participant.id context.event error w = host.log line w)) := by
  cases h with
  | unhandled => exact ⟨_, rfl, Or.inl ⟨rfl, rfl⟩⟩
  | alreadyAttached => exact ⟨_, rfl, Or.inr ⟨by rintro _ _ _ _ ⟨⟩, rfl⟩⟩
  | noRoom detail => exact ⟨_, rfl, Or.inr ⟨by rintro _ _ _ _ ⟨⟩, rfl⟩⟩
  | notAttached => exact ⟨_, rfl, Or.inr ⟨by rintro _ _ _ _ ⟨⟩, rfl⟩⟩

end Conference

namespace Session

/-- After any events, an event that an ordinary conference refuses has no effect: conference and caller are
    what they were, whatever the media side would do makes no difference, and all that the world sees is a
    warning in the log and, if the state does not handle the event, that the listener is told so once. -/
theorem refusal_without_effect {σ : Type} (host : Host σ) (name : String) (settings : ConferenceSettings)
    (people : Nat → Participant) (w : σ) (raises : List Raise) (caller : Caller) (e : Event) (v : σ)
    (error : BridgeError)
    (h : (((start name settings .standard people w).run host raises).conference.apply host caller e v).result =
      .error error) :
    let c := ((start name settings .standard people w).run host raises).conference
    let answer := c.apply host caller e v
    answer.conference = c ∧ answer.caller = caller ∧
    (∀ media : Media σ, c.apply { host with media } caller e v = answer) ∧
    ∃ line : Log.Line, line.level = .warn ∧
      ((error = .unhandled c.name caller.participant.id e c.room.state ∧
        answer.world =
          host.listener.invalidEvent c.name caller.participant.id e c.room.state (host.log line v)) ∨
      ((∀ conference id event state, error ≠ .unhandled conference id event state) ∧
        answer.world = host.log line v)) := by
  intro c answer
  have hfire := (settled_run host name settings people w raises).fire_eq caller e
  have herror : (c.fire caller e).result = .error error := (Conference.result_error_iff host v).mp h
  rw [hfire] at herror
  obtain ⟨hf, hr⟩ := Table.fire_standard_error herror
  rw [hf] at hfire
  have happly : ∀ other : Host σ, c.apply other caller e v = _ :=
    fun other => Conference.apply_of_refused hfire ⟨rfl, rfl, rfl⟩ other v
  have hanswer : answer = _ := happly host
  rw [hanswer]
  exact ⟨rfl, rfl, fun media => happly { host with media }, Conference.tellRefusal_cases hr host c.name v⟩

/-- A leader that never joined tries to leave a conference of one: its listener hears of it, and that is all. -/
theorem refused_leave_of_stranger :
    let host : Host (List Notification) :=
      { media := .logging fun _ => id, listener := .publishing fun n heard => heard ++ [n], log := fun _ => id }
    let s := start "room" {} .standard (fun _ => ⟨"a", .plain⟩) []
    let c := (s.run host [⟨0, .join .unmarked⟩]).conference
    let caller : Caller := { participant := ⟨"m", .leader⟩, pending := [.announce .leaderHasLeft] }
    let answer := c.apply host caller (.leave .marked) []
    answer.result = .error (.unhandled "room" "m" (.leave .marked) .single) ∧
    answer.conference = c ∧ answer.caller = caller ∧
    answer.world = [.invalidEvent "room" "m" (.leave .marked) .single] := by
  intro host s c caller answer
  have hresult : answer.result = .error (.unhandled "room" "m" (.leave .marked) .single) := rfl
  obtain ⟨hconf, hcaller, -, line, -, hworld⟩ :=
    refusal_without_effect host "room" {} (fun _ => ⟨"a", .plain⟩) [] [⟨0, .join .unmarked⟩] caller
      (.leave .marked) [] _ hresult
  refine ⟨hresult, hconf, hcaller, ?_⟩
  rcases hworld with ⟨-, hheard⟩ | ⟨hne, -⟩
  · exact hheard
  · exact absurd rfl (hne "room" "m" (.leave .marked) .single)

end Session
end ConferenceBridge
