import ConferenceBridge.Proofs.Refusal

/-! A conference and its surroundings. The media side, the listener and the log are asked for what an event
    has deferred once the room has changed, and nothing that they answer finds its way back: two conferences in
    different surroundings that meet the same events stay the same, but for how much of the work could be carried
    out. Everything deferred is asked for once and in order, whatever fails on the way. -/

namespace ConferenceBridge
open Table

/-! ### Carrying out -/

/-- How much was attempted. -/
def Report.total (r : Report) : Nat := r.executed + r.failed

/-- The call, and a note that it has been made. -/
def Call.noted {σ : Type} (call : Call σ) (action : Action) : Call (σ × List Action) := fun w =>
  let (result, v) := call w.1
  (result, v, w.2 ++ [action])

namespace Host
variable {σ : Type}

/-- A host that also notes what it is asked for, in order. It is no other host otherwise. -/
def recording (host : Host σ) : Host (σ × List Action) where
  media :=
    { wait := fun c p => (host.media.wait c p).noted (.wait p)
      mix := fun c p => (host.media.mix c p).noted (.mix p)
      endSolo := fun c p => (host.media.endSolo c p).noted (.endSolo p)
      releaseAll := fun c ps => (host.media.releaseAll c ps).noted (.releaseAll ps)
      kick := fun c p => (host.media.kick c p).noted (.kick p)
      playPrompt := fun c id prompt => (host.media.playPrompt c id prompt).noted (.playPrompt id prompt)
      announce := fun c prompt => (host.media.announce c prompt).noted (.announce prompt) }
  listener := .publishing fun n w => (host.listener.notify n w.1, w.2 ++ [.publish n])
  log line w := (host.log line w.1, w.2)

variable {host : Host σ} {conference : String} {seen : List Action} {w : σ}

theorem call_recording (host : Host σ) (conference : String) (action : Action) :
    host.recording.call conference action = (host.call conference action).noted action := by
  cases action with
  | publish n => cases n <;> rfl
  | _ => rfl

theorem step_recording (host : Host σ) (conference : String) (done : Report) (w : σ) (seen : List Action)
    (action : Action) :
    host.recording.step conference (done, w, seen) action =
      ((host.step conference (done, w) action).1, (host.step conference (done, w) action).2, seen ++ [action]) := by
  have hcall : host.recording.perform conference action (w, seen) =
      ((host.perform conference action w).1, (host.perform conference action w).2, seen ++ [action]) := by
    rw [perform, call_recording]
    rfl
  unfold step
  rw [hcall]
  rcases host.perform conference action w with ⟨_ | _, v⟩ <;> rfl

theorem total_step (host : Host σ) (conference : String) (done : Report × σ) (action : Action) :
    (host.step conference done action).1.total = done.1.total + 1 := by
  unfold step
  split <;> simp only [Report.total] <;> omega

theorem total_foldl_step (host : Host σ) (conference : String) : ∀ (actions : List Action) (done : Report × σ),
    (actions.foldl (host.step conference) done).1.total = done.1.total + actions.length
  | [], _ => rfl
  | action :: actions, done => by
    rw [List.foldl_cons, total_foldl_step host conference actions, total_step, List.length_cons]
    omega

/-- Each piece of work is counted once, as carried out or as failed. -/
theorem total_performAll (host : Host σ) (conference : String) (actions : List Action) (w : σ) :
    (host.performAll conference actions w).1.total = actions.length :=
  (total_foldl_step host conference actions _).trans (Nat.zero_add _)

theorem foldl_step_recording (host : Host σ) (conference : String) : ∀ (actions : List Action) (done : Report) (w : σ)
    (seen : List Action),
    actions.foldl (host.recording.step conference) (done, w, seen) =
      ((actions.foldl (host.step conference) (done, w)).1, (actions.foldl (host.step conference) (done, w)).2,
        seen ++ actions)
  | [], _, _, seen => by simp
  | action :: actions, done, w, seen => by
    rw [List.foldl_cons, step_recording, foldl_step_recording host conference actions, List.foldl_cons, List.append_assoc]
    rfl

/-- Every piece of work is asked for once and in order, whatever fails. -/
theorem performAll_recording (host : Host σ) (conference : String) (actions : List Action) (w : σ) (seen : List Action) :
    host.recording.performAll conference actions (w, seen) =
      ((host.performAll conference actions w).1, (host.performAll conference actions w).2, seen ++ actions) :=
  foldl_step_recording host conference actions {} w seen

theorem log_recording (host : Host σ) (line : Log.Line) (w : σ) (seen : List Action) :
    host.recording.log line (w, seen) = (host.log line w, seen) := rfl

theorem logAll_recording (host : Host σ) (lines : List Log.Line) (w : σ) (seen : List Action) :
    host.recording.logAll lines (w, seen) = (host.logAll lines w, seen) := by
  induction lines generalizing w with
  | nil => rfl
  | cons line lines ih => exact ih (host.log line w)

end Host

/-! ### One event -/

/-- Two answers to an event that defers so much work: the same refusal, or outcomes that differ at most in how
    much of the work could be carried out. -/
inductive SameAnswer (deferred : Nat) : Except BridgeError Outcome → Except BridgeError Outcome → Prop where
  | refused (error : BridgeError) : SameAnswer deferred (.error error) (.error error)
  | accepted (outcome : Outcome) (work : Report) (own : outcome.work.total = deferred) (other : work.total = deferred) :
      SameAnswer deferred (.ok outcome) (.ok { outcome with work })

theorem Firing.drained_of_ok {f : Firing} {transition : Transition} (h : f.result = .ok transition) :
    f.drained = f.pending := by
  rw [drained, h]

namespace Conference
variable {σ τ : Type} {c : Conference} {caller : Caller} {e : Event}

/-- The conference and the caller come out the same in any surroundings. -/
theorem apply_unmoved (c : Conference) (caller : Caller) (e : Event) (host : Host σ) (other : Host τ)
    (w : σ) (v : τ) :
    (c.apply host caller e w).conference = (c.apply other caller e v).conference ∧
      (c.apply host caller e w).caller = (c.apply other caller e v).caller := by
  cases hr : (c.fire caller e).result with
  | error error =>
    rw [apply_of_error hr, apply_of_error hr]
    exact ⟨rfl, rfl⟩
  | ok transition =>
    rw [apply_of_ok hr, apply_of_ok hr]
    exact ⟨rfl, rfl⟩

theorem apply_sameAnswer (host : Host σ) (other : Host τ) (w : σ) (v : τ) :
    SameAnswer (c.fire caller e).drained.length (c.apply host caller e w).result (c.apply other caller e v).result := by
  cases hr : (c.fire caller e).result with
  | error error =>
    rw [apply_of_error hr, apply_of_error hr]
    exact .refused error
  | ok transition =>
    rw [apply_of_ok hr, apply_of_ok hr, Firing.drained_of_ok hr]
    exact .accepted _ _ (Host.total_performAll ..) (Host.total_performAll ..)

/-- Noting what is asked for changes nothing else. -/
theorem apply_recording (c : Conference) (caller : Caller) (e : Event) (host : Host σ) (w : σ) (seen : List Action) :
    (c.apply host.recording caller e (w, seen)).result = (c.apply host caller e w).result ∧
      (c.apply host.recording caller e (w, seen)).world.1 = (c.apply host caller e w).world := by
  cases hr : (c.fire caller e).result with
  | error error =>
    rw [apply_of_error hr, apply_of_error hr, Host.logAll_recording]
    cases error <;> exact ⟨rfl, rfl⟩
  | ok transition =>
    rw [apply_of_ok hr, apply_of_ok hr]
    simp only [Host.logAll_recording, Host.log_recording, Host.performAll_recording]
    exact ⟨trivial, trivial⟩

/-- Of an accepted event, all the work it has deferred is asked for. -/
theorem recording_of_ok {outcome : Outcome} {host : Host σ} {w : σ}
    (h : (c.apply host caller e w).result = .ok outcome) (seen : List Action) :
    (c.apply host.recording caller e (w, seen)).world.2 = seen ++ (c.fire caller e).drained := by
  cases hr : (c.fire caller e).result with
  | error error =>
    rw [apply_of_error hr] at h
    cases h
  | ok transition =>
    rw [apply_of_ok hr, Firing.drained_of_ok hr]
    simp only [Host.logAll_recording, Host.log_recording, Host.performAll_recording]

/-- Of a refused event, a listener may be told that the state does not handle it. -/
theorem recording_of_error {error : BridgeError} {host : Host σ} {w : σ}
    (h : (c.apply host caller e w).result = .error error) (seen : List Action) :
    (c.apply host.recording caller e (w, seen)).world.2 = seen ∨
      ∃ state, (c.apply host.recording caller e (w, seen)).world.2 =
        seen ++ [.publish (.invalidEvent c.name caller.participant.id e state)] := by
  have hr := (result_error_iff host w).mp h
  rw [apply_of_error hr, Host.logAll_recording]
  cases error with
  | unhandled _ _ _ state => exact Or.inr ⟨state, rfl⟩
  | _ => exact Or.inl rfl

end Conference

/-! ### Runs -/

namespace Session
variable {σ τ : Type} {s : Session σ} {t : Session τ}

/-- The conference and its callers are the same, in whatever world. -/
def Alike (s : Session σ) (t : Session τ) : Prop := s.conference = t.conference ∧ s.callers = t.callers

theorem Alike.drained (h : s.Alike t) (r : Raise) : s.drained r = t.drained r := by
  rw [Session.drained, h.1, h.2, Session.drained]

theorem Alike.step (h : s.Alike t) (host : Host σ) (other : Host τ) (r : Raise) :
    (s.step host r).Alike (t.step other r) := by
  obtain ⟨hconf, hcaller⟩ :=
    s.conference.apply_unmoved (s.callers r.caller) r.event host other s.world t.world
  simp only [Alike, Session.step, Session.apply, ← h.1, ← h.2, hconf, hcaller, and_self]

theorem Alike.run (h : s.Alike t) (host : Host σ) (other : Host τ) (raises : List Raise) :
    (s.run host raises).Alike (t.run other raises) := by
  induction raises generalizing s t with
  | nil => exact h
  | cons r raises ih => exact ih (h.step host other r)

theorem Alike.sameAnswer (h : s.Alike t) (host : Host σ) (other : Host τ) (r : Raise) :
    SameAnswer (s.drained r).length (s.apply host r).result (t.apply other r).result := by
  rw [Session.apply, Session.apply, ← h.1, ← h.2]
  exact Conference.apply_sameAnswer host other s.world t.world

theorem pending_step (h : ∀ i, (s.callers i).pending = []) (host : Host σ) (r : Raise) (i : Nat) :
    ((s.step host r).callers i).pending = [] := by
  by_cases hi : i = r.caller
  · simp only [hi, step, Function.update_self]
    exact Conference.apply_pending (h r.caller) host s.world
  · simp only [step, Function.update_of_ne hi]
    exact h i

theorem pending_run (h : ∀ i, (s.callers i).pending = []) (host : Host σ) (raises : List Raise) :
    ∀ i, ((s.run host raises).callers i).pending = [] :=
  run_induction (P := fun s => ∀ i, (s.callers i).pending = []) h (fun _ r h => pending_step h host r) raises

/-- The same session beside which it is noted what has been asked for. -/
def Watched (s : Session σ) (t : Session (σ × List Action)) : Prop := s.Alike t ∧ s.world = t.world.1

theorem Watched.step {t : Session (σ × List Action)} (h : s.Watched t) (host : Host σ) (r : Raise) :
    (s.step host r).Watched (t.step host.recording r) := by
  refine ⟨h.1.step host host.recording r, ?_⟩
  obtain ⟨-, hworld⟩ := t.conference.apply_recording (t.callers r.caller) r.event host t.world.1 t.world.2
  simp only [Session.step, Session.apply, h.1.1, h.1.2, h.2]
  exact hworld.symm

theorem Watched.run {t : Session (σ × List Action)} (h : s.Watched t) (host : Host σ) (raises : List Raise) :
    (s.run host raises).Watched (t.run host.recording raises) := by
  induction raises generalizing s t with
  | nil => exact h
  | cons r raises ih => exact ih (h.step host r)

theorem Watched.asked {t : Session (σ × List Action)} (h : s.Watched t) {host : Host σ} {r : Raise} :
    (∀ outcome, (s.apply host r).result = .ok outcome →
      (t.step host.recording r).world.2 = t.world.2 ++ s.drained r) ∧
    ∀ error, (s.apply host r).result = .error error → (t.step host.recording r).world.2 = t.world.2 ∨
      ∃ state, (t.step host.recording r).world.2 = t.world.2 ++
        [.publish (.invalidEvent s.conference.name (s.callers r.caller).participant.id r.event state)] := by
  rw [Session.apply, h.1.drained, h.1.1, h.1.2, h.2]
  exact ⟨fun _ hr => Conference.recording_of_ok hr t.world.2, fun _ hr => Conference.recording_of_error hr t.world.2⟩

/-- Two conferences, whatever their surroundings, that meet the same events. They and their callers stay the
    same, nothing deferred is left behind, and every event gets the same answer from both but for how much of
    the work was carried out. Everything deferred is attempted, once and in order, and nothing besides is asked
    for but to tell of an event that is not handled. -/
theorem unmoved_by_surroundings {σ τ : Type} (host : Host σ) (other : Host τ) (name : String)
    (settings : ConferenceSettings) (table : Table) (people : Nat → Participant) (w : σ) (v : τ)
    (raises : List Raise) (r : Raise) :
    let s := (start name settings table people w).run host raises
    let t := (start name settings table people v).run other raises
    let watched := (start name settings table people (w, [])).run host.recording raises
    s.Alike t ∧ (∀ i, (s.callers i).pending = []) ∧
    SameAnswer (s.drained r).length (s.apply host r).result (t.apply other r).result ∧
    s.Watched watched ∧
    (∀ outcome, (s.apply host r).result = .ok outcome →
      (watched.step host.recording r).world.2 = watched.world.2 ++ s.drained r) ∧
    (∀ error, (s.apply host r).result = .error error →
      (watched.step host.recording r).world.2 = watched.world.2 ∨
      ∃ state, (watched.step host.recording r).world.2 = watched.world.2 ++
        [.publish (.invalidEvent s.conference.name (s.callers r.caller).participant.id r.event state)]) := by
  intro s t watched
  have same : (start name settings table people w).Alike (start name settings table people v) := ⟨rfl, rfl⟩
  have unnoted : (start name settings table people w).Watched (start name settings table people (w, [])) :=
    ⟨⟨rfl, rfl⟩, rfl⟩
  have alike : s.Alike t := same.run host other raises
  have noted : s.Watched watched := unnoted.run host raises
  exact ⟨alike, pending_run (fun _ => rfl) host raises, alike.sameAnswer host other r, noted, noted.asked⟩

end Session
end ConferenceBridge
