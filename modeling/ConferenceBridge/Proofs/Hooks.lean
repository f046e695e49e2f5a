import ConferenceBridge.Proofs.Room
import ConferenceBridge.Table.Edit
import Mathlib.Data.List.DropRight
import Mathlib.Data.List.Induction

/-! When hooks run, on any table. A table that has been edited has for each state the hooks that were set last
    and those added since, one after the other. An event runs them only if the state changes: those of the
    old state, then the change is told, then those of the new state. So whoever counts entries and exits always
    knows the state. -/

namespace ConferenceBridge

/-- The two hooks of a state: one runs as it is entered, one as it is left. -/
inductive Side where
  | entry
  | exit
  deriving DecidableEq

def Descriptor.hook? (d : Descriptor) : Side → Option Hook
  | .entry => d.entry
  | .exit => d.exit

theorem Descriptor.withHandler_withHandler (d : Descriptor) (event : Event) (handler : Option Handler) :
    (d.withHandler event handler).withHandler event handler = d.withHandler event handler := by
  simp only [withHandler]
  congr 1
  funext e
  split <;> rfl

namespace Hook

/-- Some hooks, one after the other, as one. -/
def chain : List Hook → Option Hook
  | [] => none
  | hook :: hooks => some (hooks.foldl andThen hook)

theorem chain_concat (hooks : List Hook) (hook : Hook) :
    chain (hooks ++ [hook]) = some (following (chain hooks) hook) := by
  cases hooks with
  | nil => rfl
  | cons first hooks =>
    simp only [chain, following, List.cons_append, List.foldl_append, List.foldl_cons, List.foldl_nil]

end Hook

namespace Context
variable {c : Context} {r : Reaction}

theorem after_followUp (hook : Hook) : c.after (c.followUp r hook) = (c.after r).after (hook (c.after r)) := by
  simp only [after, followUp, List.append_assoc]

/-- Two hooks run as one are the one run after the other. -/
theorem followUp_andThen (first second : Hook) :
    c.followUp r (first.andThen second) = c.followUp (c.followUp r first) second := by
  have hseen := after_followUp (c := c) (r := r) first
  simp only [followUp] at hseen
  simp only [followUp, Hook.andThen, hseen, List.append_assoc]

theorem followUp_foldl_andThen : ∀ (hooks : List Hook) (hook : Hook) (r : Reaction),
    c.followUp r (hooks.foldl Hook.andThen hook) = hooks.foldl c.followUp (c.followUp r hook)
  | [], _, _ => rfl
  | next :: hooks, hook, r => by
    rw [List.foldl_cons, followUp_foldl_andThen hooks, followUp_andThen, List.foldl_cons]

end Context

namespace Table
variable {t : Table} {c : Context} {r : Reaction}

/-- A chain of hooks runs each of them once, in order, and each sees the state of the context. -/
theorem runHook_chain (hooks : List Hook) : runHook c r (Hook.chain hooks) = hooks.foldl c.followUp r := by
  cases hooks with
  | nil => rfl
  | cons hook hooks => exact Context.followUp_foldl_andThen hooks hook r

/-! ### Edits -/

namespace Edit

/-- The hook that an edit sets for a state in place of what is there. -/
def sets? (side : Side) (s : State) : Edit → Option Hook
  | .onEntry state hook => if side = .entry ∧ state = s then some hook else none
  | .onExit state hook => if side = .exit ∧ state = s then some hook else none
  | .handle .. | .handleIn .. | .unhandle .. | .afterEntry .. | .afterExit .. => none

/-- The hook that an edit adds for a state to what is there. -/
def adds? (side : Side) (s : State) : Edit → Option Hook
  | .afterEntry state hook => if side = .entry ∧ state = s then some hook else none
  | .afterExit state hook => if side = .exit ∧ state = s then some hook else none
  | .handle .. | .handleIn .. | .unhandle .. | .onEntry .. | .onExit .. => none

end Edit

/-- The hooks of a state after some edits, in the order in which they run: the one that was set last, or the
    table's own if none was set, and those that were added since. -/
def hooks (t : Table) (edits : List Edit) (side : Side) (s : State) : List Hook :=
  let last := edits.reverse.findSome? (Edit.sets? side s)
  let since := edits.rtakeWhile fun e => (e.sets? side s).isNone
  (last.or ((t.descriptor s).hook? side)).toList ++ since.filterMap (Edit.adds? side s)

variable {side : Side} {s : State} {edits : List Edit} {e : Edit}

theorem hooks_concat (t : Table) (edits : List Edit) (e : Edit) (side : Side) (s : State) :
    t.hooks (edits ++ [e]) side s =
      match e.sets? side s with
      | some hook => [hook]
      | none => t.hooks edits side s ++ (e.adds? side s).toList := by
  unfold hooks
  cases he : e.sets? side s with
  | some hook =>
    rw [List.rtakeWhile_concat_neg _ _ _ (by simp [he])]
    simp [he]
  | none =>
    rw [List.rtakeWhile_concat_pos _ _ _ (by simp [he])]
    cases ha : e.adds? side s <;> simp [he, ha]

@[simp] theorem hook?_withHandler (d : Descriptor) (event : Event) (handler : Option Handler) (side : Side) :
    (d.withHandler event handler).hook? side = d.hook? side := by
  cases side <;> rfl

theorem descriptor_modify (t : Table) (state : State) (change : Descriptor → Descriptor) (s : State) :
    (t.modify state change).descriptor s = if s = state then change (t.descriptor s) else t.descriptor s := rfl

theorem descriptor_foldl_handle (event : Event) (handler : Option Handler) (s : State) :
    ∀ (states : List State) (t : Table),
      (states.foldl (fun t state => t.modify state (·.withHandler event handler)) t).descriptor s =
        if s ∈ states then (t.descriptor s).withHandler event handler else t.descriptor s
  | [], _ => rfl
  | state :: states, t => by
    rw [List.foldl_cons, descriptor_foldl_handle event handler s states, descriptor_modify]
    by_cases hs : s = state
    · simp [hs, Descriptor.withHandler_withHandler]
    · simp [hs]

/-- An edit changes the descriptors of the states that it names, and each of them once, however often the state is
    named. -/
theorem descriptor_edit (t : Table) (e : Edit) (s : State) :
    (t.edit e).descriptor s = if s ∈ e.states then e.change (t.descriptor s) else t.descriptor s := by
  cases e with
  | handleIn states event handler => exact descriptor_foldl_handle event (some handler) s states t
  | _ => simp only [edit, descriptor_modify, Edit.states, Edit.change, List.mem_singleton]

theorem hook?_edit (t : Table) (e : Edit) (side : Side) (s : State) :
    ((t.edit e).descriptor s).hook? side =
      match e.sets? side s with
      | some hook => some hook
      | none =>
        match e.adds? side s with
        | some hook => some (Hook.following ((t.descriptor s).hook? side) hook)
        | none => (t.descriptor s).hook? side := by
  rw [descriptor_edit]
  cases e with
  | handle | handleIn | unhandle =>
    simp only [Edit.change, Edit.sets?, Edit.adds?]
    split
    · exact hook?_withHandler ..
    · rfl
  | onEntry state hook | onExit state hook | afterEntry state hook | afterExit state hook =>
    by_cases hs : s = state <;> cases side <;>
      simp [Edit.states, Edit.change, Edit.sets?, Edit.adds?, Descriptor.hook?, Descriptor.afterEntry,
        Descriptor.afterExit, hs, eq_comm]

theorem editAll_concat (t : Table) (edits : List Edit) (e : Edit) :
    t.editAll (edits ++ [e]) = (t.editAll edits).edit e :=
  List.foldl_concat ..

/-- No hook is lost or doubled by the edits that follow it. -/
theorem hook?_editAll (t : Table) (edits : List Edit) (side : Side) (s : State) :
    ((t.editAll edits).descriptor s).hook? side = Hook.chain (t.hooks edits side s) := by
  induction edits using List.reverseRecOn with
  | nil =>
    cases h : (t.descriptor s).hook? side <;> simp [editAll, hooks, Hook.chain, h, List.rtakeWhile]
  | append_singleton edits e ih =>
    rw [editAll_concat, hook?_edit, hooks_concat, ih]
    cases e.sets? side s with
    | some hook => rfl
    | none =>
      cases e.adds? side s with
      | some hook => exact (Hook.chain_concat _ hook).symm
      | none => simp

end Table

/-! ### Requests -/

/-- One event for the engine, and the work that is pending as it is raised. -/
structure Request where
  conference : String
  participant : Participant
  pending : List Action
  event : Event

/-- What a handler sees of a request. -/
def Request.context (request : Request) (room : Room) : Context :=
  room.context request.conference request.participant request.pending request.event

/-- What happens around a handler when the state changes. -/
inductive Stage where
  /-- The hooks for leaving a state run. -/
  | leave (state : State)
  /-- The change is told to those who listen. -/
  | tell (old new : State)
  /-- The hooks for entering a state run. -/
  | enter (state : State)
  deriving DecidableEq

/-- What a stage does after a reaction. Each hook runs once, in order, and sees the state left or entered. -/
def Stage.carryOut (hooks : Side → State → List Hook) (c : Context) (r : Reaction) : Stage → Reaction
  | .leave state => (hooks .exit state).foldl (Context.followUp { c with state }) r
  | .tell old new => { r with deferred := r.deferred ++ [.publish (.stateChanged c.conference old new)] }
  | .enter state => (hooks .entry state).foldl (Context.followUp { c with state }) r

namespace Table
variable (t : Table) (room : Room) (request : Request)

/-- What becomes of a request. -/
def meet : Firing := t.fire request.conference room request.participant request.pending request.event

/-- The room after some requests. -/
def meetAll : Room → List Request → Room := List.foldl fun room request => (t.meet room request).room

/-- What the handler answers, if the state handles the event and the participant may raise it. -/
def answer? : Option Answer :=
  (t.handlerFor? room.state request.participant request.event).map fun handler => handler (request.context room)

/-- The stages of a request. There are none unless the handler asks for another state. -/
def stages : List Stage :=
  match t.answer? room request with
  | some ⟨.ok (some target), _⟩ =>
    if target = room.state then [] else [.leave room.state, .tell room.state target, .enter target]
  | some ⟨.ok none, _⟩ | some ⟨.error _, _⟩ | none => []

/-- The stages of some requests, one request after the other. -/
def allStages : Room → List Request → List Stage
  | _, [] => []
  | room, request :: requests => t.stages room request ++ allStages (t.meet room request).room requests

variable {t room request} {x : State}

/-- A change of state on an edited table goes through its three stages. -/
theorem change_editAll (base : Table) (edits : List Edit) (c : Context) (r : Reaction) (target : State) :
    (base.editAll edits).change c r target =
      [.leave c.state, .tell c.state target, .enter target].foldl (Stage.carryOut (base.hooks edits) c) r := by
  have hexit : ((base.editAll edits).descriptor c.state).exit = Hook.chain (base.hooks edits .exit c.state) :=
    hook?_editAll base edits .exit c.state
  have hentry : ((base.editAll edits).descriptor target).entry = Hook.chain (base.hooks edits .entry target) :=
    hook?_editAll base edits .entry target
  simp only [change, hexit, hentry, runHook_chain, List.foldl_cons, List.foldl_nil, Stage.carryOut]

theorem meet_of_none (h : t.answer? room request = none) : t.meet room request =
    { result := .error (.unhandled request.conference request.participant.id request.event room.state), room
      pending := request.pending } := by
  rw [answer?, Option.map_eq_none_iff] at h
  simp only [meet, fire, h]

theorem meet_of_error {error : BridgeError} {r : Reaction} (h : t.answer? room request = some ⟨.error error, r⟩) :
    t.meet room request =
      { result := .error error, room := ⟨room.state, r.roster⟩, pending := request.pending, notes := r.notes } := by
  obtain ⟨handler, hh, ha⟩ := Option.map_eq_some_iff.mp h
  simp only [Request.context, Room.context] at ha
  simp only [meet, fire, hh, ha, Queue.truncate_append]

theorem meet_of_stay {target : Option State} {r : Reaction} (h : t.answer? room request = some ⟨.ok target, r⟩)
    (hs : target.getD room.state = room.state) :
    t.stages room request = [] ∧ (t.meet room request).result = .ok ⟨room.state, room.state⟩ ∧
      (t.meet room request).room = ⟨room.state, r.roster⟩ ∧
      (t.meet room request).pending = request.pending ++ r.deferred ∧ (t.meet room request).notes = r.notes := by
  have hstages : t.stages room request = [] := by
    cases target with
    | none => simp only [stages, h]
    | some target => simp only [stages, h, if_pos (show target = room.state from hs)]
  obtain ⟨handler, hh, ha⟩ := Option.map_eq_some_iff.mp h
  simp only [Request.context, Room.context] at ha
  simp only [meet, fire, hh, ha, hs]
  exact ⟨hstages, by simp⟩

theorem meet_of_move {target : State} {r : Reaction} (h : t.answer? room request = some ⟨.ok (some target), r⟩)
    (hne : target ≠ room.state) :
    t.stages room request = [.leave room.state, .tell room.state target, .enter target] ∧
      (t.meet room request).result = .ok ⟨room.state, target⟩ ∧
      (t.meet room request).room = ⟨target, (t.change (request.context room) r target).roster⟩ ∧
      (t.meet room request).pending = request.pending ++ (t.change (request.context room) r target).deferred ∧
      (t.meet room request).notes = (t.change (request.context room) r target).notes := by
  have hstages : t.stages room request = [.leave room.state, .tell room.state target, .enter target] := by
    simp only [stages, h, if_neg hne]
  obtain ⟨handler, hh, ha⟩ := Option.map_eq_some_iff.mp h
  simp only [Request.context, Room.context] at ha
  simp only [meet, fire, hh, ha, Option.getD_some]
  refine ⟨hstages, ?_⟩
  simp [hne, Request.context, Room.context]

/-- A request has no stages and keeps the state, or it has three and ends in the state that it enters. -/
theorem stages_cases (t : Table) (room : Room) (request : Request) :
    t.stages room request = [] ∧ (t.meet room request).room.state = room.state ∨
    ∃ target, t.stages room request = [.leave room.state, .tell room.state target, .enter target] ∧
      (t.meet room request).room.state = target := by
  cases h : t.answer? room request with
  | none => exact .inl ⟨by simp only [stages, h], by rw [meet_of_none h]⟩
  | some answer =>
    obtain ⟨result, r⟩ := answer
    cases result with
    | error error => exact .inl ⟨by simp only [stages, h], by rw [meet_of_error h]⟩
    | ok target =>
      by_cases hs : target.getD room.state = room.state
      · obtain ⟨hstages, -, hroom, -⟩ := meet_of_stay h hs
        exact .inl ⟨hstages, by rw [hroom]⟩
      · cases target with
        | none => exact absurd rfl hs
        | some target =>
          obtain ⟨hstages, -, hroom, -⟩ := meet_of_move h hs
          exact .inr ⟨target, hstages, by rw [hroom]⟩

theorem count_stages (t : Table) (room : Room) (request : Request) (x : State) :
    ((t.stages room request).count (.enter x) : Int) - (t.stages room request).count (.leave x) =
      (if (t.meet room request).room.state = x then 1 else 0) - if room.state = x then 1 else 0 := by
  obtain ⟨hstages, hstate⟩ | ⟨target, hstages, hstate⟩ := stages_cases t room request
  · rw [hstages, hstate]
    exact (Int.sub_self _).symm
  · rw [hstages, hstate]
    simp only [List.count_cons, List.count_nil, beq_iff_eq, Stage.enter.injEq, Stage.leave.injEq, reduceCtorEq,
      if_false]
    split_ifs <;> rfl

theorem count_allStages (t : Table) (x : State) : ∀ (requests : List Request) (room : Room),
    ((t.allStages room requests).count (.enter x) : Int) - (t.allStages room requests).count (.leave x) =
      (if (t.meetAll room requests).state = x then 1 else 0) - if room.state = x then 1 else 0
  | [], room => (Int.sub_self _).symm
  | request :: requests, room => by
    have hfirst := count_stages t room request x
    have hrest := count_allStages t x requests (t.meet room request).room
    rw [allStages, List.count_append, List.count_append, meetAll, List.foldl_cons, ← meetAll]
    push_cast
    omega

/-- On every table made by edits, the hooks of a state are the one set last and those added since, and a request
    runs them exactly if its handler asks for another state: first those of the state that is left, which see
    that state, then the change is told, then those of the state that is entered, which see that one. In all
    other cases only the handler has done something: if there is none, if it refuses, and if it does not ask for
    another state. Over any requests a state is entered as often as it is left, and once more or less if the
    requests end or begin in it. -/
theorem hooks_run_once_per_change (base : Table) (edits : List Edit) :
    let t := base.editAll edits
    let hooks := base.hooks edits
    (∀ room request,
      let firing := t.meet room request
      match t.answer? room request with
      | none =>
        t.stages room request = [] ∧
          firing.result = .error (.unhandled request.conference request.participant.id request.event room.state) ∧
          firing.room = room ∧ firing.pending = request.pending ∧ firing.notes = []
      | some ⟨.error error, r⟩ =>
        t.stages room request = [] ∧ firing.result = .error error ∧ firing.room = ⟨room.state, r.roster⟩ ∧
          firing.pending = request.pending ∧ firing.notes = r.notes
      | some ⟨.ok target, r⟩ =>
        let new := target.getD room.state
        let done := (t.stages room request).foldl (Stage.carryOut hooks (request.context room)) r
        t.stages room request =
          (if new = room.state then [] else [.leave room.state, .tell room.state new, .enter new]) ∧
        firing.result = .ok ⟨room.state, new⟩ ∧ firing.room = ⟨new, done.roster⟩ ∧
          firing.pending = request.pending ++ done.deferred ∧ firing.notes = done.notes) ∧
    ∀ room requests x,
      ((t.allStages room requests).count (.enter x) : Int) - (t.allStages room requests).count (.leave x) =
        (if (t.meetAll room requests).state = x then 1 else 0) - if room.state = x then 1 else 0 := by
  intro t hooks
  refine ⟨fun room request => ?_, fun room requests x => count_allStages t x requests room⟩
  intro firing
  split
  · rename_i h
    have hmeet : firing = _ := meet_of_none h
    rw [hmeet]
    exact ⟨by simp only [stages, h], rfl, rfl, rfl, rfl⟩
  · rename_i error r h
    have hmeet : firing = _ := meet_of_error h
    rw [hmeet]
    exact ⟨by simp only [stages, h], rfl, rfl, rfl, rfl⟩
  · rename_i target r h
    intro new done
    by_cases hs : new = room.state
    · obtain ⟨hstages, hresult, hroom, hpending, hnotes⟩ := meet_of_stay h hs
      have hdone : done = r := by simp only [done, hstages, List.foldl_nil]
      rw [if_pos hs, hdone, hs]
      exact ⟨hstages, hresult, hroom, hpending, hnotes⟩
    · cases target with
      | none => exact absurd rfl hs
      | some target =>
        obtain ⟨hstages, hresult, hroom, hpending, hnotes⟩ := meet_of_move h hs
        have hdone : done = t.change (request.context room) r target := by
          rw [change_editAll]
          simp only [done, hstages]
          rfl
        rw [if_neg hs, hdone]
        exact ⟨hstages, hresult, hroom, hpending, hnotes⟩

/-- A hook is set twice and two are added. A change of state runs the one set last and then those added, once
    each, and asking for the state that is there already runs none. -/
example :
    let note (text : String) : Hook := fun c => { c.idle with notes := [⟨text, c⟩] }
    let t := bare.editAll [
      .handleIn [.empty, .single] (.join .unmarked) fun c => ⟨.ok (some .single), c.idle⟩,
      .onEntry .single (note "replaced"), .onEntry .single (note "set"), .afterEntry .single (note "added"),
      .afterExit .empty (note "left"), .afterEntry .single (note "added last")]
    let request : Request := ⟨"room", ⟨"a", .plain⟩, [], .join .unmarked⟩
    let seen (firing : Firing) := firing.notes.map fun n => (n.text, n.seen.state)
    let firing := t.meet {} request
    seen firing = [("left", .empty), ("set", .single), ("added", .single), ("added last", .single)] ∧
      firing.pending = [.publish (.stateChanged "room" .empty .single)] ∧
      seen (t.meet firing.room request) = [] := by
  decide

end Table
end ConferenceBridge
