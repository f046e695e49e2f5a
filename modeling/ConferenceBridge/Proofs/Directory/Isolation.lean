import ConferenceBridge.Proofs.Directory.Visits
import ConferenceBridge.Proofs.Surroundings

/-! Conferences side by side in one directory. Whatever else the same participants attend, a conference goes through
    many visits to many conferences as it goes through the visits that are its own. -/

namespace ConferenceBridge
open Directory

/-! ### What the surroundings keep apart -/

/-- A host that keeps conferences apart: what is asked for in a conference is answered by what can be seen of the
    world from there, and cannot be seen from another. Logging and listening cannot be seen from any. -/
structure Host.KeepsApart {σ τ : Type} (host : Host σ) (view : String → σ → τ) : Prop where
  own : ∀ {name w v} action, view name w = view name v →
    (host.call name action w).1 = (host.call name action v).1 ∧
      view name (host.call name action w).2 = view name (host.call name action v).2
  others : ∀ {name other} action w, other ≠ name → view other (host.call name action w).2 = view other w
  log : ∀ name line w, view name (host.log line w) = view name w
  listener : ∀ name n w, view name (host.listener.notify n w) = view name w

theorem Call.each_ok {σ α : Type} {call : α → Call σ} (h : ∀ a w, (call a w).1 = .ok ()) : ∀ (as : List α) (w : σ),
    (Call.each call as w).1 = .ok ()
  | [], _ => rfl
  | a :: as, w => by
    have ha := h a w
    unfold Call.each
    rcases hcall : call a w with ⟨_ | _, v⟩ <;> rw [hcall] at ha
    · cases ha
    · exact each_ok h as v

/-- A host keeps conferences apart if its answers do not depend on what has been asked before. -/
theorem Host.keepsApart_of_constant {σ : Type} {host : Host σ}
    (h : ∀ name action w v, (host.call name action w).1 = (host.call name action v).1) :
    host.KeepsApart fun _ _ => () where
  own {name w v} action _ := ⟨h name action w v, rfl⟩
  others _ _ _ := rfl
  log _ _ _ := rfl
  listener _ _ _ := rfl

/-- A host that only writes a log keeps them apart. -/
theorem Host.keepsApart_logging {σ : Type} (log : Log.Line → σ → σ) : (Host.logging log).KeepsApart fun _ _ => () := by
  have carried : ∀ name action w, ((Host.logging log).call name action w).1 = .ok () := by
    intro name action w
    cases action with
    | releaseAll ps => exact Call.each_ok (fun _ _ => rfl) ps w
    | _ => rfl
  exact keepsApart_of_constant fun name action w v => (carried name action w).trans (carried name action v).symm

namespace Host.KeepsApart
variable {σ τ : Type} {host : Host σ} {view : String → σ → τ} {name other : String} {w v : σ}

theorem logAll (h : host.KeepsApart view) (name : String) (lines : List Log.Line) (w : σ) :
    view name (host.logAll lines w) = view name w := by
  induction lines generalizing w with
  | nil => rfl
  | cons line lines ih => exact (ih (host.log line w)).trans (h.log name line w)

theorem perform_own (h : host.KeepsApart view) (hv : view name w = view name v) (action : Action) :
    (host.perform name action w).1 = (host.perform name action v).1 ∧
      view name (host.perform name action w).2 = view name (host.perform name action v).2 :=
  h.own action (by rw [h.log, h.log, hv])

theorem perform_others (h : host.KeepsApart view) (hne : other ≠ name) (action : Action) (w : σ) :
    view other (host.perform name action w).2 = view other w := (h.others action _ hne).trans (h.log other _ w)

theorem step_own (h : host.KeepsApart view) (hv : view name w = view name v) (done : Report) (action : Action) :
    (host.step name (done, w) action).1 = (host.step name (done, v) action).1 ∧
      view name (host.step name (done, w) action).2 = view name (host.step name (done, v) action).2 := by
  obtain ⟨hresult, hview⟩ := h.perform_own hv action
  unfold Host.step
  rcases hw : host.perform name action w with ⟨result, w'⟩
  rcases hv : host.perform name action v with ⟨result', v'⟩
  rw [hw, hv] at hresult hview
  obtain rfl : result = result' := hresult
  cases result with
  | ok _ => exact ⟨rfl, hview⟩
  | error e => exact ⟨rfl, by rw [h.log, h.log, hview]⟩

theorem step_others (h : host.KeepsApart view) (hne : other ≠ name) (done : Report × σ) (action : Action) :
    view other (host.step name done action).2 = view other done.2 := by
  have hview := h.perform_others hne action done.2
  unfold Host.step
  rcases hd : host.perform name action done.2 with ⟨_ | _, v⟩ <;> rw [hd] at hview
  · exact (h.log ..).trans hview
  · exact hview

theorem foldl_step_own (h : host.KeepsApart view) : ∀ (actions : List Action) {w v : σ} (done : Report),
    view name w = view name v →
    (actions.foldl (host.step name) (done, w)).1 = (actions.foldl (host.step name) (done, v)).1 ∧
      view name (actions.foldl (host.step name) (done, w)).2 = view name (actions.foldl (host.step name) (done, v)).2
  | [], _, _, _, hv => ⟨rfl, hv⟩
  | action :: actions, w, v, done, hv => by
    obtain ⟨hdone, hview⟩ := h.step_own hv done action
    have hrest := h.foldl_step_own actions (host.step name (done, w) action).1 hview
    rw [List.foldl_cons, List.foldl_cons]
    refine hrest.imp (fun h => h.trans ?_) (fun h => h.trans ?_) <;> rw [hdone]

theorem foldl_step_others (h : host.KeepsApart view) (hne : other ≠ name) : ∀ (actions : List Action) (done : Report × σ),
    view other (actions.foldl (host.step name) done).2 = view other done.2
  | [], _ => rfl
  | action :: actions, done => (h.foldl_step_others hne actions _).trans (h.step_others hne done action)

theorem tellRefusal (h : host.KeepsApart view) (name conference id : String) (event : Event) (e : BridgeError) (w : σ) :
    view name (Conference.tellRefusal host conference id event e w) = view name w := by
  cases e with
  | unhandled _ _ _ state =>
    exact (h.listener name (.invalidEvent conference id event state) _).trans (h.log name _ w)
  | _ => exact h.log name _ w

/-- What a conference makes of an event depends on the world only by what it can see of it. -/
theorem apply_own (h : host.KeepsApart view) {c : Conference} (hv : view c.name w = view c.name v) (caller : Caller)
    (e : Event) :
    (c.apply host caller e w).result = (c.apply host caller e v).result ∧
      view c.name (c.apply host caller e w).world = view c.name (c.apply host caller e v).world := by
  cases hr : (c.fire caller e).result with
  | error error =>
    rw [Conference.apply_of_error hr, Conference.apply_of_error hr]
    simp only [h.tellRefusal, h.logAll, hv, and_self]
  | ok transition =>
    let line := Conference.appliedLine c.name caller.participant.id e (c.sequence + 1) transition
    have hlogged : view c.name (host.log line (host.logAll (c.fire caller e).log w)) =
        view c.name (host.log line (host.logAll (c.fire caller e).log v)) := by
      rw [h.log, h.log, h.logAll, h.logAll, hv]
    obtain ⟨hwork, hview⟩ := h.foldl_step_own (c.fire caller e).pending {} hlogged
    rw [Conference.apply_of_ok hr, Conference.apply_of_ok hr]
    simp only [performAll]
    exact ⟨by rw [hwork], hview⟩

/-- Nothing of what a conference makes of an event can be seen from another. -/
theorem apply_others (h : host.KeepsApart view) {c : Conference} (hne : other ≠ c.name) (caller : Caller) (e : Event)
    (w : σ) : view other (c.apply host caller e w).world = view other w := by
  cases hr : (c.fire caller e).result with
  | error error =>
    rw [Conference.apply_of_error hr]
    exact (h.tellRefusal ..).trans (h.logAll ..)
  | ok transition =>
    rw [Conference.apply_of_ok hr]
    exact ((h.foldl_step_others hne _ _).trans (h.log ..)).trans (h.logAll ..)

end Host.KeepsApart

/-! ### The same visit in two worlds -/

/-- The same visit, met in two worlds. The conference comes out the same, and so does the answer but for how much of
    the work could be carried out; where the host keeps conferences apart it is the same answer, and the conference
    sees the same afterwards. -/
structure Met.Matches {σ τ : Type} (host : Host σ) (view : String → σ → τ) (name : String) (m m' : Met σ) : Prop where
  conference : m.conference = m'.conference
  answer : ∃ deferred, SameAnswer deferred m.result m'.result
  exactly : host.KeepsApart view → m.result = m'.result ∧ view name m.world = view name m'.world

namespace Met.Matches
variable {σ τ : Type} {host : Host σ} {view : String → σ → τ} {name : String} {m m' : Met σ}

theorem of_apply {c : Conference} {w w' : σ} (hw : host.KeepsApart view → view c.name w = view c.name w')
    (caller : Caller) (e : Event) :
    Matches host view c.name (.of (c.apply host caller e w)) (.of (c.apply host caller e w')) where
  conference := congrArg some (c.apply_unmoved caller e host host w w').1
  answer := ⟨_, Conference.apply_sameAnswer host host w w'⟩
  exactly h := h.apply_own (hw h) caller e

theorem tidy (h : Matches host view name m m') : Matches host view name (m.tidy host name) (m'.tidy host name) := by
  unfold Met.tidy
  rw [← h.conference]
  split
  · refine ⟨rfl, h.answer, fun apart => ⟨(h.exactly apart).1, ?_⟩⟩
    rw [apart.log, apart.log, (h.exactly apart).2]
  · exact h

theorem tidy_of_error (h : Matches host view name m m') :
    Matches host view name
      (match m.result with
        | .ok _ => m
        | .error _ => m.tidy host name)
      (match m'.result with
        | .ok _ => m'
        | .error _ => m'.tidy host name) := by
  obtain ⟨_, hanswer⟩ := h.answer
  generalize hr : m.result = result at hanswer ⊢
  generalize hr' : m'.result = result' at hanswer ⊢
  cases hanswer with
  | refused _ => exact h.tidy
  | accepted _ _ _ _ => exact h

end Met.Matches

namespace Visit
variable {σ τ : Type} {host : Host σ} {view : String → σ → τ} {settings : ConferenceSettings} {table : Table}
  {p : Participant} {v : Visit} {here : Option Conference} {w w' : σ}

theorem meet_matches (hn : ∀ c, here = some c → c.name = v.name)
    (hw : host.KeepsApart view → view v.name w = view v.name w') :
    Met.Matches host view v.name (v.meet host settings table p here w) (v.meet host settings table p here w') := by
  cases v with
  | join name i =>
    cases here with
    | some c =>
      obtain rfl : c.name = name := hn c rfl
      exact .of_apply hw _ _
    | none =>
      refine Met.Matches.tidy_of_error (.of_apply (c := .fresh name settings table) (fun apart => ?_) _ _)
      exact (apart.log ..).trans ((hw apart).trans (apart.log ..).symm)
  | leave name i =>
    cases here with
    | some c =>
      obtain rfl : c.name = name := hn c rfl
      exact .tidy (.of_apply hw _ _)
    | none => exact ⟨rfl, ⟨0, .refused _⟩, fun apart => ⟨rfl, hw apart⟩⟩

theorem view_tidy (apart : host.KeepsApart view) (other name : String) (m : Met σ) :
    view other (m.tidy host name).world = view other m.world := by
  unfold Met.tidy
  split
  · exact apart.log ..
  · rfl

/-- A visit cannot be seen from another conference. -/
theorem view_meet (apart : host.KeepsApart view) (hn : ∀ c, here = some c → c.name = v.name) {other : String}
    (hne : other ≠ v.name) : view other (v.meet host settings table p here w).world = view other w := by
  cases v with
  | join name i =>
    cases here with
    | some c =>
      obtain rfl : c.name = name := hn c rfl
      exact apart.apply_others hne _ _ w
    | none =>
      have hjoined := (apart.apply_others (c := .fresh name settings table) hne { participant := p } p.joinEvent
        (host.log (Log.info ("Created conference '" ++ name ++ "'")) w)).trans (apart.log other _ w)
      unfold meet
      dsimp only
      split
      · exact hjoined
      · exact (view_tidy apart ..).trans hjoined
  | leave name i =>
    cases here with
    | some c =>
      obtain rfl : c.name = name := hn c rfl
      exact (view_tidy apart ..).trans (apart.apply_others hne _ _ w)
    | none => rfl

end Visit

/-! ### Runs -/

/-- What is seen of a conference at a visit: what the caller is told and, once the visit is over, whether the name is
    registered and what the conference is like. -/
structure Receipt where
  visit : Visit
  answer : Except BridgeError Outcome
  registered : Bool
  snapshot : Option Snapshot

/-- Two receipts that differ at most in how much of the work could be carried out. -/
structure Receipt.Similar (r r' : Receipt) : Prop where
  visit : r.visit = r'.visit
  answer : ∃ deferred, SameAnswer deferred r.answer r'.answer
  registered : r.registered = r'.registered
  snapshot : r.snapshot = r'.snapshot

namespace Exchange
variable {σ τ : Type} {host : Host σ} {view : String → σ → τ} {s t : Exchange σ} {settings : DirectorySettings}
  {table : Table} {people : Nat → Participant} {name : String} {v : Visit}

/-- A visit to the directory of the exchange. -/
def visit (host : Host σ) (s : Exchange σ) (v : Visit) : Raised σ :=
  s.directory.visit host v (s.callers v.caller) s.world

def receipt (host : Host σ) (s : Exchange σ) (v : Visit) : Receipt :=
  let after := (s.step host v.request).directory
  { visit := v
    answer := (s.visit host v).result
    registered := after.isRegistered v.name
    snapshot := (after.conference? v.name).map (·.snapshot) }

/-- The receipts of some visits that are made one after the other. -/
def receipts (host : Host σ) : Exchange σ → List Visit → List Receipt
  | _, [] => []
  | s, v :: visits => s.receipt host v :: receipts host (s.step host v.request) visits

/-- The exchange after some visits. -/
def attended (host : Host σ) (s : Exchange σ) (visits : List Visit) : Exchange σ := s.run host (visits.map (·.request))

/-- Nobody holds a conference or has work pending. -/
structure AtRest (settings : DirectorySettings) (table : Table) (people : Nat → Participant) (s : Exchange σ) : Prop where
  directory : s.directory.Shows settings table s.directory.conference?
  people : ∀ i, (s.callers i).participant = people i
  drained : ∀ i, (s.callers i).pending = []

theorem atRest_start {d : Directory} (h : create settings table = .ok d) (hunlimited : settings.maxConferences = none)
    (people : Nat → Participant) (w : σ) : (start d people w).AtRest settings table people := by
  have hd := Shows.of_create h hunlimited
  exact ⟨hd.rooms_eq ▸ hd, fun _ => rfl, fun _ => rfl⟩

theorem step_visit (host : Host σ) (s : Exchange σ) (v : Visit) :
    (s.step host v.request).directory = (s.visit host v).directory ∧
      (s.step host v.request).callers = Function.update s.callers v.caller (s.visit host v).caller ∧
      (s.step host v.request).world = (s.visit host v).world := by
  cases v <;> exact ⟨rfl, rfl, rfl⟩

/-- What a visit of the exchange comes to in the conference of its name. -/
def met (host : Host σ) (settings : DirectorySettings) (table : Table) (people : Nat → Participant) (s : Exchange σ)
    (v : Visit) : Met σ :=
  v.meet host settings.conference table (people v.caller) (s.directory.conference? v.name) s.world

theorem AtRest.visit (h : s.AtRest settings table people) (host : Host σ) (v : Visit) :
    (s.visit host v).Meets (s.met host settings table people v) settings table s.directory.conference? v.name
      (people v.caller) := by
  rw [met, ← h.people v.caller]
  exact h.directory.visit (h.drained v.caller) host v s.world

theorem AtRest.conferences_step (h : s.AtRest settings table people) (host : Host σ) (v : Visit) :
    (s.step host v.request).directory.conference? =
      Function.update s.directory.conference? v.name (s.met host settings table people v).conference := by
  rw [(step_visit host s v).1]
  exact (h.visit host v).directory.rooms_eq

theorem AtRest.step (h : s.AtRest settings table people) (host : Host σ) (v : Visit) :
    (s.step host v.request).AtRest settings table people := by
  obtain ⟨hd, hc, -⟩ := step_visit host s v
  have hmeets := h.visit host v
  refine ⟨?_, fun i => ?_, fun i => ?_⟩
  · have hshows := hmeets.directory
    rw [hd, hshows.rooms_eq]
    exact hshows
  · rw [hc]
    by_cases hi : i = v.caller
    · rw [hi, Function.update_self]
      exact hmeets.caller
    · rw [Function.update_of_ne hi]
      exact h.people i
  · rw [hc]
    by_cases hi : i = v.caller
    · rw [hi, Function.update_self]
      exact hmeets.drained
    · rw [Function.update_of_ne hi]
      exact h.drained i

/-- Two exchanges in which the conference of this name is the same. -/
structure Alike (host : Host σ) (view : String → σ → τ) (settings : DirectorySettings) (table : Table)
    (people : Nat → Participant) (name : String) (s t : Exchange σ) : Prop where
  left : s.AtRest settings table people
  right : t.AtRest settings table people
  conference : s.directory.conference? name = t.directory.conference? name
  view : host.KeepsApart view → view name s.world = view name t.world

/-- A visit to another conference. -/
theorem Alike.step_other (h : Alike host view settings table people name s t) (hne : v.name ≠ name) :
    Alike host view settings table people name (s.step host v.request) t where
  left := h.left.step host v
  right := h.right
  conference := by
    rw [h.left.conferences_step host v, Function.update_of_ne (Ne.symm hne)]
    exact h.conference
  view apart := by
    rw [(step_visit host s v).2.2, (h.left.visit host v).world]
    exact (Visit.view_meet apart (fun _ => name_of_conference?) (Ne.symm hne)).trans (h.view apart)

theorem Alike.met (h : Alike host view settings table people v.name s t) :
    Met.Matches host view v.name (s.met host settings table people v) (t.met host settings table people v) := by
  unfold Exchange.met
  rw [← h.conference]
  exact Visit.meet_matches (fun _ => name_of_conference?) h.view

/-- A visit to this conference, in both. -/
theorem Alike.step_own (h : Alike host view settings table people v.name s t) :
    Alike host view settings table people v.name (s.step host v.request) (t.step host v.request) where
  left := h.left.step host v
  right := h.right.step host v
  conference := by
    rw [h.left.conferences_step host v, h.right.conferences_step host v, Function.update_self, Function.update_self]
    exact h.met.conference
  view apart := by
    rw [(step_visit host s v).2.2, (step_visit host t v).2.2, (h.left.visit host v).world, (h.right.visit host v).world]
    exact (h.met.exactly apart).2

theorem Alike.receipt (h : Alike host view settings table people v.name s t) :
    (s.receipt host v).Similar (t.receipt host v) ∧ (host.KeepsApart view → s.receipt host v = t.receipt host v) := by
  have hafter := h.step_own.conference
  have hregistered : (s.receipt host v).registered = (t.receipt host v).registered := by
    simp only [Exchange.receipt, isRegistered_eq, hafter]
  have hsnapshot : (s.receipt host v).snapshot = (t.receipt host v).snapshot := by
    simp only [Exchange.receipt, hafter]
  have hleft : (s.receipt host v).answer = (s.met host settings table people v).result := (h.left.visit host v).result
  have hright : (t.receipt host v).answer = (t.met host settings table people v).result := (h.right.visit host v).result
  refine ⟨⟨rfl, ?_, hregistered, hsnapshot⟩, fun apart => ?_⟩
  · rw [hleft, hright]
    exact h.met.answer
  · have hanswer : (s.receipt host v).answer = (t.receipt host v).answer := by
      rw [hleft, hright, (h.met.exactly apart).1]
    exact Receipt.mk.injEq .. ▸ ⟨rfl, hanswer, hregistered, hsnapshot⟩

/-- Visits to all conferences on the one side, and on the other only those to this one. -/
theorem Alike.run (h : Alike host view settings table people name s t) (visits : List Visit) :
    List.Forall₂ (fun r r' => r.Similar r' ∧ (host.KeepsApart view → r = r'))
        ((s.receipts host visits).filter (·.visit.name == name)) (t.receipts host (visits.filter (·.name == name))) ∧
      Alike host view settings table people name (s.attended host visits)
        (t.attended host (visits.filter (·.name == name))) := by
  -- What is carried along is that the conference is the same in both; only own visits advance the second one.
  induction visits generalizing s t with
  | nil => exact ⟨.nil, h⟩
  | cons v visits ih =>
    by_cases hv : v.name = name
    · subst hv
      have hown : (v :: visits).filter (·.name == v.name) = v :: visits.filter (·.name == v.name) :=
        List.filter_cons_of_pos (beq_self_eq_true v.name)
      have hseen : (s.receipts host (v :: visits)).filter (·.visit.name == v.name) =
          s.receipt host v :: ((s.step host v.request).receipts host visits).filter (·.visit.name == v.name) :=
        List.filter_cons_of_pos (beq_self_eq_true v.name)
      obtain ⟨hreceipts, hrun⟩ := ih h.step_own
      rw [hown, hseen]
      exact ⟨.cons h.receipt hreceipts, hrun⟩
    · have hother : ¬(v.name == name) = true := fun heq => hv (beq_iff_eq.mp heq)
      have hown : (v :: visits).filter (·.name == name) = visits.filter (·.name == name) :=
        List.filter_cons_of_neg hother
      have hseen : (s.receipts host (v :: visits)).filter (·.visit.name == name) =
          ((s.step host v.request).receipts host visits).filter (·.visit.name == name) :=
        List.filter_cons_of_neg hother
      rw [hown, hseen]
      exact ih (h.step_other hv)

/-- Visits to any conferences, made one after the other by any participants, in a directory that takes any number of
    them. Those to one conference see what they would see if no others were made: the same answers, but for how much
    of the work could be carried out, and after each the same name registered with the same snapshot. Where the host
    keeps conferences apart they see exactly the same. Once the visits are over, the conference is the same. -/
theorem conferences_apart {σ τ : Type} {settings : DirectorySettings} {table : Table} {d : Directory}
    (h : create settings table = .ok d) (hunlimited : settings.maxConferences = none) (host : Host σ)
    (view : String → σ → τ) (people : Nat → Participant) (w : σ) (visits : List Visit) (name : String) :
    let s := start d people w
    let own := visits.filter (·.name == name)
    let seen := (s.receipts host visits).filter (·.visit.name == name)
    List.Forall₂ Receipt.Similar seen (s.receipts host own) ∧
      (host.KeepsApart view → seen = s.receipts host own) ∧
      (s.attended host visits).directory.conference? name = (s.attended host own).directory.conference? name := by
  intro s own seen
  have begun : s.AtRest settings table people := atRest_start h hunlimited people w
  have same : Alike host view settings table people name s s := ⟨begun, begun, rfl, fun _ => rfl⟩
  obtain ⟨hreceipts, hrun⟩ := same.run visits
  refine ⟨hreceipts.imp fun _ _ h => h.1, fun apart => ?_, hrun.conference⟩
  have hequal : List.Forall₂ (· = ·) seen (s.receipts host own) := hreceipts.imp fun _ _ h => h.2 apart
  rwa [List.forall₂_eq_eq_eq] at hequal

/-- Every conference has a mixer of its own, which takes one participant. Two come to one conference, and the first
    of them goes on to another one. -/
theorem mixers_apart :
    let d : Directory := { settings := {}, table := .standard }
    let quiet : Host (String → Nat) := .logging fun _ => id
    let mix (c : String) : Call (String → Nat) := fun w =>
      if w c = 0 then (.ok (), Function.update w c 1) else (.error (.mediaFailed "mixer in use"), w)
    let host : Host (String → Nat) := { quiet with
      media := { quiet.media with mix := fun c _ => mix c, releaseAll := fun _ _ => Call.done } }
    let s := start d (fun i => ⟨toString i, .plain⟩) fun _ => 0
    let visits := [.join "red" 0, .join "blue" 0, .join "red" 1, .leave "blue" 0, .leave "red" 0]
    create {} .standard = .ok d ∧ host.KeepsApart (fun name w => w name) ∧
      (s.receipts host visits).filter (·.visit.name == "red") =
        s.receipts host [.join "red" 0, .join "red" 1, .leave "red" 0] := by
  intro d quiet mix host s visits
  have made : create {} .standard = .ok d := rfl
  have apart : host.KeepsApart fun name w => w name := by
    refine ⟨fun {name w v} action hw => ?_, fun {name other} action w hne => ?_, fun _ _ _ => rfl, fun _ n _ => ?_⟩
    · cases action with
      | mix p =>
        show (mix name w).1 = (mix name v).1 ∧ (mix name w).2 name = (mix name v).2 name
        by_cases h0 : w name = 0
        · simp [mix, h0, ← hw]
        · simp [mix, h0, ← hw]
      | publish n => cases n <;> exact ⟨rfl, hw⟩
      | _ => exact ⟨rfl, hw⟩
    · cases action with
      | mix p =>
        show (mix name w).2 other = w other
        by_cases h0 : w name = 0
        · simp [mix, h0, Function.update_of_ne hne]
        · simp [mix, h0]
      | publish n => cases n <;> rfl
      | _ => rfl
    · cases n <;> rfl
  obtain ⟨-, exactly, -⟩ := conferences_apart made rfl host (fun name w => w name) (fun i => ⟨toString i, .plain⟩)
    (fun _ => 0) visits "red"
  exact ⟨made, apart, exactly apart⟩

end Exchange
end ConferenceBridge
