import ConferenceBridge.Host
import Mathlib.Data.List.Forall2

/-! Who is handed to the media side for mixing. Deferred work goes on past a failure, so every action has its turn. A
    media side without a way of its own to release a waiting set mixes it one by one, and gives up the others at the
    first that fails. -/

namespace ConferenceBridge

/-- The participants that are to be mixed into the live audio. -/
def Action.named : Action → List Participant
  | .mix p => [p]
  | .releaseAll ps => ps
  | _ => []

/-- A participant that is handed over for mixing, and whether the call that does so fails. -/
structure Handover where
  participant : Participant
  failed : Bool
  deriving DecidableEq

/-- The call, and a note of the participants that it hands over. -/
def Call.tallied {σ : Type} (ps : List Participant) (call : Call σ) : Call (σ × List Handover) := fun w =>
  let (result, v) := call w.1
  (result, v, w.2 ++ ps.map (⟨·, !result.isOk⟩))

/-- The media side without a way of its own to release a waiting set. -/
def Media.oneByOne {σ : Type} (m : Media σ) : Media σ :=
  { wait := m.wait, mix := m.mix, endSolo := m.endSolo, kick := m.kick, playPrompt := m.playPrompt
    announce := m.announce }

/-- Whom the calls for a waiting set reach, one after the other until one fails. -/
inductive Reached : List Participant → List Handover → Prop
  | nil : Reached [] []
  | mixed (p : Participant) {ps : List Participant} {notes : List Handover} (rest : Reached ps notes) :
      Reached (p :: ps) (⟨p, false⟩ :: notes)
  | failed (p : Participant) (ps : List Participant) : Reached (p :: ps) [⟨p, true⟩]

/-- Whom an action hands over where a waiting set is mixed one by one. -/
inductive Asked : Action → List Handover → Prop
  | mix (p : Participant) (failed : Bool) : Asked (.mix p) [⟨p, failed⟩]
  | releaseAll {ps : List Participant} {notes : List Handover} (reached : Reached ps notes) :
      Asked (.releaseAll ps) notes
  | other {action : Action} (none : action.named = []) : Asked action []

theorem Reached.prefix {ps : List Participant} {notes : List Handover} (h : Reached ps notes) :
    notes.map (·.participant) <+: ps := by
  induction h with
  | nil => exact List.nil_prefix
  | mixed p _ ih => exact (List.prefix_cons_inj p).mpr ih
  | failed p ps => exact (List.prefix_cons_inj p).mpr List.nil_prefix

theorem Reached.all {ps : List Participant} {notes : List Handover} (h : Reached ps notes)
    (mixed : ∀ x ∈ notes, x.failed = false) : notes.map (·.participant) = ps := by
  induction h with
  | nil => rfl
  | mixed p _ ih => exact congrArg (p :: ·) (ih fun x hx => mixed x (List.mem_cons_of_mem _ hx))
  | failed p ps => exact Bool.noConfusion (mixed _ List.mem_cons_self)

theorem Asked.prefix {action : Action} {notes : List Handover} (h : Asked action notes) :
    notes.map (·.participant) <+: action.named := by
  cases h with
  | mix p failed => exact List.prefix_rfl
  | releaseAll reached => exact reached.prefix
  | other none => exact List.nil_prefix

theorem Asked.all {action : Action} {notes : List Handover} (h : Asked action notes)
    (mixed : ∀ x ∈ notes, x.failed = false) : notes.map (·.participant) = action.named := by
  cases h with
  | mix p failed => rfl
  | releaseAll reached => exact reached.all mixed
  | other none => exact none.symm

theorem named_of_each {actions : List Action} {pieces : List (List Handover)}
    (h : List.Forall₂ (fun action notes => notes.map (·.participant) = action.named) actions pieces) :
    pieces.flatten.map (·.participant) = actions.flatMap (·.named) := by
  induction h with
  | nil => rfl
  | cons hnotes _ ih => rw [List.flatten_cons, List.map_append, List.flatMap_cons, hnotes, ih]

theorem sublist_of_asked {actions : List Action} {pieces : List (List Handover)} (h : List.Forall₂ Asked actions pieces) :
    (pieces.flatten.map (·.participant)).Sublist (actions.flatMap (·.named)) := by
  induction h with
  | nil => exact List.Sublist.refl _
  | cons hnotes _ ih =>
    rw [List.flatten_cons, List.map_append, List.flatMap_cons]
    exact hnotes.prefix.sublist.append ih

theorem named_of_asked {actions : List Action} {pieces : List (List Handover)} (h : List.Forall₂ Asked actions pieces)
    (mixed : ∀ x ∈ pieces.flatten, x.failed = false) :
    List.Forall₂ (fun action notes => notes.map (·.participant) = action.named) actions pieces := by
  induction h with
  | nil => exact .nil
  | cons hnotes _ ih =>
    rw [List.flatten_cons, List.forall_mem_append] at mixed
    exact .cons (hnotes.all mixed.1) (ih mixed.2)

namespace Host
variable {σ : Type}

/-- The host whose media side has no way of its own to release a waiting set. -/
def oneByOne (host : Host σ) : Host σ := { host with media := host.media.oneByOne }

/-- A host that also notes who is handed over for mixing. It is no other host otherwise. -/
def tallying (host : Host σ) : Host (σ × List Handover) where
  media :=
    { wait := fun c p => (host.media.wait c p).tallied []
      mix := fun c p => (host.media.mix c p).tallied [p]
      endSolo := fun c p => (host.media.endSolo c p).tallied []
      releaseAll := fun c ps => (host.media.releaseAll c ps).tallied ps
      kick := fun c p => (host.media.kick c p).tallied []
      playPrompt := fun c id prompt => (host.media.playPrompt c id prompt).tallied []
      announce := fun c prompt => (host.media.announce c prompt).tallied [] }
  listener := .publishing fun n w => (host.listener.notify n w.1, w.2)
  log line w := (host.log line w.1, w.2)

/-- One host notes what another does in this conference: each action hands over as it should, and is no other action
    otherwise. -/
structure Tallies (noting : Host (σ × List Handover)) (host : Host σ) (conference : String)
    (hands : Action → List Handover → Prop) : Prop where
  call : ∀ action w seen, ∃ notes, hands action notes ∧ noting.call conference action (w, seen) =
    ((host.call conference action w).1, (host.call conference action w).2, seen ++ notes)
  log : ∀ line w seen, noting.log line (w, seen) = (host.log line w, seen)

variable {noting : Host (σ × List Handover)} {host : Host σ} {conference : String}
  {hands : Action → List Handover → Prop}

theorem Tallies.step (h : noting.Tallies host conference hands) (done : Report) (w : σ) (seen : List Handover)
    (action : Action) :
    ∃ notes, hands action notes ∧ noting.step conference (done, w, seen) action =
      ((host.step conference (done, w) action).1, (host.step conference (done, w) action).2, seen ++ notes) := by
  obtain ⟨notes, hnotes, hcall⟩ :=
    h.call action (host.log (Log.debug ("Executing action: " ++ action.describe)) w) seen
  refine ⟨notes, hnotes, ?_⟩
  have hperform : noting.perform conference action (w, seen) =
      ((host.perform conference action w).1, (host.perform conference action w).2, seen ++ notes) := by
    rw [perform, h.log, hcall]
    rfl
  unfold Host.step
  rw [hperform]
  rcases host.perform conference action w with ⟨_ | e, v⟩
  · exact congrArg _ (h.log ..)
  · rfl

theorem Tallies.foldl_step (h : noting.Tallies host conference hands) : ∀ (actions : List Action) (done : Report) (w : σ)
    (seen : List Handover),
    ∃ pieces, List.Forall₂ hands actions pieces ∧ actions.foldl (noting.step conference) (done, w, seen) =
      ((actions.foldl (host.step conference) (done, w)).1, (actions.foldl (host.step conference) (done, w)).2,
        seen ++ pieces.flatten)
  | [], _, _, _ => ⟨[], .nil, by simp⟩
  | action :: actions, done, w, seen => by
    obtain ⟨notes, hnotes, hstep⟩ := h.step done w seen action
    obtain ⟨pieces, hpieces, hrest⟩ := h.foldl_step actions (host.step conference (done, w) action).1
      (host.step conference (done, w) action).2 (seen ++ notes)
    refine ⟨notes :: pieces, .cons hnotes hpieces, ?_⟩
    rw [List.foldl_cons, hstep, hrest, List.foldl_cons, List.flatten_cons, List.append_assoc]

/-- Every action is carried out, whatever fails, and each hands over as it should. -/
theorem Tallies.performAll (h : noting.Tallies host conference hands) (actions : List Action) (w : σ) :
    ∃ pieces, List.Forall₂ hands actions pieces ∧ noting.performAll conference actions (w, []) =
      ((host.performAll conference actions w).1, (host.performAll conference actions w).2, pieces.flatten) :=
  h.foldl_step actions {} w []

theorem tallies_tallying (host : Host σ) (conference : String) :
    host.tallying.Tallies host conference fun action notes => notes.map (·.participant) = action.named where
  call action w seen := by
    refine ⟨action.named.map (⟨·, !(host.call conference action w).1.isOk⟩), List.map_map.trans (List.map_id _), ?_⟩
    cases action with
    | publish n => cases n <;> exact congrArg (_, _, ·) (List.append_nil seen).symm
    | _ => rfl
  log _ _ _ := rfl

/-- Calls for a waiting set, one after the other, hand over until one fails. -/
theorem each_tallied (call : Participant → Call σ) : ∀ (ps : List Participant) (w : σ) (seen : List Handover),
    ∃ notes, Reached ps notes ∧ Call.each (fun p => (call p).tallied [p]) ps (w, seen) =
      ((Call.each call ps w).1, (Call.each call ps w).2, seen ++ notes)
  | [], _, seen => ⟨[], .nil, congrArg (_, _, ·) (List.append_nil seen).symm⟩
  | p :: ps, w, seen => by
    cases hp : call p w with
    | mk result v =>
      cases result with
      | error e =>
        refine ⟨[⟨p, true⟩], .failed p ps, ?_⟩
        simp [Call.each, Call.tallied, hp, Except.isOk, Except.toBool]
      | ok _ =>
        obtain ⟨notes, hnotes, hrest⟩ := each_tallied call ps v (seen ++ [⟨p, false⟩])
        refine ⟨⟨p, false⟩ :: notes, .mixed p hnotes, ?_⟩
        simp [Call.each, Call.tallied, hp, Except.isOk, Except.toBool, hrest]

theorem tallies_oneByOne (host : Host σ) (conference : String) :
    host.tallying.oneByOne.Tallies host.oneByOne conference Asked where
  call action w seen := by
    cases action with
    | mix p => exact ⟨_, .mix p _, rfl⟩
    | releaseAll ps =>
      obtain ⟨notes, hnotes, heach⟩ := each_tallied (host.media.mix conference) ps w seen
      exact ⟨notes, .releaseAll hnotes, heach⟩
    | publish n => cases n <;> exact ⟨[], .other rfl, congrArg (_, _, ·) (List.append_nil seen).symm⟩
    | _ => exact ⟨[], .other rfl, rfl⟩
  log _ _ _ := rfl

/-- Whatever fails, a media side with its own way to release a waiting set is handed everybody named, once for each
    naming and in order. Where a waiting set is mixed one by one, every action still has its turn, but of a waiting
    set only those are handed over that come before the first failure, and the one that fails; nobody is skipped if
    nothing fails. Noting this changes nothing. -/
theorem handed_over (host : Host σ) (conference : String) (actions : List Action) (w : σ) :
    let own := host.tallying.performAll conference actions (w, [])
    let single := host.tallying.oneByOne.performAll conference actions (w, [])
    (own.1, own.2.1) = host.performAll conference actions w ∧
    own.2.2.map (·.participant) = actions.flatMap (·.named) ∧
    (single.1, single.2.1) = host.oneByOne.performAll conference actions w ∧
    (∃ pieces, List.Forall₂ Asked actions pieces ∧ single.2.2 = pieces.flatten) ∧
    (single.2.2.map (·.participant)).Sublist (actions.flatMap (·.named)) ∧
    ((∀ x ∈ single.2.2, x.failed = false) → single.2.2.map (·.participant) = actions.flatMap (·.named)) := by
  intro own single
  obtain ⟨pieces, hpieces, hown⟩ := (tallies_tallying host conference).performAll actions w
  obtain ⟨asked, hasked, hsingle⟩ := (tallies_oneByOne host conference).performAll actions w
  have hnotes : single.2.2 = asked.flatten := congrArg (·.2.2) hsingle
  rw [hnotes]
  refine ⟨?_, ?_, ?_, ⟨asked, hasked, rfl⟩, sublist_of_asked hasked, fun mixed => ?_⟩
  · exact congrArg (fun done => (done.1, done.2.1)) hown
  · exact (congrArg (·.2.2.map (·.participant)) hown).trans (named_of_each hpieces)
  · exact congrArg (fun done => (done.1, done.2.1)) hsingle
  · exact named_of_each (named_of_asked hasked mixed)

/-- Two guests are to be mixed in, and the mixer fails for the first of them: the second is not handed over. -/
theorem guest_given_up :
    let guest (id : String) : Participant := ⟨id, .guest⟩
    let quiet : Host Unit := .logging fun _ => id
    let mix (p : Participant) : Call Unit :=
      fun w => (if p.id = "a" then .error (.mediaFailed "admit failed") else .ok (), w)
    let host : Host Unit := { quiet with media := { quiet.media with mix := fun _ => mix } }
    let actions := [Action.releaseAll [guest "a", guest "b"]]
    (host.tallying.oneByOne.performAll "room" actions ((), [])).2.2 = [⟨guest "a", true⟩] ∧
      actions.flatMap (·.named) = [guest "a", guest "b"] :=
  ⟨rfl, rfl⟩

end Host
end ConferenceBridge
