import ConferenceBridge.Proofs.Session
import Mathlib.Data.List.Induction

/-! What the media side is left with. The work that a conference hands over is read as a record of how
    each participant is treated. Placing, holding, releasing and taking out each change the roster and
    this record alike, so after any events the record agrees with the roster. -/

namespace ConferenceBridge

/-- How the media side treats a participant. -/
inductive Treatment where
  | live
  | held
  deriving DecidableEq, Repr

/-- How the media side treats everybody it knows. -/
abbrev MediaView := String → Option Treatment

namespace MediaView

/-- Nobody is known yet. -/
def blank : MediaView := fun _ => none

/-- The view once these participants are treated like this. -/
def treat (v : MediaView) (t : Treatment) (ps : List Participant) : MediaView :=
  ps.foldl (fun v p => Function.update v p.id (some t)) v

/-- What a piece of work changes. -/
def heed (v : MediaView) : Action → MediaView
  | .mix p => Function.update v p.id (some .live)
  | .wait p => Function.update v p.id (some .held)
  | .releaseAll ps => v.treat .live ps
  | .publish (.participantLeft _ id) => Function.update v id none
  | .publish _ | .endSolo _ | .kick _ | .playPrompt .. | .announce _ => v

/-- What some work changes, in order. -/
def heedAll (v : MediaView) (work : List Action) : MediaView := work.foldl heed v

variable {v : MediaView} {t : Treatment} {ps : List Participant} {id : String}

@[simp] theorem heedAll_nil : v.heedAll [] = v := rfl

@[simp] theorem heedAll_cons (a : Action) (work : List Action) :
    v.heedAll (a :: work) = (v.heed a).heedAll work := rfl

@[simp] theorem heedAll_append (work more : List Action) :
    v.heedAll (work ++ more) = (v.heedAll work).heedAll more := List.foldl_append

theorem heedAll_wait (ps : List Participant) : v.heedAll (ps.map .wait) = v.treat .held ps := List.foldl_map

/-- Asking participants to go does not change how they are treated. -/
theorem heedAll_kick (ps : List Participant) : v.heedAll (ps.map .kick) = v := by
  induction ps with
  | nil => rfl
  | cons p ps ih => exact ih

theorem heedAll_promptTo (p : Participant) (prompt : Prompt) : v.heedAll (Table.promptTo p prompt) = v := by
  unfold Table.promptTo
  split <;> rfl

theorem heedAll_endSolo (p : Option Participant) : v.heedAll (p.map Action.endSolo).toList = v := by
  cases p <;> rfl

theorem treat_apply : ∀ (ps : List Participant) (v : MediaView),
    v.treat t ps id = if id ∈ ps.map (·.id) then some t else v id
  | [], v => rfl
  | p :: ps, v => by
    have ih := treat_apply ps (Function.update v p.id (some t))
    rw [treat, List.foldl_cons, ← treat, ih, List.map_cons]
    by_cases hid : id = p.id
    · simp [hid]
    · simp [hid]

end MediaView

/-! ### Agreement with a roster -/

/-- How a participant is treated, going by its record. -/
def Record.treatment (x : Record) : Treatment := if x.onHold then .held else .live

/-- Exactly those attached are known, and each is treated as its record has it. -/
structure MediaView.Agrees (v : MediaView) (r : Roster) : Prop where
  attached : ∀ x ∈ r.records, v x.id = some x.treatment
  absent : ∀ id, id ∉ r.ids → v id = none

namespace Roster
variable {r : Roster} {x y : Record} {id : String}

theorem Sound.treatment_of_live (h : r.Sound) (hx : x ∈ r.active) : x.treatment = .live := by
  rw [Record.treatment, (h.live x hx).free]
  rfl

/-- Losing the last marked participant changes nobody's treatment by itself. -/
theorem Sound.treatment_loseLastMarked (h : r.Sound) (hy : y ∈ r.loseLastMarked.2.2.records) :
    ∃ x ∈ r.records, x.id = y.id ∧ x.treatment = y.treatment := by
  have dismissed : ∀ y ∈ r.active.map Record.dismissed,
      ∃ x ∈ r.records, x.id = y.id ∧ x.treatment = .live ∧ y.treatment = .live := by
    intro y hy
    obtain ⟨x, hx, rfl⟩ := List.mem_map.mp hy
    have hd : x.dismissed.onHold = false := (h.live x hx).dismissed.free
    exact ⟨x, mem_records.mpr (Or.inl hx), x.id_dismissed.symm, h.treatment_of_live hx,
      by rw [Record.treatment, hd]; rfl⟩
  cases hp : r.policy with
  | keepActive =>
    rw [loseLastMarked_of_keepActive hp] at hy
    rcases mem_records.mp hy with hy | hy
    · obtain ⟨x, hx, hid, hxt, hyt⟩ := dismissed y hy
      exact ⟨x, hx, hid, hxt.trans hyt.symm⟩
    · exact ⟨y, mem_records.mpr (Or.inr hy), rfl, rfl⟩
  | demoteWaitMarked =>
    rw [loseLastMarked_of_demote hp (nodup_active h.distinct)] at hy
    rcases mem_records.mp hy with hy | hy
    · obtain ⟨x, hx, hid, hxt, hyt⟩ := dismissed y (List.mem_of_mem_filter hy)
      exact ⟨x, hx, hid, hxt.trans hyt.symm⟩
    · rcases List.mem_append.mp hy with hy | hy
      · exact ⟨y, mem_records.mpr (Or.inr hy), rfl, rfl⟩
      · -- Those parked have had no treatment asked for yet.
        obtain ⟨z, hz, rfl⟩ := List.mem_map.mp hy
        obtain ⟨x, hx, hid, hxt, -⟩ := dismissed z (List.mem_of_mem_filter hz)
        exact ⟨x, hx, hid, hxt⟩

theorem Sound.treatment_departed (h : r.Sound) (hx : x ∈ r.records) (hy : y ∈ (r.departed x).records) :
    ∃ z ∈ r.records, z.id = y.id ∧ z.treatment = y.treatment := by
  unfold Roster.departed at hy
  split at hy
  · obtain ⟨z, hz, hzy⟩ := (h.rest hx).treatment_loseLastMarked hy
    exact ⟨z, mem_rest hz, hzy⟩
  · exact ⟨y, mem_rest hy, rfl, rfl⟩

end Roster

namespace MediaView
namespace Agrees
open Roster
variable {v : MediaView} {r : Roster} {x : Record} {p : Participant}

theorem ofSettings (s : ConferenceSettings) : blank.Agrees (.ofSettings s) where
  attached _ hx := absurd hx List.not_mem_nil
  absent _ _ := rfl

theorem place (h : v.Agrees r) (hid : p.id ∉ r.ids) :
    Agrees (Function.update v p.id (some .live)) (r.place p) where
  attached x hx := by
    rcases mem_records_place.mp hx with hx | rfl
    · have hne : x.id ≠ p.id := fun he => hid (he ▸ mem_ids_of_mem hx)
      rw [Function.update_of_ne hne]
      exact h.attached x hx
    · exact Function.update_self ..
  absent id hn := by
    rw [mem_ids_place, not_or] at hn
    rw [Function.update_of_ne hn.1]
    exact h.absent id hn.2

theorem departed (h : v.Agrees r) (hr : r.Sound) (hx : x ∈ r.records) :
    Agrees (Function.update v x.id none) (r.departed x) where
  attached y hy := by
    have hne : y.id ≠ x.id := ((mem_ids_departed hr.distinct).mp (mem_ids_of_mem hy)).2
    obtain ⟨z, hz, hid, ht⟩ := hr.treatment_departed hx hy
    rw [Function.update_of_ne hne, ← hid, ← ht]
    exact h.attached z hz
  absent id hn := by
    by_cases he : id = x.id
    · rw [he, Function.update_self]
    · rw [Function.update_of_ne he]
      exact h.absent id fun hm => hn ((mem_ids_departed hr.distinct).mpr ⟨hm, he⟩)

/-- Treating some of those attached anew, where the roster says so and nowhere else. -/
theorem treat {ps : List Participant} {t : Treatment} {after : Roster} (h : v.Agrees r)
    (hids : after.ids = r.ids) (hps : ∀ id ∈ ps.map (·.id), id ∈ r.ids)
    (hafter : ∀ x ∈ after.records,
      (x.id ∈ ps.map (·.id) ∧ x.treatment = t) ∨ (x.id ∉ ps.map (·.id) ∧ x ∈ r.records)) :
    (v.treat t ps).Agrees after where
  attached x hx := by
    rw [treat_apply]
    rcases hafter x hx with ⟨hm, ht⟩ | ⟨hm, hx⟩
    · rw [if_pos hm, ht]
    · rw [if_neg hm]
      exact h.attached x hx
  absent id hn := by
    rw [hids] at hn
    rw [treat_apply, if_neg fun hm => hn (hps id hm)]
    exact h.absent id hn

theorem release (h : v.Agrees r) (hr : r.Sound) : (v.treat .live r.release.1).Agrees r.release.2 := by
  have hids : r.release.1.map (·.id) = r.waiting.map (·.id) := List.map_map
  obtain ⟨-, -, hne⟩ := List.nodup_append.mp (ids_eq ▸ hr.distinct)
  refine h.treat ids_release ?_ fun x hx => ?_
  · intro id hm
    rw [ids_eq]
    exact List.mem_append_right _ (hids ▸ hm)
  · rw [hids]
    have hx : x ∈ r.active ++ r.waiting.map (·.live) := (mem_records.mp hx).resolve_right List.not_mem_nil
    rcases List.mem_append.mp hx with hx | hx
    · have hm : x.id ∉ r.waiting.map (·.id) := fun hm => hne x.id (List.mem_map_of_mem hx) x.id hm rfl
      exact Or.inr ⟨hm, mem_records.mpr (Or.inl hx)⟩
    · obtain ⟨y, hy, rfl⟩ := List.mem_map.mp hx
      exact Or.inl ⟨List.mem_map.mpr ⟨y, hy, rfl⟩, rfl⟩

theorem holdWaiting (h : v.Agrees r) (hr : r.Sound) :
    (v.treat .held r.holdWaiting.1).Agrees r.holdWaiting.2 := by
  have hids : r.holdWaiting.1.map (·.id) = (r.waiting.filter (·.needsHold)).map (·.id) := List.map_map
  obtain ⟨-, hw, hne⟩ := List.nodup_append.mp (ids_eq ▸ hr.distinct)
  have hsub : ∀ id ∈ (r.waiting.filter (·.needsHold)).map (·.id), id ∈ r.waiting.map (·.id) :=
    fun id hm => (List.filter_sublist.map _).subset hm
  refine h.treat ids_holdWaiting ?_ fun x hx => ?_
  · intro id hm
    rw [ids_eq]
    exact List.mem_append_right _ (hsub id (hids ▸ hm))
  · rw [hids]
    rcases mem_records.mp hx with hx | hx
    · have hm : x.id ∉ r.waiting.map (·.id) := fun hm => hne x.id (List.mem_map_of_mem hx) x.id hm rfl
      exact Or.inr ⟨fun hf => hm (hsub _ hf), mem_records.mpr (Or.inl hx)⟩
    · obtain ⟨y, hy, rfl⟩ := List.mem_map.mp hx
      by_cases hn : y.needsHold = true
      · rw [if_pos hn]
        exact Or.inl ⟨List.mem_map.mpr ⟨y, List.mem_filter.mpr ⟨hy, hn⟩, rfl⟩, rfl⟩
      · rw [if_neg hn]
        refine Or.inr ⟨fun hf => ?_, mem_records.mpr (Or.inr hy)⟩
        obtain ⟨z, hz, hzy⟩ := List.mem_map.mp hf
        obtain ⟨hz, hzn⟩ := List.mem_filter.mp hz
        exact hn (List.inj_on_of_nodup_map hw hz hy hzy ▸ hzn)

end Agrees

/-! ### One event -/

open Table Roster
variable {v : MediaView} {c : Context} {after : Roster} {work : List Action}

theorem heedAll_exitWork (v : MediaView) (c : Context) : v.heedAll (exitWork c) = v := by
  unfold exitWork
  split <;> rfl

theorem heedAll_ite_promptTo (b : Bool) (p : Participant) (prompt : Prompt) (v : MediaView) :
    v.heedAll (if b then promptTo p prompt else []) = v := by
  cases b
  · rfl
  · exact heedAll_promptTo p prompt

/-- Entering a marked state tells the media side of everybody released. -/
theorem heedAll_entryWork (v : MediaView) (c : Context) (r : Roster) :
    v.heedAll (entryWork c r.target r) = if 0 < r.marked then v.treat .live r.release.1 else v := by
  have released : v.heedAll
      (if r.waiting.isEmpty then [] else [.releaseAll (r.waiting.map (·.participant))]) =
      v.treat .live r.release.1 := by
    cases hw : r.waiting with
    | nil =>
      rw [release_eq_self hw]
      rfl
    | cons x xs =>
      rw [Roster.release, hw]
      rfl
  rcases Nat.eq_zero_or_pos r.marked with h0 | hpos
  · rw [if_neg (Nat.not_lt.mpr (Nat.le_of_eq h0)), entryWork_of_zero h0]
    split <;> rfl
  · rw [if_pos hpos, entryWork_of_pos hpos, heedAll_append, released, heedAll_ite_promptTo]

/-- A change of state tells the media side of everybody it releases, and of nothing else. -/
theorem heedAll_changeWork (h : 0 < after.marked → after.target = c.state → after.waiting = []) :
    v.heedAll (changeWork c after) = if 0 < after.marked then v.treat .live after.release.1 else v := by
  unfold changeWork
  split
  · rename_i ht
    split
    · rename_i hpos
      rw [release_eq_self (h hpos ht)]
      rfl
    · rfl
  · rw [heedAll_append, heedAll_append, heedAll_exitWork]
    exact heedAll_entryWork v c after

/-- An arrival is mixed, and held instead if it has to wait. -/
theorem heedAll_joinWork (v : MediaView) (c : Context) : v.heedAll (joinWork c) =
    Function.update v c.participant.id
      (some (if c.roster.placement c.participant = .waiting then .held else .live)) := by
  have published : ∀ (v : MediaView) (m : Membership),
      v.heedAll [.publish (.participantJoined c.conference c.participant.id m)] = v := fun _ _ => rfl
  have admitted : v.heedAll (admissionActions c (c.roster.place c.participant)) =
      Function.update v c.participant.id (some .live) := by
    rw [admissionActions, heedAll_append, heedAll_cons, heedAll_endSolo, heedAll_ite_promptTo]
    rfl
  rw [joinWork, heedAll_append, published]
  cases hm : c.roster.placement c.participant with
  | waiting =>
    rw [parkingActions, heedAll_append, heedAll_promptTo]
    rfl
  | attaching => exact admitted
  | active => exact admitted
  | detaching => exact admitted

theorem heedAll_leaveWork (v : MediaView) (c : Context) (parting : Parting) :
    v.heedAll (leaveWork c parting) = Function.update (v.treat .held parting.demoted) c.participant.id none := by
  have farewell : ∀ (v : MediaView) (b : Bool),
      v.heedAll (if b then [.announce .leaderHasLeft] else []) = v := fun _ b => by cases b <;> rfl
  rw [leaveWork, heedAll_append, heedAll_append, heedAll_append, heedAll_kick, heedAll_wait, farewell]
  rfl

theorem update_treat {id : String} {t : Treatment} {ps : List Participant} (h : id ∉ ps.map (·.id))
    (o : Option Treatment) : Function.update (v.treat t ps) id o = treat (Function.update v id o) t ps := by
  funext other
  rw [treat_apply]
  by_cases ho : other = id
  · rw [ho, Function.update_self, if_neg h, Function.update_self]
  · rw [Function.update_of_ne ho, Function.update_of_ne ho, treat_apply]

namespace Agrees

theorem join (h : v.Agrees c.roster) (hs : c.roster.Settled) (hc : c.state = c.roster.target)
    (new : c.participant.id ∉ c.roster.ids) (fits : c.roster.isFull = false) :
    (v.heedAll (joinWork c ++ changeWork c (c.roster.place c.participant))).Agrees
      (c.roster.place c.participant).settle := by
  have hplace := h.place new
  have hsound := hs.place new fits
  rw [heedAll_append, heedAll_joinWork]
  by_cases hw : c.roster.placement c.participant = .waiting
  · obtain ⟨hz, hneeds⟩ := hs.needsHold_place hw
    have hnot : ¬0 < (c.roster.place c.participant).marked := by omega
    have hone : (c.roster.place c.participant).holdWaiting.1 = [c.participant] := by
      rw [Roster.holdWaiting, hneeds]
      rfl
    have hheld := hplace.holdWaiting hsound
    rw [hone, MediaView.treat, List.foldl_cons, List.foldl_nil, Function.update_idem] at hheld
    rw [heedAll_changeWork fun hpos => absurd hpos hnot, if_neg hnot, if_pos hw, settle_of_zero hz]
    exact hheld
  · obtain ⟨ha, he⟩ : c.roster.placement c.participant = .active ∧
        (c.roster.place c.participant).waiting = c.roster.waiting := by
      rcases place_cases c.roster c.participant with ⟨-, -, hp, -⟩ | ⟨-, ha, he⟩
      · exact absurd hp hw
      · exact ⟨ha, by rw [he]⟩
    -- If the state stays, somebody was marked before and nobody waits.
    have led : 0 < (c.roster.place c.participant).marked →
        (c.roster.place c.participant).target = c.state → (c.roster.place c.participant).waiting = [] := by
      intro hpos ht
      rw [he]
      refine hs.led (isMarked_target.mp ?_)
      rw [← hc, ← ht]
      exact isMarked_target.mpr hpos
    rw [heedAll_changeWork led, if_neg hw]
    split
    · rename_i hpos
      rw [settle_of_pos hpos]
      exact hplace.release hsound
    · rename_i hz
      rw [hs.settle_place_of_zero ha (Nat.eq_zero_of_not_pos hz)]
      exact hplace

theorem leave {x : Record} (h : v.Agrees c.roster) (hs : c.roster.Settled) (hx : x ∈ c.roster.records)
    (own : x.id = c.participant.id) :
    (v.heedAll (leaveWork c (c.roster.partingOf x) ++ changeWork c (c.roster.departed x))).Agrees
      (c.roster.departed x).settle := by
  have hdeparted := h.departed hs.toSound hx
  have hsound := hs.departed hx
  -- Whoever leaves is not among those demoted.
  have hgone : x.id ∉ (c.roster.partingOf x).demoted.map (·.id) := by
    rw [hs.demoted_eq hx]
    intro hm
    have hids : x.id ∈ (c.roster.departed x).ids := by
      obtain ⟨p, hp, hpx⟩ := List.mem_map.mp hm
      obtain ⟨y, hy, rfl⟩ := List.mem_map.mp hp
      exact mem_ids.mpr ⟨y, mem_records.mpr (Or.inr (List.mem_of_mem_filter hy)), hpx⟩
    exact ((mem_ids_departed hs.distinct).mp hids).2 rfl
  have none_released : ∀ v : MediaView,
      v.heedAll (changeWork c (c.roster.departed x)) = v := by
    intro v
    rw [heedAll_changeWork fun hpos _ => hs.departed_led hx hpos]
    split
    · rename_i hpos
      rw [release_eq_self (hs.departed_led hx hpos)]
      rfl
    · rfl
  rw [heedAll_append, none_released, heedAll_leaveWork, ← own, update_treat hgone, hs.demoted_eq hx,
    hs.settle_departed_eq hx]
  exact hdeparted.holdWaiting hsound

/-- An accepted event changes the view as it changes the roster. -/
theorem move (h : v.Agrees c.roster) (hs : c.roster.Settled) (hc : c.state = c.roster.target)
    (move : Move c work after) : (v.heedAll (work ++ changeWork c after)).Agrees after.settle := by
  cases move with
  | join _ new fits => exact h.join hs hc new fits
  | leave x attached own => exact h.leave hs attached own

theorem known_iff {r : Roster} (h : v.Agrees r) (id : String) : v id ≠ none ↔ id ∈ r.ids := by
  constructor
  · exact fun hv => by_contra fun hn => hv (h.absent id hn)
  · intro hm
    obtain ⟨x, hx, rfl⟩ := mem_ids.mp hm
    rw [h.attached x hx]
    exact Option.some_ne_none _

theorem held_iff {r : Roster} {x : Record} (h : v.Agrees r) (hx : x ∈ r.records) :
    v x.id = some .held ↔ x.onHold = true := by
  rw [h.attached x hx, Record.treatment]
  cases x.onHold <;> simp

theorem live_iff {r : Roster} {x : Record} (h : v.Agrees r) (hx : x ∈ r.records) :
    v x.id = some .live ↔ x.onHold = false := by
  rw [h.attached x hx, Record.treatment]
  cases x.onHold <;> simp

end Agrees
end MediaView

namespace Session

/-- The work handed over so far, read as treatments, agrees with who is attached. -/
theorem agrees_run {σ : Type} (host : Host σ) (name : String) (settings : ConferenceSettings)
    (people : Nat → Participant) (w : σ) (raises : List Raise) :
    (MediaView.blank.heedAll ((start name settings .standard people w).history host raises)).Agrees
      ((start name settings .standard people w).run host raises).conference.room.roster := by
  induction raises using List.reverseRecOn with
  | nil => exact MediaView.Agrees.ofSettings settings
  | append_singleton raises r ih =>
    have h := settled_run host name settings people w raises
    rw [run_concat, history_concat, MediaView.heedAll_append]
    rcases h.step_cases host r with ⟨-, hd, hc, -⟩ | ⟨work, after, move, -, hd, hc, -⟩
    · rw [hd, hc]
      exact ih
    · rw [hd, hc]
      exact ih.move (c := (run host _ raises).context r) h.room.roster h.room.state move

/-- After any events the participants that the media side knows are those attached. It holds those that
    wait and are not to go, which are those for whom holding has been asked, and has the others live; so
    for whoever is not to go it treats as held those that wait and as live those that are active. -/
theorem media_view_by_roster {σ : Type} (host : Host σ) (name : String) (settings : ConferenceSettings)
    (people : Nat → Participant) (w : σ) (raises : List Raise) :
    let s := start name settings .standard people w
    let view := MediaView.blank.heedAll (s.history host raises)
    let r := (s.run host raises).conference.room.roster
    (∀ id, view id ≠ none ↔ id ∈ r.ids) ∧
    ∀ x ∈ r.records,
      (view x.id = some .held ↔ x ∈ r.waiting ∧ x.kicked = false) ∧
      (view x.id = some .held ↔ x.onHold = true) ∧
      (view x.id = some .live ↔ ¬(x ∈ r.waiting ∧ x.kicked = false)) ∧
      (x.kicked = false →
        (view x.id = some .held ↔ x.membership = .waiting) ∧
        (view x.id = some .live ↔ x.membership = .active)) := by
  intro s view r
  have agrees : view.Agrees r := agrees_run host name settings people w raises
  have h : r.Settled := (settled_run host name settings people w raises).room.roster
  refine ⟨agrees.known_iff, fun x hx => ?_⟩
  rw [agrees.held_iff hx, agrees.live_iff hx]
  rcases Roster.mem_records.mp hx with ha | hw
  · have hfree := (h.live x ha).free
    have hm := (h.live x ha).membership
    have hn : x ∉ r.waiting := by
      intro hw
      have := (h.waiting x hw).membership
      rw [hm] at this
      cases this
    simp [hfree, hm, hn]
  · have hm := (h.waiting x hw).membership
    rw [h.treated x hw]
    simp [hw, hm]

end Session
end ConferenceBridge
