import ConferenceBridge.Roster
import Mathlib.Data.List.Nodup

/-! What looking a participant up and taking it out of a roster comes to when no identifier occurs
    twice. The roster erases first matches and parks one participant after the other; with distinct
    identifiers each of these is a filter. -/

namespace ConferenceBridge

/-! ### Lists -/

theorem find?_key_of_mem {α κ : Type} [BEq κ] [LawfulBEq κ] {f : α → κ} {x : α} :
    ∀ {l : List α}, (l.map f).Nodup → x ∈ l → l.find? (fun y => f y == f x) = some x
  | y :: l, hl, hx => by
    simp only [List.map_cons, List.nodup_cons, List.mem_map, not_exists, not_and] at hl
    rcases List.mem_cons.mp hx with rfl | hx
    · simp
    · have hne : f y ≠ f x := fun h => hl.1 x hx h.symm
      rw [List.find?_cons_of_neg (by simpa using hne)]
      exact find?_key_of_mem hl.2 hx

theorem eraseP_key_eq_filter {α κ : Type} [BEq κ] [LawfulBEq κ] {f : α → κ} {k : κ} :
    ∀ {l : List α}, (l.map f).Nodup → l.eraseP (fun x => f x == k) = l.filter (fun x => f x != k)
  | [], _ => rfl
  | y :: l, hl => by
    simp only [List.map_cons, List.nodup_cons, List.mem_map, not_exists, not_and] at hl
    by_cases hy : f y = k
    · have hl' : l.filter (fun x => f x != k) = l := by
        rw [List.filter_eq_self]
        intro x hx
        simpa using fun h => hl.1 x hx (h.trans hy.symm)
      simp [hy, hl']
    · rw [List.eraseP_cons_of_neg (by simpa using hy), List.filter_cons_of_pos (by simpa using hy),
        eraseP_key_eq_filter hl.2]

/-- With distinct keys, leaving out the key of an element leaves out that element. -/
theorem cons_filter_key_perm {α κ : Type} [BEq κ] [LawfulBEq κ] {f : α → κ} {x : α} {l : List α}
    (hl : (l.map f).Nodup) (hx : x ∈ l) : (x :: l.filter (fun y => f y != f x)).Perm l := by
  have hone : l.filter (fun y => f y == f x) = [x] := by
    have hnodup : (l.filter fun y => f y == f x).Nodup := (List.Nodup.of_map f hl).filter _
    refine List.perm_singleton.mp ((List.perm_ext_iff_of_nodup hnodup (List.nodup_singleton x)).mpr ?_)
    intro y
    rw [List.mem_filter, List.mem_singleton, beq_iff_eq]
    constructor
    · exact fun h => List.inj_on_of_nodup_map hl h.1 hx h.2
    · rintro rfl
      exact ⟨hx, rfl⟩
  have hsplit := List.filter_append_perm (fun y => f y == f x) l
  rwa [hone] at hsplit

/-- Those whose key is not among the keys of the chosen ones are the ones not chosen. -/
theorem filter_key_notMem {α κ : Type} [DecidableEq κ] {f : α → κ} {p : α → Bool} {l : List α}
    (hl : (l.map f).Nodup) :
    l.filter (fun x => decide (f x ∉ (l.filter p).map f)) = l.filter (fun x => !p x) := by
  apply List.filter_congr
  intro x hx
  have hiff : f x ∈ (l.filter p).map f ↔ p x = true := by
    constructor
    · intro h
      obtain ⟨y, hy, hyx⟩ := List.mem_map.mp h
      obtain ⟨hy, hpy⟩ := List.mem_filter.mp hy
      rwa [List.inj_on_of_nodup_map hl hy hx hyx] at hpy
    · exact fun h => List.mem_map_of_mem (List.mem_filter.mpr ⟨hx, h⟩)
  cases hp : p x <;> simp [hiff, hp]

/-! ### Records -/

namespace Record

/-- The record once the last marked participant is gone: asked to go, if that is due. -/
def dismissed (x : Record) : Record := if x.needsKick then { x with kicked := true } else x

/-- The record once waiting treatment has been asked for, if that is due. -/
def treated (x : Record) : Record := if x.needsHold then x.held else x

@[simp] theorem participant_held (x : Record) : x.held.participant = x.participant := rfl
@[simp] theorem participant_parked (x : Record) : x.parked.participant = x.participant := rfl
@[simp] theorem participant_live (x : Record) : x.live.participant = x.participant := rfl

@[simp] theorem participant_dismissed (x : Record) : x.dismissed.participant = x.participant := by
  unfold dismissed
  split <;> rfl

@[simp] theorem participant_treated (x : Record) : x.treated.participant = x.participant := by
  unfold treated
  split <;> rfl

@[simp] theorem kicked_treated (x : Record) : x.treated.kicked = x.kicked := by
  unfold treated
  split <;> rfl

@[simp] theorem id_held (x : Record) : x.held.id = x.id := rfl
@[simp] theorem id_parked (x : Record) : x.parked.id = x.id := rfl
@[simp] theorem id_live (x : Record) : x.live.id = x.id := rfl

@[simp] theorem id_dismissed (x : Record) : x.dismissed.id = x.id :=
  congrArg Participant.id x.participant_dismissed

@[simp] theorem id_treated (x : Record) : x.treated.id = x.id :=
  congrArg Participant.id x.participant_treated

@[simp] theorem role_parked (x : Record) : x.parked.role = x.role := rfl

@[simp] theorem role_dismissed (x : Record) : x.dismissed.role = x.role :=
  congrArg Participant.role x.participant_dismissed

@[simp] theorem isMarked_live (x : Record) : x.live.isMarked = x.isMarked := rfl

@[simp] theorem isMarked_dismissed (x : Record) : x.dismissed.isMarked = x.isMarked :=
  congrArg Participant.isMarked x.participant_dismissed

theorem role_eq_marked_iff {x : Record} : x.role = .marked ↔ x.isMarked = true :=
  Profile.role_eq_marked_iff

end Record

theorem Participant.isMarked_of_role_eq_waitMarked {p : Participant} (h : p.role = .waitMarked) :
    p.isMarked = false := by
  have hne : p.role ≠ .marked := by
    rw [h]
    decide
  exact Bool.not_eq_true _ ▸ mt Profile.role_eq_marked_iff.mpr hne

namespace Roster
variable {r : Roster} {x : Record} {id : String}

/-! ### Looking up -/

/-- The identifiers of everybody attached. -/
def ids (r : Roster) : List String := r.records.map (·.id)

/-- Everybody attached, with the profiles they attached under. -/
def people (r : Roster) : List Participant := r.records.map (·.participant)

theorem mem_ids : id ∈ r.ids ↔ ∃ x ∈ r.records, x.id = id := List.mem_map

theorem mem_ids_of_mem (h : x ∈ r.records) : x.id ∈ r.ids := mem_ids.mpr ⟨x, h, rfl⟩

theorem map_id_people : r.people.map (·.id) = r.ids := List.map_map

theorem mem_records : x ∈ r.records ↔ x ∈ r.active ∨ x ∈ r.waiting := List.mem_append

theorem ids_eq : r.ids = r.active.map (·.id) ++ r.waiting.map (·.id) := List.map_append

theorem nodup_active (h : r.ids.Nodup) : (r.active.map (·.id)).Nodup :=
  (List.nodup_append.mp (ids_eq ▸ h)).1

theorem nodup_waiting (h : r.ids.Nodup) : (r.waiting.map (·.id)).Nodup :=
  (List.nodup_append.mp (ids_eq ▸ h)).2.1

theorem contains_eq_true_iff : r.contains id = true ↔ id ∈ r.ids := by
  simp [contains, mem_ids, mem_records, or_and_right, exists_or]

theorem contains_eq_false_iff : r.contains id = false ↔ id ∉ r.ids := by
  rw [← contains_eq_true_iff, Bool.not_eq_true]

theorem get?_eq_find? : r.get? id = r.records.find? (·.id == id) := List.find?_append.symm

theorem get?_of_mem (h : r.ids.Nodup) (hx : x ∈ r.records) : r.get? x.id = some x := by
  rw [get?_eq_find?]
  exact find?_key_of_mem h hx

theorem get?_of_notMem (h : id ∉ r.ids) : r.get? id = none := by
  rw [get?_eq_find?, List.find?_eq_none]
  intro x hx hid
  exact h (mem_ids.mpr ⟨x, hx, by simpa using hid⟩)

/-! ### Taking out -/

/-- The lists of the roster with a participant left out. -/
def without (r : Roster) (id : String) : Roster :=
  { r with active := r.active.filter (·.id != id), waiting := r.waiting.filter (·.id != id) }

theorem filter_id_eq_self {l : List Record} (h : id ∉ l.map (·.id)) : l.filter (·.id != id) = l := by
  rw [List.filter_eq_self]
  intro x hx
  have : x.id ≠ id := fun hid => h (List.mem_map.mpr ⟨x, hx, hid⟩)
  simpa using this

theorem remove?_of_mem (h : r.ids.Nodup) (hx : x ∈ r.records) :
    r.remove? x.id = some (x, r.without x.id) := by
  obtain ⟨ha, hw, hne⟩ := List.nodup_append.mp (ids_eq ▸ h)
  unfold remove? without
  rw [eraseP_key_eq_filter ha, eraseP_key_eq_filter hw]
  rcases mem_records.mp hx with hx | hx
  · have hid : x.id ∉ r.waiting.map (·.id) := fun hm => hne x.id (List.mem_map_of_mem hx) x.id hm rfl
    rw [find?_key_of_mem ha hx, filter_id_eq_self hid]
  · have hid : x.id ∉ r.active.map (·.id) := fun hm => hne x.id hm x.id (List.mem_map_of_mem hx) rfl
    have hnone : r.active.find? (·.id == x.id) = none := by
      rw [List.find?_eq_none]
      intro y hy hyx
      exact hid (List.mem_map.mpr ⟨y, hy, by simpa using hyx⟩)
    rw [hnone, find?_key_of_mem hw hx, filter_id_eq_self hid]
    rfl

theorem remove?_of_notMem (h : id ∉ r.ids) : r.remove? id = none := by
  have hnone := get?_of_notMem h
  rw [get?, Option.or_eq_none_iff] at hnone
  simp [remove?, hnone.1, hnone.2]

/-! ### Losing the last marked participant -/

theorem dismissEndMarked_eq : r.dismissEndMarked =
    ((r.active.filter (·.needsKick)).map (·.participant),
      { r with active := r.active.map Record.dismissed }) := rfl

theorem park_of_mem (h : (r.active.map (·.id)).Nodup) (hx : x ∈ r.active) :
    r.park x.id =
      { r with active := r.active.filter (·.id != x.id), waiting := r.waiting ++ [x.parked] } := by
  unfold park
  rw [find?_key_of_mem h hx, eraseP_key_eq_filter h]

theorem foldl_park : ∀ {gs : List Record} {r : Roster}, (r.active.map (·.id)).Nodup →
    (gs.map (·.id)).Nodup → (∀ g ∈ gs, g ∈ r.active) →
    (gs.map (·.id)).foldl park r =
      { r with
        active := r.active.filter fun x => decide (x.id ∉ gs.map (·.id))
        waiting := r.waiting ++ gs.map Record.parked }
  | [], r, _, _, _ => by simp
  | g :: gs, r, ha, hgs, hmem => by
    simp only [List.map_cons, List.nodup_cons] at hgs
    obtain ⟨hg, hrest⟩ := List.forall_mem_cons.mp hmem
    have hmem' : ∀ y ∈ gs, y ∈ r.active.filter (·.id != g.id) := by
      intro y hy
      have hne : y.id ≠ g.id := fun h => hgs.1 (List.mem_map.mpr ⟨y, hy, h⟩)
      exact List.mem_filter.mpr ⟨hrest y hy, by simpa using hne⟩
    rw [List.map_cons, List.foldl_cons, park_of_mem ha hg,
      foldl_park (ha.sublist (List.filter_sublist.map _)) hgs.2 hmem']
    simp only [List.filter_filter, List.append_assoc, List.singleton_append, List.map_cons]
    congr 1
    apply List.filter_congr
    intro x _
    rw [Bool.eq_iff_iff]
    simp [and_comm]

/-- Parking every live wait-marked participant splits the live list in two. -/
theorem parkWaitMarked_eq (h : (r.active.map (·.id)).Nodup) : r.parkWaitMarked =
    (((r.active.filter (·.role == .waitMarked)).filter (!·.kicked)).map (·.participant),
      { r with
        active := r.active.filter (·.role != .waitMarked)
        waiting := r.waiting ++ (r.active.filter (·.role == .waitMarked)).map Record.parked }) := by
  unfold parkWaitMarked
  dsimp only
  rw [foldl_park h (h.sublist (List.filter_sublist.map _)) fun g hg => List.mem_of_mem_filter hg,
    filter_key_notMem h]
  rfl

theorem map_id_dismissed (l : List Record) : (l.map Record.dismissed).map (·.id) = l.map (·.id) := by
  simp [Function.comp_def]

theorem loseLastMarked_of_keepActive (hp : r.policy = .keepActive) : r.loseLastMarked =
    ((r.active.filter (·.needsKick)).map (·.participant), [],
      { r with active := r.active.map Record.dismissed }) := by
  simp only [loseLastMarked, dismissEndMarked_eq, hp]

theorem loseLastMarked_of_demote (hp : r.policy = .demoteWaitMarked) (h : (r.active.map (·.id)).Nodup) :
    r.loseLastMarked =
      ((r.active.filter (·.needsKick)).map (·.participant),
        (((r.active.map Record.dismissed).filter (·.role == .waitMarked)).filter (!·.kicked)).map
          (·.participant),
        { r with
          active := (r.active.map Record.dismissed).filter (·.role != .waitMarked)
          waiting := r.waiting ++
            ((r.active.map Record.dismissed).filter (·.role == .waitMarked)).map Record.parked }) := by
  have h' : ((r.active.map Record.dismissed).map (·.id)).Nodup := by rwa [map_id_dismissed]
  have hpark := parkWaitMarked_eq (r := { r with active := r.active.map Record.dismissed }) h'
  unfold loseLastMarked
  rw [dismissEndMarked_eq]
  dsimp only
  rw [hpark, hp]

/-! ### Departing -/

/-- The roster without a participant, the marked ones counted again. -/
def rest (r : Roster) (x : Record) : Roster :=
  { r.without x.id with marked := if x.isMarked then r.marked - 1 else r.marked }

theorem mem_rest {y : Record} (h : y ∈ (r.rest x).records) : y ∈ r.records := by
  rcases mem_records.mp h with h | h
  · exact mem_records.mpr (Or.inl (List.mem_of_mem_filter h))
  · exact mem_records.mpr (Or.inr (List.mem_of_mem_filter h))

/-- Identifiers are distinct, and the marked, who are all live, are counted. -/
structure Counted (r : Roster) : Prop where
  distinct : r.ids.Nodup
  count : r.marked = r.records.countP (·.isMarked)
  leading : ∀ x ∈ r.records, x.isMarked = true → x ∈ r.active

theorem Counted.count_active (h : r.Counted) : r.marked = r.active.countP (·.isMarked) := by
  obtain ⟨-, -, apart⟩ := List.nodup_append.mp (ids_eq ▸ h.distinct)
  have hnone : r.waiting.countP (·.isMarked) = 0 := by
    rw [List.countP_eq_zero]
    intro x hx hm
    have hlive := h.leading x (mem_records.mpr (Or.inr hx)) hm
    exact apart x.id (List.mem_map_of_mem hlive) x.id (List.mem_map_of_mem hx) rfl
  rw [h.count, records, List.countP_append, hnone, Nat.add_zero]

/-- The marked are counted right once a participant is taken out. -/
theorem Counted.count_rest (h : r.Counted) (hx : x ∈ r.records) :
    (r.rest x).marked = (r.rest x).active.countP (·.isMarked) := by
  show (if x.isMarked then r.marked - 1 else r.marked) = (r.active.filter (·.id != x.id)).countP (·.isMarked)
  rw [h.count_active]
  by_cases hlive : x ∈ r.active
  · rw [← (cons_filter_key_perm (nodup_active h.distinct) hlive).countP_eq, List.countP_cons]
    cases x.isMarked <;> simp
  · have hm : x.isMarked = false := Bool.not_eq_true _ ▸ mt (h.leading x hx) hlive
    have hid : x.id ∉ r.active.map (·.id) := by
      intro hid
      obtain ⟨y, hy, hyx⟩ := List.mem_map.mp hid
      have hsame : y = x := List.inj_on_of_nodup_map h.distinct (mem_records.mpr (Or.inl hy)) hx hyx
      exact hlive (hsame ▸ hy)
    rw [filter_id_eq_self hid, hm]
    rfl

/-- No marked participant is left once this one is gone, and this one was marked. -/
def LosesLast (r : Roster) (x : Record) : Prop := x.isMarked = true ∧ (r.rest x).marked = 0

instance (r : Roster) (x : Record) : Decidable (r.LosesLast x) :=
  inferInstanceAs (Decidable (_ ∧ _))

/-- What the departure of a participant brings about. -/
def partingOf (r : Roster) (x : Record) : Parting :=
  if r.LosesLast x then
    ⟨x, (r.rest x).loseLastMarked.2.1, (r.rest x).loseLastMarked.1, true⟩
  else ⟨x, [], [], false⟩

/-- The roster that the departure of a participant leaves. -/
def departed (r : Roster) (x : Record) : Roster :=
  if r.LosesLast x then (r.rest x).loseLastMarked.2.2 else r.rest x

theorem depart_of_mem (h : r.ids.Nodup) (hx : x ∈ r.records) (conference : String) :
    r.depart conference x.id = .ok (r.partingOf x, r.departed x) := by
  unfold depart partingOf departed
  rw [remove?_of_mem h hx]
  by_cases hl : r.LosesLast x
  · simp only [if_pos hl]
    exact if_pos hl
  · simp only [if_neg hl]
    exact if_neg hl

theorem depart_of_notMem (h : id ∉ r.ids) (conference : String) :
    r.depart conference id = .error (.notAttached conference id) := by
  simp [depart, remove?_of_notMem h]

end Roster
end ConferenceBridge
