import ConferenceBridge.Proofs.Hooks
import ConferenceBridge.Table.Sheet
import Mathlib.Data.List.Flatten
import Mathlib.Data.List.Induction

/-! Sheets made by edits. Every draft can be made, and its sheet has the row of each state at the position of
    the state, so that no look-up fails: it is the list of what the edited table has for each state. So it is
    enough to follow the edits on the table, where each of them changes the descriptors of the states that it
    names. -/

namespace ConferenceBridge

attribute [ext] Descriptor

namespace Table
variable {t : Table} {s : State} {event : Event}

/-! ### Edits, state by state -/

/-- The edits that do not name a state can be left out without the state's descriptor being another. -/
theorem descriptor_editAll_filter (t : Table) (edits : List Edit) (s : State) :
    (t.editAll (edits.filter (s ∈ ·.states))).descriptor s = (t.editAll edits).descriptor s := by
  induction edits using List.reverseRecOn with
  | nil => rfl
  | append_singleton edits e ih =>
    rw [List.filter_append, editAll_concat, descriptor_edit]
    by_cases h : s ∈ e.states
    · have hone : [e].filter (s ∈ ·.states) = [e] := by simp [h]
      rw [hone, editAll_concat, descriptor_edit, if_pos h, if_pos h, ih]
    · have hnone : [e].filter (s ∈ ·.states) = [] := by simp [h]
      rw [hnone, List.append_nil, if_neg h, ih]

/-- What an edit makes the handler of an event in a state, if it says anything about it. It may also say that there
    is none. -/
def Edit.assigns? (s : State) (event : Event) : Edit → Option (Option Handler)
  | .handle state e handler => if s = state ∧ event = e then some (some handler) else none
  | .handleIn states e handler => if s ∈ states ∧ event = e then some (some handler) else none
  | .unhandle state e => if s = state ∧ event = e then some none else none
  | .onEntry .. | .onExit .. | .afterEntry .. | .afterExit .. => none

theorem handlers_ite_withHandler (p : Prop) [Decidable p] (d : Descriptor) (e : Event) (handler : Option Handler)
    (event : Event) : (if p then d.withHandler e handler else d).handlers event =
      (if p ∧ event = e then some handler else none).getD (d.handlers event) := by
  by_cases hp : p <;> by_cases he : event = e <;> simp [Descriptor.withHandler, hp, he]

theorem handler?_edit (t : Table) (e : Edit) (s : State) (event : Event) :
    (t.edit e).handler? s event = (e.assigns? s event).getD (t.handler? s event) := by
  rw [handler?, descriptor_edit]
  cases e with
  | handle | handleIn | unhandle =>
    simp only [Edit.states, Edit.change, Edit.assigns?, List.mem_singleton]
    exact handlers_ite_withHandler ..
  | _ =>
    rw [Edit.assigns?, Option.getD_none]
    split <;> rfl

/-- The handler of an event in a state is what the last edit made it that says anything about it. -/
theorem handler?_editAll (t : Table) (edits : List Edit) (s : State) (event : Event) :
    (t.editAll edits).handler? s event =
      (edits.reverse.findSome? (Edit.assigns? s event)).getD (t.handler? s event) := by
  induction edits using List.reverseRecOn with
  | nil => rfl
  | append_singleton edits e ih =>
    -- The edit at the end is asked first.
    rw [editAll_concat, handler?_edit, ih, List.reverse_concat, List.findSome?_cons]
    cases e.assigns? s event <;> rfl

theorem bare_editAll_standardEdits : bare.editAll standardEdits = standard := by
  refine congrArg Table.mk (funext fun s => Descriptor.ext ?_ ?_ (funext fun e => ?_))
  · cases s <;> rfl
  · cases s <;> rfl
  · -- Only the last edit of each handler has to be found, not all of them run.
    refine (handler?_editAll bare standardEdits s e).trans ?_
    cases e with
    | join role => cases role <;> cases s <;> rfl
    | leave role => cases role <;> cases s <;> rfl

/-! ### What a table lacks -/

/-- Everything that a table can lack, in the order of the states, the joins of a state before its leaves. -/
def Gap.all : List Gap := State.all.flatMap fun s => Role.all.map (Gap.noJoin s) ++ [.noLeave s]

theorem gaps_sublist (t : Table) : t.gaps.Sublist Gap.all := by
  refine List.Sublist.flatMap_right _ fun s _ => (List.filter_sublist.map _).append ?_
  split
  · exact .refl _
  · exact List.nil_sublist _

theorem handles_eq_false_iff : (t.descriptor s).handles event = false ↔ t.handler? s event = none := by
  rw [Descriptor.handles, Option.isSome_eq_false_iff, Option.isNone_iff_eq_none, handler?]

theorem noJoin_mem_gaps {role : Role} : .noJoin s role ∈ t.gaps ↔ t.handler? s (.join role) = none := by
  have hrole : role ∈ Role.all := by cases role <;> decide
  rw [← handles_eq_false_iff, gaps, List.mem_flatMap]
  constructor
  · rintro ⟨state, -, h⟩
    rcases List.mem_append.mp h with h | h
    · obtain ⟨r, hr, heq⟩ := List.mem_map.mp h
      cases heq
      simpa using (List.mem_filter.mp hr).2
    · split at h <;> simp at h
  · intro h
    refine ⟨s, State.mem_all s, List.mem_append_left _ (List.mem_map_of_mem (List.mem_filter.mpr ⟨hrole, ?_⟩))⟩
    simp [h]

theorem noLeave_mem_gaps :
    .noLeave s ∈ t.gaps ↔ s ≠ .empty ∧ ∀ role, t.handler? s (.leave role) = none := by
  -- The check goes through the roles, in a list that has them all.
  have hall : (!Role.all.any fun role => (t.descriptor s).handles (.leave role)) = true ↔
      ∀ role, t.handler? s (.leave role) = none := by
    simp only [← handles_eq_false_iff, Bool.not_eq_true', List.any_eq_false, Bool.not_eq_true]
    exact ⟨fun h role => h role (by cases role <;> decide), fun h role _ => h role⟩
  rw [gaps, List.mem_flatMap, ← hall]
  constructor
  · rintro ⟨state, -, h⟩
    rcases List.mem_append.mp h with h | h
    · simp at h
    · split at h
      · cases List.mem_singleton.mp h
        assumption
      · simp at h
  · intro h
    exact ⟨s, State.mem_all s, List.mem_append_right _ (by rw [if_pos h]; exact List.mem_singleton_self _)⟩

theorem gaps_eq_nil_iff : t.gaps = [] ↔
    (∀ s role, (t.handler? s (.join role)).isSome) ∧ ∀ s ≠ .empty, ∃ role, (t.handler? s (.leave role)).isSome := by
  simp only [Option.isSome_iff_ne_none]
  constructor
  · intro h
    refine ⟨fun s role hnone => ?_, fun s hs => ?_⟩
    · have hmem := noJoin_mem_gaps.mpr hnone
      rw [h] at hmem
      cases hmem
    · by_contra hno
      have hmem := noLeave_mem_gaps.mpr ⟨hs, fun role => by_contra fun hne => hno ⟨role, hne⟩⟩
      rw [h] at hmem
      cases hmem
  · rintro ⟨hjoin, hleave⟩
    refine List.eq_nil_iff_forall_not_mem.mpr fun gap hgap => ?_
    cases gap with
    | noJoin s role => exact hjoin s role (noJoin_mem_gaps.mp hgap)
    | noLeave s =>
      obtain ⟨hs, hnone⟩ := noLeave_mem_gaps.mp hgap
      obtain ⟨role, hrole⟩ := hleave s hs
      exact hrole (hnone role)

end Table

namespace Sheet
open Table (Edit)
variable {t : Table}

/-! ### Rows in their places -/

/-- The sheet that has for each state, in its place, what a table has for it. -/
def ofTable (t : Table) : Sheet := ⟨State.all.map fun s => ⟨s, t.descriptor s⟩⟩

@[simp] theorem row?_ofTable (t : Table) (s : State) : (ofTable t).row? s = some ⟨s, t.descriptor s⟩ := by
  simp only [row?, ofTable, List.getElem?_map, State.all_getElem?_index, Option.map_some]

@[simp] theorem table_ofTable (t : Table) : (ofTable t).table = t := by
  simp only [table, row?_ofTable, Option.map_some, Option.getD_some]

@[simp] theorem handler?_ofTable (t : Table) (s : State) (event : Event) :
    (ofTable t).handler? s event = t.handler? s event := by
  simp only [handler?, row?_ofTable, Option.bind_some, Table.handler?]

theorem modify?_ofTable (t : Table) (s : State) (change : Descriptor → Descriptor) :
    (ofTable t).modify? s change = some (ofTable (t.modify s change)) := by
  cases s <;> rfl

theorem foldlM_modify?_ofTable (change : Descriptor → Descriptor) : ∀ (states : List State) (t : Table),
    states.foldlM (fun t s => modify? t s change) (ofTable t) =
      some (ofTable (states.foldl (fun t s => t.modify s change) t))
  | [], _ => rfl
  | state :: states, t => by
    rw [List.foldlM_cons, modify?_ofTable]
    exact foldlM_modify?_ofTable change states (t.modify state change)

theorem edit?_ofTable (t : Table) (e : Edit) : (ofTable t).edit? e = some (ofTable (t.edit e)) := by
  rw [edit?, foldlM_modify?_ofTable]
  cases e <;> rfl

theorem editAll?_ofTable : ∀ (edits : List Edit) (t : Table),
    (ofTable t).editAll? edits = some (ofTable (t.editAll edits))
  | [], _ => rfl
  | e :: edits, t => by
    rw [editAll?, List.foldlM_cons, edit?_ofTable]
    exact editAll?_ofTable edits (t.edit e)

/-- One handler for several states is the handler for each of them in turn. -/
theorem edit?_handleIn (t : Sheet) (states : List State) (event : Event) (handler : Handler) :
    t.edit? (.handleIn states event handler) = t.editAll? (states.map (Edit.handle · event handler)) := by
  have one (t : Sheet) (state : State) :
      t.edit? (.handle state event handler) = t.modify? state (·.withHandler event (some handler)) := by
    simp only [edit?, Edit.states, List.foldlM_cons, List.foldlM_nil, bind_pure, Edit.change]
  simp only [editAll?, List.foldlM_map, one]
  rfl

theorem faults_ofTable (t : Table) : (ofTable t).faults = t.gaps.map .gap := by
  -- The rows are as many as the states and in their places, so nothing is said before the gaps.
  have hcount : (ofTable t).rows.length = State.all.length := rfl
  have hplaces : (ofTable t).rows.zipIdx.filterMap (fun x =>
      if x.1.state.index ≠ x.2 then some (Fault.misplaced x.1.state x.2) else none) = [] := rfl
  rw [faults, hplaces, if_neg (not_not_intro hcount)]
  simp only [row?_ofTable, Option.isSome_some, if_true, table_ofTable, Table.gaps, List.map_flatMap, List.nil_append]

theorem validate_ofTable (t : Table) :
    (ofTable t).validate = if t.gaps = [] then .ok () else .error (t.gaps.map Table.Gap.message) := by
  rw [validate, faults_ofTable]
  cases t.gaps with
  | nil => rfl
  | cons gap gaps => simp [Fault.message]

theorem validate_ofTable_eq_ok_iff : (ofTable t).validate = .ok () ↔ t.gaps = [] := by
  rw [validate_ofTable]
  split <;> simp_all

/-- A table is refused for what its sheet is refused for, the texts put together. -/
theorem validate_table (t : Table) :
    t.validate = (ofTable t).validate.mapError fun texts => .badSettings ("; ".intercalate texts) := by
  rw [validate_ofTable, Table.validate]
  cases t.gaps <;> rfl

end Sheet

namespace Draft
open Table (Edit Gap)

/-- The table that a draft describes. -/
def table : Draft → Table
  | .blank => .bare
  | .standard => .standard
  | .edited draft edits => draft.table.editAll edits

theorem sheet?_eq : ∀ d : Draft, d.sheet? = some (.ofTable d.table)
  | .blank => rfl
  | .standard => by
    rw [sheet?, table, ← Table.bare_editAll_standardEdits]
    exact Sheet.editAll?_ofTable Table.standardEdits .bare
  | .edited draft edits => by
    rw [sheet?, sheet?_eq draft]
    exact Sheet.editAll?_ofTable edits draft.table

/-- Any draft can be made and edited in any way. In the sheet that comes of it every state finds its own row. The
    handler of an event in a state is what the last edit made it that says anything about it, or the draft's if none
    does; the hooks of a state are the one set last and those added since. A handler for several states is the
    handler for each of them in turn, and the row of a state is the same without the edits that do not name it. The
    sheet is fit for use exactly if every state handles the joins of all roles and every state but the empty one
    handles some leave, and so is its table; else it is refused with the texts of the joins and leaves that it lacks,
    each once and in the order of the states. -/
theorem sheet_by_edits (draft : Draft) (edits : List Edit) :
    ∃ base sheet, draft.sheet? = some base ∧ base.editAll? edits = some sheet ∧
      sheet.rows.map (·.state) = State.all ∧
      (∀ s, sheet.row? s = some ⟨s, sheet.table.descriptor s⟩) ∧
      (∀ s event, sheet.handler? s event =
        (edits.reverse.findSome? (Edit.assigns? s event)).getD (base.handler? s event)) ∧
      (∀ side s, (sheet.table.descriptor s).hook? side = Hook.chain (base.table.hooks edits side s)) ∧
      (∀ states event handler, sheet.edit? (.handleIn states event handler) =
        sheet.editAll? (states.map (Edit.handle · event handler))) ∧
      (∀ s, ∃ own, base.editAll? (edits.filter (s ∈ ·.states)) = some own ∧ own.row? s = sheet.row? s) ∧
      (sheet.validate = .ok () ↔
        (∀ s role, (sheet.handler? s (.join role)).isSome) ∧
          ∀ s ≠ .empty, ∃ role, (sheet.handler? s (.leave role)).isSome) ∧
      (sheet.table.validate = sheet.validate.mapError fun texts => .badSettings ("; ".intercalate texts)) ∧
      ∃ gaps : List Gap, gaps.Sublist Gap.all ∧
        (∀ s role, .noJoin s role ∈ gaps ↔ sheet.handler? s (.join role) = none) ∧
        (∀ s, .noLeave s ∈ gaps ↔ s ≠ .empty ∧ ∀ role, sheet.handler? s (.leave role) = none) ∧
        sheet.validate = if gaps = [] then .ok () else .error (gaps.map Gap.message) := by
  have hbase := sheet?_eq draft
  have hsheet := Sheet.editAll?_ofTable edits draft.table
  refine ⟨_, _, hbase, hsheet, rfl, ?found, ?handlers, ?hooks, ?several, ?own, ?fit, ?refused, ?lacking⟩
  case found => simp
  case handlers => simpa using Table.handler?_editAll draft.table edits
  case hooks => simpa using Table.hook?_editAll draft.table edits
  case several => exact fun states event handler => Sheet.edit?_handleIn _ states event handler
  case own =>
    intro s
    refine ⟨_, Sheet.editAll?_ofTable _ draft.table, ?_⟩
    simp [Table.descriptor_editAll_filter]
  case fit => simpa using Sheet.validate_ofTable_eq_ok_iff.trans Table.gaps_eq_nil_iff
  case refused => simpa using Sheet.validate_table _
  case lacking =>
    simp only [Sheet.handler?_ofTable]
    exact ⟨_, Table.gaps_sublist _, fun s role => Table.noJoin_mem_gaps, fun s => Table.noLeave_mem_gaps,
      Sheet.validate_ofTable _⟩

/-- An ordinary bridge that would keep its waiting guests and not admit a leader. -/
example : (Draft.edited .standard
      [.unhandle .inactive (.leave .waitMarked), .unhandle .multi (.join .marked)]).sheet?.map (·.validate) =
    some (.error ["State INACTIVE has no leave transition", "State MULTI does not handle JOIN_MARKED"]) := rfl

end Draft
end ConferenceBridge
