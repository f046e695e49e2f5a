import ConferenceBridge.Table.Edit
import ConferenceBridge.Table.Standard

/-! Tables as they are put together. A sheet is a list of rows, one for each state, and the row of a state is
    looked for at the position of the state. Whoever edits a row that is not there, or reads it, fails. A draft
    says how a sheet is made: from nothing, from the rows of an ordinary bridge, or from another sheet. -/

namespace ConferenceBridge

/-- What a sheet has for one state. -/
structure Row where
  state : State
  descriptor : Descriptor := {}

structure Sheet where
  rows : List Row

namespace Sheet
open Table (Edit)

/-- A row for every state, in which nothing is done. -/
def blank : Sheet := ⟨State.all.map fun s => { state := s }⟩

/-- The row at the position of a state. -/
def row? (t : Sheet) (s : State) : Option Row := t.rows[s.index]?

def handler? (t : Sheet) (s : State) (e : Event) : Option Handler :=
  (t.row? s).bind (·.descriptor.handlers e)

/-- The table that the rows come to. -/
def table (t : Sheet) : Table := ⟨fun s => ((t.row? s).map (·.descriptor)).getD {}⟩

/-! ### Editing -/

/-- Changes the row at the position of a state, if there is one. -/
def modify? (t : Sheet) (s : State) (change : Descriptor → Descriptor) : Option Sheet :=
  if s.index < t.rows.length then
    some ⟨t.rows.modify s.index fun row => { row with descriptor := change row.descriptor }⟩
  else none

/-- The sheet after an edit, unless the edit names a state whose row is not there. -/
def edit? (t : Sheet) (e : Edit) : Option Sheet := e.states.foldlM (fun t s => t.modify? s e.change) t

def editAll? (t : Sheet) (edits : List Edit) : Option Sheet := edits.foldlM edit? t

/-! ### Checking -/

/-- What is wrong with a sheet. -/
inductive Fault where
  /-- There are not as many rows as states. -/
  | rowCount (found : Nat)
  /-- The row of a state is at the position of another. -/
  | misplaced (state : State) (position : Nat)
  /-- The row of a state lacks something. -/
  | gap (lack : Table.Gap)

def Fault.message : Fault → String
  | .rowCount found => "Expected " ++ toString State.all.length ++ " states, found " ++ toString found
  | .misplaced state position => "State " ++ state.name ++ " stored at position " ++ toString position
  | .gap lack => lack.message

/-- What is wrong with a sheet: the number of rows, then their order, then what they lack. A state without a
    row counts as missing and not as lacking anything. -/
def faults (t : Sheet) : List Fault :=
  (if t.rows.length ≠ State.all.length then [.rowCount t.rows.length] else []) ++
    (t.rows.zipIdx.filterMap fun x =>
      if x.1.state.index ≠ x.2 then some (.misplaced x.1.state x.2) else none) ++
    State.all.flatMap fun s => if (t.row? s).isSome then (t.table.gapsOf s).map .gap else []

/-- A sheet is fit for use if nothing is wrong with it; a refusal lists the faults. -/
def validate (t : Sheet) : Except (List String) Unit :=
  match t.faults with
  | [] => .ok ()
  | faults => .error (faults.map (·.message))

end Sheet

namespace Table

/-- The edits that set the hooks of an ordinary bridge for a state. -/
def hookEdits : State → List Edit
  | .empty => [.onEntry .empty tellEnd, .onExit .empty tellStart]
  | .inactive => [.onEntry .inactive startWaits]
  | .single | .multi => []
  | .singleMarked => [.onEntry .singleMarked freeWaiting]
  | .multiMarked => [.onEntry .multiMarked freeWaiting]

/-- The edits that make an ordinary bridge out of nothing, state by state: its hooks, the joins, and the leaves
    of those who can be present. -/
def standardEdits : List Edit :=
  State.all.flatMap fun s =>
    hookEdits s ++ (Role.all.map fun role => Edit.handle s (.join role) onJoin) ++
      (departing s).map fun role => Edit.handle s (.leave role) onLeave

end Table

/-- How a sheet is made. -/
inductive Draft where
  | blank
  | standard
  /-- The sheet of another draft, edited. -/
  | edited (draft : Draft) (edits : List Table.Edit)

def Draft.sheet? : Draft → Option Sheet
  | .blank => some .blank
  | .standard => Sheet.blank.editAll? Table.standardEdits
  | .edited draft edits => draft.sheet?.bind (·.editAll? edits)

end ConferenceBridge
