/-! The mode of a conference. It depends only on how many participants are marked, live and waiting:
    `State.ofCounts` is that function, and everything else in the library agrees with it. -/

namespace ConferenceBridge

/-- What a conference is doing for the people attached to it. -/
inductive State where
  /-- Nobody is attached. -/
  | empty
  /-- Nobody is live; wait-marked participants are parked for a marked one. -/
  | inactive
  /-- One live participant and no marked one. -/
  | single
  /-- Two or more live participants and no marked one. -/
  | multi
  /-- One participant, and it is marked. -/
  | singleMarked
  /-- Two or more participants, at least one of them marked. -/
  | multiMarked
  deriving DecidableEq, Inhabited

namespace State

/-- Every state, in the order in which tables and reports list them. -/
def all : List State := [.empty, .inactive, .single, .multi, .singleMarked, .multiMarked]

theorem mem_all (s : State) : s ∈ all := by cases s <;> decide

/-- The state that the counts call for. A marked participant is always live and sets the waiting
    ones free, so with one present only the number of people attached matters. -/
def ofCounts (marked active waiting : Nat) : State :=
  if 0 < marked then
    if active + waiting ≤ 1 then .singleMarked else .multiMarked
  else
    match active, waiting with
    | 0, 0 => .empty
    | 0, _ => .inactive
    | 1, _ => .single
    | _, _ => .multi

/-- The name shown in messages. -/
def name : State → String
  | .empty => "EMPTY"
  | .inactive => "INACTIVE"
  | .single => "SINGLE"
  | .multi => "MULTI"
  | .singleMarked => "SINGLE_MARKED"
  | .multiMarked => "MULTI_MARKED"

/-- The word that stands for the state in encoded values. -/
def label : State → String
  | .empty => "Empty"
  | .inactive => "Inactive"
  | .single => "Single"
  | .multi => "Multi"
  | .singleMarked => "SingleMarked"
  | .multiMarked => "MultiMarked"

/-- The position in `State.all`. -/
def index : State → Nat
  | .empty => 0
  | .inactive => 1
  | .single => 2
  | .multi => 3
  | .singleMarked => 4
  | .multiMarked => 5

theorem all_getElem?_index (s : State) : all[s.index]? = some s := by cases s <;> rfl

/-- A marked participant is present. -/
def isMarked : State → Bool
  | .singleMarked | .multiMarked => true
  | _ => false

/-- The state with this name, if there is one. -/
def ofName? (text : String) : Option State := all.find? (·.name == text)

/-- The state with this label, if there is one. -/
def ofLabel? (text : String) : Option State := all.find? (·.label == text)

theorem ofName?_name (s : State) : ofName? s.name = some s := by cases s <;> decide

theorem ofLabel?_label (s : State) : ofLabel? s.label = some s := by cases s <;> decide

end State
end ConferenceBridge
