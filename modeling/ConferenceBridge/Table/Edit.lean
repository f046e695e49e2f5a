import ConferenceBridge.Table.Basic

/-! Tables made from other tables. An edit changes the descriptor of the states it names and of no
    other. A later edit of the same handler or hook replaces an earlier one; a hook can also be added to
    run after the one that is there. -/

namespace ConferenceBridge

namespace Descriptor

/-- The descriptor with this as what it has for an event. -/
def withHandler (d : Descriptor) (event : Event) (handler : Option Handler) : Descriptor :=
  { d with handlers := fun e => if e = event then handler else d.handlers e }

/-- The descriptor with this hook run after its entry hook. -/
def afterEntry (d : Descriptor) (hook : Hook) : Descriptor :=
  { d with entry := some (Hook.following d.entry hook) }

/-- The descriptor with this hook run after its exit hook. -/
def afterExit (d : Descriptor) (hook : Hook) : Descriptor :=
  { d with exit := some (Hook.following d.exit hook) }

end Descriptor

namespace Table

/-- One change to a table. -/
inductive Edit where
  | handle (state : State) (event : Event) (handler : Handler)
  /-- One handler for several states. -/
  | handleIn (states : List State) (event : Event) (handler : Handler)
  | unhandle (state : State) (event : Event)
  | onEntry (state : State) (hook : Hook)
  | onExit (state : State) (hook : Hook)
  /-- Runs after the entry hook that is there. -/
  | afterEntry (state : State) (hook : Hook)
  /-- Runs after the exit hook that is there. -/
  | afterExit (state : State) (hook : Hook)

namespace Edit

/-- The states that an edit names, each time it names them. -/
def states : Edit → List State
  | .handle state .. | .unhandle state _ => [state]
  | .handleIn states .. => states
  | .onEntry state _ | .onExit state _ | .afterEntry state _ | .afterExit state _ => [state]

/-- What an edit does to the descriptor of a state that it names. -/
def change : Edit → Descriptor → Descriptor
  | .handle _ event handler | .handleIn _ event handler => (·.withHandler event (some handler))
  | .unhandle _ event => (·.withHandler event none)
  | .onEntry _ hook => ({ · with entry := some hook })
  | .onExit _ hook => ({ · with exit := some hook })
  | .afterEntry _ hook => (·.afterEntry hook)
  | .afterExit _ hook => (·.afterExit hook)

end Edit

/-- Changes the descriptor of one state. -/
def modify (t : Table) (state : State) (change : Descriptor → Descriptor) : Table :=
  ⟨fun s => if s = state then change (t.descriptor s) else t.descriptor s⟩

/-- The table after a change. -/
def edit (t : Table) : Edit → Table
  | .handle state event handler => t.modify state (·.withHandler event (some handler))
  | .handleIn states event handler =>
    states.foldl (fun t state => t.modify state (·.withHandler event (some handler))) t
  | .unhandle state event => t.modify state (·.withHandler event none)
  | .onEntry state hook => t.modify state ({ · with entry := some hook })
  | .onExit state hook => t.modify state ({ · with exit := some hook })
  | .afterEntry state hook => t.modify state (·.afterEntry hook)
  | .afterExit state hook => t.modify state (·.afterExit hook)

/-- The table after some changes, one after the other. -/
def editAll (t : Table) (edits : List Edit) : Table := edits.foldl edit t

end Table
end ConferenceBridge
