import ConferenceBridge.Conference

/-! A directory of conferences by name. A conference is created when its name is first asked for, and it
    goes once nobody is attached to it and nobody holds it. Every conference gets a serial number of its
    own, so that a handle names one conference and not whatever has its name later. -/

namespace ConferenceBridge

/-- A conference as somebody holds it. -/
structure Handle where
  name : String
  serial : Nat
  deriving DecidableEq, Inhabited

namespace Directory

/-- A registered conference. -/
structure Entry where
  serial : Nat
  conference : Conference

def Entry.name (e : Entry) : String := e.conference.name

def Entry.handle (e : Entry) : Handle := ⟨e.name, e.serial⟩

end Directory

/-- The conferences that are registered, and the handles that others hold. -/
structure Directory where
  settings : DirectorySettings
  table : Table
  entries : List Directory.Entry := []
  /-- How many places for conferences are taken. -/
  slots : Nat := 0
  nextSerial : Nat := 0
  /-- The handles outstanding, each as often as it is held. -/
  handles : List Handle := []

namespace Directory

/-- What became of an event that was raised through a directory. -/
structure Raised (σ : Type) where
  result : Except BridgeError Outcome
  directory : Directory
  caller : Caller
  world : σ
  notes : List Note := []

/-- A directory without conferences, unless its settings or its table make no sense. -/
def create (settings : DirectorySettings) (table : Table) : Except BridgeError Directory := do
  settings.validate
  table.validate
  return { settings, table }

/-! ### Looking -/

/-- The registered conference of that name. -/
def find? (d : Directory) (name : String) : Option Entry := d.entries.find? (·.name == name)

def isRegistered (d : Directory) (name : String) : Bool := (d.find? name).isSome

/-- The registered conference that a handle names. -/
def resolve? (d : Directory) (h : Handle) : Option Entry :=
  d.entries.find? fun e => e.serial == h.serial && e.name == h.name

def size (d : Directory) : Nat := d.entries.length

def isEmpty (d : Directory) : Bool := d.entries.isEmpty

/-- The registered conferences by name, in the order of the characters. -/
def sorted (d : Directory) : List Entry := d.entries.mergeSort fun a b => a.name ≤ b.name

/-- The names registered, in the order of the characters. -/
def names (d : Directory) : List String := d.sorted.map (·.name)

/-- Somebody holds the conference. -/
def isHeld (d : Directory) (e : Entry) : Bool := d.handles.any (·.serial == e.serial)

/-- Nobody is attached to the conference and nobody holds it. -/
def isIdle (d : Directory) (e : Entry) : Bool := e.conference.isEmpty && !d.isHeld e

/-! ### Holding -/

/-- Notes that somebody holds the conference. -/
def hold (d : Directory) (h : Handle) : Directory := { d with handles := h :: d.handles }

/-- Notes that somebody who held the conference holds it no more. -/
def letGo (d : Directory) (h : Handle) : Directory := { d with handles := d.handles.erase h }

/-! ### Creating and removing -/

/-- The refusal of a conference for which there is no place, if there is none. -/
def limitReached? (d : Directory) (name : String) : Option BridgeError :=
  d.settings.maxConferences.bind fun most =>
    if most ≤ d.slots then
      some (.noRoom ("cannot create conference '" ++ name ++ "': limit of " ++ toString most
        ++ " reached"))
    else none

/-- The directory with one conference more, which takes a place. -/
def register (d : Directory) (c : Conference) : Entry × Directory :=
  let entry : Entry := ⟨d.nextSerial, c⟩
  (entry, { d with
    entries := d.entries ++ [entry]
    slots := d.slots + 1
    nextSerial := d.nextSerial + 1 })

/-- The registered conference of that name, or a new one. -/
def obtain (d : Directory) (name : String) :
    Except BridgeError (Entry × Directory × List Log.Line) :=
  match d.find? name with
  | some entry => .ok (entry, d, [])
  | none =>
    match d.limitReached? name with
    | some e => .error e
    | none => do
      let c ← Conference.create name d.settings.conference d.table
      let (entry, d) := d.register c
      return (entry, d, [Log.info ("Created conference '" ++ name ++ "'")])

/-- Puts a conference in the place of what was registered with this serial number. -/
def update (d : Directory) (serial : Nat) (c : Conference) : Directory :=
  { d with entries := d.entries.map fun e => if e.serial = serial then ⟨serial, c⟩ else e }

/-- Removes the conference of that name if it is idle. Tells whether it did. -/
def removeIdle (d : Directory) (name : String) : Bool × Directory × List Log.Line :=
  match d.find? name with
  | some entry =>
    if d.isIdle entry then
      (true, { d with
        entries := d.entries.filter (·.serial != entry.serial)
        slots := d.slots - 1 },
        [Log.info ("Removed conference '" ++ name ++ "'")])
    else (false, d, [])
  | none => (false, d, [])

/-- Removes every idle conference. Tells how many there were. -/
def sweep (d : Directory) : Nat × Directory × List Log.Line :=
  let reaped := (d.entries.filter d.isIdle).length
  (reaped, { d with entries := d.entries.filter (!d.isIdle ·), slots := d.slots - reaped },
    if reaped = 0 then [] else [Log.debug ("Reaped " ++ toString reaped ++ " empty conferences")])

/-! ### Raising events -/

variable {σ : Type}

/-- Raises an event against a registered conference. -/
def raise (host : Host σ) (d : Directory) (e : Entry) (caller : Caller) (event : Event) (w : σ) :
    Raised σ :=
  let applied := e.conference.apply host caller event w
  { result := applied.result
    directory := d.update e.serial applied.conference
    caller := applied.caller
    world := applied.world
    notes := applied.notes }

/-- Removes the conference of that name if what was raised has left it idle. -/
def Raised.tidy (host : Host σ) (r : Raised σ) (name : String) : Raised σ :=
  let (_, d, log) := r.directory.removeIdle name
  { r with directory := d, world := host.logAll log r.world }

/-- Joins the conference of that name, which is created if need be. One that is created for a join that
    fails goes again. -/
def join (host : Host σ) (d : Directory) (name : String) (caller : Caller) (w : σ) : Raised σ :=
  match d.obtain name with
  | .error e => { result := .error e, directory := d, caller, world := w }
  | .ok (entry, created, log) =>
    let raised := created.raise host entry caller caller.participant.joinEvent (host.logAll log w)
    match raised.result with
    | .ok _ => raised
    | .error _ => if d.isRegistered name then raised else raised.tidy host name

/-- Leaves the conference of that name, which goes if nobody is left. -/
def leave (host : Host σ) (d : Directory) (name : String) (caller : Caller) (w : σ) : Raised σ :=
  match d.find? name with
  | none =>
    { result := .error (.notAttached name caller.participant.id), directory := d, caller, world := w }
  | some entry =>
    (d.raise host entry caller caller.participant.leaveEvent w).tidy host name

/-- Raises an event against a conference that the caller holds. A handle that names no registered
    conference does nothing. -/
def raiseHeld (host : Host σ) (d : Directory) (h : Handle) (caller : Caller) (event : Event) (w : σ) :
    Option (Raised σ) :=
  (d.resolve? h).map fun entry => d.raise host entry caller event w

end Directory
end ConferenceBridge
