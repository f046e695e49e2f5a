import ConferenceBridge.Settings.Basic

/-! Who is attached to a conference. The roster holds the live participants in admission order and the
    waiting ones in order of arrival, and decides who is admitted, parked, released and removed. An
    operation that fails returns no roster, so a refusal changes nothing. -/

namespace ConferenceBridge

/-- One attached participant. -/
structure Record where
  participant : Participant
  membership : Membership
  /-- Waiting treatment has been asked for since the participant was last parked. -/
  onHold : Bool := false
  /-- A kick has been asked for; the participant's own leave is still to come. -/
  kicked : Bool := false
  deriving DecidableEq, Inhabited

namespace Record

def id (r : Record) : String := r.participant.id

def role (r : Record) : Role := r.participant.role

def isMarked (r : Record) : Bool := r.participant.isMarked

/-- Waiting treatment has not been asked for and is still due. -/
def needsHold (r : Record) : Bool := !r.onHold && !r.kicked

/-- The participant is to go when no leader is left, and nobody has asked it to yet. -/
def needsKick (r : Record) : Bool := r.participant.profile.endMarked && !r.kicked

/-- The record with waiting treatment asked for. -/
def held (r : Record) : Record := { r with onHold := true }

/-- The record once it is parked: a new wait, not treated yet. -/
def parked (r : Record) : Record := { r with membership := .waiting, onHold := false }

/-- The record once it is live. -/
def live (r : Record) : Record := { r with membership := .active, onHold := false }

end Record

/-- The attached participants, how many of them are marked, and the settings that govern them. -/
structure Roster where
  active : List Record := []
  waiting : List Record := []
  marked : Nat := 0
  maxMembers : Option Nat := none
  policy : Policy := .demoteWaitMarked
  deriving DecidableEq, Inhabited

/-- What the removal of a participant brought about. -/
structure Parting where
  /-- The record as it was before it was removed. -/
  record : Record
  /-- The participants that were parked again and are still wanted, in live order. -/
  demoted : List Participant
  /-- The participants that must now go, in live order. -/
  kicked : List Participant
  /-- The participant was the last marked one. -/
  lastMarkedLeft : Bool
  deriving DecidableEq

namespace Roster

/-- Nobody is attached yet. -/
def ofSettings (s : ConferenceSettings) : Roster :=
  { maxMembers := s.maxMembers, policy := s.policy }

/-! ### Looking -/

/-- Everybody attached, the live before the waiting. -/
def records (r : Roster) : List Record := r.active ++ r.waiting

/-- How many participants are attached. -/
def size (r : Roster) : Nat := r.active.length + r.waiting.length

def isEmpty (r : Roster) : Bool := r.active.isEmpty && r.waiting.isEmpty

def activeIds (r : Roster) : List String := r.active.map (·.id)

def waitingIds (r : Roster) : List String := r.waiting.map (·.id)

/-- The record of a participant, live or waiting. -/
def get? (r : Roster) (id : String) : Option Record :=
  (r.active.find? (·.id == id)).or (r.waiting.find? (·.id == id))

def contains (r : Roster) (id : String) : Bool :=
  r.active.any (·.id == id) || r.waiting.any (·.id == id)

def membership? (r : Roster) (id : String) : Option Membership := (r.get? id).map (·.membership)

/-- The state that the attached participants call for. -/
def target (r : Roster) : State := .ofCounts r.marked r.active.length r.waiting.length

/-- The one other live participant, once `id` has made the live mix two strong. -/
def companion? (r : Roster) (id : String) : Option Participant :=
  if r.active.length = 2 ∧ r.active.any (·.id == id) then
    (r.active.find? (·.id != id)).map (·.participant)
  else none

/-- No further participant may attach. -/
def isFull (r : Roster) : Bool :=
  match r.maxMembers with
  | some most => most ≤ r.size
  | none => false

/-! ### Admitting -/

/-- Where an arriving participant goes: only the wait-marked wait, and only without a leader. -/
def placement (r : Roster) (p : Participant) : Membership :=
  match p.role with
  | .waitMarked => if 0 < r.marked then .active else .waiting
  | .unmarked | .marked => .active

/-- The roster with the participant placed at the end of its list. -/
def place (r : Roster) (p : Participant) : Roster :=
  let record : Record := { participant := p, membership := r.placement p }
  let r := { r with marked := if p.isMarked then r.marked + 1 else r.marked }
  match record.membership with
  | .waiting => { r with waiting := r.waiting ++ [record] }
  | _ => { r with active := r.active ++ [record] }

/-- Takes in an arriving participant, unless it is attached already or there is no room for it. Gives
    the place it got. -/
def attach (r : Roster) (conference : String) (p : Participant) :
    Except BridgeError (Membership × Roster) :=
  if r.contains p.id then .error (.alreadyAttached conference p.id)
  else if r.isFull then
    .error (.noRoom ("conference '" ++ conference ++ "' is full ("
      ++ toString (r.maxMembers.getD 0) ++ " members)"))
  else .ok (r.placement p, r.place p)

/-! ### Departing -/

/-- Takes a participant's record out, the order of the others kept. -/
def remove? (r : Roster) (id : String) : Option (Record × Roster) :=
  match r.active.find? (·.id == id) with
  | some record => some (record, { r with active := r.active.eraseP (·.id == id) })
  | none =>
    (r.waiting.find? (·.id == id)).map fun record =>
      (record, { r with waiting := r.waiting.eraseP (·.id == id) })

/-- Asks every live end-marked participant to go that has not been asked before. -/
def dismissEndMarked (r : Roster) : List Participant × Roster :=
  ((r.active.filter (·.needsKick)).map (·.participant),
    { r with active := r.active.map fun x => if x.needsKick then { x with kicked := true } else x })

/-- Parks a live participant at the end of the waiting list. -/
def park (r : Roster) (id : String) : Roster :=
  match r.active.find? (·.id == id) with
  | some record =>
    { r with
      active := r.active.eraseP (·.id == id)
      waiting := r.waiting ++ [record.parked] }
  | none => r

/-- Parks every live wait-marked participant, in live order. Those already asked to go are parked too,
    but they are not listed: no waiting treatment is due to them. -/
def parkWaitMarked (r : Roster) : List Participant × Roster :=
  let gated := r.active.filter (·.role == .waitMarked)
  ((gated.filter (!·.kicked)).map (·.participant), (gated.map (·.id)).foldl park r)

/-- What follows once no marked participant is left: kicks, and demotions if the policy asks for them.
    Gives the kicked and the demoted participants. -/
def loseLastMarked (r : Roster) : List Participant × List Participant × Roster :=
  let (kicked, r) := r.dismissEndMarked
  match r.policy with
  | .demoteWaitMarked =>
    let (demoted, r) := r.parkWaitMarked
    (kicked, demoted, r)
  | .keepActive => (kicked, [], r)

/-- Takes a participant out. When it was the last marked one, the policy is applied to the others. -/
def depart (r : Roster) (conference id : String) : Except BridgeError (Parting × Roster) :=
  match r.remove? id with
  | none => .error (.notAttached conference id)
  | some (record, r) =>
    let r := { r with marked := if record.isMarked then r.marked - 1 else r.marked }
    if record.isMarked ∧ r.marked = 0 then
      let (kicked, demoted, r) := r.loseLastMarked
      .ok (⟨record, demoted, kicked, true⟩, r)
    else .ok (⟨record, [], [], false⟩, r)

/-! ### Releasing and holding -/

/-- Makes every waiting participant live, in order of arrival and after those already live. -/
def release (r : Roster) : List Participant × Roster :=
  (r.waiting.map (·.participant),
    { r with active := r.active ++ r.waiting.map (·.live), waiting := [] })

/-- Asks for waiting treatment for one participant. Gives it back if the treatment is due. -/
def hold (r : Roster) (id : String) : Option Participant × Roster :=
  match r.waiting.find? (·.id == id) with
  | some record =>
    if record.needsHold then
      (some record.participant,
        { r with waiting := r.waiting.map fun x => if x.id = id then x.held else x })
    else (none, r)
  | none => (none, r)

/-- Asks for waiting treatment for each of these in turn. Gives those to whom it is due. -/
def holdEach (r : Roster) : List String → List Participant × Roster
  | [] => ([], r)
  | id :: ids =>
    let (due, r) := r.hold id
    let (others, r) := holdEach r ids
    (due.toList ++ others, r)

/-- Asks for waiting treatment for everybody waiting, in order of arrival. -/
def holdWaiting (r : Roster) : List Participant × Roster :=
  ((r.waiting.filter (·.needsHold)).map (·.participant),
    { r with waiting := r.waiting.map fun x => if x.needsHold then x.held else x })

end Roster
end ConferenceBridge
