import ConferenceBridge.Proofs.Directory.FailedJoin

/-! Visits to a directory of which nobody holds a conference. A visit, a manager's join or leave, meets the
    conference of its name and no other: what it comes to can be told from that conference and from who the caller is,
    and the other conferences stay as they are. -/

namespace ConferenceBridge
open Directory

/-- What a caller brings to a conference is who it is: the place it had in another does not count. -/
theorem Conference.apply_of_drained {σ : Type} {caller : Caller} (h : caller.pending = []) (host : Host σ)
    (c : Conference) (e : Event) (w : σ) :
    (c.apply host caller e w).result = (c.apply host { participant := caller.participant } e w).result ∧
      (c.apply host caller e w).conference = (c.apply host { participant := caller.participant } e w).conference ∧
      (c.apply host caller e w).world = (c.apply host { participant := caller.participant } e w).world := by
  obtain ⟨p, membership, pending⟩ := caller
  subst h
  cases hr : (c.fire { participant := p } e).result with
  | error error =>
    have hr' : (c.fire { participant := p, membership } e).result = .error error := hr
    rw [apply_of_error hr, apply_of_error hr']
    exact ⟨rfl, rfl, rfl⟩
  | ok transition =>
    have hr' : (c.fire { participant := p, membership } e).result = .ok transition := hr
    rw [apply_of_ok hr, apply_of_ok hr']
    exact ⟨rfl, rfl, rfl⟩

/-! ### The conferences of a directory -/

namespace Directory
variable {σ : Type} {host : Host σ} {d : Directory} {e : Entry} {c : Conference} {name other : String}
  {settings : DirectorySettings} {table : Table} {rooms : String → Option Conference}

/-- The registered conference of that name, without its serial number. -/
def conference? (d : Directory) (name : String) : Option Conference := (d.find? name).map (·.conference)

/-- A directory that has these conferences, takes any number of them, and of which nobody holds any. -/
structure Shows (d : Directory) (settings : DirectorySettings) (table : Table) (rooms : String → Option Conference) :
    Prop where
  sound : d.Sound
  settings_eq : d.settings = settings
  table_eq : d.table = table
  unlimited : settings.maxConferences = none
  unheld : d.handles = []
  rooms_eq : d.conference? = rooms

theorem Shows.of_create (h : create settings table = .ok d) (hunlimited : settings.maxConferences = none) :
    d.Shows settings table fun _ => none := by
  obtain ⟨hd, rfl⟩ := Sound.of_create h
  exact ⟨hd, rfl, rfl, hunlimited, rfl, rfl⟩

theorem conference?_of_find? (h : d.find? name = some e) : d.conference? name = some e.conference := by
  rw [conference?, h]
  rfl

theorem conference?_eq_none_iff : d.conference? name = none ↔ d.find? name = none := Option.map_eq_none_iff

theorem name_of_conference? (h : d.conference? name = some c) : c.name = name := by
  obtain ⟨e, he, rfl⟩ := Option.map_eq_some_iff.mp h
  exact (of_find? he).2

theorem isRegistered_eq : d.isRegistered name = (d.conference? name).isSome := Option.isSome_map.symm

theorem find?_register_of_ne (hne : other ≠ c.name) : (d.register c).2.find? other = d.find? other := by
  have hnew : [(⟨d.nextSerial, c⟩ : Entry)].find? (·.name == other) = none := by
    simpa [Entry.name] using Ne.symm hne
  unfold find?
  rw [register, List.find?_append, hnew, Option.or_none]

theorem Sound.find?_dropping {picked : Entry → Bool} (hd : d.Sound) (hdropped : (d.dropping picked).Sound) :
    (d.dropping picked).find? name = (d.find? name).filter (!picked ·) := by
  ext e
  rw [hdropped.find?_eq_some_iff, Option.filter_eq_some_iff, hd.find?_eq_some_iff, dropping, List.mem_filter,
    and_right_comm]

theorem Shows.register (h : d.Shows settings table rooms) (hf : d.find? c.name = none) :
    (d.register c).2.Shows settings table (Function.update rooms c.name (some c)) where
  sound := by
    refine (h.sound.grows_register hf ?_).sound
    rw [h.settings_eq, h.unlimited]
    nofun
  settings_eq := h.settings_eq
  table_eq := h.table_eq
  unlimited := h.unlimited
  unheld := h.unheld
  rooms_eq := by
    rw [← h.rooms_eq]
    funext other
    by_cases hne : other = c.name
    · rw [hne, Function.update_self, conference?_of_find? (find?_register hf)]
    · rw [Function.update_of_ne hne, conference?, find?_register_of_ne hne]
      rfl

theorem Shows.update (h : d.Shows settings table rooms) (he : e ∈ d.entries) (hn : c.name = e.name) :
    (d.update e.serial c).Shows settings table (Function.update rooms e.name (some c)) where
  sound := (h.sound.grows_update he hn).sound
  settings_eq := h.settings_eq
  table_eq := h.table_eq
  unlimited := h.unlimited
  unheld := h.unheld
  rooms_eq := by
    rw [← h.rooms_eq]
    funext other
    by_cases hne : other = e.name
    · rw [hne, Function.update_self, conference?_of_find? (h.sound.find?_update he hn)]
    · rw [Function.update_of_ne hne, conference?, h.sound.find?_update_of_ne he hn hne]
      rfl

theorem Shows.isIdle_eq (h : d.Shows settings table rooms) : d.isIdle e = e.conference.isEmpty := by
  rw [isIdle, isHeld, h.unheld]
  exact Bool.and_true _

/-- The conference of this name goes if nobody is counted in it. -/
theorem Shows.removeIdle (h : d.Shows settings table rooms) (hc : rooms name = some c) :
    (d.removeIdle name).2.1.Shows settings table
        (if c.isEmpty then Function.update rooms name none else rooms) ∧
      (d.removeIdle name).2.2 = if c.isEmpty then [Log.info ("Removed conference '" ++ name ++ "'")] else [] := by
  obtain ⟨e, he, rfl⟩ := Option.map_eq_some_iff.mp ((congrFun h.rooms_eq name).trans hc)
  have dropped : (d.removeIdle name).2.1.Sound := by
    rw [h.sound.removeIdle_eq name]
    refine h.sound.dropped fun e _ _ => ?_
    rw [isHeld, h.unheld]
    rfl
  have told : (d.removeIdle name).2.2 =
      if e.conference.isEmpty then [Log.info ("Removed conference '" ++ name ++ "'")] else [] := by
    simp only [Directory.removeIdle, he, h.isIdle_eq]
    split <;> rfl
  refine ⟨?_, told⟩
  rw [h.sound.removeIdle_eq name] at dropped ⊢
  refine ⟨dropped, h.settings_eq, h.table_eq, h.unlimited, h.unheld, ?_⟩
  funext other
  rw [conference?, h.sound.find?_dropping dropped, ← h.rooms_eq]
  by_cases hne : other = name
  · subst hne
    rw [he]
    cases hempty : e.conference.isEmpty <;> simp [(of_find? he).2, h.isIdle_eq, hempty, conference?, he]
  · have hstay : (d.find? other).filter (fun e => !(e.name == name && d.isIdle e)) = d.find? other := by
      cases hx : d.find? other with
      | none => rfl
      | some x => simp [Option.filter, (of_find? hx).2, hne]
    rw [hstay]
    split
    · rw [Function.update_of_ne hne]
      rfl
    · rfl

end Directory

/-! ### Visits -/

/-- A manager's join or leave: the name of the conference and the caller. -/
inductive Visit where
  | join (name : String) (caller : Nat)
  | leave (name : String) (caller : Nat)

namespace Visit

def name : Visit → String
  | .join name _ | .leave name _ => name

def caller : Visit → Nat
  | .join _ i | .leave _ i => i

def request : Visit → Exchange.Request
  | .join name i => .join name i
  | .leave name i => .leave name i

end Visit

/-- What a visit comes to, as far as its own conference is concerned. -/
structure Met (σ : Type) where
  result : Except BridgeError Outcome
  /-- The conference of that name, if one is registered then. -/
  conference : Option Conference
  world : σ

namespace Met
variable {σ : Type}

def of (a : Applied σ) : Met σ := ⟨a.result, some a.conference, a.world⟩

/-- The conference goes if nobody is counted in it. -/
def tidy (host : Host σ) (name : String) (m : Met σ) : Met σ :=
  if m.conference.any (·.isEmpty) then
    { m with
      conference := none
      world := host.log (Log.info ("Removed conference '" ++ name ++ "'")) m.world }
  else m

end Met

/-- A participant's visit where there is no conference but the one of that name, if it is there. -/
def Visit.meet {σ : Type} (host : Host σ) (settings : ConferenceSettings) (table : Table) (p : Participant) (v : Visit)
    (here : Option Conference) (w : σ) : Met σ :=
  match v, here with
  | .join _ _, some c => .of (c.join host { participant := p } w)
  | .join name _, none =>
    let met := Met.of ((Conference.fresh name settings table).join host { participant := p }
      (host.log (Log.info ("Created conference '" ++ name ++ "'")) w))
    match met.result with
    | .ok _ => met
    | .error _ => met.tidy host name
  | .leave name _, some c => (Met.of (c.leave host { participant := p } w)).tidy host name
  | .leave name _, none => ⟨.error (.notAttached name p.id), none, w⟩

namespace Directory
variable {σ : Type} {host : Host σ} {d : Directory} {e : Entry} {c : Conference} {name : String} {caller : Caller}
  {w : σ} {settings : DirectorySettings} {table : Table} {rooms : String → Option Conference}

/-- A visit to the directory. -/
def visit (host : Host σ) (d : Directory) (v : Visit) (caller : Caller) (w : σ) : Raised σ :=
  match v with
  | .join name _ => d.join host name caller w
  | .leave name _ => d.leave host name caller w

/-- What was raised has come to that in the conference of its name, and to nothing in the others. -/
structure Raised.Meets (r : Raised σ) (m : Met σ) (settings : DirectorySettings) (table : Table)
    (rooms : String → Option Conference) (name : String) (p : Participant) : Prop where
  directory : r.directory.Shows settings table (Function.update rooms name m.conference)
  result : r.result = m.result
  world : r.world = m.world
  caller : r.caller.participant = p
  drained : r.caller.pending = []

theorem Shows.raise (h : d.Shows settings table rooms) (he : e ∈ d.entries) (hp : caller.pending = []) (host : Host σ)
    (event : Event) (w : σ) :
    (d.raise host e caller event w).Meets (.of (e.conference.apply host { participant := caller.participant } event w))
      settings table rooms e.name caller.participant := by
  obtain ⟨hresult, hconference, hworld⟩ := Conference.apply_of_drained hp host e.conference event w
  refine ⟨?_, hresult, hworld, Conference.participant_apply, Conference.apply_pending hp host w⟩
  rw [Directory.raise, hconference]
  exact h.update he Conference.name_apply

theorem Raised.Meets.tidy {r : Raised σ} {m : Met σ} {p : Participant} (h : r.Meets m settings table rooms name p)
    (hc : m.conference = some c) (host : Host σ) :
    (r.tidy host name).Meets (m.tidy host name) settings table rooms name p := by
  obtain ⟨hd, hlog⟩ := h.directory.removeIdle ((Function.update_self ..).trans hc)
  have hworld : (r.tidy host name).world = host.logAll (r.directory.removeIdle name).2.2 r.world := rfl
  rw [Function.update_idem] at hd
  unfold Met.tidy
  rw [hc, Option.any_some]
  cases hempty : c.isEmpty
  all_goals
    rw [hempty] at hd hlog
    refine ⟨hd, h.result, ?_, h.caller, h.drained⟩
    rw [hworld, hlog, h.world]
    rfl

theorem Raised.Meets.tidy_of_error {r : Raised σ} {m : Met σ} {p : Participant}
    (h : r.Meets m settings table rooms name p) (hc : m.conference = some c) (host : Host σ) :
    (match r.result with
      | .ok _ => r
      | .error _ => r.tidy host name).Meets
      (match m.result with
        | .ok _ => m
        | .error _ => m.tidy host name)
      settings table rooms name p := by
  rw [h.result]
  cases m.result with
  | ok _ => exact h
  | error _ => exact h.tidy hc host

theorem Raised.Meets.of_update {r : Raised σ} {m : Met σ} {p : Participant} {here : Option Conference}
    (h : r.Meets m settings table (Function.update rooms name here) name p) : r.Meets m settings table rooms name p where
  directory := by
    have hd := h.directory
    rwa [Function.update_idem] at hd
  result := h.result
  world := h.world
  caller := h.caller
  drained := h.drained

theorem Shows.obtain_unregistered (h : d.Shows settings table rooms) (hf : d.find? name = none) :
    d.obtain name = .ok ((d.register (.fresh name settings.conference table)).1,
      (d.register (.fresh name settings.conference table)).2, [Log.info ("Created conference '" ++ name ++ "'")]) := by
  generalize ho : d.obtain name = answer
  cases h.sound.obtained ho with
  | found _ registered =>
    rw [registered] at hf
    cases hf
  | refused _ full =>
    rw [h.settings_eq, h.unlimited] at full
    cases full
  | created => rw [h.settings_eq, h.table_eq]

theorem Shows.join (h : d.Shows settings table rooms) (hp : caller.pending = []) (host : Host σ) (name : String) (i : Nat)
    (w : σ) :
    (d.join host name caller w).Meets
      ((Visit.join name i).meet host settings.conference table caller.participant (rooms name) w)
      settings table rooms name caller.participant := by
  cases hf : d.find? name with
  | some e =>
    obtain ⟨he, rfl⟩ := of_find? hf
    have hroom : rooms e.name = some e.conference := h.rooms_eq ▸ conference?_of_find? hf
    rw [join_registered hf, hroom]
    exact h.raise he hp host caller.participant.joinEvent w
  | none =>
    have hroom : rooms name = none := h.rooms_eq ▸ conference?_eq_none_iff.mpr hf
    have hr : d.isRegistered name = false := by rw [isRegistered_eq, h.rooms_eq, hroom]; rfl
    let c := Conference.fresh name settings.conference table
    let created := host.logAll [Log.info ("Created conference '" ++ name ++ "'")] w
    have hmem : (d.register c).1 ∈ (d.register c).2.entries := List.mem_append_right _ (List.mem_singleton_self _)
    have hraised := ((h.register (c := c) hf).raise hmem hp host caller.participant.joinEvent created).of_update
    simp only [Directory.join, h.obtain_unregistered hf, hr, hroom]
    exact hraised.tidy_of_error rfl host

theorem Shows.leave (h : d.Shows settings table rooms) (hp : caller.pending = []) (host : Host σ) (name : String) (i : Nat)
    (w : σ) :
    (d.leave host name caller w).Meets
      ((Visit.leave name i).meet host settings.conference table caller.participant (rooms name) w)
      settings table rooms name caller.participant := by
  cases hf : d.find? name with
  | some e =>
    obtain ⟨he, rfl⟩ := of_find? hf
    have hroom : rooms e.name = some e.conference := h.rooms_eq ▸ conference?_of_find? hf
    have hraised := h.raise he hp host caller.participant.leaveEvent w
    simp only [Directory.leave, hf, hroom]
    exact hraised.tidy rfl host
  | none =>
    have hroom : rooms name = none := h.rooms_eq ▸ conference?_eq_none_iff.mpr hf
    simp only [Directory.leave, hf, hroom]
    refine ⟨?_, rfl, rfl, rfl, hp⟩
    rw [Visit.meet, ← hroom, Function.update_eq_self]
    exact h

/-- A visit changes the conference of its name and no other, and what it comes to is what it comes to there. -/
theorem Shows.visit (h : d.Shows settings table rooms) (hp : caller.pending = []) (host : Host σ) (v : Visit) (w : σ) :
    (d.visit host v caller w).Meets (v.meet host settings.conference table caller.participant (rooms v.name) w)
      settings table rooms v.name caller.participant := by
  cases v with
  | join name i => exact h.join hp host name i w
  | leave name i => exact h.leave hp host name i w

end Directory

end ConferenceBridge
