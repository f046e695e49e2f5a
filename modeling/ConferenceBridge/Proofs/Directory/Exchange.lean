import ConferenceBridge.Proofs.Directory.Sound

/-! A directory in use. Callers ask for conferences, hold on to them or let them go, join, leave and raise events,
    and from time to time idle conferences are removed; the requests come one after the other and in any order. A
    conference that has been removed lives on for whoever still holds it. -/

namespace ConferenceBridge
open Directory

/-- A directory, the conferences it has removed, the callers that use it and the world they are in. -/
structure Exchange (σ : Type) where
  directory : Directory
  gone : List Entry := []
  callers : Nat → Caller
  world : σ

namespace Exchange
variable {σ : Type}

/-- What can be asked of a directory. -/
inductive Request where
  /-- Ask for the conference of that name, which is created if need be, and hold it. -/
  | obtain (name : String)
  /-- Ask for the conference of that name, and hold it if there is one. -/
  | find (name : String)
  | letGo (h : Handle)
  /-- Raise an event against a conference that is held. -/
  | raise (h : Handle) (caller : Nat) (event : Event)
  | join (name : String) (caller : Nat)
  | leave (name : String) (caller : Nat)
  | removeIdle (name : String)
  | sweep

/-- A manager's join or leave. -/
def Request.isVisit : Request → Bool
  | .join .. | .leave .. => true
  | _ => false

/-- A new directory, and callers of whom none has asked for anything yet. -/
def start (d : Directory) (people : Nat → Participant) (w : σ) : Exchange σ :=
  { directory := d, callers := fun i => { participant := people i }, world := w }

/-- The exchange after an event that a caller has raised. -/
def raised (s : Exchange σ) (i : Nat) (r : Raised σ) : Exchange σ :=
  { s with directory := r.directory, callers := Function.update s.callers i r.caller, world := r.world }

/-- An event against a conference that is not registered any more. -/
def raiseGone (host : Host σ) (s : Exchange σ) (h : Handle) (i : Nat) (event : Event) : Exchange σ :=
  match s.gone.find? (·.handle == h) with
  | some e =>
    let applied := e.conference.apply host (s.callers i) event s.world
    { s with
      gone := s.gone.map fun x => if x.serial = e.serial then ⟨x.serial, applied.conference⟩ else x
      callers := Function.update s.callers i applied.caller
      world := applied.world }
  | none => s

/-- A request up to the point where it may remove conferences. -/
def eve (host : Host σ) (s : Exchange σ) : Request → Exchange σ
  | .obtain name =>
    match s.directory.obtain name with
    | .ok (e, d, log) => { s with directory := d.hold e.handle, world := host.logAll log s.world }
    | .error _ => s
  | .find name =>
    match s.directory.find? name with
    | some e => { s with directory := s.directory.hold e.handle }
    | none => s
  | .letGo h => { s with directory := s.directory.letGo h }
  | .raise h i event =>
    if h ∈ s.directory.handles then
      match s.directory.raiseHeld host h (s.callers i) event s.world with
      | some r => s.raised i r
      | none => s.raiseGone host h i event
    else s
  | .join name i =>
    match s.directory.obtain name with
    | .ok (e, d, log) =>
      s.raised i (d.raise host e (s.callers i) (s.callers i).participant.joinEvent (host.logAll log s.world))
    | .error _ => s
  | .leave name i =>
    match s.directory.find? name with
    | some e => s.raised i (s.directory.raise host e (s.callers i) (s.callers i).participant.leaveEvent s.world)
    | none => s
  | .removeIdle _ | .sweep => s

/-- A request, but for what becomes of the conferences that it removes. -/
def served (host : Host σ) (s : Exchange σ) : Request → Exchange σ
  | .join name i => s.raised i (s.directory.join host name (s.callers i) s.world)
  | .leave name i => s.raised i (s.directory.leave host name (s.callers i) s.world)
  | .removeIdle name =>
    let (_, d, log) := s.directory.removeIdle name
    { s with directory := d, world := host.logAll log s.world }
  | .sweep =>
    let (_, d, log) := s.directory.sweep
    { s with directory := d, world := host.logAll log s.world }
  | q => s.eve host q

/-- What a request removes, as it was when it was removed. -/
def removed (host : Host σ) (s : Exchange σ) (q : Request) : List Entry :=
  (s.eve host q).directory.missing (s.served host q).directory

/-- The exchange after a request. -/
def step (host : Host σ) (s : Exchange σ) (q : Request) : Exchange σ :=
  { s.served host q with gone := (s.served host q).gone ++ s.removed host q }

/-- The exchange after some requests. -/
def run (host : Host σ) (s : Exchange σ) (requests : List Request) : Exchange σ := requests.foldl (step host) s

variable {host : Host σ} {s : Exchange σ} {q : Request}

theorem run_induction {P : Exchange σ → Prop} (h : P s) (keep : ∀ s q, P s → P (s.step host q))
    (requests : List Request) : P (s.run host requests) := by
  induction requests generalizing s with
  | nil => exact h
  | cons q requests ih => exact ih (keep s q h)

theorem raised_unmoved {i : Nat} {r : Raised σ} (hd : r.directory = s.directory) (hc : r.caller = s.callers i)
    (hw : r.world = s.world) : s.raised i r = s := by
  rw [raised, hd, hc, hw, Function.update_eq_self]

/-! ### Before anything is removed -/

theorem eve_obtain {name : String} {e : Entry} {d : Directory} {log : List Log.Line}
    (h : s.directory.obtain name = .ok (e, d, log)) :
    s.eve host (.obtain name) = { s with directory := d.hold e.handle, world := host.logAll log s.world } := by
  simp only [eve, h]

theorem eve_obtain_of_error {name : String} {error : BridgeError} (h : s.directory.obtain name = .error error) :
    s.eve host (.obtain name) = s := by
  simp only [eve, h]

theorem eve_find {name : String} {e : Entry} (h : s.directory.find? name = some e) :
    s.eve host (.find name) = { s with directory := s.directory.hold e.handle } := by
  simp only [eve, h]

theorem eve_find_of_none {name : String} (h : s.directory.find? name = none) : s.eve host (.find name) = s := by
  simp only [eve, h]

/-- An event through a handle is an event against the registered conference that the handle names. -/
theorem eve_raise (hd : s.directory.Sound) (host : Host σ) {k : Handle} (hk : k ∈ s.directory.handles) (i : Nat)
    (event : Event) :
    ∃ e ∈ s.directory.entries, e.handle = k ∧
      s.eve host (.raise k i event) = s.raised i (s.directory.raise host e (s.callers i) event s.world) := by
  obtain ⟨e, he, hr, hn⟩ := hd.resolve? hk
  refine ⟨e, he, hn, ?_⟩
  simp only [eve, if_pos hk, raiseHeld, hr, Option.map_some]

theorem eve_raise_of_notMem {k : Handle} (hk : k ∉ s.directory.handles) (i : Nat) (event : Event) :
    s.eve host (.raise k i event) = s := if_neg hk

theorem eve_join {name : String} {e : Entry} {d : Directory} {log : List Log.Line}
    (h : s.directory.obtain name = .ok (e, d, log)) (i : Nat) :
    s.eve host (.join name i) =
      s.raised i (d.raise host e (s.callers i) (s.callers i).participant.joinEvent (host.logAll log s.world)) := by
  simp only [eve, h]

theorem eve_join_of_error {name : String} {error : BridgeError} (h : s.directory.obtain name = .error error)
    (i : Nat) : s.eve host (.join name i) = s := by
  simp only [eve, h]

theorem eve_leave {name : String} {e : Entry} (h : s.directory.find? name = some e) (i : Nat) :
    s.eve host (.leave name i) =
      s.raised i (s.directory.raise host e (s.callers i) (s.callers i).participant.leaveEvent s.world) := by
  simp only [eve, h]

theorem eve_leave_of_none {name : String} (h : s.directory.find? name = none) (i : Nat) :
    s.eve host (.leave name i) = s := by
  simp only [eve, h]

/-- What is kept by everything that a request may do before it removes conferences. -/
structure Steady (host : Host σ) (P : Exchange σ → Prop) : Prop where
  sound : ∀ {t}, P t → t.directory.Sound
  obtained : ∀ {t name e d log} w, P t → t.directory.obtain name = .ok (e, d, log) →
    P { t with directory := d, world := w }
  held : ∀ {t e}, P t → e ∈ t.directory.entries → P { t with directory := t.directory.hold e.handle }
  letGo : ∀ {t} h, P t → P { t with directory := t.directory.letGo h }
  raised : ∀ {t e} i event w, P t → e ∈ t.directory.entries →
    P (t.raised i (t.directory.raise host e (t.callers i) event w))

theorem Steady.eve {P : Exchange σ → Prop} (hP : Steady host P) (h : P s) (q : Request) : P (s.eve host q) := by
  have hd := hP.sound h
  cases q with
  | obtain name =>
    cases ho : s.directory.obtain name with
    | error _ => exact (eve_obtain_of_error ho).symm ▸ h
    | ok found =>
      obtain ⟨e, d, log⟩ := found
      obtain ⟨-, he, -⟩ := hd.grows_obtain ho
      rw [eve_obtain ho]
      exact hP.held (hP.obtained (host.logAll log s.world) h ho) he
  | find name =>
    cases hf : s.directory.find? name with
    | none => exact (eve_find_of_none hf).symm ▸ h
    | some e =>
      rw [eve_find hf]
      exact hP.held h (of_find? hf).1
  | letGo k => exact hP.letGo k h
  | raise k i event =>
    by_cases hk : k ∈ s.directory.handles
    · obtain ⟨e, he, -, heve⟩ := eve_raise hd host hk i event
      rw [heve]
      exact hP.raised i event s.world h he
    · exact (eve_raise_of_notMem hk i event).symm ▸ h
  | join name i =>
    cases ho : s.directory.obtain name with
    | error _ => exact (eve_join_of_error ho i).symm ▸ h
    | ok found =>
      obtain ⟨e, d, log⟩ := found
      obtain ⟨-, he, -⟩ := hd.grows_obtain ho
      rw [eve_join ho]
      exact hP.raised i (s.callers i).participant.joinEvent (host.logAll log s.world) (hP.obtained s.world h ho) he
  | leave name i =>
    cases hf : s.directory.find? name with
    | none => exact (eve_leave_of_none hf i).symm ▸ h
    | some e =>
      rw [eve_leave hf]
      exact hP.raised i _ s.world h (of_find? hf).1
  | removeIdle name => exact h
  | sweep => exact h

theorem steady_grows (host : Host σ) (s : Exchange σ) :
    Steady host fun t => s.directory.Grows t.directory ∧ t.gone = s.gone where
  sound h := h.1.sound
  obtained _ h ho := ⟨h.1.trans (h.1.sound.grows_obtain ho).1, h.2⟩
  held h he := ⟨h.1.trans (h.1.sound.grows_hold he), h.2⟩
  letGo k h := ⟨h.1.trans (h.1.sound.grows_letGo k), h.2⟩
  raised _ _ _ h he := ⟨h.1.trans (h.1.sound.grows_update he Conference.name_apply), h.2⟩

/-- Before it removes conferences, a request can only add to a directory. -/
theorem eve_grows (hd : s.directory.Sound) (host : Host σ) (q : Request) :
    s.directory.Grows (s.eve host q).directory ∧ (s.eve host q).gone = s.gone :=
  (steady_grows host s).eve ⟨hd.grows_refl, rfl⟩ q

/-! ### Removals -/

/-- An exchange from which some idle conferences have been removed since, and nothing else. -/
def Cleared (s t : Exchange σ) : Prop :=
  ∃ picked w, (∀ e, picked e = true → s.directory.isIdle e = true) ∧
    t = { s with directory := s.directory.dropping picked, world := w }

theorem Cleared.refl (s : Exchange σ) : s.Cleared s :=
  ⟨fun _ => false, s.world, fun _ h => absurd h Bool.false_ne_true, by rw [dropping_of_none fun _ _ => rfl]⟩

theorem cleared_removeIdle (hd : s.directory.Sound) (name : String) (w : σ) :
    s.Cleared { s with directory := (s.directory.removeIdle name).2.1, world := w } := by
  rw [hd.removeIdle_eq name]
  exact ⟨_, w, fun _ h => ((Bool.and_eq_true ..).mp h).2, rfl⟩

/-- What a request removes is idle, and goes with its place. -/
theorem cleared_served (hd : s.directory.Sound) (host : Host σ) (q : Request) :
    (s.eve host q).Cleared (s.served host q) := by
  have hsound := (eve_grows hd host q).1.sound
  cases q with
  | obtain name => exact .refl _
  | find name => exact .refl _
  | letGo k => exact .refl _
  | raise k i event => exact .refl _
  | join name i =>
    cases ho : s.directory.obtain name with
    | error error =>
      have hserved : s.served host (.join name i) = s := by
        simp only [served, Directory.join, ho]
        exact raised_unmoved rfl rfl rfl
      rw [eve_join_of_error ho, hserved]
      exact .refl s
    | ok found =>
      obtain ⟨e, d, log⟩ := found
      rw [eve_join ho] at hsound ⊢
      simp only [served, Directory.join, ho]
      -- A conference that was there before stays, and so does one that the join has reached.
      split
      · exact .refl _
      · split
        · exact .refl _
        · exact cleared_removeIdle hsound name _
  | leave name i =>
    cases hf : s.directory.find? name with
    | none =>
      have hserved : s.served host (.leave name i) = s := by
        simp only [served, Directory.leave, hf]
        exact raised_unmoved rfl rfl rfl
      rw [eve_leave_of_none hf, hserved]
      exact .refl s
    | some e =>
      rw [eve_leave hf] at hsound ⊢
      simp only [served, Directory.leave, hf]
      exact cleared_removeIdle hsound name _
  | removeIdle name => exact cleared_removeIdle hd name _
  | sweep => exact ⟨s.directory.isIdle, _, fun _ h => h, rfl⟩

/-- After a leave the conference goes exactly if it is idle. -/
theorem mem_step_leave (hd : s.directory.Sound) (host : Host σ) {name : String} {e x : Entry}
    (hf : s.directory.find? name = some e) (i : Nat) :
    x ∈ (s.step host (.leave name i)).directory.entries ↔
      x ∈ (s.eve host (.leave name i)).directory.entries ∧
        ¬(x.name = name ∧ (s.eve host (.leave name i)).directory.isIdle x = true) := by
  have hsound : (s.eve host (.leave name i)).directory.Sound := (eve_grows hd host (.leave name i)).1.sound
  have hstep : (s.step host (.leave name i)).directory =
      ((s.eve host (.leave name i)).directory.removeIdle name).2.1 := by
    rw [eve_leave hf]
    simp only [step, served, Directory.leave, hf]
    rfl
  rw [hstep, hsound.removeIdle_eq name, dropping, List.mem_filter]
  simp [imp_iff_not_or]

/-! ### Runs -/

/-- What holds of an exchange between two requests: every conference that has been created is either registered
    or gone, and none is both. -/
structure Sound (s : Exchange σ) : Prop where
  directory : s.directory.Sound
  gone : ∀ e ∈ s.gone, e.serial < s.directory.nextSerial ∧ ∀ h ∈ s.directory.registered, h.serial ≠ e.serial
  known : ∀ n < s.directory.nextSerial, ∃ e ∈ s.directory.entries ++ s.gone, e.serial = n

theorem sound_start {d : Directory} {settings : DirectorySettings} {table : Table}
    (h : create settings table = .ok d) (people : Nat → Participant) (w : σ) : (start d people w).Sound := by
  obtain ⟨hd, rfl⟩ := Sound.of_create h
  exact ⟨hd, List.forall_mem_nil _, fun n hn => absurd hn (Nat.not_lt_zero n)⟩

/-- What a request comes to: what it does up to its eve, and then idle conferences are gone. -/
theorem step_cases (hd : s.directory.Sound) (host : Host σ) (q : Request) :
    ∃ picked w, (∀ e, picked e = true → (s.eve host q).directory.isIdle e = true) ∧
      s.removed host q = (s.eve host q).directory.entries.filter picked ∧
      s.step host q =
        { s.eve host q with
          directory := (s.eve host q).directory.dropping picked
          gone := s.gone ++ s.removed host q
          world := w } := by
  obtain ⟨grows, hgone⟩ := eve_grows hd host q
  obtain ⟨picked, w, idle, hserved⟩ := cleared_served hd host q
  refine ⟨picked, w, idle, ?_, ?_⟩
  · rw [removed, hserved]
    exact grows.sound.missing_dropping
  · rw [step, hserved, hgone]

theorem isHeld_of_isIdle {d : Directory} {e : Entry} (h : d.isIdle e = true) : d.isHeld e = false := by
  rw [isIdle, Bool.and_eq_true, Bool.not_eq_true'] at h
  exact h.2

theorem Sound.step (hs : s.Sound) (host : Host σ) (q : Request) : (s.step host q).Sound := by
  obtain ⟨grows, -⟩ := eve_grows hs.directory host q
  obtain ⟨picked, w, idle, hremoved, hstep⟩ := step_cases hs.directory host q
  rw [hstep]
  refine ⟨grows.sound.dropped fun e _ he => isHeld_of_isIdle (idle e he), fun e he => ?_, fun n hn => ?_⟩
  · rcases List.mem_append.mp he with he | he
    · obtain ⟨hlt, hne⟩ := hs.gone e he
      refine ⟨Nat.lt_of_lt_of_le hlt grows.next, fun h hh => ?_⟩
      rcases grows.fresh h (registered_dropping_sublist.subset hh) with hh | hh
      · exact hne h hh
      · exact Nat.ne_of_gt (Nat.lt_of_lt_of_le hlt hh)
    · rw [hremoved] at he
      obtain ⟨he, hp⟩ := List.mem_filter.mp he
      refine ⟨grows.sound.issued _ (mem_registered_of_mem he), fun h hh hne => ?_⟩
      obtain ⟨x, hx, rfl⟩ := mem_registered.mp hh
      obtain ⟨hx, hpx⟩ := List.mem_filter.mp hx
      obtain rfl := grows.sound.eq_of_serial hx he hne
      rw [hp] at hpx
      cases hpx
  · -- A conference that exists on the eve is registered after the request, or it has just gone.
    have onEve : ∀ e ∈ (s.eve host q).directory.entries,
        e ∈ ((s.eve host q).directory.dropping picked).entries ++ (s.gone ++ s.removed host q) := by
      intro e he
      cases hp : picked e with
      | false => exact List.mem_append_left _ (List.mem_filter.mpr ⟨he, by rw [hp]; rfl⟩)
      | true =>
        rw [hremoved]
        exact List.mem_append_right _ (List.mem_append_right _ (List.mem_filter.mpr ⟨he, hp⟩))
    rcases grows.named n hn with hn | ⟨h, hh, rfl⟩
    · obtain ⟨e, he, rfl⟩ := hs.known n hn
      rcases List.mem_append.mp he with he | he
      · obtain ⟨x, hx, hxe⟩ := mem_registered.mp (grows.kept (mem_registered_of_mem he))
        exact ⟨x, onEve x hx, congrArg Handle.serial hxe⟩
      · exact ⟨e, List.mem_append_right _ (List.mem_append_left _ he), rfl⟩
    · obtain ⟨x, hx, rfl⟩ := mem_registered.mp hh
      exact ⟨x, onEve x hx, rfl⟩

theorem Sound.run (hs : s.Sound) (host : Host σ) (requests : List Request) : (s.run host requests).Sound :=
  run_induction hs (fun _ q hs => hs.step host q) requests

theorem Sound.settings_step (hs : s.Sound) (host : Host σ) (q : Request) :
    (s.step host q).directory.settings = s.directory.settings ∧
      (s.step host q).directory.table = s.directory.table := by
  obtain ⟨grows, -⟩ := eve_grows hs.directory host q
  obtain ⟨picked, w, -, -, hstep⟩ := step_cases hs.directory host q
  rw [hstep]
  exact ⟨grows.settings, grows.table⟩

theorem Sound.settings_run (hs : s.Sound) (host : Host σ) (requests : List Request) :
    (s.run host requests).directory.settings = s.directory.settings := by
  have h : (s.run host requests).Sound ∧ (s.run host requests).directory.settings = s.directory.settings :=
    run_induction (P := fun t => t.Sound ∧ t.directory.settings = s.directory.settings) ⟨hs, rfl⟩
      (fun t q ht => ⟨ht.1.step host q, (ht.1.settings_step host q).1.trans ht.2⟩) requests
  exact h.2

end Exchange
end ConferenceBridge
