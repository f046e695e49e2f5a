import ConferenceBridge.Proofs.Acceptance
import ConferenceBridge.Proofs.Directory.Exchange
import ConferenceBridge.Proofs.ListenerView

/-! Conferences in use. A directory decides by a published count and by the handles outstanding whether a
    conference may go, and never looks at who is attached. The count is right all the same, so nobody loses a
    conference: whoever is attached to one or holds one finds it under its name. -/

namespace ConferenceBridge
open Directory

namespace Exchange
variable {σ : Type} {host : Host σ} {s : Exchange σ} {settings : DirectorySettings} {e : Entry}

/-- A conference with everybody who may use it. -/
def session (s : Exchange σ) (e : Entry) : Session σ := ⟨e.conference, s.callers, s.world⟩

/-- Somebody is attached to the conference or holds it. -/
def InUse (s : Exchange σ) (e : Entry) : Prop :=
  e.conference.room.roster.people ≠ [] ∨ e.handle ∈ s.directory.handles

/-! ### Ordinary conferences -/

/-- An exchange of ordinary conferences. -/
structure Ordinary (settings : DirectorySettings) (s : Exchange σ) : Prop where
  directory : s.directory.Sound
  table : s.directory.table = .standard
  conferences : ∀ e ∈ s.directory.entries, (s.session e).Settled settings.conference
  pending : ∀ i, (s.callers i).pending = []
  settings : s.directory.settings = settings

/-- A new conference, whoever the callers are. -/
theorem settled_fresh {callers : Nat → Caller} (hk : ∀ i, (callers i).pending = []) (name : String)
    (settings : ConferenceSettings) (w : σ) :
    (⟨.fresh name settings .standard, callers, w⟩ : Session σ).Settled settings :=
  (Session.settled_start name settings (fun i => (callers i).participant) w).of_conference rfl hk

theorem Ordinary.obtained (h : s.Ordinary settings) {name : String} {d : Directory} {log : List Log.Line} (w : σ)
    (ho : s.directory.obtain name = .ok (e, d, log)) :
    ({ s with directory := d, world := w } : Exchange σ).Ordinary settings := by
  obtain ⟨grows, -, -⟩ := h.directory.grows_obtain ho
  refine ⟨grows.sound, grows.table.trans h.table, ?_, h.pending, grows.settings.trans h.settings⟩
  have old : ∀ x ∈ s.directory.entries, (⟨x.conference, s.callers, w⟩ : Session σ).Settled settings.conference :=
    fun x hx => (h.conferences x hx).of_conference rfl h.pending
  cases h.directory.obtained ho with
  | found => exact old
  | created =>
    intro x hx
    rcases List.mem_append.mp hx with hx | hx
    · exact old x hx
    · rw [List.mem_singleton.mp hx, h.table, h.settings]
      exact settled_fresh h.pending name settings.conference w

theorem Ordinary.raised (h : s.Ordinary settings) (he : e ∈ s.directory.entries) (i : Nat) (event : Event) (w : σ) :
    (s.raised i (s.directory.raise host e (s.callers i) event w)).Ordinary settings := by
  have before : (⟨e.conference, s.callers, w⟩ : Session σ).Settled settings.conference :=
    (h.conferences e he).of_conference rfl h.pending
  have after := before.step host ⟨i, event⟩
  have grows : s.directory.Grows (s.directory.raise host e (s.callers i) event w).directory :=
    h.directory.grows_update he Conference.name_apply
  refine ⟨grows.sound, h.table, fun x hx => ?_, after.pending, h.settings⟩
  rcases mem_update hx with ⟨hx, -⟩ | rfl
  · exact (h.conferences x hx).of_conference rfl after.pending
  · exact after

theorem steady_ordinary (host : Host σ) (settings : DirectorySettings) :
    Steady host fun t : Exchange σ => t.Ordinary settings where
  sound h := h.directory
  obtained w h ho := h.obtained w ho
  held h he := ⟨(h.directory.grows_hold he).sound, h.table, h.conferences, h.pending, h.settings⟩
  letGo k h := ⟨(h.directory.grows_letGo k).sound, h.table, h.conferences, h.pending, h.settings⟩
  raised i event w h he := h.raised he i event w

/-- The published count tells whether anybody is attached. -/
theorem Ordinary.isEmpty_iff (h : s.Ordinary settings) (he : e ∈ s.directory.entries) :
    e.conference.isEmpty = true ↔ e.conference.room.roster.people = [] := by
  have hcount : e.conference.occupancy = e.conference.room.roster.size := (h.conferences e he).occupancy
  rw [Conference.isEmpty, beq_iff_eq, hcount, Roster.size_eq_length_people, List.length_eq_zero_iff]

/-- Who is idle is not in use. -/
theorem Ordinary.not_inUse_of_isIdle (h : s.Ordinary settings) (he : e ∈ s.directory.entries)
    (hi : s.directory.isIdle e = true) : ¬s.InUse e := by
  have hfree := isHeld_of_isIdle hi
  rw [isIdle, Bool.and_eq_true, h.isEmpty_iff he] at hi
  rintro (hp | hheld)
  · exact hp hi.1
  · rw [isHeld_of_mem hheld] at hfree
    cases hfree

/-! ### Runs -/

/-- What holds of an exchange of ordinary conferences between two requests. -/
structure Settled (settings : DirectorySettings) (s : Exchange σ) : Prop where
  ordinary : s.Ordinary settings
  sound : s.Sound
  vacant : ∀ e ∈ s.gone, e.conference.room.roster.people = []

theorem settled_start {d : Directory} (h : create settings .standard = .ok d) (people : Nat → Participant) (w : σ) :
    (start d people w).Settled settings := by
  have hs := sound_start h people w
  obtain ⟨hd, rfl⟩ := Sound.of_create h
  exact ⟨⟨hd, rfl, List.forall_mem_nil _, fun _ => rfl, rfl⟩, hs, List.forall_mem_nil _⟩

theorem Settled.removed (h : s.Settled settings) {q : Request} (he : e ∈ s.removed host q) :
    ¬(s.eve host q).InUse e := by
  have hEve := (steady_ordinary host settings).eve h.ordinary q
  obtain ⟨picked, w, idle, hremoved, -⟩ := step_cases h.sound.directory host q
  rw [hremoved] at he
  obtain ⟨he, hp⟩ := List.mem_filter.mp he
  exact hEve.not_inUse_of_isIdle he (idle e hp)

theorem Settled.stays (h : s.Settled settings) {q : Request} (he : e ∈ (s.eve host q).directory.entries)
    (hu : (s.eve host q).InUse e) : e ∈ (s.step host q).directory.entries := by
  obtain ⟨picked, w, -, hremoved, hstep⟩ := step_cases h.sound.directory host q
  rw [hstep]
  refine List.mem_filter.mpr ⟨he, ?_⟩
  cases hp : picked e with
  | false => rfl
  | true =>
    have gone : e ∈ s.removed host q := by
      rw [hremoved]
      exact List.mem_filter.mpr ⟨he, hp⟩
    exact absurd hu (h.removed gone)

theorem Settled.step (h : s.Settled settings) (host : Host σ) (q : Request) : (s.step host q).Settled settings := by
  have hEve := (steady_ordinary host settings).eve h.ordinary q
  have hsound := h.sound.step host q
  obtain ⟨picked, w, -, -, hstep⟩ := step_cases h.sound.directory host q
  have hdirectory := hsound.directory
  rw [hstep] at hsound hdirectory ⊢
  refine ⟨⟨hdirectory, hEve.table, fun e he => ?_, hEve.pending, hEve.settings⟩, hsound, fun e he => ?_⟩
  · exact (hEve.conferences e (List.mem_filter.mp he).1).of_conference rfl hEve.pending
  · rcases List.mem_append.mp he with he | he
    · exact h.vacant e he
    · have unused := h.removed he
      by_contra hp
      exact unused (Or.inl hp)

theorem Settled.run (h : s.Settled settings) (host : Host σ) (requests : List Request) :
    (s.run host requests).Settled settings :=
  run_induction h (fun _ q h => h.step host q) requests

/-- A conference in use is registered under its name. -/
theorem Settled.find?_of_inUse (h : s.Settled settings) (he : e ∈ s.directory.entries ++ s.gone) (hu : s.InUse e) :
    s.directory.find? e.name = some e := by
  rcases List.mem_append.mp he with he | he
  · exact h.ordinary.directory.find?_of_mem he
  · rcases hu with hp | hheld
    · exact absurd (h.vacant e he) hp
    · exact absurd rfl ((h.sound.gone e he).2 e.handle (h.ordinary.directory.held _ hheld))

/-! ### Visits -/

/-- Nobody holds a conference, and to every conference somebody is attached. -/
structure Attended (s : Exchange σ) : Prop where
  handles : s.directory.handles = []
  people : ∀ e ∈ s.directory.entries, e.conference.room.roster.people ≠ []

theorem Attended.of_eve (hs : s.Sound) {q : Request} (h : (s.eve host q).Attended) : (s.step host q).Attended := by
  obtain ⟨picked, w, -, -, hstep⟩ := step_cases hs.directory host q
  rw [hstep]
  exact ⟨h.handles, fun e he => h.people e (List.mem_filter.mp he).1⟩

/-- A join leaves somebody attached where somebody was. -/
theorem people_of_join {settings : ConferenceSettings} {t : Session σ} (ht : t.Settled settings) {r : Raise}
    (hj : r.event.isJoin = true) (hp : t.conference.room.roster.people ≠ []) :
    (t.step host r).conference.room.roster.people ≠ [] := by
  rcases ht.roster_cases host r with ⟨-, hroster⟩ | ⟨work, after, move, -, hroster⟩
  · rwa [hroster]
  · rw [hroster, Roster.people_settle]
    cases move with
    | join => exact List.ne_nil_of_mem (Roster.people_place_perm.mem_iff.mpr List.mem_cons_self)
    | leave x attached own event =>
      rw [show r.event = _ from event] at hj
      cases hj

/-- A new conference accepts whoever joins it first. -/
theorem first_join (host : Host σ) (name : String) {settings : ConferenceSettings} (hv : settings.validate = .ok ())
    (caller : Caller) (w : σ) :
    let answer := (Conference.fresh name settings .standard).apply host caller caller.participant.joinEvent w
    (∃ outcome, answer.result = .ok outcome ∧ outcome.sequence = 1 ∧ outcome.previous = .empty) ∧
      answer.conference.room.roster.people ≠ [] := by
  intro answer
  have fresh := Session.settled_start name settings (fun _ => caller.participant) w
  have hfits : settings.maxMembers ≠ some 0 := by
    intro h
    rw [ConferenceSettings.validate, if_pos h] at hv
    cases hv
  have new : caller.participant.id ∉ (Conference.fresh name settings .standard).room.roster.ids := List.not_mem_nil
  obtain ⟨⟨outcome, hok⟩, hpeople⟩ := fresh.apply_join host w new hfits
  obtain ⟨hseq, hprev, -⟩ := Conference.outcome_of_ok hok
  exact ⟨⟨outcome, hok, hseq, hprev⟩, List.ne_nil_of_mem (hpeople.mem_iff.mpr List.mem_cons_self)⟩

theorem Settled.attended_join (h : s.Settled settings) (ha : s.Attended) (host : Host σ) (name : String) (i : Nat) :
    (s.eve host (.join name i)).Attended := by
  have hd := h.ordinary.directory
  cases ho : s.directory.obtain name with
  | error _ =>
    rw [eve_join_of_error ho]
    exact ha
  | ok found =>
    obtain ⟨e, d, log⟩ := found
    rw [eve_join ho]
    cases hd.obtained ho with
    | found _ registered =>
      obtain ⟨he, -⟩ := of_find? registered
      refine ⟨ha.handles, fun x hx => ?_⟩
      rcases mem_update hx with ⟨hx, -⟩ | rfl
      · exact ha.people x hx
      · have before : (⟨e.conference, s.callers, s.world⟩ : Session σ).Settled settings.conference :=
          h.ordinary.conferences e he
        exact people_of_join before (r := ⟨i, (s.callers i).participant.joinEvent⟩) rfl (ha.people e he)
    | created =>
      refine ⟨ha.handles, fun x hx => ?_⟩
      rcases mem_update hx with ⟨hx, hs⟩ | rfl
      · rcases List.mem_append.mp hx with hx | hx
        · exact ha.people x hx
        · exact absurd (congrArg Entry.serial (List.mem_singleton.mp hx)) hs
      · obtain ⟨-, joined⟩ := first_join host name hd.validate_conference (s.callers i)
          (host.logAll [Log.info ("Created conference '" ++ name ++ "'")] s.world)
        rw [← h.ordinary.table] at joined
        exact joined

theorem Settled.attended_leave (h : s.Settled settings) (ha : s.Attended) (host : Host σ) (name : String) (i : Nat) :
    (s.step host (.leave name i)).Attended := by
  have hd := h.ordinary.directory
  have hEve := (steady_ordinary host settings).eve h.ordinary (.leave name i)
  cases hf : s.directory.find? name with
  | none => exact .of_eve h.sound ((eve_leave_of_none hf i).symm ▸ ha)
  | some e =>
    obtain ⟨he, hn⟩ := of_find? hf
    have heve : (s.eve host (.leave name i)).directory.handles = [] := by
      rw [eve_leave hf]
      exact ha.handles
    obtain ⟨picked, w, -, -, hstep⟩ := step_cases hd host (.leave name i)
    refine ⟨by rw [hstep]; exact heve, fun x hx => ?_⟩
    obtain ⟨hx, hstay⟩ := (mem_step_leave hd host hf i).mp hx
    by_cases hname : x.name = name
    · -- Nobody holds it, so it would have gone if it were empty.
      intro hp
      refine hstay ⟨hname, ?_⟩
      rw [isIdle, (hEve.isEmpty_iff hx).mpr hp, isHeld, heve]
      rfl
    · rw [eve_leave hf] at hx
      rcases mem_update hx with ⟨hx, -⟩ | rfl
      · exact ha.people x hx
      · exact absurd (Conference.name_apply.trans hn) hname

theorem Settled.attended_step (h : s.Settled settings) (ha : s.Attended) (host : Host σ) {q : Request}
    (hq : q.isVisit = true) : (s.step host q).Attended := by
  cases q with
  | join name i => exact .of_eve h.sound (h.attended_join ha host name i)
  | leave name i => exact h.attended_leave ha host name i
  | _ => cases hq

theorem Settled.attended_run (host : Host σ) : ∀ (requests : List Request) {s : Exchange σ}, s.Settled settings →
    s.Attended → (∀ q ∈ requests, q.isVisit = true) → (s.run host requests).Attended
  | [], _, _, ha, _ => ha
  | q :: requests, _, h, ha, hq => by
    obtain ⟨hq, hrest⟩ := List.forall_mem_cons.mp hq
    exact Settled.attended_run host requests (h.step host q) (h.attended_step ha host hq) hrest

/-- Where only visits are made, the conferences registered are those that somebody attends. -/
theorem Settled.isRegistered_iff (h : s.Settled settings) (ha : s.Attended) (name : String) :
    s.directory.isRegistered name = true ↔
      ∃ e ∈ s.directory.entries ++ s.gone, e.name = name ∧ e.conference.room.roster.people ≠ [] := by
  rw [Directory.isRegistered_iff]
  constructor
  · rintro ⟨e, he, hn⟩
    exact ⟨e, List.mem_append_left _ he, hn, ha.people e he⟩
  · rintro ⟨e, he, hn, hp⟩
    rcases List.mem_append.mp he with he | he
    · exact ⟨e, he, hn⟩
    · exact absurd (h.vacant e he) hp

/-! ### Names that are used again -/

theorem join_of_ok {d d' : Directory} {name : String} {log : List Log.Line} {caller : Caller} {w : σ} {outcome : Outcome}
    (ho : d.obtain name = .ok (e, d', log))
    (hok : (d'.raise host e caller caller.participant.joinEvent (host.logAll log w)).result = .ok outcome) :
    d.join host name caller w = d'.raise host e caller caller.participant.joinEvent (host.logAll log w) := by
  simp only [Directory.join, ho, hok]

/-- A name that nobody uses is joined in a new conference. -/
theorem Settled.join_unregistered (h : s.Settled settings) (host : Host σ) {name : String}
    (hf : s.directory.find? name = none) (hroom : settings.maxConferences ≠ some s.directory.size) (i : Nat) :
    ∃ outcome, (s.directory.join host name (s.callers i) s.world).result = .ok outcome ∧ outcome.sequence = 1 ∧
      outcome.previous = .empty := by
  have hd := h.ordinary.directory
  rw [← h.ordinary.settings] at hroom
  cases ho : s.directory.obtain name with
  | error error => exact absurd ((hd.obtain_fails_iff hf).mp ⟨error, ho⟩) hroom
  | ok found =>
    obtain ⟨e, d, log⟩ := found
    obtain ⟨hfresh, -⟩ := hd.obtain_created hf ho
    rw [h.ordinary.table] at hfresh
    obtain ⟨⟨outcome, hok, hseq, hprev⟩, -⟩ :=
      first_join host name hd.validate_conference (s.callers i) (host.logAll log s.world)
    rw [← hfresh] at hok
    exact ⟨outcome, (congrArg Raised.result (join_of_ok ho hok)).trans hok, hseq, hprev⟩

/-- After any requests, whoever is attached to a conference or holds one finds it under its name, so that no two
    of one name are in use. The next request takes nothing away before its eve, and then nothing that is in use.
    Where only visits have been made, the names registered are those of conferences that somebody attends; and a
    name that is not registered stands for a new conference, which accepts whoever joins it first. -/
theorem in_use_stays_registered {σ : Type} {settings : DirectorySettings} {d : Directory}
    (h : create settings .standard = .ok d) (host : Host σ) (people : Nat → Participant) (w : σ)
    (requests : List Request) :
    let s := (start d people w).run host requests
    let everyone := s.directory.entries ++ s.gone
    (∀ n < s.directory.nextSerial, ∃ e ∈ everyone, e.serial = n) ∧
    (∀ q, s.directory.registered ⊆ (s.eve host q).directory.registered ∧
      ∀ e ∈ (s.eve host q).directory.entries, (s.eve host q).InUse e → e ∈ (s.step host q).directory.entries) ∧
    (∀ e ∈ everyone, s.InUse e → s.directory.find? e.name = some e) ∧
    (∀ e ∈ everyone, ∀ x ∈ everyone, s.InUse e → s.InUse x → e.name = x.name → e = x) ∧
    (∀ k ∈ s.directory.handles, ∃ e, s.directory.find? k.name = some e ∧ e.handle = k) ∧
    ((∀ q ∈ requests, q.isVisit = true) → ∀ name, s.directory.isRegistered name = true ↔
      ∃ e ∈ everyone, e.name = name ∧ e.conference.room.roster.people ≠ []) ∧
    ∀ name, s.directory.find? name = none →
      (∀ e after log, s.directory.obtain name = .ok (e, after, log) →
        e.conference = .fresh name settings.conference .standard) ∧
      ∀ i, settings.maxConferences ≠ some s.directory.size →
        ∃ outcome, (s.directory.join host name (s.callers i) s.world).result = .ok outcome ∧ outcome.sequence = 1 ∧
          outcome.previous = .empty := by
  intro s everyone
  have begun := settled_start h people w
  have hs : s.Settled settings := begun.run host requests
  have registered : ∀ e ∈ everyone, s.InUse e → s.directory.find? e.name = some e :=
    fun e he hu => hs.find?_of_inUse he hu
  refine ⟨hs.sound.known, fun q => ⟨?_, fun e he hu => hs.stays he hu⟩, registered, ?_, fun k hk => ?_,
    fun hq name => ?_, fun name hf => ⟨fun e after log ho => ?_, fun i hroom => hs.join_unregistered host hf hroom i⟩⟩
  · exact (eve_grows hs.sound.directory host q).1.kept
  · intro e he x hx hue hux hn
    have hsame := registered x hx hux
    rw [← hn, registered e he hue] at hsame
    exact Option.some.inj hsame
  · obtain ⟨e, he, rfl⟩ := mem_registered.mp (hs.sound.directory.held k hk)
    exact ⟨e, hs.sound.directory.find?_of_mem he, rfl⟩
  · have hnew : (start d people w).Attended := by
      obtain ⟨-, rfl⟩ := Sound.of_create h
      exact ⟨rfl, List.forall_mem_nil _⟩
    exact hs.isRegistered_iff (Settled.attended_run host requests begun hnew hq) name
  · obtain ⟨hfresh, -⟩ := hs.sound.directory.obtain_created hf ho
    rw [hfresh, hs.ordinary.table, hs.ordinary.settings]

/-- A room is joined and left, goes, and is joined again. -/
theorem room_used_again :
    let d : Directory := { settings := {}, table := .standard }
    let host : Host Unit := .logging fun _ => id
    let s := (start d (fun _ => ⟨"a", .plain⟩) ()).run host [.join "room" 0, .leave "room" 0]
    create {} .standard = .ok d ∧ s.gone.map (·.name) = ["room"] ∧ s.directory.isRegistered "room" = false ∧
      (∀ e ∈ s.directory.entries ++ s.gone, e.name = "room" → e.conference.room.roster.people = []) ∧
      ∃ outcome, (s.directory.join host "room" (s.callers 0) s.world).result = .ok outcome ∧ outcome.sequence = 1 ∧
        outcome.previous = .empty := by
  intro d host s
  have made : create {} .standard = .ok d := rfl
  obtain ⟨-, -, -, -, -, hvisits, hjoin⟩ :=
    in_use_stays_registered made host (fun _ => ⟨"a", .plain⟩) () [.join "room" 0, .leave "room" 0]
  have unregistered : s.directory.isRegistered "room" = false := by decide +kernel
  have unfound : s.directory.find? "room" = none := by
    rwa [isRegistered, Option.isSome_eq_false_iff, Option.isNone_iff_eq_none] at unregistered
  refine ⟨made, by decide +kernel, unregistered, fun e he hn => ?_, (hjoin "room" unfound).2 0 (Option.some_ne_none _).symm⟩
  by_contra hp
  have registered : s.directory.isRegistered "room" = true := (hvisits (by decide) "room").mpr ⟨e, he, hn, hp⟩
  rw [unregistered] at registered
  cases registered

end Exchange
end ConferenceBridge
