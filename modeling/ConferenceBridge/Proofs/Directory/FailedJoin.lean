import ConferenceBridge.Proofs.Directory.Exchange
import ConferenceBridge.Proofs.Refusal

/-! A join through a directory that fails. A conference that was created for it goes again with its place, although
    the handler that has refused may have left somebody in it: what counts is the published number, and that is still
    zero. A conference that was there before stays, even an empty one. -/

namespace ConferenceBridge

namespace Conference
variable {σ : Type} {host : Host σ} {c : Conference} {caller : Caller} {e : Event} {error : BridgeError} {w : σ}

theorem table_apply : (c.apply host caller e w).conference.table = c.table := by
  unfold apply
  dsimp only
  split <;> rfl

/-- A refusal leaves a conference as it was, but for what the handler has done to the roster. -/
theorem conference_of_error (h : (c.apply host caller e w).result = .error error) :
    ∃ roster, (c.apply host caller e w).conference = { c with room := { c.room with roster } } ∧
      (c.table.Careful → roster = c.room.roster) := by
  have hf := (result_error_iff host w).mp h
  refine ⟨(c.fire caller e).room.roster, ?_, fun ht => congrArg Room.roster (ht.room_eq hf)⟩
  have hstate : (c.fire caller e).room.state = c.room.state := by
    rcases Table.fire_error_cases hf with ⟨hh, -⟩ | ⟨handler, hh, he⟩
    · rw [fire, Table.fire_of_none hh]
      rfl
    · rw [fire, Table.fire_of_error hh he]
  have hroom : (c.fire caller e).room = ⟨c.room.state, (c.fire caller e).room.roster⟩ := by rw [← hstate]
  rw [apply_of_error hf]
  exact congrArg (fun room => { c with room }) hroom

end Conference

namespace Directory
variable {σ : Type} {host : Host σ} {d d' : Directory} {e x : Entry} {c : Conference} {name other : String}
  {caller : Caller} {w : σ} {error : BridgeError}

/-! ### Look-up -/

theorem Sound.find?_eq_some_iff (hd : d.Sound) : d.find? name = some e ↔ e ∈ d.entries ∧ e.name = name := by
  refine ⟨of_find?, ?_⟩
  rintro ⟨he, rfl⟩
  exact hd.find?_of_mem he

theorem Sound.find?_update (hd : d.Sound) (he : e ∈ d.entries) (hn : c.name = e.name) :
    (d.update e.serial c).find? e.name = some ⟨e.serial, c⟩ :=
  (hd.grows_update he hn).sound.find?_eq_some_iff.mpr ⟨List.mem_map.mpr ⟨e, he, if_pos rfl⟩, hn⟩

theorem Sound.find?_update_of_ne (hd : d.Sound) (he : e ∈ d.entries) (hn : c.name = e.name) (hne : other ≠ e.name) :
    (d.update e.serial c).find? other = d.find? other := by
  ext x
  rw [(hd.grows_update he hn).sound.find?_eq_some_iff, hd.find?_eq_some_iff]
  constructor
  · rintro ⟨hx, rfl⟩
    rcases mem_update hx with ⟨hx, -⟩ | rfl
    · exact ⟨hx, rfl⟩
    · exact absurd hn hne
  · rintro ⟨hx, rfl⟩
    have hs : x.serial ≠ e.serial := fun hs => hne (congrArg Entry.name (hd.eq_of_serial hx he hs))
    exact ⟨List.mem_map.mpr ⟨x, hx, if_neg hs⟩, rfl⟩

theorem Sound.entries_update_self (hd : d.Sound) (he : e ∈ d.entries) :
    (d.update e.serial e.conference).entries = d.entries := by
  refine (List.map_congr_left fun x hx => ?_).trans (List.map_id _)
  split
  · rename_i hs
    rw [hd.eq_of_serial hx he hs]
    rfl
  · rfl

/-! ### A new conference -/

theorem find?_register (hf : d.find? c.name = none) : (d.register c).2.find? c.name = some ⟨d.nextSerial, c⟩ := by
  unfold find? at hf ⊢
  rw [register, List.find?_append, hf]
  simp [Entry.name]

theorem Sound.update_register (hd : d.Sound) {c' : Conference} :
    (d.register c).2.update d.nextSerial c' = (d.register c').2 := by
  have hold : d.entries.map (fun e => if e.serial = d.nextSerial then ⟨d.nextSerial, c'⟩ else e) = d.entries := by
    refine (List.map_congr_left fun e he => ?_).trans (List.map_id _)
    exact if_neg (Nat.ne_of_lt (hd.issued _ (mem_registered_of_mem he)))
  simp [update, register, hold]

/-- A conference that has just been registered, and in which nobody is counted, goes again with its place. -/
theorem Sound.removeIdle_register (hd : d.Sound) (hf : d.find? c.name = none) (hempty : c.isEmpty = true) :
    ((d.register c).2.removeIdle c.name).2.1 = { d with nextSerial := d.nextSerial + 1 } := by
  have hfree : (d.register c).2.isHeld ⟨d.nextSerial, c⟩ = false := by
    refine List.any_eq_false.mpr fun h hh => ?_
    simpa using Nat.ne_of_lt (hd.issued h (hd.held h hh))
  have hold : d.entries.filter (·.serial != d.nextSerial) = d.entries := by
    refine List.filter_eq_self.mpr fun e he => ?_
    have hlt : e.serial < d.nextSerial := hd.issued _ (mem_registered_of_mem he)
    simpa using Nat.ne_of_lt hlt
  have hidle : (d.register c).2.isIdle ⟨d.nextSerial, c⟩ = true := by simp [isIdle, hempty, hfree]
  simp only [removeIdle, find?_register hf, hidle, if_true]
  simp [register, hold]

/-- Whatever refuses the first event of a new conference, the conference goes again with its place. -/
theorem Sound.tidy_register (hd : d.Sound) (hf : d.find? c.name = none) (hempty : c.isEmpty = true) {event : Event}
    (hfail : ((d.register c).2.raise host (d.register c).1 caller event w).result = .error error) :
    (((d.register c).2.raise host (d.register c).1 caller event w).tidy host c.name).directory =
      { d with nextSerial := d.nextSerial + 1 } := by
  obtain ⟨roster, hc, -⟩ := Conference.conference_of_error (c := c) hfail
  have hraised : ((d.register c).2.raise host (d.register c).1 caller event w).directory =
      (d.register { c with room := { c.room with roster } }).2 :=
    (congrArg ((d.register c).2.update d.nextSerial) hc).trans hd.update_register
  have htidy : (((d.register c).2.raise host (d.register c).1 caller event w).tidy host c.name).directory =
      (((d.register c).2.raise host (d.register c).1 caller event w).directory.removeIdle c.name).2.1 := rfl
  rw [htidy, hraised]
  exact hd.removeIdle_register (c := { c with room := { c.room with roster } }) hf hempty

/-! ### Joins -/

theorem join_registered (hf : d.find? name = some e) (host : Host σ) (caller : Caller) (w : σ) :
    d.join host name caller w = d.raise host e caller caller.participant.joinEvent w := by
  have hr : d.isRegistered name = true := by simp [isRegistered, hf]
  simp only [Directory.join, obtain_registered hf, hr, if_true]
  split <;> rfl

/-- One directory is as another, but for the roster of the conference of this name. Under every name there is the
    same conference or none, the same places are taken and the same handles are outstanding. -/
structure LeftAlone (d d' : Directory) (name : String) : Prop where
  registered : d'.registered = d.registered
  slots : d'.slots = d.slots
  handles : d'.handles = d.handles
  others : ∀ other, other ≠ name → d'.find? other = d.find? other
  absent : d.find? name = none → d'.find? name = none
  present : ∀ e, d.find? name = some e → ∃ roster,
    d'.find? name = some ⟨e.serial, { e.conference with room := { e.conference.room with roster } }⟩

theorem leftAlone_of_eq (hentries : d'.entries = d.entries) (hslots : d'.slots = d.slots)
    (hhandles : d'.handles = d.handles) : d.LeftAlone d' name := by
  have hfind : d'.find? = d.find? := by
    unfold find?
    rw [hentries]
  refine ⟨by rw [registered, hentries]; rfl, hslots, hhandles, fun _ _ => by rw [hfind], fun hf => by rwa [hfind], ?_⟩
  exact fun e hf => ⟨e.conference.room.roster, by rw [hfind, hf]⟩

/-- A failed join of a registered conference. -/
theorem Sound.failed_join_registered (hd : d.Sound) (hf : d.find? name = some e)
    (hfail : (d.join host name caller w).result = .error error) :
    d.LeftAlone (d.join host name caller w).directory name ∧
      (e.conference.table.Careful → (d.join host name caller w).directory.entries = d.entries) := by
  rw [join_registered hf] at hfail ⊢
  obtain ⟨he, rfl⟩ := of_find? hf
  obtain ⟨roster, hc, hcareful⟩ := Conference.conference_of_error hfail
  have hdirectory : (d.raise host e caller caller.participant.joinEvent w).directory =
      d.update e.serial { e.conference with room := { e.conference.room with roster } } := congrArg (d.update e.serial) hc
  rw [hdirectory]
  refine ⟨⟨hd.registered_update he rfl, rfl, rfl, fun _ hne => hd.find?_update_of_ne he rfl hne, ?_, ?_⟩, fun ht => ?_⟩
  · rintro hnone
    rw [hf] at hnone
    cases hnone
  · rintro x hx
    obtain rfl : e = x := Option.some.inj (hf.symm.trans hx)
    exact ⟨roster, hd.find?_update he rfl⟩
  · rw [hcareful ht]
    exact hd.entries_update_self he

/-- A failed join of a name that nobody uses. -/
theorem Sound.failed_join_unregistered (hd : d.Sound) (hf : d.find? name = none)
    (hfail : (d.join host name caller w).result = .error error) :
    ∃ next, (d.join host name caller w).directory = { d with nextSerial := next } := by
  cases ho : d.obtain name with
  | error refusal => exact ⟨d.nextSerial, by simp only [Directory.join, ho]⟩
  | ok found =>
    obtain ⟨e, d', log⟩ := found
    have hr : d.isRegistered name = false := by simp [isRegistered, hf]
    cases hd.obtained ho with
    | found _ registered =>
      rw [registered] at hf
      cases hf
    | created =>
      simp only [Directory.join, ho, hr, Bool.false_eq_true, if_false] at hfail ⊢
      split at hfail
      · rename_i hok
        rw [hok] at hfail
        cases hfail
      · rename_i herror
        exact ⟨_, hd.tidy_register (c := .fresh name d.settings.conference d.table) hf rfl herror⟩

end Directory

/-! ### Runs -/

namespace Exchange
open Directory
variable {σ : Type} {host : Host σ} {s : Exchange σ} {table : Table}

/-- Every registered conference is governed by the table of the directory. -/
structure Governed (table : Table) (s : Exchange σ) : Prop where
  directory : s.directory.Sound
  same : s.directory.table = table
  conferences : ∀ e ∈ s.directory.entries, e.conference.table = table

theorem steady_governed (host : Host σ) (table : Table) : Steady host fun t : Exchange σ => t.Governed table where
  sound h := h.directory
  obtained _ h ho := by
    obtain ⟨grows, -, -⟩ := h.directory.grows_obtain ho
    refine ⟨grows.sound, grows.table.trans h.same, ?_⟩
    cases h.directory.obtained ho with
    | found => exact h.conferences
    | created =>
      intro x hx
      rcases List.mem_append.mp hx with hx | hx
      · exact h.conferences x hx
      · rw [List.mem_singleton.mp hx]
        exact h.same
  held h he := ⟨(h.directory.grows_hold he).sound, h.same, h.conferences⟩
  letGo k h := ⟨(h.directory.grows_letGo k).sound, h.same, h.conferences⟩
  raised _ _ _ h he := by
    refine ⟨(h.directory.grows_update he Conference.name_apply).sound, h.same, fun x hx => ?_⟩
    rcases mem_update hx with ⟨hx, -⟩ | rfl
    · exact h.conferences x hx
    · exact Conference.table_apply.trans (h.conferences _ he)

theorem Governed.step (h : s.Governed table) (hs : s.Sound) (host : Host σ) (q : Request) :
    (s.step host q).Governed table := by
  have hEve := (steady_governed host table).eve h q
  have hdirectory := (hs.step host q).directory
  obtain ⟨picked, w, -, -, hstep⟩ := step_cases hs.directory host q
  rw [hstep] at hdirectory ⊢
  exact ⟨hdirectory, hEve.same, fun e he => hEve.conferences e (List.mem_filter.mp he).1⟩

theorem governed_run {settings : DirectorySettings} {d : Directory} (h : create settings table = .ok d) (host : Host σ)
    (people : Nat → Participant) (w : σ) (requests : List Request) :
    ((start d people w).run host requests).Governed table := by
  have begun : (start d people w).Governed table := by
    obtain ⟨hd, rfl⟩ := Sound.of_create h
    exact ⟨hd, rfl, List.forall_mem_nil _⟩
  exact (run_induction (P := fun t => t.Sound ∧ t.Governed table) ⟨sound_start h people w, begun⟩
    (fun t q ht => ⟨ht.1.step host q, ht.2.step ht.1 host q⟩) requests).2

/-- After any requests, whatever the table, a join that fails leaves the directory as it was: the same conferences
    under the same names, those that nobody attends among them, the same places taken and the same handles
    outstanding. Nothing is left of a conference that was created for it. One that was there before is as it was,
    but for what a handler that refuses has done to its roster; handlers that take care do nothing to it. -/
theorem failed_join_leaves_no_trace {σ : Type} {settings : DirectorySettings} {table : Table} {d : Directory}
    (h : create settings table = .ok d) (host : Host σ) (people : Nat → Participant) (w : σ)
    (requests : List Request) (name : String) (i : Nat) (error : BridgeError) :
    let s := (start d people w).run host requests
    let answer := s.directory.join host name (s.callers i) s.world
    answer.result = .error error →
      s.directory.LeftAlone answer.directory name ∧
      (s.directory.find? name = none → answer.directory.entries = s.directory.entries) ∧
      (table.Careful → answer.directory.entries = s.directory.entries) := by
  intro s answer hfail
  have hs : s.Governed table := governed_run h host people w requests
  cases hf : s.directory.find? name with
  | none =>
    obtain ⟨next, hafter⟩ := hs.directory.failed_join_unregistered hf hfail
    rw [hafter]
    exact ⟨leftAlone_of_eq rfl rfl rfl, fun _ => rfl, fun _ => rfl⟩
  | some e =>
    obtain ⟨alone, careful⟩ := hs.directory.failed_join_registered hf hfail
    have htable : e.conference.table = table := hs.conferences e (of_find? hf).1
    exact ⟨alone, nofun, fun ht => careful (htable ▸ ht)⟩

/-- A handler admits a participant and then gives up. The conference that was created for it goes, and the empty one
    that somebody holds stays. -/
theorem failed_join_forgotten :
    let giveUp : Handler := fun c => { Table.onJoin c with target := .error (.noRoom "no mixer available") }
    let table := Table.standard.edit (.handle .empty (.join .unmarked) giveUp)
    let d : Directory := { settings := {}, table }
    let host : Host Unit := .logging fun _ => id
    let s := (start d (fun _ => ⟨"a", .plain⟩) ()).run host [.obtain "kept"]
    create {} table = .ok d ∧ ∀ name ∈ ["room", "kept"],
      let answer := s.directory.join host name (s.callers 0) s.world
      answer.result = .error (.noRoom "no mixer available") ∧
        answer.directory.registered = [⟨"kept", 0⟩] ∧ answer.directory.slots = 1 := by
  intro giveUp table d host s
  have made : create {} table = .ok d := rfl
  refine ⟨made, fun name hname => ?_⟩
  have hfail : (s.directory.join host name (s.callers 0) s.world).result = .error (.noRoom "no mixer available") := by
    simp only [List.mem_cons, List.not_mem_nil, or_false] at hname
    rcases hname with rfl | rfl <;> rfl
  obtain ⟨alone, -, -⟩ := failed_join_leaves_no_trace made host (fun _ => ⟨"a", .plain⟩) () [.obtain "kept"] name 0 _ hfail
  exact ⟨hfail, alone.registered, alone.slots⟩

end Exchange
end ConferenceBridge
