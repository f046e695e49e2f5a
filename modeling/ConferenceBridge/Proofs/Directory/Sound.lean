import ConferenceBridge.Directory
import ConferenceBridge.Proofs.Session

/-! Directories that hold together. No two registered conferences share a name or a serial number, the places
    taken are as many as the conferences, and whoever holds a handle holds a registered conference. Nothing that
    is done to a directory breaks this; only removals take conferences away, and they free as many places. -/

namespace ConferenceBridge
namespace Directory
variable {d d' d'' : Directory} {e x : Entry} {c : Conference} {name : String} {picked : Entry → Bool} {h : Handle}

/-- The handles that name the registered conferences. -/
def registered (d : Directory) : List Handle := d.entries.map (·.handle)

/-- What holds of a directory between two requests. -/
structure Sound (d : Directory) : Prop where
  names : (d.registered.map (·.name)).Nodup
  serials : (d.registered.map (·.serial)).Nodup
  issued : ∀ h ∈ d.registered, h.serial < d.nextSerial
  slots : d.slots = d.size
  limit : ∀ most, d.settings.maxConferences = some most → d.size ≤ most
  held : ∀ h ∈ d.handles, h ∈ d.registered
  settings : d.settings.validate = .ok ()

theorem mem_registered : h ∈ d.registered ↔ ∃ e ∈ d.entries, e.handle = h := List.mem_map

theorem mem_registered_of_mem (he : e ∈ d.entries) : e.handle ∈ d.registered := List.mem_map_of_mem he

theorem size_eq_length_registered : d.size = d.registered.length := (List.length_map _).symm

/-! ### Looking -/

theorem Sound.eq_of_name (hd : d.Sound) (he : e ∈ d.entries) (hx : x ∈ d.entries) (hn : e.name = x.name) : e = x := by
  have hnames : (d.entries.map (·.name)).Nodup := by
    have h := hd.names
    rwa [registered, List.map_map] at h
  exact List.inj_on_of_nodup_map hnames he hx hn

theorem Sound.eq_of_serial (hd : d.Sound) (he : e ∈ d.entries) (hx : x ∈ d.entries) (hs : e.serial = x.serial) :
    e = x := by
  have hserials : (d.entries.map (·.serial)).Nodup := by
    have h := hd.serials
    rwa [registered, List.map_map] at h
  exact List.inj_on_of_nodup_map hserials he hx hs

theorem of_find? (h : d.find? name = some e) : e ∈ d.entries ∧ e.name = name := by
  unfold find? at h
  have hn := List.find?_some h
  exact ⟨List.mem_of_find?_eq_some h, beq_iff_eq.mp hn⟩

theorem Sound.find?_of_mem (hd : d.Sound) (he : e ∈ d.entries) : d.find? e.name = some e := by
  cases hf : d.find? e.name with
  | none => exact absurd (beq_self_eq_true e.name) (List.find?_eq_none.mp hf e he)
  | some x =>
    obtain ⟨hx, hn⟩ := of_find? hf
    rw [hd.eq_of_name hx he hn]

theorem name_ne_of_find? (h : d.find? name = none) (he : e ∈ d.entries) : e.name ≠ name := by
  intro hn
  exact List.find?_eq_none.mp h e he (beq_iff_eq.mpr hn)

theorem isRegistered_iff : d.isRegistered name = true ↔ ∃ e ∈ d.entries, e.name = name := by
  rw [isRegistered, find?, List.find?_isSome]
  simp only [beq_iff_eq]

theorem Sound.resolve? (hd : d.Sound) (hh : h ∈ d.handles) :
    ∃ e ∈ d.entries, d.resolve? h = some e ∧ e.handle = h := by
  obtain ⟨e, he, rfl⟩ := mem_registered.mp (hd.held h hh)
  cases hf : d.resolve? e.handle with
  | none => exact absurd (by simp [Entry.handle]) (List.find?_eq_none.mp hf e he)
  | some x =>
    unfold Directory.resolve? at hf
    have hx := List.mem_of_find?_eq_some hf
    have hs := List.find?_some hf
    rw [Bool.and_eq_true] at hs
    obtain rfl := hd.eq_of_serial hx he (beq_iff_eq.mp hs.1)
    exact ⟨x, hx, rfl, rfl⟩

theorem isHeld_of_mem (h : e.handle ∈ d.handles) : d.isHeld e = true :=
  List.any_eq_true.mpr ⟨e.handle, h, beq_self_eq_true e.serial⟩

/-! ### Creating -/

theorem Sound.of_create {settings : DirectorySettings} {table : Table} (h : create settings table = .ok d) :
    d.Sound ∧ d = { settings, table } := by
  unfold create at h
  cases hv : settings.validate with
  | error _ =>
    rw [hv] at h
    cases h
  | ok _ =>
    rw [hv] at h
    cases ht : table.validate with
    | error _ =>
      rw [ht] at h
      cases h
    | ok _ =>
      rw [ht] at h
      cases h
      exact ⟨⟨List.nodup_nil, List.nodup_nil, by simp [registered], rfl, by simp [size], by simp, hv⟩, rfl⟩

theorem Sound.validate_conference (hd : d.Sound) : d.settings.conference.validate = .ok () := by
  have h := hd.settings
  unfold DirectorySettings.validate at h
  split at h
  · cases h
  · exact h

/-- What becomes of asking for a conference by its name: it is there, or there is no room for it, or it is made. -/
inductive Obtained (d : Directory) (name : String) : Except BridgeError (Entry × Directory × List Log.Line) → Prop where
  | found (e : Entry) (registered : d.find? name = some e) : d.Obtained name (.ok (e, d, []))
  | refused (unregistered : d.find? name = none) (full : d.settings.maxConferences = some d.size) :
      d.Obtained name (.error (.noRoom ("cannot create conference '" ++ name ++ "': limit of " ++ toString d.size
        ++ " reached")))
  | created (unregistered : d.find? name = none) (room : d.settings.maxConferences ≠ some d.size) :
      d.Obtained name (.ok ((d.register (.fresh name d.settings.conference d.table)).1,
        (d.register (.fresh name d.settings.conference d.table)).2, [Log.info ("Created conference '" ++ name ++ "'")]))

theorem Sound.limitReached?_of_room (hd : d.Sound) (hroom : d.settings.maxConferences ≠ some d.size) (name : String) :
    d.limitReached? name = none := by
  cases hm : d.settings.maxConferences with
  | none =>
    rw [limitReached?, hm]
    rfl
  | some most =>
    have hlt : d.slots < most := by
      rw [hd.slots]
      refine Nat.lt_of_le_of_ne (hd.limit most hm) fun h => hroom ?_
      rw [hm, h]
    simp [limitReached?, hm, hlt]

theorem Sound.obtained (hd : d.Sound) {answer : Except BridgeError (Entry × Directory × List Log.Line)}
    (h : d.obtain name = answer) : d.Obtained name answer := by
  rw [← h]
  unfold obtain
  cases hf : d.find? name with
  | some e => exact .found e hf
  | none =>
    by_cases hfull : d.settings.maxConferences = some d.size
    · have hl : d.limitReached? name = some (.noRoom ("cannot create conference '" ++ name ++ "': limit of "
          ++ toString d.size ++ " reached")) := by
        simp [limitReached?, hfull, hd.slots]
      simp only [hl]
      exact .refused hf hfull
    · have made : Conference.create name d.settings.conference d.table =
          .ok (.fresh name d.settings.conference d.table) := by
        rw [Conference.create, hd.validate_conference]
        rfl
      simp only [hd.limitReached?_of_room hfull name, made]
      exact .created hf hfull

theorem obtain_registered (h : d.find? name = some e) : d.obtain name = .ok (e, d, []) := by
  simp only [obtain, h]

theorem Sound.obtain_fails_iff (hd : d.Sound) (h : d.find? name = none) :
    (∃ error, d.obtain name = .error error) ↔ d.settings.maxConferences = some d.size := by
  generalize ho : d.obtain name = answer
  cases hd.obtained ho with
  | found x registered =>
    rw [registered] at h
    cases h
  | refused _ full => exact iff_of_true ⟨_, rfl⟩ full
  | created _ room => exact iff_of_false nofun room

theorem Sound.obtain_error (hd : d.Sound) {error : BridgeError} (h : d.obtain name = .error error) :
    ∃ detail, error = .noRoom detail := by
  cases hd.obtained h
  exact ⟨_, rfl⟩

/-! ### Growing -/

/-- What a directory keeps as long as nothing is removed from it. -/
structure Grows (d d' : Directory) : Prop where
  sound : d'.Sound
  settings : d'.settings = d.settings
  table : d'.table = d.table
  kept : d.registered ⊆ d'.registered
  fresh : ∀ h ∈ d'.registered, h ∈ d.registered ∨ d.nextSerial ≤ h.serial
  next : d.nextSerial ≤ d'.nextSerial
  named : ∀ n < d'.nextSerial, n < d.nextSerial ∨ ∃ h ∈ d'.registered, h.serial = n

theorem Grows.trans (h : d.Grows d') (h' : d'.Grows d'') : d.Grows d'' where
  sound := h'.sound
  settings := h'.settings.trans h.settings
  table := h'.table.trans h.table
  kept := List.Subset.trans h.kept h'.kept
  fresh k hk := by
    rcases h'.fresh k hk with hk | hk
    · exact h.fresh k hk
    · exact Or.inr (Nat.le_trans h.next hk)
  next := Nat.le_trans h.next h'.next
  named n hn := by
    rcases h'.named n hn with hn | hn
    · rcases h.named n hn with hn | ⟨k, hk, hs⟩
      · exact Or.inl hn
      · exact Or.inr ⟨k, h'.kept hk, hs⟩
    · exact Or.inr hn

/-- Whatever leaves the names and the places alone. -/
theorem Sound.grows_of_same (hd : d.Sound) (hr : d'.registered = d.registered) (hslots : d'.slots = d.slots)
    (hnext : d'.nextSerial = d.nextSerial) (hsettings : d'.settings = d.settings) (htable : d'.table = d.table)
    (held : ∀ h ∈ d'.handles, h ∈ d.registered) : d.Grows d' where
  sound := by
    have hsize : d'.size = d.size := by rw [size_eq_length_registered, hr, size_eq_length_registered]
    constructor
    · exact hr ▸ hd.names
    · exact hr ▸ hd.serials
    · rw [hr, hnext]
      exact hd.issued
    · rw [hslots, hsize]
      exact hd.slots
    · rw [hsettings, hsize]
      exact hd.limit
    · rw [hr]
      exact held
    · exact hsettings ▸ hd.settings
  settings := hsettings
  table := htable
  kept := hr ▸ List.Subset.refl _
  fresh k hk := Or.inl (hr ▸ hk)
  next := Nat.le_of_eq hnext.symm
  named n hn := Or.inl (hnext ▸ hn)

theorem Sound.grows_refl (hd : d.Sound) : d.Grows d := hd.grows_of_same rfl rfl rfl rfl rfl hd.held

theorem Sound.grows_hold (hd : d.Sound) (he : e ∈ d.entries) : d.Grows (d.hold e.handle) :=
  hd.grows_of_same rfl rfl rfl rfl rfl (List.forall_mem_cons.mpr ⟨mem_registered_of_mem he, hd.held⟩)

theorem Sound.grows_letGo (hd : d.Sound) (h : Handle) : d.Grows (d.letGo h) :=
  hd.grows_of_same rfl rfl rfl rfl rfl fun k hk => hd.held k (List.mem_of_mem_erase hk)

theorem mem_update {serial : Nat} (hx : x ∈ (d.update serial c).entries) :
    (x ∈ d.entries ∧ x.serial ≠ serial) ∨ x = ⟨serial, c⟩ := by
  obtain ⟨y, hy, rfl⟩ := List.mem_map.mp hx
  split
  · exact Or.inr rfl
  · rename_i hs
    exact Or.inl ⟨hy, hs⟩

theorem Sound.registered_update (hd : d.Sound) (he : e ∈ d.entries) (hn : c.name = e.name) :
    (d.update e.serial c).registered = d.registered := by
  rw [registered, registered, update, List.map_map]
  refine List.map_congr_left fun y hy => ?_
  by_cases hs : y.serial = e.serial
  · obtain rfl := hd.eq_of_serial hy he hs
    simp only [Function.comp_apply, if_true, Entry.handle]
    rw [Entry.name, hn]
  · simp [hs]

theorem Sound.grows_update (hd : d.Sound) (he : e ∈ d.entries) (hn : c.name = e.name) :
    d.Grows (d.update e.serial c) :=
  hd.grows_of_same (hd.registered_update he hn) rfl rfl rfl rfl hd.held

theorem registered_register : (d.register c).2.registered = d.registered ++ [⟨c.name, d.nextSerial⟩] := by
  simp [registered, register, Entry.handle, Entry.name]

theorem Sound.grows_register (hd : d.Sound) (hf : d.find? c.name = none)
    (hroom : d.settings.maxConferences ≠ some d.size) : d.Grows (d.register c).2 where
  sound := by
    have hsize : (d.register c).2.size = d.size + 1 := by simp [size, register]
    constructor
    · rw [registered_register, List.map_append]
      refine List.Nodup.append hd.names (List.nodup_singleton _) fun k hk hk' => ?_
      obtain ⟨h, hh, rfl⟩ := List.mem_map.mp hk
      obtain ⟨e, he, rfl⟩ := mem_registered.mp hh
      exact name_ne_of_find? hf he (List.mem_singleton.mp hk')
    · rw [registered_register, List.map_append]
      refine List.Nodup.append hd.serials (List.nodup_singleton _) fun k hk hk' => ?_
      obtain ⟨h, hh, rfl⟩ := List.mem_map.mp hk
      exact absurd (List.mem_singleton.mp hk') (Nat.ne_of_lt (hd.issued h hh))
    · rw [registered_register]
      intro h hh
      show h.serial < d.nextSerial + 1
      rcases List.mem_append.mp hh with hh | hh
      · exact Nat.lt_succ_of_lt (hd.issued h hh)
      · rw [List.mem_singleton.mp hh]
        exact Nat.lt_succ_self _
    · rw [hsize]
      exact congrArg (· + 1) hd.slots
    · intro most hm
      have hle := hd.limit most hm
      rw [hsize]
      refine Nat.lt_of_le_of_ne hle fun h => hroom ?_
      rw [h]
      exact hm
    · intro h hh
      rw [registered_register]
      exact List.mem_append_left _ (hd.held h hh)
    · exact hd.settings
  settings := rfl
  table := rfl
  kept := by
    rw [registered_register]
    exact List.subset_append_left _ _
  fresh h hh := by
    rw [registered_register] at hh
    rcases List.mem_append.mp hh with hh | hh
    · exact Or.inl hh
    · rw [List.mem_singleton.mp hh]
      exact Or.inr (Nat.le_refl _)
  next := Nat.le_succ _
  named n hn := by
    rcases Nat.lt_succ_iff_lt_or_eq.mp hn with hn | rfl
    · exact Or.inl hn
    · refine Or.inr ⟨⟨c.name, d.nextSerial⟩, ?_, rfl⟩
      rw [registered_register]
      exact List.mem_append_right _ (List.mem_singleton_self _)

theorem Sound.grows_obtain (hd : d.Sound) {log : List Log.Line} (h : d.obtain name = .ok (e, d', log)) :
    d.Grows d' ∧ e ∈ d'.entries ∧ e.name = name := by
  cases hd.obtained h with
  | found _ registered => exact ⟨hd.grows_refl, of_find? registered⟩
  | created unregistered room =>
    exact ⟨hd.grows_register unregistered room, List.mem_append_right _ (List.mem_singleton_self _), rfl⟩

/-- A conference that is made is new, and found from then on. -/
theorem Sound.obtain_created (hd : d.Sound) {log : List Log.Line} (hf : d.find? name = none)
    (h : d.obtain name = .ok (e, d', log)) :
    e.conference = .fresh name d.settings.conference d.table ∧ d'.find? name = some e ∧ d'.slots = d.slots + 1 := by
  obtain ⟨grows, he, hn⟩ := hd.grows_obtain h
  have hfound : d'.find? name = some e := hn ▸ grows.sound.find?_of_mem he
  cases hd.obtained h with
  | found _ registered =>
    rw [registered] at hf
    cases hf
  | created => exact ⟨rfl, hfound, rfl⟩

/-! ### Removing -/

/-- The directory without some of its conferences, whose places are free again. -/
def dropping (d : Directory) (picked : Entry → Bool) : Directory :=
  { d with entries := d.entries.filter (!picked ·), slots := d.slots - (d.entries.filter picked).length }

/-- The conferences that one directory has and the other does not. -/
def missing (d d' : Directory) : List Entry := d.entries.filter fun e => !d'.entries.any (·.serial == e.serial)

theorem missing_self : d.missing d = [] := by
  unfold missing
  refine List.filter_eq_nil_iff.mpr fun e he => ?_
  have hany : d.entries.any (·.serial == e.serial) = true :=
    List.any_eq_true.mpr ⟨e, he, beq_self_eq_true e.serial⟩
  simp [hany]

theorem dropping_of_none (h : ∀ e ∈ d.entries, picked e = false) : d.dropping picked = d := by
  have hkeep : d.entries.filter (!picked ·) = d.entries := List.filter_eq_self.mpr fun e he => by simp [h e he]
  have hgo : d.entries.filter picked = [] := List.filter_eq_nil_iff.mpr fun e he => by simp [h e he]
  rw [dropping, hkeep, hgo]
  rfl

theorem registered_dropping_sublist : (d.dropping picked).registered.Sublist d.registered :=
  List.filter_sublist.map _

theorem Sound.dropped (hd : d.Sound) (free : ∀ e ∈ d.entries, picked e = true → d.isHeld e = false) :
    (d.dropping picked).Sound where
  names := hd.names.sublist (registered_dropping_sublist.map _)
  serials := hd.serials.sublist (registered_dropping_sublist.map _)
  issued h hh := hd.issued h (registered_dropping_sublist.subset hh)
  slots := by
    have hlen : d.entries.length = _ := List.length_eq_length_filter_add picked
    have hslots := hd.slots
    simp only [dropping, size] at hslots ⊢
    omega
  limit most hm := Nat.le_trans (List.length_filter_le _ _) (hd.limit most hm)
  held h hh := by
    obtain ⟨e, he, rfl⟩ := mem_registered.mp (hd.held h hh)
    refine mem_registered_of_mem (List.mem_filter.mpr ⟨he, ?_⟩)
    cases hp : picked e with
    | false => rfl
    | true =>
      have hheld : d.isHeld e = true := isHeld_of_mem hh
      rw [free e he hp] at hheld
      cases hheld
  settings := hd.settings

theorem Sound.missing_dropping (hd : d.Sound) : d.missing (d.dropping picked) = d.entries.filter picked := by
  unfold missing
  refine List.filter_congr fun e he => ?_
  cases hp : picked e with
  | false =>
    have hstay : e ∈ (d.dropping picked).entries := List.mem_filter.mpr ⟨he, by simp [hp]⟩
    have hany : (d.dropping picked).entries.any (·.serial == e.serial) = true :=
      List.any_eq_true.mpr ⟨e, hstay, beq_self_eq_true e.serial⟩
    rw [hany]
    rfl
  | true =>
    rw [Bool.not_eq_true', List.any_eq_false]
    intro x hx hs
    obtain ⟨hx, hpx⟩ := List.mem_filter.mp hx
    rw [hd.eq_of_serial hx he (beq_iff_eq.mp hs), hp] at hpx
    cases hpx

theorem Sound.slots_dropping (hd : d.Sound) :
    (d.dropping picked).slots + (d.missing (d.dropping picked)).length = d.slots := by
  have hle : (d.entries.filter picked).length ≤ d.slots := by
    rw [hd.slots]
    exact List.length_filter_le _ _
  rw [hd.missing_dropping]
  exact Nat.sub_add_cancel hle

theorem Sound.removeIdle_eq (hd : d.Sound) (name : String) :
    (d.removeIdle name).2.1 = d.dropping fun e => e.name == name && d.isIdle e := by
  unfold removeIdle
  cases hf : d.find? name with
  | none => exact (dropping_of_none fun e he => by simp [name_ne_of_find? hf he]).symm
  | some x =>
    obtain ⟨hx, hn⟩ := of_find? hf
    have only : ∀ e ∈ d.entries, e.name = name → e = x := fun e he h => hd.eq_of_name he hx (h.trans hn.symm)
    cases hi : d.isIdle x with
    | false =>
      have hno : ∀ e ∈ d.entries, (e.name == name && d.isIdle e) = false := by
        intro e he
        by_cases h : e.name = name
        · rw [only e he h, hi, Bool.and_false]
        · simp [h]
      rw [dropping_of_none hno]
      simp [hi]
    | true =>
      have hgo : ∀ e ∈ d.entries, (e.name == name && d.isIdle e) = (e.serial == x.serial) := by
        intro e he
        by_cases h : e.name = name
        · obtain rfl := only e he h
          rw [hi, h, beq_self_eq_true, beq_self_eq_true]
          rfl
        · have hs : e.serial ≠ x.serial := fun hs => h (hd.eq_of_serial he hx hs ▸ hn)
          rw [beq_false_of_ne h, beq_false_of_ne hs, Bool.false_and]
      have hone : (d.entries.filter fun e => e.name == name && d.isIdle e).length = 1 := by
        have nodup : d.entries.Nodup := List.Nodup.of_map _ hd.names.of_map
        refine ((List.perm_ext_iff_of_nodup (nodup.filter _) (List.nodup_singleton x)).mpr fun e => ?_).length_eq
        rw [List.mem_filter, List.mem_singleton]
        constructor
        · rintro ⟨he, hp⟩
          rw [hgo e he] at hp
          exact hd.eq_of_serial he hx (beq_iff_eq.mp hp)
        · rintro rfl
          exact ⟨hx, by simp [hn, hi]⟩
      have hkeep : (d.entries.filter fun e => !(e.name == name && d.isIdle e)) = d.entries.filter (·.serial != x.serial) :=
        List.filter_congr fun e he => congrArg (!·) (hgo e he)
      rw [dropping, hone, hkeep]
      simp [hi]

end Directory
end ConferenceBridge
