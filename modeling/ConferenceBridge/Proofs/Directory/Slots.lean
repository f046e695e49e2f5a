import ConferenceBridge.Proofs.Directory.Exchange

/-! The places of a directory. They are counted apart from the conferences, and the count is right after every
    request: every conference takes one place, and every removal gives it back. So a conference is refused only
    where there is no room for it. -/

namespace ConferenceBridge
open Directory

namespace Exchange
variable {σ : Type} {s : Exchange σ}

theorem step_obtain_of_error {name : String} {error : BridgeError} (h : s.directory.obtain name = .error error)
    (host : Host σ) : s.step host (.obtain name) = s := by
  have heve : s.eve host (.obtain name) = s := eve_obtain_of_error h
  have hserved : s.served host (.obtain name) = s.eve host (.obtain name) := rfl
  rw [step, removed, hserved, heve, missing_self, List.append_nil]

theorem removal_frees_slots (hs : s.Sound) (host : Host σ) (q : Request) :
    (s.step host q).directory.slots + (s.removed host q).length = (s.eve host q).directory.slots := by
  obtain ⟨grows, -⟩ := eve_grows hs.directory host q
  obtain ⟨picked, w, -, hremoved, hstep⟩ := step_cases hs.directory host q
  rw [hstep, hremoved, ← grows.sound.missing_dropping]
  exact grows.sound.slots_dropping

/-- After any requests the places taken are as many as the conferences and no more than the limit, and the next
    request counts every place that it gives back. A registered conference is always found; another can be
    created unless as many as the limit are registered, and the refusal says so and changes nothing. -/
theorem slots_accounted {σ : Type} {settings : DirectorySettings} {table : Table} {d : Directory}
    (h : create settings table = .ok d) (host : Host σ) (people : Nat → Participant) (w : σ)
    (requests : List Request) :
    let s := (start d people w).run host requests
    s.directory.slots = s.directory.size ∧
    (∀ most, settings.maxConferences = some most → s.directory.size ≤ most) ∧
    (∀ q, (s.eve host q).directory.slots = (s.eve host q).directory.size ∧
      (s.step host q).directory.slots + (s.removed host q).length = (s.eve host q).directory.slots) ∧
    ∀ name,
      (∀ e, s.directory.find? name = some e → s.directory.obtain name = .ok (e, s.directory, [])) ∧
      (s.directory.find? name = none →
        ((∃ error, s.directory.obtain name = .error error) ↔ settings.maxConferences = some s.directory.size)) ∧
      (∀ e after log, s.directory.find? name = none → s.directory.obtain name = .ok (e, after, log) →
        after.find? name = some e ∧ after.slots = s.directory.slots + 1) ∧
      ∀ error, s.directory.obtain name = .error error →
        (∃ detail, error = .noRoom detail) ∧ s.step host (.obtain name) = s := by
  intro s
  have begun := sound_start h people w
  have hs : s.Sound := begun.run host requests
  have hsettings : s.directory.settings = settings := by
    obtain ⟨-, rfl⟩ := Sound.of_create h
    exact begun.settings_run host requests
  rw [← hsettings]
  refine ⟨hs.directory.slots, hs.directory.limit, fun q => ?_, fun name => ⟨?_, ?_, ?_, ?_⟩⟩
  · exact ⟨(eve_grows hs.directory host q).1.sound.slots, removal_frees_slots hs host q⟩
  · exact fun e he => obtain_registered he
  · exact fun hnone => hs.directory.obtain_fails_iff hnone
  · exact fun e after log hnone ho => (hs.directory.obtain_created hnone ho).2
  · exact fun error herror => ⟨hs.directory.obtain_error herror, step_obtain_of_error herror host⟩

/-- Where there is room for one conference, one is joined and a second one is refused. -/
theorem second_conference_refused :
    let settings : DirectorySettings := { maxConferences := some 1 }
    let d : Directory := { settings, table := .standard }
    let host : Host Unit := .logging fun _ => id
    let s := (start d (fun _ => ⟨"a", .plain⟩) ()).run host [.join "room" 0]
    create settings .standard = .ok d ∧ s.directory.slots = 1 ∧
      ∃ detail, s.directory.obtain "other" = .error (.noRoom detail) := by
  intro settings d host s
  have made : create settings .standard = .ok d := rfl
  obtain ⟨hslots, -, -, hname⟩ := slots_accounted made host (fun _ => ⟨"a", .plain⟩) () [.join "room" 0]
  obtain ⟨-, hfails, -, hrefused⟩ := hname "other"
  have hsize : s.directory.size = 1 := rfl
  obtain ⟨error, herror⟩ := (hfails rfl).mpr (congrArg some hsize.symm)
  obtain ⟨⟨detail, rfl⟩, -⟩ := hrefused error herror
  exact ⟨made, hslots.trans hsize, detail, herror⟩

end Exchange
end ConferenceBridge
