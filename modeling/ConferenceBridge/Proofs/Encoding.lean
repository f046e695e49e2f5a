import ConferenceBridge.Codec
import ConferenceBridge.Proofs.Json.RoundTrip

/-! Values that are written and read back. What is written is read back as it was. Fields may be left out of what is
    written, at any depth: of options and settings just those fields are then at their defaults, and what has no
    defaults is not read at all. -/

namespace ConferenceBridge
open Codec

/-- Which fields are left out of a value, each given by the names on the way to it. -/
abbrev Omission := List String → Bool

namespace Omission

/-- What is left out of the value of a field. -/
def within (gone : Omission) (name : String) : Omission := fun path => gone (name :: path)

/-- Nothing is left out. -/
def nothing : Omission := fun _ => false

/-- What becomes of a field: it is at its default if it is left out. -/
def orDefault {α : Type} (gone : Omission) (name : String) (default value : α) : α :=
  if gone [name] then default else value

@[simp] theorem within_nothing (name : String) : nothing.within name = nothing := rfl

@[simp] theorem nothing_orDefault {α : Type} (name : String) (default value : α) :
    nothing.orDefault name default value = value := rfl

end Omission

namespace Json

mutual

/-- The value with some fields left out. -/
def without (gone : Omission) : Json → Json
  | .obj fields => .obj (fieldsWithout gone fields)
  | j => j

/-- The fields that are not left out, each with what is not left out of it. -/
def fieldsWithout (gone : Omission) : List (String × Json) → List (String × Json)
  | [] => []
  | (name, value) :: fields =>
    if gone [name] then fieldsWithout gone fields
    else (name, without (gone.within name) value) :: fieldsWithout gone fields

end

theorem fieldsWithout_eq (gone : Omission) (fields : List (String × Json)) : fieldsWithout gone fields =
    (fields.filter fun f => !gone [f.1]).map fun f => (f.1, f.2.without (gone.within f.1)) := by
  induction fields with
  | nil => rw [fieldsWithout, List.filter_nil, List.map_nil]
  | cons f fields ih =>
    rw [fieldsWithout, ih]
    cases h : gone [f.1] <;> simp [h]

theorem lookup_fieldsWithout (gone : Omission) (fields : List (String × Json)) (name : String) :
    (fieldsWithout gone fields).lookup name =
      if gone [name] then none else (fields.lookup name).map (without (gone.within name)) := by
  induction fields with
  | nil => simp [fieldsWithout]
  | cons f fields ih =>
    obtain ⟨other, value⟩ := f
    rw [fieldsWithout]
    by_cases he : name = other
    · subst he
      cases h : gone [name] <;> simp [h, ih]
    · have hb : (name == other) = false := beq_eq_false_iff_ne.mpr he
      cases h : gone [other] <;> simp [ih, List.lookup_cons, hb]

/-- What is left of a value can be said by a text if the value can. -/
theorem Plain.without {j : Json} (h : Plain j) (gone : Omission) : Plain (j.without gone) := by
  induction h generalizing gone with
  | @obj fields distinct _ ih =>
    rw [Json.without, fieldsWithout_eq]
    refine .obj ?_ fun f hf => ?_
    · rw [List.map_map]
      exact distinct.sublist (List.filter_sublist.map _)
    · obtain ⟨g, hg, rfl⟩ := List.mem_map.mp hf
      exact ih g (List.mem_filter.mp hg).1 _
  | null => exact .null
  | bool b => exact .bool b
  | int n => exact .int n
  | str s => exact .str s
  | arr items_plain _ => exact .arr items_plain

/-- If nothing is left out the value is what it was. -/
theorem Plain.without_nothing {j : Json} (h : Plain j) : j.without .nothing = j := by
  induction h with
  | @obj fields _ _ ih =>
    have hkept : fields.filter (fun f => !Omission.nothing [f.1]) = fields := List.filter_eq_self.mpr fun _ _ => rfl
    rw [Json.without, fieldsWithout_eq, hkept]
    have hsame : ∀ f ∈ fields, (f.1, f.2.without (Omission.nothing.within f.1)) = id f :=
      fun f hf => congrArg (Prod.mk f.1) (ih f hf)
    rw [List.map_congr_left hsame, List.map_id]
  | _ => rfl

end Json

/-! ### Reading -/

namespace Codec

/-- The value that a text stands for. -/
def decode? {α : Type} (read : Json → Option α) (text : String) : Option α := (Json.ofText? text).bind read

variable {α : Type} {read : Json → Option α} {j : Json} {b : Bool}

theorem decode?_text (h : j.Plain) : decode? read j.text = read j := by
  rw [decode?, Json.ofText?_text h, Option.bind_some]

theorem decode?_text_of_nothing {v : α} (h : j.Plain) (hread : read (j.without .nothing) = some v) :
    decode? read j.text = some v := by
  rw [decode?_text h, ← hread, h.without_nothing]

theorem given?_without (gone : Omission) (fields : List (String × Json)) (names : List String) :
    given? names (.obj (Json.fieldsWithout gone fields)) = some (names.map fun name =>
      if gone [name] then none else (fields.lookup name).map (Json.without (gone.within name))) := by
  rw [given?]
  simp only [Json.lookup_fieldsWithout]

theorem optional_ite (default : α) :
    optional default read (if b then none else some j) = if b then some default else read j := by
  cases b <;> rfl

theorem required_ite : required read (if b then none else some j) = if b then none else read j := by
  cases b <;> rfl

/-- A limit has no fields that could be left out. -/
theorem limit?_without {n : Option Nat} (h : ∀ m, n = some m → m < limitBound) (gone : Omission) :
    limit? ((limit n).without gone) = some n := by
  cases n with
  | none => rfl
  | some m =>
    have hm : 0 ≤ Int.ofNat m ∧ (Int.ofNat m).toNat < limitBound := ⟨Int.natCast_nonneg m, h m rfl⟩
    exact if_pos hm

end Codec

/-! ### Values with fields left out -/

namespace Profile

/-- The profile with some options at their defaults. -/
def without (gone : Omission) (p : Profile) : Profile :=
  let default : Profile := {}
  { marked := gone.orDefault "marked" default.marked p.marked
    waitMarked := gone.orDefault "wait_marked" default.waitMarked p.waitMarked
    endMarked := gone.orDefault "end_marked" default.endMarked p.endMarked
    musicOnHold := gone.orDefault "music_on_hold" default.musicOnHold p.musicOnHold
    quiet := gone.orDefault "quiet" default.quiet p.quiet }

theorem ofJson?_without (gone : Omission) (p : Profile) : ofJson? (p.toJson.without gone) = some (p.without gone) := by
  rw [ofJson?, toJson, Json.without, given?_without]
  simp [fieldNames, List.lookup_cons, optional_ite, Json.without, bool?, ← apply_ite some, without, Omission.orDefault]

end Profile

theorem Profile.without_nothing (p : Profile) : p.without .nothing = p := rfl

namespace Participant

/-- The participant with some options at their defaults. -/
def without (gone : Omission) (p : Participant) : Participant :=
  { p with profile := p.profile.without (gone.within "profile") }

theorem ofJson?_without (gone : Omission) (p : Participant) : ofJson? (p.toJson.without gone) =
    if gone ["id"] || gone ["profile"] then none else some (p.without gone) := by
  rw [ofJson?, toJson, Json.without, given?_without]
  cases hi : gone ["id"] <;> cases hp : gone ["profile"] <;>
    simp [fieldNames, List.lookup_cons, required, hi, hp, string?, Json.without, Profile.ofJson?_without, without]

end Participant

namespace ConferenceSettings

/-- The limit is one that can be written. -/
def Bounded (s : ConferenceSettings) : Prop := ∀ n, s.maxMembers = some n → n < limitBound

/-- The settings with some of them at their defaults. -/
def without (gone : Omission) (s : ConferenceSettings) : ConferenceSettings :=
  let default : ConferenceSettings := {}
  { maxMembers := gone.orDefault "max_members" default.maxMembers s.maxMembers
    policy := gone.orDefault "demotion_policy" default.policy s.policy }

theorem ofJson?_without {s : ConferenceSettings} (h : s.Bounded) (gone : Omission) :
    ofJson? (s.toJson.without gone) = some (s.without gone) := by
  have hlimit := limit?_without h (gone.within "max_members")
  have hpolicy : Policy.ofJson? (s.policy.toJson.without (gone.within "demotion_policy")) = some s.policy :=
    Policy.ofLabel?_label s.policy
  rw [ofJson?, toJson, Json.without, given?_without]
  simp [fieldNames, List.lookup_cons, optional_ite, hlimit, hpolicy, ← apply_ite some, without, Omission.orDefault]

end ConferenceSettings

namespace Profiles

theorem entries_insert_of_new {ps : Profiles} {name : String} {p : Profile} (h : name ∉ ps.entries.map (·.1)) :
    (ps.insert name p).entries = ps.entries ++ [(name, p)] := by
  have hsame : ps.entries.filter (·.1 != name) = ps.entries :=
    List.filter_eq_self.mpr fun e he => bne_iff_ne.mpr fun heq => h (heq ▸ List.mem_map_of_mem he)
  exact congrArg (· ++ [(name, p)]) hsame

theorem entries_foldl_insert {rest : List (String × Profile)} {ps : Profiles}
    (h : ((ps.entries ++ rest).map (·.1)).Nodup) :
    (rest.foldl (fun ps e => ps.insert e.1 e.2) ps).entries = ps.entries ++ rest := by
  induction rest generalizing ps with
  | nil => exact (List.append_nil _).symm
  | cons e rest ih =>
    have new : e.1 ∉ ps.entries.map (·.1) := by
      rw [List.map_append, List.nodup_append] at h
      exact fun hm => h.2.2 _ hm _ List.mem_cons_self rfl
    have hinsert := entries_insert_of_new (p := e.2) new
    rw [List.foldl_cons, ih (by rw [hinsert]; simpa using h), hinsert, List.append_assoc]
    rfl

theorem eq_of_entries {ps qs : Profiles} (h : ps.entries = qs.entries) : ps = qs := by
  cases ps
  cases qs
  cases h
  rfl

/-- The profiles are read back from the list of them, in which no name occurs twice. -/
theorem ofList_entries (ps : Profiles) : ofList ps.entries = ps := eq_of_entries (entries_foldl_insert ps.nodup)

/-- The profiles whose names are not left out, each with some options at their defaults. -/
def without (gone : Omission) (ps : Profiles) : Profiles where
  entries := (ps.entries.filter fun e => !gone [e.1]).map fun e => (e.1, e.2.without (gone.within e.1))
  nodup := by
    rw [List.map_map]
    exact ps.nodup.sublist (List.filter_sublist.map _)

theorem entries?_map {α : Type} (name : α → String) (json : α → Json) (profile : α → Profile)
    (h : ∀ a, Profile.ofJson? (json a) = some (profile a)) (l : List α) :
    entries? (l.map fun a => (name a, json a)) = some (l.map fun a => (name a, profile a)) := by
  induction l with
  | nil => rfl
  | cons a l ih => simp [entries?, h, ih]

theorem without_nothing (ps : Profiles) : ps.without .nothing = ps :=
  eq_of_entries (by simp [without, Profile.without_nothing, Omission.nothing])

theorem ofJson?_without (gone : Omission) (ps : Profiles) :
    ofJson? (ps.toJson.without gone) = some (ps.without gone) := by
  rw [toJson, Json.without, Json.fieldsWithout_eq, List.filter_map, List.map_map, ofJson?]
  have hentries := entries?_map (fun e : String × Profile => e.1) (fun e => e.2.toJson.without (gone.within e.1))
    (fun e => e.2.without (gone.within e.1)) (fun e => Profile.ofJson?_without _ e.2)
    (ps.entries.filter fun e => !gone [e.1])
  exact (congrArg (Option.map ofList) hentries).trans (congrArg some (ofList_entries (ps.without gone)))

end Profiles

namespace DirectorySettings

/-- The limits are ones that can be written. -/
def Bounded (s : DirectorySettings) : Prop := (∀ n, s.maxConferences = some n → n < limitBound) ∧ s.conference.Bounded

/-- The settings with some of them at their defaults. -/
def without (gone : Omission) (s : DirectorySettings) : DirectorySettings :=
  let default : DirectorySettings := {}
  { maxConferences := gone.orDefault "max_conferences" default.maxConferences s.maxConferences
    conference := gone.orDefault "conference" default.conference (s.conference.without (gone.within "conference"))
    profiles := gone.orDefault "profiles" default.profiles (s.profiles.without (gone.within "profiles")) }

theorem ofJson?_without {s : DirectorySettings} (h : s.Bounded) (gone : Omission) :
    ofJson? (s.toJson.without gone) = some (s.without gone) := by
  have hlimit := limit?_without h.1 (gone.within "max_conferences")
  have hconference := ConferenceSettings.ofJson?_without h.2 (gone.within "conference")
  have hprofiles := Profiles.ofJson?_without (gone.within "profiles") s.profiles
  rw [ofJson?, toJson, Json.without, given?_without]
  simp [fieldNames, List.lookup_cons, optional_ite, hlimit, hconference, hprofiles, ← apply_ite some, without,
    Omission.orDefault]

theorem without_nothing (s : DirectorySettings) : s.without .nothing = s := by
  cases s
  simp [without, Profiles.without_nothing, ConferenceSettings.without]

end DirectorySettings

namespace Notification

theorem ofTag?_tag (k : Kind) : Kind.ofTag? k.tag = some k := by cases k <;> decide

/-- What a notification says besides its kind: the name of each field with its text. -/
def contents (n : Notification) : List (String × String) := n.kind.fieldNames.zip n.fieldTexts

theorem given?_fieldsWithout (gone : Omission) (n : Notification) :
    given? n.kind.fieldNames (.obj (Json.fieldsWithout gone (n.entries.map fun e => (e.1, .str e.2)))) =
      some (n.contents.map fun e => if gone [e.1] then none else some (.str e.2)) := by
  rw [given?_without]
  cases n <;> simp [entries, contents, kind, Kind.fieldNames, fieldTexts, List.lookup_cons, Json.without]

theorem labelled?_str {α : Type} (ofLabel? : String → Option α) (text : String) :
    labelled? ofLabel? (.str text) = ofLabel? text := rfl

theorem string?_str (text : String) : string? (.str text) = some text := rfl

theorem bind_ite_none {α β : Type} (b : Bool) (a : α) (f : α → Option β) :
    (if b then none else some a).bind f = if b then none else f a := by
  cases b <;> rfl

theorem map_ite_none {α β : Type} (b : Bool) (a : α) (f : α → β) :
    (if b then none else some a).map f = if b then none else some (f a) := by
  cases b <;> rfl

/-- Every field has to be given. -/
theorem ofGiven?_contents (gone : Omission) (n : Notification) :
    ofGiven? n.kind (n.contents.map fun e => if gone [e.1] then none else some (.str e.2)) =
      if n.contents.any (fun e => gone [e.1]) then none else some n := by
  cases n <;>
    simp [contents, kind, Kind.fieldNames, fieldTexts, ofGiven?, required_ite, string?_str, labelled?_str,
      State.ofLabel?_label, Event.ofLabel?_label, Membership.ofLabel?_label, bind_ite_none, map_ite_none, ite_or]

theorem ofJson?_without (gone : Omission) (n : Notification) : ofJson? (n.toJson.without gone) =
    if n.entries.any (fun e => gone [e.1]) then none else some n := by
  have htype : (Json.fieldsWithout gone (n.entries.map fun e => (e.1, .str e.2))).lookup "type" =
      if gone ["type"] then none else some (.str n.kind.tag) := by
    rw [Json.lookup_fieldsWithout]
    rfl
  have hany : n.entries.any (fun e => gone [e.1]) = (gone ["type"] || n.contents.any fun e => gone [e.1]) := rfl
  rw [ofJson?, toJson, Json.without, tagged?, htype, hany]
  cases gone ["type"] with
  | true => rfl
  | false =>
    have hgiven := given?_fieldsWithout gone n
    have hread := ofGiven?_contents gone n
    rw [Bool.false_or, ← hread]
    simp [ofTag?_tag, string?_str, hgiven]

end Notification

/-! ### Texts -/

section Plain
open Json (Plain)

theorem plain_limit (n : Option Nat) : Plain (limit n) := by
  cases n with
  | none => exact .null
  | some n => exact .int n

theorem Profile.plain_toJson (p : Profile) : Plain p.toJson :=
  .obj (by simp) (by simp [Plain.bool])

theorem Participant.plain_toJson (p : Participant) : Plain p.toJson :=
  .obj (by simp) (by simp [Plain.str, p.profile.plain_toJson])

theorem ConferenceSettings.plain_toJson (s : ConferenceSettings) : Plain s.toJson :=
  .obj (by simp) (by simp [plain_limit, Policy.toJson, Plain.str])

theorem Profiles.plain_toJson (ps : Profiles) : Plain ps.toJson := by
  refine .obj ?_ fun f hf => ?_
  · rw [List.map_map]
    exact ps.nodup
  · obtain ⟨e, -, rfl⟩ := List.mem_map.mp hf
    exact e.2.plain_toJson

theorem DirectorySettings.plain_toJson (s : DirectorySettings) : Plain s.toJson :=
  .obj (by simp) (by simp [plain_limit, s.conference.plain_toJson, s.profiles.plain_toJson])

theorem Notification.plain_toJson (n : Notification) : Plain n.toJson := by
  refine .obj ?_ fun f hf => ?_
  · cases n <;> simp [entries, kind, Kind.fieldNames, fieldTexts]
  · obtain ⟨e, -, rfl⟩ := List.mem_map.mp hf
    exact .str e.2

end Plain

namespace Codec

/-- What is written is read back as it was: notifications, participants, profiles and settings, whatever strings they
    have and with any limits that can be written. If fields are left out of what is written, at any depth, profiles
    and settings are read with just those fields at their defaults; a notification from which a field or its kind is
    left out is not read, and neither is a participant without its identifier or its profile. -/
theorem decoded_as_encoded :
    (∀ n : Notification, decode? Notification.ofJson? n.toJson.text = some n) ∧
    (∀ p : Participant, decode? Participant.ofJson? p.toJson.text = some p) ∧
    (∀ p : Profile, decode? Profile.ofJson? p.toJson.text = some p) ∧
    (∀ s : ConferenceSettings, s.Bounded → decode? ConferenceSettings.ofJson? s.toJson.text = some s) ∧
    (∀ s : DirectorySettings, s.Bounded → decode? DirectorySettings.ofJson? s.toJson.text = some s) ∧
    ∀ gone : Omission,
      (∀ p : Profile, decode? Profile.ofJson? (p.toJson.without gone).text = some (p.without gone)) ∧
      (∀ s : ConferenceSettings, s.Bounded →
        decode? ConferenceSettings.ofJson? (s.toJson.without gone).text = some (s.without gone)) ∧
      (∀ s : DirectorySettings, s.Bounded →
        decode? DirectorySettings.ofJson? (s.toJson.without gone).text = some (s.without gone)) ∧
      (∀ n : Notification, (∃ e ∈ n.entries, gone [e.1] = true) →
        decode? Notification.ofJson? (n.toJson.without gone).text = none) ∧
      (∀ p : Participant, gone ["id"] = true ∨ gone ["profile"] = true →
        decode? Participant.ofJson? (p.toJson.without gone).text = none) := by
  refine ⟨fun n => ?_, fun p => ?_, fun p => ?_, fun s hs => ?_, fun s hs => ?_, fun gone =>
    ⟨fun p => ?_, fun s hs => ?_, fun s hs => ?_, fun n hn => ?_, fun p hp => ?_⟩⟩
  · have hall : n.entries.any (fun e => Omission.nothing [e.1]) = false := by simp [Omission.nothing]
    exact decode?_text_of_nothing n.plain_toJson (by rw [n.ofJson?_without, hall]; rfl)
  · exact decode?_text_of_nothing p.plain_toJson (p.ofJson?_without .nothing)
  · exact decode?_text_of_nothing p.plain_toJson (p.ofJson?_without .nothing)
  · exact decode?_text_of_nothing s.plain_toJson (ConferenceSettings.ofJson?_without hs .nothing)
  · refine decode?_text_of_nothing s.plain_toJson ?_
    rw [DirectorySettings.ofJson?_without hs, s.without_nothing]
  · rw [decode?_text (p.plain_toJson.without gone), p.ofJson?_without]
  · rw [decode?_text (s.plain_toJson.without gone), ConferenceSettings.ofJson?_without hs]
  · rw [decode?_text (s.plain_toJson.without gone), DirectorySettings.ofJson?_without hs]
  · rw [decode?_text (n.plain_toJson.without gone), n.ofJson?_without, if_pos (List.any_eq_true.mpr hn)]
  · rw [decode?_text (p.plain_toJson.without gone), p.ofJson?_without, if_pos (by simpa using hp)]

/-- Settings of which little is said. -/
example : decode? DirectorySettings.ofJson? "\x7b\"conference\":\x7b\"max_members\":3\x7d\x7d" =
    some { conference := { maxMembers := some 3 } } := by
  decide +kernel

end Codec
end ConferenceBridge
