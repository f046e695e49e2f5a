import ConferenceBridge.Error

/-! The settings of a conference and of a directory of conferences. A limit that is absent does not
    bind, and a limit of zero is refused. -/

namespace ConferenceBridge

/-- What happens to live participants when the last marked one leaves. -/
inductive Policy where
  /-- Live wait-marked participants are parked again. -/
  | demoteWaitMarked
  /-- Everyone stays live; only later arrivals are gated. -/
  | keepActive
  deriving DecidableEq, Inhabited

namespace Policy

/-- Every policy. -/
def all : List Policy := [.demoteWaitMarked, .keepActive]

/-- The word that stands for the policy in settings. -/
def label : Policy → String
  | .demoteWaitMarked => "demote_wait_marked"
  | .keepActive => "keep_active"

/-- The policy with this label, if there is one. -/
def ofLabel? (text : String) : Option Policy := all.find? (·.label == text)

theorem ofLabel?_label (p : Policy) : ofLabel? p.label = some p := by cases p <;> decide

end Policy

/-- The settings of one conference. -/
structure ConferenceSettings where
  /-- The most participants that may be attached, live and waiting together. -/
  maxMembers : Option Nat := none
  policy : Policy := .demoteWaitMarked
  deriving DecidableEq, Inhabited

/-- A conference needs room for somebody. -/
def ConferenceSettings.validate (s : ConferenceSettings) : Except BridgeError Unit :=
  if s.maxMembers = some 0 then .error (.badSettings "max_members must be greater than 0") else .ok ()

/-- Profiles by name. A name occurs once. -/
structure Profiles where
  entries : List (String × Profile) := []
  nodup : (entries.map (·.1)).Nodup := by exact List.nodup_nil

namespace Profiles

instance : Inhabited Profiles := ⟨{}⟩

instance : DecidableEq Profiles := fun a b =>
  if h : a.entries = b.entries then isTrue (by cases a; cases b; cases h; rfl)
  else isFalse fun he => h (he ▸ rfl)

/-- The profile of that name. -/
def get? (ps : Profiles) (name : String) : Option Profile := ps.entries.lookup name

theorem nodup_insert {entries : List (String × Profile)} (name : String) (profile : Profile)
    (h : (entries.map (·.1)).Nodup) :
    (((entries.filter (·.1 != name)) ++ [(name, profile)]).map (·.1)).Nodup := by
  have kept : ((entries.filter (·.1 != name)).map (·.1)).Nodup :=
    h.sublist (List.filter_sublist.map _)
  simp [List.nodup_append, kept]

/-- Gives the name this profile, whatever it had before. -/
def insert (ps : Profiles) (name : String) (profile : Profile) : Profiles where
  entries := (ps.entries.filter (·.1 != name)) ++ [(name, profile)]
  nodup := nodup_insert name profile ps.nodup

/-- The profiles of a list of pairs; of two with one name the later counts. -/
def ofList (entries : List (String × Profile)) : Profiles :=
  entries.foldl (fun ps e => ps.insert e.1 e.2) {}

end Profiles

/-- The settings of a directory of conferences. -/
structure DirectorySettings where
  /-- The most conferences that may exist at once. -/
  maxConferences : Option Nat := none
  /-- What every conference of the directory is created with. -/
  conference : ConferenceSettings := {}
  profiles : Profiles := {}
  deriving DecidableEq, Inhabited

namespace DirectorySettings

/-- A directory needs room for a conference, and its conferences for somebody. -/
def validate (s : DirectorySettings) : Except BridgeError Unit :=
  if s.maxConferences = some 0 then .error (.badSettings "max_conferences must be greater than 0")
  else s.conference.validate

/-- The profile of that name. -/
def profile? (s : DirectorySettings) (name : String) : Option Profile := s.profiles.get? name

end DirectorySettings
end ConferenceBridge
