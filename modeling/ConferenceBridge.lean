import ConferenceBridge.Action
import ConferenceBridge.Channel
import ConferenceBridge.Codec
import ConferenceBridge.Conference
import ConferenceBridge.Describe
import ConferenceBridge.Directory
import ConferenceBridge.Error
import ConferenceBridge.Event
import ConferenceBridge.Host
import ConferenceBridge.Identifier
import ConferenceBridge.Json.Basic
import ConferenceBridge.Json.Printer
import ConferenceBridge.Json.Reader
import ConferenceBridge.Listener
import ConferenceBridge.Log
import ConferenceBridge.Media
import ConferenceBridge.Participant
import ConferenceBridge.Roster
import ConferenceBridge.Settings.Basic
import ConferenceBridge.Settings.OfYaml
import ConferenceBridge.State
import ConferenceBridge.Table.Basic
import ConferenceBridge.Table.Edit
import ConferenceBridge.Table.Sheet
import ConferenceBridge.Table.Standard
import ConferenceBridge.Text.Numeral
import ConferenceBridge.Text.Quoted
import ConferenceBridge.Text.Unprintable
import ConferenceBridge.Transition
import ConferenceBridge.Yaml.Character
import ConferenceBridge.Yaml.Document
import ConferenceBridge.Yaml.Node
import ConferenceBridge.Yaml.Style
import ConferenceBridge.Yaml.Tag
import ConferenceBridge.Yaml.Token.Basic
import ConferenceBridge.Yaml.Token.OfText
import ConferenceBridge.Yaml.Token.Scalar
import ConferenceBridge.Yaml.Word
import ConferenceBridge.Yaml.Writer
import ConferenceBridge.Proofs.Roster.Departure
import ConferenceBridge.Proofs.Roster.Sound
import ConferenceBridge.Proofs.Roster.Settled
import ConferenceBridge.Proofs.Roster.Several
import ConferenceBridge.Proofs.Roster.Usage
import ConferenceBridge.Proofs.Roster.Treatment
import ConferenceBridge.Proofs.Roster.Parting
import ConferenceBridge.Proofs.Room
import ConferenceBridge.Proofs.Work
import ConferenceBridge.Proofs.Session
import ConferenceBridge.Proofs.Counts
import ConferenceBridge.Proofs.Placement
import ConferenceBridge.Proofs.MediaView
import ConferenceBridge.Proofs.Acceptance
import ConferenceBridge.Proofs.Refusal
import ConferenceBridge.Proofs.Dismissal
import ConferenceBridge.Proofs.ListenerView
import ConferenceBridge.Proofs.Attachment
import ConferenceBridge.Proofs.Retention
import ConferenceBridge.Proofs.Hooks
import ConferenceBridge.Proofs.Sheet
import ConferenceBridge.Proofs.Reordering
import ConferenceBridge.Proofs.JoinOrder
import ConferenceBridge.Proofs.Surroundings
import ConferenceBridge.Proofs.Waits
import ConferenceBridge.Proofs.Kicks
import ConferenceBridge.Proofs.Undoing
import ConferenceBridge.Proofs.Mixing
import ConferenceBridge.Proofs.Prompts
import ConferenceBridge.Proofs.Company
import ConferenceBridge.Proofs.AttachedRole
import ConferenceBridge.Proofs.Readers
import ConferenceBridge.Proofs.Broadcast
import ConferenceBridge.Proofs.Json.RoundTrip
import ConferenceBridge.Proofs.Encoding
import ConferenceBridge.Proofs.Directory.Sound
import ConferenceBridge.Proofs.Directory.Exchange
import ConferenceBridge.Proofs.Directory.InUse
import ConferenceBridge.Proofs.Directory.Slots
import ConferenceBridge.Proofs.Directory.FailedJoin
import ConferenceBridge.Proofs.Directory.Visits
import ConferenceBridge.Proofs.Directory.Isolation
