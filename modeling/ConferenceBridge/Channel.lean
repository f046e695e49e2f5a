import ConferenceBridge.Action

/-! A channel that hands every notification to every reader, each at its own pace. How it keeps them is its own
    affair: a bridge needs nothing but what can be done with one, and that it hands over in the order of sending. -/

namespace ConferenceBridge

/-- What a reader gets when it asks for the next notification. -/
inductive Channel.Receipt where
  | notification (n : Notification)
  /-- So many notifications were lost to it. -/
  | lagged (count : Nat)
  /-- There is nothing more for now. -/
  | empty
  /-- There is nothing more, and nothing more will come. -/
  | closed
  deriving DecidableEq

/-- What can be done with a channel, in terms of the channel `κ` and of what each reader keeps `ρ`. -/
structure Channel (κ ρ : Type) where
  /-- A channel that holds so many notifications. It cannot be asked to hold none. -/
  create : Nat → κ
  /-- Whether anybody is there to hear it is of no interest to the sender. -/
  send : Notification → κ → κ
  /-- A new reader. -/
  subscribe : κ → ρ
  /-- What a reader gets next, and what it keeps after that. The others do not notice. -/
  receive : κ → ρ → Channel.Receipt × ρ

namespace Channel
variable {κ ρ : Type}

/-- A channel of the capacity wished for, or the smallest there is. -/
def ofCapacity (ch : Channel κ ρ) (capacity : Nat) : κ := ch.create (max capacity 1)

/-- The reader has got all there is for now. -/
def Receipt.NothingMore (receipt : Receipt) : Prop := receipt = .empty ∨ receipt = .closed

/-- What is known of a channel: a reader gets all that is sent after it has subscribed, in the order of sending,
    unless it is told of a loss. `awaits k place left` says that `left` is still to come for the reader. -/
structure InSendOrder (ch : Channel κ ρ) (awaits : κ → ρ → List Notification → Prop) : Prop where
  subscribe (k : κ) : awaits k (ch.subscribe k) []
  send {k : κ} {place : ρ} {left : List Notification} (n : Notification) :
    awaits k place left → awaits (ch.send n k) place (left ++ [n])
  notification {k : κ} {place next : ρ} {left : List Notification} {n : Notification} :
    awaits k place left → ch.receive k place = (.notification n, next) →
      ∃ rest, left = n :: rest ∧ awaits k next rest
  nothingMore {k : κ} {place next : ρ} {left : List Notification} {receipt : Receipt} :
    awaits k place left → ch.receive k place = (receipt, next) → receipt.NothingMore → left = [] ∧ awaits k next []

end Channel
end ConferenceBridge
