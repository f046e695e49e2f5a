import ConferenceBridge.Channel

/-! Readers of a channel that hands over in the order of sending. What a reader has heard and what is still to
    come for it always make up what was sent, unless it was told of a loss. So it has heard some first part, and
    all of it once it has asked often enough. -/

namespace ConferenceBridge

namespace Channel

/-- The notification that a receipt brings. -/
def Receipt.notice? : Receipt → Option Notification
  | .notification n => some n
  | .lagged _ | .empty | .closed => none

variable {κ ρ : Type}

/-- The channel after some more was sent. -/
def sendAll (ch : Channel κ ρ) (told : List Notification) (k : κ) : κ := told.foldl (fun k n => ch.send n k) k

/-- A reader: what it keeps for the channel, and all that it has got, in order. -/
structure Reader (ρ : Type) where
  place : ρ
  got : List Receipt := []

/-- What happens at a channel that has one reader. -/
inductive Use where
  | send (n : Notification)
  /-- The reader asks for the next notification. -/
  | receive

def Use.sent? : Use → Option Notification
  | .send n => some n
  | .receive => none

/-- The notifications that are sent, in order. -/
def sent (uses : List Use) : List Notification := uses.filterMap Use.sent?

/-- The notifications that a reader gets, in order. -/
def heard (got : List Receipt) : List Notification := got.filterMap Receipt.notice?

/-- Nothing was lost. -/
def Unlagged (got : List Receipt) : Prop := ∀ count, .lagged count ∉ got

/-- A channel and its reader after one more use. -/
def use (ch : Channel κ ρ) (v : κ × Reader ρ) : Use → κ × Reader ρ
  | .send n => (ch.send n v.1, v.2)
  | .receive =>
    let (receipt, place) := ch.receive v.1 v.2.place
    (v.1, { place, got := v.2.got ++ [receipt] })

/-- A channel and its reader after some uses. -/
def useAll (ch : Channel κ ρ) (v : κ × Reader ρ) (uses : List Use) : κ × Reader ρ := uses.foldl ch.use v

/-- A channel and its reader, which subscribes before some uses. -/
def read (ch : Channel κ ρ) (k : κ) (uses : List Use) : κ × Reader ρ :=
  ch.useAll (k, { place := ch.subscribe k }) uses

/-- All that a reader gets which subscribes before some uses. -/
def got (ch : Channel κ ρ) (k : κ) (uses : List Use) : List Receipt := (ch.read k uses).2.got

variable {ch : Channel κ ρ} {k : κ} {v : κ × Reader ρ} {told more : List Notification} {got later : List Receipt}

theorem sendAll_append : ch.sendAll (told ++ more) k = ch.sendAll more (ch.sendAll told k) := List.foldl_append

theorem got_append (ch : Channel κ ρ) (k : κ) (uses more : List Use) :
    ch.got k (uses ++ more) = (ch.useAll (ch.read k uses) more).2.got := by
  rw [got, read, useAll, List.foldl_append]
  rfl

theorem heard_append : heard (got ++ later) = heard got ++ heard later := List.filterMap_append

/-- Asking leaves a channel as it is. -/
theorem useAll_fst (ch : Channel κ ρ) (v : κ × Reader ρ) (uses : List Use) :
    (ch.useAll v uses).1 = ch.sendAll (sent uses) v.1 := by
  induction uses generalizing v with
  | nil => rfl
  | cons u uses ih =>
    cases u with
    | send n => exact ih (ch.use v (.send n))
    | receive => exact ih (ch.use v .receive)

theorem got_prefix_useAll (ch : Channel κ ρ) (v : κ × Reader ρ) (uses : List Use) :
    v.2.got <+: (ch.useAll v uses).2.got := by
  induction uses generalizing v with
  | nil => exact List.prefix_refl _
  | cons u uses ih =>
    have hfirst : v.2.got <+: (ch.use v u).2.got := by
      cases u with
      | send n => exact List.prefix_refl _
      | receive => exact List.prefix_append ..
    exact hfirst.trans (ih (ch.use v u))

theorem Unlagged.of_prefix (h : Unlagged later) (hp : got <+: later) : Unlagged got :=
  fun count hc => h count (hp.subset hc)

section InSendOrder
variable {awaits : κ → ρ → List Notification → Prop}

/-- Unless it was told of a loss, what a reader has heard and what is still to come for it make up what was told. -/
def Serves (awaits : κ → ρ → List Notification → Prop) (v : κ × Reader ρ) (told : List Notification) : Prop :=
  Unlagged v.2.got → ∃ left, awaits v.1 v.2.place left ∧ heard v.2.got ++ left = told

theorem InSendOrder.serves_subscribe (order : ch.InSendOrder awaits) (k : κ) :
    Serves awaits (k, { place := ch.subscribe k }) [] :=
  fun _ => ⟨[], order.subscribe k, rfl⟩

namespace Serves

theorem send (order : ch.InSendOrder awaits) (h : Serves awaits v told) (n : Notification) :
    Serves awaits (ch.use v (.send n)) (told ++ [n]) := by
  intro hu
  obtain ⟨left, hleft, rfl⟩ := h hu
  exact ⟨left ++ [n], order.send n hleft, (List.append_assoc ..).symm⟩

/-- Asking brings the next notification, or there is none. -/
theorem receive_cases (order : ch.InSendOrder awaits) (h : Serves awaits v told)
    (hu : Unlagged (ch.use v .receive).2.got) :
    (∃ n left, heard (ch.use v .receive).2.got = heard v.2.got ++ [n] ∧
      awaits v.1 (ch.use v .receive).2.place left ∧ heard v.2.got ++ n :: left = told) ∨
    (heard (ch.use v .receive).2.got = heard v.2.got ∧ awaits v.1 (ch.use v .receive).2.place [] ∧
      heard v.2.got = told) := by
  obtain ⟨left, hleft, rfl⟩ := h (hu.of_prefix (List.prefix_append ..))
  rcases hr : ch.receive v.1 v.2.place with ⟨receipt, next⟩
  simp only [use, hr, heard_append] at hu ⊢
  cases receipt with
  | notification n =>
    obtain ⟨rest, rfl, hrest⟩ := order.notification hleft hr
    exact Or.inl ⟨n, rest, rfl, hrest, rfl⟩
  | lagged count => exact absurd (List.mem_append_right _ (List.mem_singleton_self _)) (hu count)
  | empty | closed =>
    obtain ⟨rfl, hnext⟩ := order.nothingMore hleft hr (by simp [Receipt.NothingMore])
    exact Or.inr ⟨List.append_nil _, hnext, (List.append_nil _).symm⟩

theorem receive (order : ch.InSendOrder awaits) (h : Serves awaits v told) :
    Serves awaits (ch.use v .receive) told := by
  intro hu
  obtain ⟨n, left, hheard, hleft, htold⟩ | ⟨hheard, hleft, htold⟩ := h.receive_cases order hu
  · exact ⟨left, hleft, by rw [hheard, List.append_assoc, List.singleton_append, htold]⟩
  · exact ⟨[], hleft, by rw [hheard, List.append_nil, htold]⟩

theorem useAll (order : ch.InSendOrder awaits) (h : Serves awaits v told) (uses : List Use) :
    Serves awaits (ch.useAll v uses) (told ++ sent uses) := by
  induction uses generalizing v told with
  | nil => rwa [sent, List.filterMap_nil, List.append_nil]
  | cons u uses ih =>
    cases u with
    | send n =>
      have hrest := ih (h.send order n)
      rwa [List.append_assoc] at hrest
    | receive => exact ih (h.receive order)

theorem heard_prefix (h : Serves awaits v told) (hu : Unlagged v.2.got) : heard v.2.got <+: told := by
  obtain ⟨left, -, htold⟩ := h hu
  exact ⟨left, htold⟩

/-- A reader that is answered that there is nothing more has heard all that was told. -/
theorem heard_of_nothingMore (order : ch.InSendOrder awaits) (h : Serves awaits v told) (hu : Unlagged v.2.got)
    (hf : (ch.receive v.1 v.2.place).1.NothingMore) : heard v.2.got = told := by
  obtain ⟨left, hleft, rfl⟩ := h hu
  obtain ⟨rfl, -⟩ := order.nothingMore hleft rfl hf
  exact (List.append_nil _).symm

/-- A reader that asks as often as there is something to hear hears it all. -/
theorem heard_of_asked (order : ch.InSendOrder awaits) {asks : Nat} (h : Serves awaits v told)
    (enough : told.length ≤ (heard v.2.got).length + asks)
    (hu : Unlagged (ch.useAll v (List.replicate asks .receive)).2.got) :
    heard (ch.useAll v (List.replicate asks .receive)).2.got = told := by
  induction asks generalizing v with
  | zero => exact (h.heard_prefix hu).eq_of_length_le enough
  | succ asks ih =>
    -- Either one more is heard by asking, or all was heard before.
    have hnow : Unlagged (ch.use v .receive).2.got := hu.of_prefix (got_prefix_useAll ..)
    refine ih (h.receive order) ?_ hu
    obtain ⟨n, left, hheard, -, -⟩ | ⟨hheard, -, htold⟩ := h.receive_cases order hnow
    · rw [hheard, List.length_append, List.length_singleton]
      omega
    · rw [hheard, htold]
      exact Nat.le_add_right ..

end Serves
end InSendOrder
end Channel

/-! ### A channel that keeps the latest -/

/-- What a channel has that keeps the latest notifications: all that were sent, the oldest first, and how many of
    them are kept. -/
structure Kept where
  most : Nat
  told : List Notification := []

namespace Kept

/-- How many notifications are lost to those that have not got them yet. -/
def lost (k : Kept) : Nat := k.told.length - k.most

/-- A reader's place is the number of notifications behind it. One that falls behind is told how many it has lost
    and goes on with the oldest one kept. -/
def channel : Channel Kept Nat where
  create most := { most }
  send n k := { k with told := k.told ++ [n] }
  subscribe k := k.told.length
  receive k place :=
    if place < k.lost then (.lagged (k.lost - place), k.lost)
    else
      match k.told[place]? with
      | some n => (.notification n, place + 1)
      | none => (.empty, place)

theorem channel_receive_cases (k : Kept) (place : Nat) :
    (∃ count, channel.receive k place = (.lagged count, k.lost)) ∨
    (∃ hlt : place < k.told.length, channel.receive k place = (.notification k.told[place], place + 1)) ∨
    (k.told.length ≤ place ∧ channel.receive k place = (.empty, place)) := by
  simp only [channel]
  split
  · exact Or.inl ⟨_, rfl⟩
  · split
    · rename_i n hn
      obtain ⟨hlt, rfl⟩ := List.getElem?_eq_some_iff.mp hn
      exact Or.inr (Or.inl ⟨hlt, rfl⟩)
    · rename_i hn
      exact Or.inr (Or.inr ⟨List.getElem?_eq_none_iff.mp hn, rfl⟩)

theorem channel_inSendOrder :
    channel.InSendOrder fun k place left => place ≤ k.told.length ∧ k.told.drop place = left where
  subscribe k := ⟨Nat.le_refl _, List.drop_length⟩
  send := by
    rintro k place left n ⟨hplace, rfl⟩
    exact ⟨by simpa [channel] using Nat.le_succ_of_le hplace, List.drop_append_of_le_length hplace⟩
  notification := by
    rintro k place next left n ⟨-, rfl⟩ hr
    obtain ⟨count, hgot⟩ | ⟨hlt, hgot⟩ | ⟨-, hgot⟩ := k.channel_receive_cases place <;> rw [hgot] at hr <;> cases hr
    exact ⟨_, List.drop_eq_getElem_cons hlt, hlt, rfl⟩
  nothingMore := by
    rintro k place next left receipt ⟨hplace, rfl⟩ hr hnothing
    obtain ⟨count, hgot⟩ | ⟨hlt, hgot⟩ | ⟨hle, hgot⟩ := k.channel_receive_cases place <;> rw [hgot] at hr <;> cases hr
    · simp [Channel.Receipt.NothingMore] at hnothing
    · simp [Channel.Receipt.NothingMore] at hnothing
    · exact ⟨List.drop_eq_nil_of_le hle, hplace, List.drop_eq_nil_of_le hle⟩

end Kept

end ConferenceBridge
