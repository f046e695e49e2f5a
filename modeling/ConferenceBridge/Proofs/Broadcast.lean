import ConferenceBridge.Proofs.ListenerView
import ConferenceBridge.Proofs.Readers
import ConferenceBridge.Proofs.Surroundings

/-! A conference whose listener sends all it hears to a channel. Each notification is taken apart to call the
    listener and put together again to be sent, and comes out as it went in. So on a channel that hands over in
    the order of sending, whoever subscribes before the first event, and asks often enough to lose nothing, hears
    all that is told of the events and nothing else, whatever becomes of the other work. -/

namespace ConferenceBridge

/-! ### Hosts -/

/-- Taking a notification apart for a listener and putting it together again comes to nothing. -/
@[simp] theorem Listener.notify_publishing {σ : Type} (publish : Notification → σ → σ) (n : Notification) :
    (Listener.publishing publish).notify n = publish n := by
  cases n <;> rfl

/-- The call made beside a channel. It may look at the channel but sends nothing. -/
def Call.beside {σ κ : Type} (call : κ → Call σ) : Call (σ × κ) := fun w =>
  let (result, v) := call w.2 w.1
  (result, v, w.2)

namespace Host
variable {σ κ ρ : Type}

/-- A host whose listener sends what it hears to a channel. Its media side and its log are what they like. -/
def onChannel (ch : Channel κ ρ) (media : κ → Media σ) (log : Log.Line → σ → σ) : Host (σ × κ) where
  media :=
    { wait := fun c p => .beside fun k => (media k).wait c p
      mix := fun c p => .beside fun k => (media k).mix c p
      endSolo := fun c p => .beside fun k => (media k).endSolo c p
      releaseAll := fun c ps => .beside fun k => (media k).releaseAll c ps
      kick := fun c p => .beside fun k => (media k).kick c p
      playPrompt := fun c id prompt => .beside fun k => (media k).playPrompt c id prompt
      announce := fun c prompt => .beside fun k => (media k).announce c prompt }
  listener := .publishing fun n w => (w.1, ch.send n w.2)
  log line w := (log line w.1, w.2)

variable {ch : Channel κ ρ} {media : κ → Media σ} {log : Log.Line → σ → σ} {conference : String}

theorem notify_onChannel (n : Notification) (w : σ × κ) :
    (onChannel ch media log).listener.notify n w = (w.1, ch.send n w.2) := by
  rw [onChannel, Listener.notify_publishing]

theorem call_onChannel (action : Action) (w : σ × κ) :
    ((onChannel ch media log).call conference action w).2.2 = ch.sendAll (notices [action]) w.2 := by
  cases action with
  | publish n => exact congrArg Prod.snd (notify_onChannel n w)
  | _ => rfl

/-- One piece of work reaches the channel only if it publishes, and whether it fails makes no difference. -/
theorem step_onChannel (done : Report × σ × κ) (action : Action) :
    ((onChannel ch media log).step conference done action).2.2 = ch.sendAll (notices [action]) done.2.2 := by
  have hcall : ((onChannel ch media log).perform conference action done.2).2.2 =
      ch.sendAll (notices [action]) done.2.2 := call_onChannel action _
  unfold step
  split
  · rename_i hp
    rw [← hcall, hp]
  · rename_i hp
    rw [← hcall, hp]
    rfl

theorem foldl_step_onChannel (actions : List Action) (done : Report × σ × κ) :
    (actions.foldl ((onChannel ch media log).step conference) done).2.2 =
      ch.sendAll (notices actions) done.2.2 := by
  induction actions generalizing done with
  | nil => rfl
  | cons action actions ih =>
    rw [List.foldl_cons, ih, step_onChannel, ← Channel.sendAll_append, ← notices_append, List.singleton_append]

theorem performAll_onChannel (actions : List Action) (w : σ × κ) :
    ((onChannel ch media log).performAll conference actions w).2.2 = ch.sendAll (notices actions) w.2 :=
  foldl_step_onChannel actions ({}, w)

theorem logAll_onChannel (lines : List Log.Line) (w : σ × κ) :
    ((onChannel ch media log).logAll lines w).2 = w.2 := by
  induction lines generalizing w with
  | nil => rfl
  | cons line lines ih => exact ih (log line w.1, w.2)

end Host

/-! ### Events and runs -/

namespace Session
variable {σ : Type} {s : Session σ} {r : Raise} {settings : ConferenceSettings} {host : Host σ}

/-- What is told of an event: what it publishes if it is accepted, and that it was raised if the state does not
    handle it. -/
def tells (host : Host σ) (s : Session σ) (r : Raise) : List Notification :=
  match (s.apply host r).result with
  | .ok _ => notices (s.drained r)
  | .error (.unhandled ..) =>
    [.invalidEvent s.conference.name (s.callers r.caller).participant.id r.event s.conference.room.state]
  | .error _ => []

/-- What is told of some events, one after the other. -/
def told (host : Host σ) (s : Session σ) : List Raise → List Notification
  | [] => []
  | r :: raises => s.tells host r ++ (s.step host r).told host raises

/-- What is told does not depend on the surroundings. -/
theorem Alike.tells {τ : Type} {t : Session τ} (h : s.Alike t) (host : Host σ) (other : Host τ) (r : Raise) :
    s.tells host r = t.tells other r := by
  have hanswer := h.sameAnswer host other r
  rw [Session.tells, Session.tells, ← h.drained, ← h.1, ← h.2]
  generalize (s.apply host r).result = own at hanswer
  generalize (t.apply other r).result = others at hanswer
  cases hanswer with
  | refused error => rfl
  | accepted outcome work _ _ => rfl

theorem Alike.told {τ : Type} {t : Session τ} (h : s.Alike t) (host : Host σ) (other : Host τ)
    (raises : List Raise) : s.told host raises = t.told other raises := by
  induction raises generalizing s t with
  | nil => rfl
  | cons r raises ih => rw [Session.told, Session.told, h.tells host other r, ih (h.step host other r)]

section OnChannel
variable {κ ρ : Type} {s : Session (σ × κ)} {ch : Channel κ ρ} {media : κ → Media σ} {log : Log.Line → σ → σ}

/-- An event has sent to the channel just what is told of it. -/
theorem Settled.channel_step (h : s.Settled settings) (r : Raise) :
    (s.step (.onChannel ch media log) r).world.2 = ch.sendAll (s.tells (.onChannel ch media log) r) s.world.2 := by
  have hstep : (s.step (.onChannel ch media log) r).world = (s.apply (.onChannel ch media log) r).world := rfl
  have hlogged : ((Host.onChannel ch media log).logAll (s.conference.fire (s.callers r.caller) r.event).log
      s.world).2 = s.world.2 := Host.logAll_onChannel ..
  rw [hstep, tells, drained]
  cases hr : (s.conference.fire (s.callers r.caller) r.event).result with
  | ok transition =>
    have happly : s.apply (.onChannel ch media log) r = _ :=
      Conference.apply_of_ok hr (.onChannel ch media log) s.world
    rw [happly, Firing.drained, hr]
    exact (Host.performAll_onChannel _ _).trans (congrArg (ch.sendAll _) hlogged)
  | error error =>
    have happly : s.apply (.onChannel ch media log) r = _ :=
      Conference.apply_of_error hr (.onChannel ch media log) s.world
    rw [happly]
    rw [h.fire_eq] at hr
    obtain ⟨-, refusal⟩ := Table.fire_standard_error hr
    cases refusal with
    | unhandled => exact congrArg (ch.send _) hlogged
    | _ => exact hlogged

theorem Settled.channel_run (h : s.Settled settings) (raises : List Raise) :
    (s.run (.onChannel ch media log) raises).world.2 =
      ch.sendAll (s.told (.onChannel ch media log) raises) s.world.2 := by
  induction raises generalizing s with
  | nil => rfl
  | cons r raises ih =>
    have hrest := ih (h.step (.onChannel ch media log) r)
    rw [h.channel_step r, ← Channel.sendAll_append] at hrest
    exact hrest

/-- The listener of an ordinary conference sends what it hears to a channel that hands over in the order of
    sending, and its media side and its log are what they like. Every notification reaches the channel as it is,
    and after any events the channel was sent just what is told of them, which does not depend on the media side.
    A reader that was there before them and asks at any moments, between two events or in the middle of one, has
    always heard some first part of that, in order, unless it was told of a loss. Once it is answered that there
    is nothing more, it has heard exactly that; and so it has if it asks again as often as there was something to
    tell. -/
theorem channel_delivers_all_told {σ κ ρ : Type} {ch : Channel κ ρ} {awaits : κ → ρ → List Notification → Prop}
    (order : ch.InSendOrder awaits) (media : κ → Media σ) (log : Log.Line → σ → σ) (name : String)
    (settings : ConferenceSettings) (people : Nat → Participant) (w : σ) (k : κ) (raises : List Raise) :
    let host := Host.onChannel ch media log
    let s := start name settings .standard people (w, k)
    let told := s.told host raises
    (∀ n v, host.listener.notify n v = (v.1, ch.send n v.2)) ∧
    (s.run host raises).world.2 = ch.sendAll told k ∧
    (∀ other : κ → Media σ, s.told (.onChannel ch other log) raises = told) ∧
    ∀ uses, Channel.sent uses = told →
      let now := ch.read k uses
      let got := ch.got k uses
      now.1 = (s.run host raises).world.2 ∧
      (Channel.Unlagged got → Channel.heard got <+: told) ∧
      (Channel.Unlagged got → (ch.receive now.1 now.2.place).1.NothingMore → Channel.heard got = told) ∧
      ∀ asks, told.length ≤ asks →
        let all := ch.got k (uses ++ List.replicate asks .receive)
        Channel.Unlagged all → Channel.heard all = told := by
  intro host s told
  have hchannel : (s.run host raises).world.2 = ch.sendAll told k :=
    (settled_start name settings people (w, k)).channel_run raises
  have same : s.Alike s := ⟨rfl, rfl⟩
  refine ⟨Host.notify_onChannel, hchannel, fun other => same.told (.onChannel ch other log) host raises, ?_⟩
  intro uses hsent now got
  have serves : Channel.Serves awaits now told := hsent ▸ (order.serves_subscribe k).useAll order uses
  refine ⟨?_, serves.heard_prefix, serves.heard_of_nothingMore order, fun asks hasks => ?_⟩
  · rw [hchannel, ← hsent]
    exact ch.useAll_fst _ uses
  · rw [Channel.got_append]
    exact serves.heard_of_asked order (Nat.le_add_left_of_le hasks)

/-- A leader has the bridge to itself though its media side fails at everything, and a guest that never came
    leaves. The reader, which asks once as the leader comes in, hears of all that, and of the failures nothing. -/
theorem reader_hears_no_failures :
    let fails : Call Unit := fun w => (.error (.noRoom "no mixer"), w)
    let media : Media Unit :=
      { wait := fun _ _ => fails, mix := fun _ _ => fails, kick := fun _ _ => fails
        playPrompt := fun _ _ _ => fails, announce := fun _ _ => fails }
    let host := Host.onChannel Kept.channel (fun _ => media) fun _ => id
    let people := fun i => if i = 0 then ⟨"m", .leader⟩ else ⟨"g", .guest⟩
    let s := start "room" {} .standard people ((), Kept.channel.ofCapacity 4)
    let raises := [⟨0, .join .marked⟩, ⟨1, .leave .waitMarked⟩]
    let joined := .participantJoined "room" "m" .active
    let started := .conferenceStarted "room"
    let changed := .stateChanged "room" .empty .singleMarked
    let refused := .invalidEvent "room" "g" (.leave .waitMarked) .singleMarked
    let uses : List Channel.Use := [.send joined, .receive, .send started, .send changed, .send refused]
    let now := Kept.channel.read (Kept.channel.ofCapacity 4) uses
    let all := Kept.channel.got (Kept.channel.ofCapacity 4) (uses ++ List.replicate 4 .receive)
    now.1 = (s.run host raises).world.2 ∧ Channel.Unlagged all ∧
      Channel.heard all = [joined, started, changed, refused] := by
  intro fails media host people s raises joined started changed refused uses now all
  have htold : s.told host raises = [joined, started, changed, refused] := by decide +kernel
  have unlagged : Channel.Unlagged all := by
    have hall : all = [.notification joined, .notification started, .notification changed,
      .notification refused, .empty] := by decide +kernel
    simp [Channel.Unlagged, hall]
  have hread := (channel_delivers_all_told Kept.channel_inSendOrder (fun _ => media) (fun _ => id) "room" {} people
    () (Kept.channel.ofCapacity 4) raises).2.2.2 uses htold.symm
  have enough : (s.told host raises).length ≤ 4 := by rw [htold]; decide
  have hheard := hread.2.2.2 4 enough unlagged
  exact ⟨hread.1, unlagged, hheard.trans htold⟩

end OnChannel

end Session
end ConferenceBridge
