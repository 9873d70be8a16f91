import Steamroids.Calls

/-!
# The Game Coordinator

A `GameCoordinator` (`gc/coordinator.rs`) rides on a session. Attaching one spawns a pump,
which takes the session's broadcast messages, relays those of the app's GC, and keeps track
of whether the GC is ready: a welcome makes it ready, a report that there is no GC session
and a change of the session's state make it not ready. After a change to a live session the
pump announces the app anew, and until it is welcomed it repeats its hello on a timer.

The pump reads two channels of the session, the messages and the published states, and its
`select!` takes them in any order. `Pump.step` is one iteration of its loop, in which the
environment has chosen the branch.
-/

namespace Steamroids

/-- `k_EMsgClientGamesPlayed`. -/
def emsgClientGamesPlayed : UInt32 := 742

/-- How often to repeat the hello until the GC welcomes us. -/
def helloRetryInterval : Nat := fromSecs 2

/-- How often the hello is repeated, until readiness is lost or the session changes. -/
def maxHelloAttempts : Nat := 20

/-! ### What is sent -/

/-- The notification that announces the app to Steam. -/
def gamesPlayed (G : GcProst) (appid : UInt32) : UInt32 × Bytes :=
  (emsgClientGamesPlayed,
    G.encodeGamesPlayed { gamesPlayed := [{ gameId := some appid.toUInt64 }] })

/-- The notification that prompts the welcome. -/
def sendHello (G : GcProst) (appid helloVersion : UInt32) : UInt32 × Bytes :=
  let body := G.encodeClientHello
    { version := some helloVersion
      clientSessionNeed := some 0
      clientLauncher := some 0
      steamLauncher := some 0 }
  (emsgClientToGc, G.encodeGcClient (GcMessage.wrap G appid gcClientHello {} body))

/-- Announce the app and send the first hello; the hello is left out if the announcement
fails. -/
def launch (G : GcProst) (appid helloVersion : UInt32) (announced : Bool) :
    List (UInt32 × Bytes) :=
  gamesPlayed G appid :: if announced then [sendHello G appid helloVersion] else []

/-- Send `body` as `sendType` to the GC of `appid`, and await the next GC message of
`responseType` that decodes to something `accept` takes. -/
def requestMatching {β : Type} (G : GcProst) (appid sendType : UInt32) (body : Bytes)
    (responseType : UInt32) (decode : Bytes → Except String β) (accept : β → Bool) :
    Call GcMessage β where
  needsReady := true
  message? := Deed.gcMessage?
  capacity := gcEventCapacity
  holds := Party.holdsGcEvents
  opening := .notify emsgClientToGc (G.encodeGcClient (GcMessage.wrap G appid sendType {} body))
  wait :=
    { judge := fun msg =>
        if msg.msgtype = responseType then
          match decode msg.body with
          | .error e => some (.error (.codec ("decode GC response: " ++ e)))
          | .ok decoded => if accept decoded then some (.ok decoded) else none
        else
          none
      closed := .webSocket "GC pump stopped"
      timedOut := .timeout "GC response" }

/-! ### The pump -/

/-- The state that an effect publishes. -/
def Effect.state? : Effect → Option SessionState
  | .published st => some st
  | _ => none

/-- The messages broadcast so far. -/
def messages (log : List Effect) : List SteamMessage := log.filterMap Effect.message?

/-- The states published so far. -/
def states (log : List Effect) : List SessionState := log.filterMap Effect.state?

/-- The driver has not returned, and so has not dropped the sender of its state. -/
def stateOpen (log : List Effect) : Bool := !log.any fun e => match e with
  | .returned _ => true
  | _ => false

/-- The local state of the pump, and what it has sent. -/
structure Pump where
  ready : Bool
  helloAttempts : Nat
  /-- When the hello timer fires next. -/
  nextHello : Nat
  /-- The number of the next message that `events_in` receives. -/
  next : Nat
  /-- The number of states that `state_in` has seen. -/
  seen : Nat
  /-- The value of the `ready` watch. -/
  readyOut : Bool
  /-- The messages sent to the coordinator's subscribers. -/
  relayed : List GcMessage
  /-- The notifications sent to Steam. -/
  sent : List (UInt32 × Bytes)
  running : Bool
  deriving DecidableEq

/-- What lets the pump go on: a branch of its `select!`, and the clock. -/
inductive PumpInput
  /-- The last coordinator is dropped. -/
  | closed
  /-- `state_in` has changed; `announced` is whether the app's announcement, if one is sent,
  succeeds. -/
  | changed (now : Nat) (announced : Bool)
  /-- The hello timer fires. -/
  | tick (now : Nat)
  /-- `events_in` yields. -/
  | received (now : Nat)
  deriving DecidableEq

namespace Pump

/-- The pump that `attach` spawns. It subscribes to what is broadcast from now on; its state
receiver is a clone of the handle's, which has seen the state the session was spawned with
and no other. -/
def attach (now : Nat) (log : List Effect) : Pump where
  ready := false
  helloAttempts := 0
  nextHello := now + helloRetryInterval
  next := (messages log).length
  seen := 1
  readyOut := false
  relayed := []
  sent := []
  running := true

variable (G : GcProst) (appid helloVersion : UInt32) (p : Pump)

/-- Readiness is lost: the hello budget starts anew. -/
def unready (now : Nat) : Pump :=
  { p with ready := false, helloAttempts := 0, nextHello := now + helloRetryInterval,
           readyOut := false }

/-- What a message of the app's GC does to readiness. -/
def onGcMessage (now : Nat) (msg : GcMessage) : Pump :=
  if msg.msgtype = gcClientWelcome then
    { p with ready := true, readyOut := true }
  else if msg.msgtype = gcClientConnectionStatus then
    if hasGcSession G msg.body then p else p.unready now
  else
    p

/-- The handler of a broadcast message. -/
def onMessage (now : Nat) (msg : SteamMessage) : Pump :=
  if msg.emsg ≠ emsgClientFromGc then
    p
  else
    match GcMessage.unwrap G msg with
    | .ok (some gcMsg) =>
        if gcMsg.appid = appid then
          let p := p.onGcMessage G now gcMsg
          { p with relayed := p.relayed ++ [gcMsg] }
        else
          p
    | _ => p

/-- The handler of a change of the session's state, which is `st` now. -/
def onChanged (now : Nat) (announced : Bool) (st : Option SessionState) : Pump :=
  let p := p.unready now
  if st.any SessionState.isReady then
    { p with sent := p.sent ++ launch G appid helloVersion announced }
  else
    p

/-- The handler of the hello timer. -/
def onTick (now : Nat) : Pump :=
  let p := { p with nextHello := now + helloRetryInterval }
  if !p.ready && decide (p.helloAttempts < maxHelloAttempts) then
    { p with
      helloAttempts := p.helloAttempts + 1
      sent := p.sent ++ [sendHello G appid helloVersion] }
  else
    p

/-- One iteration of the pump's loop, with the session's ledger at `log`. The pump holds a
handle itself, so the channel of messages does not end while it runs. -/
def step (log : List Effect) : PumpInput → Option Pump
  | .closed => if p.running then some { p with running := false } else none
  | .changed now announced =>
      if p.running then
        (Channel.changed (states log).length (stateOpen log) p.seen).map fun
          | .ok seen => { p with seen }.onChanged G appid helloVersion now announced
              (states log).getLast?
          | .error () => { p with running := false }
      else
        none
  | .tick now =>
      if p.running && decide (p.nextHello ≤ now) then
        some (p.onTick G appid helloVersion now)
      else
        none
  | .received now =>
      if p.running then
        (Channel.recv eventCapacity (messages log) true p.next).map fun
          | (.value msg, next) => { p with next }.onMessage G appid now msg
          | (.lagged _, next) => { p with next }
          | (.closed, _) => { p with running := false }
      else
        none

variable {G appid helloVersion p}

/-- An iteration, with its guard and its outcome. -/
inductive Steps (G : GcProst) (appid helloVersion : UInt32) (log : List Effect) (p : Pump) :
    PumpInput → Pump → Prop
  | closed : Steps G appid helloVersion log p .closed { p with running := false }
  | changed {now : Nat} {announced : Bool} : p.seen < (states log).length →
      Steps G appid helloVersion log p (.changed now announced)
        ({ p with seen := (states log).length }.onChanged G appid helloVersion now announced
          (states log).getLast?)
  | ended {now : Nat} {announced : Bool} :
      Steps G appid helloVersion log p (.changed now announced) { p with running := false }
  | tick {now : Nat} :
      Steps G appid helloVersion log p (.tick now) (p.onTick G appid helloVersion now)
  | value {now : Nat} {msg : SteamMessage} : (messages log)[p.next]? = some msg →
      Steps G appid helloVersion log p (.received now)
        ({ p with next := p.next + 1 }.onMessage G appid now msg)
  | lagged {now : Nat} : p.next + eventCapacity < (messages log).length →
      Steps G appid helloVersion log p (.received now)
        { p with next := (messages log).length - eventCapacity }

/-- The inversion of `step`. -/
theorem step_steps {log : List Effect} {i : PumpInput} {p' : Pump}
    (h : p.step G appid helloVersion log i = some p') :
    Steps G appid helloVersion log p i p' := by
  cases i with
  | closed =>
      simp only [step] at h
      split at h
      · obtain rfl := Option.some.inj h
        exact .closed
      · cases h
  | changed now announced =>
      simp only [step, Channel.changed] at h
      split at h
      · split at h
        · obtain rfl := Option.some.inj h
          exact .changed ‹_›
        · split at h
          · cases h
          · obtain rfl := Option.some.inj h
            exact .ended
      · cases h
  | tick now =>
      simp only [step] at h
      split at h
      · obtain rfl := Option.some.inj h
        exact .tick
      · cases h
  | received now =>
      simp only [step, Channel.recv] at h
      split at h
      · split at h
        · obtain rfl := Option.some.inj h
          exact .lagged ‹_›
        · split at h
          · obtain rfl := Option.some.inj h
            exact .value ‹_›
          · cases h
      · cases h

/-! ### Readiness -/

/-- The iteration does not touch readiness, nor what has been read. -/
structure Keeps (p p' : Pump) : Prop where
  ready : p'.ready = p.ready
  readyOut : p'.readyOut = p.readyOut
  next : p'.next = p.next
  seen : p'.seen = p.seen

/-- A tick of the timer changes no readiness. -/
theorem onTick_keeps (now : Nat) : Keeps p (p.onTick G appid helloVersion now) := by
  simp only [onTick]
  split <;> exact ⟨rfl, rfl, rfl, rfl⟩

/-- A change of state takes readiness away. -/
theorem onChanged_spec (now : Nat) (announced : Bool) (st : Option SessionState) :
    Keeps { p with ready := false, readyOut := false }
      (p.onChanged G appid helloVersion now announced st) := by
  simp only [onChanged]
  split <;> exact ⟨rfl, rfl, rfl, rfl⟩

end Pump

/-- What the session publishes that bears on readiness: the GC of the app welcomes us or
reports that it has no session for us, or the session's state is published. -/
inductive GcEvent
  | welcome
  | lost
  | published
  deriving DecidableEq

/-- What a message of the app's GC says about readiness. -/
def GcMessage.readiness? (G : GcProst) (msg : GcMessage) : Option GcEvent :=
  if msg.msgtype = gcClientWelcome then some .welcome
  else if msg.msgtype = gcClientConnectionStatus ∧ hasGcSession G msg.body = false then some .lost
  else none

/-- What a broadcast message says about readiness. -/
def readiness? (G : GcProst) (appid : UInt32) (msg : SteamMessage) : Option GcEvent :=
  if msg.emsg = emsgClientFromGc then
    match GcMessage.unwrap G msg with
    | .ok (some gcMsg) => if gcMsg.appid = appid then gcMsg.readiness? G else none
    | _ => none
  else
    none

namespace Pump

variable {G : GcProst} {appid : UInt32} {p : Pump}

/-- Readiness as an event leaves it. -/
def settle (p : Pump) : Option GcEvent → Pump
  | none => p
  | some e => { p with ready := decide (e = .welcome), readyOut := decide (e = .welcome) }

/-- A message from the coordinator settles the readiness it tells, and no more. -/
theorem onGcMessage_spec (now : Nat) (msg : GcMessage) :
    Keeps (p.settle (msg.readiness? G)) (p.onGcMessage G now msg) := by
  by_cases hwelcome : msg.msgtype = gcClientWelcome
  · simp only [onGcMessage, GcMessage.readiness?, hwelcome, if_true]
    exact ⟨rfl, rfl, rfl, rfl⟩
  · by_cases hstatus : msg.msgtype = gcClientConnectionStatus
    · rcases hsession : hasGcSession G msg.body with _ | _ <;>
        simp only [onGcMessage, GcMessage.readiness?, hstatus, hsession, if_false, if_true,
          and_self, and_false, reduceCtorEq] <;>
        exact ⟨rfl, rfl, rfl, rfl⟩
    · simp only [onGcMessage, GcMessage.readiness?, hwelcome, hstatus, if_false, false_and]
      exact ⟨rfl, rfl, rfl, rfl⟩

/-- **A message does to readiness what it says.** -/
theorem onMessage_spec (now : Nat) (msg : SteamMessage) :
    Keeps (p.settle (readiness? G appid msg)) (p.onMessage G appid now msg) := by
  by_cases hemsg : msg.emsg = emsgClientFromGc
  · simp only [onMessage, readiness?, hemsg, ne_eq, not_true_eq_false, if_false, if_true]
    rcases GcMessage.unwrap G msg with e | (_ | gcMsg)
    · exact ⟨rfl, rfl, rfl, rfl⟩
    · exact ⟨rfl, rfl, rfl, rfl⟩
    · by_cases happ : gcMsg.appid = appid
      · simp only [happ, if_true]
        obtain ⟨hready, hout, hnext, hseen⟩ := onGcMessage_spec (G := G) (p := p) now gcMsg
        exact ⟨hready, hout, hnext, hseen⟩
      · simp only [happ, if_false]
        exact ⟨rfl, rfl, rfl, rfl⟩
  · simp only [onMessage, readiness?, hemsg, ne_eq, not_false_eq_true, if_true, if_false]
    exact ⟨rfl, rfl, rfl, rfl⟩

end Pump

end Steamroids
