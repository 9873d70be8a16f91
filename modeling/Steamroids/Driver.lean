import Steamroids.Connection
import Steamroids.Ledger

/-!
# The Session Driver

`SessionDriver` (`session/driver.rs`) owns the socket on a background task: it takes
commands off a queue, reads messages and routes them to the requests that wait for them,
heartbeats, sweeps requests that timed out, and reconnects when the transport fails.

The task is modelled as a state machine. `Phase` says where `run` is suspended: in the
`select!` of the connected loop, in one of the two `select!`s of `reconnect`, in the
closing of the socket, or nowhere any more. An `Input` is what lets it go on: a branch of
the `select!` that completes, with what the environment answers (the result of a write, the
item a socket yields, the clock). The handler of a branch runs to the next suspension
point in one `step`; while it waits for a write, nothing else moves the driver.

Everything the driver does that can be seen from outside is entered in an append-only
ledger, `log`, in the order in which it happens (`Effect`). What a concurrent observer can
see at some moment is determined by a prefix of the ledger.

The driver's own fields keep their names. Besides the ledger the model adds `abandoned`
(the oneshot channels whose callers have gone), `conn` (the number of the connection the
driver holds) and `arrivals` (how many messages it has taken from its connections).

`pending` and `snapshots` are hash maps in the source; here they are association lists
with distinct keys, and the order in which `drain` and `retain` visit entries is the order
of the list. No result depends on that order.
-/

namespace Steamroids

/-! ### Constants -/

/-- Backoff before the first reconnect attempt, in seconds. -/
def initialBackoff : Nat := 1

/-- Upper bound on reconnect backoff, in seconds. -/
def maxBackoff : Nat := 60

/-- `k_EMsgClientLogOff`. -/
def emsgClientLogoff : UInt32 := 706

/-- `k_EMsgClientHeartBeat`. -/
def emsgClientHeartbeat : UInt32 := 703

/-- How often the driver reaps timed-out and abandoned pending requests. -/
def pendingSweepInterval : Nat := fromSecs 1

/-- How many unanswered Ping probes make the socket dead rather than quiet. -/
def idleProbeMisses : Nat := 6

/-- Floor under the read-idle budget. -/
def minIdleTimeout : Nat := fromSecs 60

/-- The one-shot snapshots Steam pushes after each logon: the friends list, the
friends-groups list and the nickname list. -/
def postLoginSnapshotEmsgs : List UInt32 := [767, 5553, 5587]

/-- `u64::MAX`, the job id that means "no job". -/
def u64Max : UInt64 := 18446744073709551615

/-! ### State -/

/-- An in-flight request the driver is holding open for a reply. -/
structure Pending where
  reply : Chan
  deadline : Nat
  deriving DecidableEq, Repr

/-- Why the connected loop ended. -/
inductive LoopExit
  | shutdown
  | loggedOff (reason : String)
  | disconnected
  deriving DecidableEq, Repr

/-- A frame as `send_frame` builds it, before encoding. -/
structure Frame where
  emsg : UInt32
  header : CMsgProtoBufHeader
  body : Bytes
  deriving DecidableEq, Repr

/-- A message as the driver takes it from its connection: the connection, the number of
messages taken before it in this session, and the message. -/
structure Arrival where
  conn : Nat
  number : Nat
  msg : SteamMessage
  deriving DecidableEq, Repr

/-- What the driver does that can be seen from outside. -/
inductive Effect
  /-- A command was taken off the queue. -/
  | took (c : Command)
  /-- The queue was seen closed: the last handle is gone. -/
  | handlesGone
  /-- A frame was written to a connection, for the request on channel `origin` if it is a
  request's; `sent` says whether the write succeeded. -/
  | wrote (conn : Nat) (frame : Frame) (origin : Option Chan) (sent : Bool)
  /-- A WebSocket Ping was written. -/
  | pinged (conn : Nat) (sent : Bool)
  /-- A notification or a logoff was acknowledged. -/
  | acked (ch : Chan) (res : Except Error Unit)
  /-- `reply.send` on a request's channel; `delivered` is false when the caller had gone. -/
  | replied (ch : Chan) (res : Except Error Arrival) (delivered : Bool)
  /-- A request was dropped because its caller had gone. -/
  | reaped (ch : Chan)
  /-- An unsolicited snapshot was offered to the cache, which keeps the first. -/
  | offered (a : Arrival)
  /-- A message was broadcast to the subscribers. -/
  | broadcast (a : Arrival)
  /-- The connected loop read a `ClientLoggedOff`. -/
  | evicted (a : Arrival)
  /-- The snapshot cache was emptied, or created empty. -/
  | cleared
  /-- A session state was published. -/
  | published (st : SessionState)
  /-- A connect attempt was started. -/
  | dialed
  /-- A connect attempt failed. -/
  | refused (e : Error)
  /-- A logged-on connection was taken over, with the items its logon had read. -/
  | adopted (conn : Nat) (items : List WsItem)
  /-- The socket of a connection yielded an item to the connected loop. -/
  | yielded (conn : Nat) (item : WsItem)
  /-- `run` returned. -/
  | returned (res : Except Error Unit)
  deriving DecidableEq

/-- The local state of `run_connected`: when the two timers fire next, and where the
`read_message` future of the current `select!` stands. -/
structure ConnectedLoop where
  nextHeartbeat : Nat
  nextSweep : Nat
  reading : ReadFuture
  deriving DecidableEq, Repr

/-- Where the driver task is suspended. -/
inductive Phase
  /-- In the `select!` of `run_connected`. -/
  | connected (l : ConnectedLoop)
  /-- In `reconnect`, sleeping out the backoff. -/
  | backoff (secs : Nat)
  /-- In `reconnect`, with a connect attempt under way. -/
  | connecting (secs : Nat)
  /-- After the main loop, closing the socket. -/
  | closing (result : Except Error String)
  /-- `run` has returned. -/
  | stopped (result : Except Error Unit)
  deriving DecidableEq

/-- The driver, its suspension point and its ledger. -/
structure SessionDriver where
  inbox : List SteamMessage
  liveness : Nat
  steamId : UInt64
  sessionId : Int
  heartbeat : Nat
  nextJobid : UInt64
  pending : AList fun _ : UInt64 => Pending
  state : SessionState
  snapshots : AList fun _ : UInt32 => Bytes
  phase : Phase
  abandoned : List Chan
  conn : Nat
  arrivals : Nat
  log : List Effect

/-- What lets the driver go on. -/
inductive Input
  /-- The queue yields a command, or `none` when all handles are gone; `write` is the
  error of the frame written for it, if that write fails. -/
  | command (c : Option Command) (write : Option String)
  /-- The read branch is polled without a new item. -/
  | poll
  /-- The socket yields an item to the waiting read branch. -/
  | item (now : Nat) (it : WsItem)
  /-- The heartbeat timer fires; the two writes it makes may fail. -/
  | heartbeat (now : Nat) (write ping : Option String)
  /-- The sweep timer fires. -/
  | sweep (now : Nat)
  /-- The backoff sleep ends. -/
  | wake
  /-- The connect attempt ends: with an error, or with a connection whose logon read these
  items. -/
  | attempt (now : Nat) (r : Except Error (List WsItem))
  /-- Closing the socket ends, or its budget runs out. -/
  | closed
  /-- A caller drops the receiver of its oneshot channel. -/
  | abandon (ch : Chan)
  deriving DecidableEq

namespace SessionDriver

variable (d : SessionDriver)

/-- Enter `e` in the ledger. -/
def emit (e : Effect) : SessionDriver := { d with log := d.log ++ [e] }

/-- `reply.is_closed()`: the caller has gone. -/
def isClosed (ch : Chan) : Bool := decide (ch ∈ d.abandoned)

/-- `reply.send(res)`: the value is lost when the caller has gone. -/
def reply (ch : Chan) (res : Except Error Arrival) : SessionDriver :=
  d.emit (.replied ch res (!d.isClosed ch))

/-- `self.state.send(st)`. -/
def publish (st : SessionState) : SessionDriver :=
  { d with state := st }.emit (.published st)

/-! ### Writing -/

/-- A frame with the session's routing header. -/
def frame (emsg : UInt32) (jobidSource : Option UInt64) (body : Bytes) : Frame :=
  { emsg
    header := { steamid := some d.steamId, clientSessionid := some d.sessionId, jobidSource }
    body }

/-- The result of a socket write, whose error is `write` if it fails. -/
def writeResult : Option String → Except Error Unit
  | none => .ok ()
  | some e => .error (.webSocket e)

/-- Build and send a frame. -/
def sendFrame (emsg : UInt32) (jobidSource : Option UInt64) (body : Bytes)
    (origin : Option Chan) (write : Option String) : SessionDriver × Except Error Unit :=
  (d.emit (.wrote d.conn (d.frame emsg jobidSource body) origin write.isNone),
    writeResult write)

/-- `next_jobid.checked_add(1).unwrap_or(1)`. -/
def bumpJobid (jobid : UInt64) : UInt64 :=
  if jobid = u64Max then 1 else jobid + 1

/-! ### Routing -/

/-- The pending request a message answers, if its `jobid_target` names one. -/
def waiter (msg : SteamMessage) : Option (UInt64 × Pending) :=
  match msg.header.jobidTarget.filter fun j => j != 0 && j != u64Max with
  | none => none
  | some jobid => (d.pending.lookup jobid).map fun entry => (jobid, entry)

/-- `entry(emsg).or_insert_with(body)` on the snapshot cache. -/
def offer (a : Arrival) : SessionDriver :=
  { d with
    snapshots := match d.snapshots.lookup a.msg.emsg with
      | some _ => d.snapshots
      | none => d.snapshots.insert a.msg.emsg a.msg.body }.emit (.offered a)

/-- The part of `dispatch` for a message no request waits for. -/
def unsolicited (a : Arrival) : SessionDriver :=
  let d := if a.msg.emsg ∈ postLoginSnapshotEmsgs then d.offer a else d
  d.emit (.broadcast a)

/-- Route an incoming message: to the waiting request if its `jobid_target` matches a
pending job, otherwise broadcast it to subscribers. -/
def dispatch (msg : SteamMessage) : SessionDriver :=
  let a : Arrival := ⟨d.conn, d.arrivals, msg⟩
  let d := { d with arrivals := d.arrivals + 1 }
  match d.waiter msg with
  | some (jobid, entry) => { d with pending := d.pending.erase jobid }.reply entry.reply (.ok a)
  | none => d.unsolicited a

/-- Dispatch `msgs`, popping them off the inbox one by one. -/
def drain (d : SessionDriver) : List SteamMessage → SessionDriver
  | [] => d
  | msg :: rest => drain ({ d with inbox := rest }.dispatch msg) rest

/-- The drain of `inbox` in the `Disconnected` arm of `run`. -/
def drainInbox : SessionDriver := d.drain d.inbox

/-- Fail every in-flight request with `reason`. -/
def failAllPending (reason : String) : SessionDriver :=
  { d with
    pending := ∅
    log := d.log ++ d.pending.entries.map fun entry =>
      .replied entry.2.reply (.error (.webSocket reason)) (!d.isClosed entry.2.reply) }

/-- What the closure of `retain` in `sweep_pending` does with one entry; `none` keeps
it. -/
def sweepEntry (now : Nat) (entry : Pending) : Option Effect :=
  if d.isClosed entry.reply then
    some (.reaped entry.reply)
  else if entry.deadline ≤ now then
    some (.replied entry.reply (.error (.timeout "steam request")) true)
  else
    none

/-- Reap pending requests that timed out or whose caller went away. -/
def sweepPending (now : Nat) : SessionDriver :=
  { d with
    pending :=
      ⟨d.pending.entries.filter fun entry => (d.sweepEntry now entry.2).isNone,
        d.pending.nodupKeys.sublist List.filter_sublist⟩
    log := d.log ++ d.pending.entries.filterMap fun entry => d.sweepEntry now entry.2 }

/-! ### The connected loop -/

/-- Decide whether a `CMsgClientLoggedOff` is transient (heal by reconnecting) or terminal
(give up). -/
def classifyLogoff (P : Prost) (msg : SteamMessage) : LoopExit :=
  match P.loggedOff msg.body with
  | .error _ => .loggedOff "logged off by Steam (undecodable body)"
  | .ok decoded =>
      let code := decoded.eresult.getD EResult.fail
      if code = EResult.noConnection ∨ code = EResult.serviceUnavailable
          ∨ code = EResult.tryAnotherCm then
        .disconnected
      else
        .loggedOff ("logged off by Steam (eresult " ++ toString code ++ ")")

/-- Inbound-silence budget for a session heartbeating at `heartbeat`. -/
def idleTimeout (heartbeat : Nat) : Nat :=
  max (heartbeat * idleProbeMisses) minIdleTimeout

/-- `true` when no frame of any kind has arrived for `idleTimeout`. -/
def readIdleExpired (now : Nat) : Bool :=
  idleTimeout d.heartbeat ≤ now - d.liveness

/-- The command branch of the connected loop. -/
def onCommand (c : Option Command) (write : Option String) :
    SessionDriver × Option LoopExit :=
  match c with
  | none => (d.emit .handlesGone, some .shutdown)
  | some (.notify emsg body ack) =>
      let (d, sent) := (d.emit (.took (.notify emsg body ack))).sendFrame emsg none body none write
      (d.emit (.acked ack sent), if write.isSome then some .disconnected else none)
  | some (.logoff ack) =>
      let (d, _) := (d.emit (.took (.logoff ack))).sendFrame emsgClientLogoff none [] none write
      (d.emit (.acked ack (.ok ())), some .shutdown)
  | some (.request emsg body deadline reply) =>
      let jobid := d.nextJobid
      let d := { d with nextJobid := bumpJobid d.nextJobid }
      let (d, _) := (d.emit (.took (.request emsg body deadline reply))).sendFrame
        emsg (some jobid) body (some reply) write
      if write.isSome then
        (d.reply reply (.error (.webSocket "session reconnecting")), some .disconnected)
      else
        ({ d with pending := d.pending.insert jobid { reply, deadline } }, none)

/-- The read branch of the connected loop, once `read_message` has a result. -/
def onReceived (P : Prost) (received : Except Error SteamMessage) :
    SessionDriver × Option LoopExit :=
  match received with
  | .ok msg =>
      if msg.emsg = emsgClientLoggedOff then
        ({ d with arrivals := d.arrivals + 1 }.emit (.evicted ⟨d.conn, d.arrivals, msg⟩),
          some (classifyLogoff P msg))
      else
        (d.dispatch msg, none)
  | .error _ => (d, some .disconnected)

/-- The heartbeat branch of the connected loop. -/
def onHeartbeat (write ping : Option String) : SessionDriver × Option LoopExit :=
  let (d, _) := d.sendFrame emsgClientHeartbeat none [] none write
  if write.isSome then
    (d, some .disconnected)
  else
    let d := d.emit (.pinged d.conn ping.isNone)
    (d, if ping.isSome then some .disconnected else none)

/-- The sweep branch of the connected loop. -/
def onSweep (now : Nat) : SessionDriver × Option LoopExit :=
  if d.readIdleExpired now then (d, some .disconnected) else (d.sweepPending now, none)

/-- How an iteration of the connected loop went: the loop goes on, or it is left. -/
inductive Turn
  | again (l : ConnectedLoop)
  | exit (x : LoopExit)
  deriving DecidableEq

/-- A completed branch drops the other futures of the `select!`, the reader's among
them. -/
def Turn.ofBranch (l : ConnectedLoop) : Option LoopExit → Turn
  | none => .again { l with reading := .fresh }
  | some x => .exit x

/-- The inbound-activity clock is stamped for every frame that arrives. -/
def touch (now : Nat) (it : WsItem) : SessionDriver :=
  { d with liveness := if it.touches then now else d.liveness }

/-- One iteration of the connected loop, or one poll of its read branch that leaves it
waiting. -/
def runConnected (P : Prost) (l : ConnectedLoop) : Input → Option (SessionDriver × Turn)
  | .command c write =>
      let r := d.onCommand c write
      some (r.1, .ofBranch l r.2)
  | .poll =>
      match l.reading, d.inbox with
      | .fresh, msg :: rest =>
          let r := { d with inbox := rest }.onReceived P (.ok msg)
          some (r.1, .ofBranch l r.2)
      | .fresh, [] => some (d, .again { l with reading := .parked })
      | .parked, _ => some (d, .again l)
  | .item now it =>
      match l.reading with
      | .fresh => none
      | .parked =>
          let d := (d.touch now it).emit (.yielded d.conn it)
          match readMessage P d.inbox it with
          | (inbox, none) => some ({ d with inbox }, .again l)
          | (inbox, some received) =>
              let r := { d with inbox }.onReceived P received
              some (r.1, .ofBranch l r.2)
  | .heartbeat now write ping =>
      if l.nextHeartbeat ≤ now then
        let r := d.onHeartbeat write ping
        some (r.1, .ofBranch { l with nextHeartbeat := now + d.heartbeat } r.2)
      else
        none
  | .sweep now =>
      if l.nextSweep ≤ now then
        let r := d.onSweep now
        some (r.1, .ofBranch { l with nextSweep := now + pendingSweepInterval } r.2)
      else
        none
  | _ => none

/-- The start of `run_connected`. -/
def enterConnected (now : Nat) : SessionDriver :=
  { d with
    liveness := now
    phase := .connected
      { nextHeartbeat := now + d.heartbeat
        nextSweep := now + pendingSweepInterval
        reading := .fresh } }

/-! ### Reconnecting, stopping, and the whole task -/

/-- Answer a command that arrived while the socket is down; `true` when the driver must
stop. -/
def answerWhileDown (c : Option Command) : SessionDriver × Bool :=
  match c with
  | none => (d.emit .handlesGone, true)
  | some (.logoff ack) => ((d.emit (.took (.logoff ack))).emit (.acked ack (.ok ())), true)
  | some (.request emsg body deadline reply) =>
      ((d.emit (.took (.request emsg body deadline reply))).reply reply
        (.error (.webSocket "session reconnecting")), false)
  | some (.notify emsg body ack) =>
      ((d.emit (.took (.notify emsg body ack))).emit
        (.acked ack (.error (.webSocket "session reconnecting"))), false)

/-- The way out of the main loop of `run`: free the callers, then close the socket. -/
def finish (result : Except Error String) : SessionDriver :=
  { d with phase := .closing result }.failAllPending "session driver stopped"

/-- What `run` does with the end of the connected loop. -/
def leave : LoopExit → SessionDriver
  | .shutdown => d.finish (.ok "session closed")
  | .loggedOff reason => d.finish (.ok reason)
  | .disconnected =>
      let d := { d with phase := .backoff initialBackoff }
      (d.drainInbox.failAllPending "session reconnecting").publish .connecting

/-- The connection whose logon read exactly these items, if it was accepted. -/
def establish (P : Prost) (items : List WsItem) : Option (CmConnection × LoggedOn) :=
  match CmConnection.connect.logon P items with
  | some { result := .ok (conn, logged), inbox, unread := [] } =>
      some ({ conn with inbox }, logged)
  | _ => none

/-- A reconnect that went live: swap the connection in, drop the stale snapshots, publish,
and go back to the connected loop. -/
def goLive (now : Nat) (items : List WsItem) (conn : CmConnection) (logged : LoggedOn) :
    SessionDriver :=
  let d := { d with
    inbox := conn.inbox
    steamId := conn.steamId
    sessionId := conn.sessionId
    heartbeat := logged.heartbeatInterval
    conn := d.conn + 1 }
  let d := d.emit (.adopted d.conn items)
  let d := { d with snapshots := ∅ }.emit .cleared
  (d.publish (.loggedOn d.steamId)).enterConnected now

/-- The command branch of the two `select!`s of `reconnect`. -/
def onCommandDown (c : Option Command) : SessionDriver :=
  let r := d.answerWhileDown c
  if r.2 then r.1.finish (.ok "session closed") else r.1

/-- The end of a connect attempt. -/
def onAttempt (P : Prost) (now secs : Nat) (r : Except Error (List WsItem)) :
    Option SessionDriver :=
  match r with
  | .ok items => (establish P items).map fun c => d.goLive now items c.1 c.2
  | .error e =>
      let d := d.emit (.refused e)
      if e.isAuthRejected then
        some (d.finish (.error e))
      else
        some { d with phase := .backoff (min (secs * 2) maxBackoff) }

/-- The end of `run`: publish the terminal state and return. -/
def conclude (result : Except Error String) : SessionDriver :=
  match result with
  | .ok reason =>
      { (d.publish (.loggedOff reason)).emit (.returned (.ok ())) with phase := .stopped (.ok ()) }
  | .error e =>
      { (d.publish (.failed e.display)).emit (.returned (.error e)) with
        phase := .stopped (.error e) }

/-- Go on after an iteration of the connected loop. -/
def resume (r : SessionDriver × Turn) : SessionDriver :=
  match r.2 with
  | .again l => { r.1 with phase := .connected l }
  | .exit x => r.1.leave x

/-- A command carries a oneshot sender of its own, so no channel comes twice. -/
def isNew (c : Option Command) : Bool :=
  match c with
  | none => true
  | some c => !d.log.any fun e => match e with
      | .took c' => c'.chan == c.chan
      | _ => false

/-- One step of the driver task. -/
def step (P : Prost) (d : SessionDriver) (i : Input) : Option SessionDriver :=
  match i with
  | .abandon ch => some { d with abandoned := ch :: d.abandoned }
  | .command c write =>
      if d.isNew c then
        match d.phase with
        | .connected l => (d.runConnected P l (.command c write)).map resume
        | .backoff _ => some (d.onCommandDown c)
        | .connecting _ => some (d.onCommandDown c)
        | _ => none
      else
        none
  | .wake =>
      match d.phase with
      | .backoff secs => some { d.emit .dialed with phase := .connecting secs }
      | _ => none
  | .attempt now r =>
      match d.phase with
      | .connecting secs => d.onAttempt P now secs r
      | _ => none
  | .closed =>
      match d.phase with
      | .closing result => some (d.conclude result)
      | _ => none
  | i =>
      match d.phase with
      | .connected l => (d.runConnected P l i).map resume
      | _ => none

/-- The driver that `spawn_session` starts on an established connection. -/
def spawn (P : Prost) (now : Nat) (items : List WsItem) : Option SessionDriver :=
  (establish P items).map fun c =>
    enterConnected
      { inbox := c.1.inbox
        liveness := now
        steamId := c.2.steamId
        sessionId := c.1.sessionId
        heartbeat := c.2.heartbeatInterval
        nextJobid := 1
        pending := ∅
        state := .loggedOn c.2.steamId
        snapshots := ∅
        phase := .stopped (.ok ())
        abandoned := []
        conn := 0
        arrivals := 0
        log := [.adopted 0 items, .cleared, .published (.loggedOn c.2.steamId)] } now

end SessionDriver

/-! ### Sessions on the wire

Byte strings for concrete sessions, and what prost makes of them: a header is empty or
holds a small `jobid_target`, a body is empty or holds a small `eresult`, a batch is not
compressed. -/

namespace Sample

/-- A body with at most a one-byte `eresult`. -/
def eresult : Bytes → Except String (Option Int)
  | [] => .ok none
  | [0x08, n] => if n < 0x80 then .ok (some n.toNat) else .error "invalid varint"
  | _ => .error "unexpected bytes"

/-- prost for the frames of the examples: a header is empty or holds one small job id. -/
def prost : Prost where
  header
    | [] => .ok {}
    | [0x59, jobid, 0, 0, 0, 0, 0, 0, 0] => .ok { jobidTarget := some jobid.toUInt64 }
    | _ => .error "unexpected bytes"
  multi
    | 0x12 :: n :: payload =>
        if payload.length = n.toNat ∧ n < 0x80 then .ok { messageBody := some payload }
        else .error "buffer underflow"
    | _ => .error "unexpected bytes"
  loggedOff body := (eresult body).map fun e => { eresult := e }
  logonResponse body := (eresult body).map fun e => { eresult := e }
  gzip _ := ([], some "invalid gzip header")

/-- A frame addressed to the job `jobid`, or to none if that is zero. -/
def frame (emsg : UInt32) (jobid : UInt8) (body : Bytes) : Bytes :=
  encodeRaw emsg (if jobid = 0 then [] else [0x59, jobid, 0, 0, 0, 0, 0, 0, 0]) body

/-- The frame of an accepted logon. -/
def logonFrame : Bytes := frame emsgClientLogonResponse 0 [0x08, 0x01]

/-- A frame as it comes off the socket. -/
def item (frame : Bytes) : WsItem := .msg (.binary frame)

/-- A `Multi` batch of frames. -/
def batch (frames : List Bytes) : WsItem :=
  let payload := frames.flatMap fun frame => leBytes (UInt32.ofNat frame.length) ++ frame
  item (frame emsgMulti 0 (0x12 :: UInt8.ofNat payload.length :: payload))

/-- A session whose logon response came alone. -/
def session : SessionDriver :=
  (SessionDriver.spawn prost 0 [item logonFrame]).get (by decide)

/-- A session whose logon response came in a batch with a `ClientLoggedOff` behind it. -/
def loggedOffAtOnce : SessionDriver :=
  (SessionDriver.spawn prost 0 [batch [logonFrame, frame emsgClientLoggedOff 0 []]]).get
    (by decide)

/-- That session after the logoff was read. -/
def loggedOff : SessionDriver :=
  (Ledger.exec (SessionDriver.step prost) loggedOffAtOnce [.poll, .closed]).get (by decide)

/-- A session that its owner logged off. -/
def closed : SessionDriver :=
  (Ledger.exec (SessionDriver.step prost) session
    [.command (some (.logoff 3)) none, .closed]).get (by decide)

/-- A session in which a request was sent and answered. -/
def answered : SessionDriver :=
  (Ledger.exec (SessionDriver.step prost) session
    [.command (some (.request 151 [] (fromSecs 30) 7)) none, .poll,
      .item 1 (item (frame 147 1 []))]).get (by decide)

/-- A session in which a friends list was pushed, and after it another one. -/
def friendsPushed : SessionDriver :=
  (Ledger.exec (SessionDriver.step prost) session
    [.poll, .item 1 (item (frame 767 0 [0x08, 0x00])), .poll,
      .item 2 (item (frame 767 0 [0x08, 0x01]))]).get (by decide)

end Sample

end Steamroids
