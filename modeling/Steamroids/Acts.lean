import Mathlib.Logic.Relation
import Steamroids.Driver

/-!
# What a Step of the Driver Does

Every step of the driver is a short sequence of acts: a command is answered, an item is
received, a message is routed or broadcast, the requests are swept or failed, the phase
changes. `Act` lists them with everything each one changes; `step_acts` splits a step into
acts. An invariant of the driver that does not speak of the phase is then proved act by
act (`Reachable.invariant`).

What holds between steps in each phase is `Resting`, proved directly of steps.

## Main results

* `runConnected_branch`, `step_takes`: the inversions of an iteration of the connected
  loop and of a step.
* `step_resting`: a step leads from a resting state to a resting state.
* `step_acts`: a step from a resting state is a sequence of acts.
* `Reachable.invariant`: what `spawn` establishes and every act keeps holds after every run.
-/

namespace Steamroids

namespace SessionDriver

variable {P : Prost} {d d' : SessionDriver}

attribute [simp] emit reply publish

/-! ### The building blocks -/

/-- The effects of broadcasting an arrival. -/
def announce (a : Arrival) : List Effect :=
  if a.msg.emsg ∈ postLoginSnapshotEmsgs then [.offered a, .broadcast a] else [.broadcast a]

/-- To announce a message is to offer it to the cache or to broadcast it. -/
theorem mem_announce {a : Arrival} {e : Effect} (h : e ∈ announce a) :
    e = .offered a ∨ e = .broadcast a := by
  by_cases hs : a.msg.emsg ∈ postLoginSnapshotEmsgs
  · simpa [announce, hs] using h
  · exact .inr (by simpa [announce, hs] using h)

/-- The cache after an unsolicited message. -/
def cacheAfter (cache : AList fun _ : UInt32 => Bytes) (msg : SteamMessage) :
    AList fun _ : UInt32 => Bytes :=
  if msg.emsg ∈ postLoginSnapshotEmsgs ∧ cache.lookup msg.emsg = none then
    cache.insert msg.emsg msg.body
  else
    cache

/-- The message the driver takes next, as it is stamped. -/
def arrival (d : SessionDriver) (msg : SteamMessage) : Arrival := ⟨d.conn, d.arrivals, msg⟩

/-- A message that a request waits for resolves it. -/
theorem dispatch_of_some {msg : SteamMessage} {jobid : UInt64} {entry : Pending}
    (h : d.waiter msg = some (jobid, entry)) :
    d.dispatch msg =
      { d with
        arrivals := d.arrivals + 1
        pending := d.pending.erase jobid
        log := d.log ++
          [.replied entry.reply (.ok (d.arrival msg)) (!d.isClosed entry.reply)] } := by
  have h' : { d with arrivals := d.arrivals + 1 }.waiter msg = some (jobid, entry) := h
  simp only [dispatch, h']
  rfl

/-- A message that no request waits for is announced. -/
theorem dispatch_of_none {msg : SteamMessage} (h : d.waiter msg = none) :
    d.dispatch msg =
      { d with
        arrivals := d.arrivals + 1
        snapshots := cacheAfter d.snapshots msg
        log := d.log ++ announce (d.arrival msg) } := by
  have h' : { d with arrivals := d.arrivals + 1 }.waiter msg = none := h
  simp only [dispatch, h', unsolicited, cacheAfter, announce, arrival]
  by_cases hs : msg.emsg ∈ postLoginSnapshotEmsgs
  · rcases hc : d.snapshots.lookup msg.emsg with _ | body
    · simp [hs, offer, hc]
    · simp [hs, offer, hc]
  · simp [hs]

/-- `d'` is `d` after some work within one connection: what `reconnect` and the ends of the
loops change is the same. -/
structure Steady (d d' : SessionDriver) : Prop where
  conn : d'.conn = d.conn
  steamId : d'.steamId = d.steamId
  state : d'.state = d.state
  phase : d'.phase = d.phase
  abandoned : d'.abandoned = d.abandoned

/-- Being steady composes. -/
theorem Steady.trans {d'' : SessionDriver} (h : Steady d d') (h' : Steady d' d'') :
    Steady d d'' :=
  ⟨h'.conn.trans h.conn, h'.steamId.trans h.steamId, h'.state.trans h.state,
    h'.phase.trans h.phase, h'.abandoned.trans h.abandoned⟩

/-- To dispatch a message is steady. -/
theorem dispatch_steady (d : SessionDriver) (msg : SteamMessage) : Steady d (d.dispatch msg) := by
  rcases h : d.waiter msg with _ | ⟨jobid, entry⟩
  · rw [dispatch_of_none h]
    exact ⟨rfl, rfl, rfl, rfl, rfl⟩
  · rw [dispatch_of_some h]
    exact ⟨rfl, rfl, rfl, rfl, rfl⟩

/-- To dispatch a message takes nothing from the inbox. -/
@[simp] theorem dispatch_inbox (d : SessionDriver) (msg : SteamMessage) :
    (d.dispatch msg).inbox = d.inbox := by
  rcases h : d.waiter msg with _ | ⟨jobid, entry⟩
  · rw [dispatch_of_none h]
  · rw [dispatch_of_some h]

/-- To dispatch what is left of the inbox is steady. -/
theorem drain_steady (d : SessionDriver) (msgs : List SteamMessage) :
    Steady d (d.drain msgs) := by
  induction msgs generalizing d with
  | nil => exact ⟨rfl, rfl, rfl, rfl, rfl⟩
  | cons msg rest ih =>
      have hpop : Steady d { d with inbox := rest } := ⟨rfl, rfl, rfl, rfl, rfl⟩
      exact (hpop.trans (dispatch_steady _ msg)).trans (ih _)

/-- A drained inbox is empty. -/
@[simp] theorem drainInbox_inbox (d : SessionDriver) : d.drainInbox.inbox = [] := by
  have key : ∀ (msgs : List SteamMessage) (e : SessionDriver), e.inbox = msgs →
      (e.drain msgs).inbox = [] := by
    intro msgs
    induction msgs with
    | nil => exact fun e h => h
    | cons msg rest ih => exact fun e _ => ih _ (dispatch_inbox _ msg)
  exact key d.inbox d rfl

/-- The branch of the commands is steady. -/
theorem onCommand_steady (d : SessionDriver) (c : Option Command) (write : Option String) :
    Steady d (d.onCommand c write).1 := by
  rcases c with _ | ⟨emsg, body, deadline, ch⟩ | ⟨emsg, body, ch⟩ | ch
  · exact ⟨rfl, rfl, rfl, rfl, rfl⟩
  · cases write <;> exact ⟨rfl, rfl, rfl, rfl, rfl⟩
  · exact ⟨rfl, rfl, rfl, rfl, rfl⟩
  · exact ⟨rfl, rfl, rfl, rfl, rfl⟩

/-- The branch of the reader is steady. -/
theorem onReceived_steady (d : SessionDriver) (r : Except Error SteamMessage) :
    Steady d (d.onReceived P r).1 := by
  rcases r with e | msg
  · exact ⟨rfl, rfl, rfl, rfl, rfl⟩
  · by_cases h : msg.emsg = emsgClientLoggedOff
    · simp only [onReceived, h, if_true]
      exact ⟨rfl, rfl, rfl, rfl, rfl⟩
    · simp only [onReceived, h, if_false]
      exact dispatch_steady d msg

/-- The branch of the heartbeat is steady. -/
theorem onHeartbeat_steady (d : SessionDriver) (write ping : Option String) :
    Steady d (d.onHeartbeat write ping).1 := by
  cases write <;> exact ⟨rfl, rfl, rfl, rfl, rfl⟩

/-- The branch of the sweep is steady. -/
theorem onSweep_steady (d : SessionDriver) (now : Nat) : Steady d (d.onSweep now).1 := by
  by_cases h : d.readIdleExpired now <;> simp only [onSweep, h] <;>
    exact ⟨rfl, rfl, rfl, rfl, rfl⟩

/-- What the sweep does with an entry that it removes. -/
theorem sweepEntry_cases {now : Nat} {entry : Pending} {e : Effect}
    (h : d.sweepEntry now entry = some e) :
    (e = .reaped entry.reply ∧ d.isClosed entry.reply) ∨
      e = .replied entry.reply (.error (.timeout "steam request")) true := by
  simp only [sweepEntry] at h
  split at h
  · exact .inl ⟨(Option.some.inj h).symm, ‹_›⟩
  · split at h
    · exact .inr (Option.some.inj h).symm
    · cases h

/-- What the sweep does, over the whole table. -/
theorem mem_swept {now : Nat} {e : Effect}
    (h : e ∈ d.pending.entries.filterMap fun entry => d.sweepEntry now entry.2) :
    ∃ entry : Pending, (e = .reaped entry.reply ∧ d.isClosed entry.reply) ∨
      e = .replied entry.reply (.error (.timeout "steam request")) true := by
  obtain ⟨entry, -, hentry⟩ := List.mem_filterMap.mp h
  exact ⟨entry.2, sweepEntry_cases hentry⟩

/-! ### Inversion of the connected loop -/

/-- The state in which a waiting reader has decoded an item into its empty inbox. -/
def received (P : Prost) (d : SessionDriver) (now : Nat) (it : WsItem) : SessionDriver :=
  { d.touch now it with inbox := (itemMessages P it).getD [] }.emit (.yielded d.conn it)

/-- One iteration of the connected loop, by the branch of the `select!` that it takes. -/
inductive Branch (P : Prost) (d : SessionDriver) (l : ConnectedLoop) :
    Input → SessionDriver → Turn → Prop
  | command (c : Option Command) (write : Option String) :
      Branch P d l (.command c write) (d.onCommand c write).1
        (.ofBranch l (d.onCommand c write).2)
  | park : d.inbox = [] → Branch P d l .poll d (.again { l with reading := .parked })
  | wait : l.reading = .parked → Branch P d l .poll d (.again l)
  | pop {msg : SteamMessage} {rest : List SteamMessage} : d.inbox = msg :: rest →
      Branch P d l .poll ({ d with inbox := rest }.onReceived P (.ok msg)).1
        (.ofBranch l ({ d with inbox := rest }.onReceived P (.ok msg)).2)
  | skip (now : Nat) {it : WsItem} : l.reading = .parked → d.inbox = [] →
      itemMessages P it = some [] →
      Branch P d l (.item now it) (received P d now it) (.again l)
  | receive (now : Nat) {it : WsItem} {msg : SteamMessage} {rest : List SteamMessage} :
      l.reading = .parked → d.inbox = [] → itemMessages P it = some (msg :: rest) →
      Branch P d l (.item now it)
        ({ received P d now it with inbox := rest }.onReceived P (.ok msg)).1
        (.ofBranch l ({ received P d now it with inbox := rest }.onReceived P (.ok msg)).2)
  | cut (now : Nat) {it : WsItem} : l.reading = .parked → d.inbox = [] →
      itemMessages P it = none →
      Branch P d l (.item now it) (received P d now it) (.exit .disconnected)
  | heartbeat (now : Nat) (write ping : Option String) : l.nextHeartbeat ≤ now →
      Branch P d l (.heartbeat now write ping) (d.onHeartbeat write ping).1
        (.ofBranch { l with nextHeartbeat := now + d.heartbeat } (d.onHeartbeat write ping).2)
  | sweep (now : Nat) : l.nextSweep ≤ now →
      Branch P d l (.sweep now) (d.onSweep now).1
        (.ofBranch { l with nextSweep := now + pendingSweepInterval } (d.onSweep now).2)

/-- The inversion of `runConnected`, from a state whose reader waits only with an empty
inbox. -/
theorem runConnected_branch {l : ConnectedLoop} {i : Input} {r : SessionDriver × Turn}
    (hpark : l.reading = .parked → d.inbox = [])
    (h : d.runConnected P l i = some r) : Branch P d l i r.1 r.2 := by
  cases i with
  | command c write =>
      simp only [runConnected, Option.some.injEq] at h
      subst h
      exact .command c write
  | poll =>
      rcases hread : l.reading with _ | _
      · rcases hin : d.inbox with _ | ⟨msg, rest⟩
        · simp only [runConnected, hread, hin, Option.some.injEq] at h
          subst h
          exact .park hin
        · simp only [runConnected, hread, hin, Option.some.injEq] at h
          subst h
          exact .pop hin
      · simp only [runConnected, hread, Option.some.injEq] at h
        subst h
        exact .wait hread
  | item now it =>
      rcases hread : l.reading with _ | _
      · simp [runConnected, hread] at h
      · have hin := hpark hread
        have hin' : (d.touch now it).inbox = [] := hin
        rcases hit : itemMessages P it with _ | msgs
        · obtain ⟨e, he⟩ := readMessage_of_none hit []
          simp only [runConnected, hread, emit, hin', he, onReceived, Option.some.injEq] at h
          subst h
          have hb : Branch P d l (.item now it) (received P d now it) (.exit .disconnected) :=
            .cut now hread hin hit
          simpa only [received, emit, hit, Option.getD_none, Turn.ofBranch] using hb
        · have hr := readMessage_of_some hit
          cases msgs with
          | nil =>
              simp only [runConnected, hread, emit, hin', hr, List.head?_nil, Option.map_none,
                List.tail_nil, Option.some.injEq] at h
              subst h
              have hb := Branch.skip (l := l) now hread hin hit
              simpa only [received, emit, hit, Option.getD_some] using hb
          | cons msg rest =>
              simp only [runConnected, hread, emit, hin', hr, List.head?_cons, Option.map_some,
                List.tail_cons, Option.some.injEq] at h
              subst h
              exact .receive now hread hin hit
  | heartbeat now write ping =>
      simp only [runConnected] at h
      split at h
      · rename_i hle
        obtain rfl := Option.some.inj h
        exact .heartbeat now write ping hle
      · cases h
  | sweep now =>
      simp only [runConnected] at h
      split at h
      · rename_i hle
        obtain rfl := Option.some.inj h
        exact .sweep now hle
      · cases h
  | wake => cases h
  | attempt now r => cases h
  | closed => cases h
  | abandon ch => cases h

/-! ### Inversion of a step -/

/-- The driver is in one of the two `select!`s of `reconnect`. -/
def Down (d : SessionDriver) : Prop :=
  (∃ secs, d.phase = .backoff secs) ∨ ∃ secs, d.phase = .connecting secs

/-- One step of the driver task, by where the task was suspended. -/
inductive Takes (P : Prost) (d : SessionDriver) : Input → SessionDriver → Prop
  | abandon (ch : Chan) :
      Takes P d (.abandon ch) { d with abandoned := ch :: d.abandoned }
  | loop {l : ConnectedLoop} {i : Input} {r : SessionDriver × Turn} :
      d.phase = .connected l → (∀ c write, i = .command c write → d.isNew c) →
      d.runConnected P l i = some r → Takes P d i (resume r)
  | commandDown (c : Option Command) (write : Option String) :
      d.Down → d.isNew c → Takes P d (.command c write) (d.onCommandDown c)
  | wake {secs : Nat} : d.phase = .backoff secs →
      Takes P d .wake { d.emit .dialed with phase := .connecting secs }
  | refused {secs : Nat} (now : Nat) (e : Error) : d.phase = .connecting secs →
      e.isAuthRejected = false →
      Takes P d (.attempt now (.error e))
        { d.emit (.refused e) with phase := .backoff (min (secs * 2) maxBackoff) }
  | rejected {secs : Nat} (now : Nat) (e : Error) : d.phase = .connecting secs →
      e.isAuthRejected = true →
      Takes P d (.attempt now (.error e)) ((d.emit (.refused e)).finish (.error e))
  | live {secs : Nat} {items : List WsItem} {c : CmConnection × LoggedOn} (now : Nat) :
      d.phase = .connecting secs → establish P items = some c →
      Takes P d (.attempt now (.ok items)) (d.goLive now items c.1 c.2)
  | closed {result : Except Error String} : d.phase = .closing result →
      Takes P d .closed (d.conclude result)

/-- The inversion of `step`. -/
theorem step_takes {i : Input} (h : d.step P i = some d') : Takes P d i d' := by
  have hloop : ∀ l, d.phase = .connected l → (∀ c write, i = .command c write → d.isNew c) →
      (d.runConnected P l i).map resume = some d' → Takes P d i d' := by
    intro l hph hnew hstep
    obtain ⟨r, hr, rfl⟩ := Option.map_eq_some_iff.mp hstep
    exact .loop hph hnew hr
  cases i with
  | abandon ch =>
      obtain rfl := Option.some.inj h
      exact .abandon ch
  | poll | item now it | heartbeat now write ping | sweep now =>
      rcases hph : d.phase with l | secs | secs | result | result <;>
        simp only [step, hph, reduceCtorEq] at h
      exact hloop l hph (by simp) h
  | command c write =>
      by_cases hnew : d.isNew c
      · rcases hph : d.phase with l | secs | secs | result | result <;>
          simp only [step, hnew, if_true, hph, reduceCtorEq, Option.some.injEq] at h
        · refine hloop l hph ?_ h
          rintro _ _ ⟨⟩
          exact hnew
        · subst h
          exact .commandDown c write (.inl ⟨secs, hph⟩) hnew
        · subst h
          exact .commandDown c write (.inr ⟨secs, hph⟩) hnew
      · simp [step, hnew] at h
  | wake =>
      rcases hph : d.phase with l | secs | secs | result | result <;>
        simp only [step, hph, reduceCtorEq, Option.some.injEq] at h
      subst h
      exact .wake hph
  | attempt now r =>
      rcases hph : d.phase with l | secs | secs | result | result <;>
        simp only [step, hph, reduceCtorEq] at h
      rcases r with e | items
      · by_cases hrej : e.isAuthRejected
        · simp only [onAttempt, hrej, if_true, Option.some.injEq] at h
          subst h
          exact .rejected now e hph hrej
        · simp only [onAttempt, hrej, Bool.false_eq_true, if_false, Option.some.injEq] at h
          subst h
          exact .refused now e hph (by simpa using hrej)
      · obtain ⟨c, hc, rfl⟩ := Option.map_eq_some_iff.mp h
        exact .live now hph hc
  | closed =>
      rcases hph : d.phase with l | secs | secs | result | result <;>
        simp only [step, hph, reduceCtorEq, Option.some.injEq] at h
      subst h
      exact .closed hph

/-- A connected driver goes through its loop, unless a caller gives up. -/
theorem step_connected {l : ConnectedLoop} {i : Input} (hph : d.phase = .connected l)
    (h : d.step P i = some d') :
    (∃ ch, i = .abandon ch ∧ d' = { d with abandoned := ch :: d.abandoned }) ∨
      ∃ r, d.runConnected P l i = some r ∧ d' = resume r := by
  cases step_takes h with
  | abandon ch => exact .inl ⟨ch, rfl, rfl⟩
  | @loop l' _ r hph' _ hr =>
      obtain rfl : l = l' := Phase.connected.inj (hph.symm.trans hph')
      exact .inr ⟨r, hr, rfl⟩
  | commandDown c write hdown _ => rcases hdown with ⟨s, hs⟩ | ⟨s, hs⟩ <;> simp [hph] at hs
  | wake hph' => simp [hph] at hph'
  | refused now e hph' _ => simp [hph] at hph'
  | rejected now e hph' _ => simp [hph] at hph'
  | live now hph' _ => simp [hph] at hph'
  | closed hph' => simp [hph] at hph'

/-- A connection is live once the answer to its logon has been read from an open stream. -/
theorem establish_answered {items : List WsItem} {c : CmConnection × LoggedOn}
    (h : establish P items = some c) :
    ∃ conn skipped answer, StreamOpen P items ∧
      decodedPrefix P items = skipped ++ answer :: c.1.inbox ∧
      (∀ m ∈ skipped, m.answersLogon = false) ∧ answer.answersLogon = true ∧
      CmConnection.connect.logonMessage P answer = some (.ok (conn, c.2)) ∧
      c.1 = { conn with inbox := c.1.inbox } := by
  simp only [establish] at h
  split at h
  · rename_i conn logged inbox hlogon
    obtain rfl := Option.some.inj h
    generalize hl : (⟨.ok (conn, logged), inbox, []⟩ : LogonEnd) = l at hlogon
    cases logon_spec hlogon with
    | @answered used skipped answer hopen hdec hskip hans hresult =>
        subst hl
        rw [List.append_nil]
        exact ⟨conn, skipped, answer, hopen, hdec, hskip, hans, hresult, rfl⟩
    | cut _ _ _ _ herr =>
        subst hl
        obtain ⟨e, he⟩ := herr
        cases he
  · cases h

/-! ### Between steps -/

/-- What holds of the driver while it is suspended. -/
def Resting (d : SessionDriver) : Prop :=
  match d.phase with
  | .connected l => d.state = .loggedOn d.steamId ∧ (l.reading = .parked → d.inbox = [])
  | .backoff _ => d.state = .connecting ∧ d.pending = ∅ ∧ d.inbox = []
  | .connecting _ => d.state = .connecting ∧ d.pending = ∅ ∧ d.inbox = []
  | .closing _ => d.pending = ∅
  | .stopped _ => d.pending = ∅

/-- While the socket is down, nothing is pending and the inbox is empty. -/
theorem Resting.of_down (h : d.Resting) (hdown : d.Down) :
    d.state = .connecting ∧ d.pending = ∅ ∧ d.inbox = [] := by
  rcases hdown with ⟨secs, hph⟩ | ⟨secs, hph⟩
  · simpa only [Resting, hph] using h
  · simpa only [Resting, hph] using h

/-- A driver that has finished is at rest. -/
theorem finish_resting (d : SessionDriver) (result : Except Error String) :
    (d.finish result).Resting := by
  simp [Resting, finish, failAllPending]

/-- A driver that has left its loop is at rest, whatever the reason. -/
theorem leave_resting (d : SessionDriver) (x : LoopExit) : (d.leave x).Resting := by
  cases x with
  | shutdown => exact finish_resting d _
  | loggedOff reason => exact finish_resting d _
  | disconnected =>
      have hph := (drain_steady { d with phase := .backoff initialBackoff } d.inbox).phase
      have hin := drainInbox_inbox { d with phase := .backoff initialBackoff }
      simp only [drainInbox] at hin
      simp only [Resting, leave, drainInbox, failAllPending, publish, emit, hph, hin, and_self]

/-- Every branch of the loop is steady. -/
theorem Branch.steady {l : ConnectedLoop} {i : Input} {t : Turn} (h : Branch P d l i d' t) :
    Steady d d' := by
  have hrec : ∀ now it, Steady d (received P d now it) := fun _ _ => ⟨rfl, rfl, rfl, rfl, rfl⟩
  cases h with
  | command c write => exact onCommand_steady d c write
  | park _ => exact ⟨rfl, rfl, rfl, rfl, rfl⟩
  | wait _ => exact ⟨rfl, rfl, rfl, rfl, rfl⟩
  | pop _ =>
      have hpop : ∀ rest, Steady d { d with inbox := rest } := fun _ => ⟨rfl, rfl, rfl, rfl, rfl⟩
      exact (hpop _).trans (onReceived_steady _ _)
  | skip now _ _ _ => exact hrec now _
  | @receive now it msg rest _ _ _ =>
      have hpop : Steady d { received P d now it with inbox := rest } := ⟨rfl, rfl, rfl, rfl, rfl⟩
      exact hpop.trans (onReceived_steady _ _)
  | cut now _ _ _ => exact hrec now _
  | heartbeat now write ping _ => exact onHeartbeat_steady d write ping
  | sweep now _ => exact onSweep_steady d now

/-- A reader left waiting has an empty inbox: every completed branch drops the reader, so it is
fresh in the next iteration. -/
theorem Branch.parked {l l' : ConnectedLoop} {i : Input}
    (hin : l.reading = .parked → d.inbox = []) (h : Branch P d l i d' (.again l'))
    (hpark : l'.reading = .parked) : d'.inbox = [] := by
  have hfresh : ∀ {x l₀}, Turn.again l' = .ofBranch l₀ x → l'.reading = .fresh := by
    intro x l₀ hx
    cases x with
    | none =>
        obtain rfl := Turn.again.inj hx
        rfl
    | some x => cases hx
  generalize ht : Turn.again l' = t at h
  cases h with
  | park hin => exact hin
  | wait hread =>
      obtain rfl := Turn.again.inj ht
      exact hin hread
  | skip now hread hin hit =>
      simp [received, hit]
  | cut now hread hin hit => cases ht
  | command c write => rw [hfresh ht] at hpark; cases hpark
  | pop hin => rw [hfresh ht] at hpark; cases hpark
  | receive now hread hin hit => rw [hfresh ht] at hpark; cases hpark
  | heartbeat now write ping hle => rw [hfresh ht] at hpark; cases hpark
  | sweep now hle => rw [hfresh ht] at hpark; cases hpark

/-- **Step lemma.** A driver at rest is at rest after every step. -/
theorem step_resting {i : Input} (h : d.step P i = some d') (hd : d.Resting) : d'.Resting := by
  cases step_takes h with
  | abandon ch => exact hd
  | @loop l i r hph hnew hr =>
      simp only [Resting, hph] at hd
      have hb := runConnected_branch hd.2 hr
      rcases hr2 : r.2 with l' | x
      · rw [hr2] at hb
        simp only [Resting, resume, hr2]
        exact ⟨by rw [hb.steady.state, hb.steady.steamId, hd.1], hb.parked hd.2⟩
      · simp only [resume, hr2]
        exact leave_resting r.1 x
  | commandDown c write hdown hnew =>
      obtain ⟨hst, hpend, hin⟩ := hd.of_down hdown
      have hstay : ∀ log', Resting { d with log := log' } := by
        intro log'
        rcases hdown with ⟨secs, hph⟩ | ⟨secs, hph⟩
        · simp [Resting, hph, hst, hpend, hin]
        · simp [Resting, hph, hst, hpend, hin]
      rcases c with _ | ⟨emsg, body, deadline, ch⟩ | ⟨emsg, body, ch⟩ | ch
      · exact finish_resting _ _
      · exact hstay _
      · exact hstay _
      · exact finish_resting _ _
  | wake hph =>
      simp only [Resting, hph] at hd
      exact hd
  | refused now e hph _ =>
      simp only [Resting, hph] at hd
      exact hd
  | rejected now e hph _ => exact finish_resting _ _
  | live now hph hc => exact ⟨rfl, nofun⟩
  | @closed result hph =>
      simp only [Resting, hph] at hd
      cases result <;> exact hd

/-- What `spawn` starts from. -/
structure Spawned (d : SessionDriver) (items : List WsItem) (c : CmConnection × LoggedOn) :
    Prop where
  inbox : d.inbox = c.1.inbox
  nextJobid : d.nextJobid = 1
  pending : d.pending = ∅
  state : d.state = .loggedOn c.2.steamId
  snapshots : d.snapshots = ∅
  phase : ∃ l, d.phase = .connected l ∧ l.reading = .fresh
  abandoned : d.abandoned = []
  conn : d.conn = 0
  arrivals : d.arrivals = 0
  log : d.log = [.adopted 0 items, .cleared, .published (.loggedOn c.2.steamId)]

/-- What is spawned is what the logon has established. -/
theorem spawn_spec {now : Nat} {items : List WsItem} (h : spawn P now items = some d) :
    ∃ c, establish P items = some c ∧ Spawned d items c := by
  obtain ⟨c, hc, rfl⟩ := Option.map_eq_some_iff.mp h
  exact ⟨c, hc, rfl, rfl, rfl, rfl, rfl, ⟨_, rfl, rfl⟩, rfl, rfl, rfl, rfl⟩

/-- A driver is spawned at rest. -/
theorem spawn_resting {now : Nat} {items : List WsItem} (h : spawn P now items = some d) :
    d.Resting := by
  obtain ⟨c, -, rfl⟩ := Option.map_eq_some_iff.mp h
  exact ⟨rfl, nofun⟩

/-! ### Acts -/

/-- The acts of the driver, with everything that each of them changes. -/
inductive Act (P : Prost) (d : SessionDriver) : SessionDriver → Prop
  /-- A caller drops its receiver. -/
  | abandon (ch : Chan) : Act P d { d with abandoned := ch :: d.abandoned }
  /-- The task moves on inside the connected loop, or out of a loop. -/
  | turn {l : ConnectedLoop} (l' : ConnectedLoop) : d.phase = .connected l →
      Act P d { d with phase := .connected l' }
  | exit (ph : Phase) : (∀ l, ph ≠ .connected l) → Act P d { d with phase := ph }
  /-- The queue is seen closed. -/
  | gone : Act P d (d.emit .handlesGone)
  | notify (emsg : UInt32) (body : Bytes) (ack : Chan) (write : Option String) :
      d.isNew (some (.notify emsg body ack)) →
      Act P d { d with
        log := d.log ++ [.took (.notify emsg body ack),
          .wrote d.conn (d.frame emsg none body) none write.isNone,
          .acked ack (writeResult write)] }
  | logoff (ack : Chan) (write : Option String) : d.isNew (some (.logoff ack)) →
      Act P d { d with
        log := d.log ++ [.took (.logoff ack),
          .wrote d.conn (d.frame emsgClientLogoff none []) none write.isNone,
          .acked ack (.ok ())] }
  | request (emsg : UInt32) (body : Bytes) (deadline : Nat) (ch : Chan) :
      d.isNew (some (.request emsg body deadline ch)) →
      Act P d { d with
        nextJobid := bumpJobid d.nextJobid
        pending := d.pending.insert d.nextJobid { reply := ch, deadline }
        log := d.log ++ [.took (.request emsg body deadline ch),
          .wrote d.conn (d.frame emsg (some d.nextJobid) body) (some ch) true] }
  | requestFailed (emsg : UInt32) (body : Bytes) (deadline : Nat) (ch : Chan) :
      d.isNew (some (.request emsg body deadline ch)) →
      Act P d { d with
        nextJobid := bumpJobid d.nextJobid
        log := d.log ++ [.took (.request emsg body deadline ch),
          .wrote d.conn (d.frame emsg (some d.nextJobid) body) (some ch) false,
          .replied ch (.error (.webSocket "session reconnecting")) (!d.isClosed ch)] }
  /-- A command is answered while the socket is down. -/
  | logoffDown (ack : Chan) : d.isNew (some (.logoff ack)) →
      Act P d { d with log := d.log ++ [.took (.logoff ack), .acked ack (.ok ())] }
  | requestDown (emsg : UInt32) (body : Bytes) (deadline : Nat) (ch : Chan) :
      d.isNew (some (.request emsg body deadline ch)) →
      Act P d { d with
        log := d.log ++ [.took (.request emsg body deadline ch),
          .replied ch (.error (.webSocket "session reconnecting")) (!d.isClosed ch)] }
  | notifyDown (emsg : UInt32) (body : Bytes) (ack : Chan) :
      d.isNew (some (.notify emsg body ack)) →
      Act P d { d with
        log := d.log ++ [.took (.notify emsg body ack),
          .acked ack (.error (.webSocket "session reconnecting"))] }
  /-- The waiting reader decodes an item into its empty inbox. -/
  | receive {l : ConnectedLoop} (now : Nat) {it : WsItem} {msgs : List SteamMessage} :
      d.phase = .connected l → d.inbox = [] → itemMessages P it = some msgs →
      Act P d { d with
        liveness := if it.touches then now else d.liveness
        inbox := msgs
        log := d.log ++ [.yielded d.conn it] }
  /-- The waiting reader meets an item that ends the stream, and the loop is left. -/
  | cut {l : ConnectedLoop} (now : Nat) {it : WsItem} :
      d.phase = .connected l → d.inbox = [] → itemMessages P it = none →
      Act P d { d with
        liveness := if it.touches then now else d.liveness
        log := d.log ++ [.yielded d.conn it]
        phase := .backoff initialBackoff }
  /-- The next message of the inbox answers a pending request. -/
  | route {msg : SteamMessage} {rest : List SteamMessage} {jobid : UInt64} {entry : Pending} :
      d.inbox = msg :: rest → d.waiter msg = some (jobid, entry) →
      Act P d { d with
        inbox := rest
        arrivals := d.arrivals + 1
        pending := d.pending.erase jobid
        log := d.log ++
          [.replied entry.reply (.ok (d.arrival msg)) (!d.isClosed entry.reply)] }
  /-- The next message of the inbox answers no request and is broadcast. -/
  | announce {msg : SteamMessage} {rest : List SteamMessage} :
      d.inbox = msg :: rest → d.waiter msg = none →
      Act P d { d with
        inbox := rest
        arrivals := d.arrivals + 1
        snapshots := cacheAfter d.snapshots msg
        log := d.log ++ SessionDriver.announce (d.arrival msg) }
  /-- The next message of the inbox is a `ClientLoggedOff`, and the loop is left. -/
  | evict {l : ConnectedLoop} {msg : SteamMessage} {rest : List SteamMessage} (ph : Phase) :
      d.phase = .connected l → d.inbox = msg :: rest → msg.emsg = emsgClientLoggedOff →
      (∀ l', ph ≠ .connected l') →
      Act P d { d with
        inbox := rest
        arrivals := d.arrivals + 1
        log := d.log ++ [.evicted (d.arrival msg)]
        phase := ph }
  | heartbeat (write : Option String) :
      Act P d { d with
        log := d.log ++ [.wrote d.conn (d.frame emsgClientHeartbeat none []) none write.isNone] }
  | ping (sent : Bool) : Act P d (d.emit (.pinged d.conn sent))
  | sweep (now : Nat) : Act P d (d.sweepPending now)
  | failAll (reason : String) :
      reason = "session reconnecting" ∨ reason = "session driver stopped" →
      Act P d (d.failAllPending reason)
  /-- The session is reported as reconnecting. -/
  | fall : d.inbox = [] → (∀ l, d.phase ≠ .connected l) → Act P d (d.publish .connecting)
  | dial {secs : Nat} : d.phase = .backoff secs →
      Act P d { d.emit .dialed with phase := .connecting secs }
  | refuse (e : Error) : Act P d (d.emit (.refused e))
  | live {items : List WsItem} {c : CmConnection × LoggedOn} (now : Nat) :
      d.state = .connecting → d.pending = ∅ → d.inbox = [] → establish P items = some c →
      Act P d { d with
        inbox := c.1.inbox
        liveness := now
        steamId := c.1.steamId
        sessionId := c.1.sessionId
        heartbeat := c.2.heartbeatInterval
        conn := d.conn + 1
        snapshots := ∅
        state := .loggedOn c.1.steamId
        phase := .connected
          { nextHeartbeat := now + c.2.heartbeatInterval
            nextSweep := now + pendingSweepInterval
            reading := .fresh }
        log := d.log ++
          [.adopted (d.conn + 1) items, .cleared, .published (.loggedOn c.1.steamId)] }
  /-- `run` returns. -/
  | stop (reason : String) :
      Act P d { d with
        state := .loggedOff reason
        phase := .stopped (.ok ())
        log := d.log ++ [.published (.loggedOff reason), .returned (.ok ())] }
  | fail (e : Error) :
      Act P d { d with
        state := .failed e.display
        phase := .stopped (.error e)
        log := d.log ++ [.published (.failed e.display), .returned (.error e)] }

/-- The ledger only grows. -/
theorem Act.log_append (h : Act P d d') : ∃ es, d'.log = d.log ++ es := by
  cases h with
  | abandon ch => exact ⟨[], (List.append_nil _).symm⟩
  | turn l' _ => exact ⟨[], (List.append_nil _).symm⟩
  | exit ph _ => exact ⟨[], (List.append_nil _).symm⟩
  | _ => exact ⟨_, rfl⟩

/-- A sequence of acts. -/
abbrev Acts (P : Prost) : SessionDriver → SessionDriver → Prop :=
  Relation.ReflTransGen (Act P)

/-- The phase into which the connected loop is left. -/
def exitPhase : LoopExit → Phase
  | .shutdown => .closing (.ok "session closed")
  | .loggedOff reason => .closing (.ok reason)
  | .disconnected => .backoff initialBackoff

/-- What `run` does after the connected loop, once the phase is set. -/
def windDown (d : SessionDriver) : LoopExit → SessionDriver
  | .disconnected => (d.drainInbox.failAllPending "session reconnecting").publish .connecting
  | _ => d.failAllPending "session driver stopped"

/-- Leaving the loop sets the phase and then winds down. -/
theorem leave_eq (d : SessionDriver) (x : LoopExit) :
    d.leave x = { d with phase := exitPhase x }.windDown x := by
  cases x <;> rfl

/-- No exit of the loop leads back into it. -/
theorem exitPhase_ne (x : LoopExit) (l : ConnectedLoop) : exitPhase x ≠ .connected l := by
  cases x <;> exact nofun

/-- Dispatching the next message of the inbox is one act. -/
theorem dispatch_act {msg : SteamMessage} {rest : List SteamMessage}
    (h : d.inbox = msg :: rest) : Act P d ({ d with inbox := rest }.dispatch msg) := by
  rcases hw : d.waiter msg with _ | ⟨jobid, entry⟩
  · have hw' : { d with inbox := rest }.waiter msg = none := hw
    rw [dispatch_of_none hw']
    exact .announce h hw
  · have hw' : { d with inbox := rest }.waiter msg = some (jobid, entry) := hw
    rw [dispatch_of_some hw']
    exact .route h hw

/-- The drain of the inbox is a series of acts. -/
theorem drain_acts (msgs : List SteamMessage) (h : d.inbox = msgs) :
    Acts P d (d.drain msgs) := by
  induction msgs generalizing d with
  | nil => exact .refl
  | cons msg rest ih => exact .head (dispatch_act h) (ih (dispatch_inbox _ msg))

/-- Winding down is a series of acts. -/
theorem windDown_acts (x : LoopExit) (hph : ∀ l, d.phase ≠ .connected l) :
    Acts P d (d.windDown x) := by
  cases x with
  | shutdown => exact .single (.failAll _ (.inr rfl))
  | loggedOff reason => exact .single (.failAll _ (.inr rfl))
  | disconnected =>
      have hdrain : Acts P d d.drainInbox := drain_acts d.inbox rfl
      have hph' : ∀ l, d.drainInbox.phase ≠ .connected l := by
        rw [drainInbox, (drain_steady d d.inbox).phase]
        exact hph
      exact (hdrain.tail (.failAll _ (.inl rfl))).tail (.fall (drainInbox_inbox d) hph')

/-- Leaving the loop is a series of acts. -/
theorem leave_acts (d : SessionDriver) (x : LoopExit) : Acts P d (d.leave x) := by
  rw [leave_eq]
  exact .head (.exit _ (exitPhase_ne x)) (windDown_acts x (exitPhase_ne x))

/-- A completed branch goes on or leaves the loop by further acts. -/
theorem resume_acts {l l₀ : ConnectedLoop} (hph : d.phase = .connected l₀) (x : Option LoopExit) :
    Acts P d (resume (d, .ofBranch l x)) := by
  cases x with
  | none => exact .single (.turn _ hph)
  | some x => exact leave_acts d x

/-- To handle a command is one act. -/
theorem onCommand_act (c : Option Command) (write : Option String) (hnew : d.isNew c) :
    Act P d (d.onCommand c write).1 := by
  rcases c with _ | ⟨emsg, body, deadline, ch⟩ | ⟨emsg, body, ch⟩ | ch
  · exact .gone
  · cases write with
    | none =>
        have h := Act.request (P := P) emsg body deadline ch hnew
        simpa [onCommand, sendFrame, frame, isClosed] using h
    | some e =>
        have h := Act.requestFailed (P := P) emsg body deadline ch hnew
        simpa [onCommand, sendFrame, frame, isClosed] using h
  · have h := Act.notify (P := P) emsg body ch write hnew
    simpa [onCommand, sendFrame, frame, isClosed] using h
  · have h := Act.logoff (P := P) ch write hnew
    simpa [onCommand, sendFrame, frame, isClosed] using h

/-- Handling the next message of the inbox, and what follows from it. -/
theorem onReceived_acts {l l₀ : ConnectedLoop} {msg : SteamMessage} {rest : List SteamMessage}
    (hph : d.phase = .connected l₀) (hin : d.inbox = msg :: rest) :
    Acts P d (resume (({ d with inbox := rest }.onReceived P (.ok msg)).1,
      .ofBranch l ({ d with inbox := rest }.onReceived P (.ok msg)).2)) := by
  by_cases hoff : msg.emsg = emsgClientLoggedOff
  · simp only [onReceived, hoff, if_true, Turn.ofBranch, resume, leave_eq]
    exact .head (.evict _ hph hin hoff (exitPhase_ne _)) (windDown_acts _ (exitPhase_ne _))
  · simp only [onReceived, hoff, if_false, Turn.ofBranch, resume]
    have hact : Act P d ({ d with inbox := rest }.dispatch msg) := dispatch_act hin
    have hph' := (dispatch_steady { d with inbox := rest } msg).phase
    exact (Relation.ReflTransGen.single hact).tail (.turn _ (hph'.trans hph))

/-- To receive an item is one act. -/
theorem received_act {l : ConnectedLoop} {now : Nat} {it : WsItem} {msgs : List SteamMessage}
    (hph : d.phase = .connected l) (hin : d.inbox = []) (hit : itemMessages P it = some msgs) :
    Act P d (received P d now it) := by
  have h := Act.receive now hph hin hit
  simpa [received, touch, hit] using h

/-- The heartbeat is a series of acts: the frame, and the Ping behind it. -/
theorem onHeartbeat_acts (write ping : Option String) :
    Acts P d (d.onHeartbeat write ping).1 := by
  cases write with
  | none => exact .head (.heartbeat none) (.single (.ping _))
  | some e => exact .single (.heartbeat (some e))

/-- The sweep is a series of acts, one for each request that is given up. -/
theorem onSweep_acts (now : Nat) : Acts P d (d.onSweep now).1 := by
  by_cases h : d.readIdleExpired now
  · simp only [onSweep, h, if_true]
    exact .refl
  · simp only [onSweep, h]
    exact .single (.sweep now)

/-- Every branch of the loop, with what follows it, is a series of acts. -/
theorem Branch.acts {l : ConnectedLoop} {i : Input} {t : Turn} (h : Branch P d l i d' t)
    (hph : d.phase = .connected l) (hnew : ∀ c write, i = .command c write → d.isNew c) :
    Acts P d (resume (d', t)) := by
  cases h with
  | command c write =>
      have hph' := (onCommand_steady d c write).phase
      exact .head (onCommand_act c write (hnew c write rfl)) (resume_acts (hph'.trans hph) _)
  | park hin => exact .single (.turn _ hph)
  | wait hread => exact .single (.turn _ hph)
  | pop hin => exact onReceived_acts hph hin
  | @skip now it hread hin hit =>
      have hrec : Act P d (received P d now it) := received_act hph hin hit
      exact (Relation.ReflTransGen.single hrec).tail (.turn _ hph)
  | @receive now it msg rest hread hin hit =>
      have hrec : Act P d (received P d now it) := received_act hph hin hit
      have hin' : (received P d now it).inbox = msg :: rest := by simp [received, hit]
      exact .head hrec (onReceived_acts hph hin')
  | @cut now it hread hin hit =>
      have hcut : Act P d { received P d now it with phase := .backoff initialBackoff } := by
        have h := Act.cut now hph hin hit
        simpa [received, touch, hit, hin] using h
      simp only [resume, leave_eq]
      exact .head hcut (windDown_acts .disconnected nofun)
  | heartbeat now write ping hle =>
      have hph' := (onHeartbeat_steady d write ping).phase
      exact (onHeartbeat_acts write ping).trans (resume_acts (hph'.trans hph) _)
  | sweep now hle =>
      have hph' := (onSweep_steady d now).phase
      exact (onSweep_acts now).trans (resume_acts (hph'.trans hph) _)

/-- To handle a command while the socket is down is a series of acts. -/
theorem onCommandDown_acts (c : Option Command) (hnew : d.isNew c) :
    Acts P d (d.onCommandDown c) := by
  have hfin : ∀ (e : SessionDriver) (result : Except Error String), Acts P e (e.finish result) :=
    fun e result => .head (.exit (.closing result) nofun) (.single (.failAll _ (.inr rfl)))
  rcases c with _ | ⟨emsg, body, deadline, ch⟩ | ⟨emsg, body, ch⟩ | ch
  · exact .head .gone (hfin _ _)
  · simp only [onCommandDown, answerWhileDown, Bool.false_eq_true, if_false, reply, emit,
      List.append_assoc, List.cons_append, List.nil_append]
    exact .single (.requestDown emsg body deadline ch hnew)
  · have h := Act.notifyDown (P := P) emsg body ch hnew
    exact .single (by simpa [onCommandDown, answerWhileDown] using h)
  · have h := Act.logoffDown (P := P) ch hnew
    refine .head ?_ (hfin _ _)
    simpa [answerWhileDown] using h

/-- **A step is a sequence of acts.** -/
theorem step_acts {i : Input} (h : d.step P i = some d') (hd : d.Resting) : Acts P d d' := by
  cases step_takes h with
  | abandon ch => exact .single (.abandon ch)
  | @loop l i r hph hnew hr =>
      simp only [Resting, hph] at hd
      exact (runConnected_branch hd.2 hr).acts hph hnew
  | commandDown c write hdown hnew => exact onCommandDown_acts c hnew
  | wake hph => exact .single (.dial hph)
  | refused now e hph _ => exact .head (.refuse e) (.single (.exit (.backoff _) nofun))
  | rejected now e hph _ =>
      exact .head (.refuse e) (.head (.exit (.closing _) nofun) (.single (.failAll _ (.inr rfl))))
  | live now hph hc =>
      obtain ⟨hst, hpend, hin⟩ := hd.of_down (.inr ⟨_, hph⟩)
      have h := Act.live now hst hpend hin hc
      exact .single (by simpa [goLive, enterConnected] using h)
  | @closed result hph =>
      rcases result with e | reason
      · have h := Act.fail (P := P) (d := d) e
        exact .single (by simpa [conclude] using h)
      · have h := Act.stop (P := P) (d := d) reason
        exact .single (by simpa [conclude] using h)

/-! ### Runs -/

/-- The driver states of the runs of a session: what `spawn` starts, after any inputs. -/
def Reachable (P : Prost) (d : SessionDriver) : Prop :=
  ∃ now items d₀ is, spawn P now items = some d₀ ∧ Ledger.exec (step P) d₀ is = some d

/-- A driver that was just spawned is reachable. -/
theorem Reachable.of_spawn {now : Nat} {items : List WsItem} (h : spawn P now items = some d) :
    Reachable P d :=
  ⟨now, items, d, [], h, rfl⟩

/-- What is reached from a reachable driver is reachable. -/
theorem Reachable.run {is : List Input} (hd : Reachable P d)
    (h : Ledger.exec (step P) d is = some d') : Reachable P d' := by
  obtain ⟨now, items, d₀, is₀, h₀, hrun⟩ := hd
  exact ⟨now, items, d₀, is₀ ++ is, h₀, Ledger.exec_append_eq_some.mpr ⟨d, hrun, h⟩⟩

/-- The session of the examples is reachable. -/
theorem reachable_session : Reachable Sample.prost Sample.session :=
  .of_spawn (Option.some_get _).symm

/-- The session with an answered request is reachable. -/
theorem reachable_answered : Reachable Sample.prost Sample.answered :=
  reachable_session.run (Option.some_get _).symm

/-- Every reachable driver is at rest. -/
theorem Reachable.resting (h : Reachable P d) : d.Resting := by
  obtain ⟨now, items, d₀, is, h₀, hrun⟩ := h
  exact Ledger.exec_invariant (fun _ _ _ hs hstep => step_resting hstep hs) hrun
    (spawn_resting h₀)

/-- **Invariant rule for steps.** What `spawn` establishes and every step from a resting state
keeps holds after every run. -/
theorem Reachable.invariant_of_step {I : SessionDriver → Prop}
    (hspawn : ∀ now items d₀, spawn P now items = some d₀ → I d₀)
    (hstep : ∀ d d' i, d.Resting → I d → d.step P i = some d' → I d') (h : Reachable P d) :
    I d := by
  obtain ⟨now, items, d₀, is, h₀, hrun⟩ := h
  have key : d.Resting ∧ I d := by
    refine Ledger.exec_invariant (I := fun d => d.Resting ∧ I d) ?_ hrun
      ⟨spawn_resting h₀, hspawn now items d₀ h₀⟩
    rintro s i s' ⟨hrest, hs⟩ h
    exact ⟨step_resting h hrest, hstep s s' i hrest hs h⟩
  exact key.2

/-- **Invariant rule for sessions.** What `spawn` establishes and every act keeps holds
after every run. -/
theorem Reachable.invariant {I : SessionDriver → Prop}
    (hspawn : ∀ now items d₀, spawn P now items = some d₀ → I d₀)
    (hact : ∀ d d', Act P d d' → I d → I d') (h : Reachable P d) : I d := by
  refine h.invariant_of_step hspawn ?_
  intro s s' i hrest hs hstep
  have hacts := step_acts hstep hrest
  clear hstep
  induction hacts with
  | refl => exact hs
  | tail _ hlast ih => exact hact _ _ hlast ih

end SessionDriver

end Steamroids
