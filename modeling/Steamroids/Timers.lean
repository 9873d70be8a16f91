import Steamroids.Clocked
import Steamroids.LoopEnd
import Steamroids.Requests

/-!
# The Timers of the Connected Loop

The connected loop has two timers. One sends the heartbeat, with a WebSocket Ping behind it; the
other sweeps the pending requests and watches for silence on the socket. Here the driver is run
against a clock, with a bound on how late its timers are served.

## Main results

* `step_ticks`: what a step does to the timers and to what is measured by them.
* `TimedRun.invariant`: the rule for what holds on timed runs.
* `TimedRun.ledger`: without its instants, the ledger of a timed run is that of the driver.
* `Reachable.adoptions`: the heartbeat interval is the one of the current connection.
-/

namespace Steamroids

/-! ### The driver against a clock -/

/-- The instant that an input has read from the clock. -/
def Input.stamp : Input → Option Nat
  | .item now _ => some now
  | .heartbeat now _ _ => some now
  | .sweep now => some now
  | .attempt now _ => some now
  | _ => none

namespace Effect

/-- Connection `conn` begins, or a Ping is written to it. -/
def beats (conn : Nat) : Effect → Bool
  | .adopted c _ => c == conn
  | .pinged c _ => c == conn
  | _ => false

/-- Connection `conn` begins, or a frame arrives on it. -/
def hears (conn : Nat) : Effect → Bool
  | .adopted c _ => c == conn
  | .yielded c it => c == conn && it.touches
  | _ => false

/-- The request on some channel is given up. -/
def timesOut : Effect → Bool
  | .replied _ (.error (.timeout _)) _ => true
  | _ => false

/-- An effect that has to do with a timer. -/
def isTimed : Effect → Bool
  | .adopted _ _ => true
  | .pinged _ _ => true
  | .yielded _ _ => true
  | e => e.timesOut

/-- An untimed effect is no heartbeat, no frame and no timeout. -/
theorem not_timed {e : Effect} (h : e.isTimed = false) (conn : Nat) :
    e.beats conn = false ∧ e.hears conn = false ∧ e.timesOut = false := by
  cases e <;> simp_all [isTimed, beats, hears, timesOut]

end Effect

namespace SessionDriver

variable {P : Prost} {d d' d'' : SessionDriver}

/-- The instants at which the timers are due. -/
def due (d : SessionDriver) : List Nat :=
  match d.phase with
  | .connected l => [l.nextHeartbeat, l.nextSweep]
  | _ => []

/-- The driver against a clock. -/
def system (P : Prost) : Clocked.System SessionDriver Input Effect where
  step := step P
  ledger := log
  stamp := Input.stamp
  due := due

/-! ### What a step does to the timers -/

/-- `d'` is `d` after work that has nothing to do with a timer. Requests that wait in `d'` waited
in `d`, or were taken meanwhile. -/
structure Untimed (d d' : SessionDriver) : Prop where
  conn : d'.conn = d.conn
  heartbeat : d'.heartbeat = d.heartbeat
  liveness : d'.liveness = d.liveness
  log : ∃ es, d'.log = d.log ++ es ∧ (∀ e ∈ es, e.isTimed = false) ∧
    ∀ entry ∈ d'.pending.entries, entry ∈ d.pending.entries ∨
      ∃ emsg body, .took (.request emsg body entry.2.deadline entry.2.reply) ∈ es

/-- Being untimed composes. -/
theorem Untimed.trans (h : Untimed d d') (h' : Untimed d' d'') : Untimed d d'' := by
  obtain ⟨es, hlog, hes, hpend⟩ := h.log
  obtain ⟨es', hlog', hes', hpend'⟩ := h'.log
  refine ⟨h'.conn.trans h.conn, h'.heartbeat.trans h.heartbeat, h'.liveness.trans h.liveness,
    es ++ es', by rw [hlog', hlog, List.append_assoc], List.forall_mem_append.mpr ⟨hes, hes'⟩, ?_⟩
  intro entry hentry
  rcases hpend' entry hentry with hentry | ⟨emsg, body, htook⟩
  · rcases hpend entry hentry with hentry | ⟨emsg, body, htook⟩
    · exact .inl hentry
    · exact .inr ⟨emsg, body, List.mem_append_left es' htook⟩
  · exact .inr ⟨emsg, body, List.mem_append_right es htook⟩

/-- Nothing is entered in the table. -/
theorem Untimed.of_sublist {es : List Effect} (hconn : d'.conn = d.conn)
    (hhb : d'.heartbeat = d.heartbeat) (hlive : d'.liveness = d.liveness)
    (hlog : d'.log = d.log ++ es) (hes : ∀ e ∈ es, e.isTimed = false)
    (hpend : d'.pending.entries ⊆ d.pending.entries) : Untimed d d' :=
  ⟨hconn, hhb, hlive, es, hlog, hes, fun _ h => .inl (hpend h)⟩

/-- Nothing is untimed. -/
theorem Untimed.refl (d : SessionDriver) : Untimed d d :=
  .of_sublist rfl rfl rfl (List.append_nil _).symm (List.forall_mem_nil _) (List.Subset.refl _)

/-- The task moves on. -/
theorem Untimed.move (d : SessionDriver) (inbox : List SteamMessage) (ph : Phase) :
    Untimed d { d with inbox := inbox, phase := ph } :=
  .of_sublist rfl rfl rfl (List.append_nil _).symm (List.forall_mem_nil _) (List.Subset.refl _)

/-- To dispatch a message is untimed. -/
theorem dispatch_untimed (d : SessionDriver) (msg : SteamMessage) :
    Untimed d (d.dispatch msg) := by
  rcases h : d.waiter msg with _ | ⟨jobid, entry⟩
  · rw [dispatch_of_none h]
    refine .of_sublist rfl rfl rfl rfl ?_ (List.Subset.refl _)
    intro e he
    rcases mem_announce he with rfl | rfl <;> rfl
  · rw [dispatch_of_some h]
    exact .of_sublist rfl rfl rfl rfl (by simp [Effect.isTimed, Effect.timesOut])
      (List.kerase_sublist jobid _).subset

/-- The drain of the inbox is untimed. -/
theorem drain_untimed (d : SessionDriver) (msgs : List SteamMessage) :
    Untimed d (d.drain msgs) := by
  induction msgs generalizing d with
  | nil => exact .refl d
  | cons msg rest ih =>
      have hpop : Untimed d { d with inbox := rest } := .move d rest d.phase
      exact (hpop.trans (dispatch_untimed _ msg)).trans (ih _)

/-- To fail what is pending is untimed. -/
theorem failAllPending_untimed (d : SessionDriver) (reason : String) :
    Untimed d (d.failAllPending reason) := by
  refine .of_sublist rfl rfl rfl rfl ?_ (List.nil_subset _)
  intro e he
  obtain ⟨entry, -, rfl⟩ := List.mem_map.mp he
  rfl

/-- To finish is untimed. -/
theorem finish_untimed (d : SessionDriver) (result : Except Error String) :
    Untimed d (d.finish result) :=
  (Untimed.move d d.inbox (.closing result)).trans (failAllPending_untimed _ _)

/-- To leave the loop is untimed. -/
theorem leave_untimed (d : SessionDriver) (x : LoopExit) : Untimed d (d.leave x) := by
  cases x with
  | shutdown => exact finish_untimed d _
  | loggedOff reason => exact finish_untimed d _
  | disconnected =>
      have hdrain : Untimed d { d with phase := .backoff initialBackoff }.drainInbox :=
        (Untimed.move d d.inbox _).trans (drain_untimed _ d.inbox)
      refine (hdrain.trans (failAllPending_untimed _ "session reconnecting")).trans ?_
      exact .of_sublist rfl rfl rfl rfl (by simp [Effect.isTimed, Effect.timesOut])
        (List.Subset.refl _)

/-- The branch of the commands is untimed. -/
theorem onCommand_untimed (d : SessionDriver) (c : Option Command) (write : Option String) :
    Untimed d (d.onCommand c write).1 := by
  have hquiet : ∀ es : List Effect, (∀ e ∈ es, e.isTimed = false) → ∀ jobid,
      Untimed d { d with nextJobid := jobid, log := d.log ++ es } :=
    fun es hes jobid => .of_sublist rfl rfl rfl rfl hes (List.Subset.refl _)
  rcases c with _ | ⟨emsg, body, deadline, ch⟩ | ⟨emsg, body, ch⟩ | ch
  · exact hquiet [.handlesGone] (by simp [Effect.isTimed, Effect.timesOut]) _
  · cases write with
    | none =>
        refine ⟨rfl, rfl, rfl, [.took (.request emsg body deadline ch),
          .wrote d.conn (d.frame emsg (some d.nextJobid) body) (some ch) true], ?_,
          by simp [Effect.isTimed, Effect.timesOut], ?_⟩
        · simp [onCommand, sendFrame, frame]
        · intro entry hentry
          have hentry : entry ∈ ⟨d.nextJobid, ⟨ch, deadline⟩⟩ ::
              d.pending.entries.kerase d.nextJobid := hentry
          rcases List.mem_cons.mp hentry with rfl | hentry
          · exact .inr ⟨emsg, body, List.mem_cons_self⟩
          · exact .inl ((List.kerase_sublist _ _).subset hentry)
    | some e =>
        have h := hquiet [.took (.request emsg body deadline ch),
          .wrote d.conn (d.frame emsg (some d.nextJobid) body) (some ch) false,
          .replied ch (.error (.webSocket "session reconnecting")) (!d.isClosed ch)]
          (by simp [Effect.isTimed, Effect.timesOut]) (bumpJobid d.nextJobid)
        simpa [onCommand, sendFrame, frame, isClosed] using h
  · have h := hquiet [.took (.notify emsg body ch),
      .wrote d.conn (d.frame emsg none body) none write.isNone, .acked ch (writeResult write)]
      (by simp [Effect.isTimed, Effect.timesOut]) d.nextJobid
    simpa [onCommand, sendFrame, frame] using h
  · have h := hquiet [.took (.logoff ch),
      .wrote d.conn (d.frame emsgClientLogoff none []) none write.isNone, .acked ch (.ok ())]
      (by simp [Effect.isTimed, Effect.timesOut]) d.nextJobid
    simpa [onCommand, sendFrame, frame] using h

/-- To handle a message is untimed. -/
theorem onReceived_untimed (d : SessionDriver) (msg : SteamMessage) :
    Untimed d (d.onReceived P (.ok msg)).1 := by
  by_cases h : msg.emsg = emsgClientLoggedOff
  · simp only [onReceived, h, if_true]
    exact .of_sublist rfl rfl rfl rfl (by simp [Effect.isTimed, Effect.timesOut])
      (List.Subset.refl _)
  · simp only [onReceived, h, if_false]
    exact dispatch_untimed d msg

/-- A command while the socket is down is untimed. -/
theorem onCommandDown_untimed (d : SessionDriver) (c : Option Command) :
    Untimed d (d.onCommandDown c) := by
  have hquiet : ∀ es : List Effect, (∀ e ∈ es, e.isTimed = false) →
      Untimed d { d with log := d.log ++ es } :=
    fun es hes => .of_sublist rfl rfl rfl rfl hes (List.Subset.refl _)
  rcases c with _ | ⟨emsg, body, deadline, ch⟩ | ⟨emsg, body, ch⟩ | ch
  · exact (hquiet [.handlesGone] (by simp [Effect.isTimed, Effect.timesOut])).trans
      (finish_untimed _ _)
  · have h := hquiet [.took (.request emsg body deadline ch),
      .replied ch (.error (.webSocket "session reconnecting")) (!d.isClosed ch)]
      (by simp [Effect.isTimed, Effect.timesOut])
    simp only [onCommandDown, answerWhileDown, Bool.false_eq_true, if_false, reply, emit,
      List.append_assoc, List.cons_append, List.nil_append]
    exact h
  · have h := hquiet [.took (.notify emsg body ch),
      .acked ch (.error (.webSocket "session reconnecting"))]
      (by simp [Effect.isTimed, Effect.timesOut])
    simpa [onCommandDown, answerWhileDown] using h
  · have h := hquiet [.took (.logoff ch), .acked ch (.ok ())]
      (by simp [Effect.isTimed, Effect.timesOut])
    have h' := h.trans (finish_untimed _ (.ok "session closed"))
    simpa [onCommandDown, answerWhileDown] using h'

/-- The timers of a loop that goes on are set like this. -/
def Timed (d : SessionDriver) (nextHeartbeat nextSweep : Nat) : Prop :=
  ∀ l, d.phase = .connected l → l.nextHeartbeat = nextHeartbeat ∧ l.nextSweep = nextSweep

/-- What a step does to the timers. -/
inductive Ticks (P : Prost) (d : SessionDriver) : Input → SessionDriver → Prop
  /-- A connection begins, and both timers with it. -/
  | live {items : List WsItem} {c : CmConnection × LoggedOn} (now : Nat) :
      establish P items = some c → d.pending = ∅ →
      Ticks P d (.attempt now (.ok items)) (d.goLive now items c.1 c.2)
  /-- A heartbeat and a Ping are written. -/
  | beat {d' : SessionDriver} {l : ConnectedLoop} {write : Option String} (now : Nat)
      (ping : Option String) : d.phase = .connected l → l.nextHeartbeat ≤ now →
      Untimed { d with log := d.log ++
        [.wrote d.conn (d.frame emsgClientHeartbeat none []) none true,
          .pinged d.conn ping.isNone] } d' →
      Timed d' (now + d.heartbeat) l.nextSweep → Ticks P d (.heartbeat now write ping) d'
  /-- The socket yields an item. -/
  | heard {d' : SessionDriver} {l : ConnectedLoop} (now : Nat) (it : WsItem) :
      d.phase = .connected l →
      Untimed ((d.touch now it).emit (.yielded d.conn it)) d' →
      Timed d' l.nextHeartbeat l.nextSweep → Ticks P d (.item now it) d'
  /-- The socket is alive, and the requests are swept. -/
  | swept {l : ConnectedLoop} (now : Nat) : d.phase = .connected l → l.nextSweep ≤ now →
      d.readIdleExpired now = false →
      Ticks P d (.sweep now) { d.sweepPending now with
        phase := .connected { l with nextSweep := now + pendingSweepInterval, reading := .fresh } }
  /-- Any other step; the socket may be found dead in it. -/
  | other {d' : SessionDriver} {i : Input} : Untimed d d' →
      (∀ l', d'.phase = .connected l' → ∃ l, d.phase = .connected l ∧
        l'.nextHeartbeat = l.nextHeartbeat ∧ l'.nextSweep = l.nextSweep) → Ticks P d i d'

/-- A driver that has left its loop is not connected. -/
theorem leave_not_connected (d : SessionDriver) (x : LoopExit) (l : ConnectedLoop) :
    (d.leave x).phase ≠ .connected l := by
  rw [leave_eq]
  cases x with
  | shutdown => exact nofun
  | loggedOff reason => exact nofun
  | disconnected =>
      have hph := (drain_steady { d with phase := exitPhase .disconnected } d.inbox).phase
      show (drain { d with phase := exitPhase .disconnected } d.inbox).phase ≠ _
      rw [hph]
      exact nofun

/-- The end of a branch of the connected loop. -/
theorem resume_ofBranch (d : SessionDriver) (l : ConnectedLoop) (x : Option LoopExit) :
    Untimed d (resume (d, .ofBranch l x)) ∧
      Timed (resume (d, .ofBranch l x)) l.nextHeartbeat l.nextSweep := by
  cases x with
  | none =>
      refine ⟨.move d d.inbox _, ?_⟩
      intro l' hl'
      obtain rfl := Phase.connected.inj hl'
      exact ⟨rfl, rfl⟩
  | some x => exact ⟨leave_untimed d x, fun l' hl' => absurd hl' (leave_not_connected d x l')⟩

/-- What every branch of the loop does to the timers. -/
theorem Branch.ticks {l : ConnectedLoop} {i : Input} {t : Turn} (h : Branch P d l i d' t)
    (hph : d.phase = .connected l) : Ticks P d i (resume (d', t)) := by
  have hother : ∀ {i d₁ x}, Untimed d d₁ → Ticks P d i (resume (d₁, .ofBranch l x)) := by
    intro i d₁ x h₁
    obtain ⟨hun, htimed⟩ := resume_ofBranch d₁ l x
    exact .other (h₁.trans hun) fun l' hl' => ⟨l, hph, htimed l' hl'⟩
  have hturn : ∀ {l'}, l'.nextHeartbeat = l.nextHeartbeat → l'.nextSweep = l.nextSweep →
      Ticks P d i (resume (d, .again l')) := by
    intro l' hhb hsw
    refine .other (.move d d.inbox _) ?_
    intro l'' hl''
    obtain rfl := Phase.connected.inj hl''
    exact ⟨l, hph, hhb, hsw⟩
  have hrec : ∀ now it inbox,
      Untimed ((d.touch now it).emit (.yielded d.conn it)) { received P d now it with inbox } :=
    fun now it inbox => .move _ _ _
  cases h with
  | command c write => exact hother (onCommand_untimed d c write)
  | park hin => exact hturn rfl rfl
  | wait hread => exact hturn rfl rfl
  | @pop msg rest hin =>
      exact hother ((Untimed.move d rest d.phase).trans (onReceived_untimed _ msg))
  | @skip now it hread hin hit =>
      refine .heard now it hph (.move _ _ _) ?_
      intro l' hl'
      obtain rfl := Phase.connected.inj hl'
      exact ⟨rfl, rfl⟩
  | @receive now it msg rest hread hin hit =>
      obtain ⟨hun, htimed⟩ := resume_ofBranch
        ({ received P d now it with inbox := rest }.onReceived P (.ok msg)).1 l
        ({ received P d now it with inbox := rest }.onReceived P (.ok msg)).2
      exact .heard now it hph (((hrec now it rest).trans (onReceived_untimed _ msg)).trans hun)
        htimed
  | @cut now it hread hin hit =>
      have hun := leave_untimed (received P d now it) .disconnected
      exact .heard now it hph ((hrec now it _).trans hun)
        fun l' hl' => absurd hl' (leave_not_connected _ _ l')
  | heartbeat now write ping hle =>
      cases write with
      | some e =>
          refine .other ?_ fun l' hl' => absurd hl' (leave_not_connected _ _ l')
          have hwrote : Untimed d (d.onHeartbeat (some e) ping).1 :=
            .of_sublist rfl rfl rfl rfl (by simp [Effect.isTimed, Effect.timesOut])
              (List.Subset.refl _)
          exact hwrote.trans (leave_untimed _ .disconnected)
      | none =>
          obtain ⟨hun, htimed⟩ := resume_ofBranch (d.onHeartbeat none ping).1
            { l with nextHeartbeat := now + d.heartbeat } (d.onHeartbeat none ping).2
          refine .beat now ping hph hle ?_ htimed
          simpa [onHeartbeat, sendFrame] using hun
  | sweep now hle =>
      by_cases hidle : d.readIdleExpired now
      · simp only [onSweep, hidle, if_true]
        exact .other (leave_untimed d .disconnected)
          fun l' hl' => absurd hl' (leave_not_connected _ _ l')
      · have hswept := Ticks.swept (P := P) now hph hle (by simpa using hidle)
        simp only [onSweep, hidle]
        exact hswept

/-- What every step does to the timers. -/
theorem step_ticks {i : Input} (h : d.step P i = some d') (hd : d.Resting) : Ticks P d i d' := by
  cases step_takes h with
  | abandon ch =>
      refine .other ?_ fun l hl => ⟨l, hl, rfl, rfl⟩
      exact .of_sublist rfl rfl rfl (List.append_nil _).symm (List.forall_mem_nil _)
        (List.Subset.refl _)
  | @loop l i r hph hnew hr =>
      simp only [Resting, hph] at hd
      exact (runConnected_branch hd.2 hr).ticks hph
  | commandDown c write hdown hnew =>
      refine .other (onCommandDown_untimed d c) ?_
      intro l hl
      have hup : ∀ l, d.phase ≠ .connected l := by
        rcases hdown with ⟨secs, hph⟩ | ⟨secs, hph⟩ <;> simp [hph]
      rcases c with _ | ⟨emsg, body, deadline, ch⟩ | ⟨emsg, body, ch⟩ | ch
      · cases hl
      · exact absurd hl (hup l)
      · exact absurd hl (hup l)
      · cases hl
  | wake hph =>
      refine .other ?_ (by rintro l ⟨⟩)
      exact .of_sublist rfl rfl rfl rfl (by simp [Effect.isTimed, Effect.timesOut])
        (List.Subset.refl _)
  | refused now e hph _ =>
      refine .other ?_ (by rintro l ⟨⟩)
      exact .of_sublist rfl rfl rfl rfl (by simp [Effect.isTimed, Effect.timesOut])
        (List.Subset.refl _)
  | rejected now e hph _ =>
      refine .other (.trans ?_ (finish_untimed (d.emit (.refused e)) _)) (by rintro l ⟨⟩)
      exact .of_sublist rfl rfl rfl rfl (by simp [Effect.isTimed, Effect.timesOut])
        (List.Subset.refl _)
  | live now hph hc => exact .live now hc (hd.of_down (.inr ⟨_, hph⟩)).2.1
  | @closed result hph =>
      have hend : ∀ es state ph, (∀ e ∈ es, e.isTimed = false) →
          Untimed d { d with state := state, phase := ph, log := d.log ++ es } :=
        fun es state ph hes => .of_sublist rfl rfl rfl rfl hes (List.Subset.refl _)
      cases result with
      | error e =>
          refine .other ?_ (by rintro l ⟨⟩)
          have h := hend [.published (.failed e.display), .returned (.error e)]
            (.failed e.display) (.stopped (.error e)) (by simp [Effect.isTimed, Effect.timesOut])
          simpa [conclude] using h
      | ok reason =>
          refine .other ?_ (by rintro l ⟨⟩)
          have h := hend [.published (.loggedOff reason), .returned (.ok ())]
            (.loggedOff reason) (.stopped (.ok ())) (by simp [Effect.isTimed, Effect.timesOut])
          simpa [conclude] using h

/-! ### Timed runs -/

/-- A timed run of a session: from `spawn`, with the timers served within `lag`. -/
def TimedRun (P : Prost) (lag : Nat) (d : SessionDriver) (now : Nat)
    (log : List (Nat × Effect)) : Prop :=
  ∃ t₀ items d₀, spawn P t₀ items = some d₀ ∧ Clocked.Run (system P) lag d₀ t₀ d now log

variable {lag now : Nat} {log : List (Nat × Effect)}

/-- A run of the clock is a run. -/
theorem TimedRun.reachable (h : TimedRun P lag d now log) : Reachable P d := by
  obtain ⟨t₀, items, d₀, hspawn, hrun⟩ := h
  obtain ⟨is, his⟩ := hrun.exec
  exact ⟨t₀, items, d₀, is, hspawn, his⟩

/-- **Invariant rule for timed runs.** -/
theorem TimedRun.invariant {I : SessionDriver → Nat → List (Nat × Effect) → Prop}
    (hspawn : ∀ t₀ items d₀, spawn P t₀ items = some d₀ →
      I d₀ t₀ (d₀.log.map fun e => (t₀, e)))
    (hwait : ∀ d t log t', I d t log → t ≤ t' → (∀ x ∈ d.due, t' ≤ x + lag) → I d t' log)
    (hstep : ∀ d t log i d', TimedRun P lag d t log → I d t log → (∀ x ∈ i.stamp, x = t) →
      Ticks P d i d' → I d' t (log ++ (system P).news t d d'))
    (h : TimedRun P lag d now log) : I d now log := by
  obtain ⟨t₀, items, d₀, h₀, hrun⟩ := h
  refine hrun.invariant (hspawn t₀ items d₀ h₀) hwait ?_
  intro d t log i d' hpast hd hstamp hs
  have htimed : TimedRun P lag d t log := ⟨t₀, items, d₀, h₀, hpast⟩
  exact hstep d t log i d' htimed hd hstamp (step_ticks hs htimed.reachable.resting)

/-- A step adds to the ledger. -/
theorem Ticks.log_append {i : Input} (h : Ticks P d i d') : ∃ es, d'.log = d.log ++ es := by
  cases h with
  | live now hc _ =>
      exact ⟨_, by simp only [goLive, enterConnected, emit, publish, List.append_assoc]; rfl⟩
  | beat now ping _ _ hun _ =>
      obtain ⟨es, hlog, -⟩ := hun.log
      exact ⟨_, hlog.trans (List.append_assoc _ _ _)⟩
  | heard now it _ hun _ =>
      obtain ⟨es, hlog, -⟩ := hun.log
      exact ⟨_, hlog.trans (List.append_assoc _ _ _)⟩
  | swept now _ _ _ => exact ⟨_, rfl⟩
  | other hun _ =>
      obtain ⟨es, hlog, -⟩ := hun.log
      exact ⟨es, hlog⟩

/-- Without its instants, the ledger of a timed run is that of the driver. -/
theorem TimedRun.ledger (h : TimedRun P lag d now log) : log.map Prod.snd = d.log := by
  obtain ⟨t₀, items, d₀, h₀, hrun⟩ := h
  refine hrun.ledger ?_
  intro is d i d' his hs
  have hreach : Reachable P d := ⟨t₀, items, d₀, is, h₀, his⟩
  exact (step_ticks hs hreach.resting).log_append

open Clocked (times)

/-- The instants of a kind, after a step that added the entries `es`. -/
theorem times_news {t : Nat} {es : List Effect} (p : Effect → Bool)
    (hlog : d'.log = d.log ++ es) :
    times p (log ++ (system P).news t d d') = times p log ++ List.replicate (es.countP p) t := by
  rw [Clocked.times_append, (system P).news_of_append hlog, Clocked.times_map]

/-- Untimed effects count as no heartbeat and no frame. -/
theorem countP_untimed {es : List Effect} (hes : ∀ e ∈ es, e.isTimed = false) (conn : Nat) :
    es.countP (Effect.beats conn) = 0 ∧ es.countP (Effect.hears conn) = 0 := by
  constructor
  · refine List.countP_eq_zero.mpr ?_
    intro e he
    simp [(Effect.not_timed (hes e he) conn).1]
  · refine List.countP_eq_zero.mpr ?_
    intro e he
    simp [(Effect.not_timed (hes e he) conn).2.1]

/-- An adoption is timed. -/
theorem adopted_not_untimed {es : List Effect} (hes : ∀ e ∈ es, e.isTimed = false) (c : Nat)
    (items : List WsItem) : .adopted c items ∉ es :=
  fun hmem => absurd (hes _ hmem) (by simp [Effect.isTimed])

/-- What is entered when a connection begins. -/
def adoption (conn : Nat) (items : List WsItem) (steamId : UInt64) : List Effect :=
  [.adopted conn items, .cleared, .published (.loggedOn steamId)]

/-- An adoption counts as a heartbeat and as a frame of its connection. -/
theorem countP_adoption (conn : Nat) (items : List WsItem) (steamId : UInt64) (c : Nat) :
    (adoption conn items steamId).countP (Effect.beats c) = (if conn = c then 1 else 0) ∧
      (adoption conn items steamId).countP (Effect.hears c) = if conn = c then 1 else 0 := by
  constructor <;> simp [adoption, List.countP_cons, Effect.beats, Effect.hears]

/-- What `goLive` enters in the ledger. -/
theorem goLive_log (d : SessionDriver) (now : Nat) (items : List WsItem) (conn : CmConnection)
    (logged : LoggedOn) :
    (d.goLive now items conn logged).log =
      d.log ++ adoption (d.conn + 1) items conn.steamId := by
  simp [goLive, enterConnected, adoption]

/-! ### The connections of a session -/

/-- The connections are numbered, and the heartbeat interval is that of the last one. -/
structure Adoptions (P : Prost) (d : SessionDriver) : Prop where
  current : ∃ items s, .adopted d.conn items ∈ d.log ∧ establish P items = some s
  le : ∀ c items, .adopted c items ∈ d.log → c ≤ d.conn
  interval : ∀ items s, .adopted d.conn items ∈ d.log → establish P items = some s →
    s.2.heartbeatInterval = d.heartbeat

/-- No connection begins. -/
theorem Adoptions.keep (h : Adoptions P d) {es : List Effect} (hlog : d'.log = d.log ++ es)
    (hes : ∀ c items, .adopted c items ∉ es) (hconn : d'.conn = d.conn)
    (hhb : d'.heartbeat = d.heartbeat) : Adoptions P d' := by
  have hold : ∀ c items, .adopted c items ∈ d'.log → .adopted c items ∈ d.log := by
    intro c items hmem
    rw [hlog] at hmem
    exact (List.mem_append.mp hmem).resolve_right (hes c items)
  constructor
  · obtain ⟨items, s, hmem, hs⟩ := h.current
    exact ⟨items, s, by rw [hlog, hconn]; exact List.mem_append_left es hmem, hs⟩
  · intro c items hmem
    rw [hconn]
    exact h.le c items (hold c items hmem)
  · intro items s hmem hs
    rw [hhb]
    exact h.interval items s (hconn ▸ hold _ items hmem) hs

/-- **Run lemma.** The heartbeat of every reachable state is that of its last logon. -/
theorem Reachable.adoptions (h : Reachable P d) : Adoptions P d := by
  refine h.invariant_of_step ?_ ?_
  · intro now items d₀ h₀
    obtain ⟨c, hc, rfl⟩ := Option.map_eq_some_iff.mp h₀
    constructor
    · exact ⟨items, c, List.mem_cons_self, hc⟩
    · intro c' items' hmem
      obtain ⟨rfl, -⟩ : c' = 0 ∧ items' = items := by simpa [enterConnected] using hmem
      exact le_rfl
    · intro items' s hmem hs
      obtain rfl : items' = items := by simpa [enterConnected] using hmem
      obtain rfl := Option.some.inj (hc.symm.trans hs)
      rfl
  · intro d d' i hrest hd hstep
    cases step_ticks hstep hrest with
    | @live items c now hc _ =>
        have hlog := goLive_log d now items c.1 c.2
        constructor
        · exact ⟨items, c, by rw [hlog]; exact List.mem_append_right _ List.mem_cons_self, hc⟩
        · intro c' items' hmem
          rw [hlog] at hmem
          rcases List.mem_append.mp hmem with hmem | hmem
          · exact (hd.le c' items' hmem).trans (Nat.le_succ _)
          · obtain ⟨rfl, -⟩ : c' = d.conn + 1 ∧ items' = items := by simpa [adoption] using hmem
            exact le_rfl
        · intro items' s hmem hs
          rw [hlog] at hmem
          rcases List.mem_append.mp hmem with hmem | hmem
          · exact absurd (hd.le _ items' hmem) (Nat.not_succ_le_self _)
          · obtain rfl : items' = items := by simpa [goLive, enterConnected, adoption] using hmem
            obtain rfl := Option.some.inj (hc.symm.trans hs)
            rfl
    | beat now ping _ _ hun _ =>
        obtain ⟨es, hlog, hes, -⟩ := hun.log
        refine hd.keep (hlog.trans (List.append_assoc _ _ _)) ?_ hun.conn hun.heartbeat
        intro c items hmem
        exact adopted_not_untimed hes c items (by simpa using hmem)
    | heard now it _ hun _ =>
        obtain ⟨es, hlog, hes, -⟩ := hun.log
        refine hd.keep (hlog.trans (List.append_assoc _ _ _)) ?_ hun.conn hun.heartbeat
        intro c items hmem
        exact adopted_not_untimed hes c items (by simpa using hmem)
    | swept now _ _ _ =>
        refine hd.keep rfl ?_ rfl rfl
        intro c items hmem
        rcases mem_swept hmem with ⟨entry, ⟨h, -⟩ | h⟩ <;> cases h
    | other hun _ =>
        obtain ⟨es, hlog, hes, -⟩ := hun.log
        exact hd.keep hlog (adopted_not_untimed hes) hun.conn hun.heartbeat

end SessionDriver

end Steamroids
