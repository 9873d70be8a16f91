import Steamroids.LoopEnd

/-!
# The Lifecycle of a Session

What a session does with its state, its connections and its callers' wish to stop is spread
over four functions of the driver and their early returns. `Lifecycle.Next` states it in one
place, as an automaton over the events that matter: a state is published, a connect attempt
is started or refused, something is written, the session is asked to stop, `run` returns.

The driver refines the automaton (`Reachable.lives`): the events of every run, in the order
of its ledger, are a word of the automaton that leads to the stage that matches the phase of
the driver. What the words look like is then proved of the automaton alone.

## Main results

* `Lives.publications`: the sequence of published states.
* `Lives.refused`: which words lead to a failed session.
* `Lives.stopped`: what can follow a wish to stop.
* `Reachable.lives`: the driver refines the automaton.
* `session_lifecycle`: the three results, of the driver.
-/

namespace Steamroids

/-! ### The automaton -/

namespace Lifecycle

/-- What matters of a run for its lifecycle. -/
inductive Event
  /-- The session is asked to stop, by a `Logoff` command or by the last handle going. -/
  | stop (logoff : Bool)
  | write (emsg : UInt32)
  | ping
  | dial
  | refuse (e : Error)
  | publish (st : SessionState)
  | returned (res : Except Error Unit)
  deriving DecidableEq

/-- Where a session stands. -/
inductive Stage
  | fresh
  | up
  | down
  | dialing
  | rejected (e : Error)
  /-- Asked to stop, with the connection up or `down`; `farewell` if the `ClientLogOff` frame
  is still to be written. -/
  | stopping (down farewell : Bool)
  | closed (res : Except Error Unit)
  | over (res : Except Error Unit)
  deriving DecidableEq

/-- The transitions. -/
inductive Next : Stage → Event → Stage → Prop
  | start (id : UInt64) : Next .fresh (.publish (.loggedOn id)) .up
  | write (emsg : UInt32) : Next .up (.write emsg) .up
  | ping : Next .up .ping .up
  | fall : Next .up (.publish .connecting) .down
  | evict (reason : String) : Next .up (.publish (.loggedOff reason)) (.closed (.ok ()))
  | stop (logoff : Bool) : Next .up (.stop logoff) (.stopping false logoff)
  | dial : Next .down .dial .dialing
  | stopDown (logoff : Bool) : Next .down (.stop logoff) (.stopping true false)
  | live (id : UInt64) : Next .dialing (.publish (.loggedOn id)) .up
  | retry (e : Error) : e.isAuthRejected = false → Next .dialing (.refuse e) .down
  | reject (e : Error) : e.isAuthRejected = true → Next .dialing (.refuse e) (.rejected e)
  | stopDialing (logoff : Bool) : Next .dialing (.stop logoff) (.stopping true false)
  | fail (e : Error) :
      Next (.rejected e) (.publish (.failed e.display)) (.closed (.error e))
  | farewell (down : Bool) :
      Next (.stopping down true) (.write emsgClientLogoff) (.stopping down false)
  | close (down farewell : Bool) (reason : String) :
      Next (.stopping down farewell) (.publish (.loggedOff reason)) (.closed (.ok ()))
  | finish (res : Except Error Unit) : Next (.closed res) (.returned res) (.over res)

/-- The words of the automaton, with the stage each leads to. -/
inductive Lives : List Event → Stage → Prop
  | nil : Lives [] .fresh
  | snoc {w : List Event} {s s' : Stage} {e : Event} : Lives w s → Next s e s' → Lives (w ++ [e]) s'

/-- The state that an event publishes. -/
def Event.publication? : Event → Option SessionState
  | .publish st => some st
  | _ => none

/-- The states published in a word. -/
def publications (w : List Event) : List SessionState := w.filterMap Event.publication?

/-- Reconnects, by the accounts they were logged on as. -/
def cycles (ids : List UInt64) : List SessionState :=
  ids.flatMap fun id => [.connecting, .loggedOn id]

/-- The state that is published last, by what `run` returns. -/
def Final (res : Except Error Unit) (st : SessionState) : Prop :=
  match res with
  | .ok () => ∃ reason, st = .loggedOff reason
  | .error e => st = .failed e.display

/-- What may be published after the last logon, by the stage. -/
def Tail : Stage → List SessionState → Prop
  | .fresh, _ => False
  | .up, tail => tail = []
  | .down, tail => tail = [.connecting]
  | .dialing, tail => tail = [.connecting]
  | .rejected _, tail => tail = [.connecting]
  | .stopping down _, tail => tail = if down then [.connecting] else []
  | .closed res, tail => ∃ st, Final res st ∧ (tail = [st] ∨ tail = [.connecting, st])
  | .over res, tail => ∃ st, Final res st ∧ (tail = [st] ∨ tail = [.connecting, st])

/-- An event at the end adds what it publishes. -/
theorem publications_snoc (w : List Event) (e : Event) :
    publications (w ++ [e]) = publications w ++ e.publication?.toList := by
  rcases h : e.publication? with _ | st <;> simp [publications, h]

/-- **The sequence of published states**: a logon, reconnects, and the tail of the stage. -/
theorem Lives.publications {w : List Event} {s : Stage} (h : Lives w s) (hs : s ≠ .fresh) :
    ∃ id ids tail, publications w = .loggedOn id :: (cycles ids ++ tail) ∧ Tail s tail := by
  induction h with
  | nil => exact absurd rfl hs
  | @snoc w s s' e hw hnext ih =>
      rw [publications_snoc]
      cases hnext with
      | start id =>
          cases hw with
          | nil => exact ⟨id, [], [], rfl, rfl⟩
          | snoc _ h => cases h
      | live id' =>
          obtain ⟨id, ids, tail, hpub, rfl⟩ := ih (by simp)
          refine ⟨id, ids ++ [id'], [], ?_, rfl⟩
          simp [hpub, cycles, Event.publication?]
      | fall =>
          obtain ⟨id, ids, tail, hpub, rfl⟩ := ih (by simp)
          exact ⟨id, ids, [.connecting], by simp [hpub, Event.publication?], rfl⟩
      | evict reason =>
          obtain ⟨id, ids, tail, hpub, rfl⟩ := ih (by simp)
          exact ⟨id, ids, [.loggedOff reason], by simp [hpub, Event.publication?],
            .loggedOff reason, ⟨reason, rfl⟩, .inl rfl⟩
      | fail e =>
          obtain ⟨id, ids, tail, hpub, rfl⟩ := ih (by simp)
          exact ⟨id, ids, [.connecting, .failed e.display], by simp [hpub, Event.publication?],
            .failed e.display, rfl, .inr rfl⟩
      | close down farewell reason =>
          obtain ⟨id, ids, tail, hpub, rfl⟩ := ih (by simp)
          refine ⟨id, ids, (if down then [.connecting] else []) ++ [.loggedOff reason], ?_,
            .loggedOff reason, ⟨reason, rfl⟩, ?_⟩
          · simp [hpub, Event.publication?]
          · cases down <;> simp
      | _ =>
          obtain ⟨id, ids, tail, hpub, htail⟩ := ih (by simp)
          exact ⟨id, ids, tail, by simp [hpub, Event.publication?], htail⟩

/-- **Which words lead to a failed session**: those with a rejected logon. -/
theorem Lives.refused {w : List Event} {s : Stage} (h : Lives w s) (e : Error) :
    (.refuse e ∈ w ∧ e.isAuthRejected = true) ↔
      s = .rejected e ∨ s = .closed (.error e) ∨ s = .over (.error e) := by
  induction h with
  | nil => simp
  | @snoc w s s' ev hw hnext ih => cases hnext <;> simp_all <;> grind

/-- The word ends with the return of `run`. -/
theorem Lives.returned {w : List Event} {s : Stage} (h : Lives w s) (res : Except Error Unit) :
    .returned res ∈ w ↔ s = .over res := by
  induction h with
  | nil => simp
  | @snoc w s s' ev hw hnext ih =>
      rw [List.mem_append, ih]
      cases hnext with
      | finish res' => simp [eq_comm]
      | _ => simp

/-- The session has been asked to stop. -/
def Stage.isStopped : Stage → Bool
  | .stopping _ _ => true
  | .closed _ => true
  | .over _ => true
  | _ => false

/-- An event of the end of a session. -/
def Event.isLast : Event → Bool
  | .publish (.loggedOff _) => true
  | .returned _ => true
  | _ => false

/-- A write within a connection. -/
def Event.isTraffic : Event → Bool
  | .write _ => true
  | .ping => true
  | _ => false

/-- A session that is up may write as it likes. -/
theorem Lives.traffic {w es : List Event} (h : Lives w .up) (hes : ∀ e ∈ es, e.isTraffic) :
    Lives (w ++ es) .up := by
  induction es using List.reverseRecOn with
  | nil => rwa [List.append_nil]
  | append_singleton es e ih =>
      rw [← List.append_assoc]
      refine .snoc (ih fun x hx => hes x (by simp [hx])) ?_
      have he := hes e (by simp)
      cases e with
      | write emsg => exact .write emsg
      | ping => exact .ping
      | _ => cases he

/-- **What can follow a wish to stop**: the `ClientLogOff` frame, at once and only if a
`Logoff` command asked for it, and then the end of the session. -/
theorem Lives.stopped {w w₁ w₂ : List Event} {s : Stage} {logoff : Bool} (h : Lives w s)
    (hw : w = w₁ ++ .stop logoff :: w₂) :
    s.isStopped ∧ (∀ down, s = .stopping down true → w₂ = [] ∧ logoff = true) ∧
      ∃ rest, (∀ e ∈ rest, e.isLast) ∧
        (w₂ = rest ∨ logoff = true ∧ w₂ = .write emsgClientLogoff :: rest) := by
  induction h generalizing w₂ with
  | nil => simp at hw
  | @snoc w s s' e hlives hnext ih =>
      rcases List.eq_nil_or_concat w₂ with rfl | ⟨w₂, e', rfl⟩
      · obtain ⟨rfl, he⟩ := List.append_inj' hw rfl
        obtain rfl : e = .stop logoff := by simpa using he
        refine ⟨?_, ?_, [], by simp, .inl rfl⟩
        · cases hnext <;> rfl
        · rintro down rfl
          cases hnext
          exact ⟨rfl, rfl⟩
      · rw [List.concat_eq_append] at hw ⊢
        have hw' : w ++ [e] = (w₁ ++ .stop logoff :: w₂) ++ [e'] := by rw [hw]; simp
        obtain ⟨rfl, he⟩ := List.append_inj' hw' rfl
        obtain rfl : e = e' := by simpa using he
        obtain ⟨hstop, hfare, rest, hrest, hshape⟩ := ih rfl
        have hlast : e.isLast → ∃ rest', (∀ x ∈ rest', x.isLast) ∧
            (w₂ ++ [e] = rest' ∨
              logoff = true ∧ w₂ ++ [e] = .write emsgClientLogoff :: rest') := by
          intro hlast
          refine ⟨rest ++ [e], ?_, ?_⟩
          · intro x hx
            rcases List.mem_append.mp hx with hx | hx
            · exact hrest x hx
            · obtain rfl : x = e := by simpa using hx
              exact hlast
          · rcases hshape with rfl | ⟨hlogoff, rfl⟩
            · exact .inl rfl
            · exact .inr ⟨hlogoff, rfl⟩
        cases hnext with
        | farewell down =>
            obtain ⟨rfl, hlogoff⟩ := hfare down rfl
            exact ⟨rfl, nofun, [], by simp, .inr ⟨hlogoff, rfl⟩⟩
        | close down farewell reason => exact ⟨rfl, nofun, hlast rfl⟩
        | finish res => exact ⟨rfl, nofun, hlast rfl⟩
        | _ => cases hstop

end Lifecycle

/-! ### The driver refines the automaton -/

/-- A `Logoff` command is a wish to stop. -/
def Command.event? : Command → Option Lifecycle.Event
  | .request _ _ _ _ => none
  | .notify _ _ _ => none
  | .logoff _ => some (.stop true)

/-- The lifecycle event that an effect is. -/
def Effect.event? : Effect → Option Lifecycle.Event
  | .handlesGone => some (.stop false)
  | .took c => c.event?
  | .wrote _ frame _ _ => some (.write frame.emsg)
  | .pinged _ _ => some .ping
  | .dialed => some .dial
  | .refused e => some (.refuse e)
  | .published st => some (.publish st)
  | .returned res => some (.returned res)
  | _ => none

/-- The lifecycle events of a ledger. -/
def events (log : List Effect) : List Lifecycle.Event := log.filterMap Effect.event?

/-- The events of two stretches follow one another. -/
theorem events_append (log es : List Effect) : events (log ++ es) = events log ++ events es :=
  List.filterMap_append

namespace SessionDriver

open Lifecycle

variable {P : Prost} {d d' : SessionDriver}

/-- To dispatch a message is no event. -/
theorem dispatch_events (d : SessionDriver) (msg : SteamMessage) :
    events (d.dispatch msg).log = events d.log := by
  rcases hw : d.waiter msg with _ | ⟨jobid, entry⟩
  · rw [dispatch_of_none hw, events_append]
    by_cases hs : msg.emsg ∈ postLoginSnapshotEmsgs <;>
      simp [announce, arrival, hs, events, Effect.event?]
  · rw [dispatch_of_some hw, events_append]
    exact List.append_nil _

/-- The drain of the inbox is no event. -/
theorem drain_events (d : SessionDriver) (msgs : List SteamMessage) :
    events (d.drain msgs).log = events d.log := by
  induction msgs generalizing d with
  | nil => rfl
  | cons msg rest ih =>
      exact (ih _).trans (dispatch_events { d with inbox := rest } msg)

/-- To fail what is pending is no event. -/
theorem failAllPending_events (d : SessionDriver) (reason : String) :
    events (d.failAllPending reason).log = events d.log := by
  have hnil : events (d.pending.entries.map fun entry =>
      .replied entry.2.reply (.error (.webSocket reason)) (!d.isClosed entry.2.reply)) = [] := by
    simp [events, Effect.event?]
  simp only [failAllPending, events_append, hnil, List.append_nil]

/-- To give requests up is no event. -/
theorem sweepPending_events (d : SessionDriver) (now : Nat) :
    events (d.sweepPending now).log = events d.log := by
  have hnil : events (d.pending.entries.filterMap fun entry => d.sweepEntry now entry.2) = [] := by
    refine List.filterMap_eq_nil_iff.mpr ?_
    intro x hx
    rcases mem_swept hx with ⟨entry, ⟨rfl, -⟩ | rfl⟩ <;> rfl
  simp only [sweepPending, events_append, hnil, List.append_nil]

/-- To finish is no event: the end is published later. -/
theorem finish_events (d : SessionDriver) (result : Except Error String) :
    events (d.finish result).log = events d.log :=
  failAllPending_events _ _

/-- To leave the loop publishes `Connecting` if the connection was lost, else nothing. -/
theorem leave_events (d : SessionDriver) (x : LoopExit) :
    events (d.leave x).log =
      events d.log ++ if x = .disconnected then [.publish .connecting] else [] := by
  cases x with
  | shutdown => simp [leave, finish_events]
  | loggedOff reason => simp [leave, finish_events]
  | disconnected =>
      simp only [leave, publish, emit, events_append, failAllPending_events, drainInbox,
        drain_events, if_true]
      rfl

/-- What the branches of the connected loop may add to the events: writes, or a wish to stop
that ends the loop. -/
def LoopEvents (d d' : SessionDriver) (x : Option LoopExit) : Prop :=
  ∃ es, events d'.log = events d.log ++ es ∧
    ((x ≠ some .shutdown ∧ ∀ e ∈ es, e.isTraffic) ∨
      x = some .shutdown ∧ (es = [.stop false] ∨ es = [.stop true, .write emsgClientLogoff]))

/-- A branch without events that does not shut down. -/
theorem LoopEvents.quiet {x : Option LoopExit} (h : events d'.log = events d.log)
    (hx : x ≠ some .shutdown) : LoopEvents d d' x :=
  ⟨[], by rw [h, List.append_nil], .inl ⟨hx, by simp⟩⟩

/-- The events of the branch of the commands. -/
theorem onCommand_events (d : SessionDriver) (c : Option Command) (write : Option String) :
    LoopEvents d (d.onCommand c write).1 (d.onCommand c write).2 := by
  rcases c with _ | ⟨emsg, body, deadline, ch⟩ | ⟨emsg, body, ch⟩ | ch
  · exact ⟨[.stop false], events_append _ _, .inr ⟨rfl, .inl rfl⟩⟩
  · refine ⟨[.write emsg], ?_, .inl ⟨?_, List.forall_mem_singleton.mpr rfl⟩⟩
    · cases write <;>
        simp [onCommand, sendFrame, frame, events, List.filterMap_cons, Effect.event?,
          Command.event?]
    · cases write <;> simp [onCommand]
  · refine ⟨[.write emsg], ?_, .inl ⟨?_, List.forall_mem_singleton.mpr rfl⟩⟩
    · simp [onCommand, sendFrame, frame, events, List.filterMap_cons, Effect.event?,
        Command.event?]
    · cases write <;> simp [onCommand]
  · refine ⟨[.stop true, .write emsgClientLogoff], ?_, .inr ⟨rfl, .inr rfl⟩⟩
    simp [onCommand, sendFrame, frame, events, List.filterMap_cons, Effect.event?,
      Command.event?]

/-- The events of the branch of the heartbeat. -/
theorem onHeartbeat_events (d : SessionDriver) (write ping : Option String) :
    LoopEvents d (d.onHeartbeat write ping).1 (d.onHeartbeat write ping).2 := by
  cases write with
  | none =>
      refine ⟨[.write emsgClientHeartbeat, .ping], ?_, .inl ⟨?_, ?_⟩⟩
      · simp [onHeartbeat, sendFrame, events, Effect.event?, frame]
      · cases ping <;> simp [onHeartbeat]
      · exact List.forall_mem_cons.mpr ⟨rfl, List.forall_mem_singleton.mpr rfl⟩
  | some e =>
      exact ⟨[.write emsgClientHeartbeat], events_append _ _,
        .inl ⟨by simp [onHeartbeat], List.forall_mem_singleton.mpr rfl⟩⟩

/-- Reading a message writes nothing, and no logoff counts as a wish to stop. -/
theorem onReceived_events (h : events d'.log = events d.log) (msg : SteamMessage) :
    LoopEvents d (d'.onReceived P (.ok msg)).1 (d'.onReceived P (.ok msg)).2 := by
  by_cases hoff : msg.emsg = emsgClientLoggedOff
  · simp only [onReceived, hoff, if_true, emit]
    refine .quiet ?_ fun hx => classifyLogoff_ne_shutdown P msg (Option.some.inj hx)
    rw [← h, events_append]
    exact List.append_nil _
  · simp only [onReceived, hoff, if_false]
    exact .quiet ((dispatch_events d' msg).trans h) (by simp)

/-- How the loop goes on, as the branch says. -/
def Turn.exit? : Turn → Option LoopExit
  | .again _ => none
  | .exit x => some x

/-- The exit of a branch is the exit of its turn. -/
@[simp] theorem exit?_ofBranch (l : ConnectedLoop) (x : Option LoopExit) :
    (Turn.ofBranch l x).exit? = x := by
  cases x <;> rfl

/-- The events of every branch of the loop. -/
theorem Branch.events {l : ConnectedLoop} {i : Input} {t : Turn} (h : Branch P d l i d' t) :
    LoopEvents d d' t.exit? := by
  have hrec : ∀ now it, Steamroids.events (received P d now it).log = Steamroids.events d.log := by
    intro now it
    simp only [received, touch, emit, events_append]
    exact List.append_nil _
  cases h with
  | command c write =>
      rw [exit?_ofBranch]
      exact onCommand_events d c write
  | park hin => exact .quiet rfl (by simp [Turn.exit?])
  | wait hread => exact .quiet rfl (by simp [Turn.exit?])
  | pop hin =>
      rw [exit?_ofBranch]
      exact onReceived_events (by rfl) _
  | skip now hread hin hit => exact .quiet (hrec now _) (by simp [Turn.exit?])
  | @receive now it msg rest hread hin hit =>
      rw [exit?_ofBranch]
      have hpop : Steamroids.events { received P d now it with inbox := rest }.log =
        Steamroids.events d.log := hrec now it
      exact onReceived_events hpop msg
  | cut now hread hin hit => exact .quiet (hrec now _) (by simp [Turn.exit?])
  | heartbeat now write ping hle =>
      rw [exit?_ofBranch]
      exact onHeartbeat_events d write ping
  | sweep now hle =>
      rw [exit?_ofBranch]
      by_cases hidle : d.readIdleExpired now
      · simp only [onSweep, hidle, if_true]
        exact .quiet rfl (by simp)
      · simp only [onSweep, hidle]
        exact .quiet (sweepPending_events d now) (by simp)

/-- The stage that a phase of the driver stands for. A session that Steam has logged off is
still up for the automaton, until the end is published. -/
def Matches : Phase → Stage → Prop
  | .connected _, s => s = .up
  | .backoff _, s => s = .down
  | .connecting _, s => s = .dialing
  | .closing (.ok _), s => s = .up ∨ ∃ down farewell, s = .stopping down farewell
  | .closing (.error e), s => s = .rejected e
  | .stopped res, s => s = .over res

/-- The driver follows the automaton. -/
def Follows (d : SessionDriver) : Prop := ∃ s, Lives (events d.log) s ∧ Matches d.phase s

/-- The driver goes into its closing, asked to or evicted. -/
theorem Follows.closing {s : Stage} {reason : String} (h : Lives (events d.log) s)
    (hs : s = .up ∨ ∃ down farewell, s = .stopping down farewell) :
    (d.finish (.ok reason)).Follows := by
  refine ⟨s, ?_, hs⟩
  rw [finish_events]
  exact h

/-- The end of an iteration of the connected loop. -/
theorem Follows.leave {x : LoopExit} (h : Lives (events d.log) .up)
    (hev : LoopEvents d d' (some x)) : (d'.leave x).Follows := by
  obtain ⟨es, hes, ⟨hx, htraffic⟩ | ⟨hx, hstop⟩⟩ := hev
  · have hup : Lives (events d'.log) .up := hes ▸ h.traffic htraffic
    cases x with
    | shutdown => exact absurd rfl hx
    | loggedOff reason => exact .closing hup (.inl rfl)
    | disconnected =>
        refine ⟨.down, ?_, ?_⟩
        · rw [leave_events]
          exact .snoc hup .fall
        · have hph := (drain_steady { d' with phase := .backoff initialBackoff } d'.inbox).phase
          simp only [SessionDriver.leave, publish, emit, failAllPending, drainInbox, hph, Matches]
  · obtain rfl : x = .shutdown := Option.some.inj hx
    rcases hstop with rfl | rfl
    · have hstop : Lives (events d'.log) (.stopping false false) := hes ▸ .snoc h (.stop false)
      exact .closing hstop (.inr ⟨_, _, rfl⟩)
    · have happ : events d'.log =
          events d.log ++ [.stop true] ++ [.write emsgClientLogoff] := by rw [hes]; simp
      have hstop : Lives (events d'.log) (.stopping false false) :=
        happ ▸ .snoc (.snoc h (.stop true)) (.farewell false)
      exact .closing hstop (.inr ⟨_, _, rfl⟩)

/-- A command that arrives while the socket is down is no event, or a wish to stop. -/
theorem Follows.commandDown {s : Stage} (c : Option Command) (h : Lives (events d.log) s)
    (hmatch : Matches d.phase s) (hstop : ∀ logoff, Next s (.stop logoff) (.stopping true false)) :
    (d.onCommandDown c).Follows := by
  rcases c with _ | ⟨emsg, body, deadline, ch⟩ | ⟨emsg, body, ch⟩ | ch
  · refine .closing (s := .stopping true false) ?_ (.inr ⟨_, _, rfl⟩)
    exact events_append d.log _ ▸ .snoc h (hstop false)
  · refine ⟨s, ?_, hmatch⟩
    simpa [onCommandDown, answerWhileDown, events, List.filterMap_cons, Effect.event?,
      Command.event?] using h
  · refine ⟨s, ?_, hmatch⟩
    simpa [onCommandDown, answerWhileDown, events, List.filterMap_cons, Effect.event?,
      Command.event?] using h
  · refine .closing (s := .stopping true false) ?_ (.inr ⟨_, _, rfl⟩)
    have hlog : events (d.answerWhileDown (some (.logoff ch))).1.log =
        events d.log ++ [.stop true] := by
      simp [answerWhileDown, events, List.filterMap_cons, Effect.event?, Command.event?]
    exact hlog ▸ .snoc h (hstop true)

/-- **Step lemma.** Every step of the driver is a path of the automaton. -/
theorem Follows.step {i : Input} (hrest : d.Resting) (hd : d.Follows)
    (h : d.step P i = some d') : d'.Follows := by
  obtain ⟨s, hs, hm⟩ := hd
  cases step_takes h with
  | abandon ch => exact ⟨s, hs, hm⟩
  | @loop l i r hph hnew hr =>
      simp only [Resting, hph] at hrest
      simp only [Matches, hph] at hm
      subst hm
      have hev := (runConnected_branch hrest.2 hr).events
      rcases hr2 : r.2 with l' | x
      · simp only [hr2, Turn.exit?] at hev
        obtain ⟨es, hes, ⟨-, htraffic⟩ | ⟨hx, -⟩⟩ := hev
        · simp only [resume, hr2]
          exact ⟨.up, hes ▸ hs.traffic htraffic, rfl⟩
        · cases hx
      · simp only [hr2, Turn.exit?] at hev
        simp only [resume, hr2]
        exact .leave hs hev
  | commandDown c write hdown hnew =>
      rcases hdown with ⟨secs, hph⟩ | ⟨secs, hph⟩ <;> simp only [Matches, hph] at hm <;> subst hm
      · exact .commandDown c hs (by simp only [Matches, hph]) .stopDown
      · exact .commandDown c hs (by simp only [Matches, hph]) .stopDialing
  | wake hph =>
      simp only [Matches, hph] at hm
      subst hm
      exact ⟨.dialing, events_append d.log _ ▸ .snoc hs .dial, rfl⟩
  | refused now e hph hrej =>
      simp only [Matches, hph] at hm
      subst hm
      exact ⟨.down, events_append d.log _ ▸ .snoc hs (.retry e hrej), rfl⟩
  | rejected now e hph hrej =>
      simp only [Matches, hph] at hm
      subst hm
      refine ⟨.rejected e, ?_, rfl⟩
      rw [finish_events]
      exact events_append d.log _ ▸ .snoc hs (.reject e hrej)
  | @live secs items c now hph hc =>
      simp only [Matches, hph] at hm
      subst hm
      refine ⟨.up, ?_, rfl⟩
      have hlog : events (d.goLive now items c.1 c.2).log =
          events d.log ++ [.publish (.loggedOn c.1.steamId)] := by
        simp [goLive, enterConnected, events, List.filterMap_cons, Effect.event?]
      exact hlog ▸ .snoc hs (.live _)
  | @closed result hph =>
      rcases result with e | reason
      · simp only [Matches, hph] at hm
        subst hm
        have hlog : events (d.conclude (.error e)).log =
            events d.log ++ [.publish (.failed e.display)] ++ [.returned (.error e)] := by
          simp [conclude, events, Effect.event?]
        exact ⟨_, hlog ▸ .snoc (.snoc hs (.fail e)) (.finish _), rfl⟩
      · have hlog : events (d.conclude (.ok reason)).log =
            events d.log ++ [.publish (.loggedOff reason)] ++ [.returned (.ok ())] := by
          simp [conclude, events, Effect.event?]
        have hclosed :
            Lives (events d.log ++ [.publish (.loggedOff reason)]) (.closed (.ok ())) := by
          simp only [Matches, hph] at hm
          rcases hm with rfl | ⟨down, farewell, rfl⟩
          · exact .snoc hs (.evict reason)
          · exact .snoc hs (.close down farewell reason)
        exact ⟨_, hlog ▸ .snoc hclosed (.finish _), rfl⟩

/-- **The driver refines the automaton.** -/
theorem Reachable.lives (h : Reachable P d) : d.Follows := by
  refine h.invariant_of_step ?_ fun d d' i hrest hd hstep => hd.step hrest hstep
  intro now items d₀ h₀
  obtain ⟨c, -, hs⟩ := spawn_spec h₀
  obtain ⟨l, hl, -⟩ := hs.phase
  refine ⟨.up, ?_, by rw [hl]; rfl⟩
  rw [hs.log]
  exact .snoc .nil (.start _)

/-! ### The lifecycle of the driver -/

/-- What may be published after the last logon, by the phase of the driver. -/
def PhaseTail : Phase → List SessionState → Prop
  | .connected _, tail => tail = []
  | .backoff _, tail => tail = [.connecting]
  | .connecting _, tail => tail = [.connecting]
  | .closing _, tail => tail = [] ∨ tail = [.connecting]
  | .stopped res, tail => ∃ st, Final res st ∧ (tail = [st] ∨ tail = [.connecting, st])

section Matches

variable {ph : Phase} {s : Stage}

/-- A driver that runs has begun. -/
theorem Matches.ne_fresh (h : Matches ph s) : s ≠ .fresh := by
  rintro rfl
  rcases ph with l | secs | secs | (e | reason) | res <;> simp [Matches] at h

/-- What may be published in a stage may be in its phases. -/
theorem Matches.tail (h : Matches ph s) {tail : List SessionState} (ht : Tail s tail) :
    PhaseTail ph tail := by
  rcases ph with l | secs | secs | (e | reason) | res
  · obtain rfl : s = .up := h
    exact ht
  · obtain rfl : s = .down := h
    exact ht
  · obtain rfl : s = .dialing := h
    exact ht
  · obtain rfl : s = .rejected e := h
    exact .inr ht
  · rcases h with rfl | ⟨_ | _, farewell, rfl⟩
    · exact .inl ht
    · exact .inl ht
    · exact .inr ht
  · obtain rfl : s = .over res := h
    exact ht

/-- A stage is a rejection exactly if its phase is. -/
theorem Matches.rejected_iff (h : Matches ph s) (e : Error) :
    (s = .rejected e ∨ s = .closed (.error e) ∨ s = .over (.error e)) ↔
      ph = .closing (.error e) ∨ ph = .stopped (.error e) := by
  rcases ph with l | secs | secs | (e' | reason) | res <;> simp only [Matches] at h
  · simp [h]
  · simp [h]
  · simp [h]
  · simp [h]
  · rcases h with rfl | ⟨down, farewell, rfl⟩ <;> simp
  · simp [h]

/-- A stage is the end exactly if its phase is. -/
theorem Matches.over_iff (h : Matches ph s) (res : Except Error Unit) :
    s = .over res ↔ ph = .stopped res := by
  rcases ph with l | secs | secs | (e' | reason) | res' <;> simp only [Matches] at h
  · simp [h]
  · simp [h]
  · simp [h]
  · simp [h]
  · rcases h with rfl | ⟨down, farewell, rfl⟩ <;> simp
  · simp [h]

end Matches

/-- A driver that has returned does nothing more. -/
theorem stopped_log {res : Except Error Unit} {is : List Input} (hph : d.phase = .stopped res)
    (h : Ledger.exec (step P) d is = some d') : d'.log = d.log := by
  have key : d'.phase = .stopped res ∧ d'.log = d.log := by
    refine Ledger.exec_invariant (I := fun e => e.phase = .stopped res ∧ e.log = d.log) ?_ h
      ⟨hph, rfl⟩
    rintro e i e' ⟨hph, hlog⟩ hstep
    cases step_takes hstep with
    | abandon ch => exact ⟨hph, hlog⟩
    | loop hph' _ _ => simp [hph] at hph'
    | commandDown c write hdown _ => rcases hdown with ⟨s, hs⟩ | ⟨s, hs⟩ <;> simp [hph] at hs
    | wake hph' => simp [hph] at hph'
    | refused now e hph' _ => simp [hph] at hph'
    | rejected now e hph' _ => simp [hph] at hph'
    | live now hph' _ => simp [hph] at hph'
    | closed hph' => simp [hph] at hph'
  exact key.2

/-- An effect that writes a Steam message. -/
def Effect.isWrite : Effect → Bool
  | .wrote _ _ _ _ => true
  | _ => false

/-- Every write is an event, and every event of traffic is a write or a Ping. -/
theorem countP_isWrite (log : List Effect) :
    log.countP Effect.isWrite = (events log).countP fun e => e.isTraffic && e != .ping := by
  induction log with
  | nil => rfl
  | cons x log ih =>
      have hcons : events (x :: log) = x.event?.toList ++ events log := by
        rcases h : x.event? with _ | e <;> simp [events, h]
      rw [hcons, List.countP_append, ← ih, List.countP_cons, Nat.add_comm]
      congr 1
      cases x with
      | took c => cases c <;> rfl
      | _ => rfl

/-- An entry of the ledger gives its event. -/
theorem mem_events {x : Effect} {e : Event} {log : List Effect} (h : x ∈ log)
    (hx : x.event? = some e) : e ∈ events log :=
  List.mem_filterMap.mpr ⟨x, h, hx⟩

/-- A refusal is an event of its own. -/
theorem mem_events_refuse {e : Error} {log : List Effect} :
    .refuse e ∈ events log ↔ .refused e ∈ log := by
  refine ⟨?_, fun h => mem_events h rfl⟩
  intro h
  obtain ⟨x, hx, he⟩ := List.mem_filterMap.mp h
  cases x with
  | took c => cases c <;> cases he
  | refused e' => cases he; exact hx
  | _ => cases he

/-- So is the return of the driver. -/
theorem mem_events_returned {res : Except Error Unit} {log : List Effect} :
    .returned res ∈ events log ↔ .returned res ∈ log := by
  refine ⟨?_, fun h => mem_events h rfl⟩
  intro h
  obtain ⟨x, hx, he⟩ := List.mem_filterMap.mp h
  cases x with
  | took c => cases c <;> cases he
  | returned res' => cases he; exact hx
  | _ => cases he

/-- The end of a session holds no write, and nothing that the start of one does. -/
theorem isLast_cases {e : Event} (h : e.isLast) :
    (∃ reason, e = .publish (.loggedOff reason)) ∨ ∃ res, e = .returned res := by
  cases e with
  | publish st => cases st <;> first | exact .inl ⟨_, rfl⟩ | cases h
  | returned res => exact .inr ⟨res, rfl⟩
  | _ => cases h

/-- After a wish to stop: one farewell at most. -/
theorem Follows.stopped {p q : List Effect} {x : Effect} {logoff : Bool} (hd : d.Follows)
    (hlog : d.log = p ++ x :: q) (hx : x.event? = some (.stop logoff)) :
    ¬ d.Down ∧ (∀ l, d.phase ≠ .connected l) ∧
      ∃ rest, (∀ e ∈ rest, e.isLast) ∧
        (events q = rest ∨ logoff = true ∧ events q = .write emsgClientLogoff :: rest) := by
  obtain ⟨s, hs, hm⟩ := hd
  have hw : events d.log = events p ++ .stop logoff :: events q := by
    rw [hlog, events_append]
    simp [events, hx]
  obtain ⟨hstop, -, hrest⟩ := hs.stopped hw
  refine ⟨?_, ?_, hrest⟩
  · rintro (⟨secs, hph⟩ | ⟨secs, hph⟩) <;> simp only [Matches, hph] at hm <;> subst hm <;>
      cases hstop
  · intro l hph
    simp only [Matches, hph] at hm
    subst hm
    cases hstop

/-- **The lifecycle of a session.** In every run:

* the published states are a logon, reconnects, at most one `Connecting` that no logon
  follows, and at the end one final state; a driver that has returned does nothing more;
* `run` fails, and its final state says so, if and only if a connect attempt was rejected;
  otherwise it returns `Ok`, with a final state that says `LoggedOff`;
* after a `Logoff` command was taken, or the last handle was seen gone, no connect attempt
  is started or under way, and nothing is written but the one `ClientLogOff` frame of the
  command. -/
theorem session_lifecycle (hd : Reachable P d) :
    (∃ id ids tail, publications (events d.log) = .loggedOn id :: (cycles ids ++ tail) ∧
      PhaseTail d.phase tail) ∧
    (∀ res is d', d.phase = .stopped res → Ledger.exec (step P) d is = some d' →
      d'.log = d.log) ∧
    (∀ e, (.refused e ∈ d.log ∧ e.isAuthRejected = true) ↔
      d.phase = .closing (.error e) ∨ d.phase = .stopped (.error e)) ∧
    (∀ result, d.phase = .closing result → ∃ d', d.step P .closed = some d' ∧
      d'.phase = .stopped (result.map fun _ => ())) ∧
    (∀ res, .returned res ∈ d.log ↔ d.phase = .stopped res) ∧
    ∀ p x q, d.log = p ++ x :: q → (x = .handlesGone ∨ ∃ ack, x = .took (.logoff ack)) →
      ¬ d.Down ∧ (∀ l, d.phase ≠ .connected l) ∧ .dialed ∉ q ∧
      (∀ id, .published (.loggedOn id) ∉ q) ∧ (∀ conn sent, .pinged conn sent ∉ q) ∧
      q.countP Effect.isWrite ≤ 1 ∧
      ∀ conn frame origin sent, .wrote conn frame origin sent ∈ q →
        frame.emsg = emsgClientLogoff ∧ ∃ ack, x = .took (.logoff ack) := by
  obtain ⟨s, hs, hm⟩ := hd.lives
  refine ⟨?_, fun _ _ _ => stopped_log, ?_, ?_, ?_, ?_⟩
  · obtain ⟨id, ids, tail, hpub, htail⟩ := hs.publications hm.ne_fresh
    exact ⟨id, ids, tail, hpub, hm.tail htail⟩
  · intro e
    rw [← mem_events_refuse, hs.refused e, hm.rejected_iff e]
  · rintro (e | reason) hph
    · exact ⟨d.conclude (.error e), by simp [step, hph], rfl⟩
    · exact ⟨d.conclude (.ok reason), by simp [step, hph], rfl⟩
  · intro res
    rw [← mem_events_returned, hs.returned res, hm.over_iff res]
  · intro p x q hlog hx
    obtain ⟨logoff, hev, hlogoff⟩ : ∃ logoff, x.event? = some (.stop logoff) ∧
        (logoff = true → ∃ ack, x = .took (.logoff ack)) := by
      rcases hx with rfl | ⟨ack, rfl⟩
      · exact ⟨false, rfl, fun h => absurd h Bool.false_ne_true⟩
      · exact ⟨true, rfl, fun _ => ⟨ack, rfl⟩⟩
    obtain ⟨hdown, hconn, rest, hrest, hq⟩ := hd.lives.stopped hlog hev
    have hcases : ∀ e ∈ events q, (e = .write emsgClientLogoff ∧ logoff = true) ∨ e.isLast := by
      intro e he
      rcases hq with hq | ⟨hl, hq⟩
      · exact .inr (hrest e (hq ▸ he))
      · rcases List.mem_cons.mp (hq ▸ he) with rfl | he
        · exact .inl ⟨rfl, hl⟩
        · exact .inr (hrest e he)
    have hnot : ∀ {y : Effect} {e : Event}, y.event? = some e → e.isLast = false →
        (e = .write emsgClientLogoff → False) → y ∉ q := by
      intro y e hy hlast hwrite hmem
      rcases hcases e (mem_events hmem hy) with ⟨he, -⟩ | he
      · exact hwrite he
      · simp [hlast] at he
    refine ⟨hdown, hconn, hnot rfl rfl (by simp), fun id => hnot rfl rfl (by simp),
      fun conn sent => hnot rfl rfl (by simp), ?_, ?_⟩
    · have hzero : rest.countP (fun e => e.isTraffic && e != .ping) = 0 := by
        rw [List.countP_eq_zero]
        intro e he
        rcases isLast_cases (hrest e he) with ⟨reason, rfl⟩ | ⟨res, rfl⟩ <;>
          exact Bool.false_ne_true
      rw [countP_isWrite]
      rcases hq with hq | ⟨-, hq⟩
      · rw [hq]
        omega
      · rw [hq, List.countP_cons, hzero]
        split <;> omega
    · intro conn frame origin sent hmem
      rcases hcases _ (mem_events hmem rfl) with ⟨he, hl⟩ | he
      · exact ⟨Event.write.inj he, hlogoff hl⟩
      · cases he

/-- A session that was asked to log off has returned. -/
theorem session_lifecycle_closed :
    .took (.logoff 3) ∈ Sample.closed.log ∧ .returned (.ok ()) ∈ Sample.closed.log := by
  have hreach : Reachable Sample.prost Sample.closed :=
    reachable_session.run (Option.some_get _).symm
  obtain ⟨-, -, -, -, hret, -⟩ := session_lifecycle hreach
  exact ⟨by decide, (hret (.ok ())).mpr (by decide)⟩

end SessionDriver

end Steamroids
