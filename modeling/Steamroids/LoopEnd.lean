import Steamroids.Reading
import Steamroids.Requests

/-!
# How the Connected Loop Ends

The connected loop is left as `Disconnected` by a failed write, an idle socket, a cut
stream or a transient logoff (`breaks`), and for good by a terminal logoff, a `Logoff`
command or the last handle going (`stops`). Either may happen with messages still in the
inbox (`leftover`). Only the first way looks at them again, and it routes them without
classifying any.

## Main results

* `Branch.exit_spec`: what ends the loop, and what it leaves in the inbox.
* `Branch.again_spec`: what a turn of the loop does that does not end it.
* `leave_dispatched`: what is dispatched on the way out of the loop.
-/

namespace Steamroids

namespace Effect

/-- Effects of work within a connection that neither take a message from it nor publish
anything. -/
def isRoutine : Effect → Bool
  | .took _ => true
  | .handlesGone => true
  | .wrote _ _ _ _ => true
  | .pinged _ _ => true
  | .acked _ _ => true
  | .replied _ (.error _) _ => true
  | .reaped _ => true
  | _ => false

end Effect

namespace SessionDriver

variable {P : Prost} {d d' : SessionDriver}

/-! ### What ends the loop -/

/-- A `ClientLoggedOff` that ends the session. -/
def isTerminal (P : Prost) (msg : SteamMessage) : Bool :=
  msg.emsg = emsgClientLoggedOff && classifyLogoff P msg ≠ .disconnected

/-- A `ClientLoggedOff` that asks for a reconnect. -/
def isTransient (P : Prost) (msg : SteamMessage) : Bool :=
  msg.emsg = emsgClientLoggedOff && classifyLogoff P msg = .disconnected

/-- The messages at hand when the read branch completes. -/
def atHand (P : Prost) (d : SessionDriver) : Input → List SteamMessage
  | .poll => d.inbox
  | .item _ it => (itemMessages P it).getD []
  | _ => []

/-- What an input leaves in the inbox. -/
def leftover (P : Prost) (d : SessionDriver) : Input → List SteamMessage
  | .poll => d.inbox.tail
  | .item _ it => ((itemMessages P it).getD []).tail
  | _ => d.inbox

/-- The input breaks the connection: a write fails, the socket has been silent for too
long, the stream is cut, or the next message is a transient logoff. -/
def breaks (P : Prost) (d : SessionDriver) : Input → Bool
  | .command (some (.notify _ _ _)) write => write.isSome
  | .command (some (.request _ _ _ _)) write => write.isSome
  | .heartbeat _ write ping => write.isSome || ping.isSome
  | .sweep now => d.readIdleExpired now
  | .poll => (d.atHand P .poll).head?.any (isTransient P)
  | .item now it => (itemMessages P it).isNone ||
      (d.atHand P (.item now it)).head?.any (isTransient P)
  | _ => false

/-- The input stops the driver: the last handle is gone, a `Logoff` is taken, or the next
message is a terminal logoff. -/
def stops (P : Prost) (d : SessionDriver) (i : Input) : Bool :=
  match i with
  | .command none _ => true
  | .command (some (.logoff _)) _ => true
  | _ => (d.atHand P i).head?.any (isTerminal P)

/-- A logoff is no shutdown by the handles. -/
theorem classifyLogoff_ne_shutdown (P : Prost) (msg : SteamMessage) :
    classifyLogoff P msg ≠ .shutdown := by
  simp only [classifyLogoff]
  split
  · simp
  · split <;> simp

/-- The end of the loop on reading a message. -/
theorem onReceived_exit {msg : SteamMessage} {x : LoopExit}
    (h : (d.onReceived P (.ok msg)).2 = some x) :
    msg.emsg = emsgClientLoggedOff ∧ x = classifyLogoff P msg ∧
      (d.onReceived P (.ok msg)).1 =
        { d with arrivals := d.arrivals + 1, log := d.log ++ [.evicted (d.arrival msg)] } := by
  by_cases hoff : msg.emsg = emsgClientLoggedOff
  · simp only [onReceived, hoff, if_true, Option.some.injEq] at h ⊢
    exact ⟨trivial, h.symm, rfl⟩
  · simp [onReceived, hoff] at h

/-- A turn that exits has the exit of its branch. -/
theorem ofBranch_eq_exit {l : ConnectedLoop} {y : Option LoopExit} {x : LoopExit}
    (h : Turn.ofBranch l y = .exit x) : y = some x := by
  cases y with
  | none => cases h
  | some y => exact congrArg some (Turn.exit.inj h)

/-- A turn that goes on has a branch without an exit. -/
theorem ofBranch_eq_again {l l' : ConnectedLoop} {y : Option LoopExit}
    (h : Turn.ofBranch l y = .again l') : y = none := by
  cases y with
  | none => rfl
  | some y => cases h

/-- A logoff at hand is transient or terminal. -/
theorem logoff_cases {msg : SteamMessage} {i : Input} (hoff : msg.emsg = emsgClientLoggedOff)
    (hhand : (d.atHand P i).head? = some msg) (hi : (∃ now it, i = .item now it) ∨ i = .poll) :
    (classifyLogoff P msg = .disconnected ∧ d.breaks P i) ∨
      (classifyLogoff P msg ≠ .disconnected ∧ d.stops P i) := by
  by_cases hx : classifyLogoff P msg = .disconnected
  · refine .inl ⟨hx, ?_⟩
    rcases hi with ⟨now, it, rfl⟩ | rfl <;> simp [breaks, hhand, isTransient, hoff, hx]
  · refine .inr ⟨hx, ?_⟩
    rcases hi with ⟨now, it, rfl⟩ | rfl <;> simp [stops, hhand, isTerminal, hoff, hx]

/-- What the loop leaves behind when it ends. -/
structure LoopEnd (P : Prost) (d : SessionDriver) (i : Input) (d₁ : SessionDriver)
    (x : LoopExit) : Prop where
  inbox : d₁.inbox = d.leftover P i
  pending : d₁.pending = d.pending
  cause : (x = .disconnected ∧ d.breaks P i) ∨ (x ≠ .disconnected ∧ d.stops P i)
  dispatched : dispatched d₁.log = dispatched d.log
  evicted : ∀ a, .evicted a ∈ d₁.log → .evicted a ∈ d.log ∨ x = classifyLogoff P a.msg

/-- What is dispatched in two stretches follows one another. -/
theorem dispatched_append (log es : List Effect) :
    Steamroids.dispatched (log ++ es) = Steamroids.dispatched log ++ Steamroids.dispatched es :=
  List.filterMap_append

/-- Routine effects dispatch nothing. -/
theorem dispatched_routine {es : List Effect} (h : ∀ e ∈ es, e.isRoutine) :
    Steamroids.dispatched es = [] := by
  refine List.filterMap_eq_nil_iff.mpr ?_
  intro e he
  have hr := h e he
  cases e with
  | replied ch res delivered => cases res <;> first | rfl | cases hr
  | _ => first | rfl | cases hr

/-- Routine effects evict nothing. -/
theorem evicted_not_routine {es : List Effect} (h : ∀ e ∈ es, e.isRoutine) (a : Arrival) :
    .evicted a ∉ es :=
  fun hmem => absurd (h _ hmem) (by simp [Effect.isRoutine])

/-- The loop ends in the command, heartbeat or sweep branch. -/
theorem LoopEnd.of_routine {i : Input} {x : LoopExit} {es : List Effect}
    (hlog : d'.log = d.log ++ es) (hes : ∀ e ∈ es, e.isRoutine) (hin : d'.inbox = d.leftover P i)
    (hpend : d'.pending = d.pending)
    (hcause : (x = .disconnected ∧ d.breaks P i) ∨ (x ≠ .disconnected ∧ d.stops P i)) :
    LoopEnd P d i d' x := by
  refine ⟨hin, hpend, hcause, ?_, ?_⟩
  · rw [hlog, dispatched_append, dispatched_routine hes, List.append_nil]
  · intro a ha
    rw [hlog] at ha
    rcases List.mem_append.mp ha with ha | ha
    · exact .inl ha
    · exact absurd ha (evicted_not_routine hes a)

/-- The loop ends on reading a logoff. -/
theorem LoopEnd.of_evicted {i : Input} {msg : SteamMessage} {es : List Effect}
    (hes : ∀ e ∈ es, ∃ conn it, e = .yielded conn it)
    (hlog : d'.log = d.log ++ es ++ [.evicted (d.arrival msg)]) (hin : d'.inbox = d.leftover P i)
    (hpend : d'.pending = d.pending) (hoff : msg.emsg = emsgClientLoggedOff)
    (hhand : (d.atHand P i).head? = some msg) (hi : (∃ now it, i = .item now it) ∨ i = .poll) :
    LoopEnd P d i d' (classifyLogoff P msg) := by
  refine ⟨hin, hpend, logoff_cases hoff hhand hi, ?_, ?_⟩
  · have hnil : Steamroids.dispatched es = [] := by
      refine List.filterMap_eq_nil_iff.mpr ?_
      intro e he
      obtain ⟨conn, it, rfl⟩ := hes e he
      rfl
    rw [hlog, dispatched_append, dispatched_append, hnil]
    simp [Steamroids.dispatched, Effect.dispatch?]
  · intro a ha
    rw [hlog, List.append_assoc] at ha
    rcases List.mem_append.mp ha with ha | ha
    · exact .inl ha
    · rcases List.mem_append.mp ha with ha | ha
      · obtain ⟨conn, it, he⟩ := hes _ ha
        cases he
      · obtain rfl : a = d.arrival msg := by simpa using ha
        exact .inr rfl

/-- The branch of the commands has routine effects only. -/
theorem onCommand_log (d : SessionDriver) (c : Option Command) (write : Option String) :
    ∃ es, (d.onCommand c write).1.log = d.log ++ es ∧ ∀ e ∈ es, e.isRoutine := by
  rcases c with _ | ⟨emsg, body, deadline, ch⟩ | ⟨emsg, body, ch⟩ | ch
  · exact ⟨_, rfl, by simp [Effect.isRoutine]⟩
  · cases write with
    | none =>
        refine ⟨_, by simp only [onCommand, sendFrame, emit, List.append_assoc]; rfl, ?_⟩
        simp [Effect.isRoutine]
    | some e =>
        refine ⟨_, by simp only [onCommand, sendFrame, reply, emit, List.append_assoc]; rfl, ?_⟩
        simp [Effect.isRoutine]
  · refine ⟨_, by simp only [onCommand, sendFrame, emit, List.append_assoc]; rfl, ?_⟩
    simp [Effect.isRoutine]
  · refine ⟨_, by simp only [onCommand, sendFrame, emit, List.append_assoc]; rfl, ?_⟩
    simp [Effect.isRoutine]

/-- A command leaves the inbox as it is. -/
@[simp] theorem onCommand_inbox (d : SessionDriver) (c : Option Command) (write : Option String) :
    (d.onCommand c write).1.inbox = d.inbox := by
  rcases c with _ | ⟨emsg, body, deadline, ch⟩ | ⟨emsg, body, ch⟩ | ch
  · rfl
  · cases write <;> rfl
  · rfl
  · rfl

/-- A command that ends the loop enters nothing in the table. -/
theorem onCommand_exit {c : Option Command} {write : Option String} {x : LoopExit}
    (h : (d.onCommand c write).2 = some x) :
    (d.onCommand c write).1.pending = d.pending ∧
      ((x = .disconnected ∧ d.breaks P (.command c write)) ∨
        (x ≠ .disconnected ∧ d.stops P (.command c write))) := by
  rcases c with _ | ⟨emsg, body, deadline, ch⟩ | ⟨emsg, body, ch⟩ | ch
  · obtain rfl : LoopExit.shutdown = x := Option.some.inj h
    exact ⟨rfl, .inr ⟨by simp, rfl⟩⟩
  · cases write with
    | none => cases h
    | some e =>
        obtain rfl : LoopExit.disconnected = x := Option.some.inj h
        exact ⟨rfl, .inl ⟨rfl, rfl⟩⟩
  · cases write with
    | none => cases h
    | some e =>
        obtain rfl : LoopExit.disconnected = x := Option.some.inj h
        exact ⟨rfl, .inl ⟨rfl, rfl⟩⟩
  · obtain rfl : LoopExit.shutdown = x := Option.some.inj h
    exact ⟨rfl, .inr ⟨by simp, rfl⟩⟩

/-- The branch of the heartbeat has routine effects only. -/
theorem onHeartbeat_log (d : SessionDriver) (write ping : Option String) :
    ∃ es, (d.onHeartbeat write ping).1.log = d.log ++ es ∧ ∀ e ∈ es, e.isRoutine := by
  cases write with
  | none =>
      refine ⟨_, by simp only [onHeartbeat, sendFrame, emit, List.append_assoc]; rfl, ?_⟩
      simp [Effect.isRoutine]
  | some e => exact ⟨_, rfl, by simp [Effect.isRoutine]⟩

/-- Only a failed write ends the loop in the heartbeat branch. -/
theorem onHeartbeat_spec (d : SessionDriver) (now : Nat) (write ping : Option String) :
    (d.onHeartbeat write ping).1.inbox = d.inbox ∧
      (d.onHeartbeat write ping).1.pending = d.pending ∧
      ∀ x, (d.onHeartbeat write ping).2 = some x →
        x = .disconnected ∧ d.breaks P (.heartbeat now write ping) := by
  cases write with
  | none =>
      refine ⟨rfl, rfl, ?_⟩
      intro x hx
      cases ping with
      | none => cases hx
      | some e => exact ⟨(Option.some.inj hx).symm, rfl⟩
  | some e =>
      refine ⟨rfl, rfl, ?_⟩
      intro x hx
      exact ⟨(Option.some.inj hx).symm, rfl⟩

/-- To fail what is pending has routine effects only. -/
theorem failAllPending_routine (d : SessionDriver) (reason : String) :
    ∃ es, (d.failAllPending reason).log = d.log ++ es ∧ ∀ e ∈ es, e.isRoutine := by
  refine ⟨_, rfl, ?_⟩
  intro e he
  obtain ⟨entry, -, rfl⟩ := List.mem_map.mp he
  rfl

/-- To give requests up has routine effects only. -/
theorem sweepPending_routine (d : SessionDriver) (now : Nat) :
    ∃ es, (d.sweepPending now).log = d.log ++ es ∧ ∀ e ∈ es, e.isRoutine := by
  refine ⟨_, rfl, ?_⟩
  intro e he
  rcases mem_swept he with ⟨entry, ⟨rfl, -⟩ | rfl⟩ <;> rfl

/-- What every branch that ends the loop leaves behind. -/
theorem Branch.exit_spec {l : ConnectedLoop} {i : Input} {x : LoopExit}
    (h : Branch P d l i d' (.exit x)) : LoopEnd P d i d' x := by
  generalize ht : Turn.exit x = t at h
  cases h with
  | command c write =>
      obtain ⟨es, hlog, hes⟩ := onCommand_log d c write
      obtain ⟨hpend, hcause⟩ := onCommand_exit (P := P) (ofBranch_eq_exit ht.symm)
      exact .of_routine hlog hes (onCommand_inbox d c write) hpend hcause
  | park hin => cases ht
  | wait hread => cases ht
  | @pop msg rest hin =>
      obtain ⟨hoff, rfl, heq⟩ := onReceived_exit (ofBranch_eq_exit ht.symm)
      rw [heq]
      exact .of_evicted (List.forall_mem_nil _) (by rw [List.append_nil]; rfl)
        (by simp [leftover, hin]) rfl hoff (by simp [atHand, hin]) (.inr rfl)
  | skip now hread hin hit => cases ht
  | @receive now it msg rest hread hin hit =>
      obtain ⟨hoff, rfl, heq⟩ := onReceived_exit (ofBranch_eq_exit ht.symm)
      rw [heq]
      exact .of_evicted (List.forall_mem_singleton.mpr ⟨d.conn, it, rfl⟩) rfl
        (by simp [leftover, hit]) rfl hoff (by simp [atHand, hit]) (.inl ⟨now, it, rfl⟩)
  | @cut now it hread hin hit =>
      obtain rfl := Turn.exit.inj ht
      refine ⟨by simp [received, leftover, hit], rfl, .inl ⟨rfl, by simp [breaks, hit]⟩, ?_, ?_⟩
      · simp [received, touch, Steamroids.dispatched, Effect.dispatch?]
      · intro a ha
        exact .inl (by simpa [received, touch] using ha)
  | heartbeat now write ping hle =>
      obtain ⟨es, hlog, hes⟩ := onHeartbeat_log d write ping
      obtain ⟨hin, hpend, hexit⟩ := onHeartbeat_spec (P := P) d now write ping
      exact .of_routine hlog hes hin hpend (.inl (hexit x (ofBranch_eq_exit ht.symm)))
  | sweep now hle =>
      have hx := ofBranch_eq_exit ht.symm
      by_cases hidle : d.readIdleExpired now
      · simp only [onSweep, hidle, if_true, Option.some.injEq] at hx ⊢
        subst hx
        exact .of_routine (List.append_nil _).symm (List.forall_mem_nil _) rfl rfl
          (.inl ⟨rfl, hidle⟩)
      · simp [onSweep, hidle] at hx

/-! ### What a turn of the loop does -/

/-- A message that is dispatched counts as such. -/
theorem dispatch_dispatched (d : SessionDriver) (msg : SteamMessage) :
    Steamroids.dispatched (d.dispatch msg).log =
      Steamroids.dispatched d.log ++ [d.arrival msg] := by
  rcases hw : d.waiter msg with _ | ⟨jobid, entry⟩
  · rw [dispatch_of_none hw, dispatched_append]
    simp only [announce]
    split <;> rfl
  · rw [dispatch_of_some hw, dispatched_append]
    rfl

/-- To dispatch a message evicts nothing. -/
theorem dispatch_evicted {msg : SteamMessage} {a : Arrival}
    (h : .evicted a ∈ (d.dispatch msg).log) : .evicted a ∈ d.log := by
  rcases hw : d.waiter msg with _ | ⟨jobid, entry⟩
  · rw [dispatch_of_none hw] at h
    refine (List.mem_append.mp h).resolve_right fun hnew => ?_
    rcases mem_announce hnew with he | he <;> cases he
  · rw [dispatch_of_some hw] at h
    simpa using h

/-- A turn of the loop that does not end it: the inbox keeps its messages, but for one that
is dispatched and is no logoff. -/
structure LoopTurn (d : SessionDriver) (i : Input) (d₁ : SessionDriver) : Prop where
  inbox : d.inbox = [] ∨ (i ≠ .poll ∧ d₁.inbox = d.inbox) ∨
    (i = .poll ∧ ∃ msg, d.inbox = msg :: d₁.inbox ∧ msg.emsg ≠ emsgClientLoggedOff)
  dispatched : ∀ a ∈ dispatched d₁.log, a ∈ dispatched d.log ∨ a.msg.emsg ≠ emsgClientLoggedOff
  evicted : ∀ a, .evicted a ∈ d₁.log → .evicted a ∈ d.log

/-- A turn in the command, heartbeat or sweep branch. -/
theorem LoopTurn.of_routine {i : Input} {es : List Effect} (hlog : d'.log = d.log ++ es)
    (hes : ∀ e ∈ es, e.isRoutine) (hin : d'.inbox = d.inbox) (hi : i ≠ .poll) :
    LoopTurn d i d' := by
  refine ⟨.inr (.inl ⟨hi, hin⟩), ?_, ?_⟩
  · intro a ha
    rw [hlog, dispatched_append, dispatched_routine hes, List.append_nil] at ha
    exact .inl ha
  · intro a ha
    rw [hlog] at ha
    rcases List.mem_append.mp ha with ha | ha
    · exact ha
    · exact absurd ha (evicted_not_routine hes a)

/-- The loop goes on after reading a message only if it is no logoff. -/
theorem onReceived_again {msg : SteamMessage} (h : (d.onReceived P (.ok msg)).2 = none) :
    msg.emsg ≠ emsgClientLoggedOff ∧ (d.onReceived P (.ok msg)).1 = d.dispatch msg := by
  by_cases hoff : msg.emsg = emsgClientLoggedOff
  · simp [onReceived, hoff] at h
  · simp [onReceived, hoff]

/-- What every branch that goes on does to the inbox. -/
theorem Branch.again_spec {l l' : ConnectedLoop} {i : Input}
    (hpark : l.reading = .parked → d.inbox = []) (h : Branch P d l i d' (.again l')) :
    LoopTurn d i d' := by
  generalize ht : Turn.again l' = t at h
  cases h with
  | command c write =>
      obtain ⟨es, hlog, hes⟩ := onCommand_log d c write
      exact .of_routine hlog hes (onCommand_inbox d c write) (by simp)
  | park hin => exact ⟨.inl hin, fun _ => .inl, fun _ => id⟩
  | wait hread => exact ⟨.inl (hpark hread), fun _ => .inl, fun _ => id⟩
  | @pop msg rest hin =>
      obtain ⟨hoff, heq⟩ := onReceived_again (ofBranch_eq_again ht.symm)
      rw [heq]
      refine ⟨.inr (.inr ⟨rfl, msg, by simpa using hin, hoff⟩), ?_, fun _ => dispatch_evicted⟩
      intro a ha
      rw [dispatch_dispatched] at ha
      rcases List.mem_append.mp ha with ha | ha
      · exact .inl ha
      · obtain rfl := List.mem_singleton.mp ha
        exact .inr hoff
  | @skip now it hread hin hit =>
      refine ⟨.inl hin, ?_, ?_⟩
      · intro a ha
        exact .inl (by simpa [received, touch, Steamroids.dispatched, Effect.dispatch?] using ha)
      · intro a ha
        simpa [received, touch] using ha
  | @receive now it msg rest hread hin hit =>
      obtain ⟨hoff, heq⟩ := onReceived_again (ofBranch_eq_again ht.symm)
      rw [heq]
      refine ⟨.inl hin, ?_, ?_⟩
      · intro a ha
        rw [dispatch_dispatched] at ha
        rcases List.mem_append.mp ha with ha | ha
        · exact .inl (by simpa [received, touch, Steamroids.dispatched, Effect.dispatch?] using ha)
        · obtain rfl := List.mem_singleton.mp ha
          exact .inr hoff
      · intro a ha
        simpa [received, touch] using dispatch_evicted ha
  | cut now hread hin hit => cases ht
  | heartbeat now write ping hle =>
      obtain ⟨es, hlog, hes⟩ := onHeartbeat_log d write ping
      exact .of_routine hlog hes (onHeartbeat_spec (P := P) d now write ping).1 (by simp)
  | sweep now hle =>
      have hx := ofBranch_eq_again ht.symm
      by_cases hidle : d.readIdleExpired now
      · simp [onSweep, hidle] at hx
      · simp only [onSweep, hidle]
        obtain ⟨es, hlog, hes⟩ := sweepPending_routine d now
        exact .of_routine hlog hes rfl (by simp)

/-- What is drained was in the inbox. -/
theorem drain_dispatched (msgs : List SteamMessage) :
    (∀ a ∈ Steamroids.dispatched (d.drain msgs).log,
      a ∈ Steamroids.dispatched d.log ∨ a.msg ∈ msgs) ∧
      ∀ a, .evicted a ∈ (d.drain msgs).log → .evicted a ∈ d.log := by
  induction msgs generalizing d with
  | nil => exact ⟨fun _ => .inl, fun _ => id⟩
  | cons msg rest ih =>
      obtain ⟨hd, he⟩ := ih (d := { d with inbox := rest }.dispatch msg)
      refine ⟨?_, ?_⟩
      swap
      · intro a ha
        have hlog : .evicted a ∈ { d with inbox := rest }.log := dispatch_evicted (he a ha)
        exact hlog
      intro a ha
      rcases hd a ha with ha | ha
      · rw [dispatch_dispatched] at ha
        rcases List.mem_append.mp ha with ha | ha
        · exact .inl ha
        · obtain rfl := List.mem_singleton.mp ha
          exact .inr List.mem_cons_self
      · exact .inr (List.mem_cons_of_mem msg ha)

/-- Leaving the loop dispatches at most what waits in the inbox, and reads no logoff. -/
theorem leave_dispatched (d : SessionDriver) (x : LoopExit) :
    (∀ a ∈ Steamroids.dispatched (d.leave x).log,
      a ∈ Steamroids.dispatched d.log ∨ (x = .disconnected ∧ a.msg ∈ d.inbox)) ∧
      ∀ a, .evicted a ∈ (d.leave x).log → .evicted a ∈ d.log := by
  have hfinish : ∀ result, Steamroids.dispatched (d.finish result).log =
      Steamroids.dispatched d.log ∧
      ∀ a, .evicted a ∈ (d.finish result).log → .evicted a ∈ d.log := by
    intro result
    obtain ⟨es, hlog, hes⟩ :=
      failAllPending_routine { d with phase := .closing result } "session driver stopped"
    have hlog' : (d.finish result).log = d.log ++ es := hlog
    rw [hlog', dispatched_append, dispatched_routine hes, List.append_nil]
    refine ⟨rfl, ?_⟩
    intro a ha
    rcases List.mem_append.mp ha with ha | ha
    · exact ha
    · exact absurd ha (evicted_not_routine hes a)
  cases x with
  | shutdown => exact ⟨fun a ha => .inl ((hfinish _).1 ▸ ha), (hfinish _).2⟩
  | loggedOff reason => exact ⟨fun a ha => .inl ((hfinish _).1 ▸ ha), (hfinish _).2⟩
  | disconnected =>
      let e : SessionDriver := { d with phase := .backoff initialBackoff }
      obtain ⟨es, hlog, hes⟩ := failAllPending_routine e.drainInbox "session reconnecting"
      have hlog' : (d.leave .disconnected).log =
          e.drainInbox.log ++ es ++ [.published .connecting] := by
        rw [← hlog]
        rfl
      obtain ⟨hdisp, hev⟩ := drain_dispatched (d := e) d.inbox
      rw [hlog']
      constructor
      · intro a ha
        simp only [dispatched_append, dispatched_routine hes, List.append_nil] at ha
        rcases List.mem_append.mp ha with ha | ha
        · rcases hdisp a ha with ha | ha
          · exact .inl ha
          · exact .inr ⟨rfl, ha⟩
        · simp [Steamroids.dispatched, Effect.dispatch?] at ha
      · intro a ha
        refine hev a ?_
        simp only [List.append_assoc, List.mem_append, List.mem_singleton, reduceCtorEq,
          or_false] at ha
        rcases ha with ha | ha
        · exact ha
        · exact absurd ha (evicted_not_routine hes a)

/-- To finish has routine effects only. -/
theorem finish_log (d : SessionDriver) (result : Except Error String) :
    ∃ es, (d.finish result).log = d.log ++ es ∧ ∀ e ∈ es, e.isRoutine :=
  failAllPending_routine { d with phase := .closing result } "session driver stopped"

/-- A command while the socket is down has routine effects only. -/
theorem onCommandDown_log (d : SessionDriver) (c : Option Command) :
    (d.onCommandDown c).inbox = d.inbox ∧
      ∃ es, (d.onCommandDown c).log = d.log ++ es ∧ ∀ e ∈ es, e.isRoutine := by
  rcases c with _ | ⟨emsg, body, deadline, ch⟩ | ⟨emsg, body, ch⟩ | ch
  · refine ⟨rfl, ?_⟩
    obtain ⟨es, hlog, hes⟩ := finish_log (d.emit .handlesGone) (.ok "session closed")
    refine ⟨.handlesGone :: es, ?_, by simpa [Effect.isRoutine] using hes⟩
    simpa [onCommandDown, answerWhileDown] using hlog
  · refine ⟨rfl, [.took (.request emsg body deadline ch),
      .replied ch (.error (.webSocket "session reconnecting")) (!d.isClosed ch)], ?_,
      by simp [Effect.isRoutine]⟩
    simp only [onCommandDown, answerWhileDown, Bool.false_eq_true, if_false, reply, emit,
      List.append_assoc]
    rfl
  · refine ⟨rfl, [.took (.notify emsg body ch),
      .acked ch (.error (.webSocket "session reconnecting"))], ?_, by simp [Effect.isRoutine]⟩
    simp [onCommandDown, answerWhileDown]
  · refine ⟨rfl, ?_⟩
    obtain ⟨es, hlog, hes⟩ := finish_log ((d.emit (.took (.logoff ch))).emit (.acked ch (.ok ())))
      (.ok "session closed")
    refine ⟨.took (.logoff ch) :: .acked ch (.ok ()) :: es, ?_, ?_⟩
    · simpa [onCommandDown, answerWhileDown] using hlog
    · simpa [Effect.isRoutine] using hes

end SessionDriver

end Steamroids
