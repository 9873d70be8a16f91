import Steamroids.LoopEnd

/-!
# A Terminal Logoff Ends the Session

A `ClientLoggedOff` with a terminal reason is meant to stop the session for good. It is
classified when the connected loop reads it; but while it waits in the inbox, behind other
messages of its batch, something else may break the connection. Then it is broadcast like
any other message, and the driver reconnects (`terminal_logoff_overtaken`).

That is the only way to miss it: in the runs that never break the connection in front of a
terminal logoff, one that was decoded ends the session.

## Main results

* `Doomed.step`, `Doomed.run`: a terminal logoff in the inbox is read in the end.
* `LogoffsRead.step`: no other way out of the inbox is open to it.
* `terminal_logoff_ends_session`: the whole statement.
-/

namespace Steamroids

namespace SessionDriver

variable {P : Prost} {d d' : SessionDriver}

/-! ### A terminal logoff ends the session -/

/-- The step does not break the connection in front of a terminal logoff. -/
def KeepsLogoff (P : Prost) (d : SessionDriver) (i : Input) : Prop :=
  (∃ l, d.phase = .connected l) → d.breaks P i → ∀ m ∈ d.leftover P i, ¬ isTerminal P m

/-- The session is about to end, or has ended, as logged off. -/
def Ending (d : SessionDriver) : Prop :=
  (∃ reason, d.phase = .closing (.ok reason)) ∨
    d.phase = .stopped (.ok ()) ∧ ∃ reason, d.state = .loggedOff reason ∧
      [.published (.loggedOff reason), .returned (.ok ())] <:+ d.log

/-- A terminal logoff waits for the connected loop, or has ended it. -/
def Doomed (P : Prost) (d : SessionDriver) : Prop :=
  ((∃ l, d.phase = .connected l) ∧ ∃ m ∈ d.inbox, isTerminal P m) ∨ d.Ending

/-- A session that ends does not reconnect. -/
theorem Ending.not_down (h : d.Ending) : ¬ d.Down := by
  rintro (⟨secs, hph⟩ | ⟨secs, hph⟩) <;>
    rcases h with ⟨reason, hph'⟩ | ⟨hph', -⟩ <;> simp [hph] at hph'

/-- A session that ends has left its loop. -/
theorem Ending.not_connected (h : d.Ending) (l : ConnectedLoop) : d.phase ≠ .connected l := by
  intro hph
  rcases h with ⟨reason, hph'⟩ | ⟨hph', -⟩ <;> simp [hph] at hph'

/-- A session that finishes without an error ends as logged off. -/
theorem finish_ending (d : SessionDriver) (reason : String) : (d.finish (.ok reason)).Ending :=
  .inl ⟨reason, rfl⟩

/-- The loop is left for good unless the connection breaks. -/
theorem leave_ending {x : LoopExit} (h : x ≠ .disconnected) : (d.leave x).Ending := by
  cases x with
  | shutdown => exact finish_ending d _
  | loggedOff reason => exact finish_ending d reason
  | disconnected => exact absurd rfl h

/-- **Step lemma.** A session that ends goes on ending. -/
theorem Ending.step {i : Input} (hd : d.Ending) (h : d.step P i = some d') : d'.Ending := by
  cases step_takes h with
  | abandon ch => exact hd
  | @loop l _ r hph _ _ => exact absurd hph (hd.not_connected l)
  | commandDown c write hdown _ => exact absurd hdown hd.not_down
  | wake hph => exact absurd (.inl ⟨_, hph⟩) hd.not_down
  | refused now e hph _ => exact absurd (.inr ⟨_, hph⟩) hd.not_down
  | rejected now e hph _ => exact absurd (.inr ⟨_, hph⟩) hd.not_down
  | live now hph _ => exact absurd (.inr ⟨_, hph⟩) hd.not_down
  | @closed result hph =>
      rcases hd with ⟨reason, hph'⟩ | ⟨hph', -⟩
      · obtain rfl : result = .ok reason := by simpa using hph.symm.trans hph'
        exact .inr ⟨rfl, reason, rfl, d.log, by simp [conclude]⟩
      · simp [hph] at hph'

/-- A terminal logoff in the inbox is still there after the connection breaks: the message whose
reading breaks it is another one. -/
theorem Branch.terminal_mem_leftover {l : ConnectedLoop} {i : Input} {t : Turn}
    (h : Branch P d l i d' t) (hbreak : d.breaks P i) {m : SteamMessage} (hm : m ∈ d.inbox)
    (hterm : isTerminal P m) : m ∈ d.leftover P i := by
  have hpoll : d.breaks P .poll → m ∈ d.leftover P .poll := by
    intro hbreak
    rcases hin : d.inbox with _ | ⟨msg, rest⟩
    · simp [hin] at hm
    · rw [hin] at hm
      simp only [breaks, atHand, hin, List.head?_cons, Option.any_some] at hbreak
      simp only [leftover, hin, List.tail_cons]
      rcases List.mem_cons.mp hm with rfl | hm
      · simp [isTransient, isTerminal] at hbreak hterm
        exact absurd hbreak.2 hterm.2
      · exact hm
  cases h with
  | command c write => exact hm
  | park _ => exact hpoll hbreak
  | wait _ => exact hpoll hbreak
  | pop _ => exact hpoll hbreak
  | skip now _ hin _ => simp [hin] at hm
  | receive now _ hin _ => simp [hin] at hm
  | cut now _ hin _ => simp [hin] at hm
  | heartbeat now write ping _ => exact hm
  | sweep now _ => exact hm

/-- **Step lemma.** A doomed session stays doomed, and each poll of its reader brings the
logoff nearer. -/
theorem Doomed.step {i : Input} (hrest : d.Resting) (hkeep : KeepsLogoff P d i)
    (hd : Doomed P d) (h : d.step P i = some d') :
    Doomed P d' ∧ ∀ l, d'.phase = .connected l →
      d'.inbox.length + (if i = .poll then 1 else 0) ≤ d.inbox.length := by
  rcases hd with ⟨⟨l, hph⟩, m, hm, hterm⟩ | hend
  swap
  · have hend' := hend.step h
    exact ⟨.inr hend', fun l hl => absurd hl (hend'.not_connected l)⟩
  have hoff : m.emsg = emsgClientLoggedOff := by
    simp only [isTerminal, Bool.and_eq_true, decide_eq_true_eq] at hterm
    exact hterm.1
  rcases step_connected hph h with ⟨ch, rfl, rfl⟩ | ⟨r, hr, rfl⟩
  · exact ⟨.inl ⟨⟨l, hph⟩, m, hm, hterm⟩, fun _ _ => by simp⟩
  · simp only [Resting, hph] at hrest
    have hb := runConnected_branch hrest.2 hr
    rcases hr2 : r.2 with l'' | x
    · rw [hr2] at hb
      simp only [resume, hr2]
      have hturn := hb.again_spec hrest.2
      rcases hturn.inbox with hnil | ⟨hi, hin⟩ | ⟨rfl, msg, hin, hne⟩
      · simp [hnil] at hm
      · refine ⟨.inl ⟨⟨l'', rfl⟩, m, by simpa [hin] using hm, hterm⟩, fun _ _ => ?_⟩
        simp [hi, hin]
      · rw [hin] at hm
        rcases List.mem_cons.mp hm with rfl | hm
        · exact absurd hoff hne
        · refine ⟨.inl ⟨⟨l'', rfl⟩, m, hm, hterm⟩, fun _ _ => ?_⟩
          simp [hin]
    · rw [hr2] at hb
      simp only [resume, hr2]
      have hloop := hb.exit_spec
      have hend : (r.1.leave x).Ending := by
        rcases hloop.cause with ⟨-, hbreak⟩ | ⟨hx, -⟩
        · exact absurd hterm
            (hkeep ⟨l, hph⟩ hbreak m (hb.terminal_mem_leftover hbreak hm hterm))
        · exact leave_ending hx
      exact ⟨.inr hend, fun l hl => absurd hl (hend.not_connected l)⟩

/-- **Run lemma.** A session with a terminal logoff in its inbox ends, at the latest when as many
messages were read as were waiting. -/
theorem Doomed.run {is : List Input} (hrest : d.Resting)
    (hkeep : Ledger.Guarded (SessionDriver.step P) (KeepsLogoff P) d is) (hd : Doomed P d)
    (h : Ledger.exec (SessionDriver.step P) d is = some d') :
    Doomed P d' ∧ ∀ l, d'.phase = .connected l →
      d'.inbox.length + is.count .poll ≤ d.inbox.length := by
  induction is generalizing d with
  | nil =>
      obtain rfl : d = d' := Option.some.inj h
      exact ⟨hd, fun _ _ => by simp⟩
  | cons i is ih =>
      obtain ⟨m, hm, hrun⟩ := Ledger.exec_cons_eq_some.mp h
      obtain ⟨hdm, hlen⟩ := hd.step hrest hkeep.1 hm
      obtain ⟨hd', hlen'⟩ := ih (step_resting hm hrest) (hkeep.2 m hm) hdm hrun
      refine ⟨hd', ?_⟩
      intro l hl
      rcases hdm with ⟨⟨lm, hlm⟩, -⟩ | hend
      · have h₁ := hlen lm hlm
        have h₂ := hlen' l hl
        by_cases hi : i = .poll
        · simp only [hi, if_true, List.count_cons_self] at h₁ ⊢
          omega
        · simp only [hi, if_false, List.count_cons_of_ne hi] at h₁ ⊢
          omega
      · have hend' : d'.Ending := Ledger.exec_invariant (I := Ending)
          (fun _ _ _ hs hstep => hs.step hstep) hrun hend
        exact absurd hl (hend'.not_connected l)

/-- What holds of the terminal logoffs in a run that never breaks a connection in front of
one: none goes through `dispatch`, and one that was read ends the session. -/
structure LogoffsRead (P : Prost) (d : SessionDriver) : Prop where
  dispatched : ∀ a ∈ dispatched d.log, ¬ isTerminal P a.msg
  evicted : ∀ a, .evicted a ∈ d.log → isTerminal P a.msg → d.Ending
  inbox : ∀ m ∈ d.inbox, isTerminal P m → (∃ l, d.phase = .connected l) ∨ d.Ending

/-- Nothing is read while the socket is down, whatever else happens. -/
theorem LogoffsRead.quiet (hd : LogoffsRead P d) (hdown : d.Down) {es : List Effect}
    (hlog : d'.log = d.log ++ es) (hev : ∀ a, .evicted a ∉ es)
    (hdisp : Steamroids.dispatched es = [])
    (hin : (∃ l, d'.phase = .connected l) ∨ d'.inbox = []) : LogoffsRead P d' := by
  refine ⟨?_, ?_, ?_⟩
  · rw [hlog, dispatched_append, hdisp, List.append_nil]
    exact hd.dispatched
  · intro a ha hterm
    rw [hlog] at ha
    rcases List.mem_append.mp ha with ha | ha
    · exact absurd hdown (hd.evicted a ha hterm).not_down
    · exact absurd ha (hev a)
  · intro m hm _
    rcases hin with hl | hnil
    · exact .inl hl
    · simp [hnil] at hm

/-- Nothing terminal was read while the loop still runs. -/
theorem LogoffsRead.not_terminal (hd : LogoffsRead P d) {l : ConnectedLoop}
    (hph : d.phase = .connected l) {a : Arrival} (ha : .evicted a ∈ d.log) :
    ¬ isTerminal P a.msg :=
  fun hterm => (hd.evicted a ha hterm).not_connected l hph

/-- A turn of the loop reads nothing terminal. -/
theorem LogoffsRead.again (hd : LogoffsRead P d) {l l' : ConnectedLoop} {i : Input}
    (hph : d.phase = .connected l) (hturn : LoopTurn d i d') :
    LogoffsRead P { d' with phase := .connected l' } := by
  refine ⟨?_, ?_, fun _ _ _ => .inl ⟨l', rfl⟩⟩
  · intro a ha
    rcases hturn.dispatched a ha with ha | hne
    · exact hd.dispatched a ha
    · simp [isTerminal, hne]
  · exact fun a ha hterm => absurd hterm (hd.not_terminal hph (hturn.evicted a ha))

/-- The loop ends by a logoff that is terminal, or without one in what it leaves behind. -/
theorem LogoffsRead.leave (hd : LogoffsRead P d) {l : ConnectedLoop} {i : Input} {x : LoopExit}
    (hph : d.phase = .connected l) (hkeep : KeepsLogoff P d i) (hend : LoopEnd P d i d' x) :
    LogoffsRead P (d'.leave x) := by
  obtain ⟨hdisp, hev⟩ := leave_dispatched d' x
  rcases hend.cause with ⟨rfl, hbreak⟩ | ⟨hx, -⟩
  · refine ⟨?_, ?_, ?_⟩
    · intro a ha
      rcases hdisp a ha with ha | ⟨-, ha⟩
      · exact hd.dispatched a (hend.dispatched ▸ ha)
      · exact hkeep ⟨l, hph⟩ hbreak a.msg (hend.inbox ▸ ha)
    · intro a ha hterm
      rcases hend.evicted a (hev a ha) with ha | hclass
      · exact absurd hterm (hd.not_terminal hph ha)
      · simp [isTerminal, ← hclass] at hterm
    · intro m hm
      have hnil := drainInbox_inbox { d' with phase := .backoff initialBackoff }
      have hin : (d'.leave .disconnected).inbox = [] := hnil
      simp [hin] at hm
  · have hending := leave_ending (d := d') hx
    refine ⟨?_, fun _ _ _ => hending, fun _ _ _ => .inr hending⟩
    intro a ha
    rcases hdisp a ha with ha | ⟨hx', -⟩
    · exact hd.dispatched a (hend.dispatched ▸ ha)
    · exact absurd hx' hx

/-- **Step lemma.** What is known of the terminal logoffs is kept by every step that does not break
a connection in front of one. -/
theorem LogoffsRead.step {i : Input} (hrest : d.Resting) (hkeep : KeepsLogoff P d i)
    (hd : LogoffsRead P d) (h : d.step P i = some d') : LogoffsRead P d' := by
  cases step_takes h with
  | abandon ch => exact ⟨hd.dispatched, hd.evicted, hd.inbox⟩
  | @loop l _ r hph hnew hr =>
      simp only [Resting, hph] at hrest
      have hb := runConnected_branch hrest.2 hr
      rcases hr2 : r.2 with l' | x
      · rw [hr2] at hb
        simp only [resume, hr2]
        exact hd.again hph (hb.again_spec hrest.2)
      · rw [hr2] at hb
        simp only [resume, hr2]
        exact hd.leave hph hkeep hb.exit_spec
  | commandDown c write hdown hnew =>
      obtain ⟨hin, es, hlog, hes⟩ := onCommandDown_log d c
      exact hd.quiet hdown hlog (evicted_not_routine hes) (dispatched_routine hes)
        (.inr (hin.trans (hrest.of_down hdown).2.2))
  | wake hph =>
      have hdown : d.Down := .inl ⟨_, hph⟩
      have hlog : (d.emit .dialed).log = d.log ++ [.dialed] := rfl
      exact hd.quiet hdown hlog (by simp) rfl (.inr (hrest.of_down hdown).2.2)
  | refused now e hph _ =>
      have hdown : d.Down := .inr ⟨_, hph⟩
      have hlog : (d.emit (.refused e)).log = d.log ++ [.refused e] := rfl
      exact hd.quiet hdown hlog (by simp) rfl (.inr (hrest.of_down hdown).2.2)
  | rejected now e hph _ =>
      have hdown : d.Down := .inr ⟨_, hph⟩
      obtain ⟨es, hlog, hes⟩ := finish_log (d.emit (.refused e)) (.error e)
      have hlog' : ((d.emit (.refused e)).finish (.error e)).log = d.log ++ .refused e :: es := by
        simpa using hlog
      refine hd.quiet hdown hlog' ?_ ?_ (.inr (hrest.of_down hdown).2.2)
      · simpa using evicted_not_routine hes
      · simpa [Steamroids.dispatched, Effect.dispatch?] using dispatched_routine hes
  | @live _ items c now hph hc =>
      have hlog : (d.goLive now items c.1 c.2).log = d.log ++
          [.adopted (d.conn + 1) items, .cleared, .published (.loggedOn c.1.steamId)] := by
        simp [goLive, enterConnected]
      exact hd.quiet (.inr ⟨_, hph⟩) hlog (by simp) rfl (.inl ⟨_, rfl⟩)
  | @closed result hph =>
      have hdisp : Steamroids.dispatched (d.conclude result).log = Steamroids.dispatched d.log := by
        rcases result with e | reason <;>
          simp [conclude, Steamroids.dispatched, Effect.dispatch?]
      have hev : ∀ a, .evicted a ∈ (d.conclude result).log → .evicted a ∈ d.log := by
        intro a ha
        rcases result with e | reason <;> simpa [conclude] using ha
      have hin : (d.conclude result).inbox = d.inbox := by
        rcases result with e | reason <;> rfl
      refine ⟨?_, ?_, ?_⟩
      · rw [hdisp]
        exact hd.dispatched
      · exact fun a ha hterm => (hd.evicted a (hev a ha) hterm).step h
      · intro m hm hterm
        rcases hd.inbox m (hin ▸ hm) hterm with ⟨l, hl⟩ | hend
        · simp [hph] at hl
        · exact .inr (hend.step h)

/-- A terminal logoff that was decoded from the current connection dooms the session. -/
theorem LogoffsRead.doomed (hd : LogoffsRead P d) (hdel : Delivery P d)
    (hm : ∃ m ∈ takenOf d.conn d.log ++ d.inbox, isTerminal P m) : Doomed P d := by
  obtain ⟨m, hm, hterm⟩ := hm
  rcases List.mem_append.mp hm with hm | hm
  · obtain ⟨a, ha, rfl⟩ := List.mem_map.mp hm
    have htaken := (List.mem_filter.mp ha).1
    by_cases hev : a ∈ evictionsOf a.conn d.log
    · obtain ⟨e, he, hea⟩ := List.mem_filterMap.mp (List.mem_of_mem_filter hev)
      cases e <;> cases hea
      exact .inr (hd.evicted a he hterm)
    · have hone := hdel.dispatched_once htaken hev
      have hmem : a ∈ Steamroids.dispatched d.log := List.count_pos_iff.mp (by omega)
      exact absurd hterm (hd.dispatched a hmem)
  · rcases hd.inbox m hm hterm with hl | hend
    · exact .inl ⟨hl, m, hm, hterm⟩
    · exact .inr hend

/-- **A terminal logoff ends the session.** In every run that never breaks the connection
in front of a terminal logoff: once such a logoff has been decoded from the current
connection, whether the loop has read it or it waits in the inbox, the driver never
reconnects. It leaves the loop before it has polled its reader once for each message of the
inbox, and then it publishes `LoggedOff` and returns. -/
theorem terminal_logoff_ends_session {now : Nat} {items : List WsItem} {d₀ : SessionDriver}
    {is js : List Input} (h₀ : spawn P now items = some d₀)
    (hrun : Ledger.exec (step P) d₀ is = some d)
    (hkeep : Ledger.Guarded (step P) (KeepsLogoff P) d₀ is)
    (hm : ∃ m ∈ takenOf d.conn d.log ++ d.inbox, isTerminal P m)
    (hrun' : Ledger.exec (step P) d js = some d')
    (hkeep' : Ledger.Guarded (step P) (KeepsLogoff P) d js) :
    ¬ d'.Down ∧
    (d.inbox.length ≤ js.count .poll → ∀ l, d'.phase ≠ .connected l) ∧
    ((∀ l, d'.phase ≠ .connected l) →
      (∃ reason d'', d'.phase = .closing (.ok reason) ∧ d'.step P .closed = some d'' ∧
        d''.phase = .stopped (.ok ()) ∧ d''.state = .loggedOff reason) ∨
      d'.phase = .stopped (.ok ()) ∧ ∃ reason, d'.state = .loggedOff reason ∧
        [.published (.loggedOff reason), .returned (.ok ())] <:+ d'.log) := by
  have hreach : Reachable P d := (Reachable.of_spawn h₀).run hrun
  have hread : d.Resting ∧ LogoffsRead P d := by
    refine Ledger.exec_invariant_of_guarded (I := fun d => d.Resting ∧ LogoffsRead P d)
      (fun _ _ _ hs hg hstep => ⟨step_resting hstep hs.1, hs.2.step hs.1 hg hstep⟩)
      hrun hkeep ⟨spawn_resting h₀, ?_⟩
    obtain ⟨c, -, hs⟩ := spawn_spec h₀
    obtain ⟨l, hl, -⟩ := hs.phase
    refine ⟨?_, ?_, fun _ _ _ => .inl ⟨l, hl⟩⟩
    · simp [hs.log, dispatched, Effect.dispatch?]
    · simp [hs.log]
  have hdoom := hread.2.doomed hreach.delivery hm
  obtain ⟨hdoom', hlen⟩ := hdoom.run hread.1 hkeep' hrun'
  refine ⟨?_, ?_, ?_⟩
  · rcases hdoom' with ⟨⟨l, hl⟩, -⟩ | hend
    · rintro (⟨secs, hph⟩ | ⟨secs, hph⟩) <;> simp [hl] at hph
    · exact hend.not_down
  · intro hpolls l hl
    have hle := hlen l hl
    rcases hdoom' with ⟨-, m, hm, -⟩ | hend
    · have hpos := List.length_pos_of_mem hm
      omega
    · exact hend.not_connected l hl
  · intro hne
    rcases hdoom' with ⟨⟨l, hl⟩, -⟩ | ⟨reason, hph⟩ | hstopped
    · exact absurd hl (hne l)
    · exact .inl ⟨reason, d'.conclude (.ok reason), hph, by simp [step, hph], rfl, rfl⟩
    · exact .inr hstopped

/-- A terminal logoff in the inbox: one read and the close end the session. -/
theorem terminal_logoff_ends_session_at_once :
    Ledger.exec (step Sample.prost) Sample.loggedOffAtOnce [.poll, .closed] =
        some Sample.loggedOff ∧
      ∃ reason, Sample.loggedOff.state = .loggedOff reason := by
  have hkeep : Ledger.Guarded (step Sample.prost) (KeepsLogoff Sample.prost)
      Sample.loggedOffAtOnce [.poll, .closed] := by
    refine ⟨fun _ hbreak => absurd hbreak (by decide), fun _ _ => ⟨?_, fun _ _ => trivial⟩⟩
    exact fun _ hbreak => Bool.noConfusion hbreak
  have h₀ : spawn Sample.prost 0 _ = some Sample.loggedOffAtOnce := (Option.some_get _).symm
  have hrun : Ledger.exec (step Sample.prost) Sample.loggedOffAtOnce [.poll, .closed] =
      some Sample.loggedOff := (Option.some_get _).symm
  have hph : Sample.loggedOff.phase = .stopped (.ok ()) := by decide
  obtain ⟨-, -, hend⟩ := terminal_logoff_ends_session h₀ (Ledger.exec_nil _) trivial (by decide)
    hrun hkeep
  rcases hend (by simp [hph]) with ⟨reason, d'', hclosing, -⟩ | ⟨-, reason, hst, -⟩
  · simp [hph] at hclosing
  · exact ⟨hrun, reason, hst⟩

/-- A failed write in front of the waiting logoff: it is broadcast, and the session
reconnects and goes on. -/
theorem terminal_logoff_overtaken :
    (∃ m ∈ Sample.loggedOffAtOnce.inbox, isTerminal Sample.prost m) ∧
      ∃ d, Ledger.exec (step Sample.prost) Sample.loggedOffAtOnce
          [.command (some (.notify 5402 [] 3)) (some "broken pipe"), .wake,
            .attempt 2 (.ok [Sample.item Sample.logonFrame])] = some d ∧
        .dialed ∈ d.log ∧ d.state = .loggedOn logonHeaderSteamid := by
  refine ⟨by decide, _, (Option.some_get (by decide)).symm, by decide, by decide⟩

end SessionDriver

end Steamroids
