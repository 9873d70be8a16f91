import Steamroids.HandleCalls

/-!
# What Calls on Handles Mean

A call on a handle returns what has come through its channel. Here its result is taken back to what
the driver has done: a frame written, a message received for a job id, the main loop left. And the
ends of the two sides are tied together: a session lives as long as it has handles, unless it is
ended from elsewhere, and no call outlives it.

## Main results

* `Handles.call_results_mean`: what stands behind the result of a call.
* `Handles.session_follows_handles`: the driver and its handles end together.
-/

namespace Steamroids

/-! ### Acknowledgements and the end of the main loop -/

namespace SessionDriver

variable {P : Prost} {d d' : SessionDriver}

/-- The notification was taken, its own frame written with it, and this acknowledged. -/
def Notified (log : List Effect) (emsg : UInt32) (body : Bytes) (ch : Chan) : Prop :=
  ∃ conn header, [.took (.notify emsg body ch), .wrote conn ⟨emsg, header, body⟩ none true,
    .acked ch (.ok ())] <:+: log

/-- What an acknowledgement stands for: the frame of a notification is written, or a logoff was
taken. -/
def Confirmed (log : List Effect) (ch : Chan) : Prop :=
  (∃ emsg body, Notified log emsg body ch) ∨ .took (.logoff ch) ∈ log

/-- What is confirmed stays confirmed. -/
theorem Confirmed.append {log : List Effect} {ch : Chan} (h : Confirmed log ch)
    (es : List Effect) : Confirmed (log ++ es) ch := by
  rcases h with ⟨emsg, body, conn, header, hwithin⟩ | h
  · exact .inl ⟨emsg, body, conn, header, hwithin.trans (List.prefix_append log es).isInfix⟩
  · exact .inr (List.mem_append_left _ h)

/-- Nothing is acknowledged before it is done. -/
theorem Reachable.confirmed (hd : Reachable P d) :
    ∀ ch, .acked ch (.ok ()) ∈ d.log → Confirmed d.log ch := by
  refine hd.invariant (I := fun d => ∀ ch, .acked ch (.ok ()) ∈ d.log → Confirmed d.log ch) ?_ ?_
  · intro now items d₀ h₀ ch
    obtain ⟨c, -, hs⟩ := spawn_spec h₀
    simp [hs.log]
  · intro d d' hact hold ch hmem
    have hkeep (hold' : .acked ch (.ok ()) ∈ d.log) : Confirmed d'.log ch := by
      obtain ⟨es, hes⟩ := hact.log_append
      exact hes ▸ (hold ch hold').append es
    cases hact with
    | notify emsg body ack write _ =>
        rcases List.mem_append.mp hmem with hmem | hmem
        · exact hkeep hmem
        · simp only [List.mem_cons, reduceCtorEq, Effect.acked.injEq, List.not_mem_nil, or_false,
            false_or] at hmem
          obtain ⟨rfl, hwrite⟩ := hmem
          have hnone : write = none := by cases write <;> first | rfl | cases hwrite
          subst hnone
          exact .inl ⟨emsg, body, d.conn, (d.frame emsg none body).header,
            (List.suffix_append d.log _).isInfix⟩
    | logoff ack write _ | logoffDown ack _ =>
        rcases List.mem_append.mp hmem with hmem | hmem
        · exact hkeep hmem
        · obtain rfl : ch = ack := by simpa using hmem
          exact .inr (by simp)
    | announce _ _ =>
        refine hkeep ((List.mem_append.mp hmem).resolve_right fun hnew => ?_)
        rcases mem_announce hnew with he | he <;> cases he
    | sweep now =>
        refine hkeep ((List.mem_append.mp hmem).resolve_right fun hnew => ?_)
        rcases mem_swept hnew with ⟨entry, ⟨he, -⟩ | he⟩ <;> cases he
    | failAll reason _ =>
        refine hkeep ((List.mem_append.mp hmem).resolve_right fun hnew => ?_)
        obtain ⟨entry, -, he⟩ := List.mem_map.mp hnew
        cases he
    | _ => exact hkeep (by simpa using hmem)

/-- The main loop of `run` is over. -/
def isOver (d : SessionDriver) : Bool :=
  match d.phase with
  | .closing _ => true
  | .stopped _ => true
  | _ => false

/-- Nothing takes a driver back into its main loop. -/
theorem step_over {i : Input} (h : d.step P i = some d') (hover : d.isOver) : d'.isOver := by
  rcases hph : d.phase with l | secs | secs | result | result <;>
    simp only [isOver, hph, Bool.false_eq_true] at hover
  · cases i with
    | abandon ch =>
        obtain rfl := Option.some.inj h
        simp [isOver, hph]
    | closed =>
        simp only [step, hph, Option.some.injEq] at h
        subst h
        cases result <;> rfl
    | _ => simp [step, hph] at h
  · obtain ⟨ch, rfl⟩ := step_stopped h hph
    obtain rfl := Option.some.inj h
    simp [isOver, hph]

/-- A logoff, or the end of the queue, ends the main loop. -/
theorem step_ends_over {c : Option Command} {write : Option String}
    (h : d.step P (.command c write) = some d') (hc : c = none ∨ ∃ ch, c = some (.logoff ch)) :
    d'.isOver := by
  cases step_takes h with
  | @loop l i r hph hnew hr =>
      obtain rfl := Option.some.inj hr
      rcases hc with rfl | ⟨ch, rfl⟩ <;> rfl
  | commandDown c write hdown hnew => rcases hc with rfl | ⟨ch, rfl⟩ <;> rfl

/-- The main loop always listens to the queue. -/
theorem exists_step_command {c : Option Command} (hover : d.isOver = false) (hnew : d.isNew c)
    (write : Option String) : ∃ d', d.step P (.command c write) = some d' := by
  rcases hph : d.phase with l | secs | secs | result | result <;>
    simp only [isOver, hph, Bool.true_eq_false] at hover
  · exact ⟨_, by simp only [step, hnew, if_true, hph, runConnected, Option.map_some]; rfl⟩
  · exact ⟨_, by simp only [step, hnew, if_true, hph]; rfl⟩
  · exact ⟨_, by simp only [step, hnew, if_true, hph]; rfl⟩

/-- A logoff that was taken ends the main loop. -/
theorem Reachable.over_of_logoff (hd : Reachable P d) {ch : Chan} (h : .took (.logoff ch) ∈ d.log) :
    d.isOver := by
  have key : some (.logoff ch) ∈ fromQueue d.log → d.isOver := by
    refine hd.invariant_of_step (I := fun d => some (.logoff ch) ∈ fromQueue d.log → d.isOver) ?_ ?_
    · intro now items d₀ h₀
      obtain ⟨c, -, hs⟩ := spawn_spec h₀
      simp [hs.log, fromQueue, Effect.fromQueue?]
    · intro d d' i hrest hold hstep hmem
      rw [step_fromQueue hstep hrest] at hmem
      rcases List.mem_append.mp hmem with hmem | hmem
      · exact step_over hstep (hold hmem)
      · cases i with
        | command c write =>
            obtain rfl := List.mem_singleton.mp hmem
            exact step_ends_over hstep (.inr ⟨ch, rfl⟩)
        | _ => cases hmem
  exact key (List.mem_filterMap.mpr ⟨_, h, rfl⟩)

end SessionDriver

namespace Handles

variable {P : Prost} {w w' : Handles} {n : Nat} {c : Command} {st st' : HandleStage}

/-! ### What the results mean -/

/-- What the end of a call stands for: a reply has the job id of the frame as its target that was
written for this very request, the frame of this very notification is written if it succeeds, and
whatever a logoff returns, the main loop of the session is over. -/
def Meant (w : Handles) (c : Command) (e : HandleEnd) : Prop :=
  match c with
  | .request emsg body deadline ch => ∃ r, e.request? = some r ∧ ∀ msg, r = .replied (.ok msg) →
      ∃ conn header jobid, [.took (.request emsg body deadline ch),
          .wrote conn ⟨emsg, header, body⟩ (some ch) true] <:+: w.driver.log ∧
        header.jobidSource = some jobid ∧ msg.header.jobidTarget = some jobid
  | .notify emsg body ch => ∃ res, e.notify? = some res ∧
      (res = .ok () → SessionDriver.Notified w.driver.log emsg body ch)
  | .logoff _ => ∃ res, e.logoff? = some res ∧ w.driver.isOver

/-- A driver that has stopped has left its main loop. -/
theorem isOver_of_isStopped (h : w.isStopped) : w.driver.isOver := by
  rw [isStopped] at h
  rw [SessionDriver.isOver]
  split at h <;> simp_all

/-- The command on a channel is the one that was sent with it. -/
theorem Linked.own (h : Linked P w) {c : Command} (htaken : c ∈ w.sent.take w.taken)
    {c' : Command} (htook : .took c' ∈ w.driver.log) (hchan : c'.chan = c.chan) : c' = c :=
  h.eq_of_chan (List.mem_of_mem_take (h.took htook)) (List.mem_of_mem_take htaken) hchan

/-- The result of a request. -/
theorem Linked.meant_request (h : Linked P w) {emsg : UInt32} {body : Bytes} {deadline : Nat}
    {ch : Chan} {e : HandleEnd} (hfate : w.Fate (.request emsg body deadline ch) (.returned e)) :
    w.Meant (.request emsg body deadline ch) e := by
  cases e with
  | stopped => exact ⟨_, rfl, by simp⟩
  | dropped => exact ⟨_, rfl, by simp⟩
  | timedOut => exact ⟨_, rfl, by simp⟩
  | replied r =>
      obtain ⟨htaken, hfits, hreply⟩ := hfate
      cases r with
      | ack res => simp [Reply.Fits, Command.isRequest] at hfits
      | message res =>
          refine ⟨_, rfl, fun msg hmsg => ?_⟩
          rcases mem_of_reply? hreply with ⟨res', heq, hmem⟩ | ⟨res', heq, -⟩
          · obtain rfl := Reply.message.inj heq
            rcases h.driver.replies.answer _ _ _ hmem with
              ⟨a, jobid, rfl, htarget, emsg', header, body', deadline', hwithin, hjob⟩ |
              rfl | rfl | rfl
            · obtain rfl : a.msg = msg := by simpa [Except.map] using hmsg
              obtain ⟨rfl, rfl, rfl, -⟩ :=
                Command.request.inj (h.own htaken (hwithin.subset List.mem_cons_self) rfl)
              exact ⟨a.conn, header, jobid, hwithin, hjob, htarget⟩
            · simp [Except.map] at hmsg
            · simp [Except.map] at hmsg
            · simp [Except.map] at hmsg
          · cases heq

/-- The result of a notification. -/
theorem Linked.meant_notify (h : Linked P w) {emsg : UInt32} {body : Bytes} {ch : Chan}
    {e : HandleEnd} (hfate : w.Fate (.notify emsg body ch) (.returned e)) :
    w.Meant (.notify emsg body ch) e := by
  cases e with
  | stopped => exact ⟨_, rfl, by simp⟩
  | dropped => exact ⟨_, rfl, by simp⟩
  | timedOut => cases hfate.2
  | replied r =>
      obtain ⟨htaken, hfits, hreply⟩ := hfate
      cases r with
      | message res => cases hfits
      | ack res =>
          refine ⟨res, rfl, ?_⟩
          rintro rfl
          rcases mem_of_reply? hreply with ⟨res', heq, -⟩ | ⟨res', heq, hmem⟩
          · cases heq
          · obtain rfl := Reply.ack.inj heq
            rcases h.driver.confirmed ch hmem with
              ⟨emsg', body', conn, header, hwithin⟩ | htook
            · obtain ⟨rfl, rfl, -⟩ :=
                Command.notify.inj (h.own htaken (hwithin.subset List.mem_cons_self) rfl)
              exact ⟨conn, header, hwithin⟩
            · cases h.own htaken htook rfl

/-- The result of a logoff. -/
theorem Linked.meant_logoff (h : Linked P w) {ch : Chan} {e : HandleEnd}
    (hfate : w.Fate (.logoff ch) (.returned e)) : w.Meant (.logoff ch) e := by
  cases e with
  | stopped => exact ⟨_, rfl, isOver_of_isStopped hfate.1⟩
  | dropped => exact ⟨_, rfl, isOver_of_isStopped (hfate.2 (by simp [Command.isRequest])).1⟩
  | timedOut => cases hfate.2
  | replied r =>
      obtain ⟨htaken, hfits, -⟩ := hfate
      cases r with
      | message res => cases hfits
      | ack res => exact ⟨_, rfl, h.driver.over_of_logoff (h.took_of_mem htaken)⟩

/-- **Results are about the wire.** A request that returns a message was taken by the driver, which
has written a frame for it, with its kind, its body and a job id that the message is addressed to. A
notification that returns success was taken and written in the same way. When `logoff` returns, the
driver is on its way out, or gone. -/
theorem call_results_mean (h : Reachable P w) {c : Command} {e : HandleEnd}
    (hmem : (c, .returned e) ∈ w.calls) : w.Meant c e := by
  have hfate := h.linked.fates c _ hmem
  cases c with
  | request emsg body deadline ch => exact h.linked.meant_request hfate
  | notify emsg body ch => exact h.linked.meant_notify hfate
  | logoff ch => exact h.linked.meant_logoff hfate

/-- The frame of a notification that has succeeded. -/
theorem call_results_mean_served :
    ∃ conn header, [.took (.notify 742 [1] 8), .wrote conn ⟨742, header, [1]⟩ none true,
      .acked 8 (.ok ())] <:+: Sample.served.driver.log := by
  have hmem : (.notify 742 [1] 8, .returned (.replied (.ack (.ok ())))) ∈ Sample.served.calls := by
    decide
  obtain ⟨res, hres, hwrote⟩ := call_results_mean Sample.reachable_served hmem
  exact hwrote (Option.some.inj hres.symm)

/-! ### The end of a session -/

/-- The next command of the queue is new to the driver. -/
theorem Linked.isNew (h : Linked P w) (hc : w.sent[w.taken]? = some c) :
    w.driver.isNew (some c) := by
  rw [SessionDriver.isNew, Bool.not_eq_true', List.any_eq_false]
  intro e he
  cases e with
  | took c' =>
      simp only [beq_iff_eq]
      intro hchan
      have htaken := h.took he
      obtain rfl := h.eq_of_chan (List.mem_of_mem_take htaken) (List.mem_of_getElem? hc) hchan
      have hwaits : c' ∈ w.sent.drop w.taken :=
        List.mem_of_getElem? (by rw [List.getElem?_drop, Nat.add_zero]; exact hc)
      have hnodup : (w.sent.take w.taken ++ w.sent.drop w.taken).Nodup := by
        rw [List.take_append_drop]
        exact h.once.of_map
      exact (List.nodup_append.mp hnodup).2.2 c' htaken c' hwaits rfl
  | _ => simp

/-- A move by which the driver takes something from its queue, or comes to its end. -/
def windsDown : HandleMove → Bool
  | .take _ => true
  | .gone _ => true
  | .drive .closed => true
  | _ => false

/-- The driver can come to its end within so many moves of its own. -/
def StopsWithin (P : Prost) (w : Handles) (k : Nat) : Prop :=
  ∃ ms w', ms.length ≤ k ∧ (∀ m ∈ ms, windsDown m) ∧ Ledger.exec (step P) w ms = some w' ∧
    w'.isStopped

/-- One move more. -/
theorem StopsWithin.cons {m : HandleMove} {k : Nat} (hm : windsDown m)
    (hstep : step P w m = some w') (h : w'.StopsWithin P k) : w.StopsWithin P (k + 1) := by
  obtain ⟨ms, w'', hlen, hms, hexec, hstop⟩ := h
  exact ⟨m :: ms, w'', Nat.succ_le_succ hlen, List.forall_mem_cons.mpr ⟨hm, hms⟩,
    Ledger.exec_cons_eq_some.mpr ⟨w', hstep, hexec⟩, hstop⟩

/-- A driver whose main loop is over comes to its end. -/
theorem stopsWithin_of_isOver (hover : w.driver.isOver) (k : Nat) : w.StopsWithin P (k + 1) := by
  rcases hph : w.driver.phase with l | secs | secs | result | result <;>
    simp only [SessionDriver.isOver, hph, Bool.false_eq_true] at hover
  · refine ⟨[.drive .closed], { w with driver := w.driver.conclude result }, Nat.le_add_left 1 k,
      List.forall_mem_singleton.mpr rfl, ?_, ?_⟩
    · simp [Ledger.exec_cons, step, Input.isOwn, SessionDriver.step, hph]
    · cases result <;> rfl
  · exact ⟨[], w, Nat.zero_le _, List.forall_mem_nil _, rfl, by simp [isStopped, hph]⟩

/-- The driver works through the queue, finds it closed, and ends. -/
theorem Linked.stopsWithin (h : Linked P w) (hnone : w.handles = 0) {k : Nat}
    (hk : w.sent.length = w.taken + k) : w.StopsWithin P (k + 2) := by
  rcases hover : w.driver.isOver with _ | _
  · induction k generalizing w with
    | zero =>
        obtain ⟨d, hd⟩ := SessionDriver.exists_step_command (P := P) hover
          (show w.driver.isNew none from rfl) none
        have hstep : step P w (.gone none) = some { w with driver := d } := by
          simp [step, hk, hnone, hd]
        exact .cons rfl hstep
          (stopsWithin_of_isOver (SessionDriver.step_ends_over hd (.inl rfl)) 0)
    | succ k ih =>
        obtain ⟨c, hc⟩ : ∃ c, w.sent[w.taken]? = some c :=
          ⟨_, List.getElem?_eq_getElem (by omega)⟩
        obtain ⟨d, hd⟩ := SessionDriver.exists_step_command (P := P) hover (h.isNew hc) none
        have hstep : step P w (.take none) = some { w with driver := d, taken := w.taken + 1 } := by
          simp [step, hc, hd]
        refine .cons rfl hstep ?_
        rcases hover' : d.isOver with _ | _
        · exact ih (h.makes (step_makes hstep)) hnone (by simp only [hk]; omega) hover'
        · exact stopsWithin_of_isOver hover' (k + 1)
  · exact stopsWithin_of_isOver hover (k + 1)

/-- **The driver and its handles end together.** The driver finds its queue closed only if there is
no handle left, and it has taken all commands by then. Once there is none, it is only as many moves
of its own away from its end as there are commands in the queue, and two more. And once it has
ended, every call that is still waiting returns by its own next move. -/
theorem session_follows_handles (h : Reachable P w) :
    (.handlesGone ∈ w.driver.log → w.handles = 0 ∧ w.queue = []) ∧
      (w.handles = 0 → w.StopsWithin P (w.queue.length + 2)) ∧
      (w.isStopped → ∀ n c st, w.calls[n]? = some (c, st) → st.isRunning →
        ∃ m e, step P w m = some (w.goto n c (.returned e))) := by
  have hw := h.linked
  refine ⟨?_, ?_, ?_⟩
  · intro hgone
    obtain ⟨hnone, hall⟩ := hw.gone (List.mem_filterMap.mpr ⟨_, hgone, rfl⟩)
    exact ⟨hnone, List.drop_eq_nil_of_le (Nat.le_of_eq hall.symm)⟩
  · intro hnone
    refine hw.stopsWithin hnone ?_
    have hle := hw.le
    rw [queue, List.length_drop]
    omega
  · intro hstop n c st hn hrunning
    rcases st with _ | _ | e | _
    · exact ⟨.refuse n, .stopped, by simp [step, hn, hstop]⟩
    · rcases hreply : reply? w.driver.log c.chan with _ | r
      · exact ⟨.lose n, .dropped, by simp [step, hn, hreply, holdsSender, hstop]⟩
      · exact ⟨.receive n, .replied r, by simp [step, hn, hreply]⟩
    · cases hrunning
    · cases hrunning

end Handles

/-- A session whose only handle is dropped, with a notification left in the queue. -/
def Sample.released : Handles :=
  (Ledger.exec (Handles.step Sample.prost) Sample.handle
    [.call (.notify 742 [1] 8), .send 0, .cancel 0, .drop]).get (by decide)

/-- That state is reachable. -/
theorem Sample.reachable_released : Sample.released.Reachable Sample.prost :=
  ⟨0, [Sample.item Sample.logonFrame], Sample.handle, _, (Option.some_get _).symm,
    (Option.some_get _).symm⟩

/-- It is three moves away from its end. -/
theorem Handles.session_follows_handles_released :
    Sample.released.StopsWithin Sample.prost (1 + 2) :=
  (Handles.session_follows_handles Sample.reachable_released).2.1 (by decide)

end Steamroids
