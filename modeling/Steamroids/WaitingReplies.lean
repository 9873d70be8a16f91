import Steamroids.LoopEnd

/-!
# Replies That Wait When the Loop Ends

A reply that was decoded as part of a batch waits in the inbox until the connected loop
reads it. When the connection breaks first, `run` drains the inbox before it fails the
requests that are left, so the reply still reaches its request. On the two other ways out
of the loop there is no drain: the reply is dropped with the inbox and its request fails
with "session driver stopped" (`waiting_reply_dropped`).

## Main results

* `drain_routes`: the drain hands the first waiting reply to its request.
* `drain_replied`: the drain resolves no other request with a message.
* `waiting_reply_reaches_request`: when waiting replies survive the end of the loop, in
  every run and at every end of the loop.
-/

namespace Steamroids

namespace SessionDriver

variable {P : Prost} {d d' : SessionDriver}

/-- The message is a reply to the job `jobid`. -/
def answers (jobid : UInt64) (msg : SteamMessage) : Bool := msg.header.jobidTarget == some jobid

/-- A job id that `dispatch` routes: zero and `u64::MAX` mean that there is no job. -/
def Routable (jobid : UInt64) : Prop := jobid ≠ 0 ∧ jobid ≠ u64Max

/-! ### The drain -/

/-- An answer to a job goes to the request that is pending under its id. -/
theorem waiter_of_answers {msg : SteamMessage} {jobid : UInt64} (h : answers jobid msg)
    (hroute : Routable jobid) :
    d.waiter msg = (d.pending.lookup jobid).map fun entry => (jobid, entry) := by
  have htarget : msg.header.jobidTarget = some jobid := by simpa [answers] using h
  simp [waiter, htarget, Option.filter, hroute.1, hroute.2]

/-- A request gets messages under a routable id only. -/
theorem waiter_routable {msg : SteamMessage} {jobid : UInt64} {entry : Pending}
    (h : d.waiter msg = some (jobid, entry)) : Routable jobid := by
  have htarget := (waiter_eq_some h).1
  by_cases hroute : Routable jobid
  · exact hroute
  · have hnone : (msg.header.jobidTarget.filter fun j => j != 0 && j != u64Max) = none := by
      rw [htarget, Option.filter_eq_none_iff]
      rintro _ ⟨⟩
      simpa [Routable, -not_and] using hroute
    simp [waiter, hnone] at h

/-- A message that does not answer `jobid` leaves its entry alone. -/
theorem dispatch_lookup {msg : SteamMessage} {jobid : UInt64} (h : ¬ answers jobid msg) :
    (d.dispatch msg).pending.lookup jobid = d.pending.lookup jobid := by
  rcases hw : d.waiter msg with _ | ⟨jobid', entry'⟩
  · rw [dispatch_of_none hw]
  · rw [dispatch_of_some hw]
    refine AList.lookup_erase_ne ?_
    rintro rfl
    exact h (by simpa [answers] using (waiter_eq_some hw).1)

/-- To dispatch a message adds to the ledger. -/
theorem dispatch_log (d : SessionDriver) (msg : SteamMessage) :
    ∃ es, (d.dispatch msg).log = d.log ++ es := by
  rcases hw : d.waiter msg with _ | ⟨jobid, entry⟩
  · exact ⟨_, by rw [dispatch_of_none hw]⟩
  · exact ⟨_, by rw [dispatch_of_some hw]⟩

/-- The drain of the inbox adds to the ledger. -/
theorem drain_log (d : SessionDriver) (msgs : List SteamMessage) :
    ∃ es, (d.drain msgs).log = d.log ++ es := by
  induction msgs generalizing d with
  | nil => exact ⟨[], (List.append_nil _).symm⟩
  | cons msg rest ih =>
      obtain ⟨es₁, h₁⟩ := dispatch_log { d with inbox := rest } msg
      obtain ⟨es₂, h₂⟩ := ih ({ d with inbox := rest }.dispatch msg)
      exact ⟨es₁ ++ es₂, by rw [← List.append_assoc, ← h₁, ← h₂]; rfl⟩

/-- The drain hands the first reply among the messages to the request that waits for it. -/
theorem drain_routes {msgs : List SteamMessage} {jobid : UInt64} {entry : Pending}
    {m : SteamMessage} (hentry : d.pending.lookup jobid = some entry) (hroute : Routable jobid)
    (hfirst : msgs.find? (answers jobid) = some m) :
    ∃ es a delivered, (d.drain msgs).log = d.log ++ es ∧ a.msg = m ∧
      .replied entry.reply (.ok a) delivered ∈ es := by
  induction msgs generalizing d with
  | nil => simp at hfirst
  | cons msg rest ih =>
      let e : SessionDriver := { d with inbox := rest }
      by_cases hans : answers jobid msg
      · obtain rfl : msg = m := by simpa [List.find?_cons, hans] using hfirst
        have hw : e.waiter msg = some (jobid, entry) := by
          rw [waiter_of_answers hans hroute]
          simp [e, hentry]
        obtain ⟨es, hes⟩ := drain_log (e.dispatch msg) rest
        have hlog : (d.drain (msg :: rest)).log = (e.dispatch msg).log ++ es := hes
        rw [dispatch_of_some hw, List.append_assoc] at hlog
        exact ⟨_, e.arrival msg, _, hlog, rfl, List.mem_append_left es (List.mem_singleton_self _)⟩
      · have hrest : rest.find? (answers jobid) = some m := by
          simpa [List.find?_cons, hans] using hfirst
        have hentry' : (e.dispatch msg).pending.lookup jobid = some entry := by
          rw [dispatch_lookup hans]
          exact hentry
        obtain ⟨es₁, h₁⟩ := dispatch_log e msg
        obtain ⟨es₂, a, delivered, h₂, ha, hmem⟩ := ih hentry' hrest
        refine ⟨es₁ ++ es₂, a, delivered, ?_, ha, List.mem_append_right es₁ hmem⟩
        rw [← List.append_assoc, ← h₁, ← h₂]
        rfl

/-- A request that the drain resolves with a message was pending, under a job id that is
routed. -/
theorem drain_replied {msgs : List SteamMessage} {ch : Chan} {a : Arrival} {delivered : Bool}
    (h : .replied ch (.ok a) delivered ∈ (d.drain msgs).log) :
    .replied ch (.ok a) delivered ∈ d.log ∨
      ∃ jobid entry, d.pending.lookup jobid = some entry ∧ entry.reply = ch ∧ Routable jobid := by
  induction msgs generalizing d with
  | nil => exact .inl h
  | cons msg rest ih =>
      let e : SessionDriver := { d with inbox := rest }
      rcases hw : e.waiter msg with _ | ⟨jobid', entry'⟩
      · rcases ih (d := e.dispatch msg) h with hmem | ⟨jobid, entry, hentry, hch, hroute⟩
        · rw [dispatch_of_none hw] at hmem
          have hnot : .replied ch (.ok a) delivered ∉ announce (e.arrival msg) := by
            intro hnew
            rcases mem_announce hnew with he | he <;> cases he
          exact .inl ((List.mem_append.mp hmem).resolve_right hnot)
        · rw [dispatch_of_none hw] at hentry
          exact .inr ⟨jobid, entry, hentry, hch, hroute⟩
      · have hentry' : d.pending.lookup jobid' = some entry' := (waiter_eq_some hw).2
        rcases ih (d := e.dispatch msg) h with hmem | ⟨jobid, entry, hentry, hch, hroute⟩
        · rw [dispatch_of_some hw] at hmem
          rcases List.mem_append.mp hmem with hmem | hmem
          · exact .inl hmem
          · obtain ⟨rfl, -⟩ : ch = entry'.reply ∧ _ := by simpa using hmem
            exact .inr ⟨jobid', entry', hentry', rfl, waiter_routable hw⟩
        · rw [dispatch_of_some hw] at hentry
          refine .inr ⟨jobid, entry, ?_, hch, hroute⟩
          by_cases hj : jobid = jobid'
          · rw [hj, AList.lookup_erase] at hentry
            cases hentry
          · rwa [AList.lookup_erase_ne hj] at hentry

/-! ### The ways out of the loop -/

/-- In the run over `is` from `d₀` the input `i` ends the connected loop, which goes from
`e` to `e₁` and is left for the reason `x`. -/
structure EndsLoop (P : Prost) (d₀ : SessionDriver) (is : List Input) (e : SessionDriver)
    (i : Input) (e₁ : SessionDriver) (x : LoopExit) : Prop where
  split : ∃ is₁ is₂, is = is₁ ++ i :: is₂ ∧ Ledger.exec (step P) d₀ is₁ = some e
  turn : ∃ l, e.phase = .connected l ∧ e.runConnected P l i = some (e₁, .exit x)

/-- Every request that is pending in `d`, and whose reply waits in the inbox there, is
resolved on the way to `d'` with that reply, and with nothing else. -/
def RepliesReach (d d' : SessionDriver) : Prop :=
  ∀ jobid entry m, d.pending.lookup jobid = some entry →
    d.inbox.find? (answers jobid) = some m →
    ∃ es a delivered, d'.log = d.log ++ es ∧ a.msg = m ∧
      .replied entry.reply (.ok a) delivered ∈ es ∧
      ∀ res delivered', .replied entry.reply res delivered' ∈ d'.log → res = .ok a

/-- The step does not stop the driver while a reply waits for its request. The step may
break the connection, if the job id of the request is one that is routed. -/
def KeepsReplies (P : Prost) (d : SessionDriver) (i : Input) : Prop :=
  (∃ l, d.phase = .connected l) → ∀ jobid entry, d.pending.lookup jobid = some entry →
    (∃ m ∈ d.leftover P i, answers jobid m) →
    ¬ d.stops P i ∧ (d.breaks P i → Routable jobid)

/-- An input that breaks the connection does not stop the driver, since one logoff is not both
transient and terminal. -/
theorem not_stops_of_breaks {i : Input} (h : d.breaks P i) : ¬ d.stops P i := by
  have hclass : ∀ o : Option SteamMessage, o.any (isTransient P) → ¬ o.any (isTerminal P) := by
    rintro (_ | msg)
    · simp
    · simp only [Option.any_some, isTransient, isTerminal]
      grind
  cases i with
  | command c write =>
      rcases c with _ | ⟨emsg, body, deadline, ch⟩ | ⟨emsg, body, ch⟩ | ch
      · cases h
      · simp [stops, atHand]
      · simp [stops, atHand]
      · cases h
  | poll => exact hclass _ h
  | item now it =>
      simp only [breaks, Bool.or_eq_true] at h
      rcases h with hnone | htrans
      · simp only [stops, atHand, Option.isNone_iff_eq_none.mp hnone]
        simp
      · exact hclass _ htrans
  | heartbeat now write ping => simp [stops, atHand]
  | sweep now => simp [stops, atHand]
  | wake => cases h
  | attempt now r => cases h
  | closed => cases h
  | abandon ch => cases h

/-- The state after the step that ends the loop. -/
theorem EndsLoop.step {d₀ e e₁ : SessionDriver} {is : List Input} {i : Input} {x : LoopExit}
    (h : EndsLoop P d₀ is e i e₁ x) (hrun : Ledger.exec (step P) d₀ is = some d) :
    e.step P i = some (e₁.leave x) := by
  obtain ⟨is₁, is₂, rfl, hpre⟩ := h.split
  obtain ⟨l, hph, hturn⟩ := h.turn
  obtain ⟨e', he', hrest⟩ := Ledger.exec_append_eq_some.mp hrun
  obtain rfl : e = e' := Option.some.inj (hpre.symm.trans he')
  obtain ⟨e₂, hstep, -⟩ := Ledger.exec_cons_eq_some.mp hrest
  rw [hstep]
  rcases step_connected hph hstep with ⟨ch, rfl, -⟩ | ⟨r, hr, rfl⟩
  · cases hturn
  · obtain rfl := Option.some.inj (hr.symm.trans hturn)
    rfl

/-- No request is resolved twice, not even once the job ids have wrapped around. -/
theorem Reachable.replied_once (h : Reachable P d) {ch : Chan} {res res' : Except Error Arrival}
    {delivered delivered' : Bool} (h₁ : .replied ch res delivered ∈ d.log)
    (h₂ : .replied ch res' delivered' ∈ d.log) : res = res' := by
  have hle := h.balanced.request_le ch
  have hone := h.balanced.once ch
  have heq := Ledger.eq_of_countP_le_one (p := Effect.settles ch) (by omega) h₁ h₂
    (by simp [Effect.settles]) (by simp [Effect.settles])
  simpa using (Effect.replied.inj heq).2.1

/-- No request is pending under two job ids. -/
theorem Reachable.pending_once (h : Reachable P d) {jobid jobid' : UInt64} {entry entry' : Pending}
    (h₁ : d.pending.lookup jobid = some entry) (h₂ : d.pending.lookup jobid' = some entry')
    (hch : entry'.reply = entry.reply) : jobid' = jobid := by
  have hle := h.balanced.request_le entry.reply
  have hone := h.balanced.once entry.reply
  have heq := Ledger.eq_of_countP_le_one
    (p := fun e : Sigma fun _ : UInt64 => Pending => e.2.reply == entry.reply)
    (show held d.pending entry.reply ≤ 1 by omega)
    (AList.mem_lookup_iff.mp h₂) (AList.mem_lookup_iff.mp h₁) (by simp [hch]) (by simp)
  exact congrArg Sigma.fst heq

/-- When the connection breaks, the waiting replies reach their requests. -/
theorem leave_disconnected_routes {jobid : UInt64} {entry : Pending} {m : SteamMessage}
    (hentry : d.pending.lookup jobid = some entry) (hroute : Routable jobid)
    (hfirst : d.inbox.find? (answers jobid) = some m) :
    ∃ es a delivered, (d.leave .disconnected).log = d.log ++ es ∧ a.msg = m ∧
      .replied entry.reply (.ok a) delivered ∈ es := by
  let e : SessionDriver := { d with phase := .backoff initialBackoff }
  obtain ⟨es, a, delivered, hlog, ha, hmem⟩ :=
    drain_routes (d := e) hentry hroute hfirst
  obtain ⟨es', hlog', -⟩ := failAllPending_routine e.drainInbox "session reconnecting"
  refine ⟨es ++ es' ++ [.published .connecting], a, delivered, ?_, ha, by simp [hmem]⟩
  calc (d.leave .disconnected).log
      = (e.drainInbox.failAllPending "session reconnecting").log ++ [.published .connecting] := rfl
    _ = e.drainInbox.log ++ es' ++ [.published .connecting] := by rw [hlog']
    _ = d.log ++ es ++ es' ++ [.published .connecting] := by
        rw [← show _ = d.log ++ es from hlog]
        rfl
    _ = d.log ++ (es ++ es' ++ [.published .connecting]) := by simp

/-- A request that is resolved with a message on the way out of the loop was pending under
a job id that is routed, and the connection broke. -/
theorem leave_replied {x : LoopExit} {ch : Chan} {a : Arrival} {delivered : Bool}
    (h : .replied ch (.ok a) delivered ∈ (d.leave x).log) :
    .replied ch (.ok a) delivered ∈ d.log ∨ x = .disconnected ∧
      ∃ jobid entry, d.pending.lookup jobid = some entry ∧ entry.reply = ch ∧ Routable jobid := by
  have hroutine : ∀ {log es : List Effect}, (∀ e ∈ es, e.isRoutine) →
      .replied ch (.ok a) delivered ∈ log ++ es → .replied ch (.ok a) delivered ∈ log := by
    intro log es hes hmem
    refine (List.mem_append.mp hmem).resolve_right ?_
    exact fun hmem => absurd (hes _ hmem) (by simp [Effect.isRoutine])
  have hfinish : ∀ result, .replied ch (.ok a) delivered ∈ (d.finish result).log →
      .replied ch (.ok a) delivered ∈ d.log := by
    intro result hmem
    obtain ⟨es, hlog, hes⟩ := finish_log d result
    exact hroutine hes (hlog ▸ hmem)
  cases x with
  | shutdown => exact .inl (hfinish _ h)
  | loggedOff reason => exact .inl (hfinish _ h)
  | disconnected =>
      let e : SessionDriver := { d with phase := .backoff initialBackoff }
      obtain ⟨es, hlog, hes⟩ := failAllPending_routine e.drainInbox "session reconnecting"
      have hmem : .replied ch (.ok a) delivered ∈ e.drainInbox.log ++ es := by
        rw [← hlog]
        simpa [leave] using h
      rcases drain_replied (d := e) (hroutine hes hmem) with hold | hpend
      · exact .inl hold
      · exact .inr ⟨rfl, hpend⟩

/-- **When waiting replies survive the end of the loop.** In every run whose steps never
stop the driver in front of a waiting reply, each request that is pending when the
connected loop ends, and whose reply was decoded by then, is resolved with that reply. At
every single end of the loop, in any run, this holds if and only if the step that ends the
loop meets the condition. -/
theorem waiting_reply_reaches_request {now : Nat} {items : List WsItem} {d₀ : SessionDriver}
    {is : List Input} (h₀ : spawn P now items = some d₀)
    (hrun : Ledger.exec (step P) d₀ is = some d) :
    (Ledger.Guarded (step P) (KeepsReplies P) d₀ is →
      ∀ e i e₁ x, EndsLoop P d₀ is e i e₁ x → RepliesReach e₁ (e₁.leave x)) ∧
    ∀ e i e₁ x, EndsLoop P d₀ is e i e₁ x →
      (RepliesReach e₁ (e₁.leave x) ↔ KeepsReplies P e i) := by
  have key : ∀ e i e₁ x, EndsLoop P d₀ is e i e₁ x →
      (RepliesReach e₁ (e₁.leave x) ↔ KeepsReplies P e i) := by
    intro e i e₁ x hend
    obtain ⟨is₁, is₂, -, hpre⟩ := hend.split
    obtain ⟨l, hph, hturn⟩ := hend.turn
    have hreach : Reachable P e := (Reachable.of_spawn h₀).run hpre
    have hreach' : Reachable P (e₁.leave x) :=
      hreach.run (Ledger.exec_cons_eq_some.mpr ⟨_, hend.step hrun, Ledger.exec_nil _⟩)
    have hrest := hreach.resting
    simp only [Resting, hph] at hrest
    have hloop := (runConnected_branch hrest.2 hturn).exit_spec
    constructor
    · rintro hall - jobid entry hentry ⟨m, hm, hans⟩
      obtain ⟨m', hfirst⟩ : ∃ m', e₁.inbox.find? (answers jobid) = some m' := by
        rw [← Option.isSome_iff_exists, List.find?_isSome, hloop.inbox]
        exact ⟨m, hm, hans⟩
      obtain ⟨es, a, delivered, hlog, -, hmem, hsole⟩ :=
        hall jobid entry m' (hloop.pending ▸ hentry) hfirst
      have hnew : .replied entry.reply (.ok a) delivered ∉ e₁.log := by
        intro hold
        have hle := hreach'.balanced.request_le entry.reply
        have hone := hreach'.balanced.once entry.reply
        have hpos : ∀ {log : List Effect}, .replied entry.reply (.ok a) delivered ∈ log →
            0 < log.countP (Effect.settles entry.reply) :=
          fun hmem => List.countP_pos_iff.mpr ⟨_, hmem, by simp [Effect.settles]⟩
        have h₁ := hpos hold
        have h₂ := hpos hmem
        rw [hlog, List.countP_append] at hle
        rw [hlog] at hone
        omega
      rcases leave_replied (hlog ▸ List.mem_append_right _ hmem) with
        hold | ⟨rfl, jobid', entry', hentry', hch, hroute⟩
      · exact absurd hold hnew
      have hbreak : e.breaks P i := by
        rcases hloop.cause with ⟨-, hbreak⟩ | ⟨hx, -⟩
        · exact hbreak
        · exact absurd rfl hx
      refine ⟨not_stops_of_breaks hbreak, fun _ => ?_⟩
      exact hreach.pending_once hentry (hloop.pending ▸ hentry') hch ▸ hroute
    · intro hkeep jobid entry m hentry hfirst
      have hm : m ∈ e.leftover P i := hloop.inbox ▸ List.mem_of_find?_eq_some hfirst
      obtain ⟨hstay, hroute⟩ := hkeep ⟨l, hph⟩ jobid entry (hloop.pending ▸ hentry)
        ⟨m, hm, List.find?_some hfirst⟩
      rcases hloop.cause with ⟨rfl, hbreak⟩ | ⟨-, hstop⟩
      · obtain ⟨es, a, delivered, hlog, ha, hmem⟩ :=
          leave_disconnected_routes hentry (hroute hbreak) hfirst
        refine ⟨es, a, delivered, hlog, ha, hmem, ?_⟩
        intro res delivered' hres
        exact hreach'.replied_once hres (hlog ▸ List.mem_append_right _ hmem)
      · exact absurd hstop hstay
  refine ⟨?_, key⟩
  intro hguard e i e₁ x hend
  obtain ⟨is₁, is₂, rfl, hpre⟩ := hend.split
  exact (key e i e₁ x hend).mpr (hguard.cond hpre)

end SessionDriver

namespace Sample

/-- A request whose reply waits in the inbox, behind another message of its batch. -/
def replyWaiting : List Input :=
  [.command (some (.request 151 [] (fromSecs 30) 7)) none, .poll,
    .item 1 (batch [frame 5406 0 [], frame 147 1 []])]

end Sample

namespace SessionDriver

/-- The connection breaks while the reply waits: the drain hands it to its request. -/
theorem waiting_reply_reaches_request_drained :
    ∃ e e₁, EndsLoop Sample.prost Sample.session
        (Sample.replyWaiting ++ [.command (some (.notify 5402 [] 3)) (some "broken pipe")]) e
        (.command (some (.notify 5402 [] 3)) (some "broken pipe")) e₁ .disconnected ∧
      e₁.pending.lookup 1 = some ⟨7, fromSecs 30⟩ ∧
      RepliesReach e₁ (e₁.leave .disconnected) := by
  let i : Input := .command (some (.notify 5402 [] 3)) (some "broken pipe")
  let e := (Ledger.exec (step Sample.prost) Sample.session Sample.replyWaiting).get (by decide)
  have hpre : Ledger.exec (step Sample.prost) Sample.session Sample.replyWaiting = some e :=
    (Option.some_get _).symm
  have hend : EndsLoop Sample.prost Sample.session (Sample.replyWaiting ++ [i]) e i
      (e.onCommand (some (.notify 5402 [] 3)) (some "broken pipe")).1 .disconnected :=
    ⟨⟨Sample.replyWaiting, [], rfl, hpre⟩, _, rfl, rfl⟩
  have h₀ : spawn Sample.prost 0 _ = some Sample.session := (Option.some_get _).symm
  refine ⟨e, _, hend, by decide, ?_⟩
  refine ((waiting_reply_reaches_request (d := _) h₀
    (Option.some_get (by decide)).symm).2 _ _ _ _ hend).mpr ?_
  rintro - jobid entry hentry -
  refine ⟨by decide, fun _ => ?_⟩
  have hjob : jobid ∈ e.pending := AList.lookup_isSome.mp (by rw [hentry]; rfl)
  have hone : jobid = 1 := by
    have hkeys : e.pending.keys = [1] := by decide
    rw [AList.mem_keys, hkeys] at hjob
    simpa using hjob
  subst hone
  exact ⟨by decide, by decide⟩

/-- A `Logoff` in front of the waiting reply: its request fails, although the reply had been
received. -/
theorem waiting_reply_dropped :
    ∃ e e₁ d, Ledger.exec (step Sample.prost) Sample.session
        (Sample.replyWaiting ++ [.command (some (.logoff 3)) none]) = some d ∧
      EndsLoop Sample.prost Sample.session
        (Sample.replyWaiting ++ [.command (some (.logoff 3)) none]) e
        (.command (some (.logoff 3)) none) e₁ .shutdown ∧
      ¬ RepliesReach e₁ (e₁.leave .shutdown) ∧
      .replied 7 (.error (.webSocket "session driver stopped")) true ∈ d.log := by
  let i : Input := .command (some (.logoff 3)) none
  let e := (Ledger.exec (step Sample.prost) Sample.session Sample.replyWaiting).get (by decide)
  let e₁ := (e.onCommand (some (.logoff 3)) none).1
  have hpre : Ledger.exec (step Sample.prost) Sample.session Sample.replyWaiting = some e :=
    (Option.some_get _).symm
  have hend : EndsLoop Sample.prost Sample.session (Sample.replyWaiting ++ [i]) e i e₁ .shutdown :=
    ⟨⟨Sample.replyWaiting, [], rfl, hpre⟩, _, rfl, rfl⟩
  have hrun : Ledger.exec (step Sample.prost) Sample.session (Sample.replyWaiting ++ [i]) =
      some (e₁.leave .shutdown) :=
    Ledger.exec_append_eq_some.mpr ⟨e, hpre, rfl⟩
  have hfailed : .replied 7 (.error (.webSocket "session driver stopped")) true ∈
      (e₁.leave .shutdown).log := by decide
  refine ⟨e, e₁, _, hrun, hend, ?_, hfailed⟩
  intro hall
  have hentry : e₁.pending.lookup 1 = some ⟨7, fromSecs 30⟩ := by decide
  have hfirst : e₁.inbox.find? (answers 1) = e₁.inbox.head? := by decide
  have hhead : e₁.inbox.head? = some (e₁.inbox.head (by decide)) := List.head?_eq_some_head _
  obtain ⟨es, a, delivered, -, -, -, hsole⟩ := hall 1 _ _ hentry (hfirst.trans hhead)
  cases hsole _ _ hfailed

end SessionDriver

end Steamroids
