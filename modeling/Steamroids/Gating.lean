import Steamroids.GcRequests
import Steamroids.HandleResults
import Steamroids.StoppedCalls

/-!
# What a Request to a Game Coordinator Goes Through

A request is not to reach a GC that has not welcomed us, and what it returns is to be a reply of
that GC to a message that was sent. Between the request and the driver stand the pump, which is
behind the driver, the watch, which keeps its last value only, and the queue; `Gated` is what all
moves keep.

## Main results

* `Coordination.gc_request_gated`: the message of a request is taken by the driver only after a
  welcome that came since the coordinator was attached.
* `Coordination.gc_request_outcome`: what the results of a request stand for.
-/

namespace Steamroids

/-! ### The session beside a request -/

namespace Handles

variable {P : Prost} {w w' : Handles} {m : HandleMove}

/-- What a move does to the calls: it makes one, or moves one that is running. -/
inductive MovesCalls (w : Handles) (m : HandleMove) : List (Command × HandleStage) → Prop
  | made {c : Command} : m = .call c → MovesCalls w m (w.calls ++ [(c, .sending)])
  | same : MovesCalls w m w.calls
  | moved {n : Nat} {c : Command} {st : HandleStage} (st' : HandleStage) :
      w.calls[n]? = some (c, st) → st.isRunning → MovesCalls w m (w.calls.set n (c, st'))

/-- A step starts, moves or ends at most one call. -/
theorem step_movesCalls (h : step P w m = some w') : MovesCalls w m w'.calls := by
  cases m with
  | call c =>
      simp only [step] at h
      split at h
      · obtain rfl := Option.some.inj h
        exact .made rfl
      · cases h
  | clone | drop =>
      simp only [step] at h
      split at h
      · obtain rfl := Option.some.inj h
        exact .same
      · cases h
  | gone write | drive i =>
      simp only [step] at h
      split at h
      · obtain ⟨d, -, rfl⟩ := Option.map_eq_some_iff.mp h
        exact .same
      · cases h
  | take write =>
      simp only [step] at h
      split at h
      · obtain ⟨d, -, rfl⟩ := Option.map_eq_some_iff.mp h
        exact .same
      · cases h
  | receive n =>
      simp only [step] at h
      split at h
      · obtain ⟨r, -, rfl⟩ := Option.map_eq_some_iff.mp h
        exact .moved _ ‹_› rfl
      · cases h
  | send n | refuse n | lose n | expire n =>
      simp only [step] at h
      split at h
      · split at h
        · obtain rfl := Option.some.inj h
          exact .moved _ ‹_› rfl
        · cases h
      · cases h
  | cancel n =>
      simp only [step] at h
      split at h
      · split at h
        · obtain rfl := Option.some.inj h
          exact .moved _ ‹_› ‹_›
        · cases h
      · cases h

variable {calls : List (Command × HandleStage)} {n : Nat} {c : Command} {st : HandleStage}

/-- A call stays where it is made, with its command. -/
theorem MovesCalls.keeps (h : MovesCalls w m calls) (hn : w.calls[n]? = some (c, st)) :
    ∃ st', calls[n]? = some (c, st') ∧ (st.isRunning = false → st' = st) := by
  have hlt : n < w.calls.length := (List.getElem?_eq_some_iff.mp hn).1
  cases h with
  | made _ => exact ⟨st, by rw [List.getElem?_append_left hlt, hn], fun _ => rfl⟩
  | same => exact ⟨st, hn, fun _ => rfl⟩
  | @moved k c' st₁ st' hk hrunning =>
      by_cases heq : k = n
      · subst heq
        obtain ⟨rfl, rfl⟩ := Prod.mk.inj (Option.some.inj (hk.symm.trans hn))
        refine ⟨st', by simp [hlt], fun hnot => ?_⟩
        rw [hrunning] at hnot
        cases hnot
      · exact ⟨st, by rw [List.getElem?_set_ne heq, hn], fun _ => rfl⟩

/-- A channel that is not in use comes into use with a call. -/
theorem MovesCalls.chan (h : MovesCalls w m calls) {ch : Chan}
    (hnew : ch ∉ w.calls.map fun x => x.1.chan) (hm : ∀ c, m = .call c → c.chan ≠ ch) :
    ch ∉ calls.map fun x => x.1.chan := by
  cases h with
  | @made c hc =>
      rw [List.map_append, List.mem_append, not_or]
      exact ⟨hnew, by simpa using (hm c hc).symm⟩
  | same => exact hnew
  | moved st' hk _ => rwa [map_chan_set hk]

/-- The ledger of the driver only grows. -/
theorem step_log (h : step P w m = some w') (hw : w.Linked P) : w.driver.log <+: w'.driver.log := by
  cases step_makes h with
  | drives hd _ =>
      obtain ⟨es, hes⟩ := SessionDriver.step_log_append hd hw.driver.resting
      exact ⟨es, hes.symm⟩
  | _ => exact List.prefix_rfl

end Handles

/-! ### The pump and the watch -/

/-- The message of the app's GC that a broadcast message carries. -/
def gcMessage? (G : GcProst) (appid : UInt32) (msg : SteamMessage) : Option GcMessage :=
  if msg.emsg = emsgClientFromGc then
    match GcMessage.unwrap G msg with
    | .ok (some gcMsg) => if gcMsg.appid = appid then some gcMsg else none
    | _ => none
  else
    none

namespace Pump

variable {G : GcProst} {appid helloVersion : UInt32} {p p' : Pump} {log : List Effect}
  {i : PumpInput}

/-- Only a pump that runs takes a step. -/
theorem running_of_step (h : p.step G appid helloVersion log i = some p') : p.running := by
  rcases hrun : p.running with _ | _
  · cases i <;> simp [step, hrun] at h
  · rfl

/-- What an iteration does to the two channels of the coordinator, `ready` being what it sends
through the watch. -/
inductive Relays (G : GcProst) (appid : UInt32) (log : List Effect) (p : Pump) (ready : Option Bool)
    (p' : Pump) : Prop
  | quiet : p.next ≤ p'.next → p'.relayed = p.relayed → ready ≠ some true →
      Relays G appid log p ready p'
  | heard {msg : SteamMessage} : (messages log)[p.next]? = some msg → p'.next = p.next + 1 →
      p'.relayed = p.relayed ++ (gcMessage? G appid msg).toList →
      ready = (readiness? G appid msg).map (fun e => decide (e = .welcome)) →
      p'.running = p.running → Relays G appid log p ready p'

/-- What a GC message says of readiness relays nothing, and does not stop the pump. -/
theorem onGcMessage_relayed (now : Nat) (msg : GcMessage) :
    (p.onGcMessage G now msg).relayed = p.relayed ∧
      (p.onGcMessage G now msg).running = p.running := by
  simp only [onGcMessage]
  split
  · exact ⟨rfl, rfl⟩
  · split
    · split <;> exact ⟨rfl, rfl⟩
    · exact ⟨rfl, rfl⟩

/-- A message of the app's GC is relayed, any other is not. -/
theorem onMessage_relayed (now : Nat) (msg : SteamMessage) :
    (p.onMessage G appid now msg).relayed = p.relayed ++ (gcMessage? G appid msg).toList ∧
      (p.onMessage G appid now msg).running = p.running := by
  by_cases hemsg : msg.emsg = emsgClientFromGc
  · simp only [onMessage, gcMessage?, hemsg, ne_eq, not_true_eq_false, if_false, if_true]
    rcases GcMessage.unwrap G msg with e | (_ | gcMsg)
    · exact ⟨(List.append_nil _).symm, rfl⟩
    · exact ⟨(List.append_nil _).symm, rfl⟩
    · by_cases happ : gcMsg.appid = appid
      · obtain ⟨hrelayed, hrunning⟩ := onGcMessage_relayed (G := G) (p := p) now gcMsg
        simp [happ, hrelayed, hrunning]
      · simp [happ]
  · simp [onMessage, gcMessage?, hemsg]

/-- To handle a message does not move the pump's place in the channel. -/
theorem onMessage_next (now : Nat) (msg : SteamMessage) :
    (p.onMessage G appid now msg).next = p.next := by
  rw [(onMessage_spec now msg).next]
  cases readiness? G appid msg <;> rfl

/-- **What the pump tells the coordinator comes from the session.** -/
theorem step_relays (h : p.step G appid helloVersion log i = some p') :
    Relays G appid log p (p.announces G appid log i) p' := by
  cases i with
  | received now =>
      simp only [step] at h
      split at h
      · obtain ⟨⟨r, next⟩, hr, rfl⟩ := Option.map_eq_some_iff.mp h
        cases r with
        | value msg =>
            obtain ⟨hmsg, rfl⟩ := Channel.recv_eq_value hr
            obtain ⟨hrelayed, hrunning⟩ :=
              onMessage_relayed (G := G) (p := { p with next := p.next + 1 }) now msg
            exact .heard hmsg (onMessage_next now msg) hrelayed (by simp [announces, hr]) hrunning
        | lagged missed => exact .quiet (Channel.recv_next_le hr) rfl (by simp [announces, hr])
        | closed => exact .quiet (Nat.le_refl _) rfl (by simp [announces, hr])
      · cases h
  | changed now announced =>
      have hquiet : p.announces G appid log (.changed now announced) ≠ some true := by
        simp only [announces]
        split <;> simp
      cases step_steps h with
      | changed _ =>
          refine .quiet (Nat.le_of_eq ?_) ?_ hquiet
          · exact (onChanged_spec (p := { p with seen := _ }) now announced _).next.symm
          · simp only [onChanged]
            split <;> rfl
      | ended => exact .quiet (Nat.le_refl _) rfl hquiet
  | closed =>
      cases step_steps h with
      | closed => exact .quiet (Nat.le_refl _) rfl (by simp [announces])
  | tick now =>
      cases step_steps h with
      | tick =>
          refine .quiet (Nat.le_of_eq (onTick_keeps now).next.symm) ?_ (by simp [announces])
          simp only [onTick]
          split <;> rfl

end Pump

/-- What a pump that was attached at `log` reads is broadcast later. -/
theorem broadcast_of_messages {log es : List Effect} {k : Nat} {msg : SteamMessage}
    (hk : (messages log).length ≤ k) (hmsg : (messages (log ++ es))[k]? = some msg) :
    ∃ a, .broadcast a ∈ es ∧ a.msg = msg := by
  rw [messages, List.filterMap_append, List.getElem?_append_right (by exact hk)] at hmsg
  obtain ⟨e, he, hmsg⟩ := List.mem_filterMap.mp (List.mem_of_getElem? hmsg)
  cases e with
  | broadcast a => exact ⟨a, he, Option.some.inj hmsg⟩
  | _ => cases hmsg

/-! ### The invariant -/

namespace Coordination

variable {β : Type}

/-- What has happened since `w₀`. -/
def since (w₀ : Handles) (log : List Effect) : List Effect := log.drop w₀.driver.log.length

/-- An entry of the ledger by which the driver takes a command on the channel `ch` comes after a
welcome. -/
def Follows (G : GcProst) (appid : UInt32) (ch : Chan) (w₀ : Handles) (pre : List Effect)
    (e : Effect) : Prop :=
  ∀ c, e = .took c → c.chan = ch → .welcome ∈ gcEvents G appid (since w₀ pre)

/-- What is true of a request by where it stands. -/
def Standing (G : GcProst) (appid : UInt32) (q : GcRequest β) (s : Coordination β) :
    GcStage β → Prop
  | .idle => s.asked = none
  | .awaiting _ => s.asked = none
  | .ready => s.asked = none
  | .sending _ => s.asked.isSome
  | .wait (.waiting _) => s.answer? = some (.ok ())
  | .wait (.done (.ok b)) => s.answer? = some (.ok ()) ∧
      ∃ msg ∈ s.pump.relayed, (q.call G appid).wait.judge msg = some (.ok b)
  | .wait (.done (.error e)) =>
      s.asked = none ∧ (e = .timeout "GC welcome" ∨
          e = .webSocket "GC pump stopped" ∧ s.pump.running = false) ∨
        s.answer? = some (.error e) ∨
        s.answer? = some (.ok ()) ∧ (e = .timeout "GC response" ∨
          ∃ msg ∈ s.pump.relayed, (q.call G appid).wait.judge msg = some (.error e))
  | .cancelled => True

/-- The request, the pump and the session fit together, the pump having been attached at `w₀`. -/
structure Gated (P : Prost) (G : GcProst) (appid : UInt32) (q : GcRequest β) (ch : Chan)
    (w₀ : Handles) (s : Coordination β) : Prop where
  linked : s.session.Linked P
  grown : w₀.driver.log <+: s.log
  next : (messages w₀.driver.log).length ≤ s.pump.next
  welcomed : true ∈ s.readies → .welcome ∈ gcEvents G appid (since w₀ s.log)
  relayed : ∀ msg ∈ s.pump.relayed, ∃ a, .broadcast a ∈ since w₀ s.log ∧
    gcMessage? G appid a.msg = some msg
  borrowed : s.stage.isRunning → 0 < s.coordinators
  admitted : s.stage = .ready ∨ s.asked.isSome → true ∈ s.readies
  unasked : s.asked = none → ch ∉ s.session.calls.map fun x => x.1.chan
  own : ∀ n, s.asked = some n → ∃ st, s.session.calls[n]? = some (q.command G appid ch, st)
  took : Ledger.Justified (Follows G appid ch w₀) s.log
  standing : s.Standing G appid q s.stage

variable {P : Prost} {G : GcProst} {appid helloVersion : UInt32} {q : GcRequest β} {ch : Chan}
  {w₀ : Handles} {s s' : Coordination β}

/-- What happens next is behind what has happened since. -/
theorem since_append {log : List Effect} (h : w₀.driver.log <+: log) (es : List Effect) :
    since w₀ (log ++ es) = since w₀ log ++ es :=
  List.drop_append_of_le_length h.length_le

/-- An event of the GC stays one. -/
theorem mem_gcEvents_append {es : List Effect} {ev : GcEvent} (h : ev ∈ gcEvents G appid es)
    (more : List Effect) : ev ∈ gcEvents G appid (es ++ more) := by
  rw [gcEvents, List.filterMap_append]
  exact List.mem_append_left _ h

/-- The pump reads what is broadcast after it was attached. -/
theorem Gated.heard (h : Gated P G appid q ch w₀ s) {msg : SteamMessage}
    (hmsg : (messages s.log)[s.pump.next]? = some msg) :
    ∃ a, .broadcast a ∈ since w₀ s.log ∧ a.msg = msg := by
  obtain ⟨es, hes⟩ := h.grown
  rw [← hes] at hmsg
  obtain ⟨a, ha, rfl⟩ := broadcast_of_messages h.next hmsg
  refine ⟨a, ?_, rfl⟩
  rw [← hes, since, List.drop_left]
  exact ha

/-- What a notification has returned does not change. -/
theorem answer?_keep {w : Handles} {res : Except Error Unit} {m : HandleMove}
    (hcalls : s.session.MovesCalls m w.calls) (h : s.answer? = some res) :
    answer? { s with session := w } = some res := by
  simp only [answer?] at h ⊢
  rcases hasked : s.asked with _ | n
  · simp [hasked] at h
  · rcases hn : s.session.calls[n]? with _ | ⟨c, st⟩
    · simp [hasked, hn] at h
    · cases st with
      | returned e =>
          obtain ⟨st', hst', hsame⟩ := hcalls.keeps hn
          simpa [hasked, hst', hsame rfl, hn] using h
      | _ => simp [hasked, hn] at h

/-- A request stays where it is while the session and the pump go on. -/
theorem Standing.keep {st : GcStage β} (h : s.Standing G appid q st) (hasked : s'.asked = s.asked)
    (hanswer : ∀ res, s.answer? = some res → s'.answer? = some res)
    (hrelayed : s.pump.relayed <+: s'.pump.relayed)
    (hrunning : s.pump.running = false → s'.pump.running = false) :
    s'.Standing G appid q st := by
  rcases st with _ | seen | _ | next | (next | (e | b)) | _
  · exact hasked.trans h
  · exact hasked.trans h
  · exact hasked.trans h
  · exact (congrArg Option.isSome hasked).trans h
  · exact hanswer _ h
  · rcases h with ⟨hnone, he | ⟨he, hstop⟩⟩ | he | ⟨hok, htime | ⟨msg, hmsg, hjudge⟩⟩
    · exact .inl ⟨hasked.trans hnone, .inl he⟩
    · exact .inl ⟨hasked.trans hnone, .inr ⟨he, hrunning hstop⟩⟩
    · exact .inr (.inl (hanswer _ he))
    · exact .inr (.inr ⟨hanswer _ hok, .inl htime⟩)
    · exact .inr (.inr ⟨hanswer _ hok, .inr ⟨msg, hrelayed.subset hmsg, hjudge⟩⟩)
  · obtain ⟨hok, msg, hmsg, hjudge⟩ := h
    exact ⟨hanswer _ hok, msg, hrelayed.subset hmsg, hjudge⟩
  · trivial

/-! ### The moves keep the invariant -/

/-- The session moves, by anything but the request. -/
theorem Gated.session (h : Gated P G appid q ch w₀ s) {m : HandleMove} {w : Handles}
    (hm : ∀ c, m = .call c → c.chan ≠ ch) (hstep : s.session.step P m = some w) :
    Gated P G appid q ch w₀ { s with session := w } := by
  have hcalls := Handles.step_movesCalls hstep
  have hlinked := h.linked.makes (Handles.step_makes hstep)
  obtain ⟨es, hes⟩ := Handles.step_log hstep h.linked
  have hlog : w.driver.log = s.log ++ es := hes.symm
  have hsince : since w₀ w.driver.log = since w₀ s.log ++ es := hlog ▸ since_append h.grown es
  have hunasked : s.asked = none → ch ∉ w.calls.map fun x => x.1.chan :=
    fun hnone => hcalls.chan (h.unasked hnone) hm
  refine
    { linked := hlinked
      grown := h.grown.trans ⟨es, hes⟩
      next := h.next
      welcomed := fun hready => ?_
      relayed := fun msg hmsg => ?_
      borrowed := h.borrowed
      admitted := h.admitted
      unasked := hunasked
      own := fun n hn => ?_
      took := ?_
      standing := h.standing.keep rfl (fun res => answer?_keep hcalls) List.prefix_rfl id }
  · show .welcome ∈ gcEvents G appid (since w₀ w.driver.log)
    rw [hsince]
    exact mem_gcEvents_append (h.welcomed hready) es
  · obtain ⟨a, ha, hcarries⟩ := h.relayed msg hmsg
    refine ⟨a, ?_, hcarries⟩
    show .broadcast a ∈ since w₀ w.driver.log
    rw [hsince]
    exact List.mem_append_left _ ha
  · obtain ⟨st, hst⟩ := h.own n hn
    obtain ⟨st', hst', -⟩ := hcalls.keeps hst
    exact ⟨st', hst'⟩
  · show Ledger.Justified (Follows G appid ch w₀) w.driver.log
    rw [hlog, Ledger.justified_append]
    refine ⟨h.took, ?_⟩
    rintro pre e post rfl c rfl hch
    have hasked : s.asked.isSome := by
      rw [Option.isSome_iff_ne_none]
      intro hnone
      have htook : .took c ∈ w.driver.log := by simp [hlog]
      obtain ⟨st, hmem, -⟩ := hlinked.called c (List.mem_of_mem_take (hlinked.took htook))
      exact hunasked hnone (List.mem_map.mpr ⟨_, hmem, hch⟩)
    rw [since_append h.grown]
    exact mem_gcEvents_append (h.welcomed (h.admitted (.inr hasked))) pre

/-- The pump goes through its loop. -/
theorem Gated.pump (h : Gated P G appid q ch w₀ s) {i : PumpInput} {p : Pump}
    (hstep : s.pump.step G appid helloVersion s.log i = some p) {readies : List Bool}
    (hsub : s.readies ⊆ readies)
    (hready : true ∈ readies → true ∈ s.readies ∨ s.pump.announces G appid s.log i = some true) :
    Gated P G appid q ch w₀ { s with pump := p, readies := readies } := by
  have hrelays := Pump.step_relays hstep
  have hrunning := Pump.running_of_step hstep
  refine
    { linked := h.linked
      grown := h.grown
      next := ?_
      welcomed := ?_
      relayed := ?_
      borrowed := h.borrowed
      admitted := fun hin => hsub (h.admitted hin)
      unasked := h.unasked
      own := h.own
      took := h.took
      standing := h.standing.keep rfl (fun _ => id) ?_ (by simp [hrunning]) }
  · cases hrelays with
    | quiet hnext _ _ => exact Nat.le_trans h.next hnext
    | heard _ hnext _ _ _ =>
        show (messages w₀.driver.log).length ≤ p.next
        have := h.next
        omega
  · intro htrue
    rcases hready htrue with hold | hnew
    · exact h.welcomed hold
    · cases hrelays with
      | quiet _ _ hnot => exact absurd hnew hnot
      | heard hmsg _ _ hannounces _ =>
          obtain ⟨a, ha, rfl⟩ := h.heard hmsg
          rw [hannounces] at hnew
          obtain ⟨e, he, hwelcome⟩ := Option.map_eq_some_iff.mp hnew
          obtain rfl := of_decide_eq_true hwelcome
          exact List.mem_filterMap.mpr ⟨_, ha, he⟩
  · intro msg hmsg
    cases hrelays with
    | quiet _ hrelayed _ => exact h.relayed msg (hrelayed ▸ hmsg)
    | heard hheard _ hrelayed _ _ =>
        simp only [hrelayed, List.mem_append] at hmsg
        rcases hmsg with hold | hnew
        · exact h.relayed msg hold
        · obtain ⟨a, ha, rfl⟩ := h.heard hheard
          exact ⟨a, ha, by simpa using hnew⟩
  · cases hrelays with
    | quiet _ hrelayed _ => exact hrelayed ▸ List.prefix_rfl
    | heard _ _ hrelayed _ _ => exact hrelayed ▸ List.prefix_append _ _

/-- The request comes to another place, having made no command. -/
theorem Gated.goto (h : Gated P G appid q ch w₀ s) {st : GcStage β}
    (hborrowed : st.isRunning → 0 < s.coordinators) (hadmitted : st = .ready → true ∈ s.readies)
    (hstanding : s.Standing G appid q st) : Gated P G appid q ch w₀ { s with stage := st } where
  linked := h.linked
  grown := h.grown
  next := h.next
  welcomed := h.welcomed
  relayed := h.relayed
  borrowed := hborrowed
  admitted := fun hin => hin.elim hadmitted fun hasked => h.admitted (.inr hasked)
  unasked := h.unasked
  own := h.own
  took := h.took
  standing := hstanding.keep rfl (fun _ => id) List.prefix_rfl id

/-- The request ends. -/
theorem Gated.ends (h : Gated P G appid q ch w₀ s) {st : GcStage β} (hover : st.isRunning = false)
    (hstanding : s.Standing G appid q st) : Gated P G appid q ch w₀ { s with stage := st } := by
  refine h.goto ?_ ?_ hstanding
  · rw [hover]
    rintro ⟨⟩
  · rintro rfl
    cases hover

/-- Whoever looks at the readiness holds the coordinator and has not asked yet. -/
theorem Gated.looks (h : Gated P G appid q ch w₀ s) (hlooks : s.Looks) :
    0 < s.coordinators ∧ s.asked = none := by
  have hstanding := h.standing
  rcases hlooks with ⟨hstage, hpos⟩ | ⟨seen, hstage⟩
  · rw [hstage] at hstanding
    exact ⟨hpos, hstanding⟩
  · rw [hstage] at hstanding
    exact ⟨h.borrowed (by rw [hstage]; rfl), hstanding⟩

/-- A coordinator that is ready has said so. -/
theorem true_mem_of_isReady (h : s.isReady) : true ∈ s.readies := by
  rw [isReady] at h
  rcases hlast : s.readies.getLast? with _ | b
  · simp [hlast] at h
  · obtain rfl : b = true := by simpa [hlast] using h
    exact List.mem_of_getLast? hlast

/-- The coordinator that the request borrows keeps its channel open. -/
theorem Gated.isOpen (h : Gated P G appid q ch w₀ s) (hrunning : s.stage.isRunning) :
    s.isOpen = true := by
  simp [Coordination.isOpen, h.borrowed hrunning]

/-- The request goes on by itself. -/
theorem Gated.goes (h : Gated P G appid q ch w₀ s) {st : GcStage β} (hgoes : s.Goes G appid q st) :
    Gated P G appid q ch w₀ { s with stage := st } := by
  have hstanding := h.standing
  cases hgoes with
  | ready hlooks hready =>
      obtain ⟨hpos, hnone⟩ := h.looks hlooks
      exact h.goto (fun _ => hpos) (fun _ => true_mem_of_isReady hready) hnone
  | awaits hlooks =>
      obtain ⟨hpos, hnone⟩ := h.looks hlooks
      exact h.goto (fun _ => hpos) (by rintro ⟨⟩) hnone
  | stopped hstage hstop =>
      rw [hstage] at hstanding
      exact h.ends rfl (.inl ⟨hstanding, .inr ⟨rfl, hstop⟩⟩)
  | late hstage =>
      rw [hstage] at hstanding
      exact h.ends rfl (.inl ⟨hstanding, .inl rfl⟩)
  | accepted hstage hanswer =>
      exact h.goto (fun _ => h.borrowed (by rw [hstage]; rfl)) (by rintro ⟨⟩) hanswer
  | refused hstage hanswer => exact h.ends rfl (.inr (.inl hanswer))
  | @receive next st hstage hreceive =>
      have hrunning : s.stage.isRunning := by rw [hstage]; rfl
      rw [hstage] at hstanding
      rw [h.isOpen hrunning] at hreceive
      obtain ⟨-, ⟨next', rfl, -, -⟩ | ⟨msg, res, hmsg, hjudge, rfl⟩⟩ :=
        Channel.Wait.receive_of_open hreceive
      · exact h.goto (fun _ => h.borrowed hrunning) (by rintro ⟨⟩) hstanding
      · refine h.ends rfl ?_
        have hmem := List.mem_of_getElem? hmsg
        rcases res with e | b
        · exact .inr (.inr ⟨hstanding, .inr ⟨msg, hmem, hjudge⟩⟩)
        · exact ⟨hstanding, msg, hmem, hjudge⟩
  | expire hstage hexpire =>
      rw [hstage] at hstanding
      rw [Channel.Wait.expire_eq hexpire]
      exact h.ends rfl (.inr (.inr ⟨hstanding, .inl rfl⟩))

/-- The request makes its command. -/
theorem Gated.ask (h : Gated P G appid q ch w₀ s) {w : Handles} (hstage : s.stage = .ready)
    (hstep : s.session.step P (.call (q.command G appid ch)) = some w) :
    Gated P G appid q ch w₀
      { s with
        session := w
        stage := .sending s.pump.relayed.length
        asked := some s.session.calls.length } := by
  have hlinked := h.linked.makes (Handles.step_makes hstep)
  simp only [Handles.step] at hstep
  split at hstep
  · obtain rfl := Option.some.inj hstep
    exact
      { linked := hlinked
        grown := h.grown
        next := h.next
        welcomed := h.welcomed
        relayed := h.relayed
        borrowed := fun _ => h.borrowed (by rw [hstage]; rfl)
        admitted := fun _ => h.admitted (.inl hstage)
        unasked := by rintro ⟨⟩
        own := fun n hn => by
          obtain rfl := Option.some.inj hn
          exact ⟨.sending, by simp⟩
        took := h.took
        standing := rfl }
  · cases hstep

/-- **Every move keeps the invariant.** -/
theorem Gated.makes (h : Gated P G appid q ch w₀ s)
    (hmakes : Makes P G appid helloVersion q ch s s') : Gated P G appid q ch w₀ s' := by
  cases hmakes with
  | @session m w hallows hstep =>
      refine h.session ?_ hstep
      rintro c rfl
      simpa [allows] using hallows
  | @pump i p hstep _ =>
      refine h.pump hstep (List.subset_append_left _ _) fun htrue => ?_
      rcases List.mem_append.mp htrue with hold | hnew
      · exact .inl hold
      · exact .inr (by simpa using hnew)
  | pumpEnds hstep _ hdrop =>
      exact (h.pump hstep (List.Subset.refl _) .inl).session (by rintro c ⟨⟩) hdrop
  | clone hpos hclone =>
      have hsession := h.session (by rintro c ⟨⟩) hclone
      exact { hsession with borrowed := fun _ => Nat.succ_pos _ }
  | drop hpos hmore hdrop =>
      have hsession := h.session (by rintro c ⟨⟩) hdrop
      exact { hsession with borrowed := fun hrunning => Nat.sub_pos_of_lt (hmore hrunning) }
  | goes hgoes => exact h.goes hgoes
  | ask hstage hstep => exact h.ask hstage hstep
  | cancel hw =>
      rcases hw with rfl | ⟨n, hcancel⟩
      · exact h.ends rfl trivial
      · exact (h.session (by rintro c ⟨⟩) hcancel).ends rfl trivial

/-- A pump is attached. -/
theorem gated_attach (hw : w₀.Reachable P) (hpos : 0 < w₀.handles)
    (hnew : ch ∉ w₀.calls.map fun x => x.1.chan) (now : Nat) :
    Gated P G appid q ch w₀ (attach now w₀) where
  linked := hw.linked.clone hpos
  grown := List.prefix_rfl
  next := Nat.le_refl _
  welcomed := by simp [attach]
  relayed := by simp [attach, Pump.attach]
  borrowed := by rintro ⟨⟩
  admitted := by simp [attach]
  unasked := fun _ => hnew
  own := by rintro n ⟨⟩
  took := by
    intro pre e post hsplit c he hch
    have htook : .took c ∈ w₀.driver.log := by
      show .took c ∈ (attach (β := β) now w₀).log
      rw [hsplit, he]
      simp
    obtain ⟨st, hmem, -⟩ := hw.linked.called c (List.mem_of_mem_take (hw.linked.took htook))
    exact absurd (List.mem_map.mpr ⟨_, hmem, hch⟩) hnew
  standing := rfl

/-- **Run lemma.** A request is gated at every moment of every run. -/
theorem gated_of_run (hw : w₀.Reachable P) (hpos : 0 < w₀.handles)
    (hnew : ch ∉ w₀.calls.map fun x => x.1.chan) {now : Nat} {ms : List GcMove}
    (hrun : Ledger.exec (fun s m => s.step P G appid helloVersion q ch m) (attach now w₀) ms =
      some s) : Gated P G appid q ch w₀ s :=
  Ledger.exec_invariant (I := Gated P G appid q ch w₀)
    (fun _ _ _ h hstep => h.makes (step_makes hstep)) hrun (gated_attach hw hpos hnew now)

/-! ### The message is held back -/

/-- **A request does not reach a GC that has not welcomed us.** In whatever order the driver, the
pump, the queue and all callers go on, and however often the session reconnects: when the driver
takes a command on the channel of the request, it is the message of the request, and since the
coordinator was attached the session has broadcast a welcome of this app's GC. -/
theorem gc_request_gated (hw : w₀.Reachable P) (hpos : 0 < w₀.handles)
    (hnew : ch ∉ w₀.calls.map fun x => x.1.chan) {now : Nat} {ms : List GcMove}
    (hrun : Ledger.exec (fun s m => s.step P G appid helloVersion q ch m) (attach now w₀) ms =
      some s) {pre post : List Effect} {c : Command} (hsplit : s.log = pre ++ .took c :: post)
    (hch : c.chan = ch) :
    c = q.command G appid ch ∧ ∃ a, .broadcast a ∈ since w₀ pre ∧
      readiness? G appid a.msg = some .welcome := by
  have h := gated_of_run hw hpos hnew hrun
  constructor
  · have htook : .took c ∈ s.log := by simp [hsplit]
    obtain ⟨st, hmem, -⟩ := h.linked.called c (List.mem_of_mem_take (h.linked.took htook))
    rcases hasked : s.asked with _ | n
    · exact absurd (List.mem_map.mpr ⟨_, hmem, hch⟩) (h.unasked hasked)
    · obtain ⟨st', hst'⟩ := h.own n hasked
      exact (Prod.mk.inj (h.linked.same hmem (List.mem_of_getElem? hst') hch)).1
  · obtain ⟨e, he, hwelcome⟩ := List.mem_filterMap.mp (h.took pre _ post hsplit c rfl hch)
    cases e with
    | broadcast a => exact ⟨a, he, hwelcome⟩
    | published st => cases hwelcome
    | _ => cases hwelcome

end Coordination

namespace Sample

/-- A request for messages of type 9128. -/
def gcRequest : GcRequest Bytes := ⟨9127, [], 9128, .ok, fun body => body.length == 1⟩

/-- A message of type 9128 from the GC of app 730. -/
def gcReply (body : Bytes) : WsItem :=
  let payload := encodeRaw 9128 [] body
  item (frame emsgClientFromGc 0
    (0x08 :: 0xda :: 0x05 :: 0x1a :: UInt8.ofNat payload.length :: payload))

/-- The request is made before the welcome, sent after it, and answered by the second message. -/
def gcMoves : List GcMove :=
  [.enter, .session (.drive .poll), .session (.drive (.item 1 welcome)), .pump (.received 2), .look,
    .ask, .session (.send 0), .session (.take none), .session (.receive 0), .answered,
    .session (.drive .poll), .session (.drive (.item 3 (gcReply []))),
    .session (.drive .poll), .session (.drive (.item 4 (gcReply [7]))), .pump (.received 5),
    .pump (.received 5), .receive, .receive]

/-- The coordination after these moves. -/
def gcAnswered : Coordination Bytes :=
  (Ledger.exec (fun s m => s.step prost gcProst 730 0 gcRequest 8 m) (.attach 0 handle) gcMoves).get
    (by decide)

/-- The moves are a run to it. -/
theorem run_gcAnswered :
    Ledger.exec (fun s m => s.step prost gcProst 730 0 gcRequest 8 m) (.attach 0 handle) gcMoves =
      some gcAnswered :=
  (Option.some_get _).symm

/-- The handle of the examples is reachable. -/
theorem reachable_handle : handle.Reachable prost :=
  ⟨0, [item logonFrame], handle, [], (Option.some_get _).symm, rfl⟩

end Sample

/-- The driver takes the request after the welcome. -/
theorem Coordination.gc_request_gated_answered :
    ∃ pre post, Sample.gcAnswered.log =
        pre ++ .took (Sample.gcRequest.command Sample.gcProst 730 8) :: post ∧
      ∃ a, .broadcast a ∈ since Sample.handle pre ∧
        readiness? Sample.gcProst 730 a.msg = some .welcome := by
  have hsplit : Sample.gcAnswered.log = Sample.gcAnswered.log.take 5 ++
      .took (Sample.gcRequest.command Sample.gcProst 730 8) :: Sample.gcAnswered.log.drop 6 := by
    decide
  exact ⟨_, _, hsplit, (gc_request_gated Sample.reachable_handle (by decide) (by decide)
    Sample.run_gcAnswered hsplit rfl).2⟩

namespace Coordination

variable {β : Type} {P : Prost} {G : GcProst} {appid helloVersion : UInt32} {q : GcRequest β}
  {ch : Chan} {w₀ : Handles} {s : Coordination β}

/-! ### What a request returns -/

/-- The message of the request was taken from the queue and written to the connection. -/
def Written (G : GcProst) (appid : UInt32) (q : GcRequest β) (ch : Chan) (s : Coordination β) :
    Prop :=
  SessionDriver.Notified s.log emsgClientToGc
    (G.encodeGcClient (GcMessage.wrap G appid q.sendType {} q.body)) ch

/-- A message of the type that the request waits for came from the app's GC. -/
def Came (G : GcProst) (appid : UInt32) (q : GcRequest β) (w₀ : Handles) (s : Coordination β)
    (msg : GcMessage) : Prop :=
  msg.msgtype = q.responseType ∧
    ∃ a, .broadcast a ∈ since w₀ s.log ∧ gcMessage? G appid a.msg = some msg

/-- Nothing was put into the queue for the request. -/
def Unsent (ch : Chan) (s : Coordination β) : Prop := ∀ c ∈ s.session.sent, c.chan ≠ ch

/-- What a result of the request stands for. -/
def Outcome (G : GcProst) (appid : UInt32) (q : GcRequest β) (ch : Chan) (w₀ : Handles)
    (s : Coordination β) : Except Error β → Prop
  | .ok b => s.Written G appid q ch ∧
      ∃ msg, s.Came G appid q w₀ msg ∧ q.decode msg.body = .ok b ∧ q.accept b
  | .error (.timeout what) => what = "GC welcome" ∧ s.Unsent ch ∨
      what = "GC response" ∧ s.Written G appid q ch
  | .error (.webSocket text) =>
      text = "GC pump stopped" ∧ s.pump.running = false ∧ s.Unsent ch ∨
        s.answer? = some (.error (.webSocket text))
  | .error (.codec text) => s.Written G appid q ch ∧
      ∃ msg e, s.Came G appid q w₀ msg ∧ q.decode msg.body = .error e ∧
        text = "decode GC response: " ++ e
  | .error _ => False

/-- A request is answered by a message of its type that decodes and is accepted. -/
theorem judge_eq_ok {msg : GcMessage} {b : β}
    (h : (q.call G appid).wait.judge msg = some (.ok b)) :
    msg.msgtype = q.responseType ∧ q.decode msg.body = .ok b ∧ q.accept b := by
  simp only [GcRequest.call, requestMatching] at h
  split at h
  · split at h
    · cases h
    · split at h
      · obtain rfl := Except.ok.inj (Option.some.inj h)
        exact ⟨‹_›, ‹_›, ‹_›⟩
      · cases h
  · cases h

/-- A request fails on a message of its type that does not decode. -/
theorem judge_eq_error {msg : GcMessage} {e : Error}
    (h : (q.call G appid).wait.judge msg = some (.error e)) :
    msg.msgtype = q.responseType ∧ ∃ text, q.decode msg.body = .error text ∧
      e = .codec ("decode GC response: " ++ text) := by
  simp only [GcRequest.call, requestMatching] at h
  split at h
  · split at h
    · obtain rfl := Except.error.inj (Option.some.inj h)
      exact ⟨‹_›, _, ‹_›, rfl⟩
    · split at h <;> cases h
  · cases h

/-- The call on the session that has answered the request. -/
theorem Gated.exists_returned (h : Gated P G appid q ch w₀ s) {res : Except Error Unit}
    (hanswer : s.answer? = some res) :
    ∃ e, (q.command G appid ch, .returned e) ∈ s.session.calls ∧ e.notify? = some res := by
  simp only [answer?] at hanswer
  rcases hasked : s.asked with _ | n
  · simp [hasked] at hanswer
  · obtain ⟨st, hst⟩ := h.own n hasked
    cases st with
    | returned e => exact ⟨e, List.mem_of_getElem? hst, by simpa [hasked, hst] using hanswer⟩
    | _ => simp [hasked, hst] at hanswer

/-- A notification that was acknowledged as sent was written. -/
theorem Gated.written (h : Gated P G appid q ch w₀ s) (hanswer : s.answer? = some (.ok ())) :
    s.Written G appid q ch := by
  obtain ⟨e, hmem, hok⟩ := h.exists_returned hanswer
  obtain ⟨res, hres, hwrote⟩ := h.linked.meant_notify (h.linked.fates _ _ hmem)
  exact hwrote (Option.some.inj (hres.symm.trans hok))

/-- A notification fails with `Error::WebSocket`. -/
theorem Gated.answer_error (h : Gated P G appid q ch w₀ s) {e : Error}
    (hanswer : s.answer? = some (.error e)) : ∃ text, e = .webSocket text := by
  obtain ⟨end', hmem, herror⟩ := h.exists_returned hanswer
  cases end' with
  | stopped => exact ⟨_, (Except.error.inj (Option.some.inj herror)).symm⟩
  | dropped => exact ⟨_, (Except.error.inj (Option.some.inj herror)).symm⟩
  | timedOut => cases herror
  | replied r =>
      obtain ⟨-, -, hreply⟩ := h.linked.fates _ _ hmem
      cases r with
      | message res => cases herror
      | ack res =>
          obtain rfl := Option.some.inj herror
          rcases mem_of_reply? hreply with ⟨res', heq, -⟩ | ⟨res', heq, hacked⟩
          · cases heq
          · obtain rfl := Reply.ack.inj heq
            exact h.linked.driver.acked_error hacked

/-- A request that has not asked has put nothing into the queue. -/
theorem Gated.unsent (h : Gated P G appid q ch w₀ s) (hnone : s.asked = none) : s.Unsent ch := by
  intro c hc hch
  obtain ⟨st, hmem, -⟩ := h.linked.called c hc
  exact h.unasked hnone (List.mem_map.mpr ⟨_, hmem, hch⟩)

/-- What the pump has relayed came from the app's GC. -/
theorem Gated.came (h : Gated P G appid q ch w₀ s) {msg : GcMessage} (hmsg : msg ∈ s.pump.relayed)
    (htype : msg.msgtype = q.responseType) : s.Came G appid q w₀ msg :=
  ⟨htype, h.relayed msg hmsg⟩

/-- **What a request returns is about the wire.** A value is the accepted decoding of a message that
the app's GC sent since the coordinator was attached, and the request's own message was written. A
timeout says which of the two waits it was: before the welcome nothing was sent, after it the
message was written. The other errors are the failure of the notification, a pump that has stopped
before anything was sent, and a message that does not decode. -/
theorem gc_request_outcome (hw : w₀.Reachable P) (hpos : 0 < w₀.handles)
    (hnew : ch ∉ w₀.calls.map fun x => x.1.chan) {now : Nat} {ms : List GcMove}
    (hrun : Ledger.exec (fun s m => s.step P G appid helloVersion q ch m) (attach now w₀) ms =
      some s) {res : Except Error β} (hres : s.stage = .wait (.done res)) :
    s.Outcome G appid q ch w₀ res := by
  have h := gated_of_run hw hpos hnew hrun
  have hstanding := h.standing
  rw [hres] at hstanding
  rcases res with e | b
  · rcases hstanding with ⟨hnone, rfl | ⟨rfl, hstop⟩⟩ | herror | ⟨hok, rfl | ⟨msg, hmsg, hjudge⟩⟩
    · exact .inl ⟨rfl, h.unsent hnone⟩
    · exact .inl ⟨rfl, hstop, h.unsent hnone⟩
    · obtain ⟨text, rfl⟩ := h.answer_error herror
      exact .inr herror
    · exact .inr ⟨rfl, h.written hok⟩
    · obtain ⟨htype, text, hdecode, rfl⟩ := judge_eq_error hjudge
      exact ⟨h.written hok, msg, text, h.came hmsg htype, hdecode, rfl⟩
  · obtain ⟨hok, msg, hmsg, hjudge⟩ := hstanding
    obtain ⟨htype, hdecode, haccept⟩ := judge_eq_ok hjudge
    exact ⟨h.written hok, msg, h.came hmsg htype, hdecode, haccept⟩

end Coordination

/-- The request returns the message that it accepts. -/
theorem Coordination.gc_request_outcome_answered :
    Sample.gcAnswered.Outcome Sample.gcProst 730 Sample.gcRequest 8 Sample.handle (.ok [7]) :=
  gc_request_outcome Sample.reachable_handle (by decide) (by decide) Sample.run_gcAnswered
    (by decide)

end Steamroids
