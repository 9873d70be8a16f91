import Steamroids.Gating
import Steamroids.Lifecycle

/-!
# Requests Are Calls

`World` says of a call what it needs to know of everybody else: what has happened, and who is there.
That the welcome, the queue and the pump let a call go on is left open there. A `Coordination` has
these parts, and each of its moves is a sequence of moves of a `World`, so a run of it is one in
which the request goes on as a call does. What is proved of all calls is true of requests by this.

The driver's steps have several effects, the relay of a message is a deed of the pump, and the
driver and the pump leave when they end. A request in `wait_ready` has not begun as a call. A
request whose future is dropped is not followed further.

## Main results

* `Coordination.Shows.makes`: a move of the parts is a sequence of moves of the world.
* `Coordination.gc_request_refines_call`: so is every run.
-/

namespace Steamroids

/-- Where the request stands as a call. -/
def GcStage.call? {β : Type} : GcStage β → Option (CallStage β)
  | .idle => some .idle
  | .awaiting _ => some .idle
  | .ready => some .ready
  | .sending next => some (.subscribed next)
  | .wait st => some (.wait st)
  | .cancelled => none

namespace Handles

variable {P : Prost} {w w' : Handles} {m : HandleMove}

/-- A session that has stopped has a result. -/
theorem exists_phase (h : w.isStopped) : ∃ res, w.driver.phase = .stopped res := by
  rw [isStopped] at h
  split at h
  · exact ⟨_, ‹_›⟩
  · cases h

/-- Nothing happens on a session that has stopped. -/
theorem step_stopped (h : step P w m = some w') (hstop : w.isStopped) :
    w'.isStopped ∧ w'.driver.log = w.driver.log := by
  cases step_makes h with
  | drives hd hfetches =>
      obtain ⟨res, hph⟩ := exists_phase hstop
      obtain ⟨ch, rfl⟩ := SessionDriver.step_stopped hd hph
      cases hfetches with
      | own hown => cases hown
  | _ => exact ⟨hstop, rfl⟩

/-- Handles that come and go are nothing to the driver, as long as there is one. -/
theorem step_driver (hm : m = .clone ∨ m = .drop) (h : step P w m = some w') :
    w'.driver = w.driver := by
  rcases hm with rfl | rfl <;> simp only [step] at h <;> split at h
  · obtain rfl := Option.some.inj h
    rfl
  · cases h
  · obtain rfl := Option.some.inj h
    rfl
  · cases h

/-- A driver that has stopped has returned. -/
theorem Linked.returned (h : w.Linked P) (hstop : w.isStopped) :
    ∃ res, .returned res ∈ w.driver.log := by
  obtain ⟨res, hph⟩ := exists_phase hstop
  obtain ⟨st, hlives, hmatches⟩ := h.driver.lives
  refine ⟨res, ?_⟩
  rw [← SessionDriver.mem_events_returned, hlives.returned res, hmatches.over_iff res]
  exact hph

end Handles

namespace Coordination

variable {β : Type}

/-- Who is there, of those that matter to the request. -/
def parties (s : Coordination β) : List Party :=
  (if s.session.isStopped then [] else [.driver]) ++ (if s.pump.running then [.pump] else []) ++
    if 0 < s.coordinators then [.coordinator 0] else []

/-- The world shows what the parts have come to. -/
structure Shows (G : GcProst) (appid : UInt32) (q : GcRequest β) (s : Coordination β)
    (v : World β) : Prop where
  did : effects v.past = s.log
  relayed : (q.call G appid).sent v.past = s.pump.relayed
  present : v.parties = s.parties
  stands : s.stage.call? = some v.call

/-- The moves of a world that lead to one that shows `s`. -/
def Reaches (G : GcProst) (appid : UInt32) (q : GcRequest β) (ch : Chan) (v : World β)
    (s : Coordination β) : Prop :=
  ∃ ms v', Ledger.exec (World.step (q.call G appid) (.coordinator 0) ch) v ms = some v' ∧
    s.Shows G appid q v'

variable {P : Prost} {G : GcProst} {appid helloVersion : UInt32} {q : GcRequest β} {ch : Chan}
  {w₀ : Handles} {s s' : Coordination β} {v v' : World β}

/-! ### Who is there -/

/-- The driver is there until the session stops. -/
@[simp] theorem driver_mem_parties : .driver ∈ s.parties ↔ s.session.isStopped = false := by
  simp only [parties]
  split <;> split <;> split <;> simp_all

/-- The pump is there while it runs. -/
@[simp] theorem pump_mem_parties : .pump ∈ s.parties ↔ s.pump.running := by
  simp only [parties]
  split <;> split <;> split <;> simp_all

/-- The caller is there while somebody holds the coordinator. -/
@[simp] theorem coordinator_mem_parties : .coordinator 0 ∈ s.parties ↔ 0 < s.coordinators := by
  simp only [parties]
  split <;> split <;> split <;> simp_all

/-- Somebody holds the channel open exactly if the coordination says so. -/
theorem any_holds : s.parties.any Party.holdsGcEvents = s.isOpen := by
  simp only [parties, isOpen]
  split <;> split <;> split <;> simp_all [Party.holdsGcEvents]

/-- The session stops: the driver goes. -/
theorem erase_driver (h : s'.session.isStopped) (hpump : s'.pump = s.pump)
    (hcoordinators : s'.coordinators = s.coordinators) : s.parties.erase .driver = s'.parties := by
  simp only [parties, h, hpump, hcoordinators, if_true]
  split <;> split <;> split <;> simp_all

/-- The pump stops: it goes. -/
theorem erase_pump (h : s'.pump.running = false)
    (hsession : s'.session.isStopped = s.session.isStopped)
    (hcoordinators : s'.coordinators = s.coordinators) : s.parties.erase .pump = s'.parties := by
  simp only [parties, h, hsession, hcoordinators]
  split <;> split <;> split <;> simp_all

/-- The last coordinator is dropped: the caller goes. -/
theorem erase_coordinator (h : s'.coordinators = 0) (hpump : s'.pump = s.pump)
    (hsession : s'.session.isStopped = s.session.isStopped) :
    s.parties.erase (.coordinator 0) = s'.parties := by
  simp only [parties, h, hpump, hsession]
  split <;> split <;> split <;> simp_all

/-! ### What happens -/

/-- A world that shows the parts reaches them without a move. -/
theorem Reaches.self (h : s.Shows G appid q v) : Reaches G appid q ch v s := ⟨[], v, rfl, h⟩

/-- One move to a world that shows the parts. -/
theorem Reaches.step {m : Move}
    (hstep : World.step (q.call G appid) (.coordinator 0) ch v m = some v')
    (h : s.Shows G appid q v') : Reaches G appid q ch v s :=
  ⟨[m], v', Ledger.exec_cons_eq_some.mpr ⟨v', hstep, rfl⟩, h⟩

/-- Reaching composes. -/
theorem Reaches.andThen (h : Reaches G appid q ch v s)
    (hnext : ∀ v', s.Shows G appid q v' → Reaches G appid q ch v' s') :
    Reaches G appid q ch v s' := by
  obtain ⟨ms, v₁, hexec, hshows⟩ := h
  obtain ⟨ms', v₂, hexec', hshows'⟩ := hnext v₁ hshows
  exact ⟨ms ++ ms', v₂, Ledger.exec_append_eq_some.mpr ⟨v₁, hexec, hexec'⟩, hshows'⟩

/-- The driver's deeds send nothing to a request. -/
theorem sent_append_driver (past : List Deed) (es : List Effect) :
    (q.call G appid).sent (past ++ es.map .driver) = (q.call G appid).sent past := by
  rw [Call.sent, List.filterMap_append, List.filterMap_map]
  have hnone : List.filterMap ((q.call G appid).message? ∘ Deed.driver) es = [] :=
    List.filterMap_eq_nil_iff.mpr fun e _ => rfl
  rw [hnone, List.append_nil]
  rfl

/-- A relay sends its message to a request. -/
theorem sent_concat_relay (past : List Deed) (msg : GcMessage) :
    (q.call G appid).sent (past ++ [.relay msg]) = (q.call G appid).sent past ++ [msg] := by
  rw [Call.sent, List.filterMap_append]
  rfl

/-- The return of the driver is a deed. -/
theorem any_isReturn {past : List Deed} {res : Except Error Unit}
    (h : .returned res ∈ effects past) : past.any Deed.isReturn := by
  obtain ⟨x, hx, he⟩ := List.mem_filterMap.mp h
  refine List.any_eq_true.mpr ⟨x, hx, ?_⟩
  cases x with
  | driver e =>
      obtain rfl := Option.some.inj he
      rfl
  | relay msg => cases he

/-- The session moves: the driver has its effects, and leaves when it has returned. -/
theorem Shows.session (hshows : s.Shows G appid q v) (h : Gated P G appid q ch w₀ s)
    {m : HandleMove} {w : Handles} (hstep : s.session.step P m = some w) :
    Reaches G appid q ch v { s with session := w } := by
  have hlinked := h.linked.makes (Handles.step_makes hstep)
  rcases hstop : s.session.isStopped with _ | _
  · obtain ⟨es, hes⟩ := Handles.step_log hstep h.linked
    have hdriver : .driver ∈ v.parties := by rw [hshows.present]; simpa using hstop
    have hdid : effects (v.past ++ es.map .driver) = w.driver.log := by
      rw [effects_append, effects_map_driver, hshows.did]
      exact hes
    have hrelayed := (sent_append_driver v.past es).trans hshows.relayed
    let v₁ : World β := { v with past := v.past ++ es.map .driver }
    have hexec : Ledger.exec (World.step (q.call G appid) (.coordinator 0) ch) v
        (es.map (.deed ∘ .driver)) = some v₁ := World.exec_driver es hdriver
    rcases hstop' : w.isStopped with _ | _
    · refine ⟨_, v₁, hexec, hdid, hrelayed, ?_, hshows.stands⟩
      simp [v₁, hshows.present, parties, hstop, hstop']
    · let v₂ : World β := { v₁ with parties := v.parties.erase .driver }
      have hleave : World.step (q.call G appid) (.coordinator 0) ch v₁ (.leave .driver) =
          some v₂ := by
        refine if_pos ?_
        obtain ⟨res, hres⟩ := hlinked.returned hstop'
        rw [← hdid] at hres
        simp [World.mayLeave, any_isReturn hres, v₁]
      refine ⟨_, v₂, Ledger.exec_append_eq_some.mpr
        ⟨v₁, hexec, Ledger.exec_cons_eq_some.mpr ⟨v₂, hleave, Ledger.exec_nil v₂⟩⟩,
        hdid, hrelayed, ?_, hshows.stands⟩
      show v.parties.erase .driver = _
      rw [hshows.present]
      exact erase_driver hstop' rfl rfl
  · obtain ⟨hstop', hlog⟩ := Handles.step_stopped hstep hstop
    refine .self ⟨hshows.did.trans hlog.symm, hshows.relayed, ?_, hshows.stands⟩
    simp [hshows.present, parties, hstop, hstop']

/-- The pump goes through its loop: it relays a message, or does nothing that the call sees. -/
theorem Shows.pump (hshows : s.Shows G appid q v) {i : PumpInput} {p : Pump} {readies : List Bool}
    (hstep : s.pump.step G appid helloVersion s.log i = some p) (hrunning : p.running) :
    Reaches G appid q ch v { s with pump := p, readies := readies } := by
  have hwas := Pump.running_of_step hstep
  have hpresent : v.parties = parties { s with pump := p, readies := readies } := by
    simp [hshows.present, parties, hwas, hrunning]
  have hquiet (hrelayed : p.relayed = s.pump.relayed) :
      Reaches G appid q ch v { s with pump := p, readies := readies } :=
    .self ⟨hshows.did, hshows.relayed.trans hrelayed.symm, hpresent, hshows.stands⟩
  cases Pump.step_relays hstep with
  | quiet _ hrelayed _ => exact hquiet hrelayed
  | @heard msg _ _ hrelayed _ _ =>
      rcases hmsg : gcMessage? G appid msg with _ | gcMsg
      · exact hquiet (by rw [hrelayed, hmsg]; exact List.append_nil _)
      · have hpump : .pump ∈ v.parties := by rw [hshows.present]; simpa using hwas
        refine .step (m := .deed (.relay gcMsg)) (if_pos hpump) ⟨?_, ?_, hpresent, hshows.stands⟩
        · exact (effects_concat_relay v.past gcMsg).trans hshows.did
        · rw [sent_concat_relay, hshows.relayed]
          exact (by rw [hrelayed, hmsg]; rfl)

/-- Somebody else leaves. -/
theorem Shows.leave (hshows : s.Shows G appid q v) {p : Party} (hp : p ≠ .driver)
    (hmay : p = .coordinator 0 → s.stage.isRunning = false) (hlog : s'.log = s.log)
    (hrelayed : s'.pump.relayed = s.pump.relayed) (hpresent : s.parties.erase p = s'.parties)
    (hstage : s'.stage = s.stage) : Reaches G appid q ch v s' := by
  refine .step (m := .leave p) (if_pos ?_)
    ⟨hshows.did.trans hlog.symm, hshows.relayed.trans hrelayed.symm, ?_, ?_⟩
  · have hover : p = .coordinator 0 → v.call.isRunning = false := by
      intro hcoordinator
      have hnot := hmay hcoordinator
      have hstands := hshows.stands
      rcases hst : s.stage with _ | seen | _ | next | (next | res) | _ <;>
        simp only [hst, GcStage.isRunning, GcStage.call?, Bool.true_eq_false, Option.some.injEq,
          reduceCtorEq] at hnot hstands
      · rw [← hstands]; rfl
      · rw [← hstands]; rfl
    simp only [World.mayLeave, hp, Bool.and_eq_true, decide_eq_true_eq]
    exact ⟨hover, by simp⟩
  · show v.parties.erase p = _
    rw [hshows.present]
    exact hpresent
  · rw [hstage]
    exact hshows.stands

/-! ### The request goes on -/

/-- What the notification has returned is what the call is told. -/
theorem Shows.isAck (hshows : s.Shows G appid q v) (h : Gated P G appid q ch w₀ s)
    {res : Except Error Unit} (hanswer : s.answer? = some res) :
    Call.isAck v.past v.parties ch res := by
  obtain ⟨e, hmem, hres⟩ := h.exists_returned hanswer
  have hfate := h.linked.fates _ _ hmem
  have hnone (hnot : q.command G appid ch ∉ s.session.sent.take s.session.taken)
      (hstop : s.session.isStopped) :
      .driver ∉ v.parties ∧ (effects v.past).any (Effect.acks ch) = false := by
    refine ⟨by rw [hshows.present]; simp [hstop], List.any_eq_false.mpr fun x hx hacks => ?_⟩
    rw [hshows.did] at hx
    cases x with
    | acked ch' res' =>
        obtain rfl : ch' = ch := by simpa [Effect.acks] using hacks
        obtain ⟨c, htook, -, hchan⟩ := h.linked.driver.took_of_acked hx
        have htaken := h.linked.took htook
        obtain ⟨st, hmem', -⟩ := h.linked.called c (List.mem_of_mem_take htaken)
        obtain ⟨rfl, -⟩ := Prod.mk.inj (h.linked.same hmem' hmem hchan)
        exact hnot htaken
    | _ => cases hacks
  cases e with
  | stopped =>
      obtain ⟨hstop, hunsent⟩ := hfate
      obtain ⟨hgone, hnever⟩ := hnone (fun hmem => hunsent (List.mem_of_mem_take hmem)) hstop
      exact .inr ⟨hgone, hnever, .inl (Option.some.inj hres).symm⟩
  | dropped =>
      obtain ⟨hstop, hunsent⟩ := hfate.2 (by simp [GcRequest.command, Command.isRequest])
      obtain ⟨hgone, hnever⟩ := hnone hunsent hstop
      exact .inr ⟨hgone, hnever, .inr (Option.some.inj hres).symm⟩
  | timedOut => cases hres
  | replied r =>
      obtain ⟨-, -, hreply⟩ := hfate
      cases r with
      | message res => cases hres
      | ack res' =>
          obtain rfl := Option.some.inj hres
          rcases mem_of_reply? hreply with ⟨res'', heq, -⟩ | ⟨res'', heq, hacked⟩
          · cases heq
          · obtain rfl := Reply.ack.inj heq
            exact .inl (by rw [hshows.did]; exact hacked)

/-- The call takes a step. -/
theorem Shows.call (hshows : s.Shows G appid q v) (h : 0 < s.coordinators) (m : CallMove)
    {c c' : CallStage β} {st : GcStage β} (hstage : s.stage.call? = some c)
    (hstep : (q.call G appid).step v.past v.parties ch c m = some c')
    (hst : st.call? = some c') : Reaches G appid q ch v { s with stage := st } := by
  have hcaller : .coordinator 0 ∈ v.parties := by rw [hshows.present]; simpa using h
  obtain rfl := Option.some.inj (hstage.symm.trans hshows.stands)
  have hmove : World.step (q.call G appid) (.coordinator 0) ch v (.call m) =
      some { v with call := c' } := by
    simp [World.step, hcaller, hstep]
  exact .step hmove ⟨hshows.did, hshows.relayed, hshows.present, hst⟩

/-- A move of the request is reached by a move of its call. -/
theorem Shows.goes (hshows : s.Shows G appid q v) (h : Gated P G appid q ch w₀ s) {st : GcStage β}
    (hgoes : s.Goes G appid q st) : Reaches G appid q ch v { s with stage := st } := by
  have hlooks (hlooks : s.Looks) : s.stage.call? = some .idle := by
    rcases hlooks with ⟨hstage, -⟩ | ⟨seen, hstage⟩ <;> rw [hstage] <;> rfl
  have hheld {st : GcStage β} (hstage : s.stage = st) (hrunning : st.isRunning) :
      0 < s.coordinators := h.borrowed (hstage ▸ hrunning)
  have hat {st : GcStage β} {c : CallStage β} (hstage : s.stage = st) (hc : st.call? = some c) :
      s.stage.call? = some c := hstage ▸ hc
  cases hgoes with
  | ready hl hready => exact hshows.call (h.looks hl).1 (.enter (.ok ())) (hlooks hl) rfl rfl
  | awaits hl =>
      exact .self ⟨hshows.did, hshows.relayed, hshows.present, (hlooks hl).symm.trans hshows.stands⟩
  | stopped hstage hstop =>
      have hgone : .pump ∉ v.parties := by rw [hshows.present]; simp [hstop]
      refine hshows.call (hheld hstage rfl) (.enter (.error (.webSocket "GC pump stopped")))
        (hat hstage rfl) ?_ rfl
      simp [Call.step, Call.isReadyResult, GcRequest.call, requestMatching, hgone]
  | late hstage =>
      exact hshows.call (hheld hstage rfl) (.enter (.error (.timeout "GC welcome")))
        (hat hstage rfl) rfl rfl
  | accepted hstage hanswer =>
      refine hshows.call (hheld hstage rfl) (.acked (.ok ())) (hat hstage rfl) ?_ rfl
      exact if_pos (hshows.isAck h hanswer)
  | @refused next e hstage hanswer =>
      refine hshows.call (hheld hstage rfl) (.acked (.error e)) (hat hstage rfl) ?_ rfl
      exact if_pos (hshows.isAck h hanswer)
  | @receive next st hstage hreceive =>
      refine hshows.call (hheld hstage rfl) .receive (hat hstage rfl) ?_ rfl
      rw [← any_holds, ← hshows.present, ← hshows.relayed] at hreceive
      exact Option.map_eq_some_iff.mpr ⟨st, hreceive, rfl⟩
  | @expire next st hstage hexpire =>
      refine hshows.call (hheld hstage rfl) .expire (hat hstage rfl) ?_ rfl
      rw [← any_holds, ← hshows.present, ← hshows.relayed] at hexpire
      exact Option.map_eq_some_iff.mpr ⟨st, hexpire, rfl⟩

/-- The request subscribes; that its command is new is nothing that a call sees. -/
theorem Shows.ask (hshows : s.Shows G appid q v) (h : Gated P G appid q ch w₀ s) {w : Handles}
    (hstage : s.stage = .ready) (hstep : s.session.step P (.call (q.command G appid ch)) = some w) :
    Reaches G appid q ch v
      { s with
        session := w
        stage := .sending s.pump.relayed.length
        asked := some s.session.calls.length } := by
  have hpos : 0 < s.coordinators := h.borrowed (by rw [hstage]; rfl)
  simp only [Handles.step] at hstep
  split at hstep
  · obtain rfl := Option.some.inj hstep
    have hsub : Reaches G appid q ch v { s with stage := .sending s.pump.relayed.length } :=
      hshows.call hpos .subscribe (by rw [hstage]; rfl) rfl (by rw [GcStage.call?, hshows.relayed])
    exact hsub.andThen fun v' hv' => .self ⟨hv'.did, hv'.relayed, hv'.present, hv'.stands⟩
  · cases hstep

/-- **A move of the parts is a sequence of moves of the world.** -/
theorem Shows.makes (hshows : s.Shows G appid q v) (h : Gated P G appid q ch w₀ s)
    (hmakes : Makes P G appid helloVersion q ch s s') (hlive : s'.stage ≠ .cancelled) :
    Reaches G appid q ch v s' := by
  have hstopped {w : Handles} {m : HandleMove} (hm : m = .clone ∨ m = .drop)
      (hstep : s.session.step P m = some w) :
      w.driver.log = s.log ∧ w.isStopped = s.session.isStopped := by
    have hdriver := Handles.step_driver hm hstep
    exact ⟨congrArg _ hdriver, by simp only [Handles.isStopped, hdriver]⟩
  cases hmakes with
  | session hallows hstep => exact hshows.session h hstep
  | pump hstep hrunning => exact hshows.pump hstep hrunning
  | @pumpEnds i p w hstep hover hdrop =>
      obtain ⟨hlog, hstop⟩ := hstopped (.inr rfl) hdrop
      have hrelayed : p.relayed = s.pump.relayed := by
        cases Pump.step_relays hstep with
        | quiet _ hrelayed _ => exact hrelayed
        | heard _ _ _ _ hrunning =>
            rw [hover, Pump.running_of_step hstep] at hrunning
            cases hrunning
      exact hshows.leave (p := .pump) (by simp) (by simp) hlog hrelayed (erase_pump hover hstop rfl)
        rfl
  | @clone w hpos hclone =>
      obtain ⟨hlog, hstop⟩ := hstopped (.inl rfl) hclone
      refine .self ⟨hshows.did.trans hlog.symm, hshows.relayed, ?_, hshows.stands⟩
      simp [hshows.present, parties, hstop, hpos]
  | @drop w hpos hmore hdrop =>
      obtain ⟨hlog, hstop⟩ := hstopped (.inr rfl) hdrop
      by_cases hlast : s.coordinators = 1
      · refine hshows.leave (p := .coordinator 0) (by simp) (fun _ => ?_) hlog rfl
          (erase_coordinator (by simp [hlast]) rfl hstop) rfl
        rcases hrunning : s.stage.isRunning with _ | _
        · rfl
        · have := hmore hrunning
          omega
      · refine .self ⟨hshows.did.trans hlog.symm, hshows.relayed, ?_, hshows.stands⟩
        have hleft : 0 < s.coordinators - 1 := by omega
        simp [hshows.present, parties, hstop, hpos, hleft]
  | goes hgoes => exact hshows.goes h hgoes
  | ask hstage hstep => exact hshows.ask h hstage hstep
  | cancel hw => exact absurd rfl hlive

/-- A request whose future was dropped stays so. -/
theorem Makes.cancelled (h : Makes P G appid helloVersion q ch s s')
    (hstage : s.stage = .cancelled) : s'.stage = .cancelled := by
  cases h with
  | goes hgoes =>
      cases hgoes with
      | ready hlooks _ | awaits hlooks =>
          rcases hlooks with ⟨hidle, -⟩ | ⟨seen, hawaiting⟩ <;> simp_all
      | _ => simp_all
  | ask hready _ => simp_all
  | cancel _ => rfl
  | _ => exact hstage

/-- **Requests are calls.** Every run of a request, with the driver, the queue, the pump and the
watch, is a run of a world in which a call goes on by what has happened and who is there. The world
begins with the session as the coordinator found it. -/
theorem gc_request_refines_call (hw : w₀.Reachable P) (hpos : 0 < w₀.handles)
    (hnew : ch ∉ w₀.calls.map fun x => x.1.chan) {now : Nat} {ms : List GcMove}
    (hrun : Ledger.exec (fun s m => s.step P G appid helloVersion q ch m) (attach now w₀) ms =
      some s) (hlive : s.stage ≠ .cancelled) :
    Reaches G appid q ch
      ⟨w₀.driver.log.map .driver, (attach (β := β) now w₀).parties, .idle⟩ s := by
  have hstart : (attach now w₀).Shows G appid q
      ⟨w₀.driver.log.map .driver, (attach (β := β) now w₀).parties, .idle⟩ :=
    ⟨effects_map_driver _, sent_append_driver [] _, rfl, rfl⟩
  have key := Ledger.exec_invariant
    (I := fun s => Gated P G appid q ch w₀ s ∧ (s.stage ≠ .cancelled → Reaches G appid q ch
      ⟨w₀.driver.log.map .driver, (attach (β := β) now w₀).parties, .idle⟩ s)) ?_ hrun
    ⟨gated_attach hw hpos hnew now, fun _ => .self hstart⟩
  · exact key.2 hlive
  · rintro s₁ m s₂ ⟨hgated, hreaches⟩ hstep
    have hmakes := step_makes hstep
    refine ⟨hgated.makes hmakes, fun hlive => ?_⟩
    have hlive₁ : s₁.stage ≠ .cancelled := fun hstage => hlive (hmakes.cancelled hstage)
    exact (hreaches hlive₁).andThen fun v hv => hv.makes hgated hmakes hlive

end Coordination

/-- The request that was answered, as a call that has ended. -/
theorem Coordination.gc_request_refines_call_answered :
    ∃ ms v, Ledger.exec (World.step (Sample.gcRequest.call Sample.gcProst 730) (.coordinator 0) 8)
        ⟨Sample.handle.driver.log.map .driver,
          (Coordination.attach (β := Bytes) 0 Sample.handle).parties, .idle⟩ ms = some v ∧
      v.call = .wait (.done (.ok [7])) := by
  obtain ⟨ms, v, hexec, hshows⟩ := gc_request_refines_call Sample.reachable_handle (by decide)
    (by decide) Sample.run_gcAnswered (by decide)
  exact ⟨ms, v, hexec, (Option.some.inj hshows.stands).symm⟩

end Steamroids
