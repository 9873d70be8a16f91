import Steamroids.Channel
import Steamroids.Envelope
import Steamroids.Requests
import Steamroids.Snapshots

/-!
# Calls That Wait for a Message

Some operations of the crate have no reply of their own: they subscribe to a broadcast
channel, do something that makes the message they want likely (or look whether it has come
already), and then receive until they meet it, under a timer. `Call` is what these
operations have in common; the operations themselves are its instances.

A call runs beside the driver, the pump of a Game Coordinator, and everybody else who holds
a handle. `World` puts them together: what has happened so far (`Deed`), who is there
(`Party`), and where one call stands. The moves of a `World` are the effects of the driver,
in the order of its ledger, messages relayed by the pump, parties that come and go, and the
steps of the call, in any order.

The channels end when their last sender is dropped. Every party holds senders: the driver
and each handle one of the session's channel, and so do a coordinator and the pump through
the handle each holds; a coordinator and the pump also hold one of the coordinator's channel.
A call borrows the handle or the coordinator that it is made on, which therefore cannot be
dropped before the call ends.

## Main results

* `World.Borrowed.step`: a running call keeps its caller there.
* `World.isOpen_of_running`: so it never sees its channel end.
* `World.ends_of_subscribed`: it can always end by its own moves.
-/

namespace Steamroids

/-- Buffered messages per subscriber of a session. -/
def eventCapacity : Nat := 256

/-- Buffered GC messages per subscriber of a coordinator. -/
def gcEventCapacity : Nat := 64

/-! ### Who is there, and what happens -/

/-- Who holds senders. -/
inductive Party
  | driver
  | handle (n : Nat)
  | coordinator (n : Nat)
  | pump
  deriving DecidableEq, Repr

/-- Every party holds a sender of the session's channel. -/
def Party.holdsEvents : Party → Bool := fun _ => true

/-- The coordinators and the pump hold a sender of the coordinator's channel. -/
def Party.holdsGcEvents : Party → Bool
  | .coordinator _ => true
  | .pump => true
  | _ => false

/-- What can be seen to happen: an effect of the driver, or the pump relaying a message. -/
inductive Deed
  | driver (e : Effect)
  | relay (msg : GcMessage)
  deriving DecidableEq

/-- The driver's effects. -/
def Deed.effect? : Deed → Option Effect
  | .driver e => some e
  | .relay _ => none

/-- The end of the driver. -/
def Deed.isReturn : Deed → Bool
  | .driver (.returned _) => true
  | _ => false

/-- A new connection. -/
def Deed.isAdoption : Deed → Bool
  | .driver (.adopted _ _) => true
  | _ => false

/-- The message that an effect sends through the session's channel. -/
def Effect.message? : Effect → Option SteamMessage
  | .broadcast a => some a.msg
  | _ => none

/-- The message that a deed sends through the session's channel. -/
def Deed.message? : Deed → Option SteamMessage
  | .driver e => e.message?
  | .relay _ => none

/-- The message that a deed sends through the coordinator's channel. -/
def Deed.gcMessage? : Deed → Option GcMessage
  | .driver _ => none
  | .relay msg => some msg

/-- The driver's part of what has happened. -/
def effects (past : List Deed) : List Effect := past.filterMap Deed.effect?

/-- The effects of two stretches follow one another. -/
theorem effects_append (past more : List Deed) :
    effects (past ++ more) = effects past ++ effects more :=
  List.filterMap_append

/-- A deed of the driver adds its effect. -/
@[simp] theorem effects_concat_driver (past : List Deed) (e : Effect) :
    effects (past ++ [.driver e]) = effects past ++ [e] :=
  effects_append past _

/-- A relay is no effect of the driver. -/
@[simp] theorem effects_concat_relay (past : List Deed) (msg : GcMessage) :
    effects (past ++ [.relay msg]) = effects past := by
  rw [effects_append]
  exact List.append_nil _

/-- The driver's deeds are its effects. -/
@[simp] theorem effects_map_driver (es : List Effect) : effects (es.map .driver) = es := by
  simp only [effects, List.filterMap_map]
  exact List.filterMap_some

/-- A longer past has more effects. -/
theorem effects_mono {past past' : List Deed} (h : past <+: past') :
    effects past <+: effects past' := by
  obtain ⟨more, rfl⟩ := h
  exact ⟨effects more, (effects_append past more).symm⟩

/-! ### Calls -/

/-- What a call does between subscribing and waiting. -/
inductive Opening (β : Type)
  /-- It looks whether the snapshot is in the cache. -/
  | readCache (emsg : UInt32) (judge : Bytes → Option (Except Error β))
  /-- It sends a message, and gives up if that fails. -/
  | notify (emsg : UInt32) (body : Bytes)

/-- The call sends a message of its own. -/
def Opening.sends {β : Type} : Opening β → Bool
  | .readCache _ _ => false
  | .notify _ _ => true

/-- A call that waits for a message of type `α`. -/
structure Call (α β : Type) where
  /-- Whether the call first waits for the GC's welcome. -/
  needsReady : Bool
  message? : Deed → Option α
  capacity : Nat
  holds : Party → Bool
  opening : Opening β
  wait : Channel.Wait α β Error

/-- Where a call stands. -/
inductive CallStage (β : Type)
  | idle
  | ready
  | subscribed (next : Nat)
  | wait (st : Channel.Stage β Error)
  deriving DecidableEq

/-- The steps of a call. -/
inductive CallMove
  /-- `wait_ready` ends. -/
  | enter (res : Except Error Unit)
  | subscribe
  /-- The cache is read. -/
  | read
  /-- The notification is answered. -/
  | acked (res : Except Error Unit)
  | receive
  /-- The timer fires. -/
  | expire
  deriving DecidableEq

namespace Call

variable {α β : Type} (C : Call α β)

/-- The messages sent through the call's channel. -/
def sent (past : List Deed) : List α := past.filterMap C.message?

/-- The answers to a notification on channel `ch`: what the driver acknowledged, or what the
handle makes of a driver that is gone without an answer. -/
def isAck (past : List Deed) (parties : List Party) (ch : Chan) (res : Except Error Unit) :
    Prop :=
  .acked ch res ∈ effects past ∨
    (.driver ∉ parties ∧ (effects past).any (Effect.acks ch) = false ∧
      (res = .error (.webSocket "session driver stopped") ∨
        res = .error (.webSocket "session driver dropped the notification")))

instance (past : List Deed) (parties : List Party) (ch : Chan) (res : Except Error Unit) :
    Decidable (isAck past parties ch res) :=
  inferInstanceAs (Decidable (_ ∨ _))

/-- The ends of `wait_ready`: the welcome, the timer, or a pump that is gone. -/
def isReadyResult (parties : List Party) (res : Except Error Unit) : Bool :=
  decide (res = .ok () ∨ res = .error (.timeout "GC welcome") ∨
    .pump ∉ parties ∧ res = .error (.webSocket "GC pump stopped"))

/-- One step of a call. -/
def step (past : List Deed) (parties : List Party) (ch : Chan) :
    CallStage β → CallMove → Option (CallStage β)
  | .idle, .enter res =>
      if C.needsReady && isReadyResult parties res then
        match res with
        | .ok () => some .ready
        | .error e => some (.wait (.done (.error e)))
      else
        none
  | .idle, .subscribe => if C.needsReady then none else some (.subscribed (C.sent past).length)
  | .ready, .subscribe => some (.subscribed (C.sent past).length)
  | .subscribed next, .read =>
      match C.opening with
      | .readCache emsg judge =>
          match ((shared (effects past)).cache emsg).bind judge with
          | some res => some (.wait (.done res))
          | none => some (.wait (.waiting next))
      | .notify _ _ => none
  | .subscribed next, .acked res =>
      match C.opening with
      | .readCache _ _ => none
      | .notify _ _ =>
          if isAck past parties ch res then
            match res with
            | .ok () => some (.wait (.waiting next))
            | .error e => some (.wait (.done (.error e)))
          else
            none
  | .wait (.waiting next), .receive =>
      (C.wait.receive C.capacity (C.sent past) (parties.any C.holds) next).map .wait
  | .wait (.waiting next), .expire =>
      (C.wait.expire C.capacity (C.sent past) (parties.any C.holds) next).map .wait
  | _, _ => none

/-- A step of a call, with its guard and its outcome. -/
inductive Steps (past : List Deed) (parties : List Party) (ch : Chan) :
    CallStage β → CallMove → CallStage β → Prop
  | enter : C.needsReady → Steps past parties ch .idle (.enter (.ok ())) .ready
  | enterFailed (e : Error) : C.needsReady →
      Steps past parties ch .idle (.enter (.error e)) (.wait (.done (.error e)))
  | subscribe {st : CallStage β} : st = .idle ∨ st = .ready →
      Steps past parties ch st .subscribe (.subscribed (C.sent past).length)
  | found {next : Nat} {emsg : UInt32} {judge : Bytes → Option (Except Error β)}
      {res : Except Error β} : C.opening = .readCache emsg judge →
      ((shared (effects past)).cache emsg).bind judge = some res →
      Steps past parties ch (.subscribed next) .read (.wait (.done res))
  | missed {next : Nat} {emsg : UInt32} {judge : Bytes → Option (Except Error β)} :
      C.opening = .readCache emsg judge →
      ((shared (effects past)).cache emsg).bind judge = none →
      Steps past parties ch (.subscribed next) .read (.wait (.waiting next))
  | acked {next : Nat} {emsg : UInt32} {body : Bytes} : C.opening = .notify emsg body →
      isAck past parties ch (.ok ()) →
      Steps past parties ch (.subscribed next) (.acked (.ok ())) (.wait (.waiting next))
  | refused {next : Nat} {emsg : UInt32} {body : Bytes} {e : Error} :
      C.opening = .notify emsg body → isAck past parties ch (.error e) →
      Steps past parties ch (.subscribed next) (.acked (.error e)) (.wait (.done (.error e)))
  | receive {next : Nat} {st : Channel.Stage β Error} :
      C.wait.receive C.capacity (C.sent past) (parties.any C.holds) next = some st →
      Steps past parties ch (.wait (.waiting next)) .receive (.wait st)
  | expire {next : Nat} {st : Channel.Stage β Error} :
      C.wait.expire C.capacity (C.sent past) (parties.any C.holds) next = some st →
      Steps past parties ch (.wait (.waiting next)) .expire (.wait st)

variable {C}

/-- The inversion of `step`. -/
theorem step_steps {past : List Deed} {parties : List Party} {ch : Chan} {st st' : CallStage β}
    {m : CallMove} (h : C.step past parties ch st m = some st') :
    C.Steps past parties ch st m st' := by
  simp only [step] at h
  split at h
  · split at h
    · rename_i hready
      have hneeds := (Bool.and_eq_true_iff.mp hready).1
      split at h
      · obtain rfl := Option.some.inj h
        exact .enter hneeds
      · obtain rfl := Option.some.inj h
        exact .enterFailed _ hneeds
    · cases h
  · split at h
    · cases h
    · obtain rfl := Option.some.inj h
      exact .subscribe (.inl rfl)
  · obtain rfl := Option.some.inj h
    exact .subscribe (.inr rfl)
  · split at h
    · split at h
      · obtain rfl := Option.some.inj h
        exact .found ‹_› ‹_›
      · obtain rfl := Option.some.inj h
        exact .missed ‹_› ‹_›
    · cases h
  · split at h
    · cases h
    · split at h
      · split at h
        · obtain rfl := Option.some.inj h
          exact .acked ‹_› ‹_›
        · obtain rfl := Option.some.inj h
          exact .refused ‹_› ‹_›
      · cases h
  · obtain ⟨st, hst, rfl⟩ := Option.map_eq_some_iff.mp h
    exact .receive hst
  · obtain ⟨st, hst, rfl⟩ := Option.map_eq_some_iff.mp h
    exact .expire hst
  · cases h

end Call

/-- The call has begun and not ended: it borrows its caller. -/
def CallStage.isRunning {β : Type} : CallStage β → Bool
  | .idle => false
  | .wait (.done _) => false
  | _ => true

/-! ### A call beside everybody else -/

/-- What has happened, who is there, and where the call stands. -/
structure World (β : Type) where
  past : List Deed
  parties : List Party
  call : CallStage β
  deriving DecidableEq

/-- What can happen next. -/
inductive Move
  | deed (x : Deed)
  /-- Somebody clones a handle or a coordinator, or attaches one. -/
  | join (p : Party)
  /-- A party is dropped. -/
  | leave (p : Party)
  | call (m : CallMove)
  deriving DecidableEq

namespace World

variable {α β : Type}

/-- Who has to be there for a deed. -/
def doer : Deed → Party
  | .driver _ => .driver
  | .relay _ => .pump

/-- A party may be dropped, unless a running call borrows it. The driver is dropped when it
has returned. -/
def mayLeave (caller : Party) (w : World β) (p : Party) : Bool :=
  decide (p = caller → w.call.isRunning = false) &&
    decide (p = .driver → w.past.any Deed.isReturn)

/-- One move, in a world in which the call is made on `caller` and sends its notification on
channel `ch`. -/
def step (C : Call α β) (caller : Party) (ch : Chan) (w : World β) : Move → Option (World β)
  | .deed x => if doer x ∈ w.parties then some { w with past := w.past ++ [x] } else none
  | .join p =>
      if p ≠ .driver ∧ w.parties.any (· ≠ .driver) then some { w with parties := p :: w.parties }
      else none
  | .leave p => if mayLeave caller w p then some { w with parties := w.parties.erase p } else none
  | .call m =>
      if caller ∈ w.parties then
        (C.step w.past w.parties ch w.call m).map fun st => { w with call := st }
      else
        none

variable {C : Call α β} {caller : Party} {ch : Chan} {w w' : World β}

/-- A move, with its guard and its outcome. -/
inductive Makes (C : Call α β) (caller : Party) (ch : Chan) (w : World β) :
    Move → World β → Prop
  | deed {x : Deed} : doer x ∈ w.parties →
      Makes C caller ch w (.deed x) { w with past := w.past ++ [x] }
  | join {p : Party} : p ≠ .driver →
      Makes C caller ch w (.join p) { w with parties := p :: w.parties }
  | leave {p : Party} : (p = caller → w.call.isRunning = false) →
      Makes C caller ch w (.leave p) { w with parties := w.parties.erase p }
  | call {m : CallMove} {st : CallStage β} : caller ∈ w.parties →
      C.Steps w.past w.parties ch w.call m st →
      Makes C caller ch w (.call m) { w with call := st }

/-- The inversion of `step`. -/
theorem step_makes {m : Move} (h : step C caller ch w m = some w') :
    Makes C caller ch w m w' := by
  cases m with
  | deed x =>
      simp only [step] at h
      split at h
      · obtain rfl := Option.some.inj h
        exact .deed ‹_›
      · cases h
  | join p =>
      simp only [step] at h
      split at h
      · rename_i hjoin
        obtain rfl := Option.some.inj h
        exact .join hjoin.1
      · cases h
  | leave p =>
      simp only [step] at h
      split at h
      · rename_i hleave
        obtain rfl := Option.some.inj h
        simp only [mayLeave, Bool.and_eq_true, decide_eq_true_eq] at hleave
        exact .leave hleave.1
      · cases h
  | call m =>
      simp only [step] at h
      split at h
      · obtain ⟨st, hst, rfl⟩ := Option.map_eq_some_iff.mp h
        exact .call ‹_› (Call.step_steps hst)
      · cases h

/-- The receive of a call that waits. -/
theorem step_receive {next : Nat} {st : Channel.Stage β Error} (hcaller : caller ∈ w.parties)
    (hcall : w.call = .wait (.waiting next))
    (h : C.wait.receive C.capacity (C.sent w.past) (w.parties.any C.holds) next = some st) :
    step C caller ch w (.call .receive) = some { w with call := .wait st } := by
  simp [step, Call.step, hcaller, hcall, h]

/-- The timer of a call that waits. -/
theorem step_expire {next : Nat} {st : Channel.Stage β Error} (hcaller : caller ∈ w.parties)
    (hcall : w.call = .wait (.waiting next))
    (h : C.wait.expire C.capacity (C.sent w.past) (w.parties.any C.holds) next = some st) :
    step C caller ch w (.call .expire) = some { w with call := .wait st } := by
  simp [step, Call.step, hcaller, hcall, h]

/-- The driver does its work beside the call. -/
theorem exec_driver (es : List Effect) (h : .driver ∈ w.parties) :
    Ledger.exec (step C caller ch) w (es.map (.deed ∘ .driver)) =
      some { w with past := w.past ++ es.map .driver } := by
  induction es generalizing w with
  | nil => simp
  | cons e es ih =>
      have hstep : step C caller ch w (.deed (.driver e)) =
          some { w with past := w.past ++ [.driver e] } := if_pos h
      refine Ledger.exec_cons_eq_some.mpr ⟨_, hstep, ?_⟩
      simpa using ih (w := { w with past := w.past ++ [.driver e] }) h

/-- The past only grows. -/
theorem Makes.past {m : Move} (h : Makes C caller ch w m w') : w.past <+: w'.past := by
  cases h with
  | deed _ => exact List.prefix_append _ _
  | _ => exact List.prefix_rfl

/-- A run only adds to the past. -/
theorem exec_past {ms : List Move} (h : Ledger.exec (step C caller ch) w ms = some w') :
    w.past <+: w'.past := by
  refine Ledger.exec_invariant (I := fun v => w.past <+: v.past) ?_ h List.prefix_rfl
  intro v m v' hv hstep
  exact hv.trans (step_makes hstep).past

/-- What was sent is a beginning of what is sent later. -/
theorem sent_mono {past past' : List Deed} (h : past <+: past') : C.sent past <+: C.sent past' := by
  obtain ⟨more, rfl⟩ := h
  exact ⟨C.sent more, List.filterMap_append.symm⟩

/-! ### Who keeps the channel open -/

/-- The caller is there while the call runs. -/
def Borrowed (caller : Party) (w : World β) : Prop := w.call.isRunning → caller ∈ w.parties

/-- **Step lemma.** A call keeps its handle. -/
theorem Borrowed.step {m : Move} (hw : Borrowed caller w) (h : step C caller ch w m = some w') :
    Borrowed caller w' := by
  cases step_makes h with
  | deed _ => exact hw
  | @join p _ => exact fun hrun => List.mem_cons_of_mem p (hw hrun)
  | @leave p hleave =>
      intro hrun
      have hne : caller ≠ p := by
        rintro rfl
        have hrun' : w.call.isRunning = true := hrun
        rw [hleave rfl] at hrun'
        cases hrun'
      exact (List.mem_erase_of_ne hne).mpr (hw hrun)
  | call hcaller _ => exact fun _ => hcaller

/-- **A running call never sees its channel end**: the party that it is made on holds a
sender. -/
theorem isOpen_of_running (hw : Borrowed caller w) (hholds : C.holds caller = true)
    (hrun : w.call.isRunning) : w.parties.any C.holds = true :=
  List.any_eq_true.mpr ⟨caller, hw hrun, hholds⟩

/-! ### A call can always end -/

/-- The call's own moves alone can bring it to its end. -/
def Ends (C : Call α β) (caller : Party) (ch : Chan) (w : World β) : Prop :=
  ∃ ms res, (∀ m ∈ ms, ∃ c, m = .call c) ∧
    Ledger.exec (step C caller ch) w ms = some { w with call := .wait (.done res) }

/-- A move of the call in front of a way to end. -/
theorem Ends.cons {c : CallMove} {st : CallStage β}
    (h : Ends C caller ch { w with call := st })
    (hstep : step C caller ch w (.call c) = some { w with call := st }) : Ends C caller ch w := by
  obtain ⟨ms, res, hms, hrun⟩ := h
  refine ⟨.call c :: ms, res, ?_, Ledger.exec_cons_eq_some.mpr ⟨_, hstep, hrun⟩⟩
  exact List.forall_mem_cons.mpr ⟨⟨c, rfl⟩, hms⟩

/-- A move that ends the call is a way to end. -/
theorem ends_of_step {c : CallMove} {r : Except Error β}
    (hstep : step C caller ch w (.call c) = some { w with call := .wait (.done r) }) :
    Ends C caller ch w :=
  ⟨[.call c], r, by simp, Ledger.exec_cons_eq_some.mpr ⟨_, hstep, Ledger.exec_nil _⟩⟩

/-- A call that waits can end: every receive leaves fewer messages to receive. -/
theorem ends_of_waiting {next : Nat} (hcaller : caller ∈ w.parties)
    (hholds : C.holds caller = true) (hcall : w.call = .wait (.waiting next)) :
    Ends C caller ch w := by
  induction hleft : (C.sent w.past).length - next using Nat.strong_induction_on
    generalizing w next with
  | _ left ih =>
      have hopen : w.parties.any C.holds = true := List.any_eq_true.mpr ⟨caller, hcaller, hholds⟩
      rcases hrecv : C.wait.receive C.capacity (C.sent w.past) (w.parties.any C.holds) next with
        _ | st
      · have hexp := Channel.Wait.expire_of_receive_eq_none hrecv
        exact ends_of_step (step_expire hcaller hcall hexp)
      · have hstep : step C caller ch w (.call .receive) = some { w with call := .wait st } :=
          step_receive hcaller hcall hrecv
        rw [hopen] at hrecv
        obtain ⟨hlt, ⟨next', rfl, hnext, -⟩ | ⟨a, res, -, -, rfl⟩⟩ :=
          Channel.Wait.receive_of_open hrecv
        · have hfewer : (C.sent w.past).length - next' < left := by omega
          exact (ih _ hfewer (w := { w with call := .wait (.waiting next') }) hcaller rfl rfl).cons
            hstep
        · exact ends_of_step hstep

/-- **A call that has subscribed can end by its own moves**, unless it waits for the driver
to acknowledge its message. -/
theorem ends_of_subscribed {next : Nat} (hcaller : caller ∈ w.parties)
    (hholds : C.holds caller = true) (hcall : w.call = .subscribed next)
    (hack : C.opening.sends → ∃ res, Call.isAck w.past w.parties ch res) :
    Ends C caller ch w := by
  rcases hopening : C.opening with ⟨emsg, judge⟩ | ⟨emsg, body⟩
  · rcases hread : ((shared (effects w.past)).cache emsg).bind judge with _ | res
    · exact (ends_of_waiting (w := { w with call := .wait (.waiting next) }) hcaller hholds
        rfl).cons (c := .read) (by simp [step, Call.step, hcaller, hcall, hopening, hread])
    · exact ends_of_step (c := .read) (r := res)
        (by simp [step, Call.step, hcaller, hcall, hopening, hread])
  · obtain ⟨e | ⟨⟩, hres⟩ := hack (by rw [hopening]; rfl)
    · exact ends_of_step (c := .acked (.error e)) (r := .error e)
        (by simp [step, Call.step, hcaller, hcall, hopening, hres])
    · exact (ends_of_waiting (w := { w with call := .wait (.waiting next) }) hcaller hholds
        rfl).cons (c := .acked (.ok ()))
        (by simp [step, Call.step, hcaller, hcall, hopening, hres])

end World

end Steamroids
