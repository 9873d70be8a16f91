import Steamroids.Coordinator
import Steamroids.HandleCalls
import Steamroids.Readiness

/-!
# Requests to a Game Coordinator

`GameCoordinator::request_matching` (`gc/coordinator.rs`) makes one call out of four parts that
run at their own pace. It waits on the `ready` watch, which the pump writes; the pump reads what the
driver broadcasts; the message goes to Steam through the queue of the session; and the reply comes
back through the driver, the pump and the coordinator's channel.

`Coordination` puts these together: a session with its handles and its queue, a pump that was
attached to it, the values of the `ready` watch, and one request among everything else that goes on.
A coordinator and the pump hold a handle of the session each. Whatever else is sent through the
session, the pump's own hellos and the requests of other callers included, are moves of the session.

The `ready` receiver that `wait_ready` clones has seen the first value of the watch and no other,
since nobody advances the one in the coordinator.
-/

namespace Steamroids

/-! ### The `ready` watch -/

/-- What an iteration of the pump sends through the `ready` watch. -/
def Pump.announces (G : GcProst) (appid : UInt32) (p : Pump) (log : List Effect) :
    PumpInput → Option Bool
  | .changed _ _ =>
      match Channel.changed (states log).length (stateOpen log) p.seen with
      | some (.ok _) => some false
      | _ => none
  | .received _ =>
      match Channel.recv eventCapacity (messages log) true p.next with
      | some (.value msg, _) => (readiness? G appid msg).map fun e => decide (e = .welcome)
      | _ => none
  | _ => none

/-! ### The request -/

/-- The arguments of `request_matching`: `body` is the encoded message. -/
structure GcRequest (β : Type) where
  sendType : UInt32
  body : Bytes
  responseType : UInt32
  decode : Bytes → Except String β
  accept : β → Bool

namespace GcRequest

variable {β : Type} (q : GcRequest β) (G : GcProst) (appid : UInt32)

/-- The call that the request makes once the coordinator is ready. -/
def call : Call GcMessage β :=
  requestMatching G appid q.sendType q.body q.responseType q.decode q.accept

/-- The command that `send` makes. -/
def command (ch : Chan) : Command :=
  .notify emsgClientToGc (G.encodeGcClient (GcMessage.wrap G appid q.sendType {} q.body)) ch

end GcRequest

/-- Where a request stands. -/
inductive GcStage (β : Type)
  | idle
  /-- In `wait_ready`, having seen so many values of the watch. -/
  | awaiting (seen : Nat)
  | ready
  /-- It has subscribed, and waits for its message to be sent. -/
  | sending (next : Nat)
  | wait (st : Channel.Stage β Error)
  /-- Its future was dropped. -/
  | cancelled
  deriving DecidableEq

/-- The request borrows its coordinator. -/
def GcStage.isRunning {β : Type} : GcStage β → Bool
  | .idle => false
  | .wait (.done _) => false
  | .cancelled => false
  | _ => true

/-! ### Everything together -/

/-- A session, a pump attached to it, and a request. -/
structure Coordination (β : Type) where
  session : Handles
  pump : Pump
  /-- The values sent through the `ready` watch. -/
  readies : List Bool
  coordinators : Nat
  stage : GcStage β
  /-- Which call on the session sends the message of the request. -/
  asked : Option Nat

/-- What can happen. -/
inductive GcMove
  | session (m : HandleMove)
  | pump (i : PumpInput)
  /-- A coordinator is cloned. -/
  | clone
  | drop
  /-- The request is made: it looks at the watch. -/
  | enter
  /-- `wait_ready` finds the watch changed. -/
  | look
  /-- The timer of `wait_ready` fires. -/
  | late
  /-- The request subscribes, and makes its notification. -/
  | ask
  /-- The notification has returned. -/
  | answered
  | receive
  /-- The timer of the reply fires. -/
  | expire
  | cancel
  deriving DecidableEq

namespace Coordination

variable {β : Type}

/-- The pump is spawned with a handle of its own, beside the one that the coordinator takes. -/
def attach (now : Nat) (w : Handles) : Coordination β where
  session := { w with handles := w.handles + 1 }
  pump := .attach now w.driver.log
  readies := [false]
  coordinators := 1
  stage := .idle
  asked := none

variable (s : Coordination β)

/-- The ledger of the session. -/
def log : List Effect := s.session.driver.log

/-- The value of the watch. -/
def isReady : Bool := s.readies.getLast?.getD false

/-- The coordinator's channel has a sender. -/
def isOpen : Bool := decide (0 < s.coordinators) || s.pump.running

/-- A move of the session that is up to others: the handles of the coordinators and of the pump are
theirs, and so are the channel and the notification of the request its own. -/
def allows (ch : Chan) : HandleMove → Bool
  | .drop => decide (s.coordinators + s.pump.running.toNat < s.session.handles)
  | .call c => decide (c.chan ≠ ch)
  | .cancel n => decide (s.asked ≠ some n)
  | _ => true

/-- What the notification of the request has returned. -/
def answer? : Option (Except Error Unit) :=
  match s.asked.bind (s.session.calls[·]?) with
  | some (_, .returned e) => e.notify?
  | _ => none

section

variable (P : Prost) (G : GcProst) (appid helloVersion : UInt32) (q : GcRequest β) (ch : Chan)

/-- One move. -/
def step : GcMove → Option (Coordination β)
  | .session m =>
      if s.allows ch m then (s.session.step P m).map fun w => { s with session := w } else none
  | .pump i =>
      if i = .closed ∧ s.coordinators ≠ 0 then
        none
      else
        (s.pump.step G appid helloVersion s.log i).bind fun p =>
          if p.running then
            some { s with
              pump := p
              readies := s.readies ++ (s.pump.announces G appid s.log i).toList }
          else
            (s.session.step P .drop).map fun w => { s with session := w, pump := p }
  | .clone =>
      if 0 < s.coordinators then
        (s.session.step P .clone).map fun w =>
          { s with session := w, coordinators := s.coordinators + 1 }
      else
        none
  | .drop =>
      if 1 < s.coordinators ∨ s.coordinators = 1 ∧ s.stage.isRunning = false then
        (s.session.step P .drop).map fun w =>
          { s with session := w, coordinators := s.coordinators - 1 }
      else
        none
  | .enter =>
      match s.stage with
      | .idle =>
          if 0 < s.coordinators then
            some { s with stage := if s.isReady then .ready else .awaiting 1 }
          else
            none
      | _ => none
  | .look =>
      match s.stage with
      | .awaiting seen =>
          (Channel.changed s.readies.length s.pump.running seen).map fun
            | .ok seen => { s with stage := if s.isReady then .ready else .awaiting seen }
            | .error () =>
                { s with stage := .wait (.done (.error (.webSocket "GC pump stopped"))) }
      | _ => none
  | .late =>
      match s.stage with
      | .awaiting seen =>
          if (Channel.changed s.readies.length s.pump.running seen).isNone then
            some { s with stage := .wait (.done (.error (.timeout "GC welcome"))) }
          else
            none
      | _ => none
  | .ask =>
      match s.stage with
      | .ready =>
          (s.session.step P (.call (q.command G appid ch))).map fun w =>
            { s with
              session := w
              stage := .sending s.pump.relayed.length
              asked := some s.session.calls.length }
      | _ => none
  | .answered =>
      match s.stage with
      | .sending next =>
          s.answer?.map fun
            | .ok () => { s with stage := .wait (.waiting next) }
            | .error e => { s with stage := .wait (.done (.error e)) }
      | _ => none
  | .receive =>
      match s.stage with
      | .wait (.waiting next) =>
          ((q.call G appid).wait.receive gcEventCapacity s.pump.relayed s.isOpen next).map fun st =>
            { s with stage := .wait st }
      | _ => none
  | .expire =>
      match s.stage with
      | .wait (.waiting next) =>
          ((q.call G appid).wait.expire gcEventCapacity s.pump.relayed s.isOpen next).map fun st =>
            { s with stage := .wait st }
      | _ => none
  | .cancel =>
      if s.stage.isRunning then
        match s.asked with
        | some n =>
            -- a notification that has returned has nothing left to drop
            some { s with
              session := (s.session.step P (.cancel n)).getD s.session
              stage := .cancelled }
        | none => some { s with stage := .cancelled }
      else
        none

end

/-! ### Moves by what they change -/

/-- The request looks at the watch, for the first time or again. -/
def Looks (s : Coordination β) : Prop :=
  s.stage = .idle ∧ 0 < s.coordinators ∨ ∃ seen, s.stage = .awaiting seen

/-- The request goes on by itself, without a move of the session. -/
inductive Goes (G : GcProst) (appid : UInt32) (q : GcRequest β) (s : Coordination β) :
    GcStage β → Prop
  | ready : s.Looks → s.isReady → Goes G appid q s .ready
  | awaits {seen : Nat} : s.Looks → Goes G appid q s (.awaiting seen)
  | stopped {seen : Nat} : s.stage = .awaiting seen → s.pump.running = false →
      Goes G appid q s (.wait (.done (.error (.webSocket "GC pump stopped"))))
  | late {seen : Nat} : s.stage = .awaiting seen →
      Goes G appid q s (.wait (.done (.error (.timeout "GC welcome"))))
  | accepted {next : Nat} : s.stage = .sending next → s.answer? = some (.ok ()) →
      Goes G appid q s (.wait (.waiting next))
  | refused {next : Nat} {e : Error} : s.stage = .sending next → s.answer? = some (.error e) →
      Goes G appid q s (.wait (.done (.error e)))
  | receive {next : Nat} {st : Channel.Stage β Error} : s.stage = .wait (.waiting next) →
      (q.call G appid).wait.receive gcEventCapacity s.pump.relayed s.isOpen next = some st →
      Goes G appid q s (.wait st)
  | expire {next : Nat} {st : Channel.Stage β Error} : s.stage = .wait (.waiting next) →
      (q.call G appid).wait.expire gcEventCapacity s.pump.relayed s.isOpen next = some st →
      Goes G appid q s (.wait st)

/-- A move, with its guard and its outcome. -/
inductive Makes (P : Prost) (G : GcProst) (appid helloVersion : UInt32) (q : GcRequest β)
    (ch : Chan) (s : Coordination β) : Coordination β → Prop
  | session {m : HandleMove} {w : Handles} : s.allows ch m → s.session.step P m = some w →
      Makes P G appid helloVersion q ch s { s with session := w }
  | pump {i : PumpInput} {p : Pump} : s.pump.step G appid helloVersion s.log i = some p →
      p.running →
      Makes P G appid helloVersion q ch s
        { s with pump := p, readies := s.readies ++ (s.pump.announces G appid s.log i).toList }
  | pumpEnds {i : PumpInput} {p : Pump} {w : Handles} :
      s.pump.step G appid helloVersion s.log i = some p → p.running = false →
      s.session.step P .drop = some w →
      Makes P G appid helloVersion q ch s { s with session := w, pump := p }
  | clone {w : Handles} : 0 < s.coordinators → s.session.step P .clone = some w →
      Makes P G appid helloVersion q ch s
        { s with session := w, coordinators := s.coordinators + 1 }
  | drop {w : Handles} : 0 < s.coordinators → (s.stage.isRunning → 1 < s.coordinators) →
      s.session.step P .drop = some w →
      Makes P G appid helloVersion q ch s
        { s with session := w, coordinators := s.coordinators - 1 }
  | goes {st : GcStage β} : s.Goes G appid q st →
      Makes P G appid helloVersion q ch s { s with stage := st }
  | ask {w : Handles} : s.stage = .ready →
      s.session.step P (.call (q.command G appid ch)) = some w →
      Makes P G appid helloVersion q ch s
        { s with
          session := w
          stage := .sending s.pump.relayed.length
          asked := some s.session.calls.length }
  | cancel {w : Handles} : w = s.session ∨ (∃ n, s.session.step P (.cancel n) = some w) →
      Makes P G appid helloVersion q ch s { s with session := w, stage := .cancelled }

variable {s} {s' : Coordination β} {P : Prost} {G : GcProst} {appid helloVersion : UInt32}
  {q : GcRequest β} {ch : Chan}

/-- A look at the watch. -/
theorem goes_of_looks (h : s.Looks) (seen : Nat) :
    s.Goes G appid q (if s.isReady then .ready else .awaiting seen) := by
  split
  · exact .ready h ‹_›
  · exact .awaits h

/-- The wait for readiness goes on as the watch channel says. -/
theorem goes_of_changed {r : Except Unit Nat} {seen : Nat} (hstage : s.stage = .awaiting seen)
    (h : Channel.changed s.readies.length s.pump.running seen = some r) :
    s.Goes G appid q (match r with
      | .ok seen => if s.isReady then .ready else .awaiting seen
      | .error () => .wait (.done (.error (.webSocket "GC pump stopped")))) := by
  rcases r with ⟨⟩ | seen'
  · refine .stopped hstage ?_
    simp only [Channel.changed] at h
    split at h
    · cases h
    · split at h
      · cases h
      · simpa using ‹¬ s.pump.running = true›
  · exact goes_of_looks (.inr ⟨seen, hstage⟩) seen'

/-- The inversion of `step`. -/
theorem step_makes {m : GcMove} (h : s.step P G appid helloVersion q ch m = some s') :
    Makes P G appid helloVersion q ch s s' := by
  cases m with
  | session m =>
      simp only [step] at h
      split at h
      · obtain ⟨w, hw, rfl⟩ := Option.map_eq_some_iff.mp h
        exact .session ‹_› hw
      · cases h
  | pump i =>
      simp only [step] at h
      split at h
      · cases h
      · obtain ⟨p, hp, h⟩ := Option.bind_eq_some_iff.mp h
        split at h
        · obtain rfl := Option.some.inj h
          exact .pump hp ‹_›
        · obtain ⟨w, hw, rfl⟩ := Option.map_eq_some_iff.mp h
          exact .pumpEnds hp (by simpa using ‹¬ p.running = true›) hw
  | clone =>
      simp only [step] at h
      split at h
      · obtain ⟨w, hw, rfl⟩ := Option.map_eq_some_iff.mp h
        exact .clone ‹_› hw
      · cases h
  | drop =>
      simp only [step] at h
      split at h
      · rename_i hdrop
        obtain ⟨w, hw, rfl⟩ := Option.map_eq_some_iff.mp h
        refine .drop (by omega) (fun hrunning => ?_) hw
        rcases hdrop with hmore | ⟨-, hnot⟩
        · exact hmore
        · rw [hrunning] at hnot
          cases hnot
      · cases h
  | enter =>
      simp only [step] at h
      split at h
      · split at h
        · obtain rfl := Option.some.inj h
          exact .goes (goes_of_looks (.inl ⟨‹_›, ‹_›⟩) 1)
        · cases h
      · cases h
  | look =>
      simp only [step] at h
      split at h
      · obtain ⟨r, hr, rfl⟩ := Option.map_eq_some_iff.mp h
        rcases r with ⟨⟩ | seen
        · exact .goes (goes_of_changed ‹_› hr)
        · exact .goes (goes_of_changed ‹_› hr)
      · cases h
  | late =>
      simp only [step] at h
      split at h
      · split at h
        · obtain rfl := Option.some.inj h
          exact .goes (.late ‹_›)
        · cases h
      · cases h
  | ask =>
      simp only [step] at h
      split at h
      · obtain ⟨w, hw, rfl⟩ := Option.map_eq_some_iff.mp h
        exact .ask ‹_› hw
      · cases h
  | answered =>
      simp only [step] at h
      split at h
      · obtain ⟨res, hres, rfl⟩ := Option.map_eq_some_iff.mp h
        rcases res with e | ⟨⟩
        · exact .goes (.refused ‹_› hres)
        · exact .goes (.accepted ‹_› hres)
      · cases h
  | receive =>
      simp only [step] at h
      split at h
      · obtain ⟨st, hst, rfl⟩ := Option.map_eq_some_iff.mp h
        exact .goes (.receive ‹_› hst)
      · cases h
  | expire =>
      simp only [step] at h
      split at h
      · obtain ⟨st, hst, rfl⟩ := Option.map_eq_some_iff.mp h
        exact .goes (.expire ‹_› hst)
      · cases h
  | cancel =>
      simp only [step] at h
      split at h
      · split at h
        · rename_i n _
          obtain rfl := Option.some.inj h
          refine .cancel ?_
          rcases hcancel : s.session.step P (.cancel n) with _ | w
          · exact .inl rfl
          · exact .inr ⟨n, hcancel⟩
        · obtain rfl := Option.some.inj h
          exact .cancel (.inl rfl)
      · cases h

end Coordination

end Steamroids
