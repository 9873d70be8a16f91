import Steamroids.Readiness

/-!
# The Hello Budget of a Game Coordinator

Until the GC welcomes it, a pump repeats its hello on a timer, at most `maxHelloAttempts`
times per readiness episode. An episode begins when the pump starts, when the session's state
changes and when readiness is lost, and the counter starts anew then.

It also starts anew when the GC reports that it has no session for us, and the pump does not
look whether it was ready at all. Such a report answers a hello of an account that the GC
never welcomes, so the hellos can renew their own budget (`hello_budget_renewed`). The
results are about the runs in which a report of this kind comes while the pump is ready, or
before its first retry (`LosesReadiness`).

## Main results

* `Attached.left_of_poke`: what each step costs of the budget.
* `hello_retries_bounded`: the number of retries in one readiness episode.
-/

namespace Steamroids

/-! ### What the pump does to the counter -/

namespace Pump

variable {G : GcProst} {appid helloVersion : UInt32} {p : Pump}

/-- Only a loss of the welcome gives the retries back. -/
theorem onGcMessage_helloAttempts (now : Nat) (msg : GcMessage) :
    (p.onGcMessage G now msg).helloAttempts =
      if msg.readiness? G = some .lost then 0 else p.helloAttempts := by
  by_cases hwelcome : msg.msgtype = gcClientWelcome
  · simp [onGcMessage, GcMessage.readiness?, hwelcome]
  · by_cases hstatus : msg.msgtype = gcClientConnectionStatus
    · have hne : gcClientConnectionStatus ≠ gcClientWelcome := by decide
      rcases hsession : hasGcSession G msg.body with _ | _ <;>
        simp [onGcMessage, GcMessage.readiness?, hstatus, hne, hsession, unready]
    · simp [onGcMessage, GcMessage.readiness?, hwelcome, hstatus]

/-- A message sets the counter to zero exactly if it says that the GC has no session. -/
theorem onMessage_helloAttempts (now : Nat) (msg : SteamMessage) :
    (p.onMessage G appid now msg).helloAttempts =
      if readiness? G appid msg = some .lost then 0 else p.helloAttempts := by
  by_cases hemsg : msg.emsg = emsgClientFromGc
  · simp only [onMessage, readiness?, hemsg, ne_eq, not_true_eq_false, if_false, if_true]
    rcases GcMessage.unwrap G msg with e | (_ | gcMsg)
    · rfl
    · rfl
    · by_cases happ : gcMsg.appid = appid
      · simp only [happ, if_true]
        exact onGcMessage_helloAttempts now gcMsg
      · simp only [happ, if_false]
        rfl
  · simp [onMessage, readiness?, hemsg]

/-- To handle a message reads no state. -/
theorem onMessage_seen (G : GcProst) (appid : UInt32) (p : Pump) (now : Nat)
    (msg : SteamMessage) : (p.onMessage G appid now msg).seen = p.seen := by
  rw [(onMessage_spec now msg).seen]
  rcases readiness? G appid msg with _ | ev <;> rfl

/-- The timer sends a hello and counts it, or does neither. -/
theorem onTick_cases (now : Nat) :
    ((p.onTick G appid helloVersion now).sent = p.sent ∧
      (p.onTick G appid helloVersion now).helloAttempts = p.helloAttempts) ∨
    ((p.onTick G appid helloVersion now).sent = p.sent ++ [sendHello G appid helloVersion] ∧
      (p.onTick G appid helloVersion now).helloAttempts = p.helloAttempts + 1 ∧
      p.helloAttempts < maxHelloAttempts) := by
  simp only [onTick]
  split
  · rename_i hsend
    simp only [Bool.and_eq_true, decide_eq_true_eq] at hsend
    exact .inr ⟨rfl, rfl, hsend.2⟩
  · exact .inl ⟨rfl, rfl⟩

/-- What receiving does: the pump is told that it lags, or it does not lag and takes the next
message. -/
theorem step_received {log : List Effect} {now : Nat} {p' : Pump}
    (h : p.step G appid helloVersion log (.received now) = some p') :
    p' = { p with next := (messages log).length - eventCapacity } ∨
    ((messages log).length ≤ p.next + eventCapacity ∧ ∃ msg, (messages log)[p.next]? = some msg ∧
      p' = { p with next := p.next + 1 }.onMessage G appid now msg) := by
  by_cases hlag : p.next + eventCapacity < (messages log).length
  · simp only [step, Channel.recv, hlag, if_true] at h
    split at h
    · exact .inl (Option.some.inj h).symm
    · cases h
  · cases step_steps h with
    | value hmsg => exact .inr ⟨Nat.not_lt.mp hlag, _, hmsg, rfl⟩
    | lagged hlag' => exact absurd hlag' hlag

end Pump

/-! ### Retries and episodes -/

/-- What a run of the pump is judged by: a hello is repeated, or a readiness episode
begins. -/
inductive Poke
  | retry
  | reset
  deriving DecidableEq

namespace Attached

/-- A step takes a new session state, or readiness goes from true to false, or the timer
sends a hello. -/
def poke? (s : Attached) (m : AttachedMove) (s' : Attached) : Option Poke :=
  if s'.pump.seen ≠ s.pump.seen ∨ (s.pump.ready ∧ s'.pump.ready = false) then
    some .reset
  else
    match m with
    | .pump (.tick _) => if s'.pump.sent = s.pump.sent then none else some .retry
    | _ => none

/-- The retries of a run of the pump, and the beginnings of its episodes. -/
def pokes (G : GcProst) (appid helloVersion : UInt32) (s : Attached)
    (ms : List AttachedMove) : List Poke :=
  Ledger.trail (Attached.step G appid helloVersion) poke? s ms

/-- A report that the GC has no session is received by a pump that is ready, or that has not
repeated its hello yet. -/
def LosesReadiness (G : GcProst) (appid : UInt32) (s : Attached) : AttachedMove → Prop
  | .pump (.received _) => ∀ msg, (messages s.past)[s.pump.next]? = some msg →
      (messages s.past).length ≤ s.pump.next + eventCapacity →
      readiness? G appid msg = some .lost → s.pump.ready ∨ s.pump.helloAttempts = 0
  | _ => True

/-- How many retries the pump has left. -/
def left (s : Attached) : Nat := maxHelloAttempts - s.pump.helloAttempts

variable {G : GcProst} {appid helloVersion : UInt32} {s s' : Attached} {m : AttachedMove}

/-- A step that begins no episode and is no tick leaves no trace. -/
theorem poke?_of_quiet (hseen : s'.pump.seen = s.pump.seen)
    (hready : s.pump.ready → s'.pump.ready) (htick : ∀ now, m ≠ .pump (.tick now)) :
    poke? s m s' = none := by
  have hnot : ¬ (s'.pump.seen ≠ s.pump.seen ∨ (s.pump.ready ∧ s'.pump.ready = false)) := by
    rintro (hne | ⟨htrue, hfalse⟩)
    · exact hne hseen
    · rw [hready htrue] at hfalse
      cases hfalse
  rw [poke?, if_neg hnot]
  exact htick

/-- What is left depends on the attempts alone. -/
theorem left_congr (h : s'.pump.helloAttempts = s.pump.helloAttempts) : left s' = left s := by
  rw [left, left, h]

/-- What a step costs: it begins an episode, or the counter stands still, or it goes up by
one with a retry. -/
theorem left_of_poke (hcond : LosesReadiness G appid s m)
    (hstep : s.step G appid helloVersion m = some s') :
    poke? s m s' = some .reset ∨ (poke? s m s' = none ∧ left s' = left s) ∨
      (poke? s m s' = some .retry ∧ left s' + 1 = left s) := by
  cases m with
  | driver e =>
      obtain rfl := Option.some.inj hstep
      exact .inr (.inl ⟨poke?_of_quiet rfl id nofun, left_congr rfl⟩)
  | pump i =>
      obtain ⟨p, hp, rfl⟩ := Option.map_eq_some_iff.mp hstep
      cases i with
      | closed =>
          cases Pump.step_steps hp
          exact .inr (.inl ⟨poke?_of_quiet rfl id nofun, left_congr rfl⟩)
      | changed now announced =>
          cases Pump.step_steps hp with
          | changed hlt =>
              have hseen := (@Pump.onChanged_spec G appid helloVersion
                { s.pump with seen := (states s.past).length } now announced
                (states s.past).getLast?).seen
              refine .inl (if_pos (.inl fun hsame => ?_))
              have hsame' : (states s.past).length = s.pump.seen := hseen.symm.trans hsame
              omega
          | ended => exact .inr (.inl ⟨poke?_of_quiet rfl id nofun, left_congr rfl⟩)
      | tick now =>
          cases Pump.step_steps hp
          have hkeeps := @Pump.onTick_keeps G appid helloVersion s.pump now
          have hnot : ¬ ((s.pump.onTick G appid helloVersion now).seen ≠ s.pump.seen ∨
              (s.pump.ready ∧ (s.pump.onTick G appid helloVersion now).ready = false)) := by
            rw [hkeeps.seen, hkeeps.ready]
            simp
          rcases @Pump.onTick_cases G appid helloVersion s.pump now with
            ⟨hsent, hcount⟩ | ⟨hsent, hcount, hlt⟩
          · refine .inr (.inl ⟨?_, ?_⟩)
            · rw [poke?, if_neg hnot]
              exact if_pos hsent
            · exact left_congr hcount
          · refine .inr (.inr ⟨?_, ?_⟩)
            · rw [poke?, if_neg hnot]
              refine if_neg fun hsame => ?_
              have hlen := congrArg List.length (hsent.symm.trans hsame)
              rw [List.length_append, List.length_singleton] at hlen
              omega
            · rw [left, left, hcount]
              omega
      | received now =>
          rcases Pump.step_received hp with rfl | ⟨hkeeps, msg, hmsg, rfl⟩
          · exact .inr (.inl ⟨poke?_of_quiet rfl id nofun, left_congr rfl⟩)
          have hspec := @Pump.onMessage_spec G appid { s.pump with next := s.pump.next + 1 } now msg
          have hcount := @Pump.onMessage_helloAttempts G appid
            { s.pump with next := s.pump.next + 1 } now msg
          have hseen := Pump.onMessage_seen G appid { s.pump with next := s.pump.next + 1 } now msg
          by_cases hlost : readiness? G appid msg = some .lost
          · rw [if_pos hlost] at hcount
            have hfalse := hspec.ready
            rw [hlost] at hfalse
            rcases hcond msg hmsg hkeeps hlost with hready | hzero
            · exact .inl (if_pos (.inr ⟨hready, hfalse⟩))
            · by_cases hready : s.pump.ready
              · exact .inl (if_pos (.inr ⟨hready, hfalse⟩))
              · refine .inr (.inl ⟨poke?_of_quiet hseen (absurd · hready) nofun, ?_⟩)
                exact left_congr (hcount.trans hzero.symm)
          · rw [if_neg hlost] at hcount
            refine .inr (.inl ⟨poke?_of_quiet hseen (fun hready => ?_) nofun, ?_⟩)
            · refine hspec.ready.trans ?_
              rcases hev : readiness? G appid msg with _ | (_ | _ | _)
              · exact hready
              · rfl
              · exact absurd hev hlost
              · exact absurd hev (readiness?_ne_published G appid msg)
            · exact left_congr hcount

end Attached

/-- **The hello budget.** In every run of a pump in which a report that the GC has no session
comes while the pump is ready, or before its first retry: between the beginning of a readiness
episode and the next, the hello is repeated at most `maxHelloAttempts` times. -/
theorem hello_retries_bounded {G : GcProst} {appid helloVersion : UInt32} {now : Nat}
    {past : List Effect} {ms : List AttachedMove}
    (hguard : Ledger.Guarded (Attached.step G appid helloVersion)
      (Attached.LosesReadiness G appid) (.start now past) ms)
    {mid : List Poke} (hmid : mid <:+: Attached.pokes G appid helloVersion (.start now past) ms)
    (hreset : .reset ∉ mid) : mid.length ≤ maxHelloAttempts := by
  refine @Ledger.trail_length_le _ _ _ _ _ _ Attached.left _ (· = Poke.reset) ?_ ?_ ?_ _ _ hguard
    _ hmid ?_
  · intro s
    exact Nat.sub_le _ _
  · intro s m s' hcond hstep hnone
    rcases Attached.left_of_poke hcond hstep with h | ⟨-, h⟩ | ⟨h, -⟩
    · rw [hnone] at h
      cases h
    · exact Nat.le_of_eq h
    · rw [hnone] at h
      cases h
  · intro s m s' v hcond hstep hv hnot
    rcases Attached.left_of_poke hcond hstep with h | ⟨h, -⟩ | ⟨-, h⟩
    · exact absurd (Option.some.inj (hv.symm.trans h)) hnot
    · rw [hv] at h
      cases h
    · exact Nat.le_of_eq h
  · rintro v hv rfl
    exact hreset hv

namespace Sample

/-- A report of the GC of app 730 that it has no session for us. -/
def noSession : WsItem :=
  let payload := encodeRaw gcClientConnectionStatus [] [0x08, 0x02]
  item (frame emsgClientFromGc 0
    (0x08 :: 0xda :: 0x05 :: 0x1a :: UInt8.ofNat payload.length :: payload))

/-- A session to which the GC sends such a report. -/
def reported : SessionDriver :=
  (Ledger.exec (SessionDriver.step prost) session [.poll, .item 1 noSession]).get (by decide)

/-- The hello timer fires `n` times. -/
def ticks (n : Nat) : List AttachedMove :=
  (List.range n).map fun k => .pump (.tick (fromSecs (2 * (k + 1))))

end Sample

/-- A pump that hears nothing repeats its hello as often as the budget allows. -/
theorem hello_retries_bounded_unheard :
    Attached.pokes Sample.gcProst 730 0 (.start 0 Sample.session.log) (Sample.ticks 25) =
        List.replicate 20 .retry ∧
      (List.replicate 20 Poke.retry).length ≤ maxHelloAttempts := by
  have hpokes : Attached.pokes Sample.gcProst 730 0 (.start 0 Sample.session.log)
      (Sample.ticks 25) = List.replicate 20 .retry := by decide
  have hguard : Ledger.Guarded (Attached.step Sample.gcProst 730 0)
      (Attached.LosesReadiness Sample.gcProst 730) (.start 0 Sample.session.log)
      (Sample.ticks 25) := by
    refine Ledger.guarded_of_forall fun m hm s => ?_
    obtain ⟨k, -, rfl⟩ := List.mem_map.mp hm
    trivial
  exact ⟨hpokes, hello_retries_bounded hguard (hpokes ▸ List.infix_rfl) (by decide)⟩

/-- A pump that has spent its budget and was never ready hears that the GC has no session, and
goes on: one stretch of its run without a new state and without a loss of readiness has more
retries than the budget. -/
theorem hello_budget_renewed :
    ∃ s, Ledger.exec (Attached.step Sample.gcProst 730 0) (.start 0 Sample.session.log)
        (Sample.ticks 20 ++ (Sample.reported.log.drop 3).map .driver ++
          [.pump (.received (fromSecs 41)), .pump (.tick (fromSecs 43))]) = some s ∧
      Sample.reported.Reachable Sample.prost ∧ s.past = Sample.reported.log ∧
      Attached.pokes Sample.gcProst 730 0 (.start 0 Sample.session.log)
        (Sample.ticks 20 ++ (Sample.reported.log.drop 3).map .driver ++
          [.pump (.received (fromSecs 41)), .pump (.tick (fromSecs 43))]) =
        List.replicate 21 .retry ∧
      maxHelloAttempts < (List.replicate 21 Poke.retry).length := by
  refine ⟨_, (Option.some_get (show Option.isSome _ by decide)).symm,
    SessionDriver.reachable_session.run (Option.some_get _).symm, ?_⟩
  decide

end Steamroids
