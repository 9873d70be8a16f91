import Steamroids.Hellos

/-!
# Attaching to a Session

`GameCoordinator::attach` announces the app once itself, and the pump it spawns announces it
again whenever the session's state changes to a live one. The pump's state receiver is a
clone of the one in the session handle. A clone has seen what its original has seen, and
nobody ever advances the handle's: whatever the session has published since it was spawned is
news to a pump that is attached later. So a coordinator that is attached after a reconnect
meets a change of state that happened before it (`attach_after_reconnect_relaunches`).

## Main results

* `Attached.step_heeds`: what a step that takes no new state leaves alone.
* `attach_heeds_later_states`: the pump heeds only what is published after the attach,
  exactly if nothing was published between the spawning of the session and the attach.
-/

namespace Steamroids

/-- How many of the notifications announce the app. -/
def launches (sent : List (UInt32 × Bytes)) : Nat :=
  sent.countP fun n => n.1 == emsgClientGamesPlayed

/-- The launches of two stretches add up. -/
theorem launches_append (sent sent' : List (UInt32 × Bytes)) :
    launches (sent ++ sent') = launches sent + launches sent' :=
  List.countP_append

/-- A launch is announced once. -/
theorem launches_launch (G : GcProst) (appid helloVersion : UInt32) (announced : Bool) :
    launches (launch G appid helloVersion announced) = 1 := by
  cases announced <;> rfl

namespace Pump

variable {G : GcProst} {appid helloVersion : UInt32} {p : Pump}

/-- To handle a message sends nothing. -/
theorem onMessage_sent (now : Nat) (msg : SteamMessage) :
    (p.onMessage G appid now msg).sent = p.sent := by
  simp only [onMessage]
  split
  · rfl
  · split
    · split
      · simp only [onGcMessage]
        split
        · rfl
        · split
          · split <;> rfl
          · rfl
      · rfl
    · rfl

/-- The timer announces nothing. -/
theorem onTick_launches (now : Nat) :
    launches (p.onTick G appid helloVersion now).sent = launches p.sent := by
  rcases onTick_cases (G := G) (p := p) now with ⟨hsent, -⟩ | ⟨hsent, -⟩
  · rw [hsent]
  · rw [hsent, launches_append]
    rfl

end Pump

namespace Attached

/-- Everything that was sent on behalf of a coordinator: the announcement that `attach` makes
itself, of which `announced` says whether it was written, and what the pump sends. -/
def sends (G : GcProst) (appid helloVersion : UInt32) (announced : Bool) (s : Attached) :
    List (UInt32 × Bytes) :=
  launch G appid helloVersion announced ++ s.pump.sent

/-- The step receives a report that the GC has no session. -/
def Reported (G : GcProst) (appid : UInt32) (s : Attached) : AttachedMove → Prop
  | .pump (.received _) => (messages s.past).length ≤ s.pump.next + eventCapacity ∧
      ∃ msg, (messages s.past)[s.pump.next]? = some msg ∧ readiness? G appid msg = some .lost
  | _ => False

/-- The step answers a state of the session: it takes one, or it announces the app, or it
takes readiness away without a report from the GC. -/
def Heeds (G : GcProst) (appid : UInt32) (s : Attached) (m : AttachedMove) (s' : Attached) :
    Prop :=
  s'.pump.seen ≠ s.pump.seen ∨ launches s'.pump.sent ≠ launches s.pump.sent ∨
    (s.pump.ready ∧ s'.pump.ready = false ∧ ¬ Reported G appid s m)

variable {G : GcProst} {appid helloVersion : UInt32} {s s' : Attached} {m : AttachedMove}

/-- A move that reads no state, announces no launch and forgets no readiness heeds no logon. -/
theorem not_heeds (hseen : s'.pump.seen = s.pump.seen)
    (hsent : launches s'.pump.sent = launches s.pump.sent)
    (hready : s.pump.ready → s'.pump.ready ∨ Reported G appid s m) : ¬ Heeds G appid s m s' := by
  rintro (hne | hne | ⟨htrue, hfalse, hnot⟩)
  · exact hne hseen
  · exact hne hsent
  · rcases hready htrue with hready | hreport
    · exact absurd (hready.symm.trans hfalse) (by decide)
    · exact hnot hreport

/-- The pump heeds only states that it has not seen. -/
theorem step_heeds (hstep : s.step G appid helloVersion m = some s') :
    (Heeds G appid s m s' → s.pump.seen < (states s.past).length) ∧
      s.pump.seen ≤ s'.pump.seen := by
  cases m with
  | driver e =>
      obtain rfl := Option.some.inj hstep
      exact ⟨(absurd · (not_heeds rfl rfl .inl)), Nat.le_refl _⟩
  | pump i =>
      obtain ⟨p, hp, rfl⟩ := Option.map_eq_some_iff.mp hstep
      cases i with
      | closed =>
          cases Pump.step_steps hp
          exact ⟨(absurd · (not_heeds rfl rfl .inl)), Nat.le_refl _⟩
      | changed now announced =>
          cases Pump.step_steps hp with
          | changed hlt =>
              have hseen := (@Pump.onChanged_spec G appid helloVersion
                { s.pump with seen := (states s.past).length } now announced
                (states s.past).getLast?).seen
              exact ⟨fun _ => hlt, hseen ▸ Nat.le_of_lt hlt⟩
          | ended => exact ⟨(absurd · (not_heeds rfl rfl .inl)), Nat.le_refl _⟩
      | tick now =>
          cases Pump.step_steps hp
          have hkeeps := @Pump.onTick_keeps G appid helloVersion s.pump now
          have hlaunch := @Pump.onTick_launches G appid helloVersion s.pump now
          refine ⟨(absurd · (not_heeds hkeeps.seen hlaunch fun hready => ?_)),
            Nat.le_of_eq hkeeps.seen.symm⟩
          exact .inl (hkeeps.ready.trans hready)
      | received now =>
          rcases Pump.step_received hp with rfl | ⟨hkeeps, msg, hmsg, rfl⟩
          · exact ⟨(absurd · (not_heeds rfl rfl .inl)), Nat.le_refl _⟩
          have hspec := @Pump.onMessage_spec G appid { s.pump with next := s.pump.next + 1 } now msg
          have hsent := @Pump.onMessage_sent G appid { s.pump with next := s.pump.next + 1 } now msg
          have hseen := Pump.onMessage_seen G appid { s.pump with next := s.pump.next + 1 } now msg
          refine ⟨(absurd · (not_heeds hseen (congrArg launches hsent) fun hready => ?_)),
            Nat.le_of_eq hseen.symm⟩
          rcases hev : readiness? G appid msg with _ | (_ | _ | _)
          · rw [hev] at hspec
            exact .inl (hspec.ready.trans hready)
          · rw [hev] at hspec
            exact .inl hspec.ready
          · exact .inr ⟨hkeeps, msg, hmsg, hev⟩
          · exact absurd hev (readiness?_ne_published G appid msg)

/-- The session's states only become more. -/
theorem step_states (hstep : s.step G appid helloVersion m = some s') :
    (states s.past).length ≤ (states s'.past).length := by
  cases m with
  | driver e =>
      obtain rfl := Option.some.inj hstep
      simp [states]
  | pump i =>
      obtain ⟨p, -, rfl⟩ := Option.map_eq_some_iff.mp hstep
      exact Nat.le_refl _

/-- With no state but the first, and that one seen, nothing is heeded. -/
theorem not_heeds_of_states (hstep : s.step G appid helloVersion m = some s')
    (hseen : 1 ≤ s.pump.seen) (hstates : (states s'.past).length ≤ 1) :
    ¬ Heeds G appid s m s' := by
  intro hheeds
  have hlt := (step_heeds hstep).1 hheeds
  have hmono := step_states hstep
  omega

/-- A pump has seen the state it started with. -/
theorem exec_seen {now : Nat} {past : List Effect} {ms : List AttachedMove}
    (hrun : Ledger.exec (Attached.step G appid helloVersion) (.start now past) ms = some s) :
    1 ≤ s.pump.seen :=
  Ledger.exec_invariant (I := fun v => 1 ≤ v.pump.seen)
    (fun _ _ _ hv hstep => Nat.le_trans hv (step_heeds hstep).2) hrun (Nat.le_refl _)

/-- What a coordinator promises from the moment at which it is attached. -/
structure HeedsLater (G : GcProst) (appid helloVersion : UInt32) (now : Nat)
    (past : List Effect) : Prop where
  /-- What it heeds was published after the attach, and it had not seen it before. -/
  later : ∀ ms s m s', Ledger.exec (Attached.step G appid helloVersion) (.start now past) ms =
      some s → s.step G appid helloVersion m = some s' → Heeds G appid s m s' →
    ∃ k, (states past).length ≤ k ∧ s.pump.seen ≤ k ∧ k < (states s.past).length
  /-- While nothing is published, the app is announced once. -/
  once : ∀ announced ms s, Ledger.exec (Attached.step G appid helloVersion) (.start now past) ms =
      some s → (states s.past).length = (states past).length →
    launches (s.sends G appid helloVersion announced) = 1
  /-- While nothing is published, readiness stays until the GC reports that it has no
  session. -/
  stays : ∀ ms s ms' s', Ledger.exec (Attached.step G appid helloVersion) (.start now past) ms =
      some s → Ledger.exec (Attached.step G appid helloVersion) s ms' = some s' →
    (states s'.past).length = (states past).length →
    Ledger.Guarded (Attached.step G appid helloVersion) (fun v m => ¬ Reported G appid v m) s ms' →
    s.pump.ready → s'.pump.ready

variable {now : Nat} {past : List Effect}

/-- A coordinator that is attached before any other state is published keeps its promise. -/
theorem heedsLater_of_fresh (hfresh : (states past).length = 1) :
    HeedsLater G appid helloVersion now past := by
  refine ⟨?_, ?_, ?_⟩
  · intro ms s m s' hrun hstep hheeds
    exact ⟨s.pump.seen, hfresh ▸ exec_seen hrun, Nat.le_refl _, (step_heeds hstep).1 hheeds⟩
  · intro announced ms s hrun hnone
    have hinv : 1 ≤ s.pump.seen ∧ ((states s.past).length ≤ 1 → launches s.pump.sent = 0) := by
      refine Ledger.exec_invariant (I := fun v : Attached =>
        1 ≤ v.pump.seen ∧ ((states v.past).length ≤ 1 → launches v.pump.sent = 0)) ?_ hrun
        ⟨Nat.le_refl _, fun _ => rfl⟩
      rintro v m v' ⟨hseen, hzero⟩ hstep
      refine ⟨Nat.le_trans hseen (step_heeds hstep).2, fun hstates => ?_⟩
      have hnot := not_heeds_of_states hstep hseen hstates
      have hsame : launches v'.pump.sent = launches v.pump.sent := by
        by_contra hne
        exact hnot (.inr (.inl hne))
      rw [hsame]
      exact hzero (Nat.le_trans (step_states hstep) hstates)
    rw [sends, launches_append, launches_launch, hinv.2 (by omega)]
  · intro ms s ms' s' hrun hrun' hnone hguard hready
    have hinv : 1 ≤ s'.pump.seen ∧ ((states s'.past).length ≤ 1 → s'.pump.ready) := by
      refine Ledger.exec_invariant_of_guarded (I := fun v : Attached =>
        1 ≤ v.pump.seen ∧ ((states v.past).length ≤ 1 → v.pump.ready)) ?_ hrun' hguard
        ⟨exec_seen hrun, fun _ => hready⟩
      rintro v m v' ⟨hseen, hkept⟩ hsilent hstep
      refine ⟨Nat.le_trans hseen (step_heeds hstep).2, fun hstates => ?_⟩
      have hnot := not_heeds_of_states hstep hseen hstates
      have hv := hkept (Nat.le_trans (step_states hstep) hstates)
      by_contra hlost
      exact hnot (.inr (.inr ⟨hv, Bool.not_eq_true _ ▸ hlost, hsilent⟩))
    exact hinv.2 (by omega)

/-- A coordinator that is attached later takes a state that was published before it. -/
theorem fresh_of_heedsLater (hspawned : states past ≠ [])
    (h : HeedsLater G appid helloVersion now past) : (states past).length = 1 := by
  have hpos : 0 < (states past).length := List.length_pos_iff.mpr hspawned
  by_contra hne
  have hlt : 1 < (states past).length := by omega
  have hstep : (Attached.start now past).step G appid helloVersion (.pump (.changed now true)) =
      some ⟨past, ({ Pump.attach now past with seen := (states past).length }.onChanged G appid
        helloVersion now true (states past).getLast?)⟩ := by
    simp [Attached.step, Attached.start, Pump.step, Pump.attach, Channel.changed, hlt]
  have hseen := (@Pump.onChanged_spec G appid helloVersion
    { Pump.attach now past with seen := (states past).length } now true
    (states past).getLast?).seen
  obtain ⟨k, hk, -, hk'⟩ := h.later [] _ _ _ (Ledger.exec_nil _) hstep
    (.inl fun hsame => hne (hseen.symm.trans hsame))
  exact absurd hk' (Nat.not_lt.mpr hk)

end Attached

/-- **Only later states are heeded.** Whenever a coordinator is attached to a session that has
been spawned, in every run from there: it takes readiness away and announces the app anew
only in answer to a state that is published after the attach; exactly if at the attach the
session has published nothing but the state it was spawned with. -/
theorem attach_heeds_later_states {G : GcProst} {appid helloVersion : UInt32} {now : Nat}
    {past : List Effect} (hspawned : states past ≠ []) :
    Attached.HeedsLater G appid helloVersion now past ↔ (states past).length = 1 :=
  ⟨Attached.fresh_of_heedsLater hspawned, Attached.heedsLater_of_fresh⟩

namespace Sample

/-- The session that was dropped, logged on again. -/
def reconnected : SessionDriver :=
  (Ledger.exec (SessionDriver.step prost) dropped
    [.wake, .attempt 9 (.ok [item logonFrame])]).get (by decide)

/-- That session, welcomed by the GC once more. -/
def welcomedAgain : SessionDriver :=
  (Ledger.exec (SessionDriver.step prost) reconnected [.poll, .item 10 welcome]).get (by decide)

/-- What the session does after it was logged on again. -/
def since : List Effect := welcomedAgain.log.drop reconnected.log.length

end Sample

/-- A coordinator that is attached to a fresh session announces the app once. -/
theorem attach_heeds_later_states_fresh :
    Attached.HeedsLater Sample.gcProst 730 0 5 Sample.session.log :=
  (attach_heeds_later_states (by decide)).mpr (by decide)

/-- A coordinator is attached to a session that has reconnected, and is welcomed. Nothing is
published after that; still it becomes not ready, and the app is announced a second time. -/
theorem attach_after_reconnect_relaunches :
    Sample.welcomedAgain.Reachable Sample.prost ∧
    ∃ s s', Ledger.exec (Attached.step Sample.gcProst 730 0) (.start 9 Sample.reconnected.log)
        (Sample.since.map .driver ++ [.pump (.received 11)]) = some s ∧
      s.step Sample.gcProst 730 0 (.pump (.changed 12 true)) = some s' ∧
      s'.past = Sample.welcomedAgain.log ∧ states s'.past = states Sample.reconnected.log ∧
      s.pump.ready = true ∧ s'.pump.ready = false ∧
      launches (s'.sends Sample.gcProst 730 0 true) = 2 := by
  refine ⟨(reachable_dropped.run (Option.some_get _).symm).run (Option.some_get _).symm, _, _,
    (Option.some_get (show Option.isSome _ by decide)).symm,
    (Option.some_get (show Option.isSome _ by decide)).symm, ?_⟩
  decide

end Steamroids
