import Steamroids.Coordinator

/-!
# Readiness of a Game Coordinator

What the pump of a coordinator should report follows from what the session publishes, in the
order in which it publishes it: the GC is ready if the last thing that bears on it is a
welcome. But messages and states reach the pump through two channels, and it takes them in
any order. A welcome that it takes after a state that was published later makes it ready on a
session that is down (`stale_welcome_readies`).

`Attached` is the session's ledger with a pump beside it. The results are about the runs in
which the pump does not take a welcome and a state out of order, and does not lose messages
that bear on readiness by lagging (`TakesInOrder`).

## Main results

* `Predicts.step`, `Predicts.run`: what the pump has not taken yet brings it where it should
  be.
* `readiness_follows_last_event`: with everything taken, it is where it should be.
* `Reachable.hushed`: while the session is reported as reconnecting, nothing is broadcast.
-/

namespace Steamroids

/-! ### The session and the pump -/

/-- The ledger of the session, and a pump that was attached to it. -/
structure Attached where
  past : List Effect
  pump : Pump
  deriving DecidableEq

/-- The driver does something, or the pump goes through its loop. -/
inductive AttachedMove
  | driver (e : Effect)
  | pump (i : PumpInput)
  deriving DecidableEq

namespace Attached

/-- A pump is attached when the ledger is at `past`. -/
def start (now : Nat) (past : List Effect) : Attached := ⟨past, .attach now past⟩

/-- One move. -/
def step (G : GcProst) (appid helloVersion : UInt32) (s : Attached) :
    AttachedMove → Option Attached
  | .driver e => some { s with past := s.past ++ [e] }
  | .pump i => (s.pump.step G appid helloVersion s.past i).map fun p => { s with pump := p }

/-- The pump has taken everything that was published to it. -/
def Quiescent (s : Attached) : Prop :=
  s.pump.next = (messages s.past).length ∧ s.pump.seen = (states s.past).length

instance (s : Attached) : Decidable s.Quiescent := inferInstanceAs (Decidable (_ ∧ _))

end Attached

/-! ### What bears on readiness -/

/-- What an effect says about readiness. -/
def Effect.gcEvent? (G : GcProst) (appid : UInt32) : Effect → Option GcEvent
  | .broadcast a => readiness? G appid a.msg
  | .published _ => some .published
  | _ => none

/-- The channel through which an effect reaches the pump. -/
def Effect.side? : Effect → Option Channel.Side
  | .broadcast _ => some .left
  | .published _ => some .right
  | _ => none

/-- What bears on readiness in a piece of the ledger. -/
def gcEvents (G : GcProst) (appid : UInt32) (log : List Effect) : List GcEvent :=
  log.filterMap (Effect.gcEvent? G appid)

/-- Readiness as a sequence of events leaves it: the last one counts. -/
def settled (ready : Bool) : List GcEvent → Bool
  | [] => ready
  | e :: es => settled (decide (e = .welcome)) es

/-- Events after events settle what those have left. -/
theorem settled_append (ready : Bool) (es es' : List GcEvent) :
    settled ready (es ++ es') = settled (settled ready es) es' := by
  induction es generalizing ready with
  | nil => rfl
  | cons e es ih => exact ih _

/-- Without a welcome nothing becomes ready. -/
theorem settled_false {es : List GcEvent} (h : .welcome ∉ es) : settled false es = false := by
  induction es with
  | nil => rfl
  | cons e es ih =>
      have hne : e ≠ .welcome := fun he => h (by simp [he])
      rw [settled, decide_eq_false hne]
      exact ih fun hmem => h (List.mem_cons_of_mem e hmem)

/-- The last event is a welcome exactly if it leaves readiness. -/
theorem settled_iff (es : List GcEvent) : settled false es ↔ es.getLast? = some .welcome := by
  induction es using List.reverseRecOn with
  | nil => simp [settled]
  | append_singleton es e _ => simp [settled_append, settled]

/-- If no welcome precedes a publication, the publications may be taken first. -/
theorem settled_published {es : List GcEvent} (ready : Bool) (hmem : .published ∈ es)
    (h : ∀ pre post, es = pre ++ .published :: post → .welcome ∉ pre) :
    settled ready es = settled false (es.filter (· ≠ .published)) := by
  induction es generalizing ready with
  | nil => cases hmem
  | cons e es ih =>
      have hrest : ∀ pre post, es = pre ++ .published :: post → .welcome ∉ pre := by
        intro pre post hes hw
        exact h (e :: pre) post (by rw [hes]; rfl) (List.mem_cons_of_mem e hw)
      cases e with
      | welcome =>
          have hmem' : .published ∈ es := by simpa using hmem
          obtain ⟨pre, post, hes⟩ := List.append_of_mem hmem'
          exact absurd List.mem_cons_self (h (.welcome :: pre) post (by rw [hes]; rfl))
      | lost =>
          have hmem' : .published ∈ es := by simpa using hmem
          simpa [settled] using ih false hmem' hrest
      | published =>
          by_cases hmem' : .published ∈ es
          · simpa [settled] using ih false hmem' hrest
          · have hself : es.filter (· ≠ .published) = es := by
              refine List.filter_eq_self.mpr fun e he => ?_
              simpa using fun hp : e = .published => hmem' (hp ▸ he)
            rw [List.filter_cons_of_neg (by simp), hself]
            rfl

/-- What a message says may be taken before the publications in front of it, unless it is a
welcome. -/
theorem settled_message {pre post : List GcEvent} {ev : Option GcEvent} (ready : Bool)
    (hpre : ∀ e ∈ pre, e = .published) (hev : ev ≠ some .published)
    (hord : ev = some .welcome → pre = []) :
    settled ready (pre ++ (ev.toList ++ post)) =
      settled (settled ready ev.toList) (pre ++ post) := by
  rcases ev with _ | (_ | _ | _)
  · rfl
  · rw [hord rfl]
    rfl
  · have hnone : .welcome ∉ pre := fun hmem => by cases hpre _ hmem
    have hlost : settled ready [GcEvent.lost] = false := rfl
    simp only [Option.toList_some, settled_append, hlost, settled_false hnone]
    rfl
  · exact absurd rfl hev

/-! ### What the pump has not taken -/

/-- The messages are those of the broadcasts, in order. -/
theorem exists_broadcasts (log : List Effect) :
    ∃ as : List Arrival, Channel.through Effect.side? .left log = as.map .broadcast ∧
      messages log = as.map (·.msg) := by
  induction log with
  | nil => exact ⟨[], rfl, rfl⟩
  | cons e log ih =>
      obtain ⟨as, hthrough, hmsgs⟩ := ih
      cases e with
      | broadcast a => exact ⟨a :: as, congrArg _ hthrough, congrArg _ hmsgs⟩
      | _ => exact ⟨as, hthrough, hmsgs⟩

/-- The messages are what has come through the channel of the broadcasts. -/
theorem length_messages (log : List Effect) :
    (messages log).length = (Channel.through Effect.side? .left log).length := by
  obtain ⟨as, hthrough, hmsgs⟩ := exists_broadcasts log
  rw [hthrough, hmsgs, List.length_map, List.length_map]

/-- The states are what has come through the channel of the published states. -/
theorem length_states (log : List Effect) :
    (states log).length = (Channel.through Effect.side? .right log).length := by
  induction log with
  | nil => rfl
  | cons e log ih =>
      cases e with
      | published st => exact congrArg (· + 1) ih
      | _ => exact ih

/-- The effect that broadcasts a message. -/
theorem gcEvent?_of_messages {log : List Effect} {n : Nat} {x : Effect}
    (hx : (Channel.through Effect.side? .left log)[n]? = some x) :
    ∃ msg, (messages log)[n]? = some msg ∧
      ∀ G appid, x.gcEvent? G appid = readiness? G appid msg := by
  obtain ⟨as, hthrough, hmsgs⟩ := exists_broadcasts log
  rw [hthrough, List.getElem?_map] at hx
  obtain ⟨a, ha, rfl⟩ := Option.map_eq_some_iff.mp hx
  exact ⟨a.msg, by rw [hmsgs, List.getElem?_map, ha]; rfl, fun _ _ => rfl⟩

/-- No message counts as a published state. -/
theorem readiness?_ne_published (G : GcProst) (appid : UInt32) (msg : SteamMessage) :
    readiness? G appid msg ≠ some .published := by
  simp only [readiness?, GcMessage.readiness?]
  split
  · split
    · split
      · split
        · simp
        · split <;> simp
      · simp
    · simp
  · simp

variable {G : GcProst} {appid helloVersion : UInt32}

/-- A published state is an event. -/
theorem gcEvent?_of_right {x : Effect} (h : x.side? = some .right) :
    x.gcEvent? G appid = some .published := by
  cases x <;> first | rfl | cases h

/-- What comes through the right channel is what says that a state was published. -/
theorem gcEvents_filter (log : List Effect) :
    gcEvents G appid (log.filter fun e => e.side? ≠ some .right) =
      (gcEvents G appid log).filter (· ≠ .published) := by
  induction log with
  | nil => rfl
  | cons e log ih =>
      cases e with
      | broadcast a =>
          have hne := readiness?_ne_published G appid a.msg
          rcases hev : readiness? G appid a.msg with _ | ev
          · simpa [gcEvents, Effect.side?, Effect.gcEvent?, hev] using ih
          · have hpub : ev ≠ .published := fun h => hne (by rw [hev, h])
            simpa [gcEvents, Effect.side?, Effect.gcEvent?, hev, hpub] using ih
      | _ => exact ih

namespace Attached

/-- What bears on readiness and has not been taken, in the order of the ledger. -/
def unread (G : GcProst) (appid : UInt32) (s : Attached) : List GcEvent :=
  gcEvents G appid (Channel.unread Effect.side? s.pump.next s.pump.seen s.past)

/-- The pump takes states and welcomes in the order in which they were published, and when it
lags it loses nothing that bears on readiness. -/
def TakesInOrder (G : GcProst) (appid : UInt32) (s : Attached) : AttachedMove → Prop
  | .pump (.changed _ _) => ∀ pre post, s.unread G appid = pre ++ .published :: post →
      .welcome ∉ pre
  | .pump (.received _) =>
      (∀ msg, (messages s.past)[s.pump.next]? = some msg →
        readiness? G appid msg = some .welcome → (s.unread G appid).head? ≠ some .published) ∧
      ∀ j msg, s.pump.next ≤ j → j + eventCapacity < (messages s.past).length →
        (messages s.past)[j]? = some msg → readiness? G appid msg = none
  | _ => True

/-- What has not been taken brings the pump where it should be. -/
structure Predicts (G : GcProst) (appid : UInt32) (start : Nat) (s : Attached) : Prop where
  start_le : start ≤ s.past.length
  next_le : s.pump.next ≤ (messages s.past).length
  seen_le : s.pump.seen ≤ (states s.past).length
  readyOut : s.pump.readyOut = s.pump.ready
  agrees : settled false (gcEvents G appid (s.past.drop start)) =
    settled s.pump.ready (s.unread G appid)

variable {start : Nat} {s s' : Attached}

/-- The events of two stretches follow one another. -/
theorem gcEvents_append (log log' : List Effect) :
    gcEvents G appid (log ++ log') = gcEvents G appid log ++ gcEvents G appid log' :=
  List.filterMap_append

/-- The event of an entry comes first. -/
theorem gcEvents_cons (x : Effect) (log : List Effect) :
    gcEvents G appid (x :: log) = (x.gcEvent? G appid).toList ++ gcEvents G appid log := by
  rcases h : x.gcEvent? G appid with _ | ev <;> simp [gcEvents, h]

/-- The driver goes on. -/
theorem Predicts.driver (h : Predicts G appid start s) (e : Effect) :
    Predicts G appid start { s with past := s.past ++ [e] } := by
  have hmsgs : messages s.past <+: messages (s.past ++ [e]) :=
    ⟨messages [e], List.filterMap_append.symm⟩
  have hstates : states s.past <+: states (s.past ++ [e]) :=
    ⟨states [e], List.filterMap_append.symm⟩
  refine ⟨?_, Nat.le_trans h.next_le hmsgs.length_le, Nat.le_trans h.seen_le hstates.length_le,
    h.readyOut, ?_⟩
  · rw [List.length_append]
    exact Nat.le_add_right_of_le h.start_le
  · have hnew : Attached.unread G appid { s with past := s.past ++ [e] } =
        s.unread G appid ++ gcEvents G appid [e] := by
      have hnext : s.pump.next ≤ (Channel.through Effect.side? .left s.past).length :=
        length_messages s.past ▸ h.next_le
      have hseen : s.pump.seen ≤ (Channel.through Effect.side? .right s.past).length :=
        length_states s.past ▸ h.seen_le
      simp only [Attached.unread, Channel.unread_append_singleton hnext hseen, gcEvents_append]
      congr 1
      cases e <;> rfl
    rw [List.drop_append_of_le_length h.start_le, gcEvents_append, settled_append, h.agrees, hnew,
      settled_append]

/-- The pump does something else. -/
theorem Predicts.keeps {p : Pump} (h : Predicts G appid start s) (hp : Pump.Keeps s.pump p) :
    Predicts G appid start { s with pump := p } := by
  obtain ⟨hready, hout, hnext, hseen⟩ := hp
  have hunread : Attached.unread G appid { s with pump := p } = s.unread G appid := by
    rw [Attached.unread, Attached.unread, hnext, hseen]
  refine ⟨h.start_le, by rw [hnext]; exact h.next_le, by rw [hseen]; exact h.seen_le, ?_, ?_⟩
  · rw [hout, hready, h.readyOut]
  · rw [hunread, hready, h.agrees]

/-- The pump reads a message. -/
theorem Predicts.value {msg : SteamMessage} {p : Pump} (h : Predicts G appid start s)
    (hmsg : (messages s.past)[s.pump.next]? = some msg)
    (hord : readiness? G appid msg = some .welcome →
      (s.unread G appid).head? ≠ some .published)
    (hp : Pump.Keeps ({ s.pump with next := s.pump.next + 1 }.settle (readiness? G appid msg)) p) :
    Predicts G appid start { s with pump := p } := by
  have hlt : s.pump.next < (messages s.past).length := (List.getElem?_eq_some_iff.mp hmsg).1
  obtain ⟨hready, hout, hnext, hseen⟩ :
      p.ready = settled s.pump.ready (readiness? G appid msg).toList ∧
      p.readyOut = settled s.pump.readyOut (readiness? G appid msg).toList ∧
      p.next = s.pump.next + 1 ∧ p.seen = s.pump.seen := by
    obtain ⟨hready, hout, hnext, hseen⟩ := hp
    rw [hready, hout, hnext, hseen]
    rcases readiness? G appid msg with _ | ev <;> exact ⟨rfl, rfl, rfl, rfl⟩
  obtain ⟨pre, x, post, hbefore, hpre, hx, hafter⟩ :=
    @Channel.unread_next _ Effect.side? s.pump.next s.pump.seen s.past
      (length_messages s.past ▸ hlt)
  obtain ⟨msg', hmsg', hev⟩ := gcEvent?_of_messages hx
  obtain rfl : msg = msg' := Option.some.inj (hmsg.symm.trans hmsg')
  have hunread : s.unread G appid =
      gcEvents G appid pre ++ ((readiness? G appid msg).toList ++ gcEvents G appid post) := by
    rw [Attached.unread, hbefore, gcEvents_append, gcEvents_cons, hev]
  have hunread' : Attached.unread G appid { s with pump := p } =
      gcEvents G appid pre ++ gcEvents G appid post := by
    rw [Attached.unread, hnext, hseen, hafter, gcEvents_append]
  have hpublished : ∀ e ∈ gcEvents G appid pre, e = .published := by
    intro e he
    obtain ⟨y, hy, hye⟩ := List.mem_filterMap.mp he
    exact Option.some.inj (hye.symm.trans (gcEvent?_of_right (hpre y hy)))
  refine ⟨h.start_le, by rw [hnext]; exact hlt, by rw [hseen]; exact h.seen_le, ?_, ?_⟩
  · rw [hout, hready, h.readyOut]
  · rw [h.agrees, hunread, hunread', hready]
    refine settled_message _ hpublished (readiness?_ne_published G appid msg) fun hwelcome => ?_
    rcases hcases : gcEvents G appid pre with _ | ⟨e, es⟩
    · rfl
    · refine absurd ?_ (hord hwelcome)
      rw [hunread, hcases, hpublished e (by rw [hcases]; exact List.mem_cons_self)]
      rfl

/-- The pump sees the newest state. -/
theorem Predicts.changed {p : Pump} (h : Predicts G appid start s)
    (hlt : s.pump.seen < (states s.past).length)
    (hord : ∀ pre post, s.unread G appid = pre ++ .published :: post → .welcome ∉ pre)
    (hp : Pump.Keeps
      { s.pump with seen := (states s.past).length, ready := false, readyOut := false } p) :
    Predicts G appid start { s with pump := p } := by
  obtain ⟨hready, hout, hnext, hseen⟩ := hp
  have hunread' : Attached.unread G appid { s with pump := p } =
      (s.unread G appid).filter (· ≠ .published) := by
    have hall := @Channel.unread_all _ Effect.side? s.pump.next s.pump.seen (states s.past).length
      s.past (Nat.le_of_eq (length_states s.past).symm)
    rw [Attached.unread, hnext, hseen, hall, gcEvents_filter]
    rfl
  have hmem : .published ∈ s.unread G appid := by
    obtain ⟨x, hx, hright⟩ := @Channel.exists_unread _ Effect.side? s.pump.next s.pump.seen s.past
      (length_states s.past ▸ hlt)
    exact List.mem_filterMap.mpr ⟨x, hx, gcEvent?_of_right hright⟩
  refine ⟨h.start_le, by rw [hnext]; exact h.next_le, by rw [hseen], by rw [hout, hready], ?_⟩
  rw [h.agrees, hunread', hready]
  exact settled_published _ hmem hord

/-- The pump is told that it lags. -/
theorem Predicts.lagged (h : Predicts G appid start s)
    (hlag : s.pump.next + eventCapacity < (messages s.past).length)
    (hnone : ∀ j msg, s.pump.next ≤ j → j + eventCapacity < (messages s.past).length →
      (messages s.past)[j]? = some msg → readiness? G appid msg = none) :
    Predicts G appid start
      { s with pump := { s.pump with next := (messages s.past).length - eventCapacity } } := by
  have hskip : s.pump.next + ((messages s.past).length - eventCapacity - s.pump.next) =
      (messages s.past).length - eventCapacity := by omega
  refine ⟨h.start_le, Nat.sub_le _ _, h.seen_le, h.readyOut, ?_⟩
  rw [h.agrees]
  refine congrArg (settled s.pump.ready) ?_
  have hsame := @Channel.unread_skip _ Effect.side? s.pump.next s.pump.seen s.past _
    (Effect.gcEvent? G appid) ((messages s.past).length - eventCapacity - s.pump.next) ?_ ?_
  · rw [hskip] at hsame
    exact hsame.symm
  · rw [← length_messages]
    omega
  · intro j x hj hlt hx
    obtain ⟨msg, hmsg, hev⟩ := gcEvent?_of_messages hx
    rw [hev]
    exact hnone j msg hj (by omega) hmsg

/-- A pump that takes things in order stays on its way to where it should be. -/
theorem Predicts.step {m : AttachedMove} (h : Predicts G appid start s)
    (hord : TakesInOrder G appid s m) (hstep : s.step G appid helloVersion m = some s') :
    Predicts G appid start s' := by
  cases m with
  | driver e =>
      obtain rfl := Option.some.inj hstep
      exact h.driver e
  | pump i =>
      obtain ⟨p, hp, rfl⟩ := Option.map_eq_some_iff.mp hstep
      cases Pump.step_steps hp with
      | closed => exact h.keeps ⟨rfl, rfl, rfl, rfl⟩
      | ended => exact h.keeps ⟨rfl, rfl, rfl, rfl⟩
      | tick => exact h.keeps (Pump.onTick_keeps _)
      | @changed now announced hlt =>
          have hspec := @Pump.onChanged_spec G appid helloVersion
            { s.pump with seen := (states s.past).length } now announced (states s.past).getLast?
          exact h.changed hlt hord ⟨hspec.ready, hspec.readyOut, hspec.next, hspec.seen⟩
      | value hmsg => exact h.value hmsg (hord.1 _ hmsg) (Pump.onMessage_spec _ _)
      | lagged hlag => exact h.lagged hlag hord.2

/-- It does so over every run. -/
theorem Predicts.run {ms : List AttachedMove} (h : Predicts G appid start s)
    (hrun : Ledger.exec (Attached.step G appid helloVersion) s ms = some s')
    (hord : Ledger.Guarded (Attached.step G appid helloVersion) (TakesInOrder G appid) s ms) :
    Predicts G appid start s' :=
  Ledger.exec_invariant_of_guarded (fun _ _ _ hs hcond hstep => hs.step hcond hstep) hrun hord h

/-- A pump attached to a session starts where it should be: all that it has not taken are states
that were published before. -/
theorem predicts_start (now : Nat) {past : List Effect} (h : states past ≠ []) :
    Predicts G appid past.length (Attached.start now past) := by
  refine ⟨Nat.le_refl _, Nat.le_refl _, List.length_pos_iff.mpr h, rfl, ?_⟩
  have hstates : .welcome ∉ (Attached.start now past).unread G appid := by
    intro hmem
    obtain ⟨x, hx, hwelcome⟩ := List.mem_filterMap.mp hmem
    have hright := Channel.right_of_unread (Nat.le_of_eq (length_messages past).symm) hx
    rw [gcEvent?_of_right hright] at hwelcome
    cases hwelcome
  have hready : (Attached.start now past).pump.ready = false := rfl
  rw [hready, settled_false hstates]
  simp [Attached.start, gcEvents, settled]

/-- With everything taken, the pump is where it should be. -/
theorem Predicts.quiescent (h : Predicts G appid start s) (hquiet : s.Quiescent) :
    s.pump.readyOut ↔ (gcEvents G appid (s.past.drop start)).getLast? = some .welcome := by
  have hnone : Channel.unread Effect.side? s.pump.next s.pump.seen s.past = [] :=
    Channel.unread_of_le (by rw [hquiet.1, length_messages]) (by rw [hquiet.2, length_states])
  have hunread : s.unread G appid = [] := congrArg (gcEvents G appid) hnone
  rw [← settled_iff, h.agrees, hunread, h.readyOut]
  rfl

end Attached

/-! ### A session that is down -/

namespace SessionDriver

variable {P : Prost} {d d' : SessionDriver}

/-- A message is not broadcast while the session is published as reconnecting. -/
def Heard (pre : List Effect) (x : Effect) : Prop :=
  ∀ a, x = .broadcast a → (shared pre).state ≠ some .connecting

/-- A driver that has published that it reconnects has left the loop, with nothing to
dispatch. -/
structure Hushed (d : SessionDriver) : Prop where
  caching : Caching d
  down : d.state = .connecting → d.inbox = [] ∧ ∀ l, d.phase ≠ .connected l
  heard : Ledger.Justified Heard d.log

/-- An act that broadcasts nothing. -/
theorem Hushed.extend (h : Hushed d) {es : List Effect} (hcache : Caching d')
    (hlog : d'.log = d.log ++ es) (hes : ∀ a, .broadcast a ∉ es)
    (hdown : d'.state = .connecting → d'.inbox = [] ∧ ∀ l, d'.phase ≠ .connected l) :
    Hushed d' := by
  refine ⟨hcache, hdown, ?_⟩
  rw [hlog]
  refine Ledger.justified_append.mpr ⟨h.heard, ?_⟩
  rintro pre _ post rfl a rfl
  exact absurd (by simp) (hes a)

/-- **Step lemma.** A driver that reconnects broadcasts nothing, in every act. -/
theorem Hushed.act (hact : Act P d d') (h : Hushed d) : Hushed d' := by
  have hcache := h.caching.act hact
  have hup : ∀ {l}, d.phase = .connected l → d.state ≠ .connecting :=
    fun hph hst => (h.down hst).2 _ hph
  have hbusy : ∀ {msg rest}, d.inbox = msg :: rest → d.state ≠ .connecting := by
    intro msg rest hin hst
    rw [(h.down hst).1] at hin
    cases hin
  cases hact with
  | abandon ch => exact h.extend hcache (List.append_nil _).symm (by simp) h.down
  | turn l' hph => exact h.extend hcache (List.append_nil _).symm (by simp) (absurd · (hup hph))
  | exit ph hph =>
      exact h.extend hcache (List.append_nil _).symm (by simp) fun hst => ⟨(h.down hst).1, hph⟩
  | receive now hph hin hit => exact h.extend hcache rfl (by simp) (absurd · (hup hph))
  | cut now hph hin hit => exact h.extend hcache rfl (by simp) (absurd · (hup hph))
  | route hin hw => exact h.extend hcache rfl (by simp) (absurd · (hbusy hin))
  | @announce msg rest hin hw =>
      refine ⟨hcache, (absurd · (hbusy hin)), Ledger.justified_append.mpr ⟨h.heard, ?_⟩⟩
      intro pre x post hes a _
      have hnone : ∀ st, .published st ∉ pre := by
        intro st hmem
        have hmem' : .published st ∈ announce (d.arrival msg) := hes ▸ List.mem_append_left _ hmem
        rw [announce] at hmem'
        split at hmem' <;> simp at hmem'
      have hpre : (shared (d.log ++ pre)).state = some d.state := by
        rw [shared_state_append hnone, h.caching.shared]
      rw [hpre]
      simpa using hbusy hin
  | evict ph hph hin hoff hne => exact h.extend hcache rfl (by simp) (absurd · (hup hph))
  | sweep now =>
      refine h.extend hcache rfl ?_ h.down
      intro a ha
      rcases mem_swept ha with ⟨entry, ⟨he, -⟩ | he⟩ <;> cases he
  | failAll reason _ =>
      refine h.extend hcache rfl ?_ h.down
      intro a ha
      obtain ⟨entry, -, he⟩ := List.mem_map.mp ha
      cases he
  | fall hin hph => exact h.extend hcache rfl (by simp) fun _ => ⟨hin, hph⟩
  | dial hph => exact h.extend hcache rfl (by simp) fun hst => ⟨(h.down hst).1, by simp⟩
  | live now hst hpend hin hc => exact h.extend hcache rfl (by simp) (by simp)
  | stop reason => exact h.extend hcache rfl (by simp) (by simp)
  | fail e => exact h.extend hcache rfl (by simp) (by simp)
  | _ => exact h.extend hcache rfl (by simp) h.down

/-- **Run lemma.** Nor does it in any reachable state. -/
theorem Reachable.hushed (h : Reachable P d) : Hushed d := by
  refine h.invariant ?_ fun _ _ hact hd => hd.act hact
  intro now items d₀ h₀
  have hcache := (Reachable.of_spawn h₀).caching
  obtain ⟨c, -, hs⟩ := spawn_spec h₀
  refine ⟨hcache, fun hst => ?_, ?_⟩
  · rw [hs.state] at hst
    cases hst
  · rintro pre _ post hlog a rfl
    have hmem : .broadcast a ∈ d₀.log := by simp [hlog]
    simp [hs.log] at hmem

/-- **While the session is published as reconnecting, nothing has been broadcast or published
since.** -/
theorem Reachable.quiet_since_connecting (hd : Reachable P d) {p : List Effect}
    (hp : p <+: d.log) (hst : (shared p).state = some .connecting) :
    ∃ p₁ p₂, p = p₁ ++ .published .connecting :: p₂ ∧ ∀ x ∈ p₂, x.side? = none := by
  have hheard := hd.hushed.heard.past hp
  clear hp
  induction p using List.reverseRecOn with
  | nil => cases hst
  | append_singleton p x ih =>
      obtain ⟨hbefore, hx⟩ := Ledger.justified_append_singleton.mp hheard
      have hsame : (shared p).state = some .connecting → x.side? = none →
          ∃ p₁ p₂, p ++ [x] = p₁ ++ .published .connecting :: p₂ ∧ ∀ x ∈ p₂, x.side? = none := by
        intro hst hside
        obtain ⟨p₁, p₂, rfl, hnone⟩ := ih hst hbefore
        refine ⟨p₁, p₂ ++ [x], by simp, ?_⟩
        exact List.forall_mem_append.mpr ⟨hnone, List.forall_mem_singleton.mpr hside⟩
      rw [shared_append_singleton] at hst
      cases x with
      | published st =>
          obtain rfl : st = .connecting := Option.some.inj hst
          exact ⟨p, [], rfl, List.forall_mem_nil _⟩
      | broadcast a => exact absurd hst (hx a rfl)
      | _ => exact hsame hst rfl

end SessionDriver

/-! ### Readiness at rest -/

namespace Attached

variable {G : GcProst} {appid helloVersion : UInt32} {s s' : Attached}

/-- The ledger only grows. -/
theorem exec_past {ms : List AttachedMove}
    (h : Ledger.exec (Attached.step G appid helloVersion) s ms = some s') : s.past <+: s'.past := by
  refine Ledger.exec_invariant (I := fun t => s.past <+: t.past) ?_ h List.prefix_rfl
  intro t m t' ht hstep
  cases m with
  | driver e =>
      obtain rfl := Option.some.inj hstep
      exact ht.trans (List.prefix_append _ _)
  | pump i =>
      obtain ⟨p, -, rfl⟩ := Option.map_eq_some_iff.mp hstep
      exact ht

/-- The last thing to bear on readiness, in a session that is down, is no welcome. -/
theorem last_of_connecting {past more : List Effect} {P : Prost} {d : SessionDriver}
    (hd : d.Reachable P) (hlog : past ++ more <+: d.log)
    (hst : (shared (past ++ more)).state = some .connecting) :
    (gcEvents G appid more).getLast? ≠ some .welcome := by
  obtain ⟨p₁, p₂, hsplit, hnone⟩ := hd.quiet_since_connecting hlog hst
  have hquiet : ∀ es, (∀ x ∈ es, x ∈ p₂) → gcEvents G appid es = [] := by
    intro es hes
    refine List.filterMap_eq_nil_iff.mpr fun x hx => ?_
    have hside := hnone x (hes x hx)
    cases x <;> first | rfl | cases hside
  rcases List.append_eq_append_iff.mp hsplit with ⟨r, rfl, rfl⟩ | ⟨r, rfl, hr⟩
  · rw [gcEvents_append, gcEvents_cons, hquiet p₂ fun _ hx => hx, List.append_nil]
    exact fun h => by cases (List.getLast?_concat.symm.trans h)
  · rcases r with _ | ⟨x, r⟩
    · obtain rfl : .published .connecting :: p₂ = more := hr
      rw [gcEvents_cons, hquiet p₂ fun _ hx => hx, List.append_nil]
      exact fun h => by cases h
    · obtain rfl : p₂ = r ++ more := (List.cons.inj hr).2
      rw [hquiet more fun _ hx => List.mem_append_right r hx]
      exact fun h => by cases h

end Attached

/-- **Readiness follows the last event.** In every run of a session with a pump that was
attached to it at any time since its first logon, and that takes things in order: whenever the
pump has taken everything, it reports readiness exactly if the last thing since the attach to bear
on it is a welcome; and so never while the session is down. -/
theorem readiness_follows_last_event {P : Prost} {d : SessionDriver} {G : GcProst}
    {appid helloVersion : UInt32} {now : Nat} {past : List Effect} {s : Attached}
    {ms : List AttachedMove} (hd : d.Reachable P) (hattach : states past ≠ [])
    (hrun : Ledger.exec (Attached.step G appid helloVersion) (.start now past) ms = some s)
    (hlog : s.past <+: d.log)
    (hord : Ledger.Guarded (Attached.step G appid helloVersion) (Attached.TakesInOrder G appid)
      (.start now past) ms)
    (hquiet : s.Quiescent) :
    (s.pump.readyOut ↔
      (gcEvents G appid (s.past.drop past.length)).getLast? = some .welcome) ∧
    ((shared s.past).state = some .connecting → s.pump.readyOut = false) := by
  have hiff := ((Attached.predicts_start now hattach).run hrun hord).quiescent hquiet
  refine ⟨hiff, fun hst => ?_⟩
  obtain ⟨more, hmore⟩ : past <+: s.past := Attached.exec_past hrun
  rw [← hmore] at hlog hst
  rw [← hmore, List.drop_left] at hiff
  exact Bool.eq_false_iff.mpr (mt hiff.mp (Attached.last_of_connecting hd hlog hst))

namespace Sample

/-- Prost on a relay message of app 730 and on small GC messages; nothing is encoded below. -/
def gcProst : GcProst where
  gcClient
    | 0x08 :: 0xda :: 0x05 :: 0x1a :: n :: payload =>
        if payload.length = n.toNat ∧ n < 0x80 then
          .ok { appid := some 730, payload := some payload }
        else .error "buffer underflow"
    | _ => .error "unexpected bytes"
  gcHeader header := if header = [] then .ok {} else .error "unexpected bytes"
  connectionStatus body := (eresult body).map fun status => { status }
  encodeGcClient _ := []
  encodeGcHeader _ := []
  encodeGamesPlayed _ := []
  encodeClientHello _ := []

/-- A welcome from the GC of app 730. -/
def welcome : WsItem :=
  let payload := encodeRaw gcClientWelcome [] []
  item (frame emsgClientFromGc 0
    (0x08 :: 0xda :: 0x05 :: 0x1a :: UInt8.ofNat payload.length :: payload))

/-- A session that is welcomed by the GC. -/
def welcomed : SessionDriver :=
  (Ledger.exec (SessionDriver.step prost) session [.poll, .item 1 welcome]).get (by decide)

/-- That session, after a write failed. -/
def dropped : SessionDriver :=
  (Ledger.exec (SessionDriver.step prost) welcomed
    [.command (some (.notify 742 [] 9)) (some "broken pipe")]).get (by decide)

/-- A pump that was attached to the session before the welcome, which it has not read yet. -/
def attached : Attached := ⟨welcomed.log, .attach 0 session.log⟩

end Sample

/-- The session of the welcome is reachable. -/
theorem reachable_welcomed : Sample.welcomed.Reachable Sample.prost :=
  SessionDriver.reachable_session.run (Option.some_get _).symm

/-- The session of the loss is reachable. -/
theorem reachable_dropped : Sample.dropped.Reachable Sample.prost :=
  reachable_welcomed.run (Option.some_get _).symm

/-- A pump that reads the welcome reports readiness, and the welcome was the last event. -/
theorem readiness_follows_last_event_welcomed :
    ∃ s, Ledger.exec (Attached.step Sample.gcProst 730 0) (.start 0 Sample.session.log)
        ((Sample.welcomed.log.drop 3).map .driver ++ [.pump (.received 5)]) = some s ∧
      s.pump.readyOut = true ∧
      (gcEvents Sample.gcProst 730 (s.past.drop 3)).getLast? = some .welcome := by
  have hrun : Ledger.exec (Attached.step Sample.gcProst 730 0) (.start 0 Sample.session.log)
      ((Sample.welcomed.log.drop 3).map .driver) = some Sample.attached := by decide
  have hord : Ledger.Guarded (Attached.step Sample.gcProst 730 0)
      (Attached.TakesInOrder Sample.gcProst 730) (.start 0 Sample.session.log)
      ((Sample.welcomed.log.drop 3).map .driver ++ [.pump (.received 5)]) := by
    refine Ledger.guarded_append.mpr ⟨Ledger.guarded_of_forall ?_, fun e he => ?_⟩
    · intro m hm s
      obtain ⟨x, -, rfl⟩ := List.mem_map.mp hm
      trivial
    · obtain rfl : Sample.attached = e := Option.some.inj (hrun.symm.trans he)
      have hlen : (messages Sample.attached.past).length = 1 := by decide
      refine ⟨⟨fun _ _ _ => by decide, fun j msg _ hlag _ => ?_⟩, fun _ _ => trivial⟩
      simp only [hlen, eventCapacity] at hlag
      omega
  refine ⟨_, (Option.some_get (show Option.isSome _ by decide)).symm, by decide, ?_⟩
  exact (readiness_follows_last_event reachable_welcomed (by decide)
    (Option.some_get (show Option.isSome _ by decide)).symm (by decide) hord
    (by decide)).1.mp (by decide)

/-- The session is down, the pump has taken everything, the last thing it should have learnt
is that the session is down, and it reports readiness. -/
theorem stale_welcome_readies :
    ∃ s, Ledger.exec (Attached.step Sample.gcProst 730 0) (.start 0 Sample.session.log)
        ((Sample.dropped.log.drop 3).map .driver ++
          [.pump (.changed 5 true), .pump (.received 5)]) = some s ∧
      Sample.dropped.Reachable Sample.prost ∧ s.past = Sample.dropped.log ∧ s.Quiescent ∧
      (shared s.past).state = some .connecting ∧
      (gcEvents Sample.gcProst 730 (s.past.drop 3)).getLast? = some .published ∧
      s.pump.readyOut = true := by
  refine ⟨_, (Option.some_get (show Option.isSome _ by decide)).symm, reachable_dropped, ?_⟩
  decide

end Steamroids
