import Steamroids.Gating

/-!
# The Stream of a Game Coordinator

`GameCoordinator::subscribe` gives the raw stream of the app's GC messages. They have come a long
way: the session broadcasts all messages, the pump picks out those of its app and sends them on
through the coordinator's channel, and either of the two can fall behind and lose some. Other
apps have pumps of their own on the same session.

## Main results

* `gc_stream_delivered`: a subscriber gets messages of its own app only, in order and none twice,
  and if nobody falls behind, all of them.
-/

namespace Steamroids

/-- A session, a pump that was attached to it, and a subscriber of the coordinator. -/
structure GcStream where
  past : List Effect
  pump : Pump
  tap : Channel.Tap GcMessage
  deriving DecidableEq

/-- What can happen. -/
inductive GcStreamMove
  | driver (e : Effect)
  | pump (i : PumpInput)
  | receive
  deriving DecidableEq

namespace GcStream

/-- Somebody subscribes. -/
def subscribe (a : Attached) : GcStream := ⟨a.past, a.pump, ⟨a.pump.relayed.length, []⟩⟩

/-- One move. The coordinator that was subscribed to holds a sender of its channel. -/
def step (G : GcProst) (appid helloVersion : UInt32) (s : GcStream) :
    GcStreamMove → Option GcStream
  | .driver e => some { s with past := s.past ++ [e] }
  | .pump i => (s.pump.step G appid helloVersion s.past i).map fun p => { s with pump := p }
  | .receive =>
      (s.tap.receive gcEventCapacity s.pump.relayed true).map fun t => { s with tap := t }

/-- Neither the pump nor the subscriber has fallen behind when it receives. -/
def KeepsUp (s : GcStream) : GcStreamMove → Prop
  | .pump (.received _) => (messages s.past).length ≤ s.pump.next + eventCapacity
  | .receive => s.pump.relayed.length ≤ s.tap.next + gcEventCapacity
  | _ => True

instance (s : GcStream) (m : GcStreamMove) : Decidable (s.KeepsUp m) := by
  unfold KeepsUp
  split <;> infer_instance

/-! ### The pump as a receiver -/

end GcStream

/-- The pump is a receiver of the session's messages, which sends on those of its app. -/
theorem Pump.step_tap {G : GcProst} {appid helloVersion : UInt32} {p p' : Pump} {log : List Effect}
    {i : PumpInput} (h : p.step G appid helloVersion log i = some p')
    {t : Channel.Tap SteamMessage} (hnext : t.next = p.next) :
    p'.next = p.next ∧ p'.relayed = p.relayed ∨
      ∃ now t' more, i = .received now ∧ t.receive eventCapacity (messages log) true = some t' ∧
        t'.next = p'.next ∧ t'.got = t.got ++ more ∧
        p'.relayed = p.relayed ++ more.filterMap (gcMessage? G appid) := by
  cases i with
  | received now =>
      simp only [step] at h
      split at h
      · obtain ⟨⟨r, next⟩, hr, rfl⟩ := Option.map_eq_some_iff.mp h
        have hreceive := hr
        rw [← hnext] at hreceive
        cases r with
        | value msg =>
            obtain ⟨hrelayed, -⟩ := onMessage_relayed (G := G) (p := { p with next }) now msg
            refine .inr ⟨now, ⟨next, t.got ++ [msg]⟩, [msg], rfl, ?_, ?_, rfl, ?_⟩
            · simp [Channel.Tap.receive, hreceive]
            · exact (onMessage_next (p := { p with next }) now msg).symm
            · rw [hrelayed]
              rcases hmsg : gcMessage? G appid msg with _ | gcMsg <;> simp [hmsg]
        | lagged missed =>
            refine .inr ⟨now, ⟨next, t.got⟩, [], rfl, ?_, rfl, (List.append_nil _).symm,
              (List.append_nil _).symm⟩
            simp [Channel.Tap.receive, hreceive]
        | closed => exact .inl ⟨rfl, rfl⟩
      · cases h
  | changed now announced =>
      cases step_steps h with
      | changed _ =>
          refine .inl ⟨(onChanged_spec (p := { p with seen := _ }) now announced _).next, ?_⟩
          simp only [onChanged]
          split <;> rfl
      | ended => exact .inl ⟨rfl, rfl⟩
  | closed =>
      cases step_steps h with
      | closed => exact .inl ⟨rfl, rfl⟩
  | tick now =>
      cases step_steps h with
      | tick =>
          refine .inl ⟨(onTick_keeps now).next, ?_⟩
          simp only [onTick]
          split <;> rfl

namespace GcStream

variable {G : GcProst} {appid helloVersion : UInt32} {a : Attached} {s s' : GcStream}
  {whole : Prop}

/-! ### What is on its way -/

/-- How the messages have come to the subscriber, with what the pump has received in between. -/
structure Flows (G : GcProst) (appid : UInt32) (whole : Prop) (a : Attached) (s : GcStream)
    (t : Channel.Tap SteamMessage) : Prop where
  next : t.next = s.pump.next
  relayed : s.pump.relayed = a.pump.relayed ++ t.got.filterMap (gcMessage? G appid)
  session : t.Follows whole (messages s.past) a.pump.next
  channel : s.tap.Follows whole s.pump.relayed a.pump.relayed.length

/-- One move. -/
theorem Flows.step {t : Channel.Tap SteamMessage} (h : Flows G appid whole a s t) {m : GcStreamMove}
    (hkeeps : whole → s.KeepsUp m) (hstep : s.step G appid helloVersion m = some s') :
    ∃ t', Flows G appid whole a s' t' := by
  cases m with
  | driver e =>
      obtain rfl := Option.some.inj hstep
      refine ⟨t, h.next, h.relayed, ?_, h.channel⟩
      show t.Follows whole (messages (s.past ++ [e])) _
      rw [messages, List.filterMap_append]
      exact h.session.append _
  | pump i =>
      obtain ⟨p, hp, rfl⟩ := Option.map_eq_some_iff.mp hstep
      rcases Pump.step_tap hp h.next with
        ⟨hnext, hrelayed⟩ | ⟨now, t', more, rfl, hreceive, hnext, hgot, hrelayed⟩
      · refine ⟨t, h.next.trans hnext.symm, hrelayed.trans h.relayed, h.session, ?_⟩
        show s.tap.Follows whole p.relayed _
        rw [hrelayed]
        exact h.channel
      · refine ⟨t', hnext, ?_, h.session.receive ?_ hreceive, ?_⟩
        · show p.relayed = _
          rw [hrelayed, h.relayed, hgot, List.filterMap_append, List.append_assoc]
        · intro hwhole
          rw [h.next]
          exact hkeeps hwhole
        · show s.tap.Follows whole p.relayed _
          rw [hrelayed]
          exact h.channel.append _
  | receive =>
      obtain ⟨tap, htap, rfl⟩ := Option.map_eq_some_iff.mp hstep
      exact ⟨t, h.next, h.relayed, h.session, h.channel.receive hkeeps htap⟩

/-- A subscription begins with what the pump receives next. -/
theorem flows_subscribe (hnext : a.pump.next ≤ (messages a.past).length) :
    Flows G appid whole a (subscribe a) ⟨a.pump.next, []⟩ where
  next := rfl
  relayed := (List.append_nil _).symm
  session :=
    { start_le := Nat.le_refl _
      next_le := hnext
      sublist := List.nil_sublist _
      complete := by simp }
  channel := Channel.Tap.follows_start whole _

/-- **Run lemma.** The flow of the messages goes on through every run. -/
theorem Flows.run {t : Channel.Tap SteamMessage} (h : Flows G appid whole a s t)
    {ms : List GcStreamMove}
    (hrun : Ledger.exec (GcStream.step G appid helloVersion) s ms = some s')
    (hkeeps : whole → Ledger.Guarded (GcStream.step G appid helloVersion) KeepsUp s ms) :
    ∃ t', Flows G appid whole a s' t' := by
  by_cases hwhole : whole
  · refine Ledger.exec_invariant_of_guarded (I := fun s => ∃ t, Flows G appid whole a s t) ?_ hrun
      (hkeeps hwhole) ⟨t, h⟩
    rintro s m s' ⟨t, ht⟩ hkeeps hstep
    exact ht.step (fun _ => hkeeps) hstep
  · refine Ledger.exec_invariant (I := fun s => ∃ t, Flows G appid whole a s t) ?_ hrun ⟨t, h⟩
    rintro s m s' ⟨t, ht⟩ hstep
    exact ht.step (fun h => absurd h hwhole) hstep

/-- A pump has not read more than was broadcast. -/
theorem next_le_of_attached {now : Nat} {past : List Effect} {ms : List AttachedMove}
    (hrun : Ledger.exec (Attached.step G appid helloVersion) (.start now past) ms = some a) :
    a.pump.next ≤ (messages a.past).length := by
  refine Ledger.exec_invariant (I := fun a => a.pump.next ≤ (messages a.past).length) ?_ hrun
    (Nat.le_refl _)
  intro a m a' hle hstep
  cases m with
  | driver e =>
      obtain rfl := Option.some.inj hstep
      rw [messages, List.filterMap_append, List.length_append]
      exact Nat.le_trans hle (Nat.le_add_right _ _)
  | pump i =>
      obtain ⟨p, hp, rfl⟩ := Option.map_eq_some_iff.mp hstep
      have hflows : Flows G appid False a (subscribe a) ⟨a.pump.next, []⟩ := flows_subscribe hle
      obtain ⟨t, ht⟩ := hflows.step (m := .pump i) False.elim
        (Option.map_eq_some_iff.mpr ⟨p, hp, rfl⟩)
      exact ht.next ▸ ht.session.next_le

/-- **Messages are delivered in order.** Of a coordinator that was attached at any time, and
subscribed to at any later one: what the subscriber has got are messages of the app's GC in the
order in which the session has broadcast them, none twice, none of another app, and none that the
pump had passed on before. If neither the pump nor the subscriber falls behind, what it has got,
what is in the coordinator's channel and what the pump has not read yet are together all of them. -/
theorem gc_stream_delivered {now : Nat} {past : List Effect} {ms : List AttachedMove}
    (hattach : Ledger.exec (Attached.step G appid helloVersion) (.start now past) ms = some a)
    {moves : List GcStreamMove}
    (hrun : Ledger.exec (step G appid helloVersion) (subscribe a) moves = some s) :
    s.tap.got.Sublist (((messages s.past).drop a.pump.next).filterMap (gcMessage? G appid)) ∧
    (Ledger.Guarded (step G appid helloVersion) KeepsUp (subscribe a) moves →
      s.tap.got ++ s.pump.relayed.drop s.tap.next ++
          ((messages s.past).drop s.pump.next).filterMap (gcMessage? G appid) =
        ((messages s.past).drop a.pump.next).filterMap (gcMessage? G appid)) := by
  have hnext := next_le_of_attached hattach
  constructor
  · have hstart : Flows G appid False a (subscribe a) ⟨a.pump.next, []⟩ := flows_subscribe hnext
    obtain ⟨t, ht⟩ := hstart.run hrun False.elim
    have hpassed : s.tap.got.Sublist (t.got.filterMap (gcMessage? G appid)) := by
      have hgot := ht.channel.sublist.trans ((List.take_sublist _ _).drop _)
      rwa [ht.relayed, List.drop_left] at hgot
    exact hpassed.trans ((ht.session.sublist.trans ((List.take_sublist _ _).drop _)).filterMap _)
  · intro hkeeps
    have hstart : Flows G appid True a (subscribe a) ⟨a.pump.next, []⟩ := flows_subscribe hnext
    obtain ⟨t, ht⟩ := hstart.run hrun fun _ => hkeeps
    rw [ht.channel.append_drop trivial, ht.relayed, List.drop_left, ← ht.next,
      ← List.filterMap_append, ht.session.append_drop trivial]

end GcStream

namespace Sample

/-- A subscriber on a session that is about to be welcomed. -/
def subscribed : GcStream := .subscribe (.start 0 session.log)

/-- The session is welcomed, and the subscriber is told. -/
def delivery : List GcStreamMove :=
  (welcomed.log.drop 3).map .driver ++ [.pump (.received 5), .receive]

/-- The stream after the delivery. -/
def delivered : GcStream :=
  (Ledger.exec (GcStream.step gcProst 730 0) subscribed delivery).get (by decide)

/-- The delivery is a run to it. -/
theorem run_delivered :
    Ledger.exec (GcStream.step gcProst 730 0) subscribed delivery = some delivered :=
  (Option.some_get _).symm

/-- The pump and the subscriber keep up in the delivery. -/
theorem delivery_keepsUp :
    Ledger.Guarded (GcStream.step gcProst 730 0) GcStream.KeepsUp subscribed delivery := by
  have hwelcomed : Ledger.exec (GcStream.step gcProst 730 0) subscribed
      ((welcomed.log.drop 3).map .driver) = some { subscribed with past := welcomed.log } := by
    decide
  refine Ledger.guarded_append.mpr ⟨Ledger.guarded_of_forall ?_, fun s hs => ?_⟩
  · intro m hm s
    obtain ⟨e, -, rfl⟩ := List.mem_map.mp hm
    trivial
  · obtain rfl := Option.some.inj (hwelcomed.symm.trans hs)
    refine ⟨by decide, fun s hs => ⟨?_, fun _ _ => trivial⟩⟩
    obtain rfl := Option.some.inj ((Option.some_get (show Option.isSome _ by decide)).trans hs)
    decide

end Sample

/-- The subscriber has got the welcome, which is all that there was. -/
theorem GcStream.gc_stream_delivered_welcome :
    Sample.delivered.tap.got.length = 1 ∧
      Sample.delivered.tap.got =
        (messages Sample.delivered.past).filterMap (gcMessage? Sample.gcProst 730) := by
  have hattach : Ledger.exec (Attached.step Sample.gcProst 730 0)
      (.start 0 Sample.session.log) [] = some (.start 0 Sample.session.log) := rfl
  have hall := (gc_stream_delivered hattach Sample.run_delivered).2 Sample.delivery_keepsUp
  have hchannel : Sample.delivered.pump.relayed.drop Sample.delivered.tap.next = [] := by decide
  have hsession : (messages Sample.delivered.past).drop Sample.delivered.pump.next = [] := by
    decide
  rw [hchannel, hsession, List.append_nil] at hall
  exact ⟨by decide, (List.append_nil _).symm.trans hall⟩

end Steamroids
