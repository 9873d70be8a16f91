import Steamroids.Timers

/-!
# Heartbeats, Pings and Silence

Steam never acknowledges a heartbeat, so the driver writes a Ping behind each one, and takes any
frame that arrives for a sign of life. A socket without one for long enough is given up. On timed
runs both can be measured: how regular the Pings are, and how long a silence the driver bears.

## Main results

* `keepalive_paced`: heartbeats follow each other at the interval that Steam asked for.
* `idle_watchdog`: a session is given up for silence exactly when it was silent for that long.
* `answered_pings_keep_session`: a session whose Pings are answered is not given up for silence.
-/

namespace Steamroids

open Clocked (times)

variable {P : Prost} {d d' : SessionDriver} {lag now : Nat} {log : List (Nat × Effect)}

namespace SessionDriver

/-! ### The heartbeat -/

/-- From `x` to `y` it is one interval, and at most `lag` more. -/
def OneInterval (interval lag x y : Nat) : Prop := x + interval ≤ y ∧ y ≤ x + interval + lag

/-- The beginning of a connection and its Pings, with the next Ping due an interval after the
last one. -/
structure Beats (P : Prost) (lag : Nat) (d : SessionDriver) (now : Nat)
    (log : List (Nat × Effect)) : Prop where
  future : ∀ c, d.conn < c → times (Effect.beats c) log = []
  paced : ∀ c items s, .adopted c items ∈ d.log → establish P items = some s →
    (times (Effect.beats c) log).IsChain (OneInterval s.2.heartbeatInterval lag)
  next : ∀ l, d.phase = .connected l →
    ∃ x, (times (Effect.beats d.conn) log).getLast? = some x ∧
      x + d.heartbeat = l.nextHeartbeat ∧ now ≤ l.nextHeartbeat + lag

/-- A step without a Ping. -/
theorem Beats.keep (h : Beats P lag d now log) {es : List Effect} (hlog : d'.log = d.log ++ es)
    (hes : ∀ c, es.countP (Effect.beats c) = 0) (hconn : d'.conn = d.conn)
    (hhb : d'.heartbeat = d.heartbeat)
    (hnext : ∀ l', d'.phase = .connected l' →
      ∃ l, d.phase = .connected l ∧ l'.nextHeartbeat = l.nextHeartbeat) :
    Beats P lag d' now (log ++ (system P).news now d d') := by
  have htimes : ∀ c, times (Effect.beats c) (log ++ (system P).news now d d') =
      times (Effect.beats c) log := by
    intro c
    rw [times_news _ hlog, hes, List.replicate_zero, List.append_nil]
  have hold : ∀ c items, .adopted c items ∈ d'.log → .adopted c items ∈ d.log := by
    intro c items hmem
    rw [hlog] at hmem
    refine (List.mem_append.mp hmem).resolve_right ?_
    intro hmem
    exact absurd (List.countP_eq_zero.mp (hes c) _ hmem) (by simp [Effect.beats])
  constructor
  · intro c hc
    rw [htimes]
    exact h.future c (hconn ▸ hc)
  · intro c items s hmem hs
    rw [htimes]
    exact h.paced c items s (hold c items hmem) hs
  · intro l' hl'
    obtain ⟨l, hl, heq⟩ := hnext l' hl'
    rw [htimes, hconn, hhb, heq]
    exact h.next l hl

/-- A Ping is written when it is due. -/
theorem Beats.ping (h : Beats P lag d now log) (had : Adoptions P d) {l : ConnectedLoop}
    (hph : d.phase = .connected l) (hdue : l.nextHeartbeat ≤ now) {es : List Effect} {sent : Bool}
    {frame : Frame}
    (hlog : d'.log = d.log ++ ([.wrote d.conn frame none true, .pinged d.conn sent] ++ es))
    (hes : ∀ e ∈ es, e.isTimed = false) (hconn : d'.conn = d.conn)
    (hhb : d'.heartbeat = d.heartbeat)
    (hnext : ∀ l', d'.phase = .connected l' → l'.nextHeartbeat = now + d.heartbeat) :
    Beats P lag d' now (log ++ (system P).news now d d') := by
  obtain ⟨x, hlast, hx, hlag⟩ := h.next l hph
  have hcount : ∀ c, (([.wrote d.conn frame none true, .pinged d.conn sent] : List Effect) ++
      es).countP (Effect.beats c) = if d.conn = c then 1 else 0 := by
    intro c
    rw [List.countP_append, (countP_untimed hes c).1]
    simp [List.countP_cons, Effect.beats]
  have hother : ∀ c, d.conn ≠ c → times (Effect.beats c) (log ++ (system P).news now d d') =
      times (Effect.beats c) log := by
    intro c hc
    rw [times_news _ hlog, hcount, if_neg hc, List.replicate_zero, List.append_nil]
  have hsame : times (Effect.beats d.conn) (log ++ (system P).news now d d') =
      times (Effect.beats d.conn) log ++ [now] := by
    rw [times_news _ hlog, hcount, if_pos rfl, List.replicate_one]
  constructor
  · intro c hc
    rw [hconn] at hc
    rw [hother c (Nat.ne_of_lt hc)]
    exact h.future c hc
  · intro c items s hmem hs
    have hold : .adopted c items ∈ d.log := by
      rw [hlog] at hmem
      refine (List.mem_append.mp hmem).resolve_right ?_
      intro hmem
      exact adopted_not_untimed hes c items (by simpa using hmem)
    by_cases hc : d.conn = c
    · subst hc
      have hinterval := had.interval items s hold hs
      rw [hsame]
      refine List.isChain_append.mpr ⟨h.paced _ items s hold hs, List.isChain_singleton _, ?_⟩
      intro y hy z hz
      obtain rfl : x = y := Option.some.inj (hlast.symm.trans hy)
      obtain rfl : now = z := Option.some.inj hz
      rw [OneInterval, hinterval, hx]
      exact ⟨hdue, hlag⟩
    · rw [hother c hc]
      exact h.paced c items s hold hs
  · intro l' hl'
    refine ⟨now, ?_, ?_, ?_⟩
    · rw [hconn, hsame, List.getLast?_concat]
    · rw [hhb, hnext l' hl']
    · rw [hnext l' hl']
      omega

/-- A connection begins. -/
theorem Beats.live (h : Beats P lag d now log) {items : List WsItem}
    (c : CmConnection × LoggedOn) :
    Beats P lag (d.goLive now items c.1 c.2) now
      (log ++ (system P).news now d (d.goLive now items c.1 c.2)) := by
  have hlog := goLive_log d now items c.1 c.2
  have hcount c' := (countP_adoption (d.conn + 1) items c.1.steamId c').1
  have hother : ∀ c', d.conn + 1 ≠ c' →
      times (Effect.beats c') (log ++ (system P).news now d (d.goLive now items c.1 c.2)) =
        times (Effect.beats c') log := by
    intro c' hc
    rw [times_news _ hlog, hcount, if_neg hc, List.replicate_zero, List.append_nil]
  have hsame : times (Effect.beats (d.conn + 1))
      (log ++ (system P).news now d (d.goLive now items c.1 c.2)) = [now] := by
    rw [times_news _ hlog, hcount, if_pos rfl, h.future _ (Nat.lt_succ_self _)]
    rfl
  constructor
  · intro c' hc'
    have hlt : d.conn + 1 < c' := hc'
    rw [hother c' (Nat.ne_of_lt hlt)]
    exact h.future c' (Nat.lt_of_succ_lt hlt)
  · intro c' items' s hmem hs
    by_cases hc : d.conn + 1 = c'
    · subst hc
      rw [hsame]
      exact List.isChain_singleton _
    · rw [hother c' hc]
      rw [hlog] at hmem
      refine h.paced c' items' s ((List.mem_append.mp hmem).resolve_right ?_) hs
      intro hmem
      obtain ⟨rfl, -⟩ : c' = d.conn + 1 ∧ items' = items := by simpa [adoption] using hmem
      exact hc rfl
  · intro l hl
    obtain rfl := Phase.connected.inj hl
    refine ⟨now, ?_, rfl, ?_⟩
    · show (times (Effect.beats (d.conn + 1)) _).getLast? = some now
      rw [hsame]
      rfl
    · exact Nat.le_add_right_of_le (Nat.le_add_right _ _)

/-- **Run lemma.** The heartbeats of every run are paced. -/
theorem TimedRun.beats (h : TimedRun P lag d now log) : Beats P lag d now log := by
  refine h.invariant ?_ ?_ ?_
  · intro t₀ items d₀ h₀
    obtain ⟨c, hc, rfl⟩ := Option.map_eq_some_iff.mp h₀
    have hbeats : ∀ c', times (Effect.beats c')
        ((adoption 0 items c.2.steamId).map fun e => (t₀, e)) = if 0 = c' then [t₀] else [] := by
      intro c'
      rw [Clocked.times_map, (countP_adoption 0 items c.2.steamId c').1]
      split <;> rfl
    constructor
    · intro c' hc'
      exact (hbeats c').trans (if_neg (Nat.ne_of_lt hc'))
    · intro c' items' s _ _
      refine (congrArg (List.IsChain _) (hbeats c')).mpr ?_
      split
      · exact List.isChain_singleton _
      · exact List.isChain_nil
    · intro l hl
      obtain rfl := Phase.connected.inj hl
      refine ⟨t₀, ?_, rfl, Nat.le_add_right_of_le (Nat.le_add_right _ _)⟩
      exact congrArg List.getLast? (hbeats 0)
  · intro d t log t' hd _ hdue
    refine ⟨hd.future, hd.paced, ?_⟩
    intro l hl
    obtain ⟨x, hlast, hx, -⟩ := hd.next l hl
    exact ⟨x, hlast, hx, hdue _ (by simp [due, hl])⟩
  · intro d t log i d' hrun hd hstamp hticks
    cases hticks with
    | live now hc _ =>
        obtain rfl : now = t := hstamp now rfl
        exact hd.live _
    | @beat _ l write now ping hph hle hun htimed =>
        obtain rfl : now = t := hstamp now rfl
        obtain ⟨es, hlog, hes, -⟩ := hun.log
        exact hd.ping hrun.reachable.adoptions hph hle (hlog.trans (List.append_assoc _ _ _)) hes
          hun.conn hun.heartbeat fun l' hl' => (htimed l' hl').1
    | @heard _ l now it hph hun htimed =>
        obtain ⟨es, hlog, hes, -⟩ := hun.log
        refine hd.keep (hlog.trans (List.append_assoc _ _ _)) ?_ hun.conn hun.heartbeat
          fun l' hl' => ⟨l, hph, (htimed l' hl').1⟩
        intro c
        rw [List.countP_append, (countP_untimed hes c).1]
        rfl
    | @swept l now hph _ _ =>
        refine hd.keep rfl ?_ rfl rfl ?_
        · intro c
          refine List.countP_eq_zero.mpr ?_
          intro e he
          rcases mem_swept he with ⟨entry, ⟨rfl, -⟩ | rfl⟩ <;> simp [Effect.beats]
        · intro l' hl'
          obtain rfl := Phase.connected.inj hl'
          exact ⟨l, hph, rfl⟩
    | other hun htimed =>
        obtain ⟨es, hlog, hes, -⟩ := hun.log
        refine hd.keep hlog (fun c => (countP_untimed hes c).1) hun.conn hun.heartbeat ?_
        intro l' hl'
        obtain ⟨l, hl, hhb, -⟩ := htimed l' hl'
        exact ⟨l, hl, hhb⟩

/-- A Ping is preceded by a heartbeat frame on the same connection, at the same instant. -/
def BehindHeartbeat (past : List (Nat × Effect)) (e : Nat × Effect) : Prop :=
  ∀ c sent, e.2 = .pinged c sent → ∃ frame : Frame, frame.emsg = emsgClientHeartbeat ∧
    past.getLast? = some (e.1, .wrote c frame none true)

/-- A step without a Ping. -/
theorem BehindHeartbeat.keep (h : Ledger.Justified BehindHeartbeat log) {es : List Effect}
    (hlog : d'.log = d.log ++ es) (hes : ∀ c sent, .pinged c sent ∉ es) :
    Ledger.Justified BehindHeartbeat (log ++ (system P).news now d d') := by
  rw [(system P).news_of_append hlog]
  refine Ledger.justified_append.mpr ⟨h, ?_⟩
  intro pre e post hsplit c sent he
  have hmem : e ∈ es.map fun e => (now, e) := by simp [hsplit]
  obtain ⟨e', he', rfl⟩ := List.mem_map.mp hmem
  exact absurd (he ▸ he') (hes c sent)

/-- A Ping is a timed entry. -/
theorem pinged_not_untimed {es : List Effect} (hes : ∀ e ∈ es, e.isTimed = false) (c : Nat)
    (sent : Bool) : .pinged c sent ∉ es :=
  fun hmem => absurd (hes _ hmem) (by simp [Effect.isTimed])

/-- **Run lemma.** Every Ping is the second entry of its step, behind the heartbeat. -/
theorem TimedRun.behindHeartbeat (h : TimedRun P lag d now log) :
    Ledger.Justified BehindHeartbeat log := by
  refine h.invariant (I := fun _ _ log => Ledger.Justified BehindHeartbeat log) ?_
    (fun _ _ _ _ h _ _ => h) ?_
  · intro t₀ items d₀ h₀ pre e post hsplit c sent he
    obtain ⟨c', -, hd₀⟩ := spawn_spec h₀
    have hmem : e ∈ d₀.log.map fun e => (t₀, e) := by simp [hsplit]
    obtain ⟨e', he', rfl⟩ := List.mem_map.mp hmem
    rw [hd₀.log] at he'
    simp [show e' = _ from he] at he'
  · intro d t log i d' _ hd _ hticks
    cases hticks with
    | live now hc _ => exact BehindHeartbeat.keep hd (goLive_log d now _ _ _) (by simp [adoption])
    | @beat _ l write now ping hph hle hun htimed =>
        obtain ⟨es, hlog, hes, -⟩ := hun.log
        rw [(system P).news_of_append (hlog.trans (List.append_assoc _ _ _))]
        refine Ledger.justified_append.mpr ⟨hd, ?_⟩
        intro pre e post hsplit c sent he
        rcases pre with _ | ⟨a, _ | ⟨b, pre⟩⟩
        · obtain ⟨rfl, -⟩ := List.cons.inj hsplit
          cases he
        · obtain ⟨rfl, hrest⟩ := List.cons.inj hsplit
          obtain ⟨rfl, -⟩ := List.cons.inj hrest
          cases he
          exact ⟨_, rfl, List.getLast?_concat⟩
        · have hrest : es.map (fun e => (t, e)) = pre ++ e :: post :=
            (List.cons.inj (List.cons.inj hsplit).2).2
          have hmem : e ∈ es.map fun e => (t, e) := by simp [hrest]
          obtain ⟨e', he', rfl⟩ := List.mem_map.mp hmem
          exact absurd (he ▸ he') (pinged_not_untimed hes c sent)
    | heard now it _ hun _ =>
        obtain ⟨es, hlog, hes, -⟩ := hun.log
        refine BehindHeartbeat.keep hd (hlog.trans (List.append_assoc _ _ _)) ?_
        intro c sent hmem
        exact pinged_not_untimed hes c sent (by simpa using hmem)
    | swept now _ _ _ =>
        refine BehindHeartbeat.keep hd rfl ?_
        intro c sent hmem
        rcases mem_swept hmem with ⟨entry, ⟨h, -⟩ | h⟩ <;> cases h
    | other hun _ =>
        obtain ⟨es, hlog, hes, -⟩ := hun.log
        exact BehindHeartbeat.keep hd hlog (pinged_not_untimed hes)

/-- **The keepalive keeps its pace.** On every connection of a session, the Pings follow the
beginning of the connection and each other at the heartbeat interval that Steam gave at its logon,
never sooner and late by at most the lag; while the session is connected the last one is not
longer ago than that. Each of them comes with a heartbeat frame. -/
theorem keepalive_paced (h : TimedRun P lag d now log) :
    (∀ c items s, .adopted c items ∈ d.log → establish P items = some s →
      (times (Effect.beats c) log).IsChain (OneInterval s.2.heartbeatInterval lag)) ∧
    (∀ l, d.phase = .connected l → ∃ x, (times (Effect.beats d.conn) log).getLast? = some x ∧
      now ≤ x + d.heartbeat + lag) ∧
    Ledger.Justified BehindHeartbeat log := by
  refine ⟨h.beats.paced, ?_, h.behindHeartbeat⟩
  intro l hl
  obtain ⟨x, hlast, hx, hnow⟩ := h.beats.next l hl
  exact ⟨x, hlast, hx ▸ hnow⟩

end SessionDriver

namespace Sample

open SessionDriver

/-- A session that has sent one heartbeat. -/
def onePing : SessionDriver :=
  (session.step prost (.heartbeat (fromSecs 9) none none)).get (by decide)

/-- What it has done, and when. -/
def onePingLog : List (Nat × Effect) :=
  session.log.map (fun e => (0, e)) ++
    (system prost).news (fromSecs 9) session onePing

/-- It is a run of the clock. -/
theorem onePing_run :
    TimedRun prost (fromSecs 8) onePing (fromSecs 9) onePingLog := by
  refine ⟨0, [item logonFrame], session, (Option.some_get _).symm, ?_⟩
  refine .step (.heartbeat (fromSecs 9) none none) (.wait _ .start (Nat.zero_le _) ?_) ?_
    (Option.some_get _).symm
  · decide
  · rintro x ⟨⟩
    rfl

end Sample

namespace SessionDriver

/-- The adoption and the heartbeat nine seconds later are one interval apart. -/
theorem keepalive_paced_pinged :
    times (Effect.beats 0) Sample.onePingLog = [0, fromSecs 9] ∧
      (times (Effect.beats 0) Sample.onePingLog).IsChain
        (OneInterval (fromSecs 9) (fromSecs 8)) :=
  ⟨by decide, (keepalive_paced Sample.onePing_run).1 0 _ _ List.mem_cons_self
    (Option.some_get (by decide)).symm⟩

/-! ### The watchdog -/

/-- The liveness clock is the instant of the last frame, and the next sweep is due before the
silence since then can have lasted for too long. -/
structure Hearings (lag : Nat) (d : SessionDriver) (now : Nat) (log : List (Nat × Effect)) :
    Prop where
  future : ∀ c, d.conn < c → times (Effect.hears c) log = []
  last : ∀ l, d.phase = .connected l → d.liveness ∈ times (Effect.hears d.conn) log ∧
    (∀ x ∈ times (Effect.hears d.conn) log, x ≤ d.liveness) ∧ d.liveness ≤ now
  next : ∀ l, d.phase = .connected l → now ≤ l.nextSweep + lag ∧
    l.nextSweep < d.liveness + idleTimeout d.heartbeat + pendingSweepInterval

/-- The idle timeout is never zero. -/
theorem idleTimeout_pos (heartbeat : Nat) : 0 < idleTimeout heartbeat :=
  Nat.lt_of_lt_of_le (by decide) (Nat.le_max_right _ _)

/-- A step in which no frame arrives. -/
theorem Hearings.keep (h : Hearings lag d now log) {es : List Effect}
    (hlog : d'.log = d.log ++ es) (hes : ∀ c, es.countP (Effect.hears c) = 0)
    (hconn : d'.conn = d.conn) (hhb : d'.heartbeat = d.heartbeat)
    (hlive : d'.liveness = d.liveness)
    (hnext : ∀ l', d'.phase = .connected l' → ∃ l, d.phase = .connected l ∧
      (l'.nextSweep = l.nextSweep ∨
        (l'.nextSweep = now + pendingSweepInterval ∧ d.readIdleExpired now = false))) :
    Hearings lag d' now (log ++ (system P).news now d d') := by
  have htimes : ∀ c, times (Effect.hears c) (log ++ (system P).news now d d') =
      times (Effect.hears c) log := by
    intro c
    rw [times_news _ hlog, hes, List.replicate_zero, List.append_nil]
  constructor
  · intro c hc
    rw [htimes]
    exact h.future c (hconn ▸ hc)
  · intro l' hl'
    obtain ⟨l, hl, -⟩ := hnext l' hl'
    rw [htimes, hconn, hlive]
    exact h.last l hl
  · intro l' hl'
    obtain ⟨l, hl, hsw⟩ := hnext l' hl'
    obtain ⟨hlag, hsilent⟩ := h.next l hl
    rw [hlive, hhb]
    rcases hsw with hsw | ⟨hsw, hidle⟩
    · rw [hsw]
      exact ⟨hlag, hsilent⟩
    · have hlt : now - d.liveness < idleTimeout d.heartbeat := by
        simpa [readIdleExpired] using hidle
      rw [hsw]
      omega

/-- A frame arrives, or an item that is none. -/
theorem Hearings.item (h : Hearings lag d now log) {l : ConnectedLoop}
    (hph : d.phase = .connected l) {it : WsItem} {es : List Effect}
    (hlog : d'.log = d.log ++ ([.yielded d.conn it] ++ es)) (hes : ∀ e ∈ es, e.isTimed = false)
    (hconn : d'.conn = d.conn) (hhb : d'.heartbeat = d.heartbeat)
    (hlive : d'.liveness = if it.touches then now else d.liveness)
    (hnext : ∀ l', d'.phase = .connected l' → l'.nextSweep = l.nextSweep) :
    Hearings lag d' now (log ++ (system P).news now d d') := by
  have hcount : ∀ c, (([.yielded d.conn it] : List Effect) ++ es).countP (Effect.hears c) =
      if d.conn = c ∧ it.touches then 1 else 0 := by
    intro c
    rw [List.countP_append, (countP_untimed hes c).2]
    simp [List.countP_cons, Effect.hears]
  obtain ⟨hmem, hlast, hle⟩ := h.last l hph
  obtain ⟨hlag, hsilent⟩ := h.next l hph
  by_cases ht : it.touches = true
  · rw [if_pos ht] at hlive
    constructor
    · intro c hc
      rw [hconn] at hc
      rw [times_news _ hlog, hcount, if_neg (fun h => Nat.ne_of_lt hc h.1), h.future c hc]
      rfl
    · intro l' _
      rw [hconn, times_news _ hlog, hcount, if_pos ⟨rfl, ht⟩, hlive, List.replicate_one]
      refine ⟨List.mem_append_right _ (List.mem_singleton_self now), ?_, le_rfl⟩
      intro x hx
      rcases List.mem_append.mp hx with hx | hx
      · exact (hlast x hx).trans hle
      · exact le_of_eq (List.mem_singleton.mp hx)
    · intro l' hl'
      rw [hnext l' hl', hlive, hhb]
      exact ⟨hlag, by omega⟩
  · rw [if_neg ht] at hlive
    refine h.keep hlog ?_ hconn hhb hlive fun l' hl' => ⟨l, hph, .inl (hnext l' hl')⟩
    intro c
    rw [hcount, if_neg (fun h => ht h.2)]

/-- A connection begins. -/
theorem Hearings.live (h : Hearings lag d now log) {items : List WsItem}
    (c : CmConnection × LoggedOn) :
    Hearings lag (d.goLive now items c.1 c.2) now
      (log ++ (system P).news now d (d.goLive now items c.1 c.2)) := by
  have hlog := goLive_log d now items c.1 c.2
  have hcount c' := (countP_adoption (d.conn + 1) items c.1.steamId c').2
  constructor
  · intro c' hc'
    have hlt : d.conn + 1 < c' := hc'
    rw [times_news _ hlog, hcount, if_neg (Nat.ne_of_lt hlt),
      h.future c' (Nat.lt_of_succ_lt hlt)]
    rfl
  · intro l _
    have htimes : times (Effect.hears (d.conn + 1))
        (log ++ (system P).news now d (d.goLive now items c.1 c.2)) = [now] := by
      rw [times_news _ hlog, hcount, if_pos rfl, h.future _ (Nat.lt_succ_self _)]
      rfl
    show now ∈ times (Effect.hears (d.conn + 1)) _ ∧
      (∀ x ∈ times (Effect.hears (d.conn + 1)) _, x ≤ now) ∧ now ≤ now
    rw [htimes]
    exact ⟨List.mem_singleton_self now, fun x hx => le_of_eq (List.mem_singleton.mp hx), le_rfl⟩
  · intro l hl
    obtain rfl := Phase.connected.inj hl
    have hpos := idleTimeout_pos c.2.heartbeatInterval
    show now ≤ now + pendingSweepInterval + lag ∧ now + pendingSweepInterval <
      now + idleTimeout c.2.heartbeatInterval + pendingSweepInterval
    omega

/-- **Run lemma.** The liveness clock of every run is the instant of the last frame. -/
theorem TimedRun.hearings (h : TimedRun P lag d now log) : Hearings lag d now log := by
  refine h.invariant ?_ ?_ ?_
  · intro t₀ items d₀ h₀
    obtain ⟨c, hc, rfl⟩ := Option.map_eq_some_iff.mp h₀
    have hhears : ∀ c', times (Effect.hears c')
        ((adoption 0 items c.2.steamId).map fun e => (t₀, e)) = if 0 = c' then [t₀] else [] := by
      intro c'
      rw [Clocked.times_map, (countP_adoption 0 items c.2.steamId c').2]
      split <;> rfl
    constructor
    · intro c' hc'
      exact (hhears c').trans (if_neg (Nat.ne_of_lt hc'))
    · intro l _
      let log₀ := (adoption 0 items c.2.steamId).map fun e => (t₀, e)
      show t₀ ∈ times (Effect.hears 0) log₀ ∧ (∀ x ∈ times (Effect.hears 0) log₀, x ≤ t₀) ∧
        t₀ ≤ t₀
      rw [hhears 0]
      exact ⟨List.mem_singleton_self t₀, fun x hx => le_of_eq (List.mem_singleton.mp hx), le_rfl⟩
    · intro l hl
      obtain rfl := Phase.connected.inj hl
      have hpos := idleTimeout_pos c.2.heartbeatInterval
      show t₀ ≤ t₀ + pendingSweepInterval + lag ∧ t₀ + pendingSweepInterval <
        t₀ + idleTimeout c.2.heartbeatInterval + pendingSweepInterval
      omega
  · intro d t log t' hd hle hdue
    refine ⟨hd.future, ?_, ?_⟩
    · intro l hl
      obtain ⟨hmem, hlast, hnow⟩ := hd.last l hl
      exact ⟨hmem, hlast, hnow.trans hle⟩
    · intro l hl
      exact ⟨hdue _ (by simp [due, hl]), (hd.next l hl).2⟩
  · intro d t log i d' hrun hd hstamp hticks
    cases hticks with
    | live now hc _ =>
        obtain rfl : now = t := hstamp now rfl
        exact hd.live _
    | @beat _ l write now ping hph hle hun htimed =>
        obtain ⟨es, hlog, hes, -⟩ := hun.log
        refine hd.keep (hlog.trans (List.append_assoc _ _ _)) ?_ hun.conn hun.heartbeat
          hun.liveness fun l' hl' => ⟨l, hph, .inl (htimed l' hl').2⟩
        intro c
        rw [List.countP_append, (countP_untimed hes c).2]
        rfl
    | @heard _ l now it hph hun htimed =>
        obtain rfl : now = t := hstamp now rfl
        obtain ⟨es, hlog, hes, -⟩ := hun.log
        exact hd.item hph (hlog.trans (List.append_assoc _ _ _)) hes hun.conn hun.heartbeat
          hun.liveness fun l' hl' => (htimed l' hl').2
    | @swept l now hph hle hidle =>
        obtain rfl : now = t := hstamp now rfl
        refine hd.keep rfl ?_ rfl rfl rfl ?_
        · intro c
          refine List.countP_eq_zero.mpr ?_
          intro e he
          rcases mem_swept he with ⟨entry, ⟨rfl, -⟩ | rfl⟩ <;> simp [Effect.hears]
        · intro l' hl'
          obtain rfl := Phase.connected.inj hl'
          exact ⟨l, hph, .inr ⟨rfl, hidle⟩⟩
    | other hun htimed =>
        obtain ⟨es, hlog, hes, -⟩ := hun.log
        refine hd.keep hlog (fun c => (countP_untimed hes c).2) hun.conn hun.heartbeat
          hun.liveness ?_
        intro l' hl'
        obtain ⟨l, hl, -, hsw⟩ := htimed l' hl'
        exact ⟨l, hl, .inl hsw⟩

/-- A sweep leaves the connected loop if the socket has been idle for too long. -/
theorem sweep_leaves_iff {l : ConnectedLoop} (hph : d.phase = .connected l)
    (hstep : d.step P (.sweep now) = some d') :
    (∀ l', d'.phase ≠ .connected l') ↔ d.readIdleExpired now = true := by
  obtain ⟨ch, hi, -⟩ | ⟨r, hr, rfl⟩ := step_connected hph hstep
  · cases hi
  simp only [runConnected] at hr
  split at hr
  · obtain rfl := Option.some.inj hr
    by_cases hidle : d.readIdleExpired now = true
    · simp only [onSweep, hidle, if_true, iff_true]
      exact leave_not_connected d .disconnected
    · simp [onSweep, hidle, Turn.ofBranch, resume]
  · cases hr

/-- **The watchdog.** A connected session has had a frame on its connection, or begun it, less
than the idle timeout and one sweep interval ago, up to the lag. A sweep gives the session up
exactly when there was nothing of the kind for the whole idle timeout. -/
theorem idle_watchdog (h : TimedRun P lag d now log) {l : ConnectedLoop}
    (hph : d.phase = .connected l) :
    (∃ x ∈ times (Effect.hears d.conn) log,
      now < x + idleTimeout d.heartbeat + pendingSweepInterval + lag) ∧
    ∀ d', d.step P (.sweep now) = some d' →
      ((∀ l', d'.phase ≠ .connected l') ↔
        ∀ x ∈ times (Effect.hears d.conn) log, x + idleTimeout d.heartbeat ≤ now) := by
  obtain ⟨hmem, hlast, hle⟩ := h.hearings.last l hph
  obtain ⟨hlag, hsilent⟩ := h.hearings.next l hph
  refine ⟨⟨d.liveness, hmem, by omega⟩, ?_⟩
  intro d' hstep
  have hexpired : d.readIdleExpired now = true ↔
      ∀ x ∈ times (Effect.hears d.conn) log, x + idleTimeout d.heartbeat ≤ now := by
    have hpos := idleTimeout_pos d.heartbeat
    simp only [readIdleExpired, decide_eq_true_eq]
    constructor
    · intro hidle x hx
      have := hlast x hx
      omega
    · intro hall
      have := hall _ hmem
      omega
  exact (sweep_leaves_iff hph hstep).trans hexpired

/-- A session that is swept for the first time after a minute of silence. -/
theorem silent_run :
    TimedRun Sample.prost (fromSecs 59) Sample.session (fromSecs 60)
      (Sample.session.log.map fun e => (0, e)) :=
  ⟨0, [Sample.item Sample.logonFrame], Sample.session, (Option.some_get _).symm,
    .wait _ .start (Nat.zero_le _) (by decide)⟩

/-- A session that has been silent for a minute is given up by its sweep. -/
theorem idle_watchdog_silent :
    ∃ d', Sample.session.step Sample.prost (.sweep (fromSecs 60)) = some d' ∧
      ∀ l', d'.phase ≠ .connected l' := by
  refine ⟨(Sample.session.step Sample.prost (.sweep (fromSecs 60))).get (by decide),
    (Option.some_get _).symm, ?_⟩
  exact ((idle_watchdog silent_run rfl).2 _ (Option.some_get _).symm).mpr (by decide)

/-! ### Answered Pings -/

/-- The first Ping and the first frame of a connection count from its beginning. -/
theorem TimedRun.begun (h : TimedRun P lag d now log) (c : Nat) :
    (times (Effect.beats c) log).head? = (times (Effect.hears c) log).head? := by
  refine h.invariant (I := fun _ _ log =>
    (times (Effect.beats c) log).head? = (times (Effect.hears c) log).head?) ?_
    (fun _ _ _ _ h _ _ => h) ?_
  · intro t₀ items d₀ h₀
    obtain ⟨c₀, -, hd₀⟩ := spawn_spec h₀
    have hlog : d₀.log = adoption 0 items c₀.2.steamId := hd₀.log
    have hcount := countP_adoption 0 items c₀.2.steamId c
    rw [hlog, Clocked.times_map, Clocked.times_map, hcount.1, hcount.2]
  · intro d t log i d' hrun hd _ hticks
    have hadd : ∀ {es}, d'.log = d.log ++ es →
        es.countP (Effect.beats c) = es.countP (Effect.hears c) ∨
          (∃ l, d.phase = .connected l) ∧ d.conn = c →
        (times (Effect.beats c) (log ++ (system P).news t d d')).head? =
          (times (Effect.hears c) (log ++ (system P).news t d d')).head? := by
      intro es hlog hes
      rw [times_news _ hlog, times_news _ hlog, List.head?_append, List.head?_append, hd]
      rcases hes with hes | ⟨⟨l, hl⟩, rfl⟩
      · rw [hes]
      · have hne := List.ne_nil_of_mem (hrun.hearings.last l hl).1
        obtain ⟨x, xs, hx⟩ := List.exists_cons_of_ne_nil hne
        rw [hx]
        rfl
    have hzero : ∀ {es : List Effect}, (∀ e ∈ es, e.isTimed = false) →
        es.countP (Effect.beats c) = es.countP (Effect.hears c) :=
      fun hes => (countP_untimed hes c).1.trans (countP_untimed hes c).2.symm
    cases hticks with
    | @live items s now hc _ =>
        have hcount := countP_adoption (d.conn + 1) items s.1.steamId c
        exact hadd (goLive_log d now items _ _) (.inl (hcount.1.trans hcount.2.symm))
    | @beat _ l write now ping hph hle hun htimed =>
        obtain ⟨es, hlog, hes, -⟩ := hun.log
        refine hadd (hlog.trans (List.append_assoc _ _ _)) ?_
        by_cases hc : d.conn = c
        · exact .inr ⟨⟨l, hph⟩, hc⟩
        · refine .inl ?_
          rw [List.countP_append, List.countP_append, hzero hes]
          simp [Effect.beats, Effect.hears, hc]
    | @heard _ l now it hph hun htimed =>
        obtain ⟨es, hlog, hes, -⟩ := hun.log
        refine hadd (hlog.trans (List.append_assoc _ _ _)) ?_
        by_cases hc : d.conn = c
        · exact .inr ⟨⟨l, hph⟩, hc⟩
        · refine .inl ?_
          rw [List.countP_append, List.countP_append, hzero hes]
          simp [Effect.beats, Effect.hears, hc]
    | @swept l now hph hle hidle =>
        refine hadd rfl (.inl (Eq.trans (List.countP_eq_zero.mpr ?_)
          (List.countP_eq_zero.mpr ?_).symm))
        · intro e he
          rcases mem_swept he with ⟨entry, ⟨rfl, -⟩ | rfl⟩ <;> simp [Effect.beats]
        · intro e he
          rcases mem_swept he with ⟨entry, ⟨rfl, -⟩ | rfl⟩ <;> simp [Effect.hears]
    | other hun htimed =>
        obtain ⟨es, hlog, hes, -⟩ := hun.log
        exact hadd hlog (.inl (hzero hes))

/-- **A session whose Pings are answered is not given up.** If each Ping that was written at least
`r` ago has been followed by some frame, and `r` leaves room for one heartbeat within the idle
timeout, then no sweep finds the session silent. -/
theorem answered_pings_keep_session (h : TimedRun P lag d now log) {l : ConnectedLoop}
    (hph : d.phase = .connected l) {r : Nat}
    (hr : d.heartbeat + lag + r < idleTimeout d.heartbeat)
    (hanswered : ∀ x sent, (x, .pinged d.conn sent) ∈ log → x + r ≤ now →
      ∃ y ∈ times (Effect.hears d.conn) log, x ≤ y)
    (hstep : d.step P (.sweep now) = some d') : ∃ l', d'.phase = .connected l' := by
  obtain ⟨items, s, hadopt, hs⟩ := h.reachable.adoptions.current
  have hpaced := h.beats.paced d.conn items s hadopt hs
  rw [h.reachable.adoptions.interval items s hadopt hs] at hpaced
  obtain ⟨x₀, hlast, hx₀, hnow⟩ := h.beats.next l hph
  obtain ⟨-, hle, -⟩ := h.hearings.last l hph
  have hbegun := h.begun d.conn
  rcases hb : times (Effect.beats d.conn) log with _ | ⟨a, xs⟩
  · simp [hb] at hlast
  rw [hb] at hpaced hlast hbegun
  have hrecent : now ≤ d.liveness + r + (d.heartbeat + lag) := by
    by_cases ha : a + r ≤ now
    · have hchain : (a :: xs).IsChain fun x y => y ≤ x + (d.heartbeat + lag) :=
        hpaced.imp fun x y hxy => by rw [← Nat.add_assoc]; exact hxy.2
      have hlast' : ∀ x ∈ (a :: xs).getLast?, now ≤ x + (d.heartbeat + lag) := by
        intro x hx
        obtain rfl : x₀ = x := Option.some.inj (hlast.symm.trans hx)
        omega
      obtain ⟨x, hx, hold, hnew⟩ := Clocked.exists_recent hchain ha hlast'
      suffices hlive : x ≤ d.liveness by omega
      obtain ⟨e, he, hbeat⟩ := Clocked.mem_times.mp (hb.symm ▸ hx)
      cases e with
      | adopted c items => exact hle x (Clocked.mem_times.mpr ⟨_, he, hbeat⟩)
      | pinged c sent =>
          obtain rfl : c = d.conn := by simpa [Effect.beats] using hbeat
          obtain ⟨y, hy, hxy⟩ := hanswered x sent he hold
          exact hxy.trans (hle y hy)
      | _ => cases hbeat
    · have hmem : a ∈ times (Effect.hears d.conn) log :=
        List.mem_of_mem_head? (Option.mem_def.mpr hbegun.symm)
      have := hle a hmem
      omega
  by_contra hnone
  have hidle := (sweep_leaves_iff hph hstep).mp fun l' hl' => hnone ⟨l', hl'⟩
  simp only [readIdleExpired, decide_eq_true_eq] at hidle
  omega

end SessionDriver

namespace Sample

open SessionDriver

/-- The session with one heartbeat, waiting for its Pong. -/
def awaitingPong : SessionDriver := (onePing.step prost .poll).get (by decide)

/-- That session with its Pong, a second after the heartbeat. -/
def onePong : SessionDriver :=
  (awaitingPong.step prost (.item (fromSecs 10) (.msg .pong))).get (by decide)

/-- What it has done, and when. -/
def onePongLog : List (Nat × Effect) :=
  onePingLog ++ (system prost).news (fromSecs 9) onePing awaitingPong ++
    (system prost).news (fromSecs 10) awaitingPong onePong

/-- It is a run of the clock, the Pong included. -/
theorem onePong_run :
    Clocked.Run (system prost) (fromSecs 11) session 0 onePong (fromSecs 10)
      onePongLog := by
  have hping : Clocked.Run (system prost) (fromSecs 11) session 0 onePing (fromSecs 9)
      onePingLog := by
    refine .step (.heartbeat (fromSecs 9) none none) (.wait _ .start (Nat.zero_le _) (by decide)) ?_
      (Option.some_get _).symm
    rintro x ⟨⟩
    rfl
  have hpoll := Clocked.Run.step .poll hping (fun _ h => nomatch h)
    (show (system prost).step onePing .poll = some awaitingPong from
      (Option.some_get _).symm)
  refine .step (.item (fromSecs 10) (.msg .pong)) (.wait _ hpoll (by decide) (by decide)) ?_
    (Option.some_get _).symm
  rintro x ⟨⟩
  rfl

end Sample

namespace SessionDriver

/-- A Pong that came a second after its heartbeat: the sweep finds the session alive. -/
theorem answered_pings_keep_session_pong :
    ∃ d', Sample.onePong.step Sample.prost (.sweep (fromSecs 12)) = some d' ∧
      ∃ l', d'.phase = .connected l' := by
  have hrun : TimedRun Sample.prost (fromSecs 11) Sample.onePong (fromSecs 12) Sample.onePongLog :=
    ⟨0, [Sample.item Sample.logonFrame], Sample.session, (Option.some_get _).symm,
      .wait _ Sample.onePong_run (by decide) (by decide)⟩
  refine ⟨(Sample.onePong.step Sample.prost (.sweep (fromSecs 12))).get (by decide),
    (Option.some_get _).symm, ?_⟩
  have hroom : Sample.onePong.heartbeat + fromSecs 11 + fromSecs 1 <
      idleTimeout Sample.onePong.heartbeat := by
    decide
  refine answered_pings_keep_session hrun rfl hroom ?_ (Option.some_get _).symm
  intro x sent hmem _
  exact ⟨fromSecs 10, by decide, Sample.onePong_run.le_now _ hmem⟩

end SessionDriver

end Steamroids
