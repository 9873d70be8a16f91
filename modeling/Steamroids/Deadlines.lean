import Steamroids.Keepalive

/-!
# Deadlines of Requests

The driver holds a request open until it is answered, its caller goes, or its deadline passes.
The deadline is looked at by the sweep. On a timed run the sweep comes about every second, so
a request is given up soon after its deadline, and never before it.

## Main results

* `TimedRun.waits`: a request that waits was taken or is due not long before the next sweep.
* `requests_settled_on_time`: neither early nor late.
-/

namespace Steamroids

namespace SessionDriver

variable {P : Prost} {d d' : SessionDriver} {lag now : Nat} {log : List (Nat × Effect)}

/-- The next sweep is at most an interval away, and finds every request at most that long after
it was taken or its deadline passed. Requests have only been given up after their deadlines. -/
structure Waits (d : SessionDriver) (now : Nat) (log : List (Nat × Effect)) : Prop where
  next : ∀ l, d.phase = .connected l → l.nextSweep ≤ now + pendingSweepInterval
  waits : ∀ l, d.phase = .connected l → ∀ entry ∈ d.pending.entries,
    ∃ x emsg body, (x, .took (.request emsg body entry.2.deadline entry.2.reply)) ∈ log ∧
      l.nextSweep ≤ max x entry.2.deadline + pendingSweepInterval
  expired : ∀ x ch what delivered, (x, .replied ch (.error (.timeout what)) delivered) ∈ log →
    ∃ y emsg body deadline, (y, .took (.request emsg body deadline ch)) ∈ log ∧ deadline ≤ x

/-- What a step has stamped is what it did. -/
theorem mem_news {t : Nat} {es : List Effect} (hlog : d'.log = d.log ++ es) {x : Nat × Effect} :
    x ∈ log ++ (system P).news t d d' ↔ x ∈ log ∨ x.1 = t ∧ x.2 ∈ es := by
  rw [(system P).news_of_append hlog, List.mem_append, List.mem_map]
  constructor
  · rintro (hx | ⟨e, he, rfl⟩)
    · exact .inl hx
    · exact .inr ⟨rfl, he⟩
  · rintro (hx | ⟨rfl, he⟩)
    · exact .inl hx
    · exact .inr ⟨x.2, he, rfl⟩

/-- Whatever does not sweep gives up no request, and the requests that it takes are taken now. -/
theorem Waits.keep (h : Waits d now log) {es : List Effect} (hlog : d'.log = d.log ++ es)
    (hes : ∀ e ∈ es, e.timesOut = false)
    (hpend : ∀ entry ∈ d'.pending.entries, entry ∈ d.pending.entries ∨
      ∃ emsg body, .took (.request emsg body entry.2.deadline entry.2.reply) ∈ es)
    (hnext : ∀ l', d'.phase = .connected l' →
      ∃ l, d.phase = .connected l ∧ l'.nextSweep = l.nextSweep) :
    Waits d' now (log ++ (system P).news now d d') := by
  constructor
  · intro l' hl'
    obtain ⟨l, hl, heq⟩ := hnext l' hl'
    rw [heq]
    exact h.next l hl
  · intro l' hl' entry hentry
    obtain ⟨l, hl, heq⟩ := hnext l' hl'
    rcases hpend entry hentry with hentry | ⟨emsg, body, htook⟩
    · obtain ⟨x, emsg, body, htook, hle⟩ := h.waits l hl entry hentry
      exact ⟨x, emsg, body, List.mem_append_left _ htook, heq ▸ hle⟩
    · refine ⟨now, emsg, body, (mem_news hlog).mpr (.inr ⟨rfl, htook⟩), ?_⟩
      rw [heq]
      exact (h.next l hl).trans (Nat.add_le_add_right (Nat.le_max_left _ _) _)
  · intro x ch what delivered hmem
    rcases (mem_news hlog).mp hmem with hmem | ⟨-, hmem⟩
    · obtain ⟨y, emsg, body, deadline, htook, hle⟩ := h.expired x ch what delivered hmem
      exact ⟨y, emsg, body, deadline, List.mem_append_left _ htook, hle⟩
    · exact absurd (hes _ hmem) (by simp [Effect.timesOut])

/-- The sweep gives up the requests whose deadline has passed, and keeps the others. -/
theorem Waits.sweep (h : Waits d now log) {l : ConnectedLoop} (hph : d.phase = .connected l)
    (l' : ConnectedLoop) (hl' : l'.nextSweep = now + pendingSweepInterval) :
    Waits { d.sweepPending now with phase := .connected l' } now
      (log ++ (system P).news now d { d.sweepPending now with phase := .connected l' }) := by
  have hlog : { d.sweepPending now with phase := .connected l' }.log = d.log ++
      d.pending.entries.filterMap fun entry => d.sweepEntry now entry.2 := rfl
  constructor
  · rintro _ ⟨⟩
    exact le_of_eq hl'
  · rintro _ ⟨⟩ entry hentry
    obtain ⟨hmem, hkept⟩ := List.mem_filter.mp hentry
    obtain ⟨x, emsg, body, htook, -⟩ := h.waits l hph entry hmem
    refine ⟨x, emsg, body, List.mem_append_left _ htook, ?_⟩
    have hdeadline : now < entry.2.deadline := by
      by_contra hle
      simp only [sweepEntry, Nat.le_of_not_lt hle, if_true] at hkept
      split at hkept <;> cases hkept
    rw [hl']
    exact Nat.add_le_add_right (hdeadline.le.trans (Nat.le_max_right _ _)) _
  · intro x ch what delivered hmem
    rcases (mem_news hlog).mp hmem with hmem | ⟨hx, hmem⟩
    · obtain ⟨y, emsg, body, deadline, htook, hle⟩ := h.expired x ch what delivered hmem
      exact ⟨y, emsg, body, deadline, List.mem_append_left _ htook, hle⟩
    · obtain rfl : x = now := hx
      obtain ⟨entry, hentry, hswept⟩ := List.mem_filterMap.mp hmem
      obtain ⟨y, emsg, body, htook, -⟩ := h.waits l hph entry hentry
      simp only [sweepEntry] at hswept
      split at hswept
      · cases hswept
      · split at hswept
        · rename_i hle
          obtain ⟨rfl, -, -⟩ := Effect.replied.inj (Option.some.inj hswept)
          exact ⟨y, emsg, body, _, List.mem_append_left _ htook, hle⟩
        · cases hswept

/-- **Run lemma.** Every pending request was taken, and its deadline counts from then. -/
theorem TimedRun.waits (h : TimedRun P lag d now log) : Waits d now log := by
  have hquiet : ∀ {es : List Effect}, (∀ e ∈ es, e.isTimed = false) →
      ∀ e ∈ es, e.timesOut = false := fun hes e he => (Effect.not_timed (hes e he) 0).2.2
  refine h.invariant ?_ ?_ ?_
  · intro t₀ items d₀ h₀
    obtain ⟨c, -, rfl⟩ := Option.map_eq_some_iff.mp h₀
    constructor
    · rintro _ ⟨⟩
      exact le_rfl
    · intro l _ entry hentry
      cases hentry
    · intro x ch what delivered hmem
      simp [enterConnected] at hmem
  · intro d t log t' hd hle hdue
    exact ⟨fun l hl => (hd.next l hl).trans (Nat.add_le_add_right hle _), hd.waits, hd.expired⟩
  · intro d t log i d' hrun hd hstamp hticks
    cases hticks with
    | @live items c now hc hpend =>
        obtain rfl : now = t := hstamp now rfl
        have hlog := goLive_log d now items c.1 c.2
        constructor
        · rintro _ ⟨⟩
          exact le_rfl
        · intro l _ entry hentry
          have hentry : entry ∈ d.pending.entries := hentry
          rw [hpend] at hentry
          cases hentry
        · intro x ch what delivered hmem
          rcases (mem_news hlog).mp hmem with hmem | ⟨-, hmem⟩
          · obtain ⟨y, emsg, body, deadline, htook, hle⟩ := hd.expired x ch what delivered hmem
            exact ⟨y, emsg, body, deadline, List.mem_append_left _ htook, hle⟩
          · simp [adoption] at hmem
    | @beat _ l write now ping hph hle hun htimed =>
        obtain ⟨es, hlog, hes, hpend⟩ := hun.log
        refine hd.keep (hlog.trans (List.append_assoc _ _ _)) ?_ ?_
          fun l' hl' => ⟨l, hph, (htimed l' hl').2⟩
        · exact List.forall_mem_append.mpr ⟨by simp [Effect.timesOut], hquiet hes⟩
        · intro entry hentry
          rcases hpend entry hentry with hentry | ⟨emsg, body, htook⟩
          · exact .inl hentry
          · exact .inr ⟨emsg, body, List.mem_append_right _ htook⟩
    | @heard _ l now it hph hun htimed =>
        obtain ⟨es, hlog, hes, hpend⟩ := hun.log
        refine hd.keep (hlog.trans (List.append_assoc _ _ _)) ?_ ?_
          fun l' hl' => ⟨l, hph, (htimed l' hl').2⟩
        · exact List.forall_mem_append.mpr ⟨by simp [Effect.timesOut], hquiet hes⟩
        · intro entry hentry
          rcases hpend entry hentry with hentry | ⟨emsg, body, htook⟩
          · exact .inl hentry
          · exact .inr ⟨emsg, body, List.mem_append_right _ htook⟩
    | @swept l now hph hle hidle =>
        obtain rfl : now = t := hstamp now rfl
        exact hd.sweep hph _ rfl
    | other hun htimed =>
        obtain ⟨es, hlog, hes, hpend⟩ := hun.log
        refine hd.keep hlog (hquiet hes) hpend ?_
        intro l' hl'
        obtain ⟨l, hl, -, hsw⟩ := htimed l' hl'
        exact ⟨l, hl, hsw⟩

/-- A request is taken once. -/
theorem TimedRun.took_once (h : TimedRun P lag d now log) {x x' : Nat} {c c' : Command}
    (hmem : (x, .took c) ∈ log) (hmem' : (x', .took c') ∈ log) (hreq : c.isRequest = true)
    (hreq' : c'.isRequest = true) (hch : c.chan = c'.chan) : x = x' ∧ c = c' := by
  have honce : log.countP (fun y => y.2.takesRequest c.chan) ≤ 1 := by
    have hcount := h.reachable.balanced.once c.chan
    have hmap := List.countP_map (p := Effect.takesRequest c.chan) (f := Prod.snd) (l := log)
    rw [h.ledger] at hmap
    have : log.countP (fun y => y.2.takesRequest c.chan) =
        d.log.countP (Effect.takesRequest c.chan) := hmap.symm
    omega
  have heq := Ledger.eq_of_countP_le_one honce hmem hmem' (by simp [Effect.takesRequest, hreq])
    (by simp [Effect.takesRequest, hreq', hch])
  obtain ⟨hx, hc⟩ := Prod.mk.inj heq
  exact ⟨hx, Effect.took.inj hc⟩

/-- **Requests are settled on time.** A request is given up as timed out only at or after its
deadline. Once a sweep interval and the lag have passed since its deadline, or since it was taken if
that was later, it has been answered, given up or dropped, exactly once. -/
theorem requests_settled_on_time (h : TimedRun P lag d now log) {x : Nat} {emsg : UInt32}
    {body : Bytes} {deadline : Nat} {ch : Chan}
    (htook : (x, .took (.request emsg body deadline ch)) ∈ log) :
    (∀ y what delivered, (y, .replied ch (.error (.timeout what)) delivered) ∈ log →
      deadline ≤ y) ∧
    (JobIdsLeft d.log → max x deadline + pendingSweepInterval + lag < now →
      d.log.countP (Effect.settles ch) = 1) := by
  constructor
  · intro y what delivered hmem
    obtain ⟨y', emsg', body', deadline', htook', hle⟩ := h.waits.expired y ch what delivered hmem
    obtain ⟨-, heq⟩ := h.took_once htook' htook rfl rfl rfl
    obtain ⟨-, -, rfl, -⟩ := Command.request.inj heq
    exact hle
  · intro hleft hlate
    have hbal := h.reachable.balanced
    have hmem : .took (.request emsg body deadline ch) ∈ d.log := by
      rw [← h.ledger]
      exact List.mem_map_of_mem htook
    have hpos : 0 < d.log.countP (Effect.takesRequest ch) :=
      List.countP_pos_iff.mpr
        ⟨_, hmem, by simp [Effect.takesRequest, Command.isRequest, Command.chan]⟩
    have honce := hbal.once ch
    have hsum := hbal.request hleft ch
    suffices hnone : held d.pending ch = 0 by omega
    refine List.countP_eq_zero.mpr ?_
    intro entry hentry hch
    obtain rfl : entry.2.reply = ch := by simpa using hch
    have hrest := h.reachable.resting
    rcases hph : d.phase with l | secs | secs | result | result
    · obtain ⟨x', emsg', body', htook', hle⟩ := h.waits.waits l hph entry hentry
      obtain ⟨rfl, heq⟩ := h.took_once htook' htook rfl rfl rfl
      obtain ⟨-, -, rfl, -⟩ := Command.request.inj heq
      have hlag := (h.hearings.next l hph).1
      omega
    · simp only [Resting, hph] at hrest
      simp [hrest.2.1] at hentry
    · simp only [Resting, hph] at hrest
      simp [hrest.2.1] at hentry
    · simp only [Resting, hph] at hrest
      simp [hrest] at hentry
    · simp only [Resting, hph] at hrest
      simp [hrest] at hentry

end SessionDriver

namespace Sample

open SessionDriver

/-- A session in which a request is taken that has a second left. -/
def hurried : SessionDriver :=
  (session.step prost (.command (some (.request 151 [] (fromSecs 1) 7)) none)).get
    (by decide)

/-- That session after two seconds, when its sweep has come. -/
def hurriedSwept : SessionDriver :=
  (hurried.step prost (.sweep (fromSecs 2))).get (by decide)

/-- What it has done, and when. -/
def hurriedLog : List (Nat × Effect) :=
  session.log.map (fun e => (0, e)) ++
    (system prost).news 0 session hurried ++
    (system prost).news (fromSecs 2) hurried hurriedSwept

/-- It is a run of the clock, four seconds long. -/
theorem hurried_run :
    TimedRun prost (fromSecs 1) hurriedSwept (fromSecs 4) hurriedLog := by
  refine ⟨0, [item logonFrame], session, (Option.some_get _).symm, ?_⟩
  have htook : Clocked.Run (system prost) (fromSecs 1) session 0 hurried 0
      (session.log.map (fun e => (0, e)) ++
        (system prost).news 0 session hurried) :=
    .step (.command (some (.request 151 [] (fromSecs 1) 7)) none) .start (fun _ h => nomatch h)
      (Option.some_get _).symm
  refine .wait _ (t := fromSecs 2) ?_ (by decide) (by decide)
  refine .step (.sweep (fromSecs 2)) (.wait _ htook (by decide) (by decide)) ?_
    (Option.some_get _).symm
  rintro x ⟨⟩
  rfl

end Sample

namespace SessionDriver

/-- A request with a second left is settled within four, in a run that sweeps after two. -/
theorem requests_settled_on_time_hurried :
    Sample.hurriedSwept.log.countP (Effect.settles 7) = 1 := by
  have hleft : JobIdsLeft Sample.hurriedSwept.log := by
    unfold JobIdsLeft
    decide
  have htook : (0, .took (.request 151 [] (fromSecs 1) 7)) ∈ Sample.hurriedLog := by decide
  exact (requests_settled_on_time Sample.hurried_run htook).2 hleft (by decide)

end SessionDriver

end Steamroids
