import Steamroids.Acts

/-!
# Every Request is Answered Once

A `Request` that the driver takes off its queue is held in the pending table until
something settles it: the message routed to it, a timeout, a lost connection, the end of
the session, or its own caller going away. The ledger makes this a conservation law: for
each channel, the table entries that hold it and the ledger entries that settle it add up
to the ledger entries that took it (`Balanced`).

The law rests on the job ids. A request is entered in the table under the next job id, and
that insertion overwrites nothing as long as the counter has not wrapped around, which
takes `2 ^ 64 - 1` requests (`JobTable`).

## Main results

* `Reachable.jobTable`: the ids in the table are smaller than the next one, and each entry
  stands under the id that its own frame carries.
* `Reachable.balanced`: the conservation law.
* `request_settled_exactly_once`: the fate of every command, at each moment of every run.
-/

namespace Steamroids

/-! ### Reading the ledger -/

namespace Effect

/-- The `Request` on channel `ch` was taken off the queue. -/
def takesRequest (ch : Chan) : Effect → Bool
  | .took c => c.isRequest && c.chan == ch
  | _ => false

/-- The `Notify` or `Logoff` on channel `ch` was taken off the queue. -/
def takesOther (ch : Chan) : Effect → Bool
  | .took c => !c.isRequest && c.chan == ch
  | _ => false

/-- The request on channel `ch` got its answer. -/
def resolves (ch : Chan) : Effect → Bool
  | .replied c _ delivered => delivered && c == ch
  | _ => false

/-- The request on channel `ch` was dropped: its caller was found gone, by the sweep or by
a `send` that could not deliver. -/
def drops (ch : Chan) : Effect → Bool
  | .replied c _ delivered => !delivered && c == ch
  | .reaped c => c == ch
  | _ => false

/-- The request on channel `ch` was resolved or dropped. -/
def settles (ch : Chan) : Effect → Bool
  | .replied c _ _ => c == ch
  | .reaped c => c == ch
  | _ => false

/-- The command on channel `ch` was acknowledged. -/
def acks (ch : Chan) : Effect → Bool
  | .acked c _ => c == ch
  | _ => false

/-- An effect that neither takes nor answers a command. -/
def isQuiet : Effect → Bool
  | .took _ => false
  | .acked _ _ => false
  | .replied _ _ _ => false
  | .reaped _ => false
  | _ => true

/-- Some request was taken off the queue. -/
def isRequest : Effect → Bool
  | .took c => c.isRequest
  | _ => false

end Effect

/-- How many requests have been taken off the queue. -/
def requestCount (log : List Effect) : Nat := log.countP Effect.isRequest

/-- The job id counter has not come near its end: fewer than `2 ^ 64 - 2` requests. -/
def JobIdsLeft (log : List Effect) : Prop := requestCount log < 2 ^ 64 - 2

/-- The request on channel `ch` was taken, and its own frame written with it on connection `conn`,
with the job id `jobid`. -/
def Wrote (log : List Effect) (conn : Nat) (ch : Chan) (jobid : UInt64) : Prop :=
  ∃ emsg header body deadline,
    [.took (.request emsg body deadline ch), .wrote conn ⟨emsg, header, body⟩ (some ch) true] <:+:
      log ∧ header.jobidSource = some jobid

/-- What was written stays written. -/
theorem Wrote.append {log : List Effect} {conn : Nat} {ch : Chan} {jobid : UInt64}
    (h : Wrote log conn ch jobid) (es : List Effect) : Wrote (log ++ es) conn ch jobid := by
  obtain ⟨emsg, header, body, deadline, hwithin, hjob⟩ := h
  exact ⟨emsg, header, body, deadline, hwithin.trans (List.prefix_append log es).isInfix, hjob⟩

/-- If there are job ids left now, there were before. -/
theorem JobIdsLeft.of_append {log es : List Effect} (h : JobIdsLeft (log ++ es)) :
    JobIdsLeft log := by
  simp only [JobIdsLeft, requestCount, List.countP_append] at h ⊢
  omega

/-- To settle a request is to resolve it or to drop it. -/
theorem countP_settles (ch : Chan) (log : List Effect) :
    log.countP (Effect.settles ch) =
      log.countP (Effect.resolves ch) + log.countP (Effect.drops ch) := by
  induction log with
  | nil => rfl
  | cons e log ih =>
      cases e with
      | replied c res delivered =>
          cases delivered
          · simp only [List.countP_cons, ih, Effect.settles, Effect.resolves, Effect.drops]
            simp
            omega
          · simp only [List.countP_cons, ih, Effect.settles, Effect.resolves, Effect.drops]
            simp
            omega
      | reaped c =>
          simp only [List.countP_cons, ih, Effect.settles, Effect.resolves, Effect.drops]
          simp
          omega
      | _ =>
          simpa [List.countP_cons, Effect.settles, Effect.resolves, Effect.drops] using ih

namespace SessionDriver

variable {P : Prost} {d d' : SessionDriver}

/-! ### Job ids -/

/-- The pending table and the job id counter. -/
structure JobTable (d : SessionDriver) : Prop where
  next_pos : 1 ≤ d.nextJobid.toNat
  next_le : d.nextJobid.toNat ≤ requestCount d.log + 1
  lt_next : JobIdsLeft d.log → ∀ jobid ∈ d.pending, jobid < d.nextJobid
  wrote : ∀ jobid entry, d.pending.lookup jobid = some entry →
    Wrote d.log d.conn entry.reply jobid

/-- The next job id, below the last one. -/
theorem bumpJobid_of_lt {jobid : UInt64} (h : jobid.toNat < 2 ^ 64 - 1) :
    (bumpJobid jobid).toNat = jobid.toNat + 1 := by
  have hne : jobid ≠ u64Max := by
    rintro rfl
    exact absurd h (by decide)
  simp only [bumpJobid, hne, if_false, UInt64.toNat_add, UInt64.toNat_ofNat]
  omega

/-- A job id is never zero, and grows by at most one. -/
theorem bumpJobid_bounds (jobid : UInt64) :
    1 ≤ (bumpJobid jobid).toNat ∧ (bumpJobid jobid).toNat ≤ jobid.toNat + 1 := by
  by_cases h : jobid.toNat < 2 ^ 64 - 1
  · rw [bumpJobid_of_lt h]
    omega
  · have hmax : jobid = u64Max := by
      have := jobid.toNat_lt
      apply UInt64.toNat_inj.mp
      show jobid.toNat = 2 ^ 64 - 1
      omega
    simp [bumpJobid, hmax]

/-- A request gets a message only for its own job. -/
theorem waiter_eq_some {msg : SteamMessage} {jobid : UInt64} {entry : Pending}
    (h : d.waiter msg = some (jobid, entry)) :
    msg.header.jobidTarget = some jobid ∧ d.pending.lookup jobid = some entry := by
  simp only [waiter] at h
  rcases hf : msg.header.jobidTarget.filter fun j => j != 0 && j != u64Max with _ | j
  · simp [hf] at h
  · simp only [hf, Option.map_eq_some_iff, Prod.mk.injEq] at h
    obtain ⟨e, he, rfl, rfl⟩ := h
    obtain ⟨hj, -⟩ := Option.filter_eq_some_iff.mp hf
    exact ⟨hj, he⟩

/-- A table whose entries all were in the table before is as good as it. -/
theorem JobTable.shrink (h : JobTable d) (hnext : d'.nextJobid = d.nextJobid)
    (hlog : ∃ es, d'.log = d.log ++ es)
    (hsub : ∀ jobid entry, d'.pending.lookup jobid = some entry →
      d.pending.lookup jobid = some entry ∧ d'.conn = d.conn) : JobTable d' := by
  obtain ⟨es, hes⟩ := hlog
  refine ⟨by rw [hnext]; exact h.next_pos, ?_, ?_, ?_⟩
  · have := h.next_le
    simp only [hnext, hes, requestCount, List.countP_append] at this ⊢
    omega
  · intro hleft jobid hmem
    obtain ⟨entry, hentry⟩ := Option.isSome_iff_exists.mp (AList.lookup_isSome.mpr hmem)
    rw [hes] at hleft
    rw [hnext]
    refine h.lt_next hleft.of_append jobid (AList.lookup_isSome.mp ?_)
    rw [(hsub jobid entry hentry).1]
    rfl
  · intro jobid entry hentry
    obtain ⟨hold, hconn⟩ := hsub jobid entry hentry
    rw [hes, hconn]
    exact (h.wrote jobid entry hold).append es

/-- A request spends a job id, whether its frame is sent or not. -/
theorem JobTable.spend (h : JobTable d) {es : List Effect}
    (hcount : es.countP Effect.isRequest = 1) :
    JobTable { d with nextJobid := bumpJobid d.nextJobid, log := d.log ++ es } := by
  have hreq : requestCount (d.log ++ es) = requestCount d.log + 1 := by
    simp [requestCount, hcount]
  obtain ⟨hpos, hle⟩ := bumpJobid_bounds d.nextJobid
  have hnext := h.next_le
  refine ⟨hpos, by simp only [hreq]; omega, ?_, ?_⟩
  · intro hleft jobid hmem
    have hlt := UInt64.lt_iff_toNat_lt.mp (h.lt_next hleft.of_append jobid hmem)
    simp only [JobIdsLeft, hreq] at hleft
    have hbump := bumpJobid_of_lt (show d.nextJobid.toNat < 2 ^ 64 - 1 by omega)
    exact UInt64.lt_iff_toNat_lt.mpr (by simp only [hbump]; omega)
  · intro jobid entry hentry
    exact (h.wrote jobid entry hentry).append es

/-- A request is entered under the id that its frame carried. -/
theorem JobTable.enter (h : JobTable d) {es : List Effect}
    (hcount : es.countP Effect.isRequest = 1) {entry : Pending}
    (hwrote : Wrote es d.conn entry.reply d.nextJobid) :
    JobTable { d with
      nextJobid := bumpJobid d.nextJobid
      pending := d.pending.insert d.nextJobid entry
      log := d.log ++ es } := by
  have hspend := h.spend hcount
  refine ⟨hspend.next_pos, hspend.next_le, ?_, ?_⟩
  · intro hleft jobid hmem
    rcases (AList.mem_insert d.pending).mp hmem with rfl | hmem
    · have hreq : requestCount (d.log ++ es) = requestCount d.log + 1 := by
        simp [requestCount, hcount]
      have hnext := h.next_le
      simp only [JobIdsLeft, hreq] at hleft
      have hbump := bumpJobid_of_lt (show d.nextJobid.toNat < 2 ^ 64 - 1 by omega)
      exact UInt64.lt_iff_toNat_lt.mpr (by simp only [hbump]; omega)
    · exact hspend.lt_next hleft jobid hmem
  · intro jobid entry' hentry
    by_cases hjob : jobid = d.nextJobid
    · subst hjob
      rw [AList.lookup_insert, Option.some.injEq] at hentry
      subst hentry
      obtain ⟨emsg, header, body, deadline, hwithin, hid⟩ := hwrote
      exact ⟨emsg, header, body, deadline, hwithin.trans (List.suffix_append d.log es).isInfix, hid⟩
    · rw [AList.lookup_insert_ne hjob] at hentry
      exact hspend.wrote jobid entry' hentry

/-- **Step lemma.** Every act keeps the job table. -/
theorem JobTable.act (hact : Act P d d') (h : JobTable d) : JobTable d' := by
  have hlog := hact.log_append
  cases hact with
  | request emsg body deadline ch _ =>
      exact h.enter rfl ⟨emsg, (d.frame emsg (some d.nextJobid) body).header, body, deadline,
        List.infix_rfl, rfl⟩
  | requestFailed emsg body deadline ch _ => exact h.spend rfl
  | @route msg rest jobid entry _ _ =>
      refine h.shrink rfl hlog ?_
      intro jobid' entry' hentry
      by_cases hjob : jobid' = jobid
      · subst hjob
        simp at hentry
      · rw [AList.lookup_erase_ne hjob] at hentry
        exact ⟨hentry, rfl⟩
  | sweep now =>
      refine h.shrink rfl hlog ?_
      intro jobid entry hentry
      have hmem := AList.mem_lookup_iff.mp hentry
      exact ⟨AList.mem_lookup_iff.mpr (List.mem_of_mem_filter hmem), rfl⟩
  | failAll reason _ => exact h.shrink rfl hlog (by simp [failAllPending])
  | live now _ hpend _ _ => exact h.shrink rfl hlog (by simp [hpend])
  | _ => exact h.shrink rfl hlog fun _ _ hentry => ⟨hentry, rfl⟩

/-- **Run lemma.** The job table holds in every reachable state. -/
theorem Reachable.jobTable (h : Reachable P d) : JobTable d := by
  refine h.invariant ?_ fun _ _ => JobTable.act
  intro now items d₀ h₀
  obtain ⟨c, -, hs⟩ := spawn_spec h₀
  refine ⟨?_, ?_, ?_, ?_⟩
  · rw [hs.nextJobid]
    decide
  · rw [hs.nextJobid]
    exact Nat.le_add_left 1 _
  · simp [hs.pending]
  · simp [hs.pending]

/-! ### The conservation law -/

/-- How often channel `ch` is held in a pending table. -/
def held (pending : AList fun _ : UInt64 => Pending) (ch : Chan) : Nat :=
  pending.entries.countP fun entry => entry.2.reply == ch

/-- Nothing is lost and nothing is answered twice, channel by channel. Only an exhausted
job id counter can lose a request. -/
structure Balanced (d : SessionDriver) : Prop where
  request_le : ∀ ch, held d.pending ch + d.log.countP (Effect.settles ch) ≤
    d.log.countP (Effect.takesRequest ch)
  request : JobIdsLeft d.log → ∀ ch, held d.pending ch + d.log.countP (Effect.settles ch) =
    d.log.countP (Effect.takesRequest ch)
  ack : ∀ ch, d.log.countP (Effect.acks ch) = d.log.countP (Effect.takesOther ch)
  once : ∀ ch, d.log.countP (Effect.takesRequest ch) + d.log.countP (Effect.takesOther ch) ≤ 1

/-- The channel of a new command has not been taken before. -/
theorem isNew_iff {c : Command} :
    d.isNew (some c) ↔ d.log.countP (Effect.takesRequest c.chan) = 0 ∧
      d.log.countP (Effect.takesOther c.chan) = 0 := by
  simp only [isNew, Bool.not_eq_true', List.any_eq_false, List.countP_eq_zero]
  constructor
  · intro h
    constructor
    · intro e he
      have := h e he
      cases e <;> simp_all [Effect.takesRequest]
    · intro e he
      have := h e he
      cases e <;> simp_all [Effect.takesOther]
  · rintro ⟨hreq, hoth⟩ e he
    have h₁ := hreq e he
    have h₂ := hoth e he
    cases e with
    | took c' =>
        cases hc : c'.isRequest
        · simpa [Effect.takesOther, hc] using h₂
        · simpa [Effect.takesRequest, hc] using h₁
    | _ => simp

/-- A new request adds itself to those held on its channel. -/
theorem held_insert {jobid : UInt64} (h : jobid ∉ d.pending) (entry : Pending) (ch : Chan) :
    held (d.pending.insert jobid entry) ch =
      held d.pending ch + if entry.reply = ch then 1 else 0 := by
  rw [held, AList.entries_insert_of_notMem h, List.countP_cons, held]
  simp

/-- An insert adds at most one to those held on its channel. -/
theorem held_insert_le (jobid : UInt64) (entry : Pending) (ch : Chan) :
    held (d.pending.insert jobid entry) ch ≤
      held d.pending ch + if entry.reply = ch then 1 else 0 := by
  have hsub : (d.pending.entries.kerase jobid).countP (fun e => e.2.reply == ch) ≤
      held d.pending ch := (List.kerase_sublist jobid _).countP_le
  rw [held, AList.entries_insert, List.countP_cons]
  simp only [beq_iff_eq]
  omega

/-- An erased request is one less on its channel. -/
theorem held_erase {jobid : UInt64} {entry : Pending} (h : d.pending.lookup jobid = some entry)
    (ch : Chan) :
    held (d.pending.erase jobid) ch + (if entry.reply = ch then 1 else 0) =
      held d.pending ch := by
  have hmem : jobid ∈ d.pending.entries.keys := AList.lookup_isSome.mp (by rw [h]; rfl)
  obtain ⟨entry', l₁, l₂, hnot, hsplit, herase⟩ := List.exists_of_kerase hmem
  obtain rfl : entry' = entry := by
    have hin : ⟨jobid, entry'⟩ ∈ d.pending.entries := by simp [hsplit]
    exact Option.some.inj ((AList.mem_lookup_iff.mpr hin).symm.trans h)
  show (d.pending.entries.kerase jobid).countP _ + _ = _
  rw [herase, held, hsplit]
  simp only [List.countP_append, List.countP_cons]
  by_cases hch : entry'.reply = ch
  · simp [hch]
    omega
  · simp [hch]

/-- Settling the entries that `settle` picks, and keeping the others, is balanced. -/
theorem countP_settled (settle : Pending → Option Effect) (ch : Chan)
    (hsettle : ∀ entry e, settle entry = some e → e.settles ch = (entry.reply == ch))
    (entries : List (Sigma fun _ : UInt64 => Pending)) :
    (entries.filter fun entry => (settle entry.2).isNone).countP
          (fun entry => entry.2.reply == ch) +
        (entries.filterMap fun entry => settle entry.2).countP (Effect.settles ch) =
      entries.countP fun entry => entry.2.reply == ch := by
  induction entries with
  | nil => rfl
  | cons entry entries ih =>
      rcases hs : settle entry.2 with _ | e
      · simp only [List.filter_cons, List.filterMap_cons, hs, Option.isNone_none, if_true,
          List.countP_cons]
        omega
      · simp only [List.filter_cons, List.filterMap_cons, hs, Option.isNone_some,
          Bool.false_eq_true, if_false, List.countP_cons, hsettle _ e hs]
        omega

/-- Appending a block to a balanced ledger. -/
theorem Balanced.extend (h : Balanced d) {es : List Effect} (hlog : d'.log = d.log ++ es)
    (hle : ∀ ch, held d'.pending ch + es.countP (Effect.settles ch) ≤
      held d.pending ch + es.countP (Effect.takesRequest ch))
    (heq : JobIdsLeft d.log → ∀ ch, held d'.pending ch + es.countP (Effect.settles ch) =
      held d.pending ch + es.countP (Effect.takesRequest ch))
    (hack : ∀ ch, es.countP (Effect.acks ch) = es.countP (Effect.takesOther ch))
    (honce : ∀ ch, es.countP (Effect.takesRequest ch) + es.countP (Effect.takesOther ch) = 0 ∨
      (es.countP (Effect.takesRequest ch) + es.countP (Effect.takesOther ch) = 1 ∧
        d.log.countP (Effect.takesRequest ch) = 0 ∧ d.log.countP (Effect.takesOther ch) = 0)) :
    Balanced d' := by
  refine ⟨?_, ?_, ?_, ?_⟩
  · intro ch
    have h₁ := h.request_le ch
    have h₂ := hle ch
    simp only [hlog, List.countP_append]
    omega
  · intro hleft ch
    rw [hlog] at hleft
    have h₁ := h.request hleft.of_append ch
    have h₂ := heq hleft.of_append ch
    simp only [hlog, List.countP_append]
    omega
  · intro ch
    simp only [hlog, List.countP_append, h.ack ch, hack ch]
  · intro ch
    have h₁ := h.once ch
    have h₂ := honce ch
    simp only [hlog, List.countP_append]
    omega

/-- Appending a balanced block to a balanced ledger. -/
theorem Balanced.extend_eq (h : Balanced d) {es : List Effect} (hlog : d'.log = d.log ++ es)
    (heq : ∀ ch, held d'.pending ch + es.countP (Effect.settles ch) =
      held d.pending ch + es.countP (Effect.takesRequest ch))
    (hack : ∀ ch, es.countP (Effect.acks ch) = es.countP (Effect.takesOther ch))
    (honce : ∀ ch, es.countP (Effect.takesRequest ch) + es.countP (Effect.takesOther ch) = 0 ∨
      (es.countP (Effect.takesRequest ch) + es.countP (Effect.takesOther ch) = 1 ∧
        d.log.countP (Effect.takesRequest ch) = 0 ∧ d.log.countP (Effect.takesOther ch) = 0)) :
    Balanced d' :=
  h.extend hlog (fun ch => Nat.le_of_eq (heq ch)) (fun _ => heq) hack honce

/-- Quiet effects neither take, settle nor acknowledge. -/
theorem counts_of_isQuiet {e : Effect} (h : e.isQuiet) (ch : Chan) :
    e.settles ch = false ∧ e.takesRequest ch = false ∧ e.takesOther ch = false ∧
      e.acks ch = false := by
  cases e <;> first | exact ⟨rfl, rfl, rfl, rfl⟩ | cases h

/-- Quiet effects count for nothing. -/
theorem countP_of_quiet {es : List Effect} (hes : ∀ e ∈ es, e.isQuiet) (ch : Chan) :
    es.countP (Effect.settles ch) = 0 ∧ es.countP (Effect.takesRequest ch) = 0 ∧
      es.countP (Effect.takesOther ch) = 0 ∧ es.countP (Effect.acks ch) = 0 := by
  have hcounts := fun e he => counts_of_isQuiet (hes e he) ch
  simp only [List.countP_eq_zero, Bool.not_eq_true]
  exact ⟨fun e he => (hcounts e he).1, fun e he => (hcounts e he).2.1,
    fun e he => (hcounts e he).2.2.1, fun e he => (hcounts e he).2.2.2⟩

/-- Quiet effects keep the balance. -/
theorem Balanced.quiet (h : Balanced d) {es : List Effect} (hlog : d'.log = d.log ++ es)
    (hes : ∀ e ∈ es, e.isQuiet) (hpend : d'.pending = d.pending) : Balanced d' := by
  refine h.extend_eq hlog ?_ ?_ ?_
  · intro ch
    obtain ⟨hset, hreq, -, -⟩ := countP_of_quiet hes ch
    rw [hset, hreq, held, held, hpend]
  · intro ch
    obtain ⟨-, -, hother, hack⟩ := countP_of_quiet hes ch
    rw [hother, hack]
  · intro ch
    obtain ⟨-, hreq, hother, -⟩ := countP_of_quiet hes ch
    exact .inl (by rw [hreq, hother])

/-- A new command comes on a channel of its own. -/
theorem takes_new {c : Command} (hnew : d.isNew (some c)) {es : List Effect}
    (hes : ∀ ch, es.countP (Effect.takesRequest ch) + es.countP (Effect.takesOther ch) = 0)
    (ch : Chan) :
    (.took c :: es).countP (Effect.takesRequest ch) +
        (.took c :: es).countP (Effect.takesOther ch) = 0 ∨
      ((.took c :: es).countP (Effect.takesRequest ch) +
          (.took c :: es).countP (Effect.takesOther ch) = 1 ∧
        d.log.countP (Effect.takesRequest ch) = 0 ∧ d.log.countP (Effect.takesOther ch) = 0) := by
  obtain ⟨hreq, hother⟩ := Nat.add_eq_zero_iff.mp (hes ch)
  by_cases hch : c.chan = ch
  · subst hch
    refine .inr ⟨?_, isNew_iff.mp hnew⟩
    cases hc : c.isRequest <;>
      simp [hreq, hother, Effect.takesRequest, Effect.takesOther, hc]
  · exact .inl (by simp [hreq, hother, Effect.takesRequest, Effect.takesOther, hch])

/-- A new command that is answered by acknowledging it keeps the balance. -/
theorem Balanced.acked (h : Balanced d) {c : Command} (hnew : d.isNew (some c))
    (hc : c.isRequest = false) (mid : List Effect) {res : Except Error Unit}
    (hmid : ∀ e ∈ mid, e.isQuiet) (hlog : d'.log = d.log ++ (.took c :: mid ++ [.acked c.chan res]))
    (hpend : d'.pending = d.pending) : Balanced d' := by
  refine h.extend_eq hlog ?_ ?_ ?_
  · intro ch
    obtain ⟨hset, hreq, -, -⟩ := countP_of_quiet hmid ch
    simp [hset, hreq, Effect.settles, Effect.takesRequest, hc, held, hpend]
  · intro ch
    obtain ⟨-, -, hother, hack⟩ := countP_of_quiet hmid ch
    simp [List.countP_cons, hother, hack, Effect.takesOther, Effect.acks, hc]
  · refine takes_new hnew fun ch => ?_
    obtain ⟨-, hreq, hother, -⟩ := countP_of_quiet hmid ch
    simp [hreq, hother, Effect.takesRequest, Effect.takesOther]

/-- A new request that is entered in the table keeps the balance. -/
theorem Balanced.entered (h : Balanced d) {c : Command} (hnew : d.isNew (some c))
    (hc : c.isRequest = true) (mid : List Effect) (hmid : ∀ e ∈ mid, e.isQuiet)
    (hlog : d'.log = d.log ++ .took c :: mid)
    (hle : ∀ ch, held d'.pending ch ≤ held d.pending ch + if c.chan = ch then 1 else 0)
    (heq : JobIdsLeft d.log →
      ∀ ch, held d'.pending ch = held d.pending ch + if c.chan = ch then 1 else 0) :
    Balanced d' := by
  refine h.extend hlog ?_ ?_ ?_ ?_
  · intro ch
    obtain ⟨hset, hreq, -, -⟩ := countP_of_quiet hmid ch
    simpa [List.countP_cons, hset, hreq, Effect.settles, Effect.takesRequest, hc] using hle ch
  · intro hleft ch
    obtain ⟨hset, hreq, -, -⟩ := countP_of_quiet hmid ch
    simpa [List.countP_cons, hset, hreq, Effect.settles, Effect.takesRequest, hc]
      using heq hleft ch
  · intro ch
    obtain ⟨-, -, hother, hack⟩ := countP_of_quiet hmid ch
    simp [hother, hack, Effect.takesOther, Effect.acks, hc]
  · refine takes_new hnew fun ch => ?_
    obtain ⟨-, hreq, hother, -⟩ := countP_of_quiet hmid ch
    rw [hreq, hother]

/-- A new request that is answered at once keeps the balance. -/
theorem Balanced.answered (h : Balanced d) {c : Command} (hnew : d.isNew (some c))
    (hc : c.isRequest = true) (mid : List Effect) (hmid : ∀ e ∈ mid, e.isQuiet)
    {res : Except Error Arrival} {delivered : Bool}
    (hlog : d'.log = d.log ++ (.took c :: mid ++ [.replied c.chan res delivered]))
    (hpend : d'.pending = d.pending) : Balanced d' := by
  refine h.extend_eq hlog ?_ ?_ ?_
  · intro ch
    obtain ⟨hset, hreq, -, -⟩ := countP_of_quiet hmid ch
    simp [List.countP_cons, hset, hreq, Effect.settles, Effect.takesRequest, hc, held, hpend]
  · intro ch
    obtain ⟨-, -, hother, hack⟩ := countP_of_quiet hmid ch
    simp [hother, hack, Effect.takesOther, Effect.acks, hc]
  · refine takes_new hnew fun ch => ?_
    obtain ⟨-, hreq, hother, -⟩ := countP_of_quiet hmid ch
    simp [hreq, hother, Effect.takesRequest, Effect.takesOther]

/-- The sweep settles the request that it gives up, and no other. -/
theorem sweepEntry_counts {now : Nat} {entry : Pending} {e : Effect}
    (h : d.sweepEntry now entry = some e) (ch : Chan) :
    e.settles ch = (entry.reply == ch) ∧ e.takesRequest ch = false ∧
      e.takesOther ch = false ∧ e.acks ch = false := by
  rcases sweepEntry_cases h with ⟨rfl, -⟩ | rfl
  · exact ⟨rfl, rfl, rfl, rfl⟩
  · exact ⟨rfl, rfl, rfl, rfl⟩

/-- **Step lemma.** Every act keeps the balance of what is taken and settled. -/
theorem Balanced.act (hact : Act P d d') (hjobs : JobTable d) (h : Balanced d) :
    Balanced d' := by
  cases hact with
  | abandon ch => exact h.quiet (List.append_nil _).symm (by simp) rfl
  | turn l' _ => exact h.quiet (List.append_nil _).symm (by simp) rfl
  | exit ph _ => exact h.quiet (List.append_nil _).symm (by simp) rfl
  | notify emsg body ack write hnew =>
      exact h.acked hnew rfl [_] (by simp [Effect.isQuiet]) rfl rfl
  | logoff ack write hnew => exact h.acked hnew rfl [_] (by simp [Effect.isQuiet]) rfl rfl
  | logoffDown ack hnew => exact h.acked hnew rfl [] (by simp) rfl rfl
  | notifyDown emsg body ack hnew => exact h.acked hnew rfl [] (by simp) rfl rfl
  | request emsg body deadline ch hnew =>
      refine h.entered hnew rfl [_] (by simp [Effect.isQuiet]) rfl ?_ ?_
      · exact fun ch' => held_insert_le d.nextJobid { reply := ch, deadline } ch'
      · intro hleft ch'
        have hfresh : d.nextJobid ∉ d.pending := fun hmem =>
          absurd (hjobs.lt_next hleft _ hmem) (UInt64.lt_irrefl _)
        exact held_insert hfresh { reply := ch, deadline } ch'
  | requestFailed emsg body deadline ch hnew =>
      exact h.answered hnew rfl [_] (by simp [Effect.isQuiet]) rfl rfl
  | requestDown emsg body deadline ch hnew => exact h.answered hnew rfl [] (by simp) rfl rfl
  | announce _ _ =>
      refine h.quiet rfl ?_ rfl
      intro e he
      rcases mem_announce he with rfl | rfl <;> rfl
  | @route msg rest jobid entry _ hw =>
      have hentry := (waiter_eq_some hw).2
      refine h.extend_eq rfl ?_ ?_ ?_
      · intro ch
        simpa [List.countP_cons, Effect.settles, Effect.takesRequest] using held_erase hentry ch
      · simp [Effect.acks, Effect.takesOther]
      · simp [Effect.takesRequest, Effect.takesOther]
  | sweep now =>
      have hidle : ∀ (p : Effect → Bool),
          (∀ entry e, d.sweepEntry now entry = some e → p e = false) →
          (d.pending.entries.filterMap fun entry => d.sweepEntry now entry.2).countP p = 0 := by
        intro p hp
        rw [List.countP_eq_zero]
        intro e he
        obtain ⟨entry, -, hentry⟩ := List.mem_filterMap.mp he
        simp [hp _ e hentry]
      have htake := fun ch => hidle _ fun _ _ he => (sweepEntry_counts he ch).2.1
      have hother := fun ch => hidle _ fun _ _ he => (sweepEntry_counts he ch).2.2.1
      have hack := fun ch => hidle _ fun _ _ he => (sweepEntry_counts he ch).2.2.2
      refine h.extend_eq rfl ?_ ?_ ?_
      · intro ch
        rw [htake ch]
        exact countP_settled (d.sweepEntry now) ch (fun _ _ he => (sweepEntry_counts he ch).1)
          d.pending.entries
      · intro ch
        rw [hack ch, hother ch]
      · intro ch
        exact .inl (by rw [htake ch, hother ch])
  | failAll reason _ =>
      refine h.extend_eq rfl ?_ ?_ ?_
      · simp [held, failAllPending, List.countP_map, Function.comp_def, Effect.settles,
          Effect.takesRequest]
      · simp [List.countP_map, Function.comp_def, Effect.acks, Effect.takesOther]
      · simp [List.countP_map, Function.comp_def, Effect.takesRequest, Effect.takesOther]
  | _ => exact h.quiet rfl (by simp [Effect.isQuiet]) rfl

/-- **Run lemma.** The balance holds in every reachable state. -/
theorem Reachable.balanced (h : Reachable P d) : Balanced d := by
  have key : JobTable d ∧ Balanced d := by
    refine h.invariant (I := fun d => JobTable d ∧ Balanced d) ?_ ?_
    · intro now items d₀ h₀
      refine ⟨(Reachable.of_spawn h₀).jobTable, ?_⟩
      obtain ⟨c, -, hs⟩ := spawn_spec h₀
      constructor <;> simp [hs.log, hs.pending, held, Effect.settles, Effect.takesRequest,
        Effect.takesOther, Effect.acks]
    · rintro s s' hact ⟨hjobs, hbal⟩
      exact ⟨hjobs.act hact, hbal.act hact hjobs⟩
  exact key.2

/-! ### What the answers are -/

/-- What a request can be answered: the message that its own job id was the target of, a
timeout, or the reason why the session cannot answer. -/
def Answer (log : List Effect) (ch : Chan) (res : Except Error Arrival) : Prop :=
  (∃ a jobid, res = .ok a ∧ a.msg.header.jobidTarget = some jobid ∧ Wrote log a.conn ch jobid) ∨
    res = .error (.timeout "steam request") ∨
    res = .error (.webSocket "session reconnecting") ∨
    res = .error (.webSocket "session driver stopped")

/-- An answer is an answer later on. -/
theorem Answer.append {log : List Effect} {ch : Chan} {res : Except Error Arrival}
    (h : Answer log ch res) (es : List Effect) : Answer (log ++ es) ch res := by
  rcases h with ⟨a, jobid, rfl, htarget, hwrote⟩ | h
  · exact .inl ⟨a, jobid, rfl, htarget, hwrote.append es⟩
  · exact .inr h

/-- The replies of the ledger are answers, and a lost one had no caller. -/
structure Replies (d : SessionDriver) : Prop where
  answer : ∀ ch res delivered, .replied ch res delivered ∈ d.log → Answer d.log ch res
  gone : ∀ ch e, e ∈ d.log → e.drops ch → ch ∈ d.abandoned

/-- New entries whose replies are answers, and whose drops are of abandoned channels. -/
theorem Replies.extend (h : Replies d) {es : List Effect} (hlog : d'.log = d.log ++ es)
    (habandoned : ∀ ch ∈ d.abandoned, ch ∈ d'.abandoned)
    (hanswer : ∀ ch res delivered, .replied ch res delivered ∈ es → Answer (d.log ++ es) ch res)
    (hgone : ∀ ch e, e ∈ es → e.drops ch → ch ∈ d'.abandoned) : Replies d' := by
  constructor
  · intro ch res delivered hmem
    rw [hlog] at hmem ⊢
    rcases List.mem_append.mp hmem with hmem | hmem
    · exact (h.answer ch res delivered hmem).append es
    · exact hanswer ch res delivered hmem
  · intro ch e hmem hdrop
    rw [hlog] at hmem
    rcases List.mem_append.mp hmem with hmem | hmem
    · exact habandoned ch (h.gone ch e hmem hdrop)
    · exact hgone ch e hmem hdrop

/-- **Step lemma.** Every reply of an act is one of the four answers. -/
theorem Replies.act (hact : Act P d d') (hjobs : JobTable d) (h : Replies d) : Replies d' := by
  cases hact with
  | abandon ch =>
      exact h.extend (List.append_nil _).symm (fun _ => List.mem_cons_of_mem ch) (by simp) (by simp)
  | turn l' _ => exact h.extend (List.append_nil _).symm (fun _ => id) (by simp) (by simp)
  | exit ph _ => exact h.extend (List.append_nil _).symm (fun _ => id) (by simp) (by simp)
  | requestFailed emsg body deadline ch hnew | requestDown emsg body deadline ch hnew =>
      refine h.extend rfl (fun _ => id) ?_ (by simp [Effect.drops, isClosed])
      intro ch' res delivered hmem
      simp only [List.mem_cons, List.not_mem_nil, or_false, reduceCtorEq, false_or,
        Effect.replied.injEq] at hmem
      obtain ⟨-, rfl, -⟩ := hmem
      exact .inr (.inr (.inl rfl))
  | announce _ _ =>
      refine h.extend rfl (fun _ => id) ?_ ?_
      · intro ch res delivered hmem
        rcases mem_announce hmem with he | he <;> cases he
      · intro ch e hmem hdrop
        rcases mem_announce hmem with rfl | rfl <;> simp [Effect.drops] at hdrop
  | @route msg rest jobid entry _ hw =>
      obtain ⟨htarget, hentry⟩ := waiter_eq_some hw
      refine h.extend rfl (fun _ => id) ?_ (by simp [Effect.drops, isClosed])
      intro ch res delivered hmem
      simp only [List.mem_singleton, Effect.replied.injEq] at hmem
      obtain ⟨rfl, rfl, -⟩ := hmem
      exact .inl ⟨_, jobid, rfl, htarget, (hjobs.wrote jobid entry hentry).append _⟩
  | sweep now =>
      refine h.extend rfl (fun _ => id) ?_ ?_
      · intro ch res delivered hmem
        rcases mem_swept hmem with ⟨entry, ⟨he, -⟩ | he⟩
        · cases he
        · cases he
          exact .inr (.inl rfl)
      · intro ch e hmem hdrop
        rcases mem_swept hmem with ⟨entry, ⟨rfl, hclosed⟩ | rfl⟩
        · obtain rfl : entry.reply = ch := by simpa [Effect.drops] using hdrop
          exact of_decide_eq_true hclosed
        · simp [Effect.drops] at hdrop
  | failAll reason hreason =>
      refine h.extend rfl (fun _ => id) ?_ ?_
      · intro ch res delivered hmem
        obtain ⟨entry, -, hentry⟩ := List.mem_map.mp hmem
        cases hentry
        rcases hreason with rfl | rfl
        · exact .inr (.inr (.inl rfl))
        · exact .inr (.inr (.inr rfl))
      · intro ch e hmem hdrop
        obtain ⟨entry, -, rfl⟩ := List.mem_map.mp hmem
        simp only [Effect.drops, isClosed, Bool.not_not, Bool.and_eq_true, decide_eq_true_eq,
          beq_iff_eq] at hdrop
        exact hdrop.2 ▸ hdrop.1
  | _ => exact h.extend rfl (fun _ => id) (by simp) (by simp [Effect.drops])

/-- **Run lemma.** So is every reply in every reachable state. -/
theorem Reachable.replies (h : Reachable P d) : Replies d := by
  have key : JobTable d ∧ Replies d := by
    refine h.invariant (I := fun d => JobTable d ∧ Replies d) ?_ ?_
    · intro now items d₀ h₀
      refine ⟨(Reachable.of_spawn h₀).jobTable, ?_⟩
      obtain ⟨c, -, hs⟩ := spawn_spec h₀
      constructor <;> simp [hs.log, Effect.drops]
    · rintro s s' hact ⟨hjobs, hrep⟩
      exact ⟨hjobs.act hact, hrep.act hact hjobs⟩
  exact key.2

/-! ### The fate of every command -/

/-- The request on channel `ch` waits in the table under exactly one job id, the one that
its own frame carried on the current connection. -/
def Held (d : SessionDriver) (ch : Chan) : Prop :=
  ∃ jobid entry, d.pending.lookup jobid = some entry ∧ entry.reply = ch ∧
    Wrote d.log d.conn ch jobid ∧
    ∀ jobid' entry', d.pending.lookup jobid' = some entry' → entry'.reply = ch → jobid' = jobid

/-- No entry of the table is for channel `ch`. -/
def NotHeld (d : SessionDriver) (ch : Chan) : Prop :=
  ∀ jobid entry, d.pending.lookup jobid = some entry → entry.reply ≠ ch

/-- A channel with no request is not held. -/
theorem notHeld_of_held_eq_zero {ch : Chan} (h : held d.pending ch = 0) : d.NotHeld ch := by
  intro jobid entry hentry
  have hmem := AList.mem_lookup_iff.mp hentry
  simpa using List.countP_eq_zero.mp h _ hmem

/-- A channel with one request is held. -/
theorem held_of_held_eq_one (hjobs : JobTable d) {ch : Chan} (h : held d.pending ch = 1) :
    d.Held ch := by
  have hpos : 0 < held d.pending ch := by omega
  obtain ⟨⟨jobid, entry⟩, hmem, hch⟩ := List.countP_pos_iff.mp hpos
  have hentry := AList.mem_lookup_iff.mpr hmem
  have hch : entry.reply = ch := by simpa using hch
  refine ⟨jobid, entry, hentry, hch, hch ▸ hjobs.wrote jobid entry hentry, ?_⟩
  intro jobid' entry' hentry' hch'
  have hmem' := AList.mem_lookup_iff.mp hentry'
  exact congrArg Sigma.fst
    (Ledger.eq_of_countP_le_one (le_of_eq h) hmem' hmem (by simpa using hch') (by simpa using hch))

/-- **The fate of every command.** At each moment of every run: a request that was taken
off the queue is held under its own job id, or was resolved once by one of the four
answers, or was dropped once because its caller had gone, and only one of these; any other
command was acknowledged once. While the driver reconnects it holds no request, and when
`run` has returned every request it took was resolved or dropped. -/
theorem request_settled_exactly_once (hd : Reachable P d) (hleft : JobIdsLeft d.log) :
    (∀ c, .took c ∈ d.log → c.isRequest = true →
      (d.Held c.chan ∧ d.log.countP (Effect.resolves c.chan) = 0 ∧
        d.log.countP (Effect.drops c.chan) = 0) ∨
      (d.NotHeld c.chan ∧ d.log.countP (Effect.resolves c.chan) = 1 ∧
        d.log.countP (Effect.drops c.chan) = 0 ∧
        ∀ res, .replied c.chan res true ∈ d.log → Answer d.log c.chan res) ∨
      (d.NotHeld c.chan ∧ d.log.countP (Effect.resolves c.chan) = 0 ∧
        d.log.countP (Effect.drops c.chan) = 1 ∧ c.chan ∈ d.abandoned)) ∧
    (∀ c, .took c ∈ d.log → c.isRequest = false → d.log.countP (Effect.acks c.chan) = 1) ∧
    (d.Down → d.pending = ∅) ∧
    (∀ result, d.phase = .stopped result → ∀ c, .took c ∈ d.log → c.isRequest = true →
      d.log.countP (Effect.resolves c.chan) + d.log.countP (Effect.drops c.chan) = 1) := by
  have hbal := hd.balanced
  have hone : ∀ c, .took c ∈ d.log → c.isRequest = true →
      held d.pending c.chan + d.log.countP (Effect.resolves c.chan) +
        d.log.countP (Effect.drops c.chan) = 1 := by
    intro c hmem hreq
    have hpos : 0 < d.log.countP (Effect.takesRequest c.chan) :=
      List.countP_pos_iff.mpr ⟨_, hmem, by simp [Effect.takesRequest, hreq]⟩
    have h₁ := hbal.request hleft c.chan
    have h₂ := hbal.once c.chan
    have h₃ := countP_settles c.chan d.log
    omega
  refine ⟨?_, ?_, fun hdown => (hd.resting.of_down hdown).2.1, ?_⟩
  · intro c hmem hreq
    have h := hone c hmem hreq
    by_cases hheld : held d.pending c.chan = 1
    · exact .inl ⟨held_of_held_eq_one hd.jobTable hheld, by omega, by omega⟩
    · have hzero : held d.pending c.chan = 0 := by omega
      have hnot := notHeld_of_held_eq_zero hzero
      by_cases hres : d.log.countP (Effect.resolves c.chan) = 1
      · exact .inr (.inl ⟨hnot, hres, by omega, fun res h => hd.replies.answer _ res true h⟩)
      · have hdrop : d.log.countP (Effect.drops c.chan) = 1 := by omega
        have hpos : 0 < d.log.countP (Effect.drops c.chan) := by omega
        obtain ⟨e, he, hed⟩ := List.countP_pos_iff.mp hpos
        exact .inr (.inr ⟨hnot, by omega, hdrop, hd.replies.gone _ e he hed⟩)
  · intro c hmem hreq
    have hpos : 0 < d.log.countP (Effect.takesOther c.chan) :=
      List.countP_pos_iff.mpr ⟨_, hmem, by simp [Effect.takesOther, hreq]⟩
    have h₁ := hbal.ack c.chan
    have h₂ := hbal.once c.chan
    omega
  · intro result hph c hmem hreq
    have h := hone c hmem hreq
    have hrest := hd.resting
    simp only [Resting, hph] at hrest
    simp only [hrest, held, AList.empty_entries, List.countP_nil] at h
    omega

/-- The request of the answered session is resolved once, and no longer held. -/
theorem request_settled_exactly_once_answered :
    .took (.request 151 [] (fromSecs 30) 7) ∈ Sample.answered.log ∧
      Sample.answered.log.countP (Effect.resolves 7) = 1 ∧ Sample.answered.NotHeld 7 := by
  have hmem : .took (.request 151 [] (fromSecs 30) 7) ∈ Sample.answered.log := by decide
  have hone : Sample.answered.log.countP (Effect.resolves 7) = 1 := by decide
  have hleft : JobIdsLeft Sample.answered.log := by
    unfold JobIdsLeft
    decide
  rcases (request_settled_exactly_once reachable_answered hleft).1 _ hmem rfl with h | h | h
  · exact absurd (hone.symm.trans h.2.1) (by decide)
  · exact ⟨hmem, hone, h.1⟩
  · exact absurd (hone.symm.trans h.2.1) (by decide)

end SessionDriver

end Steamroids
