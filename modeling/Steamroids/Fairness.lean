import Mathlib.Algebra.GroupWithZero.Nat
import Mathlib.Data.List.Rotate
import Steamroids.Pool

/-!
# Fairness of the Pool

Who is handed out, and when, over many calls. While some proxy is healthy the pool of `pool.rs`
goes round the healthy ones. While none is, it hands out one with the fewest failures, wherever
the cursor stands.

`ProxyPool.rotation` is the healthy entries in the order in which the cursor meets them. A call of
`acquire` moves the first of them to the end, and nothing else in it changes before the health of
an entry does. Among dead entries every failed probe uses up one of the failures that separate
the entries from the worst of them (`headroom`), and an entry that is left out keeps its own.

## Main results

* `ProxyPool.acquire_of_rotation`: one call, in terms of the rotation.
* `acquire_round_robin`: the healthy entries are handed out in turn.
* `ProxyPool.AllDead.probes`: what is used up while an entry is left out.
* `probes_reach_all`: every dead entry is handed out in time.
-/

namespace Steamroids

namespace ProxyPool

variable {pool : ProxyPool}

/-! ### The rotation -/

/-- The indices of the healthy entries, from the cursor on and round. -/
def rotation (pool : ProxyPool) : List Nat :=
  ((List.range pool.entries.length).rotate pool.cursor).filter fun index =>
    pool.isHealthy index = some true

/-- The scan of `acquire` looks at the indices from the cursor on and round. -/
theorem map_range_cursor (pool : ProxyPool) :
    (List.range pool.entries.length).map (fun step =>
      (pool.cursor + step) % pool.entries.length) =
        (List.range pool.entries.length).rotate pool.cursor := by
  refine List.ext_getElem (by simp) fun k hk hk' => ?_
  simp only [List.getElem_map, List.getElem_range, List.getElem_rotate, List.length_range]
  rw [Nat.add_comm]

/-- The scan finds the first healthy one. -/
theorem nextHealthy_eq_find? (hpos : 0 < pool.entries.length) (steps : List Nat) :
    pool.nextHealthy steps =
      some ((steps.map fun step => (pool.cursor + step) % pool.entries.length).find? fun index =>
        pool.isHealthy index = some true) := by
  induction steps with
  | nil => rfl
  | cons step steps ih =>
      obtain ⟨entry, hentry⟩ : ∃ entry,
          pool.entries[(pool.cursor + step) % pool.entries.length]? = some entry :=
        ⟨_, List.getElem?_eq_getElem (Nat.mod_lt _ hpos)⟩
      rw [nextHealthy, isHealthy_of_getElem? hentry, List.map_cons, List.find?_cons,
        isHealthy_of_getElem? hentry]
      by_cases hhealthy : pool.Healthy entry
      · simp [hhealthy]
      · simp [hhealthy, ih]

/-- The scan finds the first of the rotation. -/
theorem nextHealthy_range (hpos : 0 < pool.entries.length) :
    pool.nextHealthy (List.range pool.entries.length) = some pool.rotation.head? := by
  rw [nextHealthy_eq_find? hpos, map_range_cursor, rotation, List.head?_filter]

/-- In the rotation are the healthy ones. -/
@[simp] theorem mem_rotation {i : Nat} :
    i ∈ pool.rotation ↔ pool.isHealthy i = some true := by
  rw [rotation, List.mem_filter, List.mem_rotate, List.mem_range]
  simp only [decide_eq_true_eq, and_iff_right_iff_imp]
  intro hhealthy
  obtain ⟨entry, hentry, -⟩ := Option.map_eq_some_iff.mp hhealthy
  exact (List.getElem?_eq_some_iff.mp hentry).1

/-- No index comes twice in the rotation. -/
theorem nodup_rotation (pool : ProxyPool) : pool.rotation.Nodup :=
  (List.nodup_rotate.mpr List.nodup_range).filter _

/-- **One call.** The first of the rotation is handed out, and becomes the last. -/
theorem acquire_of_rotation {i : Nat} {rest : List Nat} (h : pool.rotation = i :: rest) :
    ∃ entry, pool.entries[i]? = some entry ∧
      pool.acquire = some (some ⟨i, entry.proxy⟩,
        { pool with cursor := (i + 1) % pool.entries.length }) ∧
      rotation { pool with cursor := (i + 1) % pool.entries.length } = rest ++ [i] := by
  obtain ⟨before, after, hsplit, hbefore, -, hafter⟩ := List.filter_eq_cons_iff.mp h
  have hhealthy : pool.isHealthy i = some true :=
    mem_rotation.mp (h ▸ List.mem_cons_self)
  obtain ⟨entry, hentry, -⟩ := Option.map_eq_some_iff.mp hhealthy
  have hpos : 0 < pool.entries.length :=
    Nat.zero_lt_of_lt (List.getElem?_eq_some_iff.mp hentry).1
  refine ⟨entry, hentry, ?_, ?_⟩
  · simp only [acquire, if_neg (Nat.pos_iff_ne_zero.mp hpos), nextHealthy_range hpos, h,
      List.head?_cons, lease_of_getElem? hentry, Option.bind_eq_bind, Option.bind_some]
  · have hindex : (before.length + pool.cursor) % pool.entries.length = i := by
      have hlt : before.length < ((List.range pool.entries.length).rotate pool.cursor).length := by
        rw [hsplit, List.length_append, List.length_cons]
        omega
      have hget := List.getElem_rotate (List.range pool.entries.length) pool.cursor _ hlt
      rw [List.getElem_range, List.length_range] at hget
      rw [← hget]
      simp [hsplit]
    have hturn : (List.range pool.entries.length).rotate ((i + 1) % pool.entries.length) =
        after ++ (before ++ [i]) := by
      have hmod : (i + 1) % pool.entries.length =
          (pool.cursor + (before ++ [i]).length) % (List.range pool.entries.length).length := by
        rw [← hindex, List.length_range, Nat.mod_add_mod, List.length_append,
          List.length_singleton]
        congr 1
        omega
      rw [hmod, List.rotate_mod, ← List.rotate_rotate, hsplit, List.append_cons,
        List.rotate_append_length_eq]
    have hnone : before.filter (fun index => pool.isHealthy index = some true) = [] :=
      List.filter_eq_nil_iff.mpr hbefore
    have hone : [i].filter (fun index => pool.isHealthy index = some true) = [i] := by
      simp [hhealthy]
    calc rotation { pool with cursor := (i + 1) % pool.entries.length }
        = (after ++ (before ++ [i])).filter fun index => pool.isHealthy index = some true :=
          congrArg (List.filter _) hturn
      _ = rest ++ [i] := by
          rw [List.filter_append, List.filter_append, hafter, hnone, hone, List.nil_append]

/-- What is counted are the healthy ones. -/
theorem countHealthy_eq_countP {indices : List Nat} (h : ∀ i ∈ indices, i < pool.entries.length) :
    pool.countHealthy indices =
      some (indices.countP fun index => pool.isHealthy index = some true) := by
  induction indices with
  | nil => rfl
  | cons i indices ih =>
      obtain ⟨hi, hrest⟩ := List.forall_mem_cons.mp h
      have hentry := isHealthy_of_getElem? (List.getElem?_eq_getElem hi)
      rw [countHealthy, hentry, ih hrest, List.countP_cons, hentry]
      by_cases hhealthy : pool.Healthy pool.entries[i]
      · simp [hhealthy]
      · simp [hhealthy]

/-- `healthy` counts the rotation. -/
theorem healthy_eq_length_rotation (pool : ProxyPool) :
    pool.healthy = some pool.rotation.length := by
  rw [healthy, countHealthy_eq_countP fun i hi => List.mem_range.mp hi, rotation,
    ← List.countP_eq_length_filter, (List.rotate_perm _ _).countP_eq]

/-- The rotation is read off the size, the cursor and the health of the entries. -/
theorem rotation_congr {other : ProxyPool} (hlen : other.entries.length = pool.entries.length)
    (hcursor : other.cursor = pool.cursor)
    (hhealthy : ∀ i, other.isHealthy i = pool.isHealthy i) : other.rotation = pool.rotation := by
  rw [rotation, rotation, hlen, hcursor]
  simp only [hhealthy]

end ProxyPool

/-! ### Taking turns -/

namespace PoolUse

/-- The lease that a call hands out. -/
def handed (u : PoolUse) (op : PoolOp) (_ : PoolUse) : Option Lease :=
  match op with
  | .acquire => u.pool.acquire.bind (·.1)
  | _ => none

/-- The leases that a run hands out, in their order. -/
def handouts (u : PoolUse) (ops : List PoolOp) : List Lease := Ledger.trail step handed u ops

/-- A call that may be made, and that changes the health of no entry. -/
def Quiet (u : PoolUse) (op : PoolOp) : Prop :=
  (∀ lease, op.lease? = some lease → lease ∈ u.leases) ∧
    ∀ u', u.step op = some u' → ∀ i, u'.pool.isHealthy i = u.pool.isHealthy i

variable {proxies : List ProxyConfig} {policy : HealthPolicy} {history : List PoolOp}
  {u u' : PoolUse}

/-- The pool keeps its size. -/
theorem Sound.length_eq (h : Sound proxies policy history u) :
    u.pool.entries.length = proxies.length := by
  rw [← h.same_proxies, List.length_map]

/-- A quiet report leaves the rotation as it is. -/
theorem Sound.rotation_of_report (h : Sound proxies policy history u) {op : PoolOp}
    (hquiet : u.Quiet op) (hop : op ≠ .acquire) (hstep : u.step op = some u') :
    u'.pool.rotation = u.pool.rotation ∧ u.handed op u' = none := by
  have hlen := (h.step hstep).length_eq.trans h.length_eq.symm
  have hhealthy := hquiet.2 u' hstep
  cases op with
  | acquire => exact absurd rfl hop
  | reportSuccess lease =>
      rw [PoolUse.step, if_pos (hquiet.1 lease rfl)] at hstep
      obtain rfl := Option.some.inj hstep
      exact ⟨ProxyPool.rotation_congr hlen (ProxyPool.update_cursor _ _) hhealthy, rfl⟩
  | reportFailure lease =>
      rw [PoolUse.step, if_pos (hquiet.1 lease rfl)] at hstep
      obtain rfl := Option.some.inj hstep
      exact ⟨ProxyPool.rotation_congr hlen (ProxyPool.update_cursor _ _) hhealthy, rfl⟩

/-- An `acquire` moves the first of the rotation to its end. -/
theorem Sound.rotation_of_acquire (h : Sound proxies policy history u)
    (hne : u.pool.rotation ≠ []) :
    ∃ lease u' rest, u.step .acquire = some u' ∧ u.handed .acquire u' = some lease ∧
      u.pool.rotation = lease.index :: rest ∧ u'.pool.rotation = rest ++ [lease.index] ∧
      proxies[lease.index]? = some lease.proxy := by
  obtain ⟨i, rest, hrotation⟩ := List.exists_cons_of_ne_nil hne
  obtain ⟨entry, hentry, hacquire, hturned⟩ := ProxyPool.acquire_of_rotation hrotation
  refine ⟨⟨i, entry.proxy⟩, _, rest, congrArg (Option.map _) hacquire, ?_, hrotation, hturned, ?_⟩
  · rw [handed, hacquire]
    rfl
  · rw [← h.same_proxies, List.getElem?_map, hentry]
    rfl

/-- Calls of `acquire` alone are quiet. -/
theorem Sound.quiet_acquires (h : Sound proxies policy history u) (m : Nat) :
    Ledger.Guarded PoolUse.step Quiet u (List.replicate m .acquire) := by
  induction m generalizing u history with
  | zero => trivial
  | succ m ih =>
      refine ⟨⟨by simp [PoolOp.lease?], ?_⟩, fun u' hstep => ih (h.step hstep)⟩
      intro u' hstep i
      obtain ⟨r, hr, rfl⟩ := Option.map_eq_some_iff.mp hstep
      rcases ProxyPool.acquire_spec h.valid with ⟨-, hnone⟩ | ⟨lease, entry, cursor, hsome, -, -⟩
      · obtain rfl := Option.some.inj (hnone.symm.trans hr)
        rfl
      · obtain rfl := Option.some.inj (hsome.symm.trans hr)
        rfl

/-- **A quiet run.** What is handed out and the rotation read the same from both sides. -/
theorem Sound.handouts_of_quiet (h : Sound proxies policy history u)
    (hne : u.pool.rotation ≠ []) {ops : List PoolOp}
    (hquiet : Ledger.Guarded PoolUse.step Quiet u ops) :
    ∃ v, Ledger.exec PoolUse.step u ops = some v ∧
      u.pool.rotation ++ (u.handouts ops).map (·.index) =
        (u.handouts ops).map (·.index) ++ v.pool.rotation ∧
      (u.handouts ops).length = ops.count .acquire ∧
      ∀ lease ∈ u.handouts ops, proxies[lease.index]? = some lease.proxy := by
  induction ops generalizing u history with
  | nil => exact ⟨u, rfl, by simp [handouts, Ledger.trail], rfl, by simp [handouts, Ledger.trail]⟩
  | cons op ops ih =>
      obtain ⟨hop, hrest⟩ := hquiet
      by_cases hacquire : op = .acquire
      · subst hacquire
        obtain ⟨lease, u', rest, hstep, hhanded, hrotation, hturned, hproxy⟩ :=
          h.rotation_of_acquire hne
        obtain ⟨v, hrun, hword, hcount, hproxies⟩ :=
          ih (h.step hstep) (by simp [hturned]) (hrest u' hstep)
        have hcons : u.handouts (.acquire :: ops) = lease :: u'.handouts ops := by
          rw [handouts, Ledger.trail_cons_of_some hstep, hhanded]
          rfl
        refine ⟨v, Ledger.exec_cons_eq_some.mpr ⟨u', hstep, hrun⟩, ?_, ?_, ?_⟩
        · rw [hturned] at hword
          rw [hcons, hrotation, List.map_cons, List.cons_append, List.cons_append, ← hword]
          simp
        · rw [hcons, List.length_cons, hcount, List.count_cons_self]
        · rw [hcons]
          exact List.forall_mem_cons.mpr ⟨hproxy, hproxies⟩
      · obtain ⟨u', hstep, -⟩ := h.call hop.1
        obtain ⟨hsame, hhanded⟩ := h.rotation_of_report hop hacquire hstep
        obtain ⟨v, hrun, hword, hcount, hproxies⟩ :=
          ih (h.step hstep) (hsame ▸ hne) (hrest u' hstep)
        have hcons : u.handouts (op :: ops) = u'.handouts ops := by
          rw [handouts, Ledger.trail_cons_of_some hstep, hhanded]
          rfl
        refine ⟨v, Ledger.exec_cons_eq_some.mpr ⟨u', hstep, hrun⟩, ?_, ?_, ?_⟩
        · rw [hcons, ← hsame, hword]
        · rw [hcons, hcount, List.count_cons_of_ne hacquire]
        · rw [hcons]
          exact hproxies

end PoolUse

/-- A word that reads the same with `turn` in front of it is made of copies of `turn`. -/
theorem eq_flatten_replicate {α : Type*} {turn word tail : List α} {k : Nat}
    (h : turn ++ word = word ++ tail) (hlen : word.length = k * turn.length) :
    word = (List.replicate k turn).flatten := by
  induction k generalizing word with
  | zero => exact List.length_eq_zero_iff.mp (by simpa using hlen)
  | succ k ih =>
      have hle : turn.length ≤ word.length := by
        rw [hlen, Nat.succ_mul]
        omega
      obtain ⟨later, rfl⟩ : turn <+: word :=
        List.prefix_of_prefix_length_le (List.prefix_append turn word) (h ▸ List.prefix_append _ _)
          hle
      rw [List.append_assoc, List.append_cancel_left_eq] at h
      rw [List.length_append, Nat.succ_mul] at hlen
      rw [List.replicate_succ, List.flatten_cons, ← ih h (by omega)]

/-- **Round robin.** After every history that leaves some proxy healthy: calls of `acquire`, with
reports among them that change the health of no proxy, hand out the healthy proxies in turn, from
the cursor on and round, every one of them once before the first is handed out again. -/
theorem acquire_round_robin (proxies : List ProxyConfig) (policy : HealthPolicy)
    (history ops : List PoolOp) (u : PoolUse) (h k : Nat)
    (hreach : Ledger.exec PoolUse.step (.start proxies policy) history = some u)
    (hhealthy : u.pool.healthy = some h) (hpos : 1 ≤ h)
    (hquiet : Ledger.Guarded PoolUse.step PoolUse.Quiet u ops)
    (hcount : ops.count .acquire = k * h) :
    (∃ v, Ledger.exec PoolUse.step u ops = some v) ∧
    (u.handouts ops).map (·.index) = (List.replicate k u.pool.rotation).flatten ∧
    (∀ lease ∈ u.handouts ops, proxies[lease.index]? = some lease.proxy) ∧
    u.pool.rotation.length = h ∧ u.pool.rotation.Nodup ∧
    ∀ i, i ∈ u.pool.rotation ↔ ∃ entry, u.pool.entries[i]? = some entry ∧ u.pool.Healthy entry := by
  have hlen : u.pool.rotation.length = h := by
    rw [ProxyPool.healthy_eq_length_rotation] at hhealthy
    exact Option.some.inj hhealthy
  have hne : u.pool.rotation ≠ [] := by
    rw [← List.length_pos_iff, hlen]
    exact hpos
  obtain ⟨v, hrun, hword, hhanded, hproxies⟩ :=
    (PoolUse.sound_of_exec hreach).handouts_of_quiet hne hquiet
  refine ⟨⟨v, hrun⟩, eq_flatten_replicate hword ?_, hproxies, hlen, u.pool.nodup_rotation, ?_⟩
  · rw [List.length_map, hhanded, hcount, hlen]
  · intro i
    rw [ProxyPool.mem_rotation, ProxyPool.isHealthy, Option.map_eq_some_iff]
    simp only [decide_eq_true_eq]
    rfl

namespace Sample

/-- The second of three proxies is leased and fails twice. -/
def failOps : List PoolOp :=
  [.acquire, .acquire, .reportFailure ⟨1, proxy 1081⟩, .reportFailure ⟨1, proxy 1081⟩]

/-- The pool after that, with the cursor at the third. -/
def failedPool : PoolUse where
  pool :=
    { entries := [⟨proxy 1080, 0⟩, ⟨proxy 1081, 2⟩, ⟨proxy 1082, 0⟩], policy := { deadAfter := 2 },
      cursor := 2 }
  leases := [⟨1, proxy 1081⟩, ⟨0, proxy 1080⟩]

end Sample

/-- The third and the first are handed out in turn. -/
theorem acquire_round_robin_failed :
    (Sample.failedPool.handouts (List.replicate 4 .acquire)).map (·.index) = [2, 0, 2, 0] := by
  have hreach : Ledger.exec PoolUse.step
      (.start [Sample.proxy 1080, Sample.proxy 1081, Sample.proxy 1082] { deadAfter := 2 })
      Sample.failOps = some Sample.failedPool := by
    decide
  obtain ⟨-, hhanded, -⟩ := acquire_round_robin _ _ _ (List.replicate 4 .acquire) _ 2 2 hreach
    (by decide) (by decide) ((PoolUse.sound_of_exec hreach).quiet_acquires 4) (by decide)
  exact hhanded

/-! ### Probing dead proxies -/

namespace ProxyPool

/-- A round of a caller that meets only failures: take a proxy, and report that it failed. -/
def probe (pool : ProxyPool) : Option (Option Lease × ProxyPool) := do
  let (lease, pool) ← pool.acquire
  some (lease, lease.elim pool pool.reportFailure)

/-- The leases of the next `k` rounds, and the pool after them. -/
def probes : Nat → ProxyPool → Option (List Lease × ProxyPool)
  | 0, pool => some ([], pool)
  | k + 1, pool => do
      let (lease, pool) ← pool.probe
      let (leases, pool) ← probes k pool
      some (lease.toList ++ leases, pool)

/-- The failures that the entries are away from having more than `M`. -/
def headroom (M : Nat) (pool : ProxyPool) : Nat :=
  (pool.entries.map fun entry => M + 1 - entry.consecutiveFailures.toNat).sum

/-- No entry is healthy. -/
def AllDead (pool : ProxyPool) : Prop := ∀ entry ∈ pool.entries, ¬ pool.Healthy entry

variable {pool : ProxyPool}

/-- The rotation of a dead pool is empty. -/
theorem AllDead.rotation_eq_nil (h : pool.AllDead) : pool.rotation = [] := by
  refine List.eq_nil_iff_forall_not_mem.mpr fun i hi => ?_
  obtain ⟨entry, hentry, hhealthy⟩ := Option.map_eq_some_iff.mp (mem_rotation.mp hi)
  exact h entry (List.mem_of_getElem? hentry) (of_decide_eq_true hhealthy)

/-- Of dead entries one with the fewest failures is handed out. -/
theorem AllDead.acquire (h : pool.AllDead) (hne : pool.entries ≠ []) :
    ∃ index entry, pool.entries[index]? = some entry ∧
      (∀ other ∈ pool.entries, entry.consecutiveFailures ≤ other.consecutiveFailures) ∧
      pool.acquire = some (some ⟨index, entry.proxy⟩,
        { pool with cursor := (index + 1) % pool.entries.length }) := by
  have hpos : 0 < pool.entries.length := List.length_pos_iff.mpr hne
  obtain ⟨index, entry, hleast, hentry, hmin⟩ := leastFailed_range hpos
  refine ⟨index, entry, hentry, hmin, ?_⟩
  simp only [ProxyPool.acquire, if_neg (Nat.pos_iff_ne_zero.mp hpos), nextHealthy_range hpos,
    h.rotation_eq_nil, List.head?_nil, hleast, lease_of_getElem? hentry, Option.bind_eq_bind,
    Option.bind_some]

/-- One summand of a sum is replaced. -/
theorem sum_map_set {α : Type*} (f : α → Nat) {l : List α} {i : Nat} {a : α} (b : α)
    (h : l[i]? = some a) : ((l.set i b).map f).sum + f a = (l.map f).sum + f b := by
  induction l generalizing i with
  | nil => cases h
  | cons c l ih =>
      cases i with
      | zero =>
          obtain rfl : c = a := Option.some.inj h
          simp only [List.set_cons_zero, List.map_cons, List.sum_cons]
          omega
      | succ i =>
          have hrest := ih h
          simp only [List.set_cons_succ, List.map_cons, List.sum_cons]
          omega

/-- The pool after a round that handed out `entry`, which is the one at `index`. -/
def afterFailure (pool : ProxyPool) (index : Nat) (entry : Entry) : ProxyPool :=
  { pool with
    entries := pool.entries.set index
      { entry with consecutiveFailures := saturatingSucc entry.consecutiveFailures }
    cursor := (index + 1) % pool.entries.length }

/-- A failure makes no entry healthy. -/
theorem AllDead.afterFailure (h : pool.AllDead) {index : Nat} {entry : Entry}
    (hentry : pool.entries[index]? = some entry) : (pool.afterFailure index entry).AllDead := by
  intro other hother
  rcases List.mem_or_eq_of_mem_set hother with hold | rfl
  · exact h other hold
  · have hdead := h entry (List.mem_of_getElem? hentry)
    have hsucc := PoolUse.toNat_saturatingSucc entry.consecutiveFailures
    have hlt := entry.consecutiveFailures.toNat_lt
    rw [Healthy, UInt32.lt_iff_toNat_lt] at hdead ⊢
    simp only [ProxyPool.afterFailure]
    omega

/-- A failure changes no proxy. -/
theorem proxies_afterFailure {index : Nat} {entry : Entry}
    (hentry : pool.entries[index]? = some entry) :
    (pool.afterFailure index entry).entries.map (·.proxy) = pool.entries.map (·.proxy) := by
  have hproxy : (pool.entries.map (·.proxy))[index]? = some entry.proxy := by
    rw [List.getElem?_map, hentry]
    rfl
  obtain ⟨hlt, hget⟩ := List.getElem?_eq_some_iff.mp hproxy
  rw [afterFailure, List.map_set, ← hget, List.set_getElem_self]

/-- A failure that is counted uses up headroom. -/
theorem headroom_afterFailure {M index : Nat} {entry : Entry} (hM : M < 2 ^ 32 - 1)
    (hentry : pool.entries[index]? = some entry) (hle : entry.consecutiveFailures.toNat ≤ M) :
    (pool.afterFailure index entry).headroom M + 1 = pool.headroom M := by
  have hsum := sum_map_set (fun entry : Entry => M + 1 - entry.consecutiveFailures.toNat)
    { entry with consecutiveFailures := saturatingSucc entry.consecutiveFailures } hentry
  have hsucc := PoolUse.toNat_saturatingSucc entry.consecutiveFailures
  simp only [headroom, afterFailure] at hsum ⊢
  omega

/-- **One round.** An entry with the fewest failures is handed out and fails. -/
theorem AllDead.probe (h : pool.AllDead) (hne : pool.entries ≠ []) :
    ∃ index entry, pool.entries[index]? = some entry ∧
      (∀ other ∈ pool.entries, entry.consecutiveFailures ≤ other.consecutiveFailures) ∧
      pool.probe = some (some ⟨index, entry.proxy⟩, pool.afterFailure index entry) := by
  obtain ⟨index, entry, hentry, hmin, hacquire⟩ := h.acquire hne
  refine ⟨index, entry, hentry, hmin, ?_⟩
  simp only [ProxyPool.probe, hacquire, Option.bind_eq_bind, Option.bind_some, Option.elim_some,
    reportFailure, update, hentry, ProxyPool.afterFailure]

/-- **Many rounds.** They hand out proxies of the pool. While an entry with at most `M` failures is
left out, each of them uses up headroom, and the entry stays as it is. -/
theorem AllDead.probes (h : pool.AllDead) (hne : pool.entries ≠ []) (k : Nat) :
    ∃ leases pool', probes k pool = some (leases, pool') ∧
      (∀ lease ∈ leases, (pool.entries.map (·.proxy))[lease.index]? = some lease.proxy) ∧
      ∀ j entry M, pool.entries[j]? = some entry → entry.consecutiveFailures.toNat ≤ M →
        M < 2 ^ 32 - 1 → (∀ lease ∈ leases, lease.index ≠ j) →
        pool'.headroom M + k = pool.headroom M ∧ pool'.entries[j]? = some entry := by
  induction k generalizing pool with
  | zero =>
      refine ⟨[], pool, rfl, by simp, ?_⟩
      intro j entry M hentry _ _ _
      exact ⟨rfl, hentry⟩
  | succ k ih =>
      obtain ⟨index, least, hleast, hmin, hprobe⟩ := h.probe hne
      have hne' : (pool.afterFailure index least).entries ≠ [] := by
        simpa [ProxyPool.afterFailure] using hne
      obtain ⟨leases, pool', hrun, hserved, hused⟩ := ih (h.afterFailure hleast) hne'
      rw [proxies_afterFailure hleast] at hserved
      refine ⟨⟨index, least.proxy⟩ :: leases, pool', ?_, ?_, ?_⟩
      · simp [ProxyPool.probes, hprobe, hrun]
      · refine List.forall_mem_cons.mpr ⟨?_, hserved⟩
        rw [List.getElem?_map, hleast]
        rfl
      · intro j entry M hentry hle hM hout
        obtain ⟨hindex, hout⟩ := List.forall_mem_cons.mp hout
        have hentry' : (pool.afterFailure index least).entries[j]? = some entry := by
          rw [ProxyPool.afterFailure, List.getElem?_set_ne hindex, hentry]
        obtain ⟨hroom, hsame⟩ := hused j entry M hentry' hle hM hout
        have hless : least.consecutiveFailures.toNat ≤ M :=
          Nat.le_trans (UInt32.le_iff_toNat_le.mp (hmin entry (List.mem_of_getElem? hentry))) hle
        have hspent := headroom_afterFailure hM hleast hless
        exact ⟨by omega, hsame⟩

end ProxyPool

/-- **Dead proxies get their turn.** No proxy of the pool is healthy, and none has more than `M`
failures, which is not the largest `u32`. A caller who goes on probing, and meets only failures,
is handed every proxy within `M + 1 - c` rounds for each count `c`. -/
theorem probes_reach_all (pool : ProxyPool) (M : Nat)
    (hdead : ∀ entry ∈ pool.entries, ¬ pool.Healthy entry)
    (hmax : ∀ entry ∈ pool.entries, entry.consecutiveFailures.toNat ≤ M) (hM : M < 2 ^ 32 - 1) :
    ∃ leases pool', ProxyPool.probes
        (pool.entries.map fun entry => M - entry.consecutiveFailures.toNat + 1).sum pool =
          some (leases, pool') ∧
      ∀ i entry, pool.entries[i]? = some entry →
        ∃ lease ∈ leases, lease.index = i ∧ lease.proxy = entry.proxy := by
  have hrounds : (pool.entries.map fun entry => M - entry.consecutiveFailures.toNat + 1).sum =
      pool.headroom M := by
    refine congrArg List.sum (List.map_congr_left fun entry hentry => ?_)
    have hle := hmax entry hentry
    omega
  rw [hrounds]
  by_cases hne : pool.entries = []
  · refine ⟨[], pool, ?_, by simp [hne]⟩
    rw [ProxyPool.headroom, hne]
    rfl
  obtain ⟨leases, pool', hrun, hserved, hused⟩ :=
    ProxyPool.AllDead.probes hdead hne (pool.headroom M)
  refine ⟨leases, pool', hrun, ?_⟩
  intro i entry hentry
  have hle := hmax entry (List.mem_of_getElem? hentry)
  obtain ⟨lease, hlease, hindex⟩ : ∃ lease ∈ leases, lease.index = i := by
    by_contra hnone
    have hout : ∀ lease ∈ leases, lease.index ≠ i := fun lease hlease hindex =>
      hnone ⟨lease, hlease, hindex⟩
    obtain ⟨hroom, hsame⟩ := hused i entry M hentry hle hM hout
    have hzero : pool'.headroom M = 0 := by omega
    have hspent := List.sum_eq_zero_iff_forall_eq_nat.mp hzero
      (M + 1 - entry.consecutiveFailures.toNat)
      (List.mem_map.mpr ⟨entry, List.mem_of_getElem? hsame, rfl⟩)
    omega
  refine ⟨lease, hlease, hindex, ?_⟩
  have hproxy := hserved lease hlease
  rw [hindex, List.getElem?_map, hentry] at hproxy
  exact (Option.some.inj hproxy).symm

namespace Sample

/-- Two dead proxies, with five and three failures. -/
def deadPool : ProxyPool :=
  { entries := [⟨proxy 1080, 5⟩, ⟨proxy 1081, 3⟩], policy := {}, cursor := 1 }

end Sample

/-- Four rounds are enough for the two. -/
theorem probes_reach_all_dead :
    ∃ leases pool', ProxyPool.probes 4 Sample.deadPool = some (leases, pool') ∧
      ∀ i entry, Sample.deadPool.entries[i]? = some entry →
        ∃ lease ∈ leases, lease.index = i ∧ lease.proxy = entry.proxy :=
  probes_reach_all Sample.deadPool 5 (by decide) (by decide) (by decide)

end Steamroids
