import Mathlib.Algebra.Group.Nat.Defs
import Steamroids.Ledger

/-!
# The Proxy Pool

`pool.rs` hands out proxies in rotation, counts the failures in a row of each, and passes over
those with too many. A caller takes a lease, and reports its outcome as often as it likes; the
pool keeps no account of who holds what.

The source indexes into its entries, and `none` is the panic of an index that is out of range.
`PoolUse` is a pool with the leases that it has handed out, which are the ones that can be
reported. Logging is left out.

## Main results

* `ProxyPool.acquire_spec`: what `acquire` hands out.
* `PoolUse.sound_of_exec`: what every history keeps.
* `pool_keeps_account`: what is true of the pool after every history.
-/

namespace Steamroids

/-! ### Proxies -/

/-- How a proxy is spoken to. -/
inductive ProxyKind
  | socks5
  | httpConnect
  deriving DecidableEq, Repr

/-- The user name and password for a proxy. -/
structure ProxyCredentials where
  username : String
  password : String
  deriving DecidableEq, Repr

/-- Address and credentials for an upstream proxy. -/
structure ProxyConfig where
  kind : ProxyKind
  host : String
  port : UInt16
  credentials : Option ProxyCredentials := none
  tlsToProxy : Bool := false
  deriving DecidableEq, Repr

/-- A `host:port`, with brackets around a bare IPv6 literal. -/
def authority (host : String) (port : UInt16) : String :=
  if host.toList.contains ':' then "[" ++ host ++ "]:" ++ toString port
  else host ++ ":" ++ toString port

/-- The scheme under which a proxy is shown. -/
def ProxyConfig.schemeLabel (proxy : ProxyConfig) : String :=
  match proxy.kind with
  | .socks5 => "socks5"
  | .httpConnect => if proxy.tlsToProxy then "https" else "http"

/-- The address without the credentials. -/
def ProxyConfig.display (proxy : ProxyConfig) : String :=
  proxy.schemeLabel ++ "://" ++ authority proxy.host proxy.port

/-! ### The pool -/

/-- When a proxy is considered dead. -/
structure HealthPolicy where
  deadAfter : UInt32 := 3
  deriving DecidableEq, Repr

/-- Health of a pooled proxy. -/
inductive ProxyStatus
  | healthy
  | unhealthy (consecutiveFailures : UInt32)
  deriving DecidableEq, Repr

/-- The status is a healthy one. -/
def ProxyStatus.isHealthy : ProxyStatus → Bool
  | .healthy => true
  | .unhealthy _ => false

/-- A proxy taken from the pool. -/
structure Lease where
  index : Nat
  proxy : ProxyConfig
  deriving DecidableEq, Repr

/-- A proxy of the pool, with its failures since the last success. -/
structure Entry where
  proxy : ProxyConfig
  consecutiveFailures : UInt32
  deriving DecidableEq, Repr

/-- A round-robin pool of proxies with per-proxy health tracking. -/
structure ProxyPool where
  entries : List Entry
  policy : HealthPolicy
  cursor : Nat
  deriving DecidableEq, Repr

/-- `u32::saturating_add(1)`. -/
def saturatingSucc (n : UInt32) : UInt32 := if n.toNat + 1 < 2 ^ 32 then n + 1 else n

namespace ProxyPool

/-- A pool with an explicit policy. -/
def withPolicy (proxies : List ProxyConfig) (policy : HealthPolicy) : ProxyPool where
  entries := proxies.map fun proxy => { proxy, consecutiveFailures := 0 }
  policy
  cursor := 0

/-- A pool with the default policy. -/
def new (proxies : List ProxyConfig) : ProxyPool := withPolicy proxies {}

variable (pool : ProxyPool)

/-- `is_healthy`: the entry has fewer failures than make it dead. -/
def isHealthy (index : Nat) : Option Bool :=
  pool.entries[index]?.map fun entry => decide (entry.consecutiveFailures < pool.policy.deadAfter)

/-- The healthy ones among `indices`. -/
def countHealthy : List Nat → Option Nat
  | [] => some 0
  | index :: indices => do
      let healthy ← pool.isHealthy index
      let others ← countHealthy indices
      some (if healthy then others + 1 else others)

/-- How many proxies are currently healthy. -/
def healthy : Option Nat := pool.countHealthy (List.range pool.entries.length)

/-- `lease`: the entry's proxy, with its index. -/
def lease (index : Nat) : Option Lease :=
  pool.entries[index]?.map fun entry => { index, proxy := entry.proxy }

/-- The first healthy one, round-robin from the cursor. -/
def nextHealthy : List Nat → Option (Option Nat)
  | [] => some none
  | step :: steps => do
      let index := (pool.cursor + step) % pool.entries.length
      if ← pool.isHealthy index then some (some index) else nextHealthy steps

/-- `min_by_key` over `indices`: the first one with the fewest failures, where `best` is the
one so far. -/
def leastFailed : Option (Nat × UInt32) → List Nat → Option (Option Nat)
  | best, [] => some (best.map Prod.fst)
  | best, index :: indices => do
      let entry ← pool.entries[index]?
      match best with
      | some (_, key) =>
          if entry.consecutiveFailures < key then
            leastFailed (some (index, entry.consecutiveFailures)) indices
          else
            leastFailed best indices
      | none => leastFailed (some (index, entry.consecutiveFailures)) indices

/-- Take a proxy to try, and the pool after that. -/
def acquire : Option (Option Lease × ProxyPool) :=
  let n := pool.entries.length
  if n = 0 then
    some (none, pool)
  else do
    match ← pool.nextHealthy (List.range n) with
    | some index =>
        some (some (← pool.lease index), { pool with cursor := (index + 1) % n })
    | none =>
        -- all dead: hand out the least-failed one so it can recover
        let index ← (← pool.leastFailed none (List.range n))
        some (some (← pool.lease index), { pool with cursor := (index + 1) % n })

/-- Replace an entry, if there is one. -/
def update (index : Nat) (f : Entry → Entry) : ProxyPool :=
  match pool.entries[index]? with
  | none => pool
  | some entry => { pool with entries := pool.entries.set index (f entry) }

/-- Record a successful connect for a leased proxy. -/
def reportSuccess (lease : Lease) : ProxyPool :=
  pool.update lease.index fun entry => { entry with consecutiveFailures := 0 }

/-- Record a failed connect for a leased proxy. -/
def reportFailure (lease : Lease) : ProxyPool :=
  pool.update lease.index fun entry =>
    { entry with consecutiveFailures := saturatingSucc entry.consecutiveFailures }

/-- The health of an entry. -/
def statusOf (entry : Entry) : ProxyStatus :=
  if entry.consecutiveFailures < pool.policy.deadAfter then .healthy
  else .unhealthy entry.consecutiveFailures

/-- The current status of a leased proxy. -/
def status (lease : Lease) : ProxyStatus :=
  pool.entries[lease.index]?.elim .healthy pool.statusOf

/-- A snapshot of every proxy's status. -/
def statuses : List (String × ProxyStatus) :=
  pool.entries.map fun entry => (entry.proxy.display, pool.statusOf entry)

/-! ### What is handed out -/

variable {pool}

/-- Fewer failures in a row than the policy allows. -/
def Healthy (pool : ProxyPool) (entry : Entry) : Prop :=
  entry.consecutiveFailures < pool.policy.deadAfter

instance (entry : Entry) : Decidable (pool.Healthy entry) := inferInstanceAs (Decidable (_ < _))

/-- The cursor is an index. An empty pool has none, and its cursor is not looked at. -/
def Valid (pool : ProxyPool) : Prop :=
  pool.cursor < pool.entries.length ∨ pool.entries = [] ∧ pool.cursor = 0

/-- The health of an index is that of its entry. -/
theorem isHealthy_of_getElem? {index : Nat} {entry : Entry}
    (h : pool.entries[index]? = some entry) :
    pool.isHealthy index = some (decide (pool.Healthy entry)) := by
  rw [isHealthy, h]
  rfl

/-- The count goes through the entries from `k` on, by induction on how many are left. -/
theorem countHealthy_range' {k m : Nat} (h : k + m = pool.entries.length) :
    pool.countHealthy (List.range' k m) =
      some ((pool.entries.drop k).countP fun entry => decide (pool.Healthy entry)) := by
  induction m generalizing k with
  | zero => rw [List.drop_eq_nil_of_le (by omega), List.countP_nil]; rfl
  | succ m ih =>
      have hk : k < pool.entries.length := by omega
      rw [List.range'_succ, countHealthy, isHealthy_of_getElem? (List.getElem?_eq_getElem hk),
        ih (by omega), List.drop_eq_getElem_cons hk, List.countP_cons]
      simp only [Option.bind_eq_bind, Option.bind_some]
      split <;> rfl

/-- `healthy` counts the healthy entries. -/
theorem healthy_eq (pool : ProxyPool) :
    pool.healthy = some (pool.entries.countP fun entry => decide (pool.Healthy entry)) := by
  rw [healthy, List.range_eq_range', countHealthy_range' (Nat.zero_add _), List.drop_zero]

/-- The scan from the cursor finds a healthy entry, or has seen only dead ones. -/
theorem nextHealthy_spec (hpos : 0 < pool.entries.length) (steps : List Nat) :
    (∃ index entry, pool.nextHealthy steps = some (some index) ∧
      pool.entries[index]? = some entry ∧ pool.Healthy entry) ∨
    (pool.nextHealthy steps = some none ∧ ∀ step ∈ steps, ∀ entry,
      pool.entries[(pool.cursor + step) % pool.entries.length]? = some entry →
      ¬ pool.Healthy entry) := by
  induction steps with
  | nil => exact .inr ⟨rfl, by simp⟩
  | cons step steps ih =>
      have hlt : (pool.cursor + step) % pool.entries.length < pool.entries.length :=
        Nat.mod_lt _ hpos
      obtain ⟨entry, hentry⟩ : ∃ entry,
          pool.entries[(pool.cursor + step) % pool.entries.length]? = some entry :=
        ⟨_, List.getElem?_eq_getElem hlt⟩
      rw [nextHealthy, isHealthy_of_getElem? hentry]
      simp only [Option.bind_eq_bind, Option.bind_some, decide_eq_true_eq]
      by_cases hhealthy : pool.Healthy entry
      · exact .inl ⟨_, entry, if_pos hhealthy, hentry, hhealthy⟩
      · rw [if_neg hhealthy]
        refine ih.imp_right fun ⟨hnone, hdead⟩ => ⟨hnone, List.forall_mem_cons.mpr ⟨?_, hdead⟩⟩
        intro entry' hentry'
        obtain rfl := Option.some.inj (hentry.symm.trans hentry')
        exact hhealthy

/-- Every index is met by the scan. -/
theorem exists_step {i : Nat} (hcursor : pool.cursor < pool.entries.length)
    (hi : i < pool.entries.length) :
    ∃ step ∈ List.range pool.entries.length,
      (pool.cursor + step) % pool.entries.length = i := by
  by_cases hle : pool.cursor ≤ i
  · refine ⟨i - pool.cursor, List.mem_range.mpr (by omega), ?_⟩
    rw [Nat.add_sub_cancel' hle, Nat.mod_eq_of_lt hi]
  · refine ⟨i + pool.entries.length - pool.cursor, List.mem_range.mpr (by omega), ?_⟩
    rw [show pool.cursor + (i + pool.entries.length - pool.cursor) = i + pool.entries.length by
      omega, Nat.add_mod_right, Nat.mod_eq_of_lt hi]

/-- The other scan ends at an entry with as few failures as any that it has seen. -/
theorem leastFailed_spec {indices : List Nat} (hin : ∀ i ∈ indices, i < pool.entries.length)
    {j : Nat} {best : Entry} (hbest : pool.entries[j]? = some best) :
    ∃ index entry, pool.leastFailed (some (j, best.consecutiveFailures)) indices =
        some (some index) ∧
      pool.entries[index]? = some entry ∧
      entry.consecutiveFailures ≤ best.consecutiveFailures ∧
      ∀ i ∈ indices, ∀ other, pool.entries[i]? = some other →
        entry.consecutiveFailures ≤ other.consecutiveFailures := by
  induction indices generalizing j best with
  | nil => exact ⟨j, best, rfl, hbest, UInt32.le_refl _, by simp⟩
  | cons i indices ih =>
      obtain ⟨hi, hrest⟩ := List.forall_mem_cons.mp hin
      obtain ⟨next, hnext⟩ : ∃ next, pool.entries[i]? = some next :=
        ⟨_, List.getElem?_eq_getElem hi⟩
      rw [leastFailed, hnext]
      simp only [Option.bind_eq_bind, Option.bind_some]
      by_cases hless : next.consecutiveFailures < best.consecutiveFailures
      · rw [if_pos hless]
        obtain ⟨index, entry, hres, hentry, hle, hmin⟩ := ih hrest hnext
        refine ⟨index, entry, hres, hentry, UInt32.le_trans hle (UInt32.le_of_lt hless),
          List.forall_mem_cons.mpr ⟨?_, hmin⟩⟩
        intro other hother
        obtain rfl := Option.some.inj (hnext.symm.trans hother)
        exact hle
      · rw [if_neg hless]
        obtain ⟨index, entry, hres, hentry, hle, hmin⟩ := ih hrest hbest
        refine ⟨index, entry, hres, hentry, hle, List.forall_mem_cons.mpr ⟨?_, hmin⟩⟩
        intro other hother
        obtain rfl := Option.some.inj (hnext.symm.trans hother)
        exact UInt32.le_trans hle (UInt32.not_lt.mp hless)

/-- Over all indices it ends at an entry with as few failures as any. -/
theorem leastFailed_range (hpos : 0 < pool.entries.length) :
    ∃ index entry, pool.leastFailed none (List.range pool.entries.length) = some (some index) ∧
      pool.entries[index]? = some entry ∧
      ∀ other ∈ pool.entries, entry.consecutiveFailures ≤ other.consecutiveFailures := by
  obtain ⟨m, hm⟩ : ∃ m, pool.entries.length = m + 1 := ⟨_, (Nat.sub_add_cancel hpos).symm⟩
  obtain ⟨first, hfirst⟩ : ∃ first, pool.entries[0]? = some first :=
    ⟨_, List.getElem?_eq_getElem hpos⟩
  have hin : ∀ i ∈ List.range' 1 m, i < pool.entries.length := by
    intro i hi
    obtain ⟨j, hj, rfl⟩ := List.mem_range'.mp hi
    omega
  obtain ⟨index, entry, hres, hentry, hle, hmin⟩ := leastFailed_spec hin hfirst
  refine ⟨index, entry, ?_, hentry, ?_⟩
  · rw [hm, List.range_eq_range', List.range'_succ, leastFailed, hfirst]
    exact hres
  · intro other hother
    obtain ⟨i, hi, rfl⟩ := List.mem_iff_getElem.mp hother
    rcases Nat.eq_zero_or_pos i with rfl | hi0
    · obtain rfl := Option.some.inj (hfirst.symm.trans (List.getElem?_eq_getElem hi))
      exact hle
    · have hmem : i ∈ List.range' 1 m := List.mem_range'.mpr ⟨i - 1, by omega, by omega⟩
      exact hmin i hmem _ (List.getElem?_eq_getElem hi)

/-- What a lease is good for: a healthy entry if there is one, and otherwise one with as few
failures as any. -/
structure Serves (pool : ProxyPool) (lease : Lease) (entry : Entry) : Prop where
  entry_at : pool.entries[lease.index]? = some entry
  proxy : lease.proxy = entry.proxy
  healthy : (∃ other ∈ pool.entries, pool.Healthy other) → pool.Healthy entry
  least : (∀ other ∈ pool.entries, ¬ pool.Healthy other) →
    ∀ other ∈ pool.entries, entry.consecutiveFailures ≤ other.consecutiveFailures

/-- A lease is of the entry at its index. -/
theorem lease_of_getElem? {index : Nat} {entry : Entry} (h : pool.entries[index]? = some entry) :
    pool.lease index = some { index, proxy := entry.proxy } := by
  rw [lease, h]
  rfl

/-- **What `acquire` hands out.** It finds nothing only in an empty pool, and only the cursor
changes. -/
theorem acquire_spec (hvalid : pool.Valid) :
    (pool.entries = [] ∧ pool.acquire = some (none, pool)) ∨
    ∃ lease entry cursor, pool.acquire = some (some lease, { pool with cursor }) ∧
      cursor < pool.entries.length ∧ pool.Serves lease entry := by
  rcases Nat.eq_zero_or_pos pool.entries.length with hzero | hpos
  · exact .inl ⟨List.length_eq_zero_iff.mp hzero, if_pos hzero⟩
  · have hcursor : pool.cursor < pool.entries.length := by
      rcases hvalid with h | ⟨h, -⟩
      · exact h
      · simp [h] at hpos
    refine .inr ?_
    simp only [acquire, if_neg (Nat.pos_iff_ne_zero.mp hpos)]
    rcases nextHealthy_spec hpos (List.range pool.entries.length) with
      ⟨index, entry, hnext, hentry, hhealthy⟩ | ⟨hnext, hdead⟩
    · refine ⟨⟨index, entry.proxy⟩, entry, (index + 1) % pool.entries.length, ?_,
        Nat.mod_lt _ hpos, hentry, rfl, fun _ => hhealthy, ?_⟩
      · simp only [hnext, lease_of_getElem? hentry, Option.bind_eq_bind, Option.bind_some]
      · intro hnone
        exact absurd hhealthy (hnone entry (List.mem_of_getElem? hentry))
    · have hall : ∀ other ∈ pool.entries, ¬ pool.Healthy other := by
        intro other hother
        obtain ⟨i, hi, rfl⟩ := List.mem_iff_getElem.mp hother
        obtain ⟨step, hstep, hat⟩ := exists_step hcursor hi
        refine hdead step hstep _ ?_
        rw [hat]
        exact List.getElem?_eq_getElem hi
      obtain ⟨index, entry, hleast, hentry, hmin⟩ := leastFailed_range hpos
      refine ⟨⟨index, entry.proxy⟩, entry, (index + 1) % pool.entries.length, ?_,
        Nat.mod_lt _ hpos, hentry, rfl, ?_, fun _ => hmin⟩
      · simp only [hnext, hleast, lease_of_getElem? hentry, Option.bind_eq_bind, Option.bind_some]
      · rintro ⟨other, hother, hhealthy⟩
        exact absurd hhealthy (hall other hother)

/-! ### What a report changes -/

/-- An update changes the entry at its index, if there is one. -/
theorem update_getElem? {index j : Nat} {f : Entry → Entry} :
    (pool.update index f).entries[j]? =
      if index = j then pool.entries[j]?.map f else pool.entries[j]? := by
  rw [update]
  by_cases hj : index = j
  · subst hj
    rcases hentry : pool.entries[index]? with _ | entry
    · simp [hentry]
    · have hlt : index < pool.entries.length := (List.getElem?_eq_some_iff.mp hentry).1
      simp [List.getElem?_set_self hlt]
  · rcases hentry : pool.entries[index]? with _ | entry
    · simp [hj]
    · simp [hj, List.getElem?_set_ne hj]

/-- An update keeps the policy. -/
@[simp] theorem update_policy (index : Nat) (f : Entry → Entry) :
    (pool.update index f).policy = pool.policy := by
  rw [update]
  split <;> rfl

/-- An update keeps the cursor. -/
@[simp] theorem update_cursor (index : Nat) (f : Entry → Entry) :
    (pool.update index f).cursor = pool.cursor := by
  rw [update]
  split <;> rfl

/-- A report changes no proxy. -/
theorem update_proxies (pool : ProxyPool) (index : Nat) {f : Entry → Entry}
    (hf : ∀ entry, (f entry).proxy = entry.proxy) :
    (pool.update index f).entries.map (·.proxy) = pool.entries.map (·.proxy) := by
  refine List.ext_getElem? fun j => ?_
  rw [List.getElem?_map, List.getElem?_map, update_getElem?]
  split
  · rw [Option.map_map]
    exact congrArg (pool.entries[j]?.map ·) (funext hf)
  · rfl

/-- An update that keeps the proxy keeps the pool valid. -/
theorem update_valid {index : Nat} {f : Entry → Entry}
    (hf : ∀ entry, (f entry).proxy = entry.proxy) (h : pool.Valid) :
    (pool.update index f).Valid := by
  have hlen : (pool.update index f).entries.length = pool.entries.length := by
    have hproxies := congrArg List.length (update_proxies pool index hf)
    rwa [List.length_map, List.length_map] at hproxies
  rw [Valid, update_cursor, hlen]
  exact h.imp_right fun ⟨hnil, hzero⟩ =>
    ⟨List.length_eq_zero_iff.mp (by rw [hlen, hnil]; rfl), hzero⟩

end ProxyPool

/-! ### Histories -/

/-- The calls that change a pool. -/
inductive PoolOp
  | acquire
  | reportSuccess (lease : Lease)
  | reportFailure (lease : Lease)
  deriving DecidableEq, Repr

namespace PoolOp

/-- The call reports a success of the entry `i`. -/
def isSuccessOn (i : Nat) : PoolOp → Bool
  | .reportSuccess lease => lease.index == i
  | _ => false

/-- The call reports a failure of the entry `i`. -/
def isFailureOn (i : Nat) : PoolOp → Bool
  | .reportFailure lease => lease.index == i
  | _ => false

/-- The lease that the call reports. -/
def lease? : PoolOp → Option Lease
  | .acquire => none
  | .reportSuccess lease => some lease
  | .reportFailure lease => some lease

/-- The failures reported on index `i` since the last success reported on it. -/
def failuresSince (i : Nat) (ops : List PoolOp) : Nat :=
  (ops.reverse.takeWhile fun op => !op.isSuccessOn i).countP (·.isFailureOn i)

/-- A success sets the count to zero, a failure adds one. -/
theorem failuresSince_concat (i : Nat) (ops : List PoolOp) (op : PoolOp) :
    failuresSince i (ops ++ [op]) =
      if op.isSuccessOn i then 0
      else failuresSince i ops + if op.isFailureOn i then 1 else 0 := by
  rw [failuresSince, List.reverse_append, List.reverse_singleton, List.singleton_append,
    List.takeWhile_cons]
  cases op.isSuccessOn i with
  | true => rfl
  | false => exact List.countP_cons

end PoolOp

/-- A pool and the leases that it has handed out. -/
structure PoolUse where
  pool : ProxyPool
  leases : List Lease
  deriving DecidableEq

namespace PoolUse

/-- A new pool. -/
def start (proxies : List ProxyConfig) (policy : HealthPolicy) : PoolUse :=
  ⟨.withPolicy proxies policy, []⟩

/-- One call. Only a lease of the pool can be reported. -/
def step (u : PoolUse) : PoolOp → Option PoolUse
  | .acquire => u.pool.acquire.map fun r => ⟨r.2, r.1.toList ++ u.leases⟩
  | .reportSuccess lease =>
      if lease ∈ u.leases then some { u with pool := u.pool.reportSuccess lease } else none
  | .reportFailure lease =>
      if lease ∈ u.leases then some { u with pool := u.pool.reportFailure lease } else none

/-- What every history keeps. -/
structure Sound (proxies : List ProxyConfig) (policy : HealthPolicy) (ops : List PoolOp)
    (u : PoolUse) : Prop where
  same_policy : u.pool.policy = policy
  same_proxies : u.pool.entries.map (·.proxy) = proxies
  counts : ∀ i entry, u.pool.entries[i]? = some entry →
    entry.consecutiveFailures.toNat = min (PoolOp.failuresSince i ops) (2 ^ 32 - 1)
  valid : u.pool.Valid
  leased : ∀ lease ∈ u.leases, proxies[lease.index]? = some lease.proxy

/-- A new pool is sound. -/
theorem sound_start (proxies : List ProxyConfig) (policy : HealthPolicy) :
    Sound proxies policy [] (start proxies policy) where
  same_policy := rfl
  same_proxies := by
    simp only [start, ProxyPool.withPolicy, List.map_map]
    exact List.map_id _
  counts := by
    intro i entry hentry
    simp only [start, ProxyPool.withPolicy, List.getElem?_map, Option.map_eq_some_iff] at hentry
    obtain ⟨proxy, -, rfl⟩ := hentry
    rfl
  valid := by
    cases proxies with
    | nil => exact .inr ⟨rfl, rfl⟩
    | cons proxy proxies => exact .inl (Nat.succ_pos _)
  leased := by simp [start]

/-- The count stops at the largest `u32`. -/
theorem toNat_saturatingSucc (n : UInt32) :
    (saturatingSucc n).toNat = min (n.toNat + 1) (2 ^ 32 - 1) := by
  have hn := n.toNat_lt
  rw [saturatingSucc]
  split
  · rw [UInt32.toNat_add, UInt32.toNat_one, Nat.mod_eq_of_lt ‹_›]
    omega
  · omega

/-- A report keeps the account, if its effect on the count is that of the call. -/
theorem Sound.report {proxies : List ProxyConfig} {policy : HealthPolicy} {ops : List PoolOp}
    {u : PoolUse} (h : Sound proxies policy ops u) {op : PoolOp} {index : Nat} {f : Entry → Entry}
    (hproxy : ∀ entry, (f entry).proxy = entry.proxy)
    (hother : ∀ i, index ≠ i → op.isSuccessOn i = false ∧ op.isFailureOn i = false)
    (hcount : ∀ entry : Entry,
      entry.consecutiveFailures.toNat = min (PoolOp.failuresSince index ops) (2 ^ 32 - 1) →
      (f entry).consecutiveFailures.toNat =
        min (PoolOp.failuresSince index (ops ++ [op])) (2 ^ 32 - 1)) :
    Sound proxies policy (ops ++ [op]) { u with pool := u.pool.update index f } where
  same_policy := (ProxyPool.update_policy index f).trans h.same_policy
  same_proxies := (ProxyPool.update_proxies u.pool index hproxy).trans h.same_proxies
  counts := by
    intro i entry hentry
    rw [ProxyPool.update_getElem?] at hentry
    by_cases hi : index = i
    · subst hi
      rw [if_pos rfl] at hentry
      obtain ⟨old, hold, rfl⟩ := Option.map_eq_some_iff.mp hentry
      exact hcount old (h.counts index old hold)
    · rw [if_neg hi] at hentry
      obtain ⟨hsuccess, hfailure⟩ := hother i hi
      rw [PoolOp.failuresSince_concat, hsuccess, hfailure]
      exact h.counts i entry hentry
  valid := ProxyPool.update_valid hproxy h.valid
  leased := h.leased

/-- **Step lemma.** A pool stays sound through every call. -/
theorem Sound.step {proxies : List ProxyConfig} {policy : HealthPolicy} {ops : List PoolOp}
    {u u' : PoolUse} {op : PoolOp} (h : Sound proxies policy ops u) (hstep : u.step op = some u') :
    Sound proxies policy (ops ++ [op]) u' := by
  cases op with
  | acquire =>
      obtain ⟨r, hr, rfl⟩ := Option.map_eq_some_iff.mp hstep
      have hcounts : ∀ i, PoolOp.failuresSince i (ops ++ [.acquire]) =
          PoolOp.failuresSince i ops := fun i => PoolOp.failuresSince_concat i ops .acquire
      rcases ProxyPool.acquire_spec h.valid with
        ⟨-, hnone⟩ | ⟨lease, entry, cursor, hsome, hcursor, hserves⟩
      · obtain rfl := Option.some.inj (hnone.symm.trans hr)
        refine ⟨h.same_policy, h.same_proxies, ?_, h.valid, h.leased⟩
        intro i entry hentry
        rw [hcounts]
        exact h.counts i entry hentry
      · obtain rfl := Option.some.inj (hsome.symm.trans hr)
        refine ⟨h.same_policy, h.same_proxies, ?_, .inl hcursor, ?_⟩
        · intro i entry hentry
          rw [hcounts]
          exact h.counts i entry hentry
        · refine List.forall_mem_cons.mpr ⟨?_, h.leased⟩
          rw [← h.same_proxies, List.getElem?_map, hserves.entry_at, hserves.proxy]
          rfl
  | reportSuccess lease =>
      simp only [PoolUse.step] at hstep
      split at hstep
      · obtain rfl := Option.some.inj hstep
        refine h.report (fun _ => rfl) ?_ ?_
        · intro i hi
          exact ⟨beq_eq_false_iff_ne.mpr hi, rfl⟩
        · intro entry _
          rw [PoolOp.failuresSince_concat, PoolOp.isSuccessOn, beq_self_eq_true, if_pos rfl]
          rfl
      · cases hstep
  | reportFailure lease =>
      simp only [PoolUse.step] at hstep
      split at hstep
      · obtain rfl := Option.some.inj hstep
        refine h.report (fun _ => rfl) ?_ ?_
        · intro i hi
          exact ⟨rfl, beq_eq_false_iff_ne.mpr hi⟩
        · intro entry hentry
          have hconcat : PoolOp.failuresSince lease.index (ops ++ [.reportFailure lease]) =
              PoolOp.failuresSince lease.index ops + 1 := by
            simp [PoolOp.failuresSince_concat, PoolOp.isSuccessOn, PoolOp.isFailureOn]
          rw [toNat_saturatingSucc, hentry, hconcat]
          omega
      · cases hstep

/-- **Every history keeps the account.** -/
theorem sound_of_exec {proxies : List ProxyConfig} {policy : HealthPolicy} {ops : List PoolOp}
    {u : PoolUse} (h : Ledger.exec step (start proxies policy) ops = some u) :
    Sound proxies policy ops u := by
  induction ops using List.reverseRecOn generalizing u with
  | nil =>
      obtain rfl := Option.some.inj h
      exact sound_start proxies policy
  | append_singleton ops op ih =>
      obtain ⟨v, hv, hlast⟩ := Ledger.exec_append_eq_some.mp h
      obtain ⟨u', hstep, hnil⟩ := Ledger.exec_cons_eq_some.mp hlast
      obtain rfl := Option.some.inj hnil
      exact (ih hv).step hstep

/-- A call that may be made finds no index out of range. It changes no proxy, and no count but
the reported one's. -/
theorem Sound.call {proxies : List ProxyConfig} {policy : HealthPolicy} {ops : List PoolOp}
    {u : PoolUse} {op : PoolOp} (h : Sound proxies policy ops u)
    (hop : ∀ lease, op.lease? = some lease → lease ∈ u.leases) :
    ∃ u', u.step op = some u' ∧ ∀ j entry, u.pool.entries[j]? = some entry →
      ∃ entry', u'.pool.entries[j]? = some entry' ∧ entry'.proxy = entry.proxy ∧
        ((∀ lease, op.lease? = some lease → lease.index ≠ j) → entry' = entry) := by
  have hreport : ∀ (lease : Lease) (f : Entry → Entry), (∀ entry, (f entry).proxy = entry.proxy) →
      ∀ j entry, u.pool.entries[j]? = some entry →
        ∃ entry', (u.pool.update lease.index f).entries[j]? = some entry' ∧
          entry'.proxy = entry.proxy ∧ (lease.index ≠ j → entry' = entry) := by
    intro lease f hf j entry hentry
    rw [ProxyPool.update_getElem?, hentry]
    by_cases hj : lease.index = j
    · exact ⟨f entry, if_pos hj, hf entry, fun hne => absurd hj hne⟩
    · exact ⟨entry, if_neg hj, rfl, fun _ => rfl⟩
  cases op with
  | acquire =>
      rcases ProxyPool.acquire_spec h.valid with ⟨-, hnone⟩ | ⟨lease, entry, cursor, hsome, -, -⟩
      · refine ⟨_, congrArg (Option.map _) hnone, ?_⟩
        exact fun j entry hentry => ⟨entry, hentry, rfl, fun _ => rfl⟩
      · refine ⟨_, congrArg (Option.map _) hsome, ?_⟩
        exact fun j entry hentry => ⟨entry, hentry, rfl, fun _ => rfl⟩
  | reportSuccess lease =>
      refine ⟨_, if_pos (hop lease rfl), fun j entry hentry => ?_⟩
      obtain ⟨entry', hentry', hproxy, hsame⟩ := hreport lease
        (fun entry => { entry with consecutiveFailures := 0 }) (fun _ => rfl) j entry hentry
      exact ⟨entry', hentry', hproxy, fun hne => hsame (hne lease rfl)⟩
  | reportFailure lease =>
      refine ⟨_, if_pos (hop lease rfl), fun j entry hentry => ?_⟩
      obtain ⟨entry', hentry', hproxy, hsame⟩ := hreport lease
        (fun entry =>
          { entry with consecutiveFailures := saturatingSucc entry.consecutiveFailures })
        (fun _ => rfl) j entry hentry
      exact ⟨entry', hentry', hproxy, fun hne => hsame (hne lease rfl)⟩

/-- The tests that `status` and `statuses` make. -/
theorem isHealthy_statusOf (pool : ProxyPool) (entry : Entry) :
    (pool.statusOf entry).isHealthy = decide (pool.Healthy entry) := by
  rw [ProxyPool.statusOf]
  split
  · exact (decide_eq_true ‹_›).symm
  · exact (decide_eq_false ‹_›).symm

end PoolUse

/-- **The pool keeps account.** After every history each count is the number of failures since
the last success, up to the largest `u32`. The health tests agree. The cursor is an index,
unless there is none, and no index is out of range. Something is handed out unless the pool is
empty: a healthy entry if there is one, and otherwise one of minimal count. No call changes a
proxy, or a count but the reported one's. -/
theorem pool_keeps_account (proxies : List ProxyConfig) (policy : HealthPolicy)
    (ops : List PoolOp) (u : PoolUse)
    (h : Ledger.exec PoolUse.step (.start proxies policy) ops = some u) :
    u.pool.policy = policy ∧ u.pool.entries.map (·.proxy) = proxies ∧
    (∀ i entry, u.pool.entries[i]? = some entry →
      entry.consecutiveFailures.toNat = min (PoolOp.failuresSince i ops) (2 ^ 32 - 1)) ∧
    (u.pool.healthy =
        some (u.pool.entries.countP fun entry => decide (u.pool.Healthy entry)) ∧
      u.pool.statuses.map (·.2.isHealthy) =
        u.pool.entries.map (fun entry => decide (u.pool.Healthy entry)) ∧
      ∀ lease ∈ u.leases, ∃ entry, u.pool.entries[lease.index]? = some entry ∧
        (u.pool.status lease).isHealthy = decide (u.pool.Healthy entry)) ∧
    (u.pool.cursor < u.pool.entries.length ∨ u.pool.entries = [] ∧ u.pool.cursor = 0) ∧
    (∃ r pool, u.pool.acquire = some (r, pool) ∧ (r = none ↔ u.pool.entries = []) ∧
      ∀ lease, r = some lease → ∃ entry, u.pool.Serves lease entry) ∧
    ∀ op, (∀ lease, PoolOp.lease? op = some lease → lease ∈ u.leases) →
      ∃ u', u.step op = some u' ∧ ∀ j entry, u.pool.entries[j]? = some entry →
        ∃ entry', u'.pool.entries[j]? = some entry' ∧ entry'.proxy = entry.proxy ∧
          ((∀ lease, op.lease? = some lease → lease.index ≠ j) → entry' = entry) := by
  have hsound := PoolUse.sound_of_exec h
  refine ⟨hsound.same_policy, hsound.same_proxies, hsound.counts,
    ⟨u.pool.healthy_eq, ?_, ?_⟩, hsound.valid, ?_, fun op hop => hsound.call hop⟩
  · rw [ProxyPool.statuses, List.map_map]
    exact List.map_congr_left fun entry _ => PoolUse.isHealthy_statusOf u.pool entry
  · intro lease hlease
    have hproxy := hsound.leased lease hlease
    rw [← hsound.same_proxies, List.getElem?_map] at hproxy
    obtain ⟨entry, hentry, -⟩ := Option.map_eq_some_iff.mp hproxy
    refine ⟨entry, hentry, ?_⟩
    rw [ProxyPool.status, hentry]
    exact PoolUse.isHealthy_statusOf u.pool entry
  · rcases ProxyPool.acquire_spec hsound.valid with
      ⟨hnil, hnone⟩ | ⟨lease, entry, cursor, hsome, hcursor, hserves⟩
    · exact ⟨_, _, hnone, iff_of_true rfl hnil, by simp⟩
    · refine ⟨_, _, hsome, iff_of_false (Option.some_ne_none _) ?_, ?_⟩
      · intro hnil
        simp [hnil] at hcursor
      · intro lease' hlease
        obtain rfl := Option.some.inj hlease
        exact ⟨entry, hserves⟩

namespace Sample

/-- A proxy at this port. -/
def proxy (port : UInt16) : ProxyConfig := { kind := .socks5, host := "p", port }

/-- Two proxies are leased. The first fails twice, the second recovers from a failure. -/
def poolOps : List PoolOp :=
  [.acquire, .acquire, .reportFailure ⟨0, proxy 1080⟩, .reportFailure ⟨1, proxy 1081⟩,
    .reportFailure ⟨0, proxy 1080⟩, .reportSuccess ⟨1, proxy 1081⟩]

/-- The pool after that, if it takes two failures to be dead. -/
def usedPool : PoolUse where
  pool :=
    { entries := [⟨proxy 1080, 2⟩, ⟨proxy 1081, 0⟩], policy := { deadAfter := 2 }, cursor := 0 }
  leases := [⟨1, proxy 1081⟩, ⟨0, proxy 1080⟩]

end Sample

/-- In that history one proxy is left healthy, and is the one that is handed out. -/
theorem pool_keeps_account_used :
    Ledger.exec PoolUse.step (.start [Sample.proxy 1080, Sample.proxy 1081] { deadAfter := 2 })
      Sample.poolOps = some Sample.usedPool ∧
    Sample.usedPool.pool.healthy = some 1 ∧
    ∃ lease pool, Sample.usedPool.pool.acquire = some (some lease, pool) ∧ lease.index = 1 := by
  have hrun : Ledger.exec PoolUse.step
      (.start [Sample.proxy 1080, Sample.proxy 1081] { deadAfter := 2 }) Sample.poolOps =
        some Sample.usedPool := by
    decide
  obtain ⟨-, -, -, ⟨hhealthy, -⟩, -, ⟨r, pool, hacquire, hnone, hserves⟩, -⟩ :=
    pool_keeps_account _ _ _ _ hrun
  refine ⟨hrun, hhealthy.trans (by decide), ?_⟩
  rcases r with _ | lease
  · exact absurd (hnone.mp rfl) (by decide)
  · obtain ⟨entry, hentry, -, hfirst, -⟩ := hserves lease rfl
    have hgood : Sample.usedPool.pool.Healthy entry := hfirst (by decide)
    refine ⟨lease, pool, hacquire, ?_⟩
    rcases hindex : lease.index with _ | _ | i
    · rw [hindex] at hentry
      obtain rfl := Option.some.inj hentry
      exact absurd hgood (by decide)
    · rfl
    · rw [hindex] at hentry
      cases hentry

/-- The cursor of an empty pool is not below its size. -/
theorem cursor_of_empty_pool :
    Ledger.exec PoolUse.step (.start [] {}) [] = some (.start [] {}) ∧
      ¬ (PoolUse.start [] {}).pool.cursor < (PoolUse.start [] {}).pool.entries.length := by
  decide

end Steamroids
