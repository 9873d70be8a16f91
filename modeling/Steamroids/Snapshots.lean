import Steamroids.Acts

/-!
# The Snapshot Cache

The driver shares three cells with its handles: the snapshot cache, the published state and
the broadcast channel. A concurrent reader may look at them between any two effects of the
driver, so what it can see is determined by a prefix of the ledger: `shared` replays it.

The results say that the cells are in step with each other at every such moment, not only
between steps of the driver. They follow from the order in which the driver makes its
effects (`Orderly`): a connection is adopted before the cache is emptied, the cache is
emptied before the logon is published, and a snapshot is cached before it is broadcast.

## Main results

* `Reachable.caching`: the driver keeps that order.
* `current_of_orderly`: with that order, the cache is that of the current connection, except
  between the adoption of a connection and the emptying of the cache.
* `snapshot_cache_current`: what a reader may rely on.
-/

namespace Steamroids

namespace Effect

/-- The snapshot that an effect offers to the cache. -/
def offer? : Effect → Option Arrival
  | .offered a => some a
  | _ => none

/-- An effect that may follow any other, and any other it. -/
def isFree : Effect → Bool
  | .adopted _ _ => false
  | .cleared => false
  | .offered _ => false
  | .broadcast a => a.msg.emsg ∉ postLoginSnapshotEmsgs
  | _ => true

/-- An effect that neither changes a shared cell nor broadcasts. -/
def isPrivate : Effect → Bool
  | .adopted _ _ => false
  | .cleared => false
  | .offered _ => false
  | .broadcast _ => false
  | .published _ => false
  | _ => true

end Effect

/-! ### The shared cells -/

/-- What a reader can see: the current connection, the published state and the cache. -/
structure Shared where
  conn : Option Nat
  state : Option SessionState
  cache : UInt32 → Option Bytes

/-- The cells after one more effect. -/
def Shared.after (s : Shared) : Effect → Shared
  | .adopted conn _ => { s with conn := some conn }
  | .cleared => { s with cache := fun _ => none }
  | .offered a =>
      { s with
        cache := fun e => if e = a.msg.emsg then s.cache e <|> some a.msg.body else s.cache e }
  | .published st => { s with state := some st }
  | _ => s

/-- The cells after the effects of a ledger. -/
def shared (log : List Effect) : Shared := log.foldl Shared.after ⟨none, none, fun _ => none⟩

/-- The first message of kind `e` that was dispatched on connection `conn` without being
routed to a request. -/
def firstUnrouted (conn : Nat) (e : UInt32) (log : List Effect) : Option Arrival :=
  (log.filterMap Effect.offer?).find? fun a => a.conn = conn ∧ a.msg.emsg = e

/-- What is shared after one more effect. -/
theorem shared_append_singleton (log : List Effect) (x : Effect) :
    shared (log ++ [x]) = (shared log).after x := by
  simp [shared]

/-- Private effects share nothing. -/
theorem shared_append_of_private {log es : List Effect} (h : ∀ x ∈ es, x.isPrivate) :
    shared (log ++ es) = shared log := by
  induction es using List.reverseRecOn with
  | nil => rw [List.append_nil]
  | append_singleton es x ih =>
      rw [← List.append_assoc, shared_append_singleton, ih fun y hy => h y (by simp [hy])]
      have hx := h x (by simp)
      cases x <;> first | rfl | cases hx

/-- Once a connection was adopted there is one. -/
theorem shared_conn_isSome {log : List Effect} {n : Nat} {items : List WsItem}
    (h : .adopted n items ∈ log) : ∃ conn, (shared log).conn = some conn := by
  induction log using List.reverseRecOn with
  | nil => simp at h
  | append_singleton log x ih =>
      rw [shared_append_singleton]
      rcases List.mem_append.mp h with hmem | hmem
      · obtain ⟨conn, hconn⟩ := ih hmem
        cases x with
        | adopted m its => exact ⟨m, rfl⟩
        | _ => exact ⟨conn, hconn⟩
      · obtain rfl : .adopted n items = x := by simpa using hmem
        exact ⟨n, rfl⟩

/-- Without a new adoption the connection stays. -/
theorem shared_conn_append {p q : List Effect} (h : ∀ n items, .adopted n items ∉ q) :
    (shared (p ++ q)).conn = (shared p).conn := by
  induction q using List.reverseRecOn with
  | nil => rw [List.append_nil]
  | append_singleton q x ih =>
      rw [← List.append_assoc, shared_append_singleton]
      have hq := ih fun n items hmem => h n items (List.mem_append_left _ hmem)
      cases x with
      | adopted n items => exact absurd (by simp) (h n items)
      | _ => exact hq

/-- Without a new publication the state stays. -/
theorem shared_state_append {p q : List Effect} (h : ∀ st, .published st ∉ q) :
    (shared (p ++ q)).state = (shared p).state := by
  induction q using List.reverseRecOn with
  | nil => rw [List.append_nil]
  | append_singleton q x ih =>
      rw [← List.append_assoc, shared_append_singleton]
      have hq := ih fun st hmem => h st (List.mem_append_left _ hmem)
      cases x with
      | published st => exact absurd (by simp) (h st)
      | _ => exact hq

/-- The first message of a type stays the first. -/
theorem firstUnrouted_append_singleton (conn : Nat) (e : UInt32) (log : List Effect) (x : Effect) :
    firstUnrouted conn e (log ++ [x]) =
      (firstUnrouted conn e log).or
        (x.offer?.filter fun a => a.conn = conn ∧ a.msg.emsg = e) := by
  rw [firstUnrouted, List.filterMap_append, List.find?_append, ← firstUnrouted]
  rcases h : x.offer? with _ | a
  · simp [h]
  · by_cases ha : a.conn = conn ∧ a.msg.emsg = e <;> simp [h, ha, Option.filter]

/-- The first message of a type was offered on its connection. -/
theorem mem_of_firstUnrouted {conn : Nat} {e : UInt32} {log : List Effect} {a : Arrival}
    (h : firstUnrouted conn e log = some a) :
    .offered a ∈ log ∧ a.conn = conn ∧ a.msg.emsg = e := by
  obtain ⟨x, hx, hxa⟩ := List.mem_filterMap.mp (List.mem_of_find?_eq_some h)
  have ha : a.conn = conn ∧ a.msg.emsg = e := by simpa using List.find?_some h
  cases x <;> cases hxa
  exact ⟨hx, ha⟩

/-- There is no first one if none was offered. -/
theorem firstUnrouted_eq_none {conn : Nat} {e : UInt32} {log : List Effect} :
    firstUnrouted conn e log = none ↔
      ∀ a, .offered a ∈ log → a.conn = conn → a.msg.emsg ≠ e := by
  simp only [firstUnrouted, List.find?_eq_none, List.mem_filterMap, decide_eq_true_eq]
  constructor
  · rintro h a ha hconn he
    exact h a ⟨_, ha, rfl⟩ ⟨hconn, he⟩
  · rintro h a ⟨x, hx, hxa⟩ ⟨hconn, he⟩
    cases x <;> cases hxa
    exact h a hx hconn he

/-! ### The order of effects -/

/-- What the effects before `x` tell about it: a new connection is adopted while the session
is not logged on; the cache is emptied next, and only then; a snapshot is offered to the
cache on the current connection, and broadcast next. -/
structure Orderly (pre : List Effect) (x : Effect) : Prop where
  adopted : ∀ n items, x = .adopted n items →
    (∀ a, .offered a ∈ pre → a.conn < n) ∧ ∀ id, (shared pre).state ≠ some (.loggedOn id)
  cleared : (∃ n items, pre.getLast? = some (.adopted n items)) ↔ x = .cleared
  offered : ∀ a, x = .offered a →
    (shared pre).conn = some a.conn ∧ a.msg.emsg ∈ postLoginSnapshotEmsgs
  broadcast : ∀ a, x = .broadcast a → a.msg.emsg ∈ postLoginSnapshotEmsgs →
    pre.getLast? = some (.offered a)
  announced : ∀ a, pre.getLast? = some (.offered a) → x = .broadcast a

/-- The cache is that of the current connection. -/
def Current (log : List Effect) : Prop :=
  ∀ e, (shared log).cache e =
    (shared log).conn.bind fun conn => (firstUnrouted conn e log).map (·.msg.body)

/-- When a connection has just been adopted, nothing was offered on it yet. -/
theorem fresh_of_adopted {log : List Effect} (h : Ledger.Justified Orderly log) {n : Nat}
    {items : List WsItem} (hlast : log.getLast? = some (.adopted n items)) :
    (shared log).conn = some n ∧ (∀ a, .offered a ∈ log → a.conn < n) ∧
      ∀ id, (shared log).state ≠ some (.loggedOn id) := by
  obtain ⟨pre, rfl⟩ := List.getLast?_eq_some_iff.mp hlast
  obtain ⟨hfresh, hstate⟩ := (Ledger.justified_append_singleton.mp h).2.adopted n items rfl
  rw [shared_append_singleton]
  exact ⟨rfl, fun a ha => hfresh a (by simpa using ha), hstate⟩

/-- With every effect in order, the cache is current at every moment but one: when a
connection has been adopted and the cache is about to be emptied. -/
theorem current_of_orderly {log : List Effect} (h : Ledger.Justified Orderly log) :
    (∃ n items, log.getLast? = some (.adopted n items)) ∨ Current log := by
  induction log using List.reverseRecOn with
  | nil => exact .inr fun _ => rfl
  | append_singleton log x ih =>
      obtain ⟨hlog, hx⟩ := Ledger.justified_append_singleton.mp h
      have hcur : x ≠ .cleared → Current log := by
        intro hne
        exact (ih hlog).resolve_left fun hlast => hne (hx.cleared.mp hlast)
      have hkeep : x ≠ .cleared → x.offer? = none →
          (shared (log ++ [x])).cache = (shared log).cache →
          (shared (log ++ [x])).conn = (shared log).conn → Current (log ++ [x]) := by
        intro hne hoffer hcache hconn e
        rw [hcache, hconn, hcur hne e]
        simp [firstUnrouted_append_singleton, hoffer]
      cases x with
      | adopted n items => exact .inl ⟨n, items, List.getLast?_concat⟩
      | cleared =>
          obtain ⟨n, items, hlast⟩ := hx.cleared.mpr rfl
          obtain ⟨hconn, hfresh, -⟩ := fresh_of_adopted hlog hlast
          refine .inr fun e => ?_
          have hnone : firstUnrouted n e (log ++ [.cleared]) = none := by
            rw [firstUnrouted_eq_none]
            intro a ha hn
            exact absurd hn (Nat.ne_of_lt (hfresh a (by simpa using ha)))
          simp [shared_append_singleton, Shared.after, hconn, hnone]
      | offered a =>
          obtain ⟨hconn, -⟩ := hx.offered a rfl
          refine .inr fun e => ?_
          have hold := hcur (by simp) e
          simp only [hconn, Option.bind_some] at hold
          simp only [shared_append_singleton, Shared.after, hconn, Option.bind_some, hold,
            firstUnrouted_append_singleton, Effect.offer?]
          by_cases he : e = a.msg.emsg
          · subst he
            rcases firstUnrouted a.conn a.msg.emsg log with _ | b <;> simp [Option.filter]
          · simp [he, Ne.symm he, Option.filter]
      | _ => exact .inr (hkeep (by simp) rfl (by simp [shared_append_singleton, Shared.after])
          (by simp [shared_append_singleton, Shared.after]))

/-- Only post-login snapshots are ever cached. -/
theorem cache_eq_none_of_orderly {log : List Effect} (h : Ledger.Justified Orderly log)
    {e : UInt32} (he : e ∉ postLoginSnapshotEmsgs) : (shared log).cache e = none := by
  induction log using List.reverseRecOn with
  | nil => rfl
  | append_singleton log x ih =>
      obtain ⟨hlog, hx⟩ := Ledger.justified_append_singleton.mp h
      have hold := ih hlog
      rw [shared_append_singleton]
      cases x with
      | offered a =>
          obtain ⟨-, hmem⟩ := hx.offered a rfl
          have hne : e ≠ a.msg.emsg := fun heq => he (heq ▸ hmem)
          simpa [Shared.after, hne] using hold
      | cleared => rfl
      | _ => exact hold

/-- An empty slot of the cache means that no snapshot of its kind was offered on the current
connection. -/
theorem firstUnrouted_of_cache_eq_none {log : List Effect} (h : Ledger.Justified Orderly log)
    {conn : Nat} {e : UInt32} (hconn : (shared log).conn = some conn)
    (he : (shared log).cache e = none) : firstUnrouted conn e log = none := by
  rcases current_of_orderly h with ⟨n, items, hlast⟩ | hcur
  · obtain ⟨hconn', hfresh, -⟩ := fresh_of_adopted h hlast
    obtain rfl : conn = n := by simpa [hconn] using hconn'
    rw [firstUnrouted_eq_none]
    intro a ha hn
    exact absurd hn (Nat.ne_of_lt (hfresh a ha))
  · simpa [hcur e, hconn] using he

/-! ### The driver keeps the order -/

/-- The effects are in order, and no two that belong together are half done. -/
structure InOrder (log : List Effect) : Prop where
  orderly : Ledger.Justified Orderly log
  notAdopted : ∀ n items, log.getLast? ≠ some (.adopted n items)
  notOffered : ∀ a, log.getLast? ≠ some (.offered a)

namespace InOrder

variable {log : List Effect}

/-- An effect that may stand anywhere. -/
theorem free (h : InOrder log) {x : Effect} (hx : x.isFree) : InOrder (log ++ [x]) := by
  refine ⟨Ledger.justified_append_singleton.mpr ⟨h.orderly, ?_, ?_, ?_, ?_, ?_⟩, ?_, ?_⟩
  · rintro n items rfl
    cases hx
  · refine ⟨fun ⟨n, items, hlast⟩ => absurd hlast (h.notAdopted n items), ?_⟩
    rintro rfl
    cases hx
  · rintro a rfl
    cases hx
  · rintro a rfl ha
    simp [Effect.isFree, ha] at hx
  · exact fun a hlast => absurd hlast (h.notOffered a)
  · intro n items hlast
    obtain rfl : x = .adopted n items := by simpa using hlast
    cases hx
  · intro a hlast
    obtain rfl : x = .offered a := by simpa using hlast
    cases hx

/-- Effects that may come at any time keep the order. -/
theorem append_free (h : InOrder log) {es : List Effect} (hes : ∀ x ∈ es, x.isFree) :
    InOrder (log ++ es) := by
  induction es using List.reverseRecOn with
  | nil => rwa [List.append_nil]
  | append_singleton es x ih =>
      rw [← List.append_assoc]
      exact (ih fun y hy => hes y (by simp [hy])).free (hes x (by simp))

/-- Caching and broadcasting a snapshot of the current connection. -/
theorem snapshot (h : InOrder log) {a : Arrival} (hconn : (shared log).conn = some a.conn)
    (ha : a.msg.emsg ∈ postLoginSnapshotEmsgs) :
    InOrder (log ++ [.offered a, .broadcast a]) := by
  have hoffered : Ledger.Justified Orderly (log ++ [.offered a]) := by
    refine Ledger.justified_append_singleton.mpr ⟨h.orderly, by simp, ?_, ?_, by simp, ?_⟩
    · exact ⟨fun ⟨n, items, hlast⟩ => absurd hlast (h.notAdopted n items), by simp⟩
    · rintro _ ⟨⟩
      exact ⟨hconn, ha⟩
    · exact fun b hlast => absurd hlast (h.notOffered b)
  have happ : log ++ [.offered a, .broadcast a] = log ++ [.offered a] ++ [.broadcast a] := by simp
  rw [happ]
  refine ⟨Ledger.justified_append_singleton.mpr ⟨hoffered, by simp, ?_, by simp, ?_, ?_⟩, ?_, ?_⟩
  · simp
  · rintro _ ⟨⟩ _
    simp
  · intro b hlast
    obtain rfl : a = b := by simpa using hlast
    rfl
  · simp
  · simp

/-- Going live on connection `n`. -/
theorem live (h : InOrder log) {n : Nat} (items : List WsItem) (st : SessionState)
    (hfresh : ∀ a, .offered a ∈ log → a.conn < n)
    (hstate : ∀ id, (shared log).state ≠ some (.loggedOn id)) :
    InOrder (log ++ [.adopted n items, .cleared, .published st]) := by
  have hadopted : Ledger.Justified Orderly (log ++ [.adopted n items]) := by
    refine Ledger.justified_append_singleton.mpr ⟨h.orderly, ?_, ?_, by simp, by simp, ?_⟩
    · rintro _ _ ⟨⟩
      exact ⟨hfresh, hstate⟩
    · exact ⟨fun ⟨m, its, hlast⟩ => absurd hlast (h.notAdopted m its), by simp⟩
    · exact fun b hlast => absurd hlast (h.notOffered b)
  have hcleared : InOrder (log ++ [.adopted n items] ++ [.cleared]) := by
    refine ⟨Ledger.justified_append_singleton.mpr ⟨hadopted, by simp, ?_, by simp, by simp, ?_⟩,
      ?_, ?_⟩
    · simp
    · simp
    · simp
    · simp
  have hlive := hcleared.free (x := .published st) rfl
  simpa using hlive

/-- A cached snapshot is broadcast next. -/
theorem broadcast_next (h : InOrder log) {p q : List Effect} {a : Arrival}
    (hlog : log = p ++ .offered a :: q) : ∃ q', q = .broadcast a :: q' := by
  rcases q with _ | ⟨x, q⟩
  · exact absurd (by simp [hlog]) (h.notOffered a)
  · have hx := h.orderly (p ++ [.offered a]) x q (by simp [hlog])
    exact ⟨q, by rw [hx.announced a (by simp)]⟩

/-- A broadcast snapshot was cached just before. -/
theorem offered_before (h : InOrder log) {p q : List Effect} {a : Arrival}
    (hlog : log = p ++ .broadcast a :: q) (ha : a.msg.emsg ∈ postLoginSnapshotEmsgs) :
    ∃ p', p = p' ++ [.offered a] :=
  List.getLast?_eq_some_iff.mp ((h.orderly p _ q hlog).broadcast a rfl ha)

/-- What is first dispatched after a moment is broadcast after it. -/
theorem broadcast_after (h : InOrder log) {p r : List Effect} {a : Arrival}
    (hlog : log = p ++ r) (hmem : .offered a ∈ log) (hnot : .offered a ∉ p) :
    .broadcast a ∉ p ∧ .broadcast a ∈ r := by
  have hr : .offered a ∈ r := (List.mem_append.mp (hlog ▸ hmem)).resolve_left hnot
  obtain ⟨r₁, r₂, rfl⟩ := List.append_of_mem hr
  have hlog' : log = (p ++ r₁) ++ .offered a :: r₂ := by simp [hlog]
  obtain ⟨r₃, rfl⟩ := h.broadcast_next hlog'
  refine ⟨?_, by simp⟩
  intro hb
  obtain ⟨p₁, p₂, rfl⟩ := List.append_of_mem hb
  have ha := ((h.orderly _ _ _ hlog').offered a rfl).2
  obtain ⟨p₃, rfl⟩ := h.offered_before (p := p₁) (by rw [hlog, List.append_assoc]; rfl) ha
  exact hnot (by simp)

end InOrder

namespace SessionDriver

variable {P : Prost} {d d' : SessionDriver}

/-- The shared cells are the driver's own, and its effects are in order. -/
structure Caching (d : SessionDriver) : Prop where
  shared : shared d.log = ⟨some d.conn, some d.state, d.snapshots.lookup⟩
  inOrder : InOrder d.log
  offers : ∀ a, .offered a ∈ d.log → a.conn ≤ d.conn

/-- An act that leaves the shared cells alone. -/
theorem Caching.extend (h : Caching d) {es : List Effect} (hlog : d'.log = d.log ++ es)
    (hes : ∀ x ∈ es, x.isPrivate) (hconn : d'.conn = d.conn) (hstate : d'.state = d.state)
    (hcache : d'.snapshots = d.snapshots) : Caching d' := by
  refine ⟨?_, ?_, ?_⟩
  · rw [hlog, shared_append_of_private hes, h.shared, hconn, hstate, hcache]
  · rw [hlog]
    refine h.inOrder.append_free fun x hx => ?_
    have hpriv := hes x hx
    cases x <;> first | rfl | cases hpriv
  · intro a ha
    rw [hlog] at ha
    rcases List.mem_append.mp ha with ha | ha
    · exact hconn ▸ h.offers a ha
    · cases hes _ ha

/-- Publishing a state other than a logon. -/
theorem Caching.publish (h : Caching d) (st : SessionState) {es : List Effect}
    (hlog : d'.log = d.log ++ .published st :: es) (hes : ∀ x ∈ es, x.isPrivate)
    (hconn : d'.conn = d.conn) (hstate : d'.state = st) (hcache : d'.snapshots = d.snapshots) :
    Caching d' := by
  have hpub : Caching (d.publish st) := by
    refine ⟨?_, h.inOrder.free rfl, fun a ha => h.offers a (by simpa using ha)⟩
    simp only [SessionDriver.publish, emit, shared_append_singleton, h.shared, Shared.after]
  exact hpub.extend (by simpa using hlog) hes hconn hstate hcache

/-- The first snapshot of a kind stays in the cache. -/
theorem cacheAfter_lookup {cache : AList fun _ : UInt32 => Bytes} {msg : SteamMessage}
    (h : msg.emsg ∈ postLoginSnapshotEmsgs) (e : UInt32) :
    (cacheAfter cache msg).lookup e =
      if e = msg.emsg then cache.lookup e <|> some msg.body else cache.lookup e := by
  rcases hc : cache.lookup msg.emsg with _ | body
  · by_cases he : e = msg.emsg
    · subst he
      simp [cacheAfter, h, hc]
    · simp [cacheAfter, h, hc, he, AList.lookup_insert_ne he]
  · by_cases he : e = msg.emsg
    · subst he
      simp [cacheAfter, h, hc]
    · simp [cacheAfter, h, hc, he]

/-- A message that no request waits for is cached, if it is a snapshot, and broadcast. -/
theorem Caching.announce (h : Caching d) {msg : SteamMessage}
    (hlog : d'.log = d.log ++ SessionDriver.announce (d.arrival msg)) (hconn : d'.conn = d.conn)
    (hstate : d'.state = d.state) (hcache : d'.snapshots = cacheAfter d.snapshots msg) :
    Caching d' := by
  have hcur : (Steamroids.shared d.log).conn = some (d.arrival msg).conn := by rw [h.shared]; rfl
  by_cases hs : msg.emsg ∈ postLoginSnapshotEmsgs
  · have hann : SessionDriver.announce (d.arrival msg) =
        [.offered (d.arrival msg), .broadcast (d.arrival msg)] := by
      simp [SessionDriver.announce, arrival, hs]
    rw [hann] at hlog
    refine ⟨?_, hlog ▸ h.inOrder.snapshot hcur hs, ?_⟩
    · have happ : d.log ++ [.offered (d.arrival msg), .broadcast (d.arrival msg)] =
          d.log ++ [.offered (d.arrival msg)] ++ [.broadcast (d.arrival msg)] := by simp
      rw [hlog, happ, shared_append_singleton, shared_append_singleton, h.shared, hconn, hstate,
        hcache]
      simp only [Shared.after, arrival]
      congr 1
      funext e
      exact (cacheAfter_lookup hs e).symm
    · intro a ha
      rw [hlog] at ha
      rw [hconn]
      rcases List.mem_append.mp ha with ha | ha
      · exact h.offers a ha
      · obtain rfl : a = d.arrival msg := by simpa using ha
        exact Nat.le_refl _
  · have hann : SessionDriver.announce (d.arrival msg) = [.broadcast (d.arrival msg)] := by
      simp [SessionDriver.announce, arrival, hs]
    rw [hann] at hlog
    refine ⟨?_, ?_, ?_⟩
    · rw [hlog, shared_append_singleton, h.shared, hconn, hstate, hcache]
      simp [Shared.after, cacheAfter, hs]
    · rw [hlog]
      exact h.inOrder.free (by simp [Effect.isFree, arrival, hs])
    · intro a ha
      rw [hconn]
      exact h.offers a (by simpa [hlog] using ha)

/-- **Step lemma.** Every act keeps the cache in step with the ledger. -/
theorem Caching.act (hact : Act P d d') (h : Caching d) : Caching d' := by
  cases hact with
  | abandon ch => exact h.extend (List.append_nil _).symm (by simp) rfl rfl rfl
  | turn l' _ => exact h.extend (List.append_nil _).symm (by simp) rfl rfl rfl
  | exit ph _ => exact h.extend (List.append_nil _).symm (by simp) rfl rfl rfl
  | announce hin hw => exact h.announce rfl rfl rfl rfl
  | sweep now =>
      refine h.extend rfl ?_ rfl rfl rfl
      intro x hx
      rcases mem_swept hx with ⟨entry, ⟨rfl, -⟩ | rfl⟩ <;> rfl
  | failAll reason _ =>
      refine h.extend rfl ?_ rfl rfl rfl
      intro x hx
      obtain ⟨entry, -, rfl⟩ := List.mem_map.mp hx
      rfl
  | fall _ _ => exact h.publish .connecting rfl (by simp) rfl rfl rfl
  | stop reason =>
      exact h.publish (.loggedOff reason) rfl (by simp [Effect.isPrivate]) rfl rfl rfl
  | fail e => exact h.publish (.failed e.display) rfl (by simp [Effect.isPrivate]) rfl rfl rfl
  | @live items c now hst _ _ _ =>
      have hnot : ∀ id, (Steamroids.shared d.log).state ≠ some (.loggedOn id) := by
        simp [h.shared, hst]
      refine ⟨?_, ?_, ?_⟩
      · simp only [Steamroids.shared, List.foldl_append, List.foldl_cons, List.foldl_nil,
          Shared.after]
        congr 1
      · exact h.inOrder.live items _ (fun a ha => Nat.lt_succ_of_le (h.offers a ha)) hnot
      · intro a ha
        exact Nat.le_succ_of_le (h.offers a (by simpa using ha))
  | _ => exact h.extend rfl (by simp [Effect.isPrivate]) rfl rfl rfl

/-- **Run lemma.** The cache is in step in every reachable state. -/
theorem Reachable.caching (h : Reachable P d) : Caching d := by
  refine h.invariant ?_ fun _ _ hact hd => hd.act hact
  intro now items d₀ h₀
  obtain ⟨c, -, hs⟩ := spawn_spec h₀
  have hempty : InOrder [] := ⟨Ledger.justified_nil, by simp, by simp⟩
  refine ⟨?_, ?_, ?_⟩
  · simp only [hs.log, hs.conn, hs.state, hs.snapshots, Steamroids.shared, List.foldl_cons,
      List.foldl_nil, Shared.after]
    congr 1
  · rw [hs.log]
    exact hempty.live items _ (by simp) (by simp [Steamroids.shared])
  · simp [hs.log]

/-! ### What a reader may rely on -/

/-- The ledger begins with the adoption of the first connection, which is published as a
logon. -/
theorem Reachable.log_head (h : Reachable P d) :
    ∃ items id log,
      d.log = .adopted 0 items :: .cleared :: .published (.loggedOn id) :: log := by
  refine h.invariant (I := fun d => ∃ items id log,
    d.log = .adopted 0 items :: .cleared :: .published (.loggedOn id) :: log) ?_ ?_
  · intro now items d₀ h₀
    obtain ⟨c, -, hs⟩ := spawn_spec h₀
    exact ⟨items, _, _, hs.log⟩
  · rintro d d' hact ⟨items, id, log, hlog⟩
    obtain ⟨es, hes⟩ := hact.log_append
    exact ⟨items, id, log ++ es, by rw [hes, hlog]; rfl⟩

/-- At every moment while the session is published as logged on, the cache is current. -/
theorem Reachable.cache_of_loggedOn (hd : Reachable P d) {p : List Effect} (hp : p <+: d.log)
    {id : UInt64} (hon : (shared p).state = some (.loggedOn id)) :
    ∃ conn, (shared p).conn = some conn ∧
      ∀ e, (shared p).cache e = (firstUnrouted conn e p).map (·.msg.body) := by
  have horder := hd.caching.inOrder.orderly.past hp
  have hcur : Current p := by
    refine (current_of_orderly horder).resolve_left ?_
    rintro ⟨n, items, hlast⟩
    exact (fresh_of_adopted horder hlast).2.2 id hon
  obtain ⟨items, _, log, hhead⟩ := hd.log_head
  rcases p with _ | ⟨x, p⟩
  · cases hon
  · obtain rfl : x = .adopted 0 items := by
      rw [hhead] at hp
      exact (List.cons_prefix_cons.mp hp).1
    obtain ⟨conn, hconn⟩ := shared_conn_isSome (List.mem_cons_self (a := .adopted 0 items) (l := p))
    exact ⟨conn, hconn, fun e => by rw [hcur e, hconn, Option.bind_some]⟩

/-- **The cache is that of the current logon.** At every moment of every run, and not only
between steps of the driver:

* while the session is published as logged on, the cache holds for each kind of snapshot the
  first message of that kind that was dispatched on the current connection without being
  routed, and nothing if there was none; it never holds anything else;
* the messages meant are those that are broadcast: a snapshot is cached just before its
  broadcast, and every broadcast snapshot is;
* a reader who subscribes, then reads the cache on the same connection and finds nothing,
  has not missed the snapshot: if it is ever dispatched on that connection, it is broadcast
  after the read. -/
theorem snapshot_cache_current (hd : Reachable P d) :
    shared d.log = ⟨some d.conn, some d.state, d.snapshots.lookup⟩ ∧
    (∀ p, p <+: d.log →
      (∀ id, (shared p).state = some (.loggedOn id) → ∃ conn, (shared p).conn = some conn ∧
        ∀ e ∈ postLoginSnapshotEmsgs,
          (shared p).cache e = (firstUnrouted conn e p).map (·.msg.body)) ∧
      ∀ e ∉ postLoginSnapshotEmsgs, (shared p).cache e = none) ∧
    (∀ p q a, d.log = p ++ .offered a :: q → ∃ q', q = .broadcast a :: q') ∧
    (∀ p q a, d.log = p ++ .broadcast a :: q → a.msg.emsg ∈ postLoginSnapshotEmsgs →
      ∃ p', p = p' ++ [.offered a]) ∧
    ∀ p q r conn e a, d.log = p ++ q ++ r → (shared p).conn = some conn →
      (shared (p ++ q)).conn = some conn → (shared (p ++ q)).cache e = none →
      firstUnrouted conn e d.log = some a → .broadcast a ∉ p ++ q ∧ .broadcast a ∈ r := by
  obtain ⟨hshared, hin, -⟩ := hd.caching
  have horder : ∀ p, p <+: d.log → Ledger.Justified Orderly p := fun p hp =>
    hin.orderly.past hp
  refine ⟨hshared, ?_, ?_, ?_, ?_⟩
  · intro p hp
    refine ⟨?_, fun e he => cache_eq_none_of_orderly (horder p hp) he⟩
    intro id hon
    obtain ⟨conn, hconn, hcache⟩ := hd.cache_of_loggedOn hp hon
    exact ⟨conn, hconn, fun e _ => hcache e⟩
  · exact fun p q a => hin.broadcast_next
  · exact fun p q a => hin.offered_before
  · intro p q r conn e a hlog hconn hconn' hcache hfirst
    have hnone : firstUnrouted conn e (p ++ q) = none :=
      firstUnrouted_of_cache_eq_none (horder _ ⟨r, hlog.symm⟩) hconn' hcache
    obtain ⟨hmem, ha, he⟩ := mem_of_firstUnrouted hfirst
    exact hin.broadcast_after hlog hmem fun h => firstUnrouted_eq_none.mp hnone a h ha he

/-- A friends list that was pushed is in the cache. -/
theorem snapshot_cache_current_friends :
    Sample.friendsPushed.snapshots.lookup 767 = some [0x08, 0x00] ∧
      ∃ conn a, firstUnrouted conn 767 Sample.friendsPushed.log = some a ∧
        a.msg.body = [0x08, 0x00] := by
  have hcache : Sample.friendsPushed.snapshots.lookup 767 = some [0x08, 0x00] := by decide
  have hreach : Reachable Sample.prost Sample.friendsPushed :=
    reachable_session.run (Option.some_get _).symm
  obtain ⟨hshared, hcur, -⟩ := snapshot_cache_current hreach
  have hon : Sample.friendsPushed.state = .loggedOn logonHeaderSteamid := by decide
  obtain ⟨conn, -, hfirst⟩ :=
    (hcur _ List.prefix_rfl).1 logonHeaderSteamid (by rw [hshared, hon])
  have h767 := hfirst 767 (by decide)
  simp only [hshared, hcache] at h767
  obtain ⟨a, ha, hbody⟩ := Option.map_eq_some_iff.mp h767.symm
  exact ⟨hcache, conn, a, ha, hbody⟩

end SessionDriver

end Steamroids
