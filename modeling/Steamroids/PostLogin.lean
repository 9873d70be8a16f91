import Steamroids.Friends

/-!
# The Post-Login Lists, Returned or Missed

The operations that return a post-login list subscribe first and read the snapshot cache
then, and rely on this order to miss nothing: a list that is not in the cache when they look
is broadcast afterwards. That holds (`Expects.deed`). But they then receive from a lossy
channel. A caller that lags by more than the capacity when it receives may have lost the
list, goes on with what is left, and never looks in the cache again
(`full_list_lost_by_lag`).

For callers that keep up (`KeepsUp`) the guarantee holds over every interleaving with the
driver within one logon.

## Main results

* `Standing.step`, `Standing.run`: a call that keeps up is always in a position to meet the
  list.
* `full_list_returned`: once the list is broadcast, the call returns it.
-/

namespace Steamroids

/-! ### The first list of a connection -/

/-- The first one stays the first. -/
theorem firstUnrouted_append {conn : Nat} {e : UInt32} {p q : List Effect} {a : Arrival}
    (h : firstUnrouted conn e p = some a) : firstUnrouted conn e (p ++ q) = some a := by
  induction q using List.reverseRecOn with
  | nil => rwa [List.append_nil]
  | append_singleton q x ih =>
      rw [← List.append_assoc, firstUnrouted_append_singleton, ih, Option.some_or]

/-- A list that was offered is not missed. -/
theorem firstUnrouted_ne_none {conn : Nat} {e : UInt32} {p : List Effect} {a : Arrival}
    (ha : .offered a ∈ p) (hconn : a.conn = conn) (he : a.msg.emsg = e) :
    firstUnrouted conn e p ≠ none :=
  fun hnone => firstUnrouted_eq_none.mp hnone a ha hconn he

/-- What was broadcast was offered to the cache. -/
theorem offered_of_broadcast {p : List Effect} {a : Arrival} (h : Ledger.Justified Orderly p)
    (ha : .broadcast a ∈ p) (hsnap : a.msg.emsg ∈ postLoginSnapshotEmsgs) : .offered a ∈ p := by
  obtain ⟨pre, post, rfl⟩ := List.append_of_mem ha
  have hlast := (h pre _ post rfl).broadcast a rfl hsnap
  exact List.mem_append_left _ (List.mem_of_getLast? hlast)

/-- A snapshot that is about to be broadcast is of the current connection. -/
theorem conn_of_offered {p : List Effect} {a : Arrival} (h : Ledger.Justified Orderly p)
    (hlast : p.getLast? = some (.offered a)) : (shared p).conn = some a.conn := by
  obtain ⟨pre, rfl⟩ := List.getLast?_eq_some_iff.mp hlast
  rw [shared_append_singleton]
  exact ((Ledger.justified_append_singleton.mp h).2.offered a rfl).1

/-! ### One logon -/

namespace World

variable {β : Type} {emsg : UInt32} {judge : Bytes → Option (Except Error β)} {what : String}
  {conn : Nat} {a : Arrival} {res : Except Error β} {caller : Party} {ch : Chan}
  {w₀ w w' : World β}

/-- Since `w₀` no connection was adopted. -/
def SameLogon (w₀ w : World β) : Prop :=
  (w.past.drop w₀.past.length).any Deed.isAdoption = false

instance (w₀ w : World β) : Decidable (SameLogon w₀ w) :=
  inferInstanceAs (Decidable (_ = false))

/-- An earlier moment is within the same logon. -/
theorem SameLogon.before (h : SameLogon w₀ w') (hpast : w.past <+: w'.past) :
    SameLogon w₀ w := by
  refine List.any_eq_false.mpr fun x hx => ?_
  exact List.any_eq_false.mp h x ((hpast.sublist.drop _).subset hx)

/-- A moment of the logon on connection `conn`, on which `a` is the first list of type `emsg`,
if there is one. -/
structure Moment (conn : Nat) (emsg : UInt32) (a : Arrival) (past : List Deed) : Prop where
  orderly : Ledger.Justified Orderly (effects past)
  onConn : (shared (effects past)).conn = some conn
  current : Current (effects past)
  first : ∀ b, firstUnrouted conn emsg (effects past) = some b → b = a

/-- The last effect of a moment is in order. -/
theorem Moment.last {past : List Deed} {e : Effect}
    (h : Moment conn emsg a (past ++ [.driver e])) : Orderly (effects past) e := by
  have horder := h.orderly
  rw [effects_concat_driver] at horder
  exact (Ledger.justified_append_singleton.mp horder).2

/-- The moments of a run that began while the session was logged on. The cache is exchanged only
between an adoption and the logon that follows. -/
theorem moment_of_sameLogon {P : Prost} {d : SessionDriver} {id : UInt64} (hd : d.Reachable P)
    (hon : (shared (effects w₀.past)).state = some (.loggedOn id))
    (hconn : (shared (effects w₀.past)).conn = some conn) (hfrom : w₀.past <+: w.past)
    (hlogon : SameLogon w₀ w) (hlog : effects w.past <+: d.log)
    (hfirst : ∀ b, firstUnrouted conn emsg (effects w.past) = some b → b = a) :
    Moment conn emsg a w.past := by
  obtain ⟨more, hmore⟩ := hfrom
  have hnew : ∀ n items, .adopted n items ∉ effects more := by
    intro n items hmem
    obtain ⟨x, hx, hxe⟩ := List.mem_filterMap.mp hmem
    cases x <;> cases hxe
    have hdrop : w.past.drop w₀.past.length = more := by rw [← hmore, List.drop_left]
    exact List.any_eq_false.mp hlogon _ (hdrop ▸ hx) rfl
  have heff : effects w.past = effects w₀.past ++ effects more := by
    rw [← hmore, effects_append]
  have horder := hd.caching.inOrder.orderly.past hlog
  refine ⟨horder, by rw [heff, shared_conn_append hnew, hconn], ?_, hfirst⟩
  refine (current_of_orderly horder).resolve_left ?_
  rintro ⟨n, items, hlast⟩
  rcases List.eq_nil_or_concat (effects more) with hnil | ⟨init, x, hx⟩
  · rw [heff, hnil, List.append_nil] at hlast horder
    exact (fresh_of_adopted horder hlast).2.2 id hon
  · rw [heff, hx, List.concat_eq_append, ← List.append_assoc, List.getLast?_concat] at hlast
    refine hnew n items ?_
    rw [hx, Option.some.inj hlast, List.concat_eq_append]
    exact List.mem_append_right _ (List.mem_singleton_self _)

/-! ### What a waiting call may expect -/

/-- `a` is a list of type `emsg` of connection `conn`, of which a call makes `res`. -/
structure Answers (emsg : UInt32) (judge : Bytes → Option (Except Error β)) (conn : Nat)
    (a : Arrival) (res : Except Error β) : Prop where
  snapshot : emsg ∈ postLoginSnapshotEmsgs
  onConn : a.conn = conn
  kind : a.msg.emsg = emsg
  judged : judge a.msg.body = some res

/-- No list of type `emsg` is among the messages from number `next` on. -/
structure NoneLeft (emsg : UInt32) (past : List Deed) (next : Nat) : Prop where
  le : next ≤ (past.filterMap Deed.message?).length
  other : ∀ j m, next ≤ j → (past.filterMap Deed.message?)[j]? = some m → m.emsg ≠ emsg

/-- A deed that is no such list leaves none to receive. -/
theorem NoneLeft.append {past : List Deed} {next : Nat} (h : NoneLeft emsg past next) {x : Deed}
    (hx : ∀ m, x.message? = some m → m.emsg ≠ emsg) : NoneLeft emsg (past ++ [x]) next := by
  have hle := h.le
  rcases hm : x.message? with _ | m
  · have hsame : (past ++ [x]).filterMap Deed.message? = past.filterMap Deed.message? := by
      simp [List.filterMap_append, hm]
    exact ⟨by rwa [hsame], by rw [hsame]; exact h.other⟩
  · have hmore : (past ++ [x]).filterMap Deed.message? = past.filterMap Deed.message? ++ [m] := by
      simp [List.filterMap_append, hm]
    refine ⟨by rw [hmore, List.length_append]; omega, ?_⟩
    intro j m' hj hm'
    rw [hmore, List.getElem?_append] at hm'
    split at hm'
    · exact h.other j m' hj hm'
    · obtain rfl : m' = m := List.mem_singleton.mp (List.mem_of_getElem? hm')
      exact hx m' hm

/-- What a call that waits at `next` may expect: the list was not dispatched yet, or is being
dispatched, or is to be received before any other list of its type. -/
inductive Expects (emsg : UInt32) (judge : Bytes → Option (Except Error β)) (what : String)
    (conn : Nat) (a : Arrival) (res : Except Error β) (past : List Deed) (next : Nat) : Prop
  | unseen : firstUnrouted conn emsg (effects past) = none → NoneLeft emsg past next →
      Expects emsg judge what conn a res past next
  | offered : (effects past).getLast? = some (.offered a) → .broadcast a ∉ effects past →
      NoneLeft emsg past next → Expects emsg judge what conn a res past next
  | sent {k : Nat} : (requestList emsg judge what).wait.Awaits
      ((requestList emsg judge what).sent past) next k res →
      Expects emsg judge what conn a res past next

/-- While the connection has had no list, none is broadcast on it. -/
theorem noneLeft_deed {past : List Deed} {next : Nat} {x : Deed}
    (hsnap : emsg ∈ postLoginSnapshotEmsgs) (hm : Moment conn emsg a past)
    (hm' : Moment conn emsg a (past ++ [x]))
    (hnone : firstUnrouted conn emsg (effects past) = none) (h : NoneLeft emsg past next) :
    NoneLeft emsg (past ++ [x]) next := by
  refine h.append ?_
  rintro m hmsg rfl
  cases x with
  | relay msg => cases hmsg
  | driver e =>
      have he : Orderly (effects past) e := hm'.last
      cases e with
      | broadcast b =>
          obtain rfl : b.msg = m := Option.some.inj hmsg
          have hlast := he.broadcast b rfl hsnap
          have hconn := (conn_of_offered hm.orderly hlast).symm.trans hm.onConn
          exact firstUnrouted_ne_none (List.mem_of_getLast? hlast) (Option.some.inj hconn) rfl hnone
      | _ => cases hmsg

/-- **The expectation survives whatever happens.** -/
theorem Expects.deed {past : List Deed} {next : Nat} {x : Deed}
    (ha : Answers emsg judge conn a res) (hm : Moment conn emsg a past)
    (hm' : Moment conn emsg a (past ++ [x])) (h : Expects emsg judge what conn a res past next) :
    Expects emsg judge what conn a res (past ++ [x]) next := by
  have hsnap : a.msg.emsg ∈ postLoginSnapshotEmsgs := ha.kind ▸ ha.snapshot
  cases h with
  | unseen hnone hleft =>
      have hleft' := noneLeft_deed ha.snapshot hm hm' hnone hleft
      rcases hfirst : firstUnrouted conn emsg (effects (past ++ [x])) with _ | b
      · exact .unseen hfirst hleft'
      · obtain rfl := hm'.first b hfirst
        cases x with
        | relay msg =>
            rw [effects_concat_relay, hnone] at hfirst
            cases hfirst
        | driver e =>
            rw [effects_concat_driver, firstUnrouted_append_singleton, hnone,
              Option.none_or] at hfirst
            cases e with
            | offered b' =>
                obtain rfl : b' = b := Option.some.inj (Option.filter_eq_some_iff.mp hfirst).1
                have hnot : .broadcast b' ∉ effects past := fun hmem =>
                  firstUnrouted_ne_none (offered_of_broadcast hm.orderly hmem hsnap) ha.onConn
                    ha.kind hnone
                exact .offered (by simp) (by simpa using hnot) hleft'
            | _ => cases hfirst
  | offered hlast hnot hleft =>
      cases x with
      | relay msg =>
          exact .offered (by rwa [effects_concat_relay]) (by rwa [effects_concat_relay])
            (hleft.append (by simp [Deed.message?]))
      | driver e =>
          obtain rfl := hm'.last.announced a hlast
          have hsent : (requestList emsg judge what).sent (past ++ [.driver (.broadcast a)]) =
              past.filterMap Deed.message? ++ [a.msg] := List.filterMap_append
          refine .sent (k := (past.filterMap Deed.message?).length) ⟨hleft.le, ⟨a.msg, ?_, ?_⟩, ?_⟩
          · rw [hsent, List.getElem?_concat_length]
          · simp [requestList, ha.kind, ha.judged]
          · intro j m hj hlt hm
            rw [hsent, List.getElem?_append_left hlt] at hm
            simp [requestList, hleft.other j m hj hm]
  | sent haw =>
      have hsent : (requestList emsg judge what).sent (past ++ [x]) =
          (requestList emsg judge what).sent past ++ (requestList emsg judge what).sent [x] :=
        List.filterMap_append
      exact .sent (hsent ▸ haw.append _)

/-- Once the list was broadcast, it is to be received. -/
theorem Expects.sent_of_broadcast {past : List Deed} {next : Nat}
    (ha : Answers emsg judge conn a res) (hm : Moment conn emsg a past)
    (h : Expects emsg judge what conn a res past next) (hb : .broadcast a ∈ effects past) :
    ∃ k, (requestList emsg judge what).wait.Awaits
      ((requestList emsg judge what).sent past) next k res := by
  cases h with
  | unseen hnone _ =>
      have hmem := offered_of_broadcast hm.orderly hb (ha.kind ▸ ha.snapshot)
      exact absurd hnone (firstUnrouted_ne_none hmem ha.onConn ha.kind)
  | offered _ hnot _ => exact absurd hb hnot
  | @sent k haw => exact ⟨k, haw⟩

/-- A receive that keeps up meets the list, or leaves the expectation as it is. -/
theorem Expects.receive {past : List Deed} {next : Nat} {st : Channel.Stage β Error}
    (h : Expects emsg judge what conn a res past next)
    (hlag : ((requestList emsg judge what).sent past).length ≤ next + eventCapacity)
    (hrecv : (requestList emsg judge what).wait.receive eventCapacity
      ((requestList emsg judge what).sent past) true next = some st) :
    st = .done res ∨
      ∃ next', st = .waiting next' ∧ Expects emsg judge what conn a res past next' := by
  have hother : NoneLeft emsg past next →
      ∃ next', st = .waiting next' ∧ NoneLeft emsg past next' := by
    intro hleft
    obtain ⟨-, ⟨next', rfl, hnext, hle⟩ | ⟨m, r, hm, hr, -⟩⟩ :=
      Channel.Wait.receive_of_open hrecv
    · exact ⟨next', rfl, hle, fun j m hj => hleft.other j m (by omega)⟩
    · have hne := hleft.other next m (Nat.le_refl _) hm
      simp [requestList, hne] at hr
  cases h with
  | unseen hnone hleft =>
      obtain ⟨next', rfl, hleft'⟩ := hother hleft
      exact .inr ⟨next', rfl, .unseen hnone hleft'⟩
  | offered hlast hnot hleft =>
      obtain ⟨next', rfl, hleft'⟩ := hother hleft
      exact .inr ⟨next', rfl, .offered hlast hnot hleft'⟩
  | sent haw =>
      rcases Channel.Wait.receive_of_awaited haw hlag with ⟨-, hdone⟩ | ⟨hwait, haw'⟩
      · exact .inl (Option.some.inj (hrecv.symm.trans hdone))
      · exact .inr ⟨next + 1, Option.some.inj (hrecv.symm.trans hwait), .sent haw'⟩

/-! ### Calls that keep up -/

/-- The call lags by no more than the capacity of its channel. -/
def WithinCapacity {α : Type} (C : Call α β) (w : World β) : Prop :=
  ∀ next, w.call = .subscribed next ∨ w.call = .wait (.waiting next) →
    (C.sent w.past).length ≤ next + C.capacity

/-- The call lags by no more than the capacity when it receives. -/
def KeepsUp {α : Type} (C : Call α β) (w : World β) (m : Move) : Prop :=
  m = .call .receive → WithinCapacity C w

/-- Where a call that keeps up can stand, with `R` for the results it can have had. -/
inductive Standing (emsg : UInt32) (judge : Bytes → Option (Except Error β)) (what : String)
    (conn : Nat) (a : Arrival) (res : Except Error β) (R : Except Error β → Prop)
    (w : World β) : Prop
  | before : w.call = .idle ∨ w.call = .ready → Standing emsg judge what conn a res R w
  | subscribed {next : Nat} : w.call = .subscribed next →
      (firstUnrouted conn emsg (effects w.past) = none → NoneLeft emsg w.past next) →
      Standing emsg judge what conn a res R w
  | waiting {next : Nat} : w.call = .wait (.waiting next) →
      Expects emsg judge what conn a res w.past next → Standing emsg judge what conn a res R w
  | done {r : Except Error β} : w.call = .wait (.done r) → R r →
      Standing emsg judge what conn a res R w

/-- The moves of the others leave a call in good standing. -/
theorem Standing.others {R : Except Error β → Prop} (ha : Answers emsg judge conn a res)
    (hm : Moment conn emsg a w.past) (hm' : Moment conn emsg a w'.past)
    (hcall : w'.call = w.call) (hpast : w'.past = w.past ∨ ∃ x, w'.past = w.past ++ [x])
    (h : Standing emsg judge what conn a res R w) :
    Standing emsg judge what conn a res R w' := by
  rcases hpast with hpast | ⟨x, hpast⟩
  · cases h with
    | before h => exact .before (by rwa [hcall])
    | subscribed h hclear => exact .subscribed (hcall.trans h) (by rwa [hpast])
    | waiting h hexp => exact .waiting (hcall.trans h) (by rwa [hpast])
    | done h hok => exact .done (hcall.trans h) hok
  · rw [hpast] at hm'
    cases h with
    | before h => exact .before (by rwa [hcall])
    | subscribed h hclear =>
        refine .subscribed (hcall.trans h) fun hnone => ?_
        rw [hpast] at hnone ⊢
        rcases hfirst : firstUnrouted conn emsg (effects w.past) with _ | b
        · exact noneLeft_deed ha.snapshot hm hm' hfirst (hclear hfirst)
        · rw [effects_append, firstUnrouted_append hfirst] at hnone
          cases hnone
    | waiting h hexp => exact .waiting (hcall.trans h) (by rw [hpast]; exact hexp.deed ha hm hm')
    | done h hok => exact .done (hcall.trans h) hok

/-- What the call makes of the cache. -/
theorem read_of_moment {past : List Deed} {r : Except Error β}
    (ha : Answers emsg judge conn a res) (hm : Moment conn emsg a past) :
    (((shared (effects past)).cache emsg).bind judge = some r → r = res) ∧
      (((shared (effects past)).cache emsg).bind judge = none →
        firstUnrouted conn emsg (effects past) = none) := by
  have hcache : (shared (effects past)).cache emsg =
      (firstUnrouted conn emsg (effects past)).map (·.msg.body) := by
    rw [hm.current emsg, hm.onConn, Option.bind_some]
  rw [hcache]
  rcases hfirst : firstUnrouted conn emsg (effects past) with _ | b
  · simp
  · obtain rfl := hm.first b hfirst
    simp [ha.judged, eq_comm]

/-- A call that keeps up stays in good standing, and ends with the list unless its timer
fires before the list is broadcast. -/
theorem Standing.step {m : Move} {R : Except Error β → Prop} (ha : Answers emsg judge conn a res)
    (hm : Moment conn emsg a w.past) (hm' : Moment conn emsg a w'.past)
    (hw : Borrowed caller w) (hkeep : KeepsUp (requestList emsg judge what) w m) (hok : R res)
    (hlate : .broadcast a ∈ effects w.past ∨ ∀ r, R r)
    (h : Standing emsg judge what conn a res R w)
    (hstep : World.step (requestList emsg judge what) caller ch w m = some w') :
    Standing emsg judge what conn a res R w' := by
  cases step_makes hstep with
  | deed _ => exact h.others ha hm hm' rfl (.inr ⟨_, rfl⟩)
  | join _ => exact h.others ha hm hm' rfl (.inl rfl)
  | leave _ => exact h.others ha hm hm' rfl (.inl rfl)
  | @call c st hcaller hsteps =>
      have hfresh : NoneLeft emsg w.past ((requestList emsg judge what).sent w.past).length := by
        refine ⟨Nat.le_refl _, fun j m hj hmsg => ?_⟩
        have hlt : j < ((requestList emsg judge what).sent w.past).length :=
          (List.getElem?_eq_some_iff.mp hmsg).1
        omega
      cases h with
      | before hcall =>
          rcases hcall with hcall | hcall
          · rw [hcall] at hsteps
            cases hsteps with
            | enter hneeds => cases hneeds
            | enterFailed e hneeds => cases hneeds
            | subscribe _ => exact .subscribed rfl fun _ => hfresh
          · rw [hcall] at hsteps
            cases hsteps with
            | subscribe _ => exact .subscribed rfl fun _ => hfresh
      | subscribed hcall hclear =>
          rw [hcall] at hsteps
          cases hsteps with
          | subscribe hst => rcases hst with hst | hst <;> cases hst
          | found hopening hread =>
              cases hopening
              obtain rfl := (read_of_moment ha hm).1 hread
              exact .done rfl hok
          | missed hopening hread =>
              cases hopening
              have hnone := (read_of_moment (r := res) ha hm).2 hread
              exact .waiting rfl (.unseen hnone (hclear hnone))
          | acked hopening _ => cases hopening
          | refused hopening _ => cases hopening
      | @waiting next hcall hexp =>
          rw [hcall] at hsteps
          cases hsteps with
          | subscribe hst => rcases hst with hst | hst <;> cases hst
          | receive hrecv =>
              rw [isOpen_of_running hw rfl (by rw [hcall]; rfl)] at hrecv
              rcases hexp.receive (hkeep rfl next (.inr hcall)) hrecv with
                rfl | ⟨next', rfl, hexp'⟩
              · exact .done rfl hok
              · exact .waiting rfl hexp'
          | expire hfire =>
              rcases hlate with hb | hany
              · obtain ⟨k, haw⟩ := hexp.sent_of_broadcast ha hm hb
                have hlt := haw.lt
                rw [Channel.Wait.expire_of_lt (Nat.lt_of_le_of_lt haw.le hlt)] at hfire
                cases hfire
              · obtain rfl := Channel.Wait.expire_eq hfire
                exact .done rfl (hany _)
      | done hcall _ =>
          rw [hcall] at hsteps
          cases hsteps with
          | subscribe hst => rcases hst with hst | hst <;> cases hst

/-- The standing of a call that keeps up, over a run within the logon that `w₀` is in. What is
known of the last moment holds of every earlier one. -/
theorem Standing.run {P : Prost} {d : SessionDriver} {id : UInt64} {u : World β} {ms : List Move}
    {R : Except Error β → Prop} (ha : Answers emsg judge conn a res) (hd : d.Reachable P)
    (hon : (shared (effects w₀.past)).state = some (.loggedOn id))
    (hconn : (shared (effects w₀.past)).conn = some conn) (hfrom : w₀.past <+: u.past)
    (hu : Borrowed caller u) (hok : R res)
    (hlate : .broadcast a ∈ effects u.past ∨ ∀ r, R r)
    (hrun : Ledger.exec (World.step (requestList emsg judge what) caller ch) u ms = some w)
    (hkeeps : Ledger.Guarded (World.step (requestList emsg judge what) caller ch)
      (KeepsUp (requestList emsg judge what)) u ms)
    (hlogon : SameLogon w₀ w) (hlog : effects w.past <+: d.log)
    (hfirst : ∀ b, firstUnrouted conn emsg (effects w.past) = some b → b = a)
    (h : Standing emsg judge what conn a res R u) :
    Borrowed caller w ∧ Standing emsg judge what conn a res R w := by
  have hmoment : ∀ v : World β, w₀.past <+: v.past → v.past <+: w.past →
      Moment conn emsg a v.past := by
    intro v hfrom hto
    obtain ⟨q, hq⟩ := effects_mono hto
    exact moment_of_sameLogon hd hon hconn hfrom (hlogon.before hto)
      ((effects_mono hto).trans hlog) fun b hb => hfirst b (hq ▸ firstUnrouted_append hb)
  have key : Borrowed caller w ∧ u.past <+: w.past ∧
      (w.past <+: w.past → Standing emsg judge what conn a res R w) := by
    refine Ledger.exec_invariant_of_guarded (I := fun v => Borrowed caller v ∧ u.past <+: v.past ∧
      (v.past <+: w.past → Standing emsg judge what conn a res R v)) ?_ hrun hkeeps
      ⟨hu, List.prefix_rfl, fun _ => h⟩
    rintro v m v' ⟨hv, hsince, hstand⟩ hkeep hstep
    have hpast := (step_makes hstep).past
    refine ⟨hv.step hstep, hsince.trans hpast, fun hto => ?_⟩
    have hm := hmoment v (hfrom.trans hsince) (hpast.trans hto)
    have hm' := hmoment v' (hfrom.trans (hsince.trans hpast)) hto
    have hlate' : .broadcast a ∈ effects v.past ∨ ∀ r, R r :=
      hlate.imp_left fun hb => (effects_mono hsince).subset hb
    exact (hstand (hpast.trans hto)).step ha hm hm' hv hkeep hok hlate' hstep
  exact ⟨key.1, key.2.2 List.prefix_rfl⟩

/-- A call that has not ended stands where it stands whatever results are allowed. -/
theorem Standing.of_running {R R' : Except Error β → Prop}
    (h : Standing emsg judge what conn a res R w) (hnot : ∀ r, w.call ≠ .wait (.done r)) :
    Standing emsg judge what conn a res R' w := by
  cases h with
  | before h => exact .before h
  | subscribed h hclear => exact .subscribed h hclear
  | waiting h hexp => exact .waiting h hexp
  | done h _ => exact absurd h (hnot _)

/-- The situation that the operations are meant for: a call is made on a session that is logged
on, and while it runs, within the same logon, the first list of its type has been broadcast
(before, during or after its look into the cache). -/
structure Pushed {α : Type} (C : Call α β) (caller : Party) (ch : Chan) (P : Prost)
    (emsg : UInt32) (a : Arrival) (w₀ w₁ w : World β) (ms₁ ms₂ : List Move) : Prop where
  idle : w₀.call = .idle
  loggedOn : ∃ id, (shared (effects w₀.past)).state = some (.loggedOn id)
  onConn : (shared (effects w₀.past)).conn = some a.conn
  run₁ : Ledger.exec (step C caller ch) w₀ ms₁ = some w₁
  running : ∀ r, w₁.call ≠ .wait (.done r)
  pushed : .broadcast a ∈ effects w₁.past
  run₂ : Ledger.exec (step C caller ch) w₁ ms₂ = some w
  sameLogon : SameLogon w₀ w
  first : firstUnrouted a.conn emsg (effects w.past) = some a
  reachable : ∃ d : SessionDriver, d.Reachable P ∧ effects w.past <+: d.log

/-- A call that keeps up ends with the list. Up to the broadcast it has no result, so any will
do. -/
theorem Pushed.result {P : Prost} {w₁ : World β} {ms₁ ms₂ : List Move} {r : Except Error β}
    (h : Pushed (requestList emsg judge what) caller ch P emsg a w₀ w₁ w ms₁ ms₂)
    (hsnap : emsg ∈ postLoginSnapshotEmsgs) (hjudge : judge a.msg.body = some res)
    (hkeeps : Ledger.Guarded (step (requestList emsg judge what) caller ch)
      (KeepsUp (requestList emsg judge what)) w₀ (ms₁ ++ ms₂))
    (hdone : w.call = .wait (.done r)) : r = res := by
  obtain ⟨hidle, ⟨id, hon⟩, hconn, hrun₁, hrunning, hpushed, hrun₂, hlogon, hfirst, d, hd,
    hlog⟩ := h
  obtain ⟨hkeeps₁, hkeeps₂⟩ := Ledger.guarded_append.mp hkeeps
  have ha : Answers emsg judge a.conn a res :=
    ⟨hsnap, rfl, (mem_of_firstUnrouted hfirst).2.2, hjudge⟩
  have hpast := exec_past hrun₂
  have honly : ∀ b, firstUnrouted a.conn emsg (effects w.past) = some b → b = a :=
    fun b hb => Option.some.inj (hb.symm.trans hfirst)
  have honly₁ : ∀ b, firstUnrouted a.conn emsg (effects w₁.past) = some b → b = a := by
    intro b hb
    obtain ⟨q, hq⟩ := effects_mono hpast
    exact honly b (hq ▸ firstUnrouted_append hb)
  obtain ⟨hborrow, hstand⟩ := Standing.run (R := fun _ => True) ha hd hon hconn List.prefix_rfl
    (by simp [Borrowed, hidle, CallStage.isRunning]) trivial (.inr fun _ => trivial) hrun₁ hkeeps₁
    (hlogon.before hpast) ((effects_mono hpast).trans hlog) honly₁ (.before (.inl hidle))
  obtain ⟨-, hstand'⟩ := Standing.run (R := (· = res)) ha hd hon hconn (exec_past hrun₁) hborrow
    rfl (.inl hpushed) hrun₂ (hkeeps₂ w₁ hrun₁) hlogon hlog honly (hstand.of_running hrunning)
  cases hstand' with
  | before h => rcases h with h | h <;> simp [h] at hdone
  | subscribed h _ => simp [h] at hdone
  | waiting h _ => simp [h] at hdone
  | done h hok =>
      rw [h] at hdone
      cases hdone
      exact hok

/-- A call does not fall behind by its own moves. -/
theorem WithinCapacity.own {α : Type} {C : Call α β} {c : CallMove} (hholds : C.holds caller = true)
    (h : WithinCapacity C w) (hstep : step C caller ch w (.call c) = some w') :
    WithinCapacity C w' := by
  cases step_makes hstep with
  | @call c st hcaller hsteps =>
      have hopen : w.parties.any C.holds = true := List.any_eq_true.mpr ⟨caller, hcaller, hholds⟩
      rintro next (hnext | hnext)
      · obtain rfl : st = .subscribed next := hnext
        generalize w.call = st₀ at hsteps
        cases hsteps with
        | subscribe _ => exact Nat.le_add_right _ _
      · obtain rfl : st = .wait (.waiting next) := hnext
        generalize hcall : w.call = st₀ at hsteps
        cases hsteps with
        | missed _ _ => exact h next (.inl hcall)
        | acked _ _ => exact h next (.inl hcall)
        | @receive next₀ _ hrecv =>
            have hle := h next₀ (.inr hcall)
            rw [hopen] at hrecv
            obtain ⟨-, ⟨next', hst, hlt, -⟩ | ⟨_, _, -, -, hst⟩⟩ :=
              Channel.Wait.receive_of_open hrecv
            · cases hst
              exact Nat.le_trans hle (by omega)
            · cases hst
        | expire hfire => cases Channel.Wait.expire_eq hfire

/-- Moves of the call alone keep it from falling behind. -/
theorem WithinCapacity.guarded {α : Type} {C : Call α β} {ms : List Move}
    (hholds : C.holds caller = true) (h : WithinCapacity C w) (hms : ∀ m ∈ ms, ∃ c, m = .call c) :
    Ledger.Guarded (step C caller ch) (KeepsUp C) w ms := by
  induction ms generalizing w with
  | nil => trivial
  | cons m ms ih =>
      obtain ⟨⟨c, rfl⟩, hrest⟩ := List.forall_mem_cons.mp hms
      exact ⟨fun _ => h, fun w' hstep => ih (h.own hholds hstep) hrest⟩

/-- A list operation can end from wherever it stands. -/
theorem requestList_ends (hcaller : caller ∈ w.parties) :
    Ends (requestList emsg judge what) caller ch w := by
  have hsub : step (requestList emsg judge what) caller ch w (.call .subscribe) =
      some { w with call := .subscribed ((requestList emsg judge what).sent w.past).length } →
      Ends (requestList emsg judge what) caller ch w := by
    intro hstep
    refine Ends.cons ?_ hstep
    exact ends_of_subscribed hcaller rfl rfl nofun
  rcases hcall : w.call with _ | _ | next | (next | r)
  · exact hsub (by simp [step, Call.step, hcaller, hcall, requestList])
  · exact hsub (by simp [step, Call.step, hcaller, hcall])
  · exact ends_of_subscribed hcaller rfl hcall nofun
  · exact ends_of_waiting hcaller rfl hcall
  · exact ⟨[], r, List.forall_mem_nil _, by rw [← hcall]; rfl⟩

/-- A call that keeps up can end with the list. -/
theorem Pushed.ends {P : Prost} {w₁ : World β} {ms₁ ms₂ : List Move}
    (h : Pushed (requestList emsg judge what) caller ch P emsg a w₀ w₁ w ms₁ ms₂)
    (hsnap : emsg ∈ postLoginSnapshotEmsgs) (hjudge : judge a.msg.body = some res)
    (hkeeps : Ledger.Guarded (step (requestList emsg judge what) caller ch)
      (KeepsUp (requestList emsg judge what)) w₀ (ms₁ ++ ms₂))
    (hcaller : caller ∈ w.parties) (hlag : WithinCapacity (requestList emsg judge what) w) :
    ∃ ms, (∀ m ∈ ms, ∃ c, m = .call c) ∧
      Ledger.exec (step (requestList emsg judge what) caller ch) w ms =
        some { w with call := .wait (.done res) } := by
  have hends : Ends (requestList emsg judge what) caller ch w := requestList_ends hcaller
  obtain ⟨ms, r, hms, hrun⟩ := hends
  have hall : Pushed (requestList emsg judge what) caller ch P emsg a w₀ w₁
      { w with call := .wait (.done r) } ms₁ (ms₂ ++ ms) :=
    { h with run₂ := Ledger.exec_append_eq_some.mpr ⟨w, h.run₂, hrun⟩ }
  have hguard : Ledger.Guarded (step (requestList emsg judge what) caller ch)
      (KeepsUp (requestList emsg judge what)) w₀ (ms₁ ++ (ms₂ ++ ms)) := by
    rw [← List.append_assoc, Ledger.guarded_append]
    refine ⟨hkeeps, fun e he => ?_⟩
    have hw := Ledger.exec_append_eq_some.mpr ⟨w₁, h.run₁, h.run₂⟩
    obtain rfl : w = e := Option.some.inj (hw.symm.trans he)
    exact hlag.guarded rfl hms
  obtain rfl := hall.result hsnap hjudge hguard rfl
  exact ⟨ms, hms, hrun⟩

end World

/-! ### The three operations -/

/-- `body` is a full list with these entries, of the type that the operation `C` waits for. -/
inductive FullList (F : FriendsProst) :
    ∀ {β : Type}, Call SteamMessage β → UInt32 → Bytes → β → Prop
  | friends {body : Bytes} {list : CMsgClientFriendsList} : F.friendsList body = .ok list →
      list.bincremental ≠ some true →
      FullList F (requestFriendsList F) emsgClientFriendsList body (friendsFrom list)
  | nicknames {body : Bytes} {list : CMsgClientPlayerNicknameList} :
      F.nicknameList body = .ok list → list.incremental ≠ some true → list.removal ≠ some true →
      FullList F (requestNicknames F) emsgClientPlayerNicknameList body (nicknamesFrom list)
  | groups {body : Bytes} {list : CMsgClientFriendsGroupsList} : F.groupsList body = .ok list →
      list.bincremental ≠ some true → list.bremoval ≠ some true →
      FullList F (requestFriendsGroupsList F) emsgClientFriendsGroupsList body (groupsFrom list)

/-- The calls for the two lists are calls for a list. -/
theorem FullList.requestList {F : FriendsProst} {β : Type} {C : Call SteamMessage β}
    {emsg : UInt32} {body : Bytes} {entries : β} (h : FullList F C emsg body entries) :
    ∃ judge what, C = Steamroids.requestList emsg judge what ∧ emsg ∈ postLoginSnapshotEmsgs ∧
      judge body = some (.ok entries) := by
  have hgetD : ∀ o : Option Bool, o ≠ some true → o.getD false = false := by
    rintro (_ | _ | _) ho
    · rfl
    · rfl
    · exact absurd rfl ho
  cases h with
  | friends hdec hfull => exact ⟨_, _, rfl, by decide, by simp [judgeList, hdec, hfull]⟩
  | nicknames hdec hinc hrem =>
      exact ⟨_, _, rfl, by decide, by
        simp [judgeList, hdec, isFullNicknames, hgetD _ hinc, hgetD _ hrem]⟩
  | groups hdec hinc hrem =>
      exact ⟨_, _, rfl, by decide, by
        simp [judgeList, hdec, isFullGroups, hgetD _ hinc, hgetD _ hrem]⟩

/-- **A caller that keeps up gets the list.** In every interleaving of a call with the driver
within one logon: once the full list is broadcast as the first of its type, while the call has
not ended, the call ends with no other result than its entries, and can always end so by its
own moves. -/
theorem full_list_returned {F : FriendsProst} {β : Type} {C : Call SteamMessage β} {P : Prost}
    {caller : Party} {ch : Chan} {emsg : UInt32} {a : Arrival} {entries : β}
    {w₀ w₁ w : World β} {ms₁ ms₂ : List Move} (hfull : FullList F C emsg a.msg.body entries)
    (hpushed : World.Pushed C caller ch P emsg a w₀ w₁ w ms₁ ms₂)
    (hkeeps : Ledger.Guarded (World.step C caller ch) (World.KeepsUp C) w₀ (ms₁ ++ ms₂)) :
    (∀ res, w.call = .wait (.done res) → res = .ok entries) ∧
      (caller ∈ w.parties → World.WithinCapacity C w →
        ∃ ms, (∀ m ∈ ms, ∃ c, m = .call c) ∧
          Ledger.exec (World.step C caller ch) w ms =
            some { w with call := .wait (.done (.ok entries)) }) := by
  obtain ⟨judge, what, rfl, hsnap, hjudge⟩ := hfull.requestList
  exact ⟨fun res => hpushed.result hsnap hjudge hkeeps, hpushed.ends hsnap hjudge hkeeps⟩

/-! ### A caller that lags -/

namespace SessionDriver

variable {P : Prost} {d : SessionDriver}

/-- The driver is connected and has nothing to do. -/
structure Quiet (d : SessionDriver) : Prop where
  phase : ∃ l, d.phase = .connected l ∧ l.reading = .fresh
  inbox : d.inbox = []
  pending : d.pending = ∅

/-- A single message that is no snapshot arrives: the reader looks into the inbox and waits, and
then gets the item. -/
theorem Quiet.receive (h : Quiet d) (now : Nat) {it : WsItem} {msg : SteamMessage}
    (hit : itemMessages P it = some [msg]) (hoff : msg.emsg ≠ emsgClientLoggedOff)
    (hsnap : msg.emsg ∉ postLoginSnapshotEmsgs) :
    ∃ d', Ledger.exec (step P) d [.poll, .item now it] = some d' ∧ Quiet d' ∧
      d'.log = d.log ++ [.yielded d.conn it, .broadcast (d.arrival msg)] := by
  obtain ⟨⟨l, hph, hfresh⟩, hin, hpend⟩ := h
  have hpoll : step P d .poll =
      some { d with phase := .connected { l with reading := .parked } } := by
    simp [step, hph, runConnected, hfresh, hin, resume]
  have hread := readMessage_of_some hit
  have hdispatch : ∀ e : SessionDriver, e.pending = ∅ → e.dispatch msg =
      { e with arrivals := e.arrivals + 1, log := e.log ++ [.broadcast (e.arrival msg)] } := by
    intro e he
    have hnone : e.waiter msg = none := by
      simp only [waiter, he, AList.lookup_empty, Option.map_none]
      split <;> rfl
    simp [dispatch_of_none hnone, cacheAfter, SessionDriver.announce, arrival, hsnap]
  refine ⟨{ d with
      liveness := if it.touches then now else d.liveness
      inbox := []
      arrivals := d.arrivals + 1
      log := d.log ++ [.yielded d.conn it, .broadcast (d.arrival msg)]
      phase := .connected { l with reading := .fresh } }, ?_, ⟨⟨_, rfl, rfl⟩, rfl, hpend⟩, rfl⟩
  refine Ledger.exec_cons_eq_some.mpr ⟨_, hpoll, Ledger.exec_cons_eq_some.mpr ⟨_, ?_, rfl⟩⟩
  simp [step, runConnected, touch, hin, hread, onReceived, hoff, hdispatch, hpend, Turn.ofBranch,
    resume, arrival]

/-- A burst of such messages. -/
theorem Quiet.burst (h : Quiet d) (now : Nat) {it : WsItem} {msg : SteamMessage}
    (hit : itemMessages P it = some [msg]) (hoff : msg.emsg ≠ emsgClientLoggedOff)
    (hsnap : msg.emsg ∉ postLoginSnapshotEmsgs) (n : Nat) :
    ∃ d' es, Ledger.exec (step P) d (List.replicate n [.poll, .item now it]).flatten = some d' ∧
      d'.log = d.log ++ es ∧ (es.map .driver).filterMap Deed.message? = List.replicate n msg ∧
      (es.map .driver).any Deed.isAdoption = false := by
  induction n generalizing d with
  | zero => exact ⟨d, [], rfl, by simp, rfl, rfl⟩
  | succ n ih =>
      obtain ⟨d₁, hrun, hquiet, hlog⟩ := h.receive now hit hoff hsnap
      obtain ⟨d', es, hruns, hlog', hmsgs, hnone⟩ := ih hquiet
      refine ⟨d', .yielded d.conn it :: .broadcast (d.arrival msg) :: es, ?_, ?_, ?_, ?_⟩
      · rw [List.replicate_succ, List.flatten_cons]
        exact Ledger.exec_append_eq_some.mpr ⟨d₁, hrun, hruns⟩
      · simp [hlog', hlog]
      · rw [List.replicate_succ, ← hmsgs]
        rfl
      · simpa [Deed.isAdoption] using hnone

end SessionDriver

/-- A call that keeps up passes over messages that do not decide. -/
theorem World.exec_receive {α β : Type} {C : Call α β} {caller : Party} {ch : Chan} {w : World β}
    {n next : Nat} (hcaller : caller ∈ w.parties)
    (hlag : (C.sent w.past).length ≤ next + C.capacity)
    (hnone : ∀ j a, next ≤ j → (C.sent w.past)[j]? = some a → C.wait.judge a = none)
    (hlen : (C.sent w.past).length = next + n) (hcall : w.call = .wait (.waiting next)) :
    Ledger.exec (World.step C caller ch) w (List.replicate n (.call .receive)) =
      some { w with call := .wait (.waiting (next + n)) } := by
  induction n generalizing w next with
  | zero =>
      rw [Nat.add_zero, ← hcall]
      rfl
  | succ n ih =>
      have hlt : next < (C.sent w.past).length := by omega
      have hrecv : C.wait.receive C.capacity (C.sent w.past) (w.parties.any C.holds) next =
          some (.waiting (next + 1)) :=
        Channel.Wait.receive_of_other hlag (List.getElem?_eq_getElem hlt)
          (hnone next _ (Nat.le_refl _) (List.getElem?_eq_getElem hlt))
      refine Ledger.exec_cons_eq_some.mpr ⟨_, step_receive hcaller hcall hrecv, ?_⟩
      have hlag' : (C.sent w.past).length ≤ next + 1 + C.capacity := by omega
      have hlen' : (C.sent w.past).length = next + 1 + n := by omega
      rw [← Nat.add_assoc, Nat.add_right_comm]
      exact ih (w := { w with call := .wait (.waiting (next + 1)) }) hcaller hlag'
        (fun j a hj => hnone j a (by omega)) hlen' rfl

namespace Sample

/-- A session in which the friends list, of one friend, was pushed. -/
def listed : SessionDriver :=
  (Ledger.exec (SessionDriver.step prost) session
    [.poll, .item 1 (item (frame emsgClientFriendsList 0
      [0x12, 0x0b, 0x09, 5, 0, 0, 0, 0, 0, 0, 0, 0x10, 0x03]))]).get (by decide)

/-- That list. -/
def list : Arrival := (firstUnrouted 0 emsgClientFriendsList listed.log).get (by decide)

/-- A message that is none of the lists. -/
def other : SteamMessage := { emsg := 751, header := {}, body := [] }

/-- A call is about to be made before the push. -/
def calling : World (List Friend) := ⟨session.log.map .driver, [.driver, .handle 0], .idle⟩

/-- The call looks into the empty cache, and then the list is pushed. -/
def push : List Move :=
  [.call .subscribe, .call .read] ++ (listed.log.drop 3).map (.deed ∘ .driver)

/-- The call has the list to receive. -/
def pushed : World (List Friend) :=
  ⟨listed.log.map .driver, [.driver, .handle 0], .wait (.waiting 0)⟩

/-- Before the call receives, the driver goes on with `es`; then the call receives what there
is to receive, and its timer fires. -/
def lag (es : List Effect) : List Move :=
  es.map (.deed ∘ .driver) ++ .call .receive ::
    (List.replicate eventCapacity (.call .receive) ++ [.call .expire])

/-- The driver has gone on with `es`. -/
def lagging (es : List Effect) (st : CallStage (List Friend)) : World (List Friend) :=
  ⟨(listed.log ++ es).map .driver, [.driver, .handle 0], st⟩

end Sample

/-- The world with the list is reachable. -/
theorem reachable_listed : Sample.listed.Reachable Sample.prost :=
  SessionDriver.reachable_session.run (Option.some_get _).symm

/-- The push is a run of the call. -/
theorem calling_push :
    Ledger.exec (World.step (requestFriendsList Sample.friendsProst) (.handle 0) 9)
      Sample.calling Sample.push = some Sample.pushed := by
  decide

/-- The list of the examples is complete. -/
theorem fullList_list :
    FullList Sample.friendsProst (requestFriendsList Sample.friendsProst) emsgClientFriendsList
      Sample.list.msg.body [⟨5, .friend⟩] := by
  have hdecode : Sample.friendsProst.friendsList Sample.list.msg.body =
      .ok { friends := [{ ulfriendid := some 5, efriendrelationship := some 3 }] } := by decide
  exact .friends hdecode (by decide)

/-- The call returns the list that was pushed to it. -/
theorem full_list_returned_pushed :
    ∃ ms, (∀ m ∈ ms, ∃ c, m = .call c) ∧
      Ledger.exec (World.step (requestFriendsList Sample.friendsProst) (.handle 0) 9)
        Sample.pushed ms =
          some { Sample.pushed with call := .wait (.done (.ok [⟨5, .friend⟩])) } := by
  have hpushed : World.Pushed (requestFriendsList Sample.friendsProst) (.handle 0) 9 Sample.prost
      emsgClientFriendsList Sample.list Sample.calling Sample.pushed Sample.pushed Sample.push [] :=
    { idle := rfl
      loggedOn := ⟨logonHeaderSteamid, by decide⟩
      onConn := by decide
      run₁ := calling_push
      running := nofun
      pushed := by decide
      run₂ := rfl
      sameLogon := by decide
      first := by decide
      reachable := ⟨Sample.listed, reachable_listed, by decide⟩ }
  have hkeeps : ∀ m ∈ Sample.push ++ [], ∀ w,
      World.KeepsUp (requestFriendsList Sample.friendsProst) w m := by
    intro m hm w hreceive
    have hnone : .call .receive ∉ Sample.push ++ [] := by decide
    exact absurd (hreceive ▸ hm) hnone
  refine (full_list_returned fullList_list hpushed (Ledger.guarded_of_forall hkeeps)).2
    (by decide) ?_
  rintro next (h | h)
  · cases h
  · cases h
    decide

/-- After a burst that fills the channel, the call has missed the list, passes over the rest,
and times out. -/
theorem pushed_lag {es : List Effect}
    (hmsgs : (es.map .driver).filterMap Deed.message? =
      List.replicate eventCapacity Sample.other) :
    Ledger.exec (World.step (requestFriendsList Sample.friendsProst) (.handle 0) 9) Sample.pushed
      (Sample.lag es) =
        some (Sample.lagging es (.wait (.done (.error (.timeout "friends list"))))) := by
  have hsent : ∀ st, (requestFriendsList Sample.friendsProst).sent (Sample.lagging es st).past =
      Sample.list.msg :: List.replicate eventCapacity Sample.other := by
    intro st
    have hone : (Sample.listed.log.map .driver).filterMap Deed.message? = [Sample.list.msg] := by
      decide
    rw [← hmsgs, ← List.singleton_append, ← hone, ← List.filterMap_append, ← List.map_append]
    rfl
  have hlen : ∀ st, ((requestFriendsList Sample.friendsProst).sent
      (Sample.lagging es st).past).length = 1 + eventCapacity := by
    intro st
    rw [hsent, List.length_cons, List.length_replicate, Nat.add_comm]
  have hcaller : ∀ st, Party.handle 0 ∈ (Sample.lagging es st).parties := fun _ => by
    simp [Sample.lagging]
  have hopen : ∀ st, (Sample.lagging es st).parties.any
      (requestFriendsList Sample.friendsProst).holds = true := fun _ => rfl
  have hburst : Ledger.exec (World.step (requestFriendsList Sample.friendsProst) (.handle 0) 9)
      Sample.pushed (es.map (.deed ∘ .driver)) =
        some (Sample.lagging es (.wait (.waiting 0))) := by
    rw [World.exec_driver es (by decide), Sample.lagging, List.map_append]
    rfl
  have hmiss : World.step (requestFriendsList Sample.friendsProst) (.handle 0) 9
      (Sample.lagging es (.wait (.waiting 0))) (.call .receive) =
        some (Sample.lagging es (.wait (.waiting 1))) := by
    refine World.step_receive (hcaller _) rfl ?_
    rw [hopen, Channel.Wait.receive_of_lagged, hlen]
    · rfl
    · rw [hlen]
      decide
  have hrest : Ledger.exec (World.step (requestFriendsList Sample.friendsProst) (.handle 0) 9)
      (Sample.lagging es (.wait (.waiting 1))) (List.replicate eventCapacity (.call .receive)) =
        some (Sample.lagging es (.wait (.waiting (1 + eventCapacity)))) := by
    refine World.exec_receive (hcaller _) (Nat.le_of_eq (hlen _)) ?_ (hlen _) rfl
    intro j m hj hm
    rw [hsent, List.getElem?_cons, if_neg (by omega)] at hm
    obtain rfl : m = Sample.other := List.eq_of_mem_replicate (List.mem_of_getElem? hm)
    decide
  have hexpire : World.step (requestFriendsList Sample.friendsProst) (.handle 0) 9
      (Sample.lagging es (.wait (.waiting (1 + eventCapacity)))) (.call .expire) =
        some (Sample.lagging es (.wait (.done (.error (.timeout "friends list"))))) := by
    refine World.step_expire (hcaller _) rfl ?_
    rw [hopen]
    exact Channel.Wait.expire_of_le (Nat.le_of_eq (hlen _))
  refine Ledger.exec_append_eq_some.mpr ⟨_, hburst, ?_⟩
  refine Ledger.exec_cons_eq_some.mpr ⟨_, hmiss, ?_⟩
  exact Ledger.exec_append_eq_some.mpr
    ⟨_, hrest, Ledger.exec_cons_eq_some.mpr ⟨_, hexpire, Ledger.exec_nil _⟩⟩

/-- The list is broadcast while the call waits for it, and then, before the call receives, a
burst of other messages. -/
theorem full_list_lost_by_lag :
    ∃ w ms, World.Pushed (requestFriendsList Sample.friendsProst) (.handle 0) 9 Sample.prost
        emsgClientFriendsList Sample.list Sample.calling Sample.pushed w Sample.push ms ∧
      FullList Sample.friendsProst (requestFriendsList Sample.friendsProst) emsgClientFriendsList
        Sample.list.msg.body [⟨5, .friend⟩] ∧
      w.call = .wait (.done (.error (.timeout "friends list"))) := by
  have hquiet : Sample.listed.Quiet := ⟨⟨_, rfl, rfl⟩, by decide, rfl⟩
  have hit : itemMessages Sample.prost (Sample.item (Sample.frame 751 0 [])) =
      some [Sample.other] := by decide
  obtain ⟨d, es, hrun, hlog, hmsgs, hsame⟩ :=
    hquiet.burst 2 hit (by decide) (by decide) eventCapacity
  have heff : ∀ st, effects (Sample.lagging es st).past = Sample.listed.log ++ es :=
    fun _ => effects_map_driver _
  refine ⟨Sample.lagging es _, Sample.lag es, ?_, fullList_list, rfl⟩
  refine
    { idle := rfl
      loggedOn := ⟨logonHeaderSteamid, by decide⟩
      onConn := by decide
      run₁ := calling_push
      running := nofun
      pushed := by decide
      run₂ := pushed_lag hmsgs
      sameLogon := ?_
      first := ?_
      reachable := ⟨d, reachable_listed.run hrun, ?_⟩ }
  · have hfirst : ((Sample.listed.log.map .driver).drop 3).any Deed.isAdoption = false := by
      decide
    have hlong : Sample.calling.past.length ≤ (Sample.listed.log.map Deed.driver).length := by
      decide
    rw [World.SameLogon, Sample.lagging, List.map_append, List.drop_append_of_le_length hlong,
      List.any_append, hsame, Bool.or_false]
    exact hfirst
  · rw [heff]
    exact firstUnrouted_append (by decide)
  · simp only [heff, hlog, List.prefix_rfl]

end Steamroids
