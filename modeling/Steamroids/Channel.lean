import Mathlib.Data.List.Basic

/-!
# Broadcast and Watch Channels

Two kinds of channel with one writer side and any number of independent readers.

A broadcast channel of bounded capacity keeps the last values that were sent. A receiver is
the number of the value it reads next. One that falls behind by more than the capacity is
told so and goes on with the oldest value that is kept: what lies between is lost. The end
of the channel is reported only once nothing is left to receive and no sender is left.

A watch channel keeps the last value only, and counts the values. A receiver is the number
of values it has seen; it learns that there are newer ones, but not how many or which.

A `Wait` is the loop that receives from a broadcast channel until it meets a value that
decides, under a timer. The timer is looked at when the loop has nothing to receive.

## Main results

* `Tap.Follows.receive`: a receiver gets the values in order, and misses none if it keeps up.
* `Wait.receive_of_awaited`: a receiver that keeps up comes to the first deciding value.
* `Wait.receive_of_open`: on an open channel only a deciding value or the timer ends the loop.
* `findSome?_filter_isSome`: only the deciding values settle how a loop that keeps up ends.
* `unread_next`, `unread_all`: what a reader of two channels has left when it takes the next
  value of the one, or everything from the other.
-/

namespace Channel

variable {α β ε : Type*}

/-! ### Broadcast -/

/-- What one receive yields. -/
inductive Recv (α : Type*)
  | value (a : α)
  | lagged (missed : Nat)
  | closed
  deriving DecidableEq, Repr

/-- One receive by the receiver that is at `next`, from a channel of the given capacity
through which `sent` were sent, with senders left if `isOpen`. `none` means that there is
nothing to receive yet. -/
def recv (capacity : Nat) (sent : List α) (isOpen : Bool) (next : Nat) : Option (Recv α × Nat) :=
  if next + capacity < sent.length then
    some (.lagged (sent.length - capacity - next), sent.length - capacity)
  else
    match sent[next]? with
    | some a => some (.value a, next + 1)
    | none => if isOpen then none else some (.closed, next)

/-- A receiver that keeps up gets the next value. -/
theorem recv_of_lt {capacity next : Nat} {sent : List α} {isOpen : Bool} {a : α}
    (hlag : sent.length ≤ next + capacity) (ha : sent[next]? = some a) :
    recv capacity sent isOpen next = some (.value a, next + 1) := by
  have hnot : ¬ next + capacity < sent.length := by omega
  simp [recv, hnot, ha]

/-- There is nothing to receive only for a receiver that has read everything. -/
theorem length_le_of_recv_eq_none {capacity next : Nat} {sent : List α} {isOpen : Bool}
    (h : recv capacity sent isOpen next = none) : sent.length ≤ next := by
  simp only [recv] at h
  split at h
  · cases h
  · split at h
    · cases h
    · rename_i hnone
      exact List.getElem?_eq_none_iff.mp hnone

/-- A value is received in its turn. -/
theorem recv_eq_value {capacity next next' : Nat} {sent : List α} {isOpen : Bool} {a : α}
    (h : recv capacity sent isOpen next = some (.value a, next')) :
    sent[next]? = some a ∧ next' = next + 1 := by
  simp only [recv] at h
  split at h
  · cases h
  · split at h
    · obtain ⟨hvalue, hnext⟩ := Prod.mk.inj (Option.some.inj h)
      obtain rfl := Recv.value.inj hvalue
      exact ⟨‹_›, hnext.symm⟩
    · split at h <;> cases h

/-- A channel with a sender left has not ended. -/
theorem recv_ne_closed {capacity next next' : Nat} {sent : List α} :
    recv capacity sent true next ≠ some (.closed, next') := by
  intro h
  simp only [recv] at h
  split at h
  · cases h
  · split at h <;> cases h

/-- A receiver never goes back. -/
theorem recv_next_le {capacity next next' : Nat} {sent : List α} {isOpen : Bool} {r : Recv α}
    (h : recv capacity sent isOpen next = some (r, next')) : next ≤ next' := by
  simp only [recv] at h
  split at h
  · obtain ⟨-, rfl⟩ := Prod.mk.inj (Option.some.inj h)
    omega
  · split at h
    · obtain ⟨-, rfl⟩ := Prod.mk.inj (Option.some.inj h)
      exact Nat.le_succ next
    · split at h
      · cases h
      · obtain ⟨-, rfl⟩ := Prod.mk.inj (Option.some.inj h)
        exact Nat.le_refl next

/-! ### A receiver that keeps what it gets -/

/-- Where a receiver is, and what it has got so far. -/
structure Tap (α : Type*) where
  next : Nat
  got : List α
  deriving DecidableEq

namespace Tap

variable {capacity start : Nat} {sent : List α} {isOpen : Bool} {t t' : Tap α}

/-- One receive. -/
def receive (capacity : Nat) (sent : List α) (isOpen : Bool) (t : Tap α) : Option (Tap α) :=
  (recv capacity sent isOpen t.next).map fun
    | (.value a, next) => ⟨next, t.got ++ [a]⟩
    | (_, next) => ⟨next, t.got⟩

/-- One receive, by what it gets. -/
theorem receive_cases (h : t.receive capacity sent isOpen = some t') :
    (∃ a, sent[t.next]? = some a ∧ t' = ⟨t.next + 1, t.got ++ [a]⟩) ∨
      t.next + capacity < sent.length ∧ t' = ⟨sent.length - capacity, t.got⟩ ∨ t' = t := by
  obtain ⟨⟨r, next⟩, hr, rfl⟩ := Option.map_eq_some_iff.mp h
  simp only [recv] at hr
  split at hr
  · rename_i hlag
    obtain ⟨rfl, rfl⟩ := Prod.mk.inj (Option.some.inj hr)
    exact .inr (.inl ⟨hlag, rfl⟩)
  · split at hr
    · rename_i a ha
      obtain ⟨rfl, rfl⟩ := Prod.mk.inj (Option.some.inj hr)
      exact .inl ⟨a, ha, rfl⟩
    · split at hr
      · cases hr
      · obtain ⟨rfl, rfl⟩ := Prod.mk.inj (Option.some.inj hr)
        exact .inr (.inr rfl)

/-- The values are got in the order in which they were sent, and none of them twice; none is missing
if the receiver is a `whole` one. -/
structure Follows (whole : Prop) (sent : List α) (start : Nat) (t : Tap α) : Prop where
  start_le : start ≤ t.next
  next_le : t.next ≤ sent.length
  sublist : t.got.Sublist ((sent.take t.next).drop start)
  complete : whole → t.got = (sent.take t.next).drop start

variable {whole : Prop}

/-- A receiver that begins with the next value. -/
theorem follows_start (whole : Prop) (sent : List α) :
    Follows whole sent sent.length ⟨sent.length, []⟩ where
  start_le := Nat.le_refl _
  next_le := Nat.le_refl _
  sublist := List.nil_sublist _
  complete := by simp

/-- More is sent. -/
theorem Follows.append (h : t.Follows whole sent start) (more : List α) :
    t.Follows whole (sent ++ more) start := by
  have hnext : t.next ≤ (sent ++ more).length := by
    rw [List.length_append]
    exact Nat.le_trans h.next_le (Nat.le_add_right _ _)
  refine ⟨h.start_le, hnext, ?_, ?_⟩ <;> rw [List.take_append_of_le_length h.next_le]
  · exact h.sublist
  · exact h.complete

/-- One more value received is one more behind the start. -/
theorem take_drop_succ {next : Nat} {a : α} (ha : sent[next]? = some a) (hle : start ≤ next) :
    (sent.take (next + 1)).drop start = (sent.take next).drop start ++ [a] := by
  have hlt : next < sent.length := (List.getElem?_eq_some_iff.mp ha).1
  rw [List.take_add_one, ha]
  exact List.drop_append_of_le_length (by rw [List.length_take]; omega)

/-- **A receiver gets the values in order, and misses none if it keeps up.** -/
theorem Follows.receive (h : t.Follows whole sent start)
    (hkeeps : whole → sent.length ≤ t.next + capacity)
    (hr : t.receive capacity sent isOpen = some t') : t'.Follows whole sent start := by
  rcases receive_cases hr with ⟨a, ha, rfl⟩ | ⟨hlag, rfl⟩ | rfl
  · refine ⟨Nat.le_succ_of_le h.start_le, (List.getElem?_eq_some_iff.mp ha).1, ?_, fun hwhole => ?_⟩
    · rw [take_drop_succ ha h.start_le]
      exact h.sublist.append (List.Sublist.refl [a])
    · rw [take_drop_succ ha h.start_le, h.complete hwhole]
  · have hle : t.next ≤ sent.length - capacity := by omega
    refine ⟨Nat.le_trans h.start_le hle, Nat.sub_le _ _, ?_, fun hwhole => ?_⟩
    · exact h.sublist.trans ((List.take_sublist_take_left hle).drop start)
    · have := hkeeps hwhole
      omega
  · exact h

/-- What was got and what is left make up everything that was sent since the start. -/
theorem Follows.append_drop (h : t.Follows whole sent start) (hwhole : whole) :
    t.got ++ sent.drop t.next = sent.drop start := by
  have hsplit : sent.drop start = (sent.take t.next ++ sent.drop t.next).drop start := by
    rw [List.take_append_drop]
  rw [hsplit, h.complete hwhole, List.drop_append_of_le_length]
  rw [List.length_take, Nat.min_eq_left h.next_le]
  exact h.start_le

end Tap

/-! ### Waiting for a value that decides -/

/-- A loop that waits for a value that decides: which values do and how, and its errors when
the channel ends and when its timer fires. -/
structure Wait (α β ε : Type*) where
  judge : α → Option (Except ε β)
  closed : ε
  timedOut : ε

/-- Where a wait stands: before its receive number `next`, or at its end. -/
inductive Stage (β ε : Type*)
  | waiting (next : Nat)
  | done (res : Except ε β)
  deriving DecidableEq

namespace Wait

variable {w : Wait α β ε} {capacity next : Nat} {sent : List α} {isOpen : Bool}

/-- One receive of the loop; `none` while there is nothing to receive. -/
def receive (w : Wait α β ε) (capacity : Nat) (sent : List α) (isOpen : Bool) (next : Nat) :
    Option (Stage β ε) :=
  (recv capacity sent isOpen next).map fun
    | (.value a, next) =>
        match w.judge a with
        | some res => .done res
        | none => .waiting next
    | (.lagged _, next) => .waiting next
    | (.closed, _) => .done (.error w.closed)

/-- The timer fires on a loop that has nothing to receive. -/
def expire (w : Wait α β ε) (capacity : Nat) (sent : List α) (isOpen : Bool) (next : Nat) :
    Option (Stage β ε) :=
  if (recv capacity sent isOpen next).isNone then some (.done (.error w.timedOut)) else none

/-- A receiver that keeps up passes over a value that does not decide. -/
theorem receive_of_other {a : α} (hlag : sent.length ≤ next + capacity)
    (ha : sent[next]? = some a) (hnone : w.judge a = none) :
    w.receive capacity sent isOpen next = some (.waiting (next + 1)) := by
  simp [receive, recv_of_lt hlag ha, hnone]

/-- A receiver that lags goes on with the oldest value that is kept. -/
theorem receive_of_lagged (hlag : next + capacity < sent.length) :
    w.receive capacity sent isOpen next = some (.waiting (sent.length - capacity)) := by
  simp [receive, recv, hlag]

/-- Among the values not yet received, the one at `k` is the first that decides. -/
structure Awaits (w : Wait α β ε) (sent : List α) (next k : Nat) (res : Except ε β) : Prop where
  le : next ≤ k
  decides : ∃ a, sent[k]? = some a ∧ w.judge a = some res
  first : ∀ j a, next ≤ j → j < k → sent[j]? = some a → w.judge a = none

/-- What is awaited has been sent. -/
theorem Awaits.lt {k : Nat} {res : Except ε β} (h : w.Awaits sent next k res) :
    k < sent.length := by
  obtain ⟨a, ha, -⟩ := h.decides
  exact (List.getElem?_eq_some_iff.mp ha).1

/-- What was sent since does not matter. -/
theorem Awaits.append {k : Nat} {res : Except ε β} (h : w.Awaits sent next k res)
    (more : List α) : w.Awaits (sent ++ more) next k res := by
  have hlt := h.lt
  obtain ⟨a, ha, hres⟩ := h.decides
  refine ⟨h.le, ⟨a, by rwa [List.getElem?_append_left hlt], hres⟩, ?_⟩
  intro j b hj hjk hb
  rw [List.getElem?_append_left (by omega)] at hb
  exact h.first j b hj hjk hb

/-- **A receiver that keeps up comes to the first deciding value.** Each receive decides as
that value says, or goes one value further towards it. -/
theorem receive_of_awaited {k : Nat} {res : Except ε β} (h : w.Awaits sent next k res)
    (hlag : sent.length ≤ next + capacity) :
    (next = k ∧ w.receive capacity sent isOpen next = some (.done res)) ∨
      w.receive capacity sent isOpen next = some (.waiting (next + 1)) ∧
        w.Awaits sent (next + 1) k res := by
  obtain ⟨a, ha, hres⟩ := h.decides
  rcases Nat.eq_or_lt_of_le h.le with rfl | hlt
  · exact .inl ⟨rfl, by simp [receive, recv_of_lt hlag ha, hres]⟩
  · have hk := h.lt
    have hnext : next < sent.length := by omega
    obtain ⟨b, hb⟩ : ∃ b, sent[next]? = some b := ⟨_, List.getElem?_eq_getElem hnext⟩
    have hnone := h.first next b (Nat.le_refl _) hlt hb
    refine .inr ⟨receive_of_other hlag hb hnone, hlt, h.decides, ?_⟩
    intro j c hj hjk hc
    exact h.first j c (by omega) hjk hc

/-- The timer does not fire on a loop that has a value to receive. -/
theorem expire_of_lt (h : next < sent.length) : w.expire capacity sent isOpen next = none := by
  rcases hr : recv capacity sent isOpen next with _ | r
  · have := length_le_of_recv_eq_none hr
    omega
  · simp [expire, hr]

/-- **On an open channel the loop ends by a value that decides, or goes on.** -/
theorem receive_of_open {st : Stage β ε} (h : w.receive capacity sent true next = some st) :
    next < sent.length ∧
      ((∃ next', st = .waiting next' ∧ next < next' ∧ next' ≤ sent.length) ∨
        ∃ a res, sent[next]? = some a ∧ w.judge a = some res ∧ st = .done res) := by
  simp only [receive, recv] at h
  split at h
  · rename_i hlag
    obtain rfl : Stage.waiting (sent.length - capacity) = st := by simpa using h
    exact ⟨by omega, .inl ⟨_, rfl, by omega, by omega⟩⟩
  · split at h
    · rename_i a ha
      have hlt : next < sent.length := (List.getElem?_eq_some_iff.mp ha).1
      refine ⟨hlt, ?_⟩
      rcases hres : w.judge a with _ | res
      · obtain rfl : Stage.waiting (next + 1) = st := by simpa [hres] using h
        exact .inl ⟨_, rfl, by omega, hlt⟩
      · obtain rfl : Stage.done res = st := by simpa [hres] using h
        exact .inr ⟨a, res, ha, hres, rfl⟩
    · simp at h

/-- The timer can fire on a loop that has nothing to receive. -/
theorem expire_of_receive_eq_none (h : w.receive capacity sent isOpen next = none) :
    w.expire capacity sent isOpen next = some (.done (.error w.timedOut)) := by
  have hnone : recv capacity sent isOpen next = none := Option.map_eq_none_iff.mp h
  simp [expire, hnone]

/-- The timer can fire on a loop that has received everything. -/
theorem expire_of_le (h : sent.length ≤ next) :
    w.expire capacity sent true next = some (.done (.error w.timedOut)) := by
  have hnot : ¬ next + capacity < sent.length := by omega
  have hnone : recv capacity sent true next = none := by
    simp [recv, hnot, List.getElem?_eq_none_iff.mpr h]
  simp [expire, hnone]

/-- The timer ends the loop with its own error. -/
theorem expire_eq {st : Stage β ε} (h : w.expire capacity sent isOpen next = some st) :
    st = .done (.error w.timedOut) := by
  simp only [expire] at h
  split at h
  · exact (Option.some.inj h).symm
  · cases h

/-- The timer fires only on a loop that has received everything. -/
theorem length_le_of_expire {st : Stage β ε} (h : w.expire capacity sent isOpen next = some st) :
    sent.length ≤ next := by
  simp only [expire] at h
  split at h
  · rename_i hnone
    exact length_le_of_recv_eq_none (Option.isNone_iff_eq_none.mp hnone)
  · cases h

/-- How a loop that keeps up ends when these values come: as the first one that decides
says, or by its timer. -/
def verdict (w : Wait α β ε) (values : List α) : Except ε β :=
  (values.findSome? w.judge).getD (.error w.timedOut)

/-- A value that decides makes the verdict, whatever comes after it. -/
theorem verdict_of_awaited {start k : Nat} {res : Except ε β} (h : w.Awaits sent start k res) :
    w.verdict (sent.drop start) = res := by
  obtain ⟨a, ha, hres⟩ := h.decides
  obtain ⟨hk, rfl⟩ := List.getElem?_eq_some_iff.mp ha
  have hpre : ((sent.drop start).take (k - start)).findSome? w.judge = none := by
    refine List.findSome?_eq_none_iff.mpr fun b hb => ?_
    obtain ⟨j, hj, rfl⟩ := List.mem_iff_getElem.mp hb
    simp only [List.length_take, List.length_drop] at hj
    refine h.first (start + j) _ (by omega) (by omega) ?_
    rw [List.getElem_take, List.getElem_drop]
    exact List.getElem?_eq_getElem _
  have hdrop : (sent.drop start).drop (k - start) = sent[k] :: sent.drop (k + 1) := by
    rw [List.drop_drop, show start + (k - start) = k from Nat.add_sub_cancel' h.le]
    exact List.drop_eq_getElem_cons hk
  rw [verdict, ← List.take_append_drop (k - start) (sent.drop start), List.findSome?_append, hpre,
    hdrop, Option.none_or, List.findSome?_cons, hres]
  rfl

/-- With no value that decides, the verdict is the timer's. -/
theorem verdict_of_forall {values : List α} (h : ∀ a ∈ values, w.judge a = none) :
    w.verdict values = .error w.timedOut := by
  rw [verdict, List.findSome?_eq_none_iff.mpr h]
  rfl

/-- A success is the work of the first value that decides. -/
theorem verdict_eq_ok {values : List α} {b : β} :
    w.verdict values = .ok b ↔ values.findSome? w.judge = some (.ok b) := by
  rw [verdict]
  cases values.findSome? w.judge <;> simp

/-- Values that come after a success do not change it. -/
theorem verdict_append_of_ok {values more : List α} {b : β} (h : w.verdict values = .ok b) :
    w.verdict (values ++ more) = .ok b := by
  rw [verdict_eq_ok] at h ⊢
  rw [List.findSome?_append, h, Option.some_or]

end Wait

/-- Only the values that decide matter, and their order. -/
theorem findSome?_filter_isSome (judge : α → Option β) (values : List α) :
    (values.filter fun a => (judge a).isSome).findSome? judge = values.findSome? judge := by
  rw [← List.head?_filterMap, ← List.head?_filterMap, List.filterMap_filter]
  congr 2
  funext a
  cases judge a <;> rfl

/-! ### Watch -/

/-- What awaiting a change yields for a receiver that has seen `seen` of the `count` values:
`ok` once there are newer ones, all of which it has then seen; `error` when none will come;
`none` while it has to wait. -/
def changed (count : Nat) (isOpen : Bool) (seen : Nat) : Option (Except Unit Nat) :=
  if seen < count then some (.ok count) else if isOpen then none else some (.error ())

/-! ### Reading two channels

The entries of one ledger go out through two channels, or through neither. A reader that has
taken `next` entries from the left one and `seen` from the right one can take them in another
order than that of the ledger. -/

/-- The two channels. -/
inductive Side
  | left
  | right
  deriving DecidableEq

section Unread

variable {ε : Type*} {side : ε → Option Side}

/-- The entries that go out through one of the channels. -/
def through (side : ε → Option Side) (c : Side) (log : List ε) : List ε :=
  log.filter fun e => side e = some c

/-- The entries that the reader has not taken, in the order of the ledger. -/
def unread (side : ε → Option Side) : Nat → Nat → List ε → List ε
  | _, _, [] => []
  | next, seen, e :: es =>
      match side e, next, seen with
      | some .left, 0, seen => e :: unread side 0 seen es
      | some .left, next + 1, seen => unread side next seen es
      | some .right, next, 0 => e :: unread side next 0 es
      | some .right, next, seen + 1 => unread side next seen es
      | none, next, seen => unread side next seen es

variable {next seen seen' : Nat} {log : List ε}

/-- Nothing has come through a channel at the beginning. -/
@[simp] theorem through_nil (c : Side) : through side c [] = [] := rfl

/-- An entry comes through the channel of its side. -/
theorem through_cons (c : Side) (e : ε) (log : List ε) :
    through side c (e :: log) =
      if side e = some c then e :: through side c log else through side c log := by
  simp only [through, List.filter_cons, decide_eq_true_eq]

/-- A reader that has taken everything has nothing left. -/
theorem unread_of_le (hnext : (through side .left log).length ≤ next)
    (hseen : (through side .right log).length ≤ seen) : unread side next seen log = [] := by
  induction log generalizing next seen with
  | nil => rfl
  | cons e log ih =>
      rcases hside : side e with _ | (_ | _) <;>
        simp only [through_cons, hside, unread] at hnext hseen ⊢
      · exact ih hnext hseen
      · cases next with
        | zero => simp at hnext
        | succ next => exact ih (by simpa using hnext) hseen
      · cases seen with
        | zero => simp at hseen
        | succ seen => exact ih hnext (by simpa using hseen)

/-- A new entry has not been taken. -/
theorem unread_append_singleton (hnext : next ≤ (through side .left log).length)
    (hseen : seen ≤ (through side .right log).length) (e : ε) :
    unread side next seen (log ++ [e]) =
      unread side next seen log ++ if (side e).isSome then [e] else [] := by
  induction log generalizing next seen with
  | nil =>
      obtain rfl : next = 0 := by simpa using hnext
      obtain rfl : seen = 0 := by simpa using hseen
      rcases hside : side e with _ | (_ | _) <;> simp [unread, hside]
  | cons a log ih =>
      rcases hside : side a with _ | (_ | _) <;>
        simp only [through_cons, hside, unread, List.cons_append] at hnext hseen ⊢
      · exact ih hnext hseen
      · cases next with
        | zero => simpa using ih (Nat.zero_le _) hseen
        | succ next => exact ih (by simpa using hnext) hseen
      · cases seen with
        | zero => simpa using ih hnext (Nat.zero_le _)
        | succ seen => exact ih hnext (by simpa using hseen)

/-- Taking the next entry of the left channel, past what the right one holds before it. -/
theorem unread_next (h : next < (through side .left log).length) :
    ∃ pre x post, unread side next seen log = pre ++ x :: post ∧
      (∀ y ∈ pre, side y = some .right) ∧ (through side .left log)[next]? = some x ∧
      unread side (next + 1) seen log = pre ++ post := by
  induction log generalizing next seen with
  | nil => simp at h
  | cons e log ih =>
      rcases hside : side e with _ | (_ | _) <;> simp only [through_cons, hside, unread] at h ⊢
      · exact ih h
      · cases next with
        | zero => exact ⟨[], e, _, rfl, by simp, rfl, rfl⟩
        | succ next => exact ih (by simpa using h)
      · cases seen with
        | zero =>
            obtain ⟨pre, x, post, hbefore, hpre, hx, hafter⟩ := @ih next 0 h
            refine ⟨e :: pre, x, post, by simp [hbefore], ?_, hx, by simp [hafter]⟩
            exact List.forall_mem_cons.mpr ⟨hside, hpre⟩
        | succ seen => exact ih h

/-- Taking everything that the right channel holds. -/
theorem unread_all (h : (through side .right log).length ≤ seen') :
    unread side next seen' log =
      (unread side next seen log).filter fun e => side e ≠ some .right := by
  induction log generalizing next seen seen' with
  | nil => rfl
  | cons e log ih =>
      rcases hside : side e with _ | (_ | _) <;> simp only [through_cons, hside, unread] at h ⊢
      · exact ih h
      · cases next with
        | zero => simpa [hside] using ih h
        | succ next => exact ih h
      · cases seen' with
        | zero => simp at h
        | succ seen' =>
            have h' : (through side .right log).length ≤ seen' := by simpa using h
            cases seen with
            | zero => simpa [hside] using ih h'
            | succ seen => exact ih h'

/-- A reader that has taken everything from the left channel has only the right one left. -/
theorem right_of_unread (h : (through side .left log).length ≤ next) {x : ε}
    (hx : x ∈ unread side next seen log) : side x = some .right := by
  have hnone : (unread side next seen log).filter (fun e => side e ≠ some .right) = [] :=
    (unread_all (Nat.le_refl _)).symm.trans (unread_of_le h (Nat.le_refl _))
  simpa using List.filter_eq_nil_iff.mp hnone x hx

/-- What the right channel holds is unread. -/
theorem exists_unread (h : seen < (through side .right log).length) :
    ∃ x ∈ unread side next seen log, side x = some .right := by
  induction log generalizing next seen with
  | nil => simp at h
  | cons e log ih =>
      rcases hside : side e with _ | (_ | _) <;> simp only [through_cons, hside, unread] at h ⊢
      · exact ih h
      · cases next with
        | zero =>
            obtain ⟨x, hx, hright⟩ := @ih 0 seen h
            exact ⟨x, List.mem_cons_of_mem e hx, hright⟩
        | succ next => exact ih h
      · cases seen with
        | zero => exact ⟨e, List.mem_cons_self, hside⟩
        | succ seen => exact ih (by simpa using h)

/-- Taking entries of the left channel that say nothing. -/
theorem unread_skip {β : Type*} {f : ε → Option β} (n : Nat)
    (hle : next + n ≤ (through side .left log).length)
    (hnone : ∀ j x, next ≤ j → j < next + n → (through side .left log)[j]? = some x → f x = none) :
    (unread side (next + n) seen log).filterMap f = (unread side next seen log).filterMap f := by
  induction n with
  | zero => rfl
  | succ n ih =>
      obtain ⟨pre, x, post, hbefore, -, hx, hafter⟩ :=
        @unread_next _ side (next + n) seen log (by omega)
      have hfx : f x = none := hnone (next + n) x (by omega) (by omega) hx
      rw [← ih (by omega) fun j y hj hlt => hnone j y hj (by omega), ← Nat.add_assoc, hbefore,
        hafter]
      simp [hfx]

end Unread

end Channel
