import Mathlib.Data.List.Chain
import Steamroids.Ledger

/-!
# Runs against a Clock

A state machine with timers is run against a clock. Some of its inputs read the clock, and each
of its states says at which instants a timer is due. Time passes between the steps, and a timer
that is due is served within a lag: the clock is not advanced by more than that past it. The
ledger of the machine is kept with the instant of every entry.

What a machine does on time is then a statement about the instants of its entries, and a bound
on them is an invariant of the run.

## Main results

* `Run.invariant`: the rule for the invariants of timed runs.
* `Run.le_now`: no entry is from the future.
* `exists_recent`: among instants that follow each other within a gap, there is one that is old
  enough and not much older.
-/

namespace Clocked

/-- A machine whose inputs may read a clock and whose states have timers. -/
structure System (σ ι ε : Type*) where
  step : σ → ι → Option σ
  ledger : σ → List ε
  /-- The instant that an input has read from the clock. -/
  stamp : ι → Option Nat
  /-- The instants at which the timers of a state are due. -/
  due : σ → List Nat

section Runs

variable {σ ι ε : Type*}

/-- What a step at the instant `t` enters in the ledger. -/
def System.news (M : System σ ι ε) (t : Nat) (s s' : σ) : List (Nat × ε) :=
  ((M.ledger s').drop (M.ledger s).length).map fun e => (t, e)

/-- A run from `s₀` at `t₀`, up to a state, an instant, and a ledger with instants. -/
inductive Run (M : System σ ι ε) (lag : Nat) (s₀ : σ) (t₀ : Nat) :
    σ → Nat → List (Nat × ε) → Prop
  | start : Run M lag s₀ t₀ s₀ t₀ ((M.ledger s₀).map fun e => (t₀, e))
  /-- Time passes, but not past a timer by more than the lag. -/
  | wait {s : σ} {t : Nat} {log : List (Nat × ε)} (t' : Nat) : Run M lag s₀ t₀ s t log →
      t ≤ t' → (∀ x ∈ M.due s, t' ≤ x + lag) → Run M lag s₀ t₀ s t' log
  | step {s s' : σ} {t : Nat} {log : List (Nat × ε)} (i : ι) : Run M lag s₀ t₀ s t log →
      (∀ x ∈ M.stamp i, x = t) → M.step s i = some s' →
      Run M lag s₀ t₀ s' t (log ++ M.news t s s')

variable {M : System σ ι ε} {lag : Nat} {s₀ s : σ} {t₀ t : Nat} {log : List (Nat × ε)}

/-- What a step adds to the ledger is stamped with its time. -/
theorem System.news_of_append {s' : σ} {es : List ε} (h : M.ledger s' = M.ledger s ++ es) :
    M.news t s s' = es.map fun e => (t, e) := by
  rw [System.news, h, List.drop_left]

/-- Without its instants, a timed run is a run. -/
theorem Run.exec (h : Run M lag s₀ t₀ s t log) : ∃ is, Ledger.exec M.step s₀ is = some s := by
  induction h with
  | start => exact ⟨[], rfl⟩
  | wait t' _ _ _ ih => exact ih
  | @step s s' t log i _ _ hstep ih =>
      obtain ⟨is, his⟩ := ih
      refine ⟨is ++ [i], Ledger.exec_append_eq_some.mpr ⟨s, his, ?_⟩⟩
      exact Ledger.exec_cons_eq_some.mpr ⟨s', hstep, rfl⟩

/-- **Invariant rule.** What holds at the start, and is kept when time passes and by every step,
holds after every timed run. -/
theorem Run.invariant {I : σ → Nat → List (Nat × ε) → Prop}
    (hstart : I s₀ t₀ ((M.ledger s₀).map fun e => (t₀, e)))
    (hwait : ∀ s t log t', I s t log → t ≤ t' → (∀ x ∈ M.due s, t' ≤ x + lag) → I s t' log)
    (hstep : ∀ s t log i s', Run M lag s₀ t₀ s t log → I s t log →
      (∀ x ∈ M.stamp i, x = t) → M.step s i = some s' → I s' t (log ++ M.news t s s'))
    (h : Run M lag s₀ t₀ s t log) : I s t log := by
  induction h with
  | start => exact hstart
  | wait t' _ hle hdue ih => exact hwait _ _ _ t' ih hle hdue
  | step i hrun hstamp hs ih => exact hstep _ _ _ i _ hrun ih hstamp hs

/-- Without its instants, the ledger of a timed run is that of the machine, if the machine only
adds to it. -/
theorem Run.ledger
    (hgrow : ∀ is s i s', Ledger.exec M.step s₀ is = some s → M.step s i = some s' →
      ∃ es, M.ledger s' = M.ledger s ++ es)
    (h : Run M lag s₀ t₀ s t log) : log.map Prod.snd = M.ledger s := by
  have hmap : ∀ (t : Nat) (es : List ε), (es.map fun e => (t, e)).map Prod.snd = es := by
    intro t es
    rw [List.map_map]
    exact List.map_id es
  refine h.invariant (I := fun s _ log => log.map Prod.snd = M.ledger s) (hmap t₀ _)
    (fun _ _ _ _ h _ _ => h) ?_
  intro s t log i s' hrun hlog _ hstep
  obtain ⟨is, his⟩ := hrun.exec
  obtain ⟨es, hes⟩ := hgrow is s i s' his hstep
  rw [M.news_of_append hes, List.map_append, hlog, hmap, hes]

/-- No entry is from the future. -/
theorem Run.le_now (h : Run M lag s₀ t₀ s t log) : ∀ x ∈ log, x.1 ≤ t := by
  induction h with
  | start =>
      intro x hx
      obtain ⟨e, -, rfl⟩ := List.mem_map.mp hx
      exact le_rfl
  | wait t' _ hle _ ih => exact fun x hx => (ih x hx).trans hle
  | step i _ _ _ ih =>
      intro x hx
      rcases List.mem_append.mp hx with hx | hx
      · exact ih x hx
      · obtain ⟨e, -, rfl⟩ := List.mem_map.mp hx
        exact le_rfl

end Runs

/-! ### Instants -/

section Times

variable {ε : Type*} {p : ε → Bool}

/-- The instants of the entries of a kind. -/
def times (p : ε → Bool) (log : List (Nat × ε)) : List Nat :=
  (log.filter fun x => p x.2).map Prod.fst

/-- The times of two stretches follow one another. -/
theorem times_append (log log' : List (Nat × ε)) :
    times p (log ++ log') = times p log ++ times p log' := by
  simp only [times, List.filter_append, List.map_append]

/-- A time is one of an entry of that kind. -/
theorem mem_times {x : Nat} {log : List (Nat × ε)} :
    x ∈ times p log ↔ ∃ e, (x, e) ∈ log ∧ p e = true := by
  simp only [times, List.mem_map, List.mem_filter, Prod.exists, exists_and_right,
    exists_eq_right]

/-- Entries of one instant. -/
theorem times_map (t : Nat) (es : List ε) :
    times p (es.map fun e => (t, e)) = List.replicate (es.countP p) t := by
  induction es with
  | nil => rfl
  | cons e es ih =>
      rw [times] at ih
      rw [times, List.map_cons]
      cases he : p e with
      | false =>
          rw [List.filter_cons_of_neg (by simp [he]), List.countP_cons_of_neg (by simp [he]), ih]
      | true =>
          rw [List.filter_cons_of_pos (by simp [he]), List.countP_cons_of_pos he, List.map_cons, ih,
            List.replicate_succ]

/-- Of instants that follow each other within `gap` up to `now`, one is at least `r` ago, and not
more than `gap` longer. -/
theorem exists_recent {gap r now a : Nat} {xs : List Nat}
    (hchain : (a :: xs).IsChain fun x y => y ≤ x + gap) (ha : a + r ≤ now)
    (hlast : ∀ x ∈ (a :: xs).getLast?, now ≤ x + gap) :
    ∃ x ∈ a :: xs, x + r ≤ now ∧ now ≤ x + r + gap := by
  induction xs generalizing a with
  | nil =>
      have hnow := hlast a rfl
      exact ⟨a, List.mem_singleton_self a, ha, by omega⟩
  | cons b xs ih =>
      obtain ⟨hab, hrest⟩ := List.isChain_cons_cons.mp hchain
      by_cases hb : b + r ≤ now
      · have hlast' : ∀ x ∈ (b :: xs).getLast?, now ≤ x + gap := by
          rwa [List.getLast?_cons_cons] at hlast
        obtain ⟨x, hx, hbounds⟩ := ih hrest hb hlast'
        exact ⟨x, List.mem_cons_of_mem a hx, hbounds⟩
      · exact ⟨a, List.mem_cons_self, ha, by omega⟩

end Times

end Clocked
