import Mathlib.Data.List.Infix

/-!
# Computations that Take Time

A computation acts on a world that answers in its own time, or not at all. It is a function of the
instant at which it begins and of what was done before, and it gives what it does, each act with
its instant, and when it ends with which result. A deadline can be put on a computation: one that
has not ended by then is given up, and what it would have done later is not done.

Two predicates describe a computation that begins at a given instant. `EndsBy` says that it ends in
time, whatever the world does; `Meets` says what its acts are, even if it is given up on the way,
and what is known of its end. Both have a rule for each way to put computations together.

A run that has ended can be taken apart into those of its parts (`Ran`), in the order in which they
were made.

## Main results

* `EndsBy.bind`, `endsBy_withinAt`: computations that end in time.
* `Meets.bind`, `Meets.withinAt`: what is known of a computation.
* `Ran.bind_inv`: the run of two parts, taken apart.
* `settled_eq_some`: waiting ends with the first arrival that settles the matter.
-/

namespace Timed

/-! ### Computations -/

/-- How a computation goes: what it does, and when and how it ends, if it does. -/
structure Run (A ε α : Type) where
  acts : List (Nat × A)
  done : Option (Nat × Except ε α)

/-- A computation, which does not end before it begins. -/
structure Comp (A ε α : Type) where
  run : Nat → List (Nat × A) → Run A ε α
  le_done : ∀ now log t r, (run now log).done = some (t, r) → now ≤ t

section Operations

variable {A ε δ α β χ : Type}

/-- A result that is at hand. -/
def ofExcept (r : Except ε α) : Comp A ε α where
  run now _ := ⟨[], some (now, r)⟩
  le_done := by
    rintro now log t r ⟨⟩
    exact Nat.le_refl _

/-- Go on with the value, unless there is an error. -/
def bind (m : Comp A ε α) (f : α → Comp A ε β) : Comp A ε β where
  run now log :=
    match (m.run now log).done with
    | some (t, .ok a) =>
        let next := (f a).run t (log ++ (m.run now log).acts)
        ⟨(m.run now log).acts ++ next.acts, next.done⟩
    | some (t, .error e) => ⟨(m.run now log).acts, some (t, .error e)⟩
    | none => ⟨(m.run now log).acts, none⟩
  le_done now log t r h := by
    split at h
    · next t' a hdone => exact Nat.le_trans (m.le_done _ _ _ _ hdone) ((f a).le_done _ _ _ _ h)
    · next t' e hdone =>
        obtain ⟨rfl, rfl⟩ := Prod.mk.inj (Option.some.inj h)
        exact m.le_done _ _ _ _ hdone
    · cases h

instance : Monad (Comp A ε) where
  pure a := ofExcept (.ok a)
  bind := bind

/-- An act, and the answer that the world gives to it after some time. -/
def act (a : A) (answer : Nat → List (Nat × A) → Option (Nat × Except ε α)) : Comp A ε α where
  run now log := ⟨[(now, a)], (answer now log).map fun x => (now + x.1, x.2)⟩
  le_done now log t r h := by
    obtain ⟨x, -, hx⟩ := Option.map_eq_some_iff.mp h
    obtain ⟨rfl, -⟩ := Prod.mk.inj hx
    exact Nat.le_add_right _ _

/-- What time it is. -/
def instant : Comp A ε Nat where
  run now _ := ⟨[], some (now, .ok now)⟩
  le_done := by
    rintro now log t r ⟨⟩
    exact Nat.le_refl _

/-- Let some time pass. -/
def sleep (d : Nat) : Comp A ε Unit where
  run now _ := ⟨[], some (now + d, .ok ())⟩
  le_done := by
    rintro now log t r ⟨⟩
    exact Nat.le_add_right _ _

/-- How a computation ends, as a value. -/
def Comp.result (m : Comp A δ α) : Comp A ε (Except δ α) where
  run now log :=
    ⟨(m.run now log).acts, (m.run now log).done.map fun x => (x.1, .ok x.2)⟩
  le_done now log t r h := by
    obtain ⟨⟨t', r'⟩, hdone, hx⟩ := Option.map_eq_some_iff.mp h
    obtain ⟨rfl, -⟩ := Prod.mk.inj hx
    exact m.le_done _ _ _ _ hdone

/-- Give a computation up at the deadline, and say how it has ended before, if it has. -/
def withinAt (deadline : Nat) (m : Comp A δ α) : Comp A ε (Option (Except δ α)) where
  run now log :=
    let late : Run A ε (Option (Except δ α)) :=
      ⟨(m.run now log).acts.takeWhile (·.1 ≤ max now deadline),
        some (max now deadline, .ok none)⟩
    match (m.run now log).done with
    | some (t, r) =>
        if t ≤ max now deadline then ⟨(m.run now log).acts, some (t, .ok (some r))⟩ else late
    | none => late
  le_done now log t r h := by
    dsimp only at h
    split at h
    · next t' r' hdone =>
        split at h
        · obtain ⟨rfl, -⟩ := Prod.mk.inj (Option.some.inj h)
          exact m.le_done _ _ _ _ hdone
        · obtain ⟨rfl, -⟩ := Prod.mk.inj (Option.some.inj h)
          exact Nat.le_max_left _ _
    · obtain ⟨rfl, -⟩ := Prod.mk.inj (Option.some.inj h)
      exact Nat.le_max_left _ _

/-- Give a computation up after some time. -/
def within (d : Nat) (m : Comp A δ α) : Comp A ε (Option (Except δ α)) :=
  bind instant fun now => withinAt (now + d) m

/-- Give a computation up at the deadline, with a result for this case. -/
def cutAt (deadline : Nat) (late : Except ε α) (m : Comp A ε α) : Comp A ε α :=
  bind (withinAt deadline m) fun r => ofExcept (r.getD late)

/-- Give a computation up after some time, with an error. -/
def timeout (d : Nat) (late : ε) (m : Comp A ε α) : Comp A ε α :=
  bind instant fun now => cutAt (now + d) (.error late) m

/-- Wait until what has arrived settles the matter. Each arrival comes some time after the one
before it. -/
def settled (look : List χ → Option β) (seen : List χ) : List (Nat × χ) → Option (Nat × β)
  | [] => (look seen).map fun b => (0, b)
  | (gap, x) :: rest =>
      match look seen with
      | some b => some (0, b)
      | none => (settled look (seen ++ [x]) rest).map fun r => (gap + r.1, r.2)

/-- Wait for arrivals. -/
def await (look : List χ → Option (Except ε α)) (arrivals : List (Nat × χ)) : Comp A ε α where
  run now _ := ⟨[], (settled look [] arrivals).map fun x => (now + x.1, x.2)⟩
  le_done now log t r h := by
    obtain ⟨x, -, hx⟩ := Option.map_eq_some_iff.mp h
    obtain ⟨rfl, -⟩ := Prod.mk.inj hx
    exact Nat.le_add_right _ _

/-- What arrives within some time. -/
def seenBy : Nat → List (Nat × χ) → List χ
  | _, [] => []
  | left, (gap, x) :: rest => if gap ≤ left then x :: seenBy (left - gap) rest else []

end Operations

section Steps

variable {A ε δ α β χ : Type} {m : Comp A ε α} {f : α → Comp A ε β} {now : Nat}
  {log : List (Nat × A)}

/-- How a computation in two parts ends. -/
theorem bind_done {t : Nat} {r : Except ε β} (h : ((m >>= f).run now log).done = some (t, r)) :
    (∃ t' a, (m.run now log).done = some (t', .ok a) ∧
      ((f a).run t' (log ++ (m.run now log).acts)).done = some (t, r)) ∨
    ∃ e, (m.run now log).done = some (t, .error e) ∧ r = .error e := by
  change ((bind m f).run now log).done = _ at h
  simp only [bind] at h
  split at h
  · next t' a hdone => exact .inl ⟨t', a, hdone, h⟩
  · next t' e hdone =>
      obtain ⟨rfl, rfl⟩ := Prod.mk.inj (Option.some.inj h)
      exact .inr ⟨e, hdone, rfl⟩
  · cases h

/-- What a computation in two parts does. -/
theorem bind_acts {x : Nat × A} (h : x ∈ ((m >>= f).run now log).acts) :
    x ∈ (m.run now log).acts ∨
    ∃ t' a, (m.run now log).done = some (t', .ok a) ∧
      x ∈ ((f a).run t' (log ++ (m.run now log).acts)).acts := by
  change x ∈ ((bind m f).run now log).acts at h
  simp only [bind] at h
  split at h
  · next t' a hdone => exact (List.mem_append.mp h).imp id fun h => ⟨t', a, hdone, h⟩
  · exact .inl h
  · exact .inl h

/-- The first arrival that settles the matter ends the waiting. -/
theorem settled_eq_some {look : List χ → Option β} {seen : List χ} {arrivals : List (Nat × χ)}
    {t : Nat} {b : β} (h : settled look seen arrivals = some (t, b)) :
    ∃ more, look (seen ++ more) = some b ∧
      ∀ before x after, more = before ++ x :: after → look (seen ++ before) = none := by
  induction arrivals generalizing seen t with
  | nil =>
      obtain ⟨b, hlook, hb⟩ := Option.map_eq_some_iff.mp h
      obtain ⟨-, rfl⟩ := Prod.mk.inj hb
      exact ⟨[], by rwa [List.append_nil], fun before x after hmore => by simp at hmore⟩
  | cons arrival rest ih =>
      obtain ⟨gap, y⟩ := arrival
      rw [settled] at h
      rcases hlook : look seen with _ | b'
      · rw [hlook] at h
        obtain ⟨⟨t', b'⟩, hsettled, hb⟩ := Option.map_eq_some_iff.mp h
        obtain ⟨-, rfl⟩ := Prod.mk.inj hb
        obtain ⟨more, hmore, hbefore⟩ := ih hsettled
        refine ⟨y :: more, by simpa using hmore, ?_⟩
        rintro (_ | ⟨z, before⟩) x after hsplit
        · rwa [List.append_nil]
        · obtain ⟨rfl, hrest⟩ := List.cons.inj hsplit
          simpa using hbefore before x after hrest
      · rw [hlook] at h
        obtain ⟨-, rfl⟩ := Prod.mk.inj (Option.some.inj h)
        exact ⟨[], by rwa [List.append_nil], fun before x after hmore => by simp at hmore⟩

end Steps

/-! ### Runs that have ended -/

section Ran

variable {A ε δ α β : Type} {now t : Nat} {log acts : List (Nat × A)}

/-- Begun at `now`, with `log` done before, it does these acts and ends at `t` with the result. -/
def Ran (m : Comp A ε α) (now : Nat) (log acts : List (Nat × A)) (t : Nat) (r : Except ε α) :
    Prop := m.run now log = ⟨acts, some (t, r)⟩

/-- A run whose end is known. -/
theorem ran_of_done {m : Comp A ε α} {r : Except ε α} (h : (m.run now log).done = some (t, r)) :
    Ran m now log (m.run now log).acts t r := by
  rw [Ran, ← h]

/-- A result that is at hand takes no time. -/
theorem ran_ofExcept_inv {x r : Except ε α} (h : Ran (ofExcept x) now log acts t r) :
    acts = [] ∧ t = now ∧ r = x := by
  obtain ⟨rfl, hdone⟩ := Run.mk.inj h
  obtain ⟨rfl, rfl⟩ := Prod.mk.inj (Option.some.inj hdone)
  exact ⟨rfl, rfl, rfl⟩

/-- A sleep does nothing, for some time. -/
theorem ran_sleep_inv {d : Nat} {r : Except ε Unit} (h : Ran (sleep d) now log acts t r) :
    acts = [] ∧ t = now + d ∧ r = .ok () := by
  obtain ⟨rfl, hdone⟩ := Run.mk.inj h
  obtain ⟨rfl, rfl⟩ := Prod.mk.inj (Option.some.inj hdone)
  exact ⟨rfl, rfl, rfl⟩

/-- An end as a value is an end. -/
theorem ran_result_inv {m : Comp A δ α} {r : Except ε (Except δ α)}
    (h : Ran m.result now log acts t r) : ∃ x, r = .ok x ∧ Ran m now log acts t x := by
  obtain ⟨rfl, hdone⟩ := Run.mk.inj h
  obtain ⟨⟨t', x⟩, hm, hx⟩ := Option.map_eq_some_iff.mp hdone
  obtain ⟨rfl, rfl⟩ := Prod.mk.inj hx
  exact ⟨x, rfl, ran_of_done hm⟩

/-- **A run of two parts** is a run of the first one, and then of the second one, unless the first
one fails. -/
theorem Ran.bind_inv {m : Comp A ε α} {f : α → Comp A ε β} {r : Except ε β}
    (h : Ran (m >>= f) now log acts t r) :
    (∃ t' a before after, acts = before ++ after ∧ Ran m now log before t' (.ok a) ∧
      Ran (f a) t' (log ++ before) after t r) ∨
    ∃ e, Ran m now log acts t (.error e) ∧ r = .error e := by
  change (bind m f).run now log = _ at h
  simp only [bind] at h
  split at h
  · next t' a hdone =>
      obtain ⟨rfl, hnext⟩ := Run.mk.inj h
      exact .inl ⟨t', a, _, _, rfl, ran_of_done hdone, ran_of_done hnext⟩
  · next t' e hdone =>
      obtain ⟨rfl, hend⟩ := Run.mk.inj h
      obtain ⟨rfl, rfl⟩ := Prod.mk.inj (Option.some.inj hend)
      exact .inr ⟨e, ran_of_done hdone, rfl⟩
  · cases (Run.mk.inj h).2

/-- Time does not run backwards. -/
theorem Ran.le {m : Comp A ε α} {r : Except ε α} (h : Ran m now log acts t r) : now ≤ t :=
  m.le_done now log t r (congrArg Run.done h)

end Ran

/-! ### Ending in time -/

section EndsBy

variable {A ε δ α β : Type} {now T : Nat}

/-- Begun at `now` it ends by `T`, whatever the world does. -/
def EndsBy (now T : Nat) (m : Comp A ε α) : Prop :=
  ∀ log, ∃ t r, (m.run now log).done = some (t, r) ∧ t ≤ T

/-- A result that is at hand is in time. -/
theorem endsBy_ofExcept (h : now ≤ T) (r : Except ε α) :
    EndsBy now T (ofExcept r : Comp A ε α) := fun _ => ⟨now, r, rfl, h⟩

/-- A sleep ends after its time. -/
theorem endsBy_sleep (d : Nat) : EndsBy now (now + d) (sleep d : Comp A ε Unit) :=
  fun _ => ⟨now + d, .ok (), rfl, Nat.le_refl _⟩

/-- An end as a value is in time as well. -/
theorem EndsBy.result {m : Comp A δ α} (h : EndsBy now T m) :
    EndsBy now T (m.result : Comp A ε _) := by
  intro log
  obtain ⟨t, r, hdone, ht⟩ := h log
  exact ⟨t, .ok r, by simp [Comp.result, hdone], ht⟩

/-- A later deadline is kept as well. -/
theorem EndsBy.mono {m : Comp A ε α} {T' : Nat} (h : EndsBy now T m) (hle : T ≤ T') :
    EndsBy now T' m := by
  intro log
  obtain ⟨t, r, hdone, ht⟩ := h log
  exact ⟨t, r, hdone, Nat.le_trans ht hle⟩

/-- The second part begins when the first one ends. -/
theorem EndsBy.bind {m : Comp A ε α} {f : α → Comp A ε β} {T' : Nat} (h : EndsBy now T m)
    (hle : T ≤ T') (hf : ∀ t a, now ≤ t → t ≤ T → EndsBy t T' (f a)) :
    EndsBy now T' (m >>= f) := by
  intro log
  obtain ⟨t, r, hdone, ht⟩ := h log
  change ∃ t r, ((Timed.bind m f).run now log).done = some (t, r) ∧ t ≤ T'
  simp only [Timed.bind, hdone]
  cases r with
  | error e => exact ⟨t, _, rfl, Nat.le_trans ht hle⟩
  | ok a => exact hf t a (m.le_done _ _ _ _ hdone) ht _

/-- To look at the clock takes no time. -/
theorem endsBy_instant_bind {f : Nat → Comp A ε β} (h : EndsBy now T (f now)) :
    EndsBy now T (instant >>= f) := fun log => h (log ++ [])

/-- A deadline ends everything. -/
theorem endsBy_withinAt {deadline : Nat} (h : now ≤ deadline) (m : Comp A δ α) :
    EndsBy now deadline (withinAt deadline m : Comp A ε _) := by
  intro log
  simp only [withinAt, Nat.max_eq_right h]
  split
  · split
    · next hle => exact ⟨_, _, rfl, hle⟩
    · exact ⟨_, _, rfl, Nat.le_refl _⟩
  · exact ⟨_, _, rfl, Nat.le_refl _⟩

/-- A computation with a time for it ends in this time. -/
theorem endsBy_within (d : Nat) (m : Comp A δ α) :
    EndsBy now (now + d) (within d m : Comp A ε _) :=
  endsBy_instant_bind (endsBy_withinAt (Nat.le_add_right _ _) m)

/-- So does one with an error for this case. -/
theorem endsBy_timeout (d : Nat) (late : ε) (m : Comp A ε α) :
    EndsBy now (now + d) (timeout d late m) :=
  endsBy_instant_bind <| (endsBy_withinAt (Nat.le_add_right _ _) m).bind (Nat.le_refl _)
    fun _ _ _ ht => endsBy_ofExcept ht _

end EndsBy

/-! ### What is known of a computation -/

section Meets

variable {A ε δ α β χ : Type} {now : Nat} {does : A → Prop}

/-- Begun at `now`, all that it does is of a kind, and so is its end. -/
structure Meets (now : Nat) (does : A → Prop) (m : Comp A ε α)
    (ends : Nat → Except ε α → Prop) : Prop where
  acts : ∀ log, ∀ x ∈ (m.run now log).acts, does x.2
  done : ∀ log t r, (m.run now log).done = some (t, r) → ends t r

variable {m : Comp A ε α} {ends : Nat → Except ε α → Prop}

/-- What is known of a computation is known of every run of it that has ended. -/
theorem Meets.of_ran {log acts : List (Nat × A)} {t : Nat} {r : Except ε α}
    (h : Meets now does m ends) (hran : Ran m now log acts t r) :
    (∀ x ∈ acts, does x.2) ∧ ends t r := by
  have hacts := h.acts log
  rw [show m.run now log = _ from hran] at hacts
  exact ⟨hacts, h.done log t r (congrArg Run.done hran)⟩

/-- A result that is at hand does nothing. -/
theorem meets_ofExcept {r : Except ε α} (h : ends now r) :
    Meets now does (ofExcept r : Comp A ε α) ends := by
  constructor
  · intro log x hx
    cases hx
  · rintro log t r' ⟨⟩
    exact h

/-- An act does itself, and is answered arbitrarily. -/
theorem meets_act {a : A} {answer : Nat → List (Nat × A) → Option (Nat × Except ε α)}
    (ha : does a) (h : ∀ t r, now ≤ t → ends t r) : Meets now does (act a answer) ends := by
  constructor
  · intro log x hx
    obtain rfl := List.mem_singleton.mp hx
    exact ha
  · intro log t r hdone
    exact h t r ((act a answer).le_done _ _ _ _ hdone)

/-- A sleep does nothing. -/
theorem meets_sleep {d : Nat} {ends : Nat → Except ε Unit → Prop} (h : ends (now + d) (.ok ())) :
    Meets now does (sleep d : Comp A ε Unit) ends := by
  constructor
  · intro log x hx
    cases hx
  · rintro log t r ⟨⟩
    exact h

/-- The rule for an end as a value. -/
theorem Meets.result {ends' : Nat → Except δ (Except ε α) → Prop} (h : Meets now does m ends)
    (hends : ∀ t r, now ≤ t → ends t r → ends' t (.ok r)) :
    Meets now does (m.result : Comp A δ _) ends' := by
  refine ⟨h.acts, ?_⟩
  intro log t r hdone
  obtain ⟨⟨t', r'⟩, hm, hx⟩ := Option.map_eq_some_iff.mp hdone
  obtain ⟨rfl, rfl⟩ := Prod.mk.inj hx
  exact hends t' r' (m.le_done _ _ _ _ hm) (h.done _ _ _ hm)

/-- The rule for waiting: it ends with the first arrivals that settle the matter. -/
theorem meets_await {look : List χ → Option (Except ε α)} {arrivals : List (Nat × χ)}
    (h : ∀ t seen r, now ≤ t → look seen = some r →
      (∀ before x after, seen = before ++ x :: after → look before = none) → ends t r) :
    Meets now does (await look arrivals : Comp A ε α) ends := by
  constructor
  · intro log x hx
    cases hx
  · intro log t r hdone
    have hle := (await (A := A) look arrivals).le_done _ log _ _ hdone
    obtain ⟨⟨d, r'⟩, hsettled, hx⟩ := Option.map_eq_some_iff.mp hdone
    obtain ⟨-, rfl⟩ := Prod.mk.inj hx
    obtain ⟨more, hlook, hbefore⟩ := settled_eq_some hsettled
    exact h t more r' hle hlook hbefore

/-- **The rule for two parts.** -/
theorem Meets.bind {f : α → Comp A ε β} {ends' : Nat → Except ε β → Prop}
    (h : Meets now does m ends) (herror : ∀ t e, now ≤ t → ends t (.error e) → ends' t (.error e))
    (hok : ∀ t a, now ≤ t → ends t (.ok a) → Meets t does (f a) ends') :
    Meets now does (m >>= f) ends' := by
  constructor
  · intro log x hx
    rcases bind_acts hx with hx | ⟨t, a, hdone, hx⟩
    · exact h.acts log x hx
    · exact (hok t a (m.le_done _ _ _ _ hdone) (h.done _ _ _ hdone)).acts _ x hx
  · intro log t r hdone
    rcases bind_done hdone with ⟨t', a, hm, hf⟩ | ⟨e, hm, rfl⟩
    · exact (hok t' a (m.le_done _ _ _ _ hm) (h.done _ _ _ hm)).done _ _ _ hf
    · exact herror t e (m.le_done _ _ _ _ hm) (h.done _ _ _ hm)

/-- To look at the clock does nothing. -/
theorem meets_instant_bind {f : Nat → Comp A ε β} {ends : Nat → Except ε β → Prop}
    (h : Meets now does (f now) ends) : Meets now does (instant >>= f) ends := by
  have hinstant : Meets now does (instant : Comp A ε Nat) fun t r => t = now ∧ r = .ok now := by
    constructor
    · intro log x hx
      cases hx
    · rintro log t r ⟨⟩
      exact ⟨rfl, rfl⟩
  refine hinstant.bind ?_ ?_
  · rintro t e - ⟨-, he⟩
    cases he
  · rintro t a - ⟨rfl, ha⟩
    rwa [Except.ok.inj ha]

/-- **The rule for a deadline.** What is given up has done nothing else. -/
theorem Meets.withinAt (deadline : Nat) {ends' : Nat → Except δ (Option (Except ε α)) → Prop}
    (h : Meets now does m ends)
    (hdone : ∀ t r, now ≤ t → t ≤ max now deadline → ends t r → ends' t (.ok (some r)))
    (hlate : ends' (max now deadline) (.ok none)) :
    Meets now does (withinAt deadline m : Comp A δ _) ends' := by
  constructor
  · intro log x hx
    refine h.acts log x ?_
    simp only [Timed.withinAt] at hx
    split at hx
    · split at hx
      · exact hx
      · exact (List.takeWhile_subset _) hx
    · exact (List.takeWhile_subset _) hx
  · intro log t r hrun
    simp only [Timed.withinAt] at hrun
    split at hrun
    · next t' r' hm =>
        split at hrun
        · next hle =>
            obtain ⟨rfl, rfl⟩ := Prod.mk.inj (Option.some.inj hrun)
            exact hdone _ _ (m.le_done _ _ _ _ hm) hle (h.done _ _ _ hm)
        · obtain ⟨rfl, rfl⟩ := Prod.mk.inj (Option.some.inj hrun)
          exact hlate
    · obtain ⟨rfl, rfl⟩ := Prod.mk.inj (Option.some.inj hrun)
      exact hlate

/-- The rule for a time. -/
theorem Meets.within (d : Nat) {ends' : Nat → Except δ (Option (Except ε α)) → Prop}
    (h : Meets now does m ends)
    (hdone : ∀ t r, now ≤ t → t ≤ now + d → ends t r → ends' t (.ok (some r)))
    (hlate : ends' (now + d) (.ok none)) :
    Meets now does (within d m : Comp A δ _) ends' := by
  have hmax : max now (now + d) = now + d := Nat.max_eq_right (Nat.le_add_right _ _)
  refine meets_instant_bind (h.withinAt _ ?_ ?_)
  · rwa [hmax]
  · rwa [hmax]

/-- The rule for a deadline with a result for the late case. -/
theorem Meets.cutAt (deadline : Nat) {late : Except ε α} {ends' : Nat → Except ε α → Prop}
    (h : Meets now does m ends)
    (hdone : ∀ t r, now ≤ t → t ≤ max now deadline → ends t r → ends' t r)
    (hlate : ends' (max now deadline) late) : Meets now does (cutAt deadline late m) ends' := by
  have hwithin : Meets now does (Timed.withinAt deadline m : Comp A ε _) fun t r =>
      ∃ x, r = .ok x ∧ ends' t (x.getD late) := by
    refine h.withinAt deadline ?_ ⟨none, rfl, hlate⟩
    intro t r hnow ht hends
    exact ⟨some r, rfl, hdone t r hnow ht hends⟩
  refine hwithin.bind ?_ ?_
  · rintro t e - ⟨x, hx, -⟩
    cases hx
  · rintro t a - ⟨x, hx, hends⟩
    obtain rfl := Except.ok.inj hx
    exact meets_ofExcept hends

/-- The rule for a time with an error for the late case. -/
theorem Meets.timeout (d : Nat) {late : ε} {ends' : Nat → Except ε α → Prop}
    (h : Meets now does m ends) (hdone : ∀ t r, now ≤ t → t ≤ now + d → ends t r → ends' t r)
    (hlate : ends' (now + d) (.error late)) : Meets now does (timeout d late m) ends' := by
  have hmax : max now (now + d) = now + d := Nat.max_eq_right (Nat.le_add_right _ _)
  refine meets_instant_bind (h.cutAt _ ?_ ?_)
  · rwa [hmax]
  · rwa [hmax]

end Meets

end Timed
