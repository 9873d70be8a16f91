/-!
# Attempts One After the Other

A loop makes attempts in a given order, and stops at the first one whose outcome settles the matter;
if none does, it makes them all. Either way its result is the outcome of the last attempt that it
made. `StopsAtFirst` says so of the attempts offered and the attempts made, and `loop` is the
program.

## Main results

* `stopsAtFirst_loop`: which attempts the loop makes.
* `getLast?_loop`: what its result is.
* `loop_of_settles`: nothing is attempted after an outcome that settles the matter.
-/

namespace Attempts

universe u v

variable {α : Type u} {ρ : Type v} {settles : α → Bool}

/-- Of the attempts offered these are made: in order, none after one that settles the matter, and
all of them if none does. -/
structure StopsAtFirst (settles : α → Bool) (offered made : List α) : Prop where
  isPrefix : made <+: offered
  before : ∀ a ∈ made.dropLast, settles a = false
  exhausted : (∀ a ∈ made, settles a = false) → made = offered

/-- An attempt that does not settle is made, and the next one follows it. -/
theorem StopsAtFirst.cons {offered made : List α} {a : α} (h : StopsAtFirst settles offered made)
    (ha : settles a = false) : StopsAtFirst settles (a :: offered) (a :: made) := by
  refine ⟨(List.prefix_cons_inj a).mpr h.isPrefix, ?_, ?_⟩
  · intro b hb
    by_cases hnil : made = []
    · simp [hnil] at hb
    · rw [List.dropLast_cons_of_ne_nil hnil] at hb
      rcases List.mem_cons.mp hb with rfl | hb
      · exact ha
      · exact h.before b hb
  · intro hall
    rw [h.exhausted fun b hb => hall b (List.mem_cons_of_mem a hb)]

/-- An attempt that settles the matter is the last one made. -/
theorem StopsAtFirst.after_eq_nil {offered before after : List α} {a : α}
    (h : StopsAtFirst settles offered (before ++ a :: after)) (ha : settles a = true) :
    after = [] := by
  cases after with
  | nil => rfl
  | cons b bs =>
      have hmem : a ∈ (before ++ a :: b :: bs).dropLast := by
        rw [List.dropLast_append_of_ne_nil (List.cons_ne_nil _ _), List.dropLast_cons_cons]
        simp
      rw [h.before a hmem] at ha
      cases ha

/-- The loop, with the outcome of the last attempt: the attempts made, and the result. -/
def loop (outcome : α → ρ) (settles : ρ → Bool) (last : ρ) : List α → List α × ρ
  | [] => ([], last)
  | a :: as =>
      if settles (outcome a) then
        ([a], outcome a)
      else
        let r := loop outcome settles (outcome a) as
        (a :: r.1, r.2)

section Loop

variable {outcome : α → ρ} {settles : ρ → Bool} {last : ρ} {as : List α}

/-- The loop makes its attempts in order, up to the first that settles. -/
theorem stopsAtFirst_loop :
    StopsAtFirst (fun a => settles (outcome a)) as (loop outcome settles last as).1 := by
  induction as generalizing last with
  | nil => exact ⟨List.prefix_rfl, by simp [loop], fun _ => rfl⟩
  | cons a as ih =>
      cases ha : settles (outcome a) with
      | true =>
          simp only [loop, ha, if_true]
          refine ⟨⟨as, rfl⟩, by simp, fun h => ?_⟩
          rw [h a (List.mem_singleton_self a)] at ha
          cases ha
      | false =>
          simp only [loop, ha, Bool.false_eq_true, if_false]
          exact ih.cons ha

/-- The result is the outcome of the last attempt. -/
theorem getLast?_loop (h : as ≠ []) :
    ∃ a, (loop outcome settles last as).1.getLast? = some a ∧
      (loop outcome settles last as).2 = outcome a := by
  induction as generalizing last with
  | nil => exact absurd rfl h
  | cons a as ih =>
      cases ha : settles (outcome a) with
      | true => exact ⟨a, by simp [loop, ha], by simp [loop, ha]⟩
      | false =>
          simp only [loop, ha, Bool.false_eq_true, if_false]
          rcases as with _ | ⟨b, bs⟩
          · exact ⟨a, rfl, rfl⟩
          · obtain ⟨c, hlast, hres⟩ := @ih (outcome a) (List.cons_ne_nil b bs)
            exact ⟨c, by rw [List.getLast?_cons, hlast]; rfl, hres⟩

/-- Nothing is attempted after an outcome that settles the matter. -/
theorem loop_of_settles {before after : List α} {a : α}
    (h : (loop outcome settles last as).1 = before ++ a :: after)
    (ha : settles (outcome a) = true) :
    after = [] ∧ (loop outcome settles last as).2 = outcome a := by
  have hstop : StopsAtFirst (fun a => settles (outcome a)) as (before ++ a :: after) :=
    h ▸ stopsAtFirst_loop
  obtain rfl := hstop.after_eq_nil ha
  have hne : as ≠ [] := by
    rintro rfl
    simp [loop] at h
  obtain ⟨b, hlast, hres⟩ := @getLast?_loop α ρ outcome settles last as hne
  rw [h, List.getLast?_concat, Option.some.injEq] at hlast
  exact ⟨rfl, hlast ▸ hres⟩

end Loop

end Attempts
