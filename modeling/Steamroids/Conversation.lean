import Mathlib.Data.List.Induction

/-!
# Conversations

A client makes calls, one after the other, and each answer either lets it go on or ends the
conversation with a result. A conversation is the list of calls that were made, with their answers,
and the result or the value that the client goes on with. Conversations are put together with
`andThen`.

A conversation that has ended is disciplined if it went on after good answers only, and if a last
answer that is not good has decided. Disciplined conversations are built from their end, one
stretch of good answers after the other.

## Main results

* `Disciplined.append`: good answers before a disciplined conversation.
* `disciplined_single`: a conversation of one call.
-/

namespace Conversation

variable {κ ρ α β : Type*}

/-- The calls made, and the result, or else what the client goes on with. -/
abbrev Talk (κ ρ α : Type*) := List κ × (ρ ⊕ α)

/-- Go on, unless there is a result. -/
def andThen (t : Talk κ ρ α) (next : α → Talk κ ρ β) : Talk κ ρ β :=
  match t.2 with
  | .inl r => (t.1, .inl r)
  | .inr a => (t.1 ++ (next a).1, (next a).2)

/-- A conversation that has ended does not go on. -/
@[simp] theorem andThen_inl (calls : List κ) (r : ρ) (next : α → Talk κ ρ β) :
    andThen (calls, .inl r) next = (calls, .inl r) := rfl

/-- The calls of what follows come behind those made so far. -/
@[simp] theorem andThen_inr (calls : List κ) (a : α) (next : α → Talk κ ρ β) :
    andThen (calls, .inr a) next = (calls ++ (next a).1, (next a).2) := rfl

/-- A call whose answer is not good is the last one, and decides. -/
structure Disciplined (good : κ → Prop) (verdict : κ → ρ → Prop) (calls : List κ) (r : ρ) :
    Prop where
  goesOn : ∀ pre c post, calls = pre ++ c :: post → post ≠ [] → good c
  decided : ∀ c, calls.getLast? = some c → ¬ good c → verdict c r

variable {good : κ → Prop} {verdict : κ → ρ → Prop} {r : ρ}

/-- Nothing is said. -/
theorem disciplined_nil : Disciplined good verdict [] r := by
  constructor
  · intro pre c post h
    simp at h
  · intro c h
    cases h

/-- One call, which decides unless it is good. -/
theorem disciplined_single {c : κ} (h : ¬ good c → verdict c r) :
    Disciplined good verdict [c] r := by
  constructor
  · intro pre c' post hsplit hpost
    rcases pre with _ | ⟨a, pre⟩
    · exact absurd (List.cons.inj hsplit).2.symm hpost
    · have := (List.cons.inj hsplit).2
      simp at this
  · intro c' hc'
    obtain rfl : c = c' := Option.some.inj hc'
    exact h

/-- **Good answers may come before a disciplined conversation.** -/
theorem Disciplined.append {pre calls : List κ} (hpre : ∀ c ∈ pre, good c)
    (h : Disciplined good verdict calls r) : Disciplined good verdict (pre ++ calls) r := by
  constructor
  · intro pre' c post hsplit hpost
    rcases List.append_eq_append_iff.mp hsplit with ⟨mid, rfl, hright⟩ | ⟨mid, hleft, hright⟩
    · exact h.goesOn mid c post hright hpost
    · rcases mid with _ | ⟨c', mid⟩
      · exact h.goesOn [] c post hright.symm hpost
      · obtain ⟨rfl, -⟩ := List.cons.inj hright
        exact hpre c (by simp [hleft])
  · intro c hc hbad
    rw [List.getLast?_append] at hc
    rcases hlast : calls.getLast? with _ | c'
    · rw [hlast] at hc
      exact absurd (hpre c (List.mem_of_getLast? hc)) hbad
    · rw [hlast] at hc
      obtain rfl : c' = c := Option.some.inj hc
      exact h.decided c' hlast hbad

/-- A good call in front of a disciplined conversation. -/
theorem Disciplined.cons {c : κ} {calls : List κ} (hc : good c)
    (h : Disciplined good verdict calls r) : Disciplined good verdict (c :: calls) r :=
  Disciplined.append (List.forall_mem_singleton.mpr hc) h

end Conversation
