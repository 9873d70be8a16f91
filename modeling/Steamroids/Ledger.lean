import Mathlib.Data.List.Induction

/-!
# Runs and Append-Only Ledgers

A state machine is a partial step function `step : σ → ι → Option σ`: the inputs are the
choices of the environment, and `none` means that the input is not possible in that
state. `exec` feeds it a list of inputs. The rules below turn a fact about one step into
a fact about every run, which is the only way runs are reasoned about downstream.

A machine that keeps an append-only ledger of what it did is judged by that ledger. The
statements about order ("this was done before that") all have one form: each entry is
justified by the entries in front of it (`Justified`).

## Main results

* `exec_invariant`: a property kept by every step holds after every run.
* `exec_invariant_of_guarded`: the same for the runs whose steps all meet a condition.
* `trail_length_le`: how many steps of a kind a run makes on one budget.
* `justified_append_singleton`: a ledger is extended by one entry by justifying that entry.
-/

namespace Ledger

section Runs

variable {σ ι : Type*} {step : σ → ι → Option σ}

/-- Feed the inputs `is` to the machine `step`, one after the other, from `s`. -/
def exec (step : σ → ι → Option σ) (s : σ) (is : List ι) : Option σ :=
  is.foldlM step s

/-- No input changes nothing. -/
@[simp] theorem exec_nil (s : σ) : exec step s [] = some s := rfl

/-- The first input comes first. -/
theorem exec_cons (s : σ) (i : ι) (is : List ι) :
    exec step s (i :: is) = (step s i).bind fun s' => exec step s' is := rfl

/-- A run over `i :: is` is a step followed by a run over `is`. -/
theorem exec_cons_eq_some {s s' : σ} {i : ι} {is : List ι} :
    exec step s (i :: is) = some s' ↔
      ∃ m, step s i = some m ∧ exec step m is = some s' := by
  rw [exec_cons, Option.bind_eq_some_iff]

/-- A run over `is ++ js` is a run over `is` followed by a run over `js`. -/
theorem exec_append_eq_some {s s' : σ} {is js : List ι} :
    exec step s (is ++ js) = some s' ↔
      ∃ m, exec step s is = some m ∧ exec step m js = some s' := by
  induction is generalizing s with
  | nil => simp
  | cons i is ih =>
      simp only [List.cons_append, exec_cons_eq_some, ih]
      constructor
      · rintro ⟨m, hm, m', hm', hs⟩
        exact ⟨m', ⟨m, hm, hm'⟩, hs⟩
      · rintro ⟨m', ⟨m, hm, hm'⟩, hs⟩
        exact ⟨m, hm, m', hm', hs⟩

/-- Every step of the run over `is` from `s` meets the condition `cond`. -/
def Guarded (step : σ → ι → Option σ) (cond : σ → ι → Prop) : σ → List ι → Prop
  | _, [] => True
  | s, i :: is => cond s i ∧ ∀ s', step s i = some s' → Guarded step cond s' is

/-- **Invariant rule.** What every step that meets a condition keeps holds after every run whose
steps all meet it. -/
theorem exec_invariant_of_guarded {cond : σ → ι → Prop} {I : σ → Prop}
    (hstep : ∀ s i s', I s → cond s i → step s i = some s' → I s')
    {s s' : σ} {is : List ι} (h : exec step s is = some s')
    (hg : Guarded step cond s is) (hs : I s) : I s' := by
  induction is generalizing s with
  | nil =>
      obtain rfl : s = s' := Option.some.inj h
      exact hs
  | cons i is ih =>
      obtain ⟨m, hm, hrun⟩ := exec_cons_eq_some.mp h
      exact ih hrun (hg.2 m hm) (hstep s i m hs hg.1 hm)

/-- Inputs that meet the condition in every state. -/
theorem guarded_of_forall {cond : σ → ι → Prop} {s : σ} {is : List ι}
    (h : ∀ i ∈ is, ∀ s, cond s i) : Guarded step cond s is := by
  induction is generalizing s with
  | nil => trivial
  | cons i is ih =>
      obtain ⟨hi, his⟩ := List.forall_mem_cons.mp h
      exact ⟨hi s, fun s' _ => ih his⟩

/-- **Invariant rule.** What every step keeps holds after every run. -/
theorem exec_invariant {I : σ → Prop}
    (hstep : ∀ s i s', I s → step s i = some s' → I s')
    {s s' : σ} {is : List ι} (h : exec step s is = some s') (hs : I s) : I s' := by
  have hg : Guarded step (fun _ _ => True) s is := guarded_of_forall fun _ _ _ => trivial
  exact exec_invariant_of_guarded (fun s i s' hs _ => hstep s i s' hs) h hg hs

/-- A guarded run is guarded on both sides of every moment. -/
theorem guarded_append {cond : σ → ι → Prop} {s : σ} {is js : List ι} :
    Guarded step cond s (is ++ js) ↔
      Guarded step cond s is ∧ ∀ e, exec step s is = some e → Guarded step cond e js := by
  induction is generalizing s with
  | nil => simp [Guarded]
  | cons i is ih =>
      simp only [List.cons_append, Guarded, ih, exec_cons_eq_some]
      constructor
      · rintro ⟨hcond, hrest⟩
        refine ⟨⟨hcond, fun m hm => (hrest m hm).1⟩, ?_⟩
        rintro e ⟨m, hm, hrun⟩
        exact (hrest m hm).2 e hrun
      · rintro ⟨⟨hcond, hleft⟩, hright⟩
        exact ⟨hcond, fun m hm => ⟨hleft m hm, fun e hrun => hright e ⟨m, hm, hrun⟩⟩⟩

/-- Every step of a guarded run meets its condition. -/
theorem Guarded.cond {cond : σ → ι → Prop} {s e : σ} {is js : List ι} {i : ι}
    (hg : Guarded step cond s (is ++ i :: js)) (h : exec step s is = some e) : cond e i :=
  ((guarded_append.mp hg).2 e h).1

/-! ### What a run leaves behind -/

variable {ν : Type*}

/-- What `note` writes down of the steps of a run, up to the first input that is not
possible. -/
def trail (step : σ → ι → Option σ) (note : σ → ι → σ → Option ν) : σ → List ι → List ν
  | _, [] => []
  | s, i :: is =>
      match step s i with
      | none => []
      | some s' => (note s i s').toList ++ trail step note s' is

/-- An impossible input leaves nothing behind. -/
theorem trail_cons_of_none {note : σ → ι → σ → Option ν} {s : σ} {i : ι} {is : List ι}
    (h : step s i = none) : trail step note s (i :: is) = [] := by
  rw [trail, h]

/-- A step is written down in front of what follows. -/
theorem trail_cons_of_some {note : σ → ι → σ → Option ν} {s s' : σ} {i : ι} {is : List ι}
    (h : step s i = some s') :
    trail step note s (i :: is) = (note s i s').toList ++ trail step note s' is := by
  rw [trail, h]

section Budget

variable {cond : σ → ι → Prop} {note : σ → ι → σ → Option ν} {left : σ → Nat} {cap : Nat}
  {resets : ν → Prop}

/-- A stretch that begins with the run is paid from what is left there. -/
theorem trail_first_length_le
    (hnone : ∀ s i s', cond s i → step s i = some s' → note s i s' = none → left s' ≤ left s)
    (hsome : ∀ s i s' v, cond s i → step s i = some s' → note s i s' = some v → ¬ resets v →
      left s' + 1 ≤ left s)
    {s : σ} {is : List ι} (hg : Guarded step cond s is) {mid : List ν}
    (hmid : mid <+: trail step note s is) (hresets : ∀ v ∈ mid, ¬ resets v) :
    mid.length ≤ left s := by
  induction is generalizing s mid with
  | nil =>
      rw [List.prefix_nil.mp hmid]
      exact Nat.zero_le _
  | cons i is ih =>
      rcases hs : step s i with _ | s'
      · rw [trail_cons_of_none hs] at hmid
        rw [List.prefix_nil.mp hmid]
        exact Nat.zero_le _
      rw [trail_cons_of_some hs] at hmid
      rcases hv : note s i s' with _ | v
      · rw [hv] at hmid
        exact Nat.le_trans (ih (hg.2 s' hs) hmid hresets) (hnone s i s' hg.1 hs hv)
      · rw [hv] at hmid
        rcases List.prefix_cons_iff.mp hmid with rfl | ⟨mid', rfl, hmid'⟩
        · exact Nat.zero_le _
        obtain ⟨hnot, hresets'⟩ := List.forall_mem_cons.mp hresets
        have hrest := ih (hg.2 s' hs) hmid' hresets'
        have hpaid := hsome s i s' v hg.1 hs hv hnot
        rw [List.length_cons]
        omega

/-- **Budget rule.** A step that is written down costs one of `left`, and a step that is not
never adds to it, except that some entries set it anew to at most `cap`. Then a stretch of
the trail without such entries is no longer than `cap`. -/
theorem trail_length_le (hcap : ∀ s, left s ≤ cap)
    (hnone : ∀ s i s', cond s i → step s i = some s' → note s i s' = none → left s' ≤ left s)
    (hsome : ∀ s i s' v, cond s i → step s i = some s' → note s i s' = some v → ¬ resets v →
      left s' + 1 ≤ left s)
    {s : σ} {is : List ι} (hg : Guarded step cond s is) {mid : List ν}
    (hmid : mid <:+: trail step note s is) (hresets : ∀ v ∈ mid, ¬ resets v) :
    mid.length ≤ cap := by
  induction is generalizing s with
  | nil =>
      rw [List.infix_nil.mp hmid]
      exact Nat.zero_le _
  | cons i is ih =>
      rcases hs : step s i with _ | s'
      · rw [trail_cons_of_none hs] at hmid
        rw [List.infix_nil.mp hmid]
        exact Nat.zero_le _
      have htrail := @trail_cons_of_some σ ι step ν note s s' i is hs
      rcases hv : note s i s' with _ | v
      · rw [htrail, hv] at hmid
        exact ih (hg.2 s' hs) hmid
      · rw [hv] at htrail
        rcases List.infix_cons_iff.mp (htrail ▸ hmid) with hpre | hrest
        · exact Nat.le_trans (trail_first_length_le hnone hsome hg (htrail ▸ hpre) hresets)
            (hcap s)
        · exact ih (hg.2 s' hs) hrest

end Budget

end Runs

section Entries

variable {ε : Type*} {P : List ε → ε → Prop}

/-- Entries of a kind that occurs at most once are equal. -/
theorem eq_of_countP_le_one {p : ε → Bool} {log : List ε} (h : log.countP p ≤ 1) {a b : ε}
    (ha : a ∈ log) (hb : b ∈ log) (hpa : p a) (hpb : p b) : a = b := by
  have ha' : a ∈ log.filter p := List.mem_filter.mpr ⟨ha, hpa⟩
  have hb' : b ∈ log.filter p := List.mem_filter.mpr ⟨hb, hpb⟩
  rw [List.countP_eq_length_filter] at h
  rcases hf : log.filter p with _ | ⟨c, _ | ⟨c', cs⟩⟩
  · simp [hf] at ha'
  · rw [hf, List.mem_singleton] at ha' hb'
    exact ha'.trans hb'.symm
  · simp [hf] at h

/-- Each entry of the ledger is justified, in the sense of `P`, by the entries before
it. -/
def Justified (P : List ε → ε → Prop) (log : List ε) : Prop :=
  ∀ pre e post, log = pre ++ e :: post → P pre e

/-- The empty ledger is justified. -/
theorem justified_nil : Justified P ([] : List ε) := by
  intro pre e post h
  simp at h

/-- The past of a justified ledger is justified. -/
theorem Justified.past {log p : List ε} (h : Justified P log) (hp : p <+: log) :
    Justified P p := by
  obtain ⟨q, rfl⟩ := hp
  rintro pre e post rfl
  exact h pre e (post ++ q) (by simp)

/-- Appending one entry asks for the justification of that entry. -/
theorem justified_append_singleton {log : List ε} {e : ε} :
    Justified P (log ++ [e]) ↔ Justified P log ∧ P log e := by
  constructor
  · intro h
    refine ⟨?_, h log e [] rfl⟩
    rintro pre a post rfl
    exact h pre a (post ++ [e]) (by simp)
  · rintro ⟨hlog, he⟩ pre a post h
    rcases List.eq_nil_or_concat post with rfl | ⟨post', b, rfl⟩
    · obtain ⟨rfl, hae⟩ := List.append_inj' h rfl
      obtain rfl : e = a := by simpa using hae
      exact he
    · have h' : log ++ [e] = (pre ++ a :: post') ++ [b] := by
        rw [h]
        simp
      obtain ⟨rfl, -⟩ := List.append_inj' h' rfl
      exact hlog pre a post' rfl

/-- Appending a block of entries asks for the justification of each of them, in front of
the block's own earlier entries. -/
theorem justified_append {log es : List ε} :
    Justified P (log ++ es) ↔
      Justified P log ∧ ∀ pre e post, es = pre ++ e :: post → P (log ++ pre) e := by
  induction es using List.reverseRecOn with
  | nil => simp
  | append_singleton es a ih =>
      rw [← List.append_assoc, justified_append_singleton, ih]
      constructor
      · rintro ⟨⟨hlog, hes⟩, ha⟩
        refine ⟨hlog, ?_⟩
        have key : Justified (fun pre e => P (log ++ pre) e) (es ++ [a]) :=
          justified_append_singleton.mpr ⟨hes, ha⟩
        exact key
      · rintro ⟨hlog, hes⟩
        have key : Justified (fun pre e => P (log ++ pre) e) (es ++ [a]) := hes
        obtain ⟨h1, h2⟩ := justified_append_singleton.mp key
        exact ⟨⟨hlog, h1⟩, h2⟩

end Entries

end Ledger
