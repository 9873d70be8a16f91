import Steamroids.PostLogin

/-!
# Many Calls at Once

Any number of calls run beside each other, on clones of one handle or coordinator. A call
shares with the others what has happened and who is there, and nothing else: each receiver
has its own place in the channel. A move of one call leaves the others where they are, so
what holds of one call in a `World` holds of each call in a `Crowd`: what a call sees of a
crowd's run is a run of its own world (`Crowd.exec_view`).

## Main results

* `World.Tracks.verdict`: a call that keeps up ends with the verdict on what was sent since it
  subscribed.
* `Crowd.exec_view`: what a call sees of a run of a crowd.
* `Crowd.tracks_of_subscribe`: each call of a crowd that keeps up stands as it would alone.
-/

namespace Steamroids

/-! ### One call -/

namespace World

variable {α β : Type} {C : Call α β} {caller : Party} {ch : Chan} {w w' : World β} {start : Nat}

/-- A call that subscribed at `start` has passed over nothing that decides, and if it had
success, that is the verdict. -/
inductive Tracks (C : Call α β) (start : Nat) (w : World β) : Prop
  | subscribed : w.call = .subscribed start → start ≤ (C.sent w.past).length → Tracks C start w
  | waiting {next : Nat} : w.call = .wait (.waiting next) → start ≤ next →
      next ≤ (C.sent w.past).length →
      (∀ j a, start ≤ j → j < next → (C.sent w.past)[j]? = some a → C.wait.judge a = none) →
      Tracks C start w
  | done {res : Except Error β} : w.call = .wait (.done res) →
      (∀ b, res = .ok b → C.wait.verdict ((C.sent w.past).drop start) = .ok b) → Tracks C start w

/-- What is sent later does not matter to a call that does not move. -/
theorem Tracks.others (h : Tracks C start w) (hcall : w'.call = w.call)
    (hpast : w.past <+: w'.past) : Tracks C start w' := by
  have hsent : C.sent w.past <+: C.sent w'.past := sent_mono hpast
  cases h with
  | subscribed hst hle => exact .subscribed (hcall.trans hst) (Nat.le_trans hle hsent.length_le)
  | waiting hst hstart hle hpassed =>
      refine .waiting (hcall.trans hst) hstart (Nat.le_trans hle hsent.length_le) ?_
      intro j a hj hlt ha
      refine hpassed j a hj hlt ?_
      obtain ⟨more, hmore⟩ := hsent
      rw [← hmore, List.getElem?_append_left (by omega)] at ha
      exact ha
  | done hst hok =>
      refine .done (hcall.trans hst) fun b hb => ?_
      obtain ⟨more, hmore⟩ := hsent
      have hverdict := hok b hb
      by_cases hle : start ≤ (C.sent w.past).length
      · rw [← hmore, List.drop_append_of_le_length hle]
        exact Channel.Wait.verdict_append_of_ok hverdict
      · rw [List.drop_eq_nil_of_le (by omega), Channel.Wait.verdict_of_forall nofun] at hverdict
        cases hverdict

/-- A call that is receiving has passed over everything since it subscribed. -/
theorem Tracks.passed {next : Nat} (h : Tracks C start w)
    (hcall : w.call = .wait (.waiting next)) :
    start ≤ next ∧ ∀ j a, start ≤ j → j < next → (C.sent w.past)[j]? = some a →
      C.wait.judge a = none := by
  cases h with
  | subscribed hst _ => simp [hcall] at hst
  | done hst _ => simp [hcall] at hst
  | @waiting next' hst hstart hle hpassed =>
      obtain rfl : next' = next := by simpa using hst.symm.trans hcall
      exact ⟨hstart, hpassed⟩

/-- The next value is passed over, or decides. -/
theorem Tracks.receive {next : Nat} {st : Channel.Stage β Error} (hstart : start ≤ next)
    (hpassed : ∀ j a, start ≤ j → j < next → (C.sent w.past)[j]? = some a →
      C.wait.judge a = none)
    (hlag : (C.sent w.past).length ≤ next + C.capacity)
    (hrecv : C.wait.receive C.capacity (C.sent w.past) true next = some st) :
    (∃ res, st = .done res ∧ C.wait.Awaits (C.sent w.past) start next res) ∨
      (st = .waiting (next + 1) ∧
        Tracks C start { w with call := .wait (.waiting (next + 1)) }) := by
  obtain ⟨hlt, -⟩ := Channel.Wait.receive_of_open hrecv
  obtain ⟨a, ha⟩ : ∃ a, (C.sent w.past)[next]? = some a := ⟨_, List.getElem?_eq_getElem hlt⟩
  rcases hjudge : C.wait.judge a with _ | res
  · rw [Channel.Wait.receive_of_other hlag ha hjudge] at hrecv
    obtain rfl := Option.some.inj hrecv
    refine .inr ⟨rfl, .waiting rfl (by omega) hlt ?_⟩
    intro j b hj hnext hb
    rcases Nat.lt_succ_iff_lt_or_eq.mp hnext with hbefore | rfl
    · exact hpassed j b hj hbefore hb
    · obtain rfl : a = b := Option.some.inj (ha.symm.trans hb)
      exact hjudge
  · have haw : C.wait.Awaits (C.sent w.past) next next res := by
      refine ⟨Nat.le_refl _, ⟨a, ha, hjudge⟩, ?_⟩
      intro j b hj hlt'
      omega
    rcases Channel.Wait.receive_of_awaited haw hlag with ⟨-, hdone⟩ | ⟨-, haw'⟩
    · obtain rfl := Option.some.inj (hrecv.symm.trans hdone)
      exact .inl ⟨res, rfl, hstart, haw.decides, hpassed⟩
    · have hle := haw'.le
      omega

/-- **Step lemma.** A call that keeps up has passed over everything sent since it subscribed. -/
theorem Tracks.step {m : Move} (hsends : C.opening.sends) (hholds : C.holds caller = true)
    (h : Tracks C start w) (hkeeps : KeepsUp C w m)
    (hstep : World.step C caller ch w m = some w') : Tracks C start w' := by
  cases step_makes hstep with
  | deed _ => exact h.others rfl (List.prefix_append _ _)
  | join _ => exact h.others rfl List.prefix_rfl
  | leave _ => exact h.others rfl List.prefix_rfl
  | @call c st hcaller hsteps =>
      have hopen : w.parties.any C.holds = true := List.any_eq_true.mpr ⟨caller, hcaller, hholds⟩
      generalize hcall : w.call = old at hsteps
      cases hsteps with
      | enter _ => cases h <;> simp_all
      | enterFailed e _ => exact .done rfl nofun
      | subscribe hst => rcases hst with rfl | rfl <;> cases h <;> simp_all
      | found hopening _ => simp [hopening, Opening.sends] at hsends
      | missed hopening _ => simp [hopening, Opening.sends] at hsends
      | @acked next emsg body _ _ =>
          cases h with
          | subscribed hst hle =>
              obtain rfl : start = next := by simpa using hst.symm.trans hcall
              refine .waiting rfl (Nat.le_refl _) hle ?_
              intro j a hj hlt
              omega
          | waiting hst _ _ _ => simp [hcall] at hst
          | done hst _ => simp [hcall] at hst
      | refused _ _ => exact .done rfl nofun
      | @receive next st hrecv =>
          rw [hopen] at hrecv
          obtain ⟨hstart, hpassed⟩ := h.passed hcall
          rcases Tracks.receive hstart hpassed (hkeeps rfl _ (.inr hcall)) hrecv with
            ⟨res, rfl, haw⟩ | ⟨rfl, htracks⟩
          · refine .done rfl fun b hb => ?_
            rw [Channel.Wait.verdict_of_awaited haw, hb]
          · exact htracks
      | @expire next st hexp =>
          obtain rfl := Channel.Wait.expire_eq hexp
          exact .done rfl nofun

/-- **A call that keeps up ends with the verdict** on what was sent since it subscribed. -/
theorem Tracks.verdict {c : CallMove} {next : Nat} {res : Except Error β}
    (hholds : C.holds caller = true) (h : Tracks C start w) (hkeeps : KeepsUp C w (.call c))
    (hcall : w.call = .wait (.waiting next))
    (hstep : World.step C caller ch w (.call c) = some { w with call := .wait (.done res) }) :
    res = C.wait.verdict ((C.sent w.past).drop start) := by
  obtain ⟨hstart, hpassed⟩ := h.passed hcall
  generalize hw : ({ w with call := .wait (.done res) } : World β) = w' at hstep
  cases step_makes hstep with
  | @call c st hcaller hsteps =>
      obtain rfl : CallStage.wait (.done res) = st := congrArg World.call hw
      have hopen : w.parties.any C.holds = true :=
        List.any_eq_true.mpr ⟨caller, hcaller, hholds⟩
      rw [hcall] at hsteps
      cases hsteps with
      | receive hrecv =>
          rw [hopen] at hrecv
          rcases Tracks.receive hstart hpassed (hkeeps rfl _ (.inr hcall)) hrecv with
            ⟨res', hres, haw⟩ | ⟨hnext, -⟩
          · obtain rfl : res = res' := by simpa using hres
            exact (Channel.Wait.verdict_of_awaited haw).symm
          · cases hnext
      | expire hexp =>
          have hall := Channel.Wait.length_le_of_expire hexp
          have hres : Except.error C.wait.timedOut = res := by
            simpa using (Channel.Wait.expire_eq hexp).symm
          rw [← hres, Channel.Wait.verdict_of_forall]
          intro a ha
          obtain ⟨j, hj, rfl⟩ := List.mem_iff_getElem.mp ha
          rw [List.length_drop] at hj
          refine hpassed (start + j) _ (by omega) (by omega) ?_
          rw [List.getElem_drop]
          exact List.getElem?_eq_getElem _

/-- **It comes to the verdict by its own moves.** Every receive leaves one value less. -/
theorem Tracks.ends {next : Nat} (hholds : C.holds caller = true) (hcaller : caller ∈ w.parties)
    (h : Tracks C start w) (hcall : w.call = .wait (.waiting next))
    (hlag : (C.sent w.past).length ≤ next + C.capacity) :
    ∃ cs : List CallMove, Ledger.exec (World.step C caller ch) w (cs.map .call) =
      some { w with call := .wait (.done (C.wait.verdict ((C.sent w.past).drop start))) } := by
  have hopen : w.parties.any C.holds = true := List.any_eq_true.mpr ⟨caller, hcaller, hholds⟩
  induction hleft : (C.sent w.past).length - next generalizing w next with
  | zero =>
      have hstep : World.step C caller ch w (.call .expire) =
          some { w with call := .wait (.done (.error C.wait.timedOut)) } :=
        step_expire hcaller hcall (hopen ▸ Channel.Wait.expire_of_le (by omega))
      refine ⟨[.expire], Ledger.exec_cons_eq_some.mpr ⟨_, hstep, ?_⟩⟩
      rw [Tracks.verdict (c := .expire) hholds h nofun hcall hstep]
      rfl
  | succ left ih =>
      have hlt : next < (C.sent w.past).length := by omega
      rcases hrecv : C.wait.receive C.capacity (C.sent w.past) (w.parties.any C.holds) next with
        _ | st
      · have hnone := Channel.length_le_of_recv_eq_none (Option.map_eq_none_iff.mp hrecv)
        omega
      have hstep : World.step C caller ch w (.call .receive) = some { w with call := .wait st } :=
        step_receive hcaller hcall hrecv
      rw [hopen] at hrecv
      obtain ⟨hstart, hpassed⟩ := h.passed hcall
      rcases Tracks.receive hstart hpassed hlag hrecv with ⟨res, rfl, haw⟩ | ⟨rfl, htracks⟩
      · refine ⟨[.receive], Ledger.exec_cons_eq_some.mpr ⟨_, hstep, ?_⟩⟩
        rw [Channel.Wait.verdict_of_awaited haw]
        rfl
      · obtain ⟨cs, hcs⟩ := ih (w := { w with call := .wait (.waiting (next + 1)) })
          hcaller htracks rfl (by simp only; omega) hopen (by simp only; omega)
        exact ⟨.receive :: cs, Ledger.exec_cons_eq_some.mpr ⟨_, hstep, hcs⟩⟩

/-- A call keeps up with as many messages as the channel holds. -/
theorem guarded_of_sent_le {ms : List Move}
    (h : Ledger.exec (World.step C caller ch) w ms = some w')
    (hle : (C.sent w'.past).length ≤ C.capacity) :
    Ledger.Guarded (World.step C caller ch) (KeepsUp C) w ms := by
  induction ms generalizing w with
  | nil => trivial
  | cons m ms ih =>
      have hsent : C.sent w.past <+: C.sent w'.past := sent_mono (exec_past h)
      obtain ⟨w₁, hstep, hrun⟩ := Ledger.exec_cons_eq_some.mp h
      refine ⟨?_, ?_⟩
      · intro _ next _
        exact Nat.le_trans (Nat.le_trans hsent.length_le hle) (Nat.le_add_left _ _)
      · intro w₂ hstep₂
        obtain rfl := Option.some.inj (hstep.symm.trans hstep₂)
        exact ih hrun

end World

/-! ### All the calls -/

/-- A call, the party that it is made on, and the channel of its notification. -/
structure Caller (α β : Type) where
  call : Call α β
  party : Party
  ch : Chan

/-- What has happened, who is there, and where each call stands. -/
structure Crowd (β : Type) where
  past : List Deed
  parties : List Party
  stages : List (CallStage β)
  deriving DecidableEq

/-- What can happen next. -/
inductive CrowdMove
  | deed (x : Deed)
  | join (p : Party)
  | leave (p : Party)
  /-- The `i`-th call makes a step. -/
  | call (i : Nat) (m : CallMove)
  deriving DecidableEq

/-- What the `i`-th call sees of a move. -/
def CrowdMove.seenBy (i : Nat) : CrowdMove → Option Move
  | .deed x => some (.deed x)
  | .join p => some (.join p)
  | .leave p => some (.leave p)
  | .call j m => if j = i then some (.call m) else none

namespace Crowd

variable {α β : Type}

/-- The world of a call that stands at `st`. -/
def view (w : Crowd β) (st : CallStage β) : World β := ⟨w.past, w.parties, st⟩

/-- A party may be dropped, unless a running call borrows it. -/
def mayLeave (cs : List (Caller α β)) (w : Crowd β) (p : Party) : Bool :=
  (cs.zip w.stages).all (fun x => World.mayLeave x.1.party (w.view x.2) p) &&
    decide (p = .driver → w.past.any Deed.isReturn)

/-- One move. -/
def step (cs : List (Caller α β)) (w : Crowd β) : CrowdMove → Option (Crowd β)
  | .deed x => if World.doer x ∈ w.parties then some { w with past := w.past ++ [x] } else none
  | .join p =>
      if p ≠ .driver ∧ w.parties.any (· ≠ .driver) then some { w with parties := p :: w.parties }
      else none
  | .leave p => if mayLeave cs w p then some { w with parties := w.parties.erase p } else none
  | .call i m =>
      match cs[i]?, w.stages[i]? with
      | some c, some st =>
          (World.step c.call c.party c.ch (w.view st) (.call m)).map fun v =>
            { w with stages := w.stages.set i v.call }
      | _, _ => none

variable {cs : List (Caller α β)} {c : Caller α β} {w w' : Crowd β} {i : Nat} {st : CallStage β}

/-- The `i`-th call makes the step that it would make alone. -/
theorem step_call {m : CallMove} (hc : cs[i]? = some c) (hst : w.stages[i]? = some st) :
    step cs w (.call i m) =
      (World.step c.call c.party c.ch (w.view st) (.call m)).map fun v =>
        { w with stages := w.stages.set i v.call } := by
  simp only [step, hc, hst]

/-- A step of a call changes where this call stands, and nothing else. -/
theorem step_of_call {m : CallMove} (h : step cs w (.call i m) = some w') :
    ∃ st, w' = { w with stages := w.stages.set i st } := by
  simp only [step] at h
  split at h
  · obtain ⟨v, -, rfl⟩ := Option.map_eq_some_iff.mp h
    exact ⟨v.call, rfl⟩
  · cases h

/-- **What one call sees of a move** is a move of its world, or nothing. -/
theorem step_view {m : CrowdMove} (hc : cs[i]? = some c) (hst : w.stages[i]? = some st)
    (h : step cs w m = some w') :
    ∃ st', w'.stages[i]? = some st' ∧
      Ledger.exec (World.step c.call c.party c.ch) (w.view st) (m.seenBy i).toList =
        some (w'.view st') := by
  cases m with
  | deed x | join p =>
      simp only [step] at h
      split at h
      · obtain rfl := Option.some.inj h
        exact ⟨st, hst, Ledger.exec_cons_eq_some.mpr ⟨_, if_pos ‹_›, rfl⟩⟩
      · cases h
  | leave p =>
      simp only [step] at h
      split at h
      · rename_i hmay
        obtain rfl := Option.some.inj h
        have hmem : (c, st) ∈ cs.zip w.stages :=
          List.mem_iff_getElem?.mpr ⟨i, by rw [List.getElem?_zip_eq_some]; exact ⟨hc, hst⟩⟩
        have hown := List.all_eq_true.mp (Bool.and_eq_true_iff.mp hmay).1 _ hmem
        exact ⟨st, hst, Ledger.exec_cons_eq_some.mpr ⟨_, if_pos hown, rfl⟩⟩
      · cases h
  | call j m =>
      by_cases hj : j = i
      · subst hj
        rw [step_call hc hst] at h
        obtain ⟨v, hv, rfl⟩ := Option.map_eq_some_iff.mp h
        have hlt : j < w.stages.length := (List.getElem?_eq_some_iff.mp hst).1
        refine ⟨v.call, List.getElem?_set_self hlt, ?_⟩
        rw [CrowdMove.seenBy, if_pos rfl]
        refine Ledger.exec_cons_eq_some.mpr ⟨v, hv, ?_⟩
        cases World.step_makes hv with
        | call _ _ => rfl
      · obtain ⟨st', rfl⟩ := step_of_call h
        refine ⟨st, (List.getElem?_set_ne hj).trans hst, ?_⟩
        rw [CrowdMove.seenBy, if_neg hj]
        rfl

/-- **What one call sees of a run** is a run of its world. -/
theorem exec_view {ms : List CrowdMove} (hc : cs[i]? = some c) (hst : w.stages[i]? = some st)
    (h : Ledger.exec (step cs) w ms = some w') :
    ∃ st', w'.stages[i]? = some st' ∧
      Ledger.exec (World.step c.call c.party c.ch) (w.view st)
        (ms.filterMap (CrowdMove.seenBy i)) = some (w'.view st') := by
  induction ms generalizing w st with
  | nil =>
      obtain rfl : w = w' := Option.some.inj h
      exact ⟨st, hst, rfl⟩
  | cons m ms ih =>
      obtain ⟨w₁, hstep, hrun⟩ := Ledger.exec_cons_eq_some.mp h
      obtain ⟨st₁, hst₁, hview⟩ := step_view hc hst hstep
      obtain ⟨st', hst', hviews⟩ := ih hst₁ hrun
      refine ⟨st', hst', ?_⟩
      have hsplit : (m :: ms).filterMap (CrowdMove.seenBy i) =
          (m.seenBy i).toList ++ ms.filterMap (CrowdMove.seenBy i) := by
        rw [List.filterMap_cons]
        cases m.seenBy i <;> rfl
      rw [hsplit]
      exact Ledger.exec_append_eq_some.mpr ⟨_, hview, hviews⟩

/-- A call can make its own moves in a crowd. -/
theorem exec_own {ms : List CallMove} {st' : CallStage β} (hc : cs[i]? = some c)
    (hst : w.stages[i]? = some st)
    (h : Ledger.exec (World.step c.call c.party c.ch) (w.view st) (ms.map .call) =
      some (w.view st')) :
    Ledger.exec (step cs) w (ms.map (.call i)) =
      some { w with stages := w.stages.set i st' } := by
  have hlt : i < w.stages.length := (List.getElem?_eq_some_iff.mp hst).1
  induction ms generalizing w st with
  | nil =>
      obtain rfl : st = st' := congrArg World.call (Option.some.inj h)
      obtain ⟨_, rfl⟩ := List.getElem?_eq_some_iff.mp hst
      rw [List.set_getElem_self]
      rfl
  | cons m ms ih =>
      obtain ⟨v, hv, hrun⟩ := Ledger.exec_cons_eq_some.mp h
      obtain ⟨st₁, rfl⟩ : ∃ st₁, v = w.view st₁ := by
        cases World.step_makes hv with
        | @call _ st₁ _ _ => exact ⟨st₁, rfl⟩
      have hstep : step cs w (.call i m) = some { w with stages := w.stages.set i st₁ } := by
        rw [step_call hc hst, hv]
        rfl
      refine Ledger.exec_cons_eq_some.mpr ⟨_, hstep, ?_⟩
      have hrest := ih (w := { w with stages := w.stages.set i st₁ })
        (List.getElem?_set_self hlt) hrun (by rwa [List.length_set])
      rwa [List.set_set] at hrest

/-- **A call that keeps up, since it subscribed**, has passed over nothing that decides, and
the party that it is made on is still there. -/
theorem tracks_of_subscribe {ms : List CrowdMove} {w₀ w₁ : Crowd β} (hc : cs[i]? = some c)
    (hsends : c.call.opening.sends) (hholds : c.call.holds c.party = true)
    (hsub : step cs w₀ (.call i .subscribe) = some w)
    (hrun : Ledger.exec (step cs) w ms = some w₁)
    (hkeeps : Ledger.Guarded (World.step c.call c.party c.ch) (World.KeepsUp c.call)
      (w.view (.subscribed (c.call.sent w₀.past).length)) (ms.filterMap (CrowdMove.seenBy i))) :
    ∃ st, w₁.stages[i]? = some st ∧
      World.Tracks c.call (c.call.sent w₀.past).length (w₁.view st) ∧
      World.Borrowed c.party (w₁.view st) := by
  obtain ⟨st₀, hst₀⟩ : ∃ st₀, w₀.stages[i]? = some st₀ := by
    simp only [step, hc] at hsub
    cases hst₀ : w₀.stages[i]? with
    | none => simp [hst₀] at hsub
    | some st₀ => exact ⟨st₀, rfl⟩
  have hlt : i < w₀.stages.length := (List.getElem?_eq_some_iff.mp hst₀).1
  rw [step_call hc hst₀] at hsub
  obtain ⟨v, hv, rfl⟩ := Option.map_eq_some_iff.mp hsub
  cases World.step_makes hv with
  | call hcaller hsteps =>
      cases hsteps with
      | subscribe _ =>
          obtain ⟨st, hst, hviews⟩ := exec_view hc (List.getElem?_set_self hlt) hrun
          refine ⟨st, hst, ?_, ?_⟩
          · refine Ledger.exec_invariant_of_guarded ?_ hviews hkeeps
              (.subscribed rfl (Nat.le_refl _))
            intro v m v' htracks hm hstep
            exact htracks.step hsends hholds hm hstep
          · refine Ledger.exec_invariant ?_ hviews fun _ => hcaller
            intro v m v' hborrowed hstep
            exact hborrowed.step hstep

end Crowd

end Steamroids
