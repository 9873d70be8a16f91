import Steamroids.Jwt
import Steamroids.Ledger

/-!
# Signing In With a Token Store

`SignIn::execute_with_store` (`auth/signin.rs`) reuses the refresh token that a caller's store
holds for the account, and falls back to the password flow if there is none or it is unusable.
Either way it saves the token that it ends up with. A token that was issued is new, but one
that was reused is the one that was loaded: `execute_refresh_token_flow` returns it unchanged.

Any number of calls for one account run beside each other, on a store whose `load` and `save`
are atomic. A call that has loaded a token writes it back later, and puts it over whatever was
saved meanwhile (`issued_token_lost`).

## Main results

* `SignIns.Settled.step`, `SignIns.settled_of_guarded`: every token issued since a call loaded
  the one that it can still save is that one, if none is saved beside a call with another.
* `issued_token_kept`: then no issued token is lost; and otherwise one can be.
-/

namespace Steamroids

/-! ### The refresh-token flow -/

/-- Outcome of a sign-in. -/
inductive SignInOutcome
  | success (steamId : UInt64) (refreshToken : String) (accessToken : Option String)
  | needsMobileGuardCode
  | guardCodeRejected
  | needsEmailGuardCode (emailDomain : String)
  | invalidCredentials
  | tokenRejected
  | rateLimited (retryHint : Option Nat)
  deriving DecidableEq, Repr

/-- Seconds of slack so a token about to expire is not treated as still valid. -/
def tokenExpirySlackSecs : Nat := 60

/-- Validate a refresh token locally and hand it back, at the time `now`. -/
def executeRefreshTokenFlow (J : JwtCode) (now : UInt64)
    (token : String) : Except Error SignInOutcome :=
  match refreshTokenClaims J token with
  | .error e => .error e
  | .ok c =>
      if c.exp.any fun exp => exp.toNat - tokenExpirySlackSecs ≤ now.toNat then .ok .tokenRejected
      else .ok (.success c.steamId token none)

/-! ### One call -/

/-- Where a call of `execute_with_store` stands, from a password builder. -/
inductive SignInStage
  | start
  /-- The store held this token. -/
  | loaded (token : String)
  /-- The stored token is good, and is to be saved. -/
  | reusing (steamId : UInt64) (token : String) (accessToken : Option String)
  /-- The password flow runs. -/
  | password
  /-- The password flow issued this token, which is to be saved. -/
  | issued (steamId : UInt64) (token : String) (accessToken : Option String)
  | done (res : Except Error SignInOutcome)
  deriving DecidableEq

/-- What a call does next. A `load` or `save` may fail, with the text of its error. -/
inductive SignInMove
  | load (failure : Option String)
  | check (now : UInt64)
  /-- The password flow ends. -/
  | password (res : Except Error SignInOutcome)
  | save (failure : Option String)
  deriving DecidableEq

/-- The call can still save the stored token `x` that it loaded: it has accepted `x`, or may
accept it yet. -/
def SignInStage.MayReuse (J : JwtCode) (x : String) :
    SignInStage → Prop
  | .loaded token =>
      token = x ∧ ∃ now steamId, executeRefreshTokenFlow J now x = .ok (.success steamId x none)
  | .reusing _ token _ => token = x
  | _ => False

/-! ### Any number of calls -/

/-- What happens at the store. -/
inductive StoreEvent
  | loaded (call : Nat) (token : String)
  /-- A call saves the token that it was issued. -/
  | issued (call : Nat) (token : String)
  /-- A call saves the token that it loaded. -/
  | reused (call : Nat) (token : String)
  deriving DecidableEq

/-- The stored token of one account, the calls for it, and what has happened at the store. -/
structure SignIns where
  store : Option String
  calls : List SignInStage
  log : List StoreEvent
  deriving DecidableEq

namespace SignIns

/-- The calls begin, on a store with this content. -/
def begin (store : Option String) (n : Nat) : SignIns :=
  ⟨store, List.replicate n .start, []⟩

/-- Call `i` goes on to `st`. -/
def goto (s : SignIns) (i : Nat) (st : SignInStage) : SignIns :=
  { s with calls := s.calls.set i st }

/-- The end of a save. -/
def save (s : SignIns) (i : Nat) (outcome : SignInOutcome) (token : String) (e : StoreEvent) :
    Option String → SignIns
  | none =>
      { store := some token, calls := s.calls.set i (.done (.ok outcome)), log := s.log ++ [e] }
  | some failure => s.goto i (.done (.error (.tokenStore failure)))

/-- One step of call `i`. -/
def step (J : JwtCode) (s : SignIns) (x : Nat × SignInMove) :
    Option SignIns :=
  match s.calls[x.1]?, x.2 with
  | some .start, .load (some failure) =>
      some (s.goto x.1 (.done (.error (.tokenStore failure))))
  | some .start, .load none =>
      match s.store with
      | none => some (s.goto x.1 .password)
      | some token =>
          some { s with
            calls := s.calls.set x.1 (.loaded token)
            log := s.log ++ [.loaded x.1 token] }
  | some (.loaded token), .check now =>
      match executeRefreshTokenFlow J now token with
      | .ok (.success steamId token access) => some (s.goto x.1 (.reusing steamId token access))
      | .ok .tokenRejected => some (s.goto x.1 .password)
      | .ok other => some (s.goto x.1 (.done (.ok other)))
      -- a stored token that does not decode is treated as stale
      | .error (.authRejected _) => some (s.goto x.1 .password)
      | .error e => some (s.goto x.1 (.done (.error e)))
  | some (.reusing steamId token access), .save failure =>
      some (s.save x.1 (.success steamId token access) token (.reused x.1 token) failure)
  | some .password, .password (.ok (.success steamId token access)) =>
      some (s.goto x.1 (.issued steamId token access))
  | some .password, .password res => some (s.goto x.1 (.done res))
  | some (.issued steamId token access), .save failure =>
      some (s.save x.1 (.success steamId token access) token (.issued x.1 token) failure)
  | _, _ => none

end SignIns

/-- A token that passes the check comes back unchanged. -/
theorem executeRefreshTokenFlow_success {J : JwtCode}
    {now : UInt64} {token token' : String} {steamId : UInt64} {access : Option String}
    (h : executeRefreshTokenFlow J now token = .ok (.success steamId token' access)) :
    token' = token ∧ access = none := by
  simp only [executeRefreshTokenFlow] at h
  split at h
  · simp at h
  · split at h
    · simp at h
    · simp only [Except.ok.injEq, SignInOutcome.success.injEq] at h
      exact ⟨h.2.1.symm, h.2.2.symm⟩

namespace SignIns

variable {J : JwtCode} {s s' : SignIns}

/-- The ways a step of call `i` can go. -/
inductive Goes (J : JwtCode) (s : SignIns) (i : Nat)
    (m : SignInMove) : SignIns → Prop
  /-- The call loads the stored token. -/
  | load (token : String) (h : s.calls[i]? = some .start) (hstore : s.store = some token) :
      Goes J s i m
        { s with calls := s.calls.set i (.loaded token), log := s.log ++ [.loaded i token] }
  /-- The call goes on, away from the store, and can save no token that it could not before. -/
  | quiet (st : SignInStage) (hstart : st ≠ .start)
      (hreuse : ∀ x, st.MayReuse J x →
        ∃ st₀, s.calls[i]? = some st₀ ∧ st₀.MayReuse J x) :
      Goes J s i m (s.goto i st)
  /-- The call saves the token that it loaded. -/
  | reuse (steamId : UInt64) (token : String) (access : Option String)
      (h : s.calls[i]? = some (.reusing steamId token access)) :
      Goes J s i m (s.save i (.success steamId token access) token (.reused i token) none)
  /-- The call saves the token that it was issued. -/
  | issue (steamId : UInt64) (token : String) (access : Option String)
      (h : s.calls[i]? = some (.issued steamId token access)) (hm : m = .save none) :
      Goes J s i m (s.save i (.success steamId token access) token (.issued i token) none)

/-- Every step goes one of these ways. -/
theorem step_goes {x : Nat × SignInMove} (h : step J s x = some s') :
    Goes J s x.1 x.2 s' := by
  obtain ⟨i, m⟩ := x
  have hquiet : ∀ st : SignInStage, st ≠ .start → (∀ x, ¬ st.MayReuse J x) →
      Goes J s i m (s.goto i st) := by
    intro st hstart hnone
    exact .quiet st hstart fun x hx => absurd hx (hnone x)
  simp only [step] at h
  split at h
  · obtain rfl := Option.some.inj h
    exact hquiet _ (by simp) (by simp [SignInStage.MayReuse])
  · rename_i hcall
    split at h
    · obtain rfl := Option.some.inj h
      exact hquiet _ (by simp) (by simp [SignInStage.MayReuse])
    · rename_i token hstore
      obtain rfl := Option.some.inj h
      exact .load token hcall hstore
  · rename_i token now hcall
    split at h <;> obtain rfl := Option.some.inj h
    · rename_i steamId _ _ hflow
      obtain ⟨rfl, rfl⟩ := executeRefreshTokenFlow_success hflow
      refine .quiet _ (by simp) ?_
      rintro x rfl
      exact ⟨_, hcall, rfl, now, steamId, hflow⟩
    all_goals exact hquiet _ (by simp) (by simp [SignInStage.MayReuse])
  · rename_i steamId token access failure hcall
    obtain rfl := Option.some.inj h
    cases failure with
    | none => exact .reuse steamId token access hcall
    | some failure => exact hquiet _ (by simp) (by simp [SignInStage.MayReuse])
  · obtain rfl := Option.some.inj h
    exact hquiet _ (by simp) (by simp [SignInStage.MayReuse])
  · obtain rfl := Option.some.inj h
    exact hquiet _ (by simp) (by simp [SignInStage.MayReuse])
  · rename_i steamId token access failure hcall
    obtain rfl := Option.some.inj h
    cases failure with
    | none => exact .issue steamId token access hcall rfl
    | some failure => exact hquiet _ (by simp) (by simp [SignInStage.MayReuse])
  · simp at h

/-- After one call has moved on, a call is that one or stands where it stood. -/
theorem of_getElem?_set {calls : List SignInStage} {i j : Nat} {st st' : SignInStage}
    (h : (calls.set i st)[j]? = some st') :
    (j = i ∧ st' = st) ∨ (j ≠ i ∧ calls[j]? = some st') := by
  rw [List.getElem?_set] at h
  split at h
  · rename_i hij
    split at h
    · exact .inl ⟨hij.symm, (Option.some.inj h).symm⟩
    · simp at h
  · rename_i hij
    exact .inr ⟨Ne.symm hij, h⟩

/-- The ledger knows who has loaded what. -/
structure Loads (J : JwtCode) (s : SignIns) : Prop where
  unloaded : ∀ {i}, s.calls[i]? = some .start → ∀ x, StoreEvent.loaded i x ∉ s.log
  loaded : ∀ {i st x}, s.calls[i]? = some st → st.MayReuse J x → StoreEvent.loaded i x ∈ s.log

/-- An event that is no load changes nothing here, if its call can reuse nothing more. -/
theorem Loads.goto (h : Loads J s) {i : Nat} {st : SignInStage} {store : Option String}
    {es : List StoreEvent} (hstart : st ≠ .start)
    (hreuse : ∀ x, st.MayReuse J x →
      StoreEvent.loaded i x ∈ es ∨ ∃ st₀, s.calls[i]? = some st₀ ∧ st₀.MayReuse J x)
    (hes : ∀ j x, StoreEvent.loaded j x ∈ es → j = i) :
    Loads J ⟨store, s.calls.set i st, s.log ++ es⟩ := by
  refine ⟨?_, ?_⟩
  · intro j hj x hmem
    rcases of_getElem?_set hj with ⟨-, hst⟩ | ⟨hij, hj⟩
    · exact hstart hst.symm
    · rcases List.mem_append.mp hmem with hmem | hmem
      · exact h.unloaded hj x hmem
      · exact hij (hes j x hmem)
  · intro j st' x hj hx
    rcases of_getElem?_set hj with ⟨rfl, rfl⟩ | ⟨-, hj⟩
    · rcases hreuse x hx with hmem | ⟨st₀, hst₀, hx₀⟩
      · exact List.mem_append_right _ hmem
      · exact List.mem_append_left _ (h.loaded hst₀ hx₀)
    · exact List.mem_append_left _ (h.loaded hj hx)

/-- Every step keeps the ledger of loads. -/
theorem Loads.step (h : Loads J s) {x : Nat × SignInMove}
    (hstep : SignIns.step J s x = some s') : Loads J s' := by
  cases step_goes hstep with
  | load token hcall hstore =>
      refine h.goto (by simp) ?_ (by simp)
      rintro y ⟨rfl, -⟩
      exact .inl (List.mem_singleton.mpr rfl)
  | quiet st hstart hreuse =>
      have hgoto : Loads J ⟨s.store, s.calls.set x.1 st, s.log ++ []⟩ :=
        h.goto hstart (fun y hy => .inr (hreuse y hy)) (by simp)
      rw [List.append_nil] at hgoto
      exact hgoto
  | reuse steamId token access hcall =>
      exact h.goto (by simp) (by simp [SignInStage.MayReuse]) (by simp)
  | issue steamId token access hcall hm =>
      exact h.goto (by simp) (by simp [SignInStage.MayReuse]) (by simp)

/-- In the beginning every call is at its start. -/
theorem start_of_begin {store : Option String} {n i : Nat} {st : SignInStage}
    (h : (begin store n).calls[i]? = some st) : st = .start :=
  List.eq_of_mem_replicate (List.mem_of_getElem? h)

/-- The ledger of loads begins empty. -/
theorem loads_begin (store : Option String) (n : Nat) : Loads J (begin store n) := by
  refine ⟨by simp [begin], ?_⟩
  intro i st x hi hx
  obtain rfl := start_of_begin hi
  exact hx.elim

/-- If the entry is a token issued after call `i` loaded `x`, then that token is `x`. -/
def SinceLoad (i : Nat) (x : String) (past : List StoreEvent) (e : StoreEvent) : Prop :=
  ∀ d t, e = .issued d t → StoreEvent.loaded i x ∈ past → t = x

/-- Every token issued since a call loaded the one that it can still save is that one. -/
def Settled (J : JwtCode) (s : SignIns) : Prop :=
  ∀ (i : Nat) (st : SignInStage) (x : String), s.calls[i]? = some st → st.MayReuse J x →
    Ledger.Justified (SinceLoad i x) s.log

/-- If the step saves an issued token, no call can still save another one that it loaded. -/
def IssuesAlone (J : JwtCode) (s : SignIns)
    (x : Nat × SignInMove) : Prop :=
  x.2 = .save none → ∀ steamId token access,
    s.calls[x.1]? = some (.issued steamId token access) →
      ∀ (j : Nat) (st : SignInStage) (y : String),
        s.calls[j]? = some st → st.MayReuse J y → y = token

/-- A settled state stays settled, if a token is issued alone. -/
theorem Settled.step (h : Settled J s) (hloads : Loads J s) {x : Nat × SignInMove}
    (halone : IssuesAlone J s x) (hstep : SignIns.step J s x = some s') :
    Settled J s' := by
  intro j st' y hj hy
  cases step_goes hstep with
  | load token hcall hstore =>
      refine Ledger.justified_append_singleton.mpr ⟨?_, by simp [SinceLoad]⟩
      rcases of_getElem?_set hj with ⟨rfl, rfl⟩ | ⟨-, hj⟩
      · have hunloaded := hloads.unloaded hcall y
        rintro pre e post hlog d t - hmem
        exact absurd (hlog ▸ List.mem_append_left _ hmem) hunloaded
      · exact h j st' y hj hy
  | quiet st hstart hreuse =>
      rcases of_getElem?_set hj with ⟨rfl, rfl⟩ | ⟨-, hj⟩
      · obtain ⟨st₀, hst₀, hy₀⟩ := hreuse y hy
        exact h _ st₀ y hst₀ hy₀
      · exact h j st' y hj hy
  | reuse steamId token access hcall =>
      rcases of_getElem?_set hj with ⟨rfl, rfl⟩ | ⟨-, hj⟩
      · exact hy.elim
      · exact Ledger.justified_append_singleton.mpr ⟨h j st' y hj hy, by simp [SinceLoad]⟩
  | issue steamId token access hcall hm =>
      rcases of_getElem?_set hj with ⟨rfl, rfl⟩ | ⟨-, hj⟩
      · exact hy.elim
      · refine Ledger.justified_append_singleton.mpr ⟨h j st' y hj hy, ?_⟩
        rintro d t ht -
        obtain ⟨-, rfl⟩ := StoreEvent.issued.inj ht
        exact (halone hm steamId _ access hcall j st' y hj hy).symm

/-- The step of call `i` from `s` to `s'` loses an issued token: it puts the token `x`, which
the call had loaded before, over the stored token `t`, which was issued after that load. -/
def Loses (s : SignIns) (i : Nat) (s' : SignIns) : Prop :=
  ∃ p d t q x, s.log = p ++ .issued d t :: q ∧ StoreEvent.loaded i x ∈ p ∧ s.store = some t ∧
    s'.store = some x ∧ s'.log = s.log ++ [.reused i x] ∧ x ≠ t

/-- In a settled state no step loses a token. -/
theorem Settled.not_loses (h : Settled J s) {x : Nat × SignInMove}
    (hstep : SignIns.step J s x = some s') : ¬ Loses s x.1 s' := by
  rintro ⟨p, d, t, q, y, hlog, hmem, -, -, hlog', hne⟩
  cases step_goes hstep with
  | load token hcall hstore => simp at hlog'
  | quiet st hstart hreuse => simp [goto] at hlog'
  | reuse steamId token access hcall =>
      obtain ⟨-, rfl⟩ : x.1 = x.1 ∧ token = y := by simpa [save] using hlog'
      exact hne (h _ _ _ hcall rfl p _ q hlog d t rfl hmem).symm
  | issue steamId token access hcall hm => simp [save] at hlog'

/-- A call that has accepted an older token than the stored one loses the stored one. -/
theorem loses_of_reusing {p : List StoreEvent} {i d : Nat} {steamId : UInt64} {t x : String}
    {access : Option String} (hcall : s.calls[i]? = some (.reusing steamId x access))
    (hlog : s.log = p ++ [.issued d t]) (hmem : StoreEvent.loaded i x ∈ p)
    (hstore : s.store = some t) (hne : x ≠ t) :
    ∃ s', SignIns.step J s (i, .save none) = some s' ∧ Loses s i s' :=
  ⟨s.save i (.success steamId x access) x (.reused i x) none, by simp [SignIns.step, hcall],
    p, d, t, [], x, hlog, hmem, hstore, rfl, rfl, hne⟩

/-- A call that may still accept one loses the stored one as well, after its check. -/
theorem loses_of_mayReuse {p : List StoreEvent} {i d : Nat} {st : SignInStage} {t x : String}
    (hcall : s.calls[i]? = some st) (hreuse : st.MayReuse J x)
    (hlog : s.log = p ++ [.issued d t]) (hmem : StoreEvent.loaded i x ∈ p)
    (hstore : s.store = some t) (hne : x ≠ t) :
    ∃ is s₁ s₂, Ledger.exec (SignIns.step J) s is = some s₁ ∧
      SignIns.step J s₁ (i, .save none) = some s₂ ∧ Loses s₁ i s₂ := by
  cases st with
  | loaded token =>
      obtain ⟨rfl, now, steamId, hflow⟩ := hreuse
      have hcheck : SignIns.step J s (i, .check now) =
          some (s.goto i (.reusing steamId token none)) := by
        simp [SignIns.step, hcall, hflow]
      have hcall' : (s.goto i (.reusing steamId token none)).calls[i]? =
          some (.reusing steamId token none) :=
        List.getElem?_set_self (List.getElem?_eq_some_iff.mp hcall).1
      obtain ⟨s₂, hs₂, hloses⟩ := loses_of_reusing hcall' hlog hmem hstore hne
      exact ⟨[(i, .check now)], _, s₂, Ledger.exec_cons_eq_some.mpr ⟨_, hcheck, rfl⟩, hs₂, hloses⟩
  | reusing steamId token access =>
      obtain rfl := hreuse
      obtain ⟨s₂, hs₂, hloses⟩ := loses_of_reusing hcall hlog hmem hstore hne
      exact ⟨[], s, s₂, rfl, hs₂, hloses⟩
  | start => exact hreuse.elim
  | password => exact hreuse.elim
  | issued steamId token access => exact hreuse.elim
  | done res => exact hreuse.elim

/-- A token that is issued while another one can still be saved can be lost. -/
theorem Loads.exists_loses (h : Loads J s) {x : Nat × SignInMove}
    (hstep : SignIns.step J s x = some s') (halone : ¬ IssuesAlone J s x) :
    ∃ is s₁ i s₂, Ledger.exec (SignIns.step J) s' is = some s₁ ∧
      SignIns.step J s₁ (i, .save none) = some s₂ ∧ Loses s₁ i s₂ := by
  obtain ⟨i, m⟩ := x
  simp only [IssuesAlone, not_forall] at halone
  obtain ⟨rfl, steamId, t, access, hcall, j, st, y, hj, hy, hne⟩ := halone
  obtain rfl : s.save i (.success steamId t access) t (.issued i t) none = s' := by
    simpa [SignIns.step, hcall] using hstep
  have hother : i ≠ j := by
    rintro rfl
    obtain rfl := Option.some.inj (hcall.symm.trans hj)
    exact hy
  have hj' : (s.save i (.success steamId t access) t (.issued i t) none).calls[j]? = some st :=
    (List.getElem?_set_ne hother).trans hj
  obtain ⟨is, s₁, s₂, hrun, hs₂, hloses⟩ :=
    loses_of_mayReuse hj' hy rfl (h.loaded hj hy) rfl hne
  exact ⟨is, s₁, j, s₂, hrun, hs₂, hloses⟩

/-- In every run the ledger knows who has loaded what. -/
theorem loads_of_exec {store : Option String} {n : Nat} {is : List (Nat × SignInMove)}
    (hrun : Ledger.exec (SignIns.step J) (begin store n) is = some s) : Loads J s :=
  Ledger.exec_invariant (fun _ _ _ h hstep => h.step hstep) hrun (loads_begin store n)

/-- A run whose tokens are issued alone is settled. -/
theorem settled_of_guarded {store : Option String} {n : Nat} {is : List (Nat × SignInMove)}
    (hrun : Ledger.exec (SignIns.step J) (begin store n) is = some s)
    (hguard : Ledger.Guarded (SignIns.step J) (IssuesAlone J) (begin store n) is) :
    Settled J s := by
  have hboth : Loads J s ∧ Settled J s := by
    refine Ledger.exec_invariant_of_guarded (I := fun s => Loads J s ∧ Settled J s)
      ?_ hrun hguard ⟨loads_begin store n, ?_⟩
    · rintro u x u' ⟨hloads, hsettled⟩ halone hstep
      exact ⟨hloads.step hstep, hsettled.step hloads halone hstep⟩
    · intro i st x hi hx
      obtain rfl := start_of_begin hi
      exact hx.elim
  exact hboth.2

end SignIns

/-! ### Issued tokens -/

/-- **Issued tokens are kept.** Take any interleaving of any number of `execute_with_store`
calls for one account. If no call can still save another token that it loaded, whenever an
issued token is saved, then no issued token is lost to an older one; and an issued token that
is saved beside such a call is lost in some continuation of the run. -/
theorem issued_token_kept (J : JwtCode)
    (store : Option String) (n : Nat) (is : List (Nat × SignInMove)) (s : SignIns)
    (hrun : Ledger.exec (SignIns.step J) (SignIns.begin store n) is = some s)
    (x : Nat × SignInMove) (s' : SignIns) (hstep : SignIns.step J s x = some s') :
    (Ledger.Guarded (SignIns.step J) (SignIns.IssuesAlone J)
      (SignIns.begin store n) is → ¬ SignIns.Loses s x.1 s') ∧
    (¬ SignIns.IssuesAlone J s x → ∃ js s₁ i s₂,
      Ledger.exec (SignIns.step J) s' js = some s₁ ∧
        SignIns.step J s₁ (i, .save none) = some s₂ ∧ SignIns.Loses s₁ i s₂) := by
  refine ⟨?_, ?_⟩
  · intro hguard
    exact (SignIns.settled_of_guarded hrun hguard).not_loses hstep
  · intro halone
    exact (SignIns.loads_of_exec hrun).exists_loses hstep halone

namespace Sample

/-- The outcome of a password flow that issues the fresh token. -/
def issuedOutcome : SignInOutcome := .success 7 freshToken (some "access")

/-- Call 1 finds the stored token expired and runs the password flow. -/
def renewal : List (Nat × SignInMove) :=
  [(1, .load none), (1, .check 101), (1, .password (.ok issuedOutcome))]

/-- Whatever call 0 has done, call 1 is issued the fresh token. -/
theorem exec_renewal (st : SignInStage) (log : List StoreEvent) :
    Ledger.exec (SignIns.step jwtCode) ⟨some expiringToken, [st, .start], log⟩ renewal =
      some ⟨some expiringToken, [st, .issued 7 freshToken (some "access")],
        log ++ [.loaded 1 expiringToken]⟩ := by
  simp [Ledger.exec_cons, renewal, SignIns.step, SignIns.goto, executeRefreshTokenFlow,
    claims_expiringToken, tokenExpirySlackSecs, issuedOutcome]

end Sample

/-- Call 1 renews the stored token before call 0 looks at it. -/
theorem issued_token_kept_renewed :
    ∃ s s', Ledger.exec (SignIns.step Sample.jwtCode) (SignIns.begin (some Sample.expiringToken) 2)
        (Sample.renewal ++ [(1, .save none), (0, .load none), (0, .check 101)]) = some s ∧
      SignIns.step Sample.jwtCode s (0, .save none) = some s' ∧ ¬ SignIns.Loses s 0 s' ∧
      s'.store = some Sample.freshToken := by
  have hrenewal := Sample.exec_renewal .start []
  have hrun : Ledger.exec (SignIns.step Sample.jwtCode)
      (SignIns.begin (some Sample.expiringToken) 2)
      (Sample.renewal ++ [(1, .save none), (0, .load none), (0, .check 101)]) =
      some ⟨some Sample.freshToken, [.reusing 7 Sample.freshToken none,
        .done (.ok Sample.issuedOutcome)],
        [.loaded 1 Sample.expiringToken, .issued 1 Sample.freshToken,
          .loaded 0 Sample.freshToken]⟩ := by
    refine Ledger.exec_append_eq_some.mpr ⟨_, hrenewal, ?_⟩
    simp [Ledger.exec_cons, SignIns.step, SignIns.save, SignIns.goto, executeRefreshTokenFlow,
      Sample.claims_freshToken, tokenExpirySlackSecs, Sample.issuedOutcome]
  refine ⟨_, _, hrun, rfl, ?_, rfl⟩
  refine (issued_token_kept Sample.jwtCode _ 2 _ _ hrun (0, .save none) _ rfl).1 ?_
  refine Ledger.guarded_append.mpr ⟨Ledger.guarded_of_forall ?_, ?_⟩
  · simp [Sample.renewal, SignIns.IssuesAlone]
  · intro s hs
    obtain rfl := Option.some.inj (hrenewal.symm.trans hs)
    refine ⟨?_, fun s' _ => Ledger.guarded_of_forall ?_⟩
    · intro _ steamId token access _ j st y hj hy
      rcases List.mem_pair.mp (List.mem_of_getElem? hj) with rfl | rfl <;> exact hy.elim
    · simp [SignIns.IssuesAlone]

/-- Two calls straddle the expiry of the stored token. Call 0 accepts it at 100. Call 1 finds it
expired at 101, and saves a fresh one. Call 0 then puts the old one back. -/
theorem issued_token_lost :
    ∃ s s', Ledger.exec (SignIns.step Sample.jwtCode) (SignIns.begin (some Sample.expiringToken) 2)
        ([(0, .load none), (0, .check 100)] ++ Sample.renewal ++ [(1, .save none)]) = some s ∧
      SignIns.step Sample.jwtCode s (0, .save none) = some s' ∧ SignIns.Loses s 0 s' ∧
      s'.store = some Sample.expiringToken := by
  refine ⟨⟨some Sample.freshToken, [.reusing 7 Sample.expiringToken none,
      .done (.ok Sample.issuedOutcome)],
    [.loaded 0 Sample.expiringToken, .loaded 1 Sample.expiringToken,
      .issued 1 Sample.freshToken]⟩, _, ?_, rfl, ?_, rfl⟩
  · have haccept : Ledger.exec (SignIns.step Sample.jwtCode)
        (SignIns.begin (some Sample.expiringToken) 2) [(0, .load none), (0, .check 100)] =
        some ⟨some Sample.expiringToken, [.reusing 7 Sample.expiringToken none, .start],
          [.loaded 0 Sample.expiringToken]⟩ := by
      simp [Ledger.exec_cons, SignIns.begin, SignIns.step, SignIns.goto, executeRefreshTokenFlow,
        Sample.claims_expiringToken, tokenExpirySlackSecs]
    exact Ledger.exec_append_eq_some.mpr ⟨_, Ledger.exec_append_eq_some.mpr
      ⟨_, haccept, Sample.exec_renewal _ _⟩, rfl⟩
  · exact ⟨[.loaded 0 Sample.expiringToken, .loaded 1 Sample.expiringToken], 1, Sample.freshToken,
      [], Sample.expiringToken, rfl, by simp, rfl, rfl, rfl, by decide⟩

end Steamroids
