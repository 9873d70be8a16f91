import Steamroids.PasswordRules
import Steamroids.TokenStore

/-!
# Where Stored Tokens Come From

The password flow and the store put together: sign-ins run on a store one after the other, each in
a world of its own, and each with the password flow that this world leads to. A token is reused from
the store, or issued by the service, and there is no third way for one to be returned or stored.

## Main results

* `stored_tokens_issued`: the origin of every token that is returned or stored.
-/

namespace Steamroids

section Provenance

variable {C : AuthCrates} {J : JwtCode} {W : AuthWorld} {creds : PasswordCredentials}

/-- The password flow in this world has made a poll in which the service has handed out the
token. -/
def Issued (C : AuthCrates) (J : JwtCode) (W : AuthWorld) (proxy : Option ProxyConfig)
    (creds : PasswordCredentials) (token : String) : Prop :=
  ∃ calls res n resp,
    (∀ fuel, 121 ≤ fuel →
      executePasswordFlow C J W proxy creds fuel = (calls, .inl (some res))) ∧
    n < calls.countP isPoll ∧ W.polls.answer C.pollApi n = .ok (EResult.ok, resp) ∧
    resp.refreshToken = some token ∧ token ≠ ""

/-- A success is a token that was handed out in one of the polls. -/
theorem Warranted.issued_token {calls : List AuthCall} {steamId : UInt64} {token : String}
    {access : Option String} (h : Warranted C J W creds calls (.success steamId token access)) :
    ∃ n resp, n < calls.countP isPoll ∧ W.polls.answer C.pollApi n = .ok (EResult.ok, resp) ∧
      resp.refreshToken = some token ∧ token ≠ "" := by
  cases h with
  | issued _ _ hn hans htoken hne _ => exact ⟨_, _, hn, hans, htoken, hne⟩
  | refused _ hmeans => cases hmeans

/-- A call of `execute_with_store`, with what it meets and with its own flow. -/
structure SignInCall (C : AuthCrates) (J : JwtCode) where
  signIn : SignIn
  env : SignInEnv
  world : AuthWorld
  sleeps : Sleeps C world
  flow : ∀ creds, signIn.credentials = .password creds → ∃ calls, ∀ fuel, 121 ≤ fuel →
    executePasswordFlow C J world signIn.proxy creds fuel =
      (calls, .inl (some (env.passwordFlow signIn)))

/-- What the flow of a call returns was handed out in that flow. -/
theorem SignInCall.issued {c : SignInCall C J} (hcreds : c.signIn.credentials = .password creds)
    {steamId : UInt64} {token : String} {access : Option String}
    (h : c.env.passwordFlow c.signIn = .ok (.success steamId token access)) :
    Issued C J c.world c.signIn.proxy creds token := by
  obtain ⟨calls, hflow⟩ := c.flow creds hcreds
  obtain ⟨calls', res, hflow', hrun⟩ :=
    executePasswordFlow_run (J := J) c.sleeps c.signIn.proxy creds
  obtain ⟨-, hres⟩ := Prod.mk.inj ((hflow' 121 le_rfl).symm.trans (hflow 121 le_rfl))
  have hok : res = .ok (.success steamId token access) :=
    (Option.some.inj (Sum.inl.inj hres)).trans h
  obtain ⟨n, resp, hissued⟩ := (hrun.warranted hok).issued_token
  exact ⟨calls', res, n, resp, hflow', hissued⟩

/-- In one of the calls for the account, the service has handed out the token. -/
def IssuedFor (calls : List (SignInCall C J)) (account token : String) : Prop :=
  ∃ c ∈ calls, ∃ creds, c.signIn.credentials = .password creds ∧ creds.accountName = account ∧
    Issued C J c.world c.signIn.proxy creds token

/-- More calls do not make a token less issued. -/
theorem IssuedFor.mono {calls calls' : List (SignInCall C J)} {account token : String}
    (h : IssuedFor calls account token) (hsub : calls ⊆ calls') :
    IssuedFor calls' account token := by
  obtain ⟨c, hc, h⟩ := h
  exact ⟨c, hsub hc, h⟩

/-- The token was stored in the beginning, or handed out in one of the calls. -/
def HasOrigin (calls : List (SignInCall C J)) (s : StoreState) (account token : String) : Prop :=
  s.entries account = some token ∨ IssuedFor calls account token

/-- A token that a call returns was stored, or is what its flow returns. -/
theorem StoreRun.origin {env : SignInEnv} {signIn : SignIn} {account : String}
    {entries left : String → Option String} {acts : List SignInAct} {steamId : UInt64}
    {token : String} {access : Option String}
    (h : StoreRun J env signIn account entries (.ok (.success steamId token access)) left acts) :
    entries account = some token ∨
      env.passwordFlow signIn = .ok (.success steamId token access) := by
  cases h with
  | reuses _ _ _ hentry _ _ _ => exact .inl hentry
  | issues _ _ _ _ _ hflow _ => exact .inr hflow
  | refused _ _ _ hflow _ => exact .inr hflow

/-- What counts as returned for an account. -/
theorem returnedFor_eq_some {signIn : SignIn} {res : Except Error SignInOutcome}
    {account token : String} (h : returnedFor account (signIn, res) = some token) :
    ∃ creds steamId access, signIn.credentials = .password creds ∧ creds.accountName = account ∧
      res = .ok (.success steamId token access) := by
  rw [returnedFor.eq_def] at h
  split at h
  · rename_i creds proxy steamId token' access heq
    obtain ⟨rfl, rfl⟩ := Prod.mk.inj heq
    obtain ⟨haccount, htoken⟩ := Option.ite_none_right_eq_some.mp h
    obtain rfl := Option.some.inj htoken
    exact ⟨creds, steamId, access, rfl, haccount, rfl⟩
  · cases h

/-- A token that a call returns. -/
theorem SignInCall.returned (c : SignInCall C J) (s : StoreState) {account token : String}
    (h : returnedFor account (c.signIn, (c.signIn.executeWithStore J c.env s).1) = some token) :
    HasOrigin [c] s account token := by
  obtain ⟨creds, steamId, access, hcreds, rfl, hres⟩ := returnedFor_eq_some h
  obtain ⟨res, left, acts, hrun, hways⟩ := executeWithStore_run J c.env hcreds s
  rw [hrun] at hres
  subst hres
  rcases hways.origin with hentry | hflow
  · exact .inl hentry
  · exact .inr ⟨c, List.mem_singleton.mpr rfl, creds, hcreds, rfl, c.issued hcreds hflow⟩

/-- A token that is stored after a call. -/
theorem SignInCall.stored (c : SignInCall C J) (s : StoreState) {account token : String}
    (h : (c.signIn.executeWithStore J c.env s).2.entries account = some token) :
    HasOrigin [c] s account token := by
  rw [entry_of_call, Option.or_eq_some_iff] at h
  rcases h with h | ⟨-, h⟩
  · exact c.returned s h
  · exact .inl h

/-- **Every token comes from the service.** However many sign-ins run on a store one after the
other, whatever each of them meets, a token that is returned or stored for an account was stored for
that account in the beginning, or the service has handed it out in a poll of a sign-in with the
password of that account. -/
theorem stored_tokens_issued (C : AuthCrates) (J : JwtCode) (calls : List (SignInCall C J))
    (s : StoreState) :
    let (results, s') := callsInTurn J (calls.map fun c => (c.env, c.signIn)) s
    (∀ account token, s'.entries account = some token → HasOrigin calls s account token) ∧
      ∀ r ∈ results, ∀ account token, returnedFor account r = some token →
        HasOrigin calls s account token := by
  induction calls generalizing s with
  | nil => exact ⟨fun _ _ h => .inl h, fun _ hr => absurd hr List.not_mem_nil⟩
  | cons c calls ih =>
      have hfirst : [c] ⊆ c :: calls := by simp
      obtain ⟨hstored, hreturned⟩ := ih (c.signIn.executeWithStore J c.env s).2
      have hlater {account token : String}
          (h : HasOrigin calls (c.signIn.executeWithStore J c.env s).2 account token) :
          HasOrigin (c :: calls) s account token := by
        rcases h with h | h
        · exact (c.stored s h).imp_right fun h => h.mono hfirst
        · exact .inr (h.mono (List.subset_cons_self c calls))
      refine ⟨fun account token h => hlater (hstored account token h), ?_⟩
      rintro r hr account token h
      rcases List.mem_cons.mp hr with rfl | hr
      · exact (c.returned s h).imp_right fun h => h.mono hfirst
      · exact hlater (hreturned r hr account token h)

end Provenance

/-- The sign-in of the account that is asked for a code. -/
def Sample.guardedCall : SignInCall Sample.authCrates Sample.jwtCode where
  signIn := { credentials := .password Sample.guardedCreds }
  env :=
    { now := 29
      loadFailure := fun _ => none
      saveFailure := fun _ _ => none
      passwordFlow := fun _ => .ok (.success 7 Sample.freshToken none) }
  world := Sample.guardedWorld
  sleeps := Sample.guardedWorld_sleeps
  flow := by
    rintro _ ⟨⟩
    obtain ⟨calls, res, hflow, -⟩ :=
      executePasswordFlow_run (J := Sample.jwtCode) Sample.guardedWorld_sleeps none
        Sample.guardedCreds
    obtain ⟨-, hres⟩ := Prod.mk.inj ((hflow 121 le_rfl).symm.trans Sample.guarded_flow)
    obtain rfl := Option.some.inj (Sum.inl.inj hres)
    exact ⟨calls, hflow⟩

/-- The token that is stored after one call was handed out in it. -/
theorem stored_tokens_issued_guarded :
    IssuedFor [Sample.guardedCall] "user" Sample.freshToken := by
  obtain ⟨hstored, -⟩ := stored_tokens_issued _ _ [Sample.guardedCall] ⟨fun _ => none, []⟩
  rcases hstored "user" Sample.freshToken (by decide) with h | h
  · cases h
  · exact h

end Steamroids
