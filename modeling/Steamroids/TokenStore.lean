import Mathlib.Logic.Function.Basic
import Steamroids.Pool
import Steamroids.SignIn

/-!
# One Sign-In on a Store

`SignIn::execute_with_store` (`auth/signin.rs`) from its beginning to its end, with nothing beside
it, on a store of any number of accounts. What the call does is kept as a list of acts: its accesses
to the store, and whether the password flow runs. A `load` or `save` may fail, and a `save` that
fails changes nothing.

`StoreRun` lists the ways that a call can go. Each of the results is read off that list. The calls
of `SignIns`, which run beside each other, take the same steps (`StoreRun.signIns`).

## Main results

* `executeWithStore_run`: every call goes one of the ways of `StoreRun`.
* `sign_in_keeps_store`: when the password flow runs, and what the call leaves behind.
* `entry_of_calls`: after calls one after the other, an entry is the token last returned for it.
* `StoreRun.signIns`: a call on its own is a run of `SignIns` with one call.
-/

namespace Steamroids

/-! ### The builder -/

/-- The credentials of a password sign-in. -/
structure PasswordCredentials where
  accountName : String
  password : String
  sharedSecret : Option String := none

/-- What a sign-in starts from. -/
inductive Credentials
  | password (creds : PasswordCredentials)
  | refreshToken (token : String)

/-- A sign-in that is about to be executed. -/
structure SignIn where
  credentials : Credentials
  proxy : Option ProxyConfig := none

/-- `SignIn::with_refresh_token`. -/
def SignIn.withRefreshToken (token : String) : SignIn := { credentials := .refreshToken token }

/-! ### What a call meets and does -/

/-- What a call meets: the time, the failures of the store, and the outcome of the password
flow. -/
structure SignInEnv where
  now : UInt64
  loadFailure : String → Option String
  saveFailure : String → String → Option String
  passwordFlow : SignIn → Except Error SignInOutcome

/-- What a sign-in does to the store, and when it runs the password flow. -/
inductive SignInAct
  | load (account : String)
  | save (account token : String)
  | passwordFlow
  deriving DecidableEq, Repr

/-- The entries of a store, and what has been done. -/
structure StoreState where
  entries : String → Option String
  acts : List SignInAct

/-- One more act. -/
def StoreState.act (s : StoreState) (a : SignInAct) : StoreState := { s with acts := s.acts ++ [a] }

/-- Save the token of an outcome, and return the outcome. -/
def saveToken (env : SignInEnv) (account token : String) (outcome : SignInOutcome)
    (s : StoreState) : Except Error SignInOutcome × StoreState :=
  let s := s.act (.save account token)
  match env.saveFailure account token with
  | some e => (.error (.tokenStore e), s)
  | none => (.ok outcome, { s with entries := Function.update s.entries account (some token) })

/-! ### The call -/

/-- Drive the configured flow. -/
def SignIn.execute (J : JwtCode) (env : SignInEnv) (signIn : SignIn) (s : StoreState) :
    Except Error SignInOutcome × StoreState :=
  match signIn.credentials with
  | .password _ => (env.passwordFlow signIn, s.act .passwordFlow)
  | .refreshToken token => (executeRefreshTokenFlow J env.now token, s)

/-- Try the refresh flow with a stored token. One that does not decode is treated as stale. -/
def SignIn.tryStored (J : JwtCode) (env : SignInEnv) (signIn : SignIn) (token : String)
    (s : StoreState) : Except Error SignInOutcome × StoreState :=
  let attempt := { SignIn.withRefreshToken token with proxy := signIn.proxy }
  match attempt.execute J env s with
  | (.error (.authRejected _), s) => (.ok .tokenRejected, s)
  | res => res

/-- The full password flow, which persists the new token on success. -/
def SignIn.executeAndSave (J : JwtCode) (env : SignInEnv) (signIn : SignIn) (account : String)
    (s : StoreState) : Except Error SignInOutcome × StoreState :=
  match signIn.execute J env s with
  | (.ok (.success steamId token access), s) =>
      saveToken env account token (.success steamId token access) s
  | res => res

/-- Execute while reusing and persisting a refresh token via the store. -/
def SignIn.executeWithStore (J : JwtCode) (env : SignInEnv) (signIn : SignIn) (s : StoreState) :
    Except Error SignInOutcome × StoreState :=
  match signIn.credentials with
  | .refreshToken _ => signIn.execute J env s
  | .password creds =>
      let account := creds.accountName
      let s := s.act (.load account)
      match env.loadFailure account with
      | some e => (.error (.tokenStore e), s)
      | none =>
          match s.entries account with
          | none => signIn.executeAndSave J env account s
          | some token =>
              match signIn.tryStored J env token s with
              | (.ok (.success steamId token access), s) =>
                  saveToken env account token (.success steamId token access) s
              | (.ok .tokenRejected, s) => signIn.executeAndSave J env account s
              -- anything else is the caller's to handle
              | res => res

/-! ### Stored tokens -/

/-- A string that is not a token of any account. -/
def Undecodable (J : JwtCode) (token : String) : Prop :=
  ¬ ∃ steamId, NamesAccount J token steamId

/-- A token that expires within a minute from `now`, or has expired. -/
def Expired (J : JwtCode) (now : UInt64) (token : String) : Prop :=
  ∃ steamId fields exp, TokenOf J token steamId fields ∧
    (fields.lookup "exp").bind Json.asU64 = some exp ∧ exp.toNat ≤ now.toNat + 60

/-- The strings that are not read are those that are no tokens. -/
theorem undecodable_iff {J : JwtCode} {token : String} :
    Undecodable J token ↔ ∃ e, refreshTokenClaims J token = .error e := by
  rcases hclaims : refreshTokenClaims J token with e | c
  · refine iff_of_true ?_ ⟨e, rfl⟩
    rintro ⟨steamId, fields, htoken⟩
    cases hclaims.symm.trans htoken.claims
  · obtain ⟨fields, htoken, -⟩ := refreshTokenClaims_eq_ok_iff.mp hclaims
    exact iff_of_false (not_not_intro ⟨c.steamId, fields, htoken⟩) (by simp)

/-- The comparison of the source, which cannot overflow. -/
theorem expired_iff {J : JwtCode} {now : UInt64} {token : String} {c : RefreshTokenClaims}
    (hclaims : refreshTokenClaims J token = .ok c) :
    Expired J now token ↔
      c.exp.any (fun exp => exp.toNat - tokenExpirySlackSecs ≤ now.toNat) = true := by
  rw [Option.any_eq_true]
  constructor
  · rintro ⟨steamId, fields, exp, htoken, hexp, hle⟩
    obtain rfl : c = ⟨steamId, (fields.lookup "exp").bind Json.asU64⟩ :=
      Except.ok.inj (hclaims.symm.trans htoken.claims)
    exact ⟨exp, hexp, decide_eq_true (Nat.sub_le_of_le_add hle)⟩
  · rintro ⟨exp, hexp, hle⟩
    obtain ⟨fields, htoken, hfields⟩ := refreshTokenClaims_eq_ok_iff.mp hclaims
    exact ⟨c.steamId, fields, exp, htoken, hfields ▸ hexp,
      Nat.le_add_of_sub_le (of_decide_eq_true hle)⟩

/-- The check of a stored token. -/
theorem executeRefreshTokenFlow_cases (J : JwtCode) (now : UInt64) (token : String) :
    (Undecodable J token ∨ Expired J now token) ∧
        (executeRefreshTokenFlow J now token = .ok .tokenRejected ∨
          ∃ reason, executeRefreshTokenFlow J now token = .error (.authRejected reason)) ∨
      ¬ (Undecodable J token ∨ Expired J now token) ∧
        ∃ steamId, executeRefreshTokenFlow J now token = .ok (.success steamId token none) := by
  rcases hclaims : refreshTokenClaims J token with e | c
  · obtain ⟨reason, rfl⟩ := refreshTokenClaims_error hclaims
    exact .inl ⟨.inl (undecodable_iff.mpr ⟨_, hclaims⟩),
      .inr ⟨reason, by simp only [executeRefreshTokenFlow, hclaims]⟩⟩
  · have hdecodes : ¬ Undecodable J token := by
      rw [undecodable_iff, hclaims]
      simp
    by_cases hexp : c.exp.any (fun exp => exp.toNat - tokenExpirySlackSecs ≤ now.toNat) = true
    · refine .inl ⟨.inr ((expired_iff hclaims).mpr hexp), .inl ?_⟩
      simp only [executeRefreshTokenFlow, hclaims, hexp, if_true]
    · refine .inr ⟨not_or.mpr ⟨hdecodes, mt (expired_iff hclaims).mp hexp⟩, c.steamId, ?_⟩
      simp only [executeRefreshTokenFlow, hclaims, hexp, if_false, Bool.false_eq_true]

/-! ### The ways of a call -/

/-- The store has no token for the account, or one that is of no use. -/
def Stale (J : JwtCode) (now : UInt64) (stored : Option String) : Prop :=
  ∀ token ∈ stored, Undecodable J token ∨ Expired J now token

/-- How a call for `account` goes on a store with these entries: its result, the entries it leaves,
and what it does. -/
inductive StoreRun (J : JwtCode) (env : SignInEnv) (signIn : SignIn) (account : String)
    (entries : String → Option String) :
    Except Error SignInOutcome → (String → Option String) → List SignInAct → Prop
  | loadFails (e : String) (hload : env.loadFailure account = some e) :
      StoreRun J env signIn account entries (.error (.tokenStore e)) entries [.load account]
  /-- The stored token is good, and saved again. -/
  | reuses (steamId : UInt64) (token : String) (hload : env.loadFailure account = none)
      (hentry : entries account = some token)
      (hgood : ¬ (Undecodable J token ∨ Expired J env.now token))
      (hcheck : executeRefreshTokenFlow J env.now token = .ok (.success steamId token none))
      (hsave : env.saveFailure account token = none) :
      StoreRun J env signIn account entries (.ok (.success steamId token none))
        (Function.update entries account (some token)) [.load account, .save account token]
  | reuseFails (steamId : UInt64) (token e : String) (hload : env.loadFailure account = none)
      (hentry : entries account = some token)
      (hgood : ¬ (Undecodable J token ∨ Expired J env.now token))
      (hcheck : executeRefreshTokenFlow J env.now token = .ok (.success steamId token none))
      (hsave : env.saveFailure account token = some e) :
      StoreRun J env signIn account entries (.error (.tokenStore e)) entries
        [.load account, .save account token]
  /-- The password flow issues a token, which is saved. -/
  | issues (steamId : UInt64) (token : String) (access : Option String)
      (hload : env.loadFailure account = none) (hstale : Stale J env.now (entries account))
      (hflow : env.passwordFlow signIn = .ok (.success steamId token access))
      (hsave : env.saveFailure account token = none) :
      StoreRun J env signIn account entries (.ok (.success steamId token access))
        (Function.update entries account (some token))
        [.load account, .passwordFlow, .save account token]
  | issueFails (steamId : UInt64) (token : String) (access : Option String) (e : String)
      (hload : env.loadFailure account = none) (hstale : Stale J env.now (entries account))
      (hflow : env.passwordFlow signIn = .ok (.success steamId token access))
      (hsave : env.saveFailure account token = some e) :
      StoreRun J env signIn account entries (.error (.tokenStore e)) entries
        [.load account, .passwordFlow, .save account token]
  /-- The password flow issues none. -/
  | refused (res : Except Error SignInOutcome) (hload : env.loadFailure account = none)
      (hstale : Stale J env.now (entries account)) (hflow : env.passwordFlow signIn = res)
      (hres : ∀ steamId token access, res ≠ .ok (.success steamId token access)) :
      StoreRun J env signIn account entries res entries [.load account, .passwordFlow]

variable {J : JwtCode} {env : SignInEnv} {signIn : SignIn} {account : String}
  {creds : PasswordCredentials}

/-- The password flow and what follows it. -/
theorem executeAndSave_run (hcreds : signIn.credentials = .password creds)
    (hload : env.loadFailure account = none) {s : StoreState}
    (hstale : Stale J env.now (s.entries account)) :
    ∃ res entries acts, signIn.executeAndSave J env account (s.act (.load account)) =
        (res, ⟨entries, s.acts ++ acts⟩) ∧
      StoreRun J env signIn account s.entries res entries acts := by
  have hexecute : signIn.execute J env (s.act (.load account)) =
      (env.passwordFlow signIn, (s.act (.load account)).act .passwordFlow) := by
    simp only [SignIn.execute, hcreds]
  rw [SignIn.executeAndSave, hexecute]
  by_cases hissued : ∃ steamId token access,
      env.passwordFlow signIn = .ok (.success steamId token access)
  · obtain ⟨steamId, token, access, hflow⟩ := hissued
    simp only [hflow, saveToken]
    rcases hsave : env.saveFailure account token with _ | e
    · exact ⟨_, _, _, by simp [StoreState.act],
        .issues steamId token access hload hstale hflow hsave⟩
    · exact ⟨_, _, _, by simp [StoreState.act],
        .issueFails steamId token access e hload hstale hflow hsave⟩
  · refine ⟨env.passwordFlow signIn, s.entries, [.load account, .passwordFlow], ?_,
      .refused _ hload hstale rfl fun steamId token access h => hissued ⟨steamId, token, access, h⟩⟩
    split
    · rename_i steamId token access _ heq
      exact absurd ⟨steamId, token, access, (Prod.mk.inj heq).1⟩ hissued
    · simp [StoreState.act]

/-- Trying a stored token is the refresh-token flow, with its own rejections taken for stale. -/
theorem tryStored_eq (J : JwtCode) (env : SignInEnv) (signIn : SignIn) (token : String)
    (s : StoreState) :
    signIn.tryStored J env token s =
      match executeRefreshTokenFlow J env.now token with
      | .error (.authRejected _) => (.ok .tokenRejected, s)
      | res => (res, s) := by
  simp only [SignIn.tryStored, SignIn.execute, SignIn.withRefreshToken]
  rcases executeRefreshTokenFlow J env.now token with e | outcome
  · cases e <;> rfl
  · rfl

/-- **Every call goes one of these ways.** -/
theorem executeWithStore_run (J : JwtCode) (env : SignInEnv) {signIn : SignIn}
    {creds : PasswordCredentials} (hcreds : signIn.credentials = .password creds)
    (s : StoreState) :
    ∃ res entries acts, signIn.executeWithStore J env s = (res, ⟨entries, s.acts ++ acts⟩) ∧
      StoreRun J env signIn creds.accountName s.entries res entries acts := by
  simp only [SignIn.executeWithStore, hcreds]
  rcases hload : env.loadFailure creds.accountName with _ | e
  · have hentries : (s.act (.load creds.accountName)).entries = s.entries := rfl
    rw [hentries]
    rcases hentry : s.entries creds.accountName with _ | token
    · exact executeAndSave_run hcreds hload (by rw [hentry]; simp [Stale])
    · have hstored : ∀ t ∈ s.entries creds.accountName, t = token := by
        rw [hentry]
        simp [eq_comm]
      simp only [tryStored_eq]
      rcases executeRefreshTokenFlow_cases J env.now token with
        ⟨hbad, hflow | ⟨reason, hflow⟩⟩ | ⟨hgood, steamId, hflow⟩
      · rw [hflow]
        exact executeAndSave_run hcreds hload fun t ht => hstored t ht ▸ hbad
      · rw [hflow]
        exact executeAndSave_run hcreds hload fun t ht => hstored t ht ▸ hbad
      · rw [hflow]
        simp only [saveToken]
        rcases hsave : env.saveFailure creds.accountName token with _ | e
        · exact ⟨_, _, _, by simp [StoreState.act],
            .reuses steamId token hload hentry hgood hflow hsave⟩
        · exact ⟨_, _, _, by simp [StoreState.act],
            .reuseFails steamId token e hload hentry hgood hflow hsave⟩
  · exact ⟨_, _, _, rfl, .loadFails e hload⟩

/-! ### What a call leaves behind -/

/-- The act saves a token. -/
def SignInAct.isSave : SignInAct → Bool
  | .save _ _ => true
  | _ => false

/-- The act is on the entry of the account, or not on the store at all. -/
def SignInAct.On (account : String) : SignInAct → Prop
  | .load a => a = account
  | .save a _ => a = account
  | .passwordFlow => True

/-- What is asked of a call for `account` on a store with these entries, by the entries that it
leaves and what it does. -/
structure StoreKept (J : JwtCode) (env : SignInEnv) (signIn : SignIn) (account : String)
    (entries : String → Option String) (res : Except Error SignInOutcome)
    (left : String → Option String) (acts : List SignInAct) : Prop where
  /-- The password flow runs if the load gives no token, or one that is of no use. -/
  password_iff : SignInAct.passwordFlow ∈ acts ↔
    env.loadFailure account = none ∧
      (entries account = none ∨
        ∃ token, entries account = some token ∧ (Undecodable J token ∨ Expired J env.now token))
  one_save : acts.countP SignInAct.isSave ≤ 1
  /-- On success the entry is the token that is returned. -/
  returned : ∀ steamId token access, res = .ok (.success steamId token access) →
    left account = some token
  /-- Else it is the old one. -/
  unchanged : (∀ steamId token access, res ≠ .ok (.success steamId token access)) →
    left account = entries account
  /-- A bad token is not written back: what is saved in its place is what the flow issues. -/
  not_back : ∀ bad, entries account = some bad →
    Undecodable J bad ∨ Expired J env.now bad → ∀ token, SignInAct.save account token ∈ acts →
      ∃ steamId access, env.passwordFlow signIn = .ok (.success steamId token access)
  own_entry : ∀ act ∈ acts, act.On account
  others : ∀ a, a ≠ account → left a = entries a

variable {entries left : String → Option String} {res : Except Error SignInOutcome}
  {acts : List SignInAct}

/-- Nothing to reuse: no token, or one of no use. -/
theorem stale_iff {J : JwtCode} {now : UInt64} {stored : Option String} :
    Stale J now stored ↔
      stored = none ∨
        ∃ token, stored = some token ∧ (Undecodable J token ∨ Expired J now token) := by
  cases stored <;> simp [Stale]

/-- A good token is not stale. -/
theorem not_stale_of_good {J : JwtCode} {now : UInt64} {stored : Option String} {token : String}
    (hentry : stored = some token) (hgood : ¬ (Undecodable J token ∨ Expired J now token)) :
    ¬ Stale J now stored := fun hstale => hgood (hstale token hentry)

/-- The password flow runs if the load succeeds and there is nothing to reuse. -/
theorem StoreRun.password_iff (h : StoreRun J env signIn account entries res left acts) :
    SignInAct.passwordFlow ∈ acts ↔
      env.loadFailure account = none ∧ Stale J env.now (entries account) := by
  cases h with
  | loadFails e hload => simp [hload]
  | reuses steamId token hload hentry hgood hcheck hsave =>
      simp [not_stale_of_good hentry hgood]
  | reuseFails steamId token e hload hentry hgood hcheck hsave =>
      simp [not_stale_of_good hentry hgood]
  | issues steamId token access hload hstale hflow hsave => simp [hload, hstale]
  | issueFails steamId token access e hload hstale hflow hsave => simp [hload, hstale]
  | refused res hload hstale hflow hres => simp [hload, hstale]

/-- A saved token was issued, unless the stored one is good. -/
theorem StoreRun.issued_of_save (h : StoreRun J env signIn account entries res left acts)
    (hstale : Stale J env.now (entries account)) {token : String}
    (hmem : SignInAct.save account token ∈ acts) :
    ∃ steamId access, env.passwordFlow signIn = .ok (.success steamId token access) := by
  cases h with
  | loadFails e hload => simp at hmem
  | reuses steamId token hload hentry hgood hcheck hsave =>
      exact absurd hstale (not_stale_of_good hentry hgood)
  | reuseFails steamId token e hload hentry hgood hcheck hsave =>
      exact absurd hstale (not_stale_of_good hentry hgood)
  | issues steamId token' access hload _ hflow hsave =>
      obtain rfl : token = token' := by simpa using hmem
      exact ⟨steamId, access, hflow⟩
  | issueFails steamId token' access e hload _ hflow hsave =>
      obtain rfl : token = token' := by simpa using hmem
      exact ⟨steamId, access, hflow⟩
  | refused res hload _ hflow hres => simp at hmem

/-- The entries after a call. -/
theorem StoreRun.left_eq (h : StoreRun J env signIn account entries res left acts) :
    (∃ steamId token access, res = .ok (.success steamId token access) ∧
        left = Function.update entries account (some token)) ∨
      (∀ steamId token access, res ≠ .ok (.success steamId token access)) ∧ left = entries := by
  cases h with
  | loadFails e hload => exact .inr ⟨by simp, rfl⟩
  | reuses steamId token hload hentry hgood hcheck hsave =>
      exact .inl ⟨steamId, token, none, rfl, rfl⟩
  | reuseFails steamId token e hload hentry hgood hcheck hsave => exact .inr ⟨by simp, rfl⟩
  | issues steamId token access hload hstale hflow hsave =>
      exact .inl ⟨steamId, token, access, rfl, rfl⟩
  | issueFails steamId token access e hload hstale hflow hsave => exact .inr ⟨by simp, rfl⟩
  | refused res hload hstale hflow hres => exact .inr ⟨hres, rfl⟩

/-- Every way of a call is as it is asked. -/
theorem StoreRun.kept (h : StoreRun J env signIn account entries res left acts) :
    StoreKept J env signIn account entries res left acts where
  password_iff := by rw [h.password_iff, stale_iff]
  one_save := by cases h <;> simp [SignInAct.isSave]
  returned steamId token access hres := by
    rcases h.left_eq with ⟨steamId', token', access', hres', rfl⟩ | ⟨hnone, -⟩
    · obtain ⟨-, rfl, -⟩ := SignInOutcome.success.inj (Except.ok.inj (hres.symm.trans hres'))
      exact Function.update_self account (some token) entries
    · exact absurd hres (hnone steamId token access)
  unchanged hnone := by
    rcases h.left_eq with ⟨steamId, token, access, hres, -⟩ | ⟨-, rfl⟩
    · exact absurd hres (hnone steamId token access)
    · rfl
  not_back bad hentry hbad token hmem :=
    h.issued_of_save (stale_iff.mpr (.inr ⟨bad, hentry, hbad⟩)) hmem
  own_entry := by cases h <;> simp [SignInAct.On]
  others a ha := by
    rcases h.left_eq with ⟨_, token, _, -, rfl⟩ | ⟨-, rfl⟩
    · exact Function.update_of_ne ha (some token) entries
    · rfl

/-- **One sign-in on a store.** A password builder keeps to its own entry, which holds the returned
token afterwards or what it held before. A refresh-token builder does not touch the store. -/
theorem sign_in_keeps_store (J : JwtCode) (env : SignInEnv) (entries : String → Option String) :
    (∀ (creds : PasswordCredentials) (proxy : Option ProxyConfig),
      ∃ res left acts,
        SignIn.executeWithStore J env ⟨.password creds, proxy⟩ ⟨entries, []⟩ = (res, ⟨left, acts⟩) ∧
        StoreKept J env ⟨.password creds, proxy⟩ creds.accountName entries res left acts) ∧
    ∀ (token : String) (proxy : Option ProxyConfig),
      SignIn.executeWithStore J env ⟨.refreshToken token, proxy⟩ ⟨entries, []⟩ =
        (executeRefreshTokenFlow J env.now token, ⟨entries, []⟩) := by
  refine ⟨fun creds proxy => ?_, fun token proxy => rfl⟩
  obtain ⟨res, left, acts, hrun, hways⟩ :=
    @executeWithStore_run J env ⟨.password creds, proxy⟩ creds rfl ⟨entries, []⟩
  exact ⟨res, left, acts, hrun, hways.kept⟩

/-! ### Calls one after the other -/

/-- Calls one after the other, each with what it meets: what they return, and the store
afterwards. -/
def callsInTurn (J : JwtCode) : List (SignInEnv × SignIn) → StoreState →
    List (SignIn × Except Error SignInOutcome) × StoreState
  | [], s => ([], s)
  | (env, signIn) :: calls, s =>
      let (res, s) := signIn.executeWithStore J env s
      let (later, s) := callsInTurn J calls s
      ((signIn, res) :: later, s)

/-- The token that a password builder has returned for the account. -/
def returnedFor (account : String) : SignIn × Except Error SignInOutcome → Option String
  | (⟨.password creds, _⟩, .ok (.success _ token _)) =>
      if creds.accountName = account then some token else none
  | _ => none

/-- One call puts the token that it returns over the entry. -/
theorem entry_of_call (J : JwtCode) (env : SignInEnv) (signIn : SignIn) (s : StoreState)
    (account : String) :
    (signIn.executeWithStore J env s).2.entries account =
      (returnedFor account (signIn, (signIn.executeWithStore J env s).1)).or
        (s.entries account) := by
  obtain ⟨⟨creds⟩ | ⟨token⟩, proxy⟩ := signIn
  · obtain ⟨res, left, acts, hrun, hways⟩ :=
      @executeWithStore_run J env ⟨.password creds, proxy⟩ creds rfl s
    rw [hrun]
    rcases hways.left_eq with ⟨steamId, token, access, rfl, rfl⟩ | ⟨hnone, rfl⟩
    · by_cases haccount : creds.accountName = account
      · simp [returnedFor, haccount]
      · simp [returnedFor, haccount, Function.update_of_ne (Ne.symm haccount)]
    · have hreturned : returnedFor account (⟨.password creds, proxy⟩, res) = none := by
        rw [returnedFor.eq_def]
        split
        · rename_i heq
          exact absurd (Prod.mk.inj heq).2 (hnone _ _ _)
        · rfl
      rw [hreturned]
      rfl
  · rfl

/-- **Calls one after the other.** The entry of an account is the token that was last returned for
it, and what it was in the beginning if there is none. -/
theorem entry_of_calls (J : JwtCode) (calls : List (SignInEnv × SignIn)) (s : StoreState)
    (account : String) :
    (callsInTurn J calls s).2.entries account =
      ((callsInTurn J calls s).1.reverse.findSome? (returnedFor account)).or
        (s.entries account) := by
  induction calls generalizing s with
  | nil => rfl
  | cons call calls ih =>
      obtain ⟨env, signIn⟩ := call
      simp only [callsInTurn, List.reverse_cons, List.findSome?_append, List.findSome?_singleton]
      rw [ih, entry_of_call, Option.or_assoc]

/-! ### A call among others -/

/-- A call that is alone comes to the password flow, if there is nothing to reuse. -/
theorem exec_to_password {now : UInt64} {stored : Option String} (hstale : Stale J now stored) :
    ∃ moves log, Ledger.exec (SignIns.step J) (SignIns.begin stored 1) moves =
      some ⟨stored, [.password], log⟩ := by
  rcases stored with _ | token
  · exact ⟨[(0, .load none)], [], rfl⟩
  · refine ⟨[(0, .load none), (0, .check now)], [.loaded 0 token], ?_⟩
    rcases executeRefreshTokenFlow_cases J now token with
      ⟨-, hflow | ⟨reason, hflow⟩⟩ | ⟨hgood, -⟩
    · simp [Ledger.exec_cons, SignIns.begin, SignIns.step, SignIns.goto, hflow]
    · simp [Ledger.exec_cons, SignIns.begin, SignIns.step, SignIns.goto, hflow]
    · exact absurd hstale (not_stale_of_good rfl hgood)

/-- A password flow that issues no token ends the call. -/
theorem step_refused {stored : Option String} {log : List StoreEvent}
    (hres : ∀ steamId token access, res ≠ .ok (.success steamId token access)) :
    SignIns.step J ⟨stored, [.password], log⟩ (0, .password res) =
      some ⟨stored, [.done res], log⟩ := by
  rcases res with e | outcome
  · rfl
  · cases outcome with
    | success steamId token access => exact absurd rfl (hres steamId token access)
    | needsMobileGuardCode => rfl
    | guardCodeRejected => rfl
    | needsEmailGuardCode emailDomain => rfl
    | invalidCredentials => rfl
    | tokenRejected => rfl
    | rateLimited retryHint => rfl

/-- **A call on its own is a run of one call**, with the same result and the same entry left. -/
theorem StoreRun.signIns (h : StoreRun J env signIn account entries res left acts) :
    ∃ moves log, Ledger.exec (SignIns.step J) (SignIns.begin (entries account) 1) moves =
      some ⟨left account, [.done res], log⟩ := by
  cases h with
  | loadFails e hload => exact ⟨[(0, .load (some e))], [], rfl⟩
  | reuses steamId token hload hentry hgood hcheck hsave =>
      refine ⟨[(0, .load none), (0, .check env.now), (0, .save none)],
        [.loaded 0 token, .reused 0 token], ?_⟩
      simp [Ledger.exec_cons, SignIns.begin, SignIns.step, SignIns.goto, SignIns.save, hentry,
        hcheck]
  | reuseFails steamId token e hload hentry hgood hcheck hsave =>
      refine ⟨[(0, .load none), (0, .check env.now), (0, .save (some e))], [.loaded 0 token], ?_⟩
      simp [Ledger.exec_cons, SignIns.begin, SignIns.step, SignIns.goto, SignIns.save, hentry,
        hcheck]
  | issues steamId token access hload hstale hflow hsave =>
      obtain ⟨moves, log, hexec⟩ := exec_to_password hstale
      refine ⟨moves ++ [(0, .password (.ok (.success steamId token access))), (0, .save none)],
        log ++ [.issued 0 token], Ledger.exec_append_eq_some.mpr ⟨_, hexec, ?_⟩⟩
      simp [Ledger.exec_cons, SignIns.step, SignIns.goto, SignIns.save]
  | issueFails steamId token access e hload hstale hflow hsave =>
      obtain ⟨moves, log, hexec⟩ := exec_to_password hstale
      refine ⟨moves ++ [(0, .password (.ok (.success steamId token access))), (0, .save (some e))],
        log, Ledger.exec_append_eq_some.mpr ⟨_, hexec, ?_⟩⟩
      simp [Ledger.exec_cons, SignIns.step, SignIns.goto, SignIns.save]
  | refused res hload hstale hflow hres =>
      obtain ⟨moves, log, hexec⟩ := exec_to_password hstale
      exact ⟨moves ++ [(0, .password res)], log, Ledger.exec_append_eq_some.mpr
        ⟨_, hexec, Ledger.exec_cons_eq_some.mpr ⟨_, step_refused hres, rfl⟩⟩⟩

end Steamroids
