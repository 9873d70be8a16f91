import Steamroids.SignIn

/-!
# When a Refresh Token Is Accepted

The refresh-token flow (`SignIn::execute_refresh_token_flow`, `auth/signin.rs`) checks a token
without asking Steam. This module compares it with what is said about it: a token is accepted only
if it is not about to expire.

The expiry is read by `as_u64`, which knows plain integers only. A number written in another way
(`1.5e9`, `-1`, `160.0`) is valid JSON too, but the flow takes it for no expiry at all.

## Main results

* `due_iff_of_plain`: for a plain integer, the comparison of the source is the one that is meant.
* `refresh_flow_judges_iff`: the flow is right about a token, unless the token hides a past expiry
  in a number that is not a plain integer.
-/

namespace Steamroids

/-! ### Tokens -/

/-- The string is a well-formed token of the account: three non-empty segments between dots, the
middle one base64 of a JSON object with these fields, whose `sub` is the account in decimal. -/
def IsToken (J : JwtCode) (token : String) (steamId : UInt64)
    (fields : List (String × Json)) : Prop :=
  ∃ header payload signature bytes sub,
    token.toList = header ++ '.' :: (payload ++ '.' :: signature) ∧
    ('.' ∉ header ∧ '.' ∉ payload ∧ '.' ∉ signature) ∧
    (header ≠ [] ∧ payload ≠ [] ∧ signature ≠ []) ∧
    payload = Base64Url.encode bytes ∧ J.json bytes = .ok (.object fields) ∧
    fields.lookup "sub" = some (.string sub) ∧ WritesU64 sub steamId

/-- The `exp` of a token is a number, of whatever form, that is at most a minute from `now`. -/
def Due (fields : List (String × Json)) (now : UInt64) : Prop :=
  ∃ n, fields.lookup "exp" = some (.number n) ∧ n.value ≤ now.toNat + 60

/-- What is said of the flow: a success is a well-formed token that is not due, returned as it is
and without an access token; a token that is due is rejected; anything else that is no token is an
error. -/
structure JudgesRight (J : JwtCode) (now : UInt64) (token : String)
    (res : Except Error SignInOutcome) : Prop where
  success : ∀ steamId refreshToken accessToken,
    res = .ok (.success steamId refreshToken accessToken) →
      (∃ fields, IsToken J token steamId fields ∧ ¬ Due fields now) ∧
        refreshToken = token ∧ accessToken = none
  due : ∀ steamId fields, IsToken J token steamId fields → Due fields now →
    res = .ok .tokenRejected
  malformed : (¬ ∃ steamId fields, IsToken J token steamId fields) →
    ∃ reason, res = .error (.authRejected reason)

variable {J : JwtCode} {token : String}

/-- With a standard crate, the strings that are read are the well-formed tokens. -/
theorem isToken_iff (hJ : J.Standard) {steamId : UInt64} {fields : List (String × Json)} :
    IsToken J token steamId fields ↔ TokenOf J token steamId fields := by
  simp only [IsToken, TokenOf, hJ _ _]

/-! ### The flow -/

/-- The token is due by an `exp` that is not a plain integer: it is negative, written with a
fraction or an exponent, or too large for a `u64`. -/
def HidesExpiry (J : JwtCode) (now : UInt64) (token : String) : Prop :=
  ∃ steamId fields n, IsToken J token steamId fields ∧
    fields.lookup "exp" = some (.number n) ∧ n.value ≤ now.toNat + 60 ∧ ¬ n.Plain

/-- The source's comparison is the one that is meant, as long as the number is a plain integer. -/
theorem due_iff_of_plain {fields : List (String × Json)} {now : UInt64}
    (hplain : ∀ n, fields.lookup "exp" = some (.number n) → n.value ≤ now.toNat + 60 → n.Plain) :
    ((fields.lookup "exp").bind Json.asU64).any
        (fun exp => exp.toNat - tokenExpirySlackSecs ≤ now.toNat) = true ↔ Due fields now := by
  rw [Option.any_eq_true]
  constructor
  · rintro ⟨exp, hexp, hle⟩
    obtain ⟨v, hv, hu64⟩ := Option.bind_eq_some_iff.mp hexp
    cases v with
    | number n =>
        have hn : n.Plain := by
          by_contra hn
          simp [Json.asU64, JsonNumber.asU64_of_not_plain hn] at hu64
        obtain ⟨exp', hexp', hwhole⟩ := JsonNumber.asU64_of_plain hn
        obtain rfl : exp' = exp := Option.some.inj (hexp'.symm.trans hu64)
        refine ⟨n, hv, ?_⟩
        have hnat := Nat.le_add_of_sub_le (of_decide_eq_true hle)
        rw [hn.value, ← hwhole]
        exact_mod_cast hnat
    | _ => cases hu64
  · rintro ⟨n, hlookup, hle⟩
    have hn := hplain n hlookup hle
    obtain ⟨exp, hexp, hwhole⟩ := JsonNumber.asU64_of_plain hn
    rw [hn.value, ← hwhole] at hle
    refine ⟨exp, ?_, decide_eq_true (Nat.sub_le_of_le_add ?_)⟩
    · rw [hlookup]
      exact hexp
    · exact_mod_cast hle

/-- What the flow makes of a token, by the expiry that it sees. -/
theorem executeRefreshTokenFlow_of_isToken (hJ : J.Standard) {now steamId : UInt64}
    {fields : List (String × Json)} (h : IsToken J token steamId fields) :
    executeRefreshTokenFlow J now token =
      if ((fields.lookup "exp").bind Json.asU64).any
          (fun exp => exp.toNat - tokenExpirySlackSecs ≤ now.toNat) then .ok .tokenRejected
      else .ok (.success steamId token none) := by
  rw [executeRefreshTokenFlow, ((isToken_iff hJ).mp h).claims]

/-- A string that is no token is an error. -/
theorem executeRefreshTokenFlow_of_not_isToken (hJ : J.Standard) (now : UInt64)
    (h : ¬ ∃ steamId fields, IsToken J token steamId fields) :
    ∃ reason, executeRefreshTokenFlow J now token = .error (.authRejected reason) := by
  rcases hclaims : refreshTokenClaims J token with e | c
  · obtain ⟨reason, rfl⟩ := refreshTokenClaims_error hclaims
    exact ⟨reason, by rw [executeRefreshTokenFlow, hclaims]⟩
  · obtain ⟨fields, htoken, -⟩ := refreshTokenClaims_eq_ok_iff.mp hclaims
    exact absurd ⟨c.steamId, fields, (isToken_iff hJ).mpr htoken⟩ h

/-- **The flow judges right.** It judges a string and a time as it should, if and only if the
string is not a token that hides its expiry. -/
theorem refresh_flow_judges_iff (hJ : J.Standard) (now : UInt64) (token : String) :
    JudgesRight J now token (executeRefreshTokenFlow J now token) ↔
      ¬ HidesExpiry J now token := by
  constructor
  · rintro hright ⟨steamId, fields, n, htoken, hlookup, hle, hn⟩
    have hdue := hright.due steamId fields htoken ⟨n, hlookup, hle⟩
    have hunseen : (fields.lookup "exp").bind Json.asU64 = none := by
      rw [hlookup]
      exact JsonNumber.asU64_of_not_plain hn
    rw [executeRefreshTokenFlow_of_isToken hJ htoken, hunseen] at hdue
    cases hdue
  · intro hseen
    have hiff {steamId : UInt64} {fields : List (String × Json)}
        (htoken : IsToken J token steamId fields) : _ ↔ Due fields now :=
      due_iff_of_plain fun n hlookup hle =>
        not_not.mp fun hn => hseen ⟨steamId, fields, n, htoken, hlookup, hle, hn⟩
    refine ⟨?_, ?_, executeRefreshTokenFlow_of_not_isToken hJ now⟩
    · intro steamId refreshToken accessToken hres
      by_cases hsome : ∃ id fields, IsToken J token id fields
      · obtain ⟨id, fields, htoken⟩ := hsome
        rw [executeRefreshTokenFlow_of_isToken hJ htoken] at hres
        split at hres
        · cases hres
        · rename_i hnot
          obtain ⟨rfl, rfl, rfl⟩ := SignInOutcome.success.inj (Except.ok.inj hres)
          exact ⟨⟨fields, htoken, mt (hiff htoken).mpr hnot⟩, rfl, rfl⟩
      · obtain ⟨reason, herr⟩ := executeRefreshTokenFlow_of_not_isToken hJ now hsome
        cases herr.symm.trans hres
    · intro steamId fields htoken hdue
      rw [executeRefreshTokenFlow_of_isToken hJ htoken, if_pos ((hiff htoken).mpr hdue)]

namespace Sample

/-- A token whose expiry has a fraction is a token. -/
theorem isToken_fractionToken : IsToken jwtCode fractionToken 7 (tokenFields fraction) :=
  ⟨"e30".toList, "eyJzdWIiOiI3IiwiZXhwIjoxLjV9".toList, "c2ln".toList, tokenJson "1.5".toList,
    "7", by decide, by decide, by decide, by decide +kernel, rfl, rfl, ['7'], .inl rfl, by decide,
    List.all_eq_true.mp rfl, by decide⟩

end Sample

/-- A token that expires at 161 is rejected at 101. -/
theorem refresh_flow_judges_expiring :
    executeRefreshTokenFlow Sample.jwtCode 101 Sample.expiringToken =
        .ok .tokenRejected ∧
      (JudgesRight Sample.jwtCode 101 Sample.expiringToken
          (executeRefreshTokenFlow Sample.jwtCode 101 Sample.expiringToken) ↔
        ¬ HidesExpiry Sample.jwtCode 101 Sample.expiringToken) :=
  ⟨by decide +kernel, refresh_flow_judges_iff Sample.jwtCode_standard 101 _⟩

/-- A token with `exp` 1.5 is accepted a hundred seconds after the epoch. -/
theorem fraction_token_accepted :
    ∃ fields, IsToken Sample.jwtCode Sample.fractionToken 7 fields ∧ Due fields 100 ∧
      executeRefreshTokenFlow Sample.jwtCode 100 Sample.fractionToken =
        .ok (.success 7 Sample.fractionToken none) := by
  refine ⟨Sample.tokenFields Sample.fraction, Sample.isToken_fractionToken, ⟨_, rfl, ?_⟩,
    by decide +kernel⟩
  decide +kernel

end Steamroids
