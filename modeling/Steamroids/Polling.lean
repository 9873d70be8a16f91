import Steamroids.Binary32
import Steamroids.TokenStore

/-!
# Polling for a Token

The last phase of a password sign-in, `poll_for_token` (`auth/signin.rs`): ask Steam over and over
whether the login has been approved, until the answer is an error or brings a token, or until two
minutes are over. Steam may hand out a new client id with an answer, and the next poll must use it.

The loop ends by the clock and not by a counter. What ends it for certain is that every sleep lasts
a second or more, whatever interval Steam asks for (`computePollInterval_bounds`): the poll number
`n` (from 0) is sent `n` seconds after the start or later, so there is no poll with number 120.

## Main results

* `call_error`: a call fails with few kinds of errors, and never with a timeout.
* `pollLoop_undecided`: the loop over any number of answers that decide nothing.
* `poll_for_token_rules`: what is polled, how often, and what is returned.
-/

namespace Steamroids

/-! ### The web API -/

/-- `EResult::InvalidPassword`. -/
def EResult.invalidPassword : Int := 5
/-- `EResult::AccountLogonDenied`: Steam Guard email code required. -/
def EResult.accountLogonDenied : Int := 63
/-- `EResult::AccountLoginDeniedNeedTwoFactor`. -/
def EResult.accountLoginDeniedNeedTwoFactor : Int := 85
/-- `EResult::AccountLoginDeniedThrottle`. -/
def EResult.accountLoginDeniedThrottle : Int := 87
/-- `EResult::TwoFactorCodeMismatch`. -/
def EResult.twoFactorCodeMismatch : Int := 88

/-- Backoff suggested on a rate-limited sign-in. -/
def rateLimitBackoff : Nat := fromSecs 60

/-- Translate a result other than OK into an outcome; `none` if it is to be an error. -/
def mapNonOkEresult (er : Int) : Option SignInOutcome :=
  if er = EResult.invalidPassword then some .invalidCredentials
  else if er = EResult.accountLogonDenied then some (.needsEmailGuardCode "")
  else if er = EResult.accountLoginDeniedNeedTwoFactor then some .needsMobileGuardCode
  else if er = EResult.twoFactorCodeMismatch then some .guardCodeRejected
  else if er = EResult.rateLimitExceeded ∨ er = EResult.accountLoginDeniedThrottle then
    some (.rateLimited (some rateLimitBackoff))
  else none

/-- The result codes that stand for an outcome of a sign-in, and the outcomes. -/
inductive MeansOutcome : Int → SignInOutcome → Prop
  | invalidPassword : MeansOutcome 5 .invalidCredentials
  | accountLogonDenied : MeansOutcome 63 (.needsEmailGuardCode "")
  | rateLimitExceeded : MeansOutcome 84 (.rateLimited (some (fromSecs 60)))
  | accountLoginDeniedNeedTwoFactor : MeansOutcome 85 .needsMobileGuardCode
  | accountLoginDeniedThrottle : MeansOutcome 87 (.rateLimited (some (fromSecs 60)))
  | twoFactorCodeMismatch : MeansOutcome 88 .guardCodeRejected

/-- The code stands for no outcome. -/
def MeansNone (er : Int) : Prop := er ∉ [5, 63, 84, 85, 87, 88]

/-- The translation is this table. -/
theorem mapNonOkEresult_eq_some_iff {er : Int} {outcome : SignInOutcome} :
    mapNonOkEresult er = some outcome ↔ MeansOutcome er outcome := by
  constructor
  · intro h
    unfold mapNonOkEresult at h
    split_ifs at h with h₁ h₂ h₃ h₄ h₅
    · obtain rfl := Option.some.inj h
      exact h₁ ▸ .invalidPassword
    · obtain rfl := Option.some.inj h
      exact h₂ ▸ .accountLogonDenied
    · obtain rfl := Option.some.inj h
      exact h₃ ▸ .accountLoginDeniedNeedTwoFactor
    · obtain rfl := Option.some.inj h
      exact h₄ ▸ .twoFactorCodeMismatch
    · obtain rfl := Option.some.inj h
      rcases h₅ with h₅ | h₅
      · exact h₅ ▸ .rateLimitExceeded
      · exact h₅ ▸ .accountLoginDeniedThrottle
  · intro h
    cases h <;> rfl

/-- The codes outside the table are to be errors. -/
theorem mapNonOkEresult_eq_none_iff {er : Int} : mapNonOkEresult er = none ↔ MeansNone er := by
  have htable : er ∈ [5, 63, 84, 85, 87, 88] ↔ ∃ outcome, MeansOutcome er outcome := by
    constructor
    · simp only [List.mem_cons, List.not_mem_nil, or_false]
      rintro (rfl | rfl | rfl | rfl | rfl | rfl)
      · exact ⟨_, .invalidPassword⟩
      · exact ⟨_, .accountLogonDenied⟩
      · exact ⟨_, .rateLimitExceeded⟩
      · exact ⟨_, .accountLoginDeniedNeedTwoFactor⟩
      · exact ⟨_, .accountLoginDeniedThrottle⟩
      · exact ⟨_, .twoFactorCodeMismatch⟩
    · rintro ⟨outcome, h⟩
      cases h <;> decide
  rw [MeansNone, htable, Option.eq_none_iff_forall_ne_some]
  simp only [ne_eq, mapNonOkEresult_eq_some_iff, not_exists]

/-- What a request to the web API comes back with: the value of the `x-eresult` header, and the
body unless reading it fails. -/
structure HttpResponse where
  xEresult : Option Bytes
  body : Except String Bytes

/-- `HeaderValue::to_str`: visible ASCII characters only. -/
def headerToStr (value : Bytes) : Option (List Char) :=
  if value.all fun b => (32 ≤ b && b < 127) || b == 9 then
    some (value.map fun b => Char.ofNat b.toNat)
  else
    none

/-- `str::parse::<i32>`, without the kind of an error. -/
def parseI32 (text : List Char) : Option Int :=
  let digits (ds : List Char) : Option Nat :=
    if !ds.isEmpty && ds.all Char.isDigit then some (Nat.ofDigitChars 10 ds 0) else none
  match text with
  | '-' :: ds => ((digits ds).filter (· ≤ 2 ^ 31)).map fun n => -(n : Int)
  | '+' :: ds => ((digits ds).filter (· < 2 ^ 31)).map Int.ofNat
  | ds => ((digits ds).filter (· < 2 ^ 31)).map Int.ofNat

/-- Where the auth service is. -/
def authBaseUrl : String := "https://api.steampowered.com/IAuthenticationService/"

/-- The URL of a method; `parse` gives the error if the URL does not parse. -/
def urlFor (parse : String → Option String) (method : String) : Except Error String :=
  let raw := authBaseUrl ++ method ++ "/v1/"
  (parse raw).elim (.ok raw) fun e => .error (.urlParse e)

/-- The code of others that a call uses: the URL parser by its errors, and prost's decoder. -/
structure WebApi (Resp : Type) where
  parseUrl : String → Option String
  decode : Bytes → Except String Resp

/-- Dispatch one auth call, whose request is answered by `sent`. -/
def call {Resp : Type} (A : WebApi Resp) (method : String) (sent : Except String HttpResponse) :
    Except Error (Int × Resp) := do
  let _ ← urlFor A.parseUrl method
  let response ← sent.mapError fun e => .network (method ++ ": " ++ e)
  let header ← response.xEresult.elim
    (.error (.authRejected (method ++ ": response missing x-eresult header"))) .ok
  let text ← (headerToStr header).elim
    (.error (.authRejected (method ++ ": x-eresult not ascii"))) .ok
  let er ← (parseI32 text).elim
    (.error (.authRejected (method ++ ": x-eresult not an integer"))) .ok
  let body ← response.body.mapError fun e => .network (method ++ " read body: " ++ e)
  let resp ← (A.decode body).mapError fun e =>
    .authRejected ("decode " ++ method ++ " response: " ++ e)
  pure (er, resp)

/-- The errors of a call. -/
def Error.isCallError : Error → Bool
  | .urlParse _ => true
  | .network _ => true
  | .authRejected _ => true
  | _ => false

/-- A failure of two steps is one of the first or of the second. -/
theorem bind_isCallError {α β : Type} {x : Except Error α} {f : α → Except Error β}
    (hx : ∀ e, x = .error e → e.isCallError = true)
    (hf : ∀ a e, f a = .error e → e.isCallError = true) (e : Error)
    (h : x >>= f = .error e) : e.isCallError = true := by
  cases x with
  | error e' => exact hx e (congrArg Except.error (Except.error.inj h))
  | ok a => exact hf a e h

/-- A call that fails was not made, did not come through, or was answered with nonsense. -/
theorem call_error {Resp : Type} (A : WebApi Resp) (method : String)
    (sent : Except String HttpResponse) (e : Error) (h : call A method sent = .error e) :
    e.isCallError = true := by
  have helim {α : Type} {x : Option α} {e e' : Error} (he : e.isCallError = true)
      (hx : x.elim (.error e) .ok = (.error e' : Except Error α)) : e'.isCallError = true := by
    cases x with
    | none => exact Except.error.inj hx ▸ he
    | some a => cases hx
  have hmap {α : Type} {x : Except String α} {g : String → Error} {e' : Error}
      (hg : ∀ t, (g t).isCallError = true) (hx : x.mapError g = .error e') :
      e'.isCallError = true := by
    cases x with
    | error t => exact Except.error.inj hx ▸ hg t
    | ok a => cases hx
  revert h
  refine bind_isCallError ?_ (fun _ => bind_isCallError ?_ fun _ => bind_isCallError ?_ fun _ =>
    bind_isCallError ?_ fun _ => bind_isCallError ?_ fun _ => bind_isCallError ?_ fun _ =>
    bind_isCallError ?_ ?_) e
  · intro e he
    rw [urlFor] at he
    cases hp : A.parseUrl (authBaseUrl ++ method ++ "/v1/") with
    | none => simp [hp] at he
    | some t =>
        rw [hp] at he
        exact Except.error.inj he ▸ rfl
  · exact fun e => hmap fun _ => rfl
  · exact fun e => helim rfl
  · exact fun e => helim rfl
  · exact fun e => helim rfl
  · exact fun e => hmap fun _ => rfl
  · exact fun e => hmap fun _ => rfl
  · intro resp e he
    cases he

/-! ### The interval -/

/-- Seconds between polls if Steam names none. -/
def pollDefaultIntervalSecs : Nat := 5

/-- The budget of the whole poll phase. -/
def pollBudget : Nat := fromSecs 120

/-- Translate Steam's poll-interval hint into a duration, clamping nonsense values. -/
def computePollInterval (steamInterval : Option Binary32) : Nat :=
  match steamInterval.filter fun i => i.isFinite && 0 < i.value with
  | none => fromSecs pollDefaultIntervalSecs
  | some raw => fromSecs (Binary32.round (min (max raw.value 1) 60)).toNat

/-- Between a second and a minute, whatever Steam says. -/
theorem computePollInterval_bounds (steamInterval : Option Binary32) :
    ∃ secs, computePollInterval steamInterval = fromSecs secs ∧ 1 ≤ secs ∧ secs ≤ 60 := by
  rw [computePollInterval]
  split
  · exact ⟨pollDefaultIntervalSecs, rfl, by decide, by decide⟩
  · rename_i raw _
    refine ⟨_, rfl, ?_, ?_⟩
    · have hlow : ((1 : ℕ) : ℚ) ≤ min (max raw.value 1) 60 := by
        rw [Nat.cast_one]
        exact le_min (le_max_right _ _) (by decide +kernel)
      exact Int.toNat_le_toNat (Binary32.le_round hlow)
    · have hnonneg : (0 : ℚ) ≤ min (max raw.value 1) 60 :=
        le_min (le_trans (by decide +kernel) (le_max_right _ _)) (by decide +kernel)
      have hhigh : min (max raw.value 1) 60 ≤ ((60 : ℕ) : ℚ) := min_le_right _ _
      exact Int.toNat_le.mpr (Binary32.round_le hnonneg hhigh)

/-! ### The loop -/

/-- What polling uses of the answer to `BeginAuthSessionViaCredentials`. -/
structure BeginSession where
  clientId : UInt64
  requestId : Bytes
  sessionSteamid : UInt64
  pollInterval : Nat
  /-- The interval was computed from the hint of the answer. -/
  pollInterval_spec : ∃ hint, pollInterval = computePollInterval hint

/-- `CAuthenticationPollAuthSessionStatusRequest`, without the field that is never set. -/
structure PollRequest where
  clientId : Option UInt64
  requestId : Option Bytes
  deriving DecidableEq, Repr

/-- The fields of `CAuthenticationPollAuthSessionStatusResponse` that are read. -/
structure PollResponse where
  newClientId : Option UInt64 := none
  refreshToken : Option String := none
  accessToken : Option String := none
  deriving DecidableEq, Repr

/-- The result of one call, as the loop gets it. -/
abbrev PollAnswer := Except Error (Int × PollResponse)

/-- What polling meets: how the call number `n` (from 0) goes, and the time. `clock 0` is the
beginning, and `clock n` is read after the `n`-th sleep. -/
structure PollWorld where
  exchange : Nat → Except String HttpResponse
  clock : Nat → Nat

/-- Apply Steam's rotation hint, keeping the current id when it is absent or zero. -/
def rotateClientId (current : UInt64) (hint : Option UInt64) : UInt64 :=
  (hint.filter (· ≠ 0)).getD current

/-- What the loop makes of an answer; `none` polls on. -/
def judgePoll (J : JwtCode) (session : BeginSession) :
    PollAnswer → Option (Except Error SignInOutcome)
  | .error e => some (.error e)
  | .ok (er, resp) =>
      if er ≠ EResult.ok then
        some ((mapNonOkEresult er).elim
          (.error (.authRejected ("PollAuthSessionStatus eresult " ++ toString er))) .ok)
      else
        (resp.refreshToken.filter (· ≠ "")).map fun rt =>
          .ok (.success ((steamIdFromRefreshToken J rt).toOption.getD session.sessionSteamid) rt
            (resp.accessToken.filter (· ≠ "")))

/-- The rotation hint of an answer. -/
def PollAnswer.newClientId : PollAnswer → Option UInt64
  | .error _ => none
  | .ok (_, resp) => resp.newClientId

section Poll

variable (A : WebApi PollResponse) (J : JwtCode) (session : BeginSession) (world : PollWorld)

/-- The answer to the poll number `n`. -/
def PollWorld.answer (n : Nat) : PollAnswer :=
  call A "PollAuthSessionStatus" (world.exchange n)

/-- The loop of `poll_for_token` from the poll number `n` on, for so many iterations at most: the
requests sent, and the result if the loop ends within them. -/
def pollLoop (deadline : Nat) :
    Nat → Nat → PollRequest → List PollRequest × Option (Except Error SignInOutcome)
  | 0, _, _ => ([], none)
  | fuel + 1, n, req =>
      -- the first poll is sent at once, the others after a sleep and within the deadline
      if n ≠ 0 ∧ deadline ≤ world.clock n then
        ([], some (.error (.timeout "auth poll exceeded 120s")))
      else
        match judgePoll J session (world.answer A n) with
        | some res => ([req], some res)
        | none =>
            let clientId := rotateClientId (req.clientId.getD session.clientId)
              (world.answer A n).newClientId
            let r := pollLoop deadline fuel (n + 1) { req with clientId := some clientId }
            (req :: r.1, r.2)

/-- Poll for the token, for so many iterations at most. -/
def pollForToken (fuel : Nat) : List PollRequest × Option (Except Error SignInOutcome) :=
  pollLoop A J session world (world.clock 0 + pollBudget) fuel 0
    { clientId := some session.clientId, requestId := some session.requestId }

/-! ### What polling is to do -/

/-- The answer is OK, without a token. -/
def PollAnswer.Undecided (a : PollAnswer) : Prop :=
  ∃ resp : PollResponse, a = .ok (EResult.ok, resp) ∧
    (resp.refreshToken = none ∨ resp.refreshToken = some "")

/-- The account that a token is for: the one that it names in its `sub`, or else that of the
session. -/
def AccountOf (token : String) (steamId : UInt64) : Prop :=
  NamesAccount J token steamId ∨
    (¬ ∃ named, NamesAccount J token named) ∧ steamId = session.sessionSteamid

/-- What is returned at an answer that decides. -/
inductive Decides : PollAnswer → Except Error SignInOutcome → Prop
  | failed (e : Error) : Decides (.error e) (.error e)
  | mapped {er : Int} (resp : PollResponse) {outcome : SignInOutcome} : er ≠ EResult.ok →
      MeansOutcome er outcome → Decides (.ok (er, resp)) (.ok outcome)
  | rejected {er : Int} (resp : PollResponse) : er ≠ EResult.ok → MeansNone er →
      Decides (.ok (er, resp))
        (.error (.authRejected ("PollAuthSessionStatus eresult " ++ toString er)))
  | token {resp : PollResponse} {rt : String} {steamId : UInt64} : resp.refreshToken = some rt →
      rt ≠ "" → AccountOf J session rt steamId →
      Decides (.ok (EResult.ok, resp))
        (.ok (.success steamId rt (resp.accessToken.filter (· ≠ ""))))

/-- The last new client id, other than zero, in the first `n` answers; if there is none, the one
that the session began with. -/
def latestClientId (n : Nat) : UInt64 :=
  ((List.range n).filterMap fun i =>
    (world.answer A i).newClientId.filter (· ≠ 0)).getLastD session.clientId

/-- The request of the poll number `n`. -/
def pollRequest (n : Nat) : PollRequest :=
  { clientId := some (latestClientId A session world n), requestId := some session.requestId }

/-- The rules of polling, for the requests sent and the result. -/
structure PollRules (reqs : List PollRequest) (res : Except Error SignInOutcome) : Prop where
  count : 1 ≤ reqs.length ∧ reqs.length ≤ 120
  request : ∀ n req, reqs[n]? = some req → req = pollRequest A session world n
  before : ∀ n, n + 1 < reqs.length → (world.answer A n).Undecided
  last : ∀ n, n + 1 = reqs.length → ¬ (world.answer A n).Undecided →
    Decides J session (world.answer A n) res
  exhausted : ∀ n, n + 1 = reqs.length → (world.answer A n).Undecided →
    res = .error (.timeout "auth poll exceeded 120s")
  timeout : ∀ what, res = .error (.timeout what) →
    (∀ n < reqs.length, (world.answer A n).Undecided) ∧
      world.clock 0 + fromSecs 120 ≤ world.clock reqs.length

end Poll

section Proofs

variable {A : WebApi PollResponse} {J : JwtCode} {session : BeginSession} {world : PollWorld}

/-- The loop polls on at the answers that decide nothing. -/
theorem judgePoll_eq_none_iff {a : PollAnswer} : judgePoll J session a = none ↔ a.Undecided := by
  rcases a with e | ⟨er, resp⟩
  · simp [judgePoll, PollAnswer.Undecided]
  · by_cases her : er = EResult.ok
    · subst her
      rcases hrt : resp.refreshToken with _ | rt
      · simp [judgePoll, PollAnswer.Undecided, hrt]
      · simp [judgePoll, PollAnswer.Undecided, hrt, Option.filter]
    · simp [judgePoll, PollAnswer.Undecided, her]

/-- The account is read from the token, and else taken from the session. -/
theorem accountOf_steamIdFromRefreshToken (token : String) :
    AccountOf J session token
      ((steamIdFromRefreshToken J token).toOption.getD session.sessionSteamid) := by
  rcases hid : steamIdFromRefreshToken J token with e | steamId
  · refine .inr ⟨?_, rfl⟩
    rintro ⟨named, hnamed⟩
    cases hid.symm.trans (steamIdFromRefreshToken_eq_ok_iff.mpr hnamed)
  · exact .inl (steamIdFromRefreshToken_eq_ok_iff.mp hid)

/-- An answer that ends the loop decides what is returned. -/
theorem decides_of_judgePoll {a : PollAnswer} {res : Except Error SignInOutcome}
    (h : judgePoll J session a = some res) : Decides J session a res := by
  rcases a with e | ⟨er, resp⟩
  · obtain rfl := Option.some.inj h
    exact .failed e
  · by_cases her : er = EResult.ok
    · subst her
      simp only [judgePoll, ne_eq, not_true_eq_false, if_false, Option.map_eq_some_iff] at h
      obtain ⟨rt, hrt, rfl⟩ := h
      obtain ⟨hsome, hne⟩ := Option.filter_eq_some_iff.mp hrt
      exact .token hsome (of_decide_eq_true hne) (accountOf_steamIdFromRefreshToken rt)
    · simp only [judgePoll, ne_eq, her, not_false_eq_true, if_true, Option.some.injEq] at h
      subst h
      cases hmap : mapNonOkEresult er with
      | none => exact .rejected resp her (mapNonOkEresult_eq_none_iff.mp hmap)
      | some outcome => exact .mapped resp her (mapNonOkEresult_eq_some_iff.mp hmap)

/-- No answer of Steam is reported as a timeout. -/
theorem Decides.ne_timeout {n : Nat} {res : Except Error SignInOutcome}
    (h : Decides J session (world.answer A n) res) (what : String) :
    res ≠ .error (.timeout what) := by
  rintro rfl
  generalize ha : world.answer A n = a at h
  cases h with
  | failed =>
      have hcall := call_error A _ _ _ ha
      simp [Error.isCallError] at hcall

/-- One more answer rotates the client id. -/
theorem latestClientId_succ (n : Nat) :
    latestClientId A session world (n + 1) =
      rotateClientId (latestClientId A session world n) (world.answer A n).newClientId := by
  rw [latestClientId, latestClientId, rotateClientId, List.range_succ, List.filterMap_append,
    List.filterMap_cons, List.filterMap_nil]
  cases (world.answer A n).newClientId.filter (· ≠ 0) <;> simp

/-- One iteration: an answer in time that decides nothing. -/
theorem pollLoop_step {deadline fuel n : Nat} (htime : n = 0 ∨ world.clock n < deadline)
    (hans : (world.answer A n).Undecided) :
    pollLoop A J session world deadline (fuel + 1) n (pollRequest A session world n) =
      (pollRequest A session world n ::
          (pollLoop A J session world deadline fuel (n + 1)
            (pollRequest A session world (n + 1))).1,
        (pollLoop A J session world deadline fuel (n + 1)
          (pollRequest A session world (n + 1))).2) := by
  have hlate : ¬ (n ≠ 0 ∧ deadline ≤ world.clock n) := by
    rintro ⟨hne, hle⟩
    exact htime.elim hne (Nat.not_lt.mpr hle)
  have hnext : { pollRequest A session world n with
      clientId := some (rotateClientId
        ((pollRequest A session world n).clientId.getD session.clientId)
        (world.answer A n).newClientId) } = pollRequest A session world (n + 1) := by
    simp [pollRequest, latestClientId_succ]
  simp only [pollLoop, hlate, if_false, judgePoll_eq_none_iff.mpr hans, hnext]

/-- The loop over any number of answers in time that decide nothing. -/
theorem pollLoop_undecided (J : JwtCode) (session : BeginSession) {deadline : Nat} (k fuel : Nat)
    (h : ∀ i < k, (i = 0 ∨ world.clock i < deadline) ∧ (world.answer A i).Undecided) :
    pollLoop A J session world deadline (k + fuel) 0 (pollRequest A session world 0) =
      ((List.range k).map (pollRequest A session world) ++
          (pollLoop A J session world deadline fuel k (pollRequest A session world k)).1,
        (pollLoop A J session world deadline fuel k (pollRequest A session world k)).2) := by
  induction k generalizing fuel with
  | zero => simp
  | succ k ih =>
      obtain ⟨htime, hans⟩ := h k (Nat.lt_succ_self k)
      have hprev := ih (fuel + 1) fun i hi => h i (Nat.lt_succ_of_lt hi)
      rw [pollLoop_step htime hans] at hprev
      rw [Nat.add_right_comm, Nat.add_assoc, hprev, List.range_succ]
      simp

/-- Every sleep takes a second or more. -/
theorem clock_ge (hclock : ∀ n, world.clock n + session.pollInterval ≤ world.clock (n + 1))
    (n : Nat) : world.clock 0 + fromSecs n ≤ world.clock n := by
  induction n with
  | zero => simp [fromSecs]
  | succ n ih =>
      obtain ⟨hint, hinterval⟩ := session.pollInterval_spec
      obtain ⟨secs, hsecs, hone, -⟩ := computePollInterval_bounds hint
      have hsecond : fromSecs 1 ≤ session.pollInterval := by
        rw [hinterval, hsecs]
        exact Nat.mul_le_mul_right _ hone
      calc world.clock 0 + fromSecs (n + 1)
          = world.clock 0 + fromSecs n + fromSecs 1 := by
            rw [fromSecs, Nat.add_mul, ← Nat.add_assoc]
            rfl
        _ ≤ world.clock n + session.pollInterval := Nat.add_le_add ih hsecond
        _ ≤ world.clock (n + 1) := hclock n

/-- The requests of a range of polls, by their numbers. -/
theorem getElem?_map_range {f : Nat → PollRequest} {m n : Nat} {req : PollRequest}
    (h : ((List.range m).map f)[n]? = some req) : req = f n := by
  rw [List.getElem?_map, Option.map_eq_some_iff] at h
  obtain ⟨i, hi, rfl⟩ := h
  obtain ⟨hlt, rfl⟩ := List.getElem?_eq_some_iff.mp hi
  rw [List.getElem_range]

/-- The loop goes on in the iteration number `i`. -/
def PollsOn (A : WebApi PollResponse) (world : PollWorld) (i : Nat) : Prop :=
  (i = 0 ∨ world.clock i < world.clock 0 + pollBudget) ∧ (world.answer A i).Undecided

/-- The loop ends, after 120 polls at most. -/
theorem exists_not_pollsOn
    (hclock : ∀ n, world.clock n + session.pollInterval ≤ world.clock (n + 1)) :
    ∃ k ≤ 120, ¬ PollsOn A world k ∧ ∀ i < k, PollsOn A world i := by
  classical
  have hbudget := clock_ge hclock 120
  have hlate : ¬ PollsOn A world 120 := fun h => h.1.elim (by decide) (Nat.not_lt.mpr hbudget)
  have hends : ∃ k, ¬ PollsOn A world k := ⟨120, hlate⟩
  exact ⟨Nat.find hends, Nat.find_min' hends hlate, Nat.find_spec hends,
    fun i hi => not_not.mp (Nat.find_min hends hi)⟩

/-- The loop ends in an iteration that is late. -/
theorem pollForToken_late {k : Nat} (hmin : ∀ i < k, PollsOn A world i) (hne : k ≠ 0)
    (hlate : world.clock 0 + pollBudget ≤ world.clock k) {fuel : Nat} (hfuel : k < fuel) :
    pollForToken A J session world fuel =
      ((List.range k).map (pollRequest A session world),
        some (.error (.timeout "auth poll exceeded 120s"))) := by
  obtain ⟨more, rfl⟩ := Nat.exists_eq_add_of_lt hfuel
  have hloop := pollLoop_undecided J session k (more + 1) hmin
  rw [pollLoop, if_pos ⟨hne, hlate⟩, List.append_nil] at hloop
  exact hloop

/-- The loop ends with an answer that decides. -/
theorem pollForToken_decided {k : Nat} (hmin : ∀ i < k, PollsOn A world i)
    (htime : k = 0 ∨ world.clock k < world.clock 0 + pollBudget)
    {res : Except Error SignInOutcome}
    (hres : judgePoll J session (world.answer A k) = some res) {fuel : Nat} (hfuel : k < fuel) :
    pollForToken A J session world fuel =
      ((List.range (k + 1)).map (pollRequest A session world), some res) := by
  obtain ⟨more, rfl⟩ := Nat.exists_eq_add_of_lt hfuel
  have hloop := pollLoop_undecided J session k (more + 1) hmin
  have hlate : ¬ (k ≠ 0 ∧ world.clock 0 + pollBudget ≤ world.clock k) := by
    rintro ⟨hne, hle⟩
    exact htime.elim hne (Nat.not_lt.mpr hle)
  rw [pollLoop, if_neg hlate, hres] at hloop
  rw [List.range_succ, List.map_append]
  exact hloop

/-- The rules for a loop whose budget is over before any answer decides. -/
theorem pollRules_late {k : Nat} (hmin : ∀ i < k, PollsOn A world i) (hne : k ≠ 0) (hle : k ≤ 120)
    (hlate : world.clock 0 + pollBudget ≤ world.clock k) :
    PollRules A J session world ((List.range k).map (pollRequest A session world))
      (.error (.timeout "auth poll exceeded 120s")) := by
  have hlen : ((List.range k).map (pollRequest A session world)).length = k := by simp
  refine ⟨?_, fun n req => getElem?_map_range, ?_, ?_, ?_, ?_⟩
  · rw [hlen]
    omega
  · intro n hn
    exact (hmin n (by omega)).2
  · intro n hn hdec
    exact absurd (hmin n (by omega)).2 hdec
  · exact fun _ _ _ => rfl
  · intro what _
    rw [hlen]
    exact ⟨fun n hn => (hmin n hn).2, hlate⟩

/-- The rules for a loop that ends with an answer that decides. -/
theorem pollRules_decided {k : Nat} (hmin : ∀ i < k, PollsOn A world i) (hlt : k < 120)
    {res : Except Error SignInOutcome}
    (hres : judgePoll J session (world.answer A k) = some res) :
    PollRules A J session world ((List.range (k + 1)).map (pollRequest A session world)) res := by
  have hdecides := decides_of_judgePoll hres
  have hdec : ¬ (world.answer A k).Undecided := by
    intro hans
    rw [judgePoll_eq_none_iff.mpr hans] at hres
    cases hres
  have hlen : ((List.range (k + 1)).map (pollRequest A session world)).length = k + 1 := by simp
  refine ⟨?_, fun n req => getElem?_map_range, ?_, ?_, ?_, ?_⟩
  · rw [hlen]
    omega
  · intro n hn
    exact (hmin n (by omega)).2
  · intro n hn _
    obtain rfl : n = k := by omega
    exact hdecides
  · intro n hn hans
    obtain rfl : n = k := by omega
    exact absurd hans hdec
  · intro what hwhat
    exact absurd hwhat (hdecides.ne_timeout what)

/-- **The rules of polling.** On every clock that advances by the interval with every sleep, and
for every sequence of answers, the loop ends within 121 iterations. It sends 120 polls at most, each
with the client id that Steam handed out last; it returns at the first answer that decides, with
what that answer says; and it times out only if no answer decided and the budget is used up. -/
theorem poll_for_token_rules (A : WebApi PollResponse) (J : JwtCode) (session : BeginSession)
    (world : PollWorld)
    (hclock : ∀ n, world.clock n + session.pollInterval ≤ world.clock (n + 1)) :
    ∃ reqs res, (∀ fuel, 121 ≤ fuel → pollForToken A J session world fuel = (reqs, some res)) ∧
      PollRules A J session world reqs res := by
  have hbudget := clock_ge hclock 120
  obtain ⟨k, hle, hk, hmin⟩ := exists_not_pollsOn (A := A) hclock
  by_cases hlate : k ≠ 0 ∧ world.clock 0 + pollBudget ≤ world.clock k
  · obtain ⟨hne, hlate⟩ := hlate
    exact ⟨_, _, fun fuel hfuel => pollForToken_late hmin hne hlate (by omega),
      pollRules_late hmin hne hle hlate⟩
  · have htime : k = 0 ∨ world.clock k < world.clock 0 + pollBudget := by omega
    have hdec : ¬ (world.answer A k).Undecided := fun hans => hk ⟨htime, hans⟩
    have hlt : k < 120 := by
      rcases htime with rfl | htime
      · decide
      · rcases Nat.lt_or_eq_of_le hle with hlt | rfl
        · exact hlt
        · exact absurd hbudget (Nat.not_le.mpr htime)
    obtain ⟨res, hres⟩ := Option.ne_none_iff_exists'.mp (mt judgePoll_eq_none_iff.mp hdec)
    exact ⟨_, _, fun fuel hfuel => pollForToken_decided hmin htime hres (by omega),
      pollRules_decided hmin hlt hres⟩

end Proofs

namespace Sample

/-- A session with the default interval, of another account than the one that a token names. -/
def pollSession : BeginSession where
  clientId := 3
  requestId := [1]
  sessionSteamid := 8
  pollInterval := computePollInterval none
  pollInterval_spec := ⟨none, rfl⟩

/-- What prost makes of an answer that is empty, or holds a small new client id or a token. -/
def pollApi : WebApi PollResponse where
  parseUrl _ := none
  decode
    | [] => .ok {}
    | [0x08, id] => if id < 0x80 then .ok { newClientId := some id.toUInt64 }
        else .error "invalid varint"
    | 0x1a :: n :: token =>
        if n < 0x80 ∧ token.length = n.toNat then
          .ok { refreshToken := some (String.ofList (token.map fun b => Char.ofNat b.toNat)) }
        else
          .error "buffer underflow"
    | _ => .error "unexpected bytes"

/-- The bytes of an ASCII string. -/
def asciiBytes (s : String) : Bytes := s.toList.map fun c => UInt8.ofNat c.toNat

/-- Steam rotates the client id, then hands out a token. -/
def pollWorld : PollWorld where
  exchange
    | 0 => .ok { xEresult := some [0x31], body := .ok [0x08, 9] }
    | 1 => .ok { xEresult := some [0x31], body := .ok (0x1a :: 39 :: asciiBytes freshToken) }
    | _ => .error "connection refused"
  clock n := fromSecs (5 * n)

end Sample

/-- The second poll uses the new client id, and the account is the one that the token names. -/
theorem poll_for_token_rotated :
    pollForToken Sample.pollApi Sample.jwtCode Sample.pollSession Sample.pollWorld 2 =
        ([⟨some 3, some [1]⟩, ⟨some 9, some [1]⟩],
          some (.ok (.success 7 Sample.freshToken none))) ∧
      ∃ reqs res, (∀ fuel, 121 ≤ fuel →
          pollForToken Sample.pollApi Sample.jwtCode Sample.pollSession Sample.pollWorld fuel =
            (reqs, some res)) ∧
        PollRules Sample.pollApi Sample.jwtCode Sample.pollSession Sample.pollWorld reqs res := by
  refine ⟨by decide +kernel, poll_for_token_rules _ _ _ _ fun n => ?_⟩
  show fromSecs (5 * n) + fromSecs 5 ≤ fromSecs (5 * (n + 1))
  rw [fromSecs, fromSecs, fromSecs, ← Nat.add_mul]
  exact Nat.mul_le_mul_right _ (Nat.mul_succ 5 n).ge

end Steamroids
