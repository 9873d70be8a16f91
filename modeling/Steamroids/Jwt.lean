import Mathlib.Algebra.Order.Field.Rat
import Steamroids.Base64Url
import Steamroids.Message

/-!
# What a Refresh Token Says

A refresh token is read (`auth/jwt.rs`) through three layers: the dots of the JWT, the base64 of its
middle segment, and the JSON in that. This module spells the layers out, down to the way a number is
written in JSON. The signature is not looked at.

Base64 and JSON are the crates'. Everything else, `str::parse::<u64>` included, is modelled.

## Main results

* `parseU64_eq_ok_iff`: which strings `str::parse::<u64>` accepts.
* `refreshTokenClaims_eq_ok_iff`: which strings are read as a token, and as which one.
* `refreshTokenClaims_error`: every other string is rejected.
-/

namespace Steamroids

/-! ### JSON -/

/-- A number as JSON text writes it. -/
structure JsonNumber where
  negative : Bool := false
  /-- The digits before the point. -/
  whole : Nat
  /-- How many digits stand behind the point, and their value. -/
  fraction : Option (Nat × Nat) := none
  exponent : Option Int := none
  deriving DecidableEq, Repr

namespace JsonNumber

/-- The number that is meant. -/
def value (n : JsonNumber) : ℚ :=
  let behind : ℚ := n.fraction.elim 0 fun f => f.2 / 10 ^ f.1
  (if n.negative then -(n.whole + behind) else n.whole + behind) * 10 ^ n.exponent.getD 0

/-- Written as an integer without a sign, and small enough for a `u64`. -/
def Plain (n : JsonNumber) : Prop :=
  n.negative = false ∧ n.fraction = none ∧ n.exponent = none ∧ n.whole < 2 ^ 64

instance (n : JsonNumber) : Decidable n.Plain := inferInstanceAs (Decidable (_ ∧ _))

/-- `Number::as_u64`: negative numbers and floats have none. -/
def asU64 (n : JsonNumber) : Option UInt64 :=
  if n.Plain then some (UInt64.ofNat n.whole) else none

/-- A plain number means its digits. -/
theorem Plain.value {n : JsonNumber} (h : n.Plain) : n.value = n.whole := by
  obtain ⟨hneg, hfrac, hexp, -⟩ := h
  simp [JsonNumber.value, hneg, hfrac, hexp]

/-- A plain number is read as what it means. -/
theorem asU64_of_plain {n : JsonNumber} (h : n.Plain) :
    ∃ exp, n.asU64 = some exp ∧ exp.toNat = n.whole :=
  ⟨_, if_pos h, UInt64.toNat_ofNat_of_lt' h.2.2.2⟩

/-- A number of another form is read as none. -/
theorem asU64_of_not_plain {n : JsonNumber} (h : ¬ n.Plain) : n.asU64 = none := if_neg h

end JsonNumber

/-- `serde_json::Value`. An object has one entry for each name. -/
inductive Json
  | null
  | bool (b : Bool)
  | number (n : JsonNumber)
  | string (s : String)
  | array (items : List Json)
  | object (fields : List (String × Json))

namespace Json

/-- `Value::get`: only an object has entries. -/
def get (v : Json) (name : String) : Option Json :=
  match v with
  | .object fields => fields.lookup name
  | _ => none

/-- `Value::as_str`. -/
def asStr : Json → Option String
  | .string s => some s
  | _ => none

/-- `Value::as_u64`. -/
def asU64 : Json → Option UInt64
  | .number n => n.asU64
  | _ => none

/-- Only an object has an entry that is a string, and has it as such. -/
theorem get_asStr_eq_some_iff {v : Json} {name s : String} :
    (v.get name).bind asStr = some s ↔
      ∃ fields, v = .object fields ∧ fields.lookup name = some (.string s) := by
  have hstr {w : Json} : w.asStr = some s ↔ w = .string s := by
    cases w <;> simp [asStr]
  simp only [Option.bind_eq_some_iff, hstr]
  cases v <;> simp [get]

end Json

/-! ### Numbers in strings -/

/-- The loop of `str::parse::<u64>`, with the number read so far. -/
def parseDigits (sofar : Nat) : List Char → Except String Nat
  | [] => .ok sofar
  | c :: cs =>
      if c.isDigit then
        let next := 10 * sofar + (c.toNat - '0'.toNat)
        if next < 2 ^ 64 then parseDigits next cs
        else .error "number too large to fit in target type"
      else
        .error "invalid digit found in string"

/-- `str::parse::<u64>`. -/
def parseU64 (s : String) : Except String UInt64 :=
  match s.toList with
  | [] => .error "cannot parse integer from empty string"
  | ['+'] => .error "invalid digit found in string"
  | '+' :: digits => (parseDigits 0 digits).map UInt64.ofNat
  | digits => (parseDigits 0 digits).map UInt64.ofNat

/-- The string is the number in decimal digits, with or without a plus sign. -/
def WritesU64 (s : String) (n : UInt64) : Prop :=
  ∃ digits : List Char, (s.toList = digits ∨ s.toList = '+' :: digits) ∧ digits ≠ [] ∧
    (∀ c ∈ digits, c.isDigit = true) ∧ n.toNat = Nat.ofDigitChars 10 digits 0

/-- More digits never make the number smaller. -/
theorem le_ofDigitChars (digits : List Char) (sofar : Nat) :
    sofar ≤ Nat.ofDigitChars 10 digits sofar := by
  induction digits generalizing sofar with
  | nil => exact Nat.le_refl sofar
  | cons c cs ih =>
      rw [Nat.ofDigitChars_cons]
      exact le_trans (by omega) (ih _)

/-- The loop reads digits only, and only as long as the number fits. -/
theorem parseDigits_eq_ok_iff {digits : List Char} {sofar m : Nat} (hlt : sofar < 2 ^ 64) :
    parseDigits sofar digits = .ok m ↔
      (∀ c ∈ digits, c.isDigit = true) ∧ m < 2 ^ 64 ∧ m = Nat.ofDigitChars 10 digits sofar := by
  induction digits generalizing sofar with
  | nil =>
      simp only [parseDigits, Except.ok.injEq, Nat.ofDigitChars_nil]
      constructor
      · rintro rfl
        exact ⟨List.forall_mem_nil _, hlt, rfl⟩
      · exact fun h => h.2.2.symm
  | cons c cs ih =>
      rw [parseDigits, Nat.ofDigitChars_cons, List.forall_mem_cons]
      by_cases hc : c.isDigit = true
      · by_cases hnext : 10 * sofar + (c.toNat - '0'.toNat) < 2 ^ 64
        · simp only [hc, hnext, if_true, ih hnext, true_and]
        · have hgrows := le_ofDigitChars cs (10 * sofar + (c.toNat - '0'.toNat))
          simp only [hc, hnext, if_true, if_false, reduceCtorEq, true_and, false_iff]
          omega
      · simp [hc]

/-- Digits are read as the number they write, if that is a `u64`. -/
theorem parseDigits_map_eq_ok_iff {digits : List Char} {n : UInt64} :
    (parseDigits 0 digits).map UInt64.ofNat = .ok n ↔
      (∀ c ∈ digits, c.isDigit = true) ∧ n.toNat = Nat.ofDigitChars 10 digits 0 := by
  constructor
  · intro h
    rcases hp : parseDigits 0 digits with e | m
    · rw [hp] at h
      cases h
    · rw [hp] at h
      obtain ⟨hdigits, hlt, hm⟩ := (parseDigits_eq_ok_iff (by decide)).mp hp
      obtain rfl : UInt64.ofNat m = n := Except.ok.inj h
      exact ⟨hdigits, (UInt64.toNat_ofNat_of_lt' hlt).trans hm⟩
  · rintro ⟨hdigits, hn⟩
    have hp : parseDigits 0 digits = .ok n.toNat :=
      (parseDigits_eq_ok_iff (by decide)).mpr ⟨hdigits, n.toNat_lt, hn⟩
    rw [hp]
    exact congrArg Except.ok UInt64.ofNat_toNat

/-- `str::parse::<u64>` reads a number from exactly the strings that write it. -/
theorem parseU64_eq_ok_iff {s : String} {n : UInt64} : parseU64 s = .ok n ↔ WritesU64 s n := by
  have hplus : '+'.isDigit = false := by decide
  rcases hs : s.toList with _ | ⟨c, cs⟩
  · simp [parseU64, WritesU64, hs]
  · by_cases hc : c = '+'
    · subst hc
      cases cs with
      | nil => simp [parseU64, WritesU64, hs, hplus]
      | cons d ds =>
          simp only [parseU64, WritesU64, hs, parseDigits_map_eq_ok_iff]
          constructor
          · rintro ⟨hdigits, hn⟩
            exact ⟨d :: ds, .inr rfl, List.cons_ne_nil _ _, hdigits, hn⟩
          · rintro ⟨digits, rfl | heq, -, hdigits, hn⟩
            · simp [hplus] at hdigits
            · obtain rfl := (List.cons.inj heq).2
              exact ⟨hdigits, hn⟩
    · have hparse : parseU64 s = (parseDigits 0 (c :: cs)).map UInt64.ofNat := by
        simp only [parseU64, hs]
        split <;> simp_all
      simp only [hparse, WritesU64, hs, parseDigits_map_eq_ok_iff]
      constructor
      · rintro ⟨hdigits, hn⟩
        exact ⟨c :: cs, .inl rfl, List.cons_ne_nil _ _, hdigits, hn⟩
      · rintro ⟨digits, rfl | heq, -, hdigits, hn⟩
        · exact ⟨hdigits, hn⟩
        · exact absurd (List.cons.inj heq).1 hc

/-! ### Segments -/

/-- No segment contains the separator. -/
theorem notMem_of_mem_splitOn {text part : List Char} {sep : Char}
    (h : part ∈ text.splitOn sep) : sep ∉ part := by
  induction text generalizing part with
  | nil =>
      obtain rfl : part = [] := by simpa using h
      exact List.not_mem_nil
  | cons c cs ih =>
      rw [List.splitOn_cons_eq_if_modifyHead] at h
      split at h
      · rcases List.mem_cons.mp h with rfl | h
        · exact List.not_mem_nil
        · exact ih h
      · rename_i hc
        obtain ⟨first, rest, hsplit⟩ := List.exists_cons_of_ne_nil (List.splitOn_ne_nil sep cs)
        rw [hsplit, List.modifyHead_cons, List.mem_cons] at h
        rcases h with rfl | h
        · have hfirst := ih (hsplit ▸ List.mem_cons_self)
          simp only [List.mem_cons, not_or]
          exact ⟨fun heq => hc (by simp [heq]), hfirst⟩
        · exact ih (hsplit ▸ List.mem_cons_of_mem _ h)

/-- A text splits into three segments if they stand between two separators. -/
theorem splitOn_eq_three_iff {text a b c : List Char} {sep : Char} :
    text.splitOn sep = [a, b, c] ↔
      text = a ++ sep :: (b ++ sep :: c) ∧ sep ∉ a ∧ sep ∉ b ∧ sep ∉ c := by
  constructor
  · intro h
    have hjoin : [sep].intercalate (text.splitOn sep) = text := List.intercalate_splitOn sep
    have hpart {part : List Char} (hmem : part ∈ [a, b, c]) : sep ∉ part :=
      notMem_of_mem_splitOn (h ▸ hmem)
    rw [h] at hjoin
    refine ⟨?_, hpart (by simp), hpart (by simp), hpart (by simp)⟩
    rw [← hjoin]
    simp [List.intercalate, List.intersperse]
  · rintro ⟨rfl, ha, hb, hc⟩
    rw [List.splitOn_append_cons_self_of_not_mem ha,
      List.splitOn_append_cons_self_of_not_mem hb, List.splitOn_eq_singleton hc]

/-! ### Tokens -/

/-- The crates that read a token: base64, URL-safe and without padding, and serde_json. An error
is given by its text. -/
structure JwtCode where
  b64url : List Char → Except String Bytes
  json : Bytes → Except String Json

/-- The base64 crate decodes exactly what it encodes. -/
def JwtCode.Standard (J : JwtCode) : Prop :=
  ∀ text bytes, J.b64url text = .ok bytes ↔ text = Base64Url.encode bytes

/-- The claims of a refresh token that matter. -/
structure RefreshTokenClaims where
  steamId : UInt64
  exp : Option UInt64
  deriving DecidableEq, Repr

/-- Decode a token's middle segment, of exactly three that are not empty. -/
def decodePayload (J : JwtCode) (jwt : String) : Except Error Json :=
  match jwt.toList.splitOn '.' with
  | [header, payload, signature] =>
      if header.isEmpty || payload.isEmpty || signature.isEmpty then
        .error (.authRejected "jwt: empty segment")
      else
        match J.b64url payload with
        | .error e => .error (.authRejected s!"jwt b64: {e}")
        | .ok bytes =>
            match J.json bytes with
            | .error e => .error (.authRejected s!"jwt json: {e}")
            | .ok v => .ok v
  | _ => .error (.authRejected "jwt: expected 3 segments")

/-- Read the Steam ID and the expiry of a refresh token. -/
def refreshTokenClaims (J : JwtCode) (jwt : String) : Except Error RefreshTokenClaims := do
  let v ← decodePayload J jwt
  match (v.get "sub").bind Json.asStr with
  | none => .error (.authRejected "jwt: no sub claim")
  | some sub =>
      match parseU64 sub with
      | .error e => .error (.authRejected s!"jwt sub: {e}")
      | .ok steamId => .ok ⟨steamId, (v.get "exp").bind Json.asU64⟩

/-- Just the `sub` claim of a token. -/
def steamIdFromRefreshToken (J : JwtCode) (jwt : String) : Except Error UInt64 :=
  (refreshTokenClaims J jwt).map RefreshTokenClaims.steamId

/-- The string is a token of the account: three non-empty segments between dots, the middle one
decoding to a JSON object with these fields, whose `sub` is the account in decimal. -/
def TokenOf (J : JwtCode) (token : String) (steamId : UInt64)
    (fields : List (String × Json)) : Prop :=
  ∃ header payload signature bytes sub,
    token.toList = header ++ '.' :: (payload ++ '.' :: signature) ∧
    ('.' ∉ header ∧ '.' ∉ payload ∧ '.' ∉ signature) ∧
    (header ≠ [] ∧ payload ≠ [] ∧ signature ≠ []) ∧
    J.b64url payload = .ok bytes ∧ J.json bytes = .ok (.object fields) ∧
    fields.lookup "sub" = some (.string sub) ∧ WritesU64 sub steamId

/-- The account that a token names. -/
def NamesAccount (J : JwtCode) (token : String) (steamId : UInt64) : Prop :=
  ∃ fields, TokenOf J token steamId fields

variable {J : JwtCode} {token : String}

/-- The strings whose middle segment is read, and as what. -/
theorem decodePayload_eq_ok_iff {v : Json} :
    decodePayload J token = .ok v ↔
      ∃ header payload signature bytes,
        token.toList.splitOn '.' = [header, payload, signature] ∧
        (header ≠ [] ∧ payload ≠ [] ∧ signature ≠ []) ∧
        J.b64url payload = .ok bytes ∧ J.json bytes = .ok v := by
  rw [decodePayload]
  constructor
  · intro h
    split at h
    · rename_i header payload signature hsplit
      split at h
      · cases h
      · rename_i hempty
        split at h
        · cases h
        · rename_i bytes hbytes
          split at h
          · cases h
          · rename_i v' hv
            obtain rfl := Except.ok.inj h
            exact ⟨header, payload, signature, bytes, hsplit, by simpa [and_assoc] using hempty,
              hbytes, hv⟩
    · cases h
  · rintro ⟨header, payload, signature, bytes, hsplit, ⟨h₁, h₂, h₃⟩, hbytes, hv⟩
    simp [hsplit, h₁, h₂, h₃, hbytes, hv]

/-- The two claims are read from the payload. -/
theorem refreshTokenClaims_eq_ok_iff_payload {c : RefreshTokenClaims} :
    refreshTokenClaims J token = .ok c ↔
      ∃ v sub, decodePayload J token = .ok v ∧ (v.get "sub").bind Json.asStr = some sub ∧
        parseU64 sub = .ok c.steamId ∧ c.exp = (v.get "exp").bind Json.asU64 := by
  rw [refreshTokenClaims, bind_eq_ok]
  constructor
  · rintro ⟨v, hv, h⟩
    split at h
    · cases h
    · rename_i sub hsub
      split at h
      · cases h
      · rename_i steamId hid
        obtain rfl := Except.ok.inj h
        exact ⟨v, sub, hv, hsub, hid, rfl⟩
  · rintro ⟨v, sub, hv, hsub, hid, hexp⟩
    refine ⟨v, hv, ?_⟩
    simp [hsub, hid, ← hexp]

/-- The strings that are read as a token, and as which one. -/
theorem refreshTokenClaims_eq_ok_iff {c : RefreshTokenClaims} :
    refreshTokenClaims J token = .ok c ↔
      ∃ fields, TokenOf J token c.steamId fields ∧
        c.exp = (fields.lookup "exp").bind Json.asU64 := by
  rw [refreshTokenClaims_eq_ok_iff_payload]
  constructor
  · rintro ⟨v, sub, hv, hsub, hid, hexp⟩
    obtain ⟨header, payload, signature, bytes, hsplit, hne, hbytes, hjson⟩ :=
      decodePayload_eq_ok_iff.mp hv
    obtain ⟨fields, rfl, hlookup⟩ := Json.get_asStr_eq_some_iff.mp hsub
    obtain ⟨htext, hdots⟩ := splitOn_eq_three_iff.mp hsplit
    exact ⟨fields, ⟨header, payload, signature, bytes, sub, htext, hdots, hne, hbytes, hjson,
      hlookup, parseU64_eq_ok_iff.mp hid⟩, hexp⟩
  · rintro ⟨fields, ⟨header, payload, signature, bytes, sub, htext, hdots, hne, hbytes, hjson,
      hlookup, hid⟩, hexp⟩
    refine ⟨.object fields, sub, ?_, ?_, parseU64_eq_ok_iff.mpr hid, hexp⟩
    · exact decodePayload_eq_ok_iff.mpr ⟨header, payload, signature, bytes,
        splitOn_eq_three_iff.mpr ⟨htext, hdots⟩, hne, hbytes, hjson⟩
    · exact Json.get_asStr_eq_some_iff.mpr ⟨fields, rfl, hlookup⟩

/-- The claims of a token. -/
theorem TokenOf.claims {steamId : UInt64} {fields : List (String × Json)}
    (h : TokenOf J token steamId fields) :
    refreshTokenClaims J token = .ok ⟨steamId, (fields.lookup "exp").bind Json.asU64⟩ :=
  refreshTokenClaims_eq_ok_iff.mpr ⟨fields, h, rfl⟩

/-- The account is read from exactly the strings that name it. -/
theorem steamIdFromRefreshToken_eq_ok_iff {steamId : UInt64} :
    steamIdFromRefreshToken J token = .ok steamId ↔ NamesAccount J token steamId := by
  have hmap : steamIdFromRefreshToken J token = .ok steamId ↔
      ∃ c, refreshTokenClaims J token = .ok c ∧ c.steamId = steamId := by
    rw [steamIdFromRefreshToken]
    cases refreshTokenClaims J token <;> simp [Except.map]
  rw [hmap]
  constructor
  · rintro ⟨c, hc, rfl⟩
    obtain ⟨fields, htoken, -⟩ := refreshTokenClaims_eq_ok_iff.mp hc
    exact ⟨fields, htoken⟩
  · rintro ⟨fields, htoken⟩
    exact ⟨_, htoken.claims, rfl⟩

/-- A payload that cannot be read is rejected as such. -/
theorem decodePayload_error {e : Error} (h : decodePayload J token = .error e) :
    ∃ reason, e = .authRejected reason := by
  simp only [decodePayload] at h
  split at h
  · split at h
    · exact ⟨_, (Except.error.inj h).symm⟩
    · split at h
      · exact ⟨_, (Except.error.inj h).symm⟩
      · split at h
        · exact ⟨_, (Except.error.inj h).symm⟩
        · cases h
  · exact ⟨_, (Except.error.inj h).symm⟩

/-- A token that cannot be read is rejected as such. -/
theorem refreshTokenClaims_error {e : Error} (h : refreshTokenClaims J token = .error e) :
    ∃ reason, e = .authRejected reason := by
  rw [refreshTokenClaims] at h
  rcases hpayload : decodePayload J token with e' | v
  · rw [hpayload] at h
    obtain rfl : e' = e := Except.error.inj h
    exact decodePayload_error hpayload
  · simp only [hpayload, bind, Except.bind] at h
    split at h
    · exact ⟨_, (Except.error.inj h).symm⟩
    · split at h
      · exact ⟨_, (Except.error.inj h).symm⟩
      · cases h

namespace Sample

/-- The payload of a token with this expiry. -/
def tokenJson (exp : List Char) : Bytes :=
  ("\x7b\"sub\":\"7\",\"exp\":".toList ++ exp ++ ['\x7d']).map fun c =>
    UInt8.ofNat c.toNat

/-- The fields of that payload. -/
def tokenFields (exp : JsonNumber) : List (String × Json) :=
  [("exp", .number exp), ("sub", .string "7")]

/-- A token that expires at 161, and is therefore good until 100. -/
def expiringToken : String := "e30.eyJzdWIiOiI3IiwiZXhwIjoxNjF9.c2ln"

/-- A token that expires at 9999. -/
def freshToken : String := "e30.eyJzdWIiOiI3IiwiZXhwIjo5OTk5fQ.c2ln"

/-- A token that expired one and a half seconds after the epoch. -/
def fractionToken : String := "e30.eyJzdWIiOiI3IiwiZXhwIjoxLjV9.c2ln"

/-- The expiry of the last one. -/
def fraction : JsonNumber := { whole := 1, fraction := some (1, 5) }

/-- Reads the three tokens. -/
def jwtCode : JwtCode where
  b64url text := (Base64Url.decode text).elim (.error "Invalid input") .ok
  json bytes :=
    if bytes = tokenJson "161".toList then .ok (.object (tokenFields { whole := 161 }))
    else if bytes = tokenJson "9999".toList then .ok (.object (tokenFields { whole := 9999 }))
    else if bytes = tokenJson "1.5".toList then .ok (.object (tokenFields fraction))
    else .error "expected value at line 1 column 1"

/-- The codes of the examples are the standard ones. -/
theorem jwtCode_standard : jwtCode.Standard := by
  intro text bytes
  rw [← Base64Url.decode_eq_some_iff]
  simp only [jwtCode]
  cases Base64Url.decode text <;> simp

/-- The claims of the token that expires. -/
theorem claims_expiringToken :
    refreshTokenClaims jwtCode expiringToken = .ok ⟨7, some 161⟩ := by
  decide +kernel

/-- The claims of the token that does not. -/
theorem claims_freshToken :
    refreshTokenClaims jwtCode freshToken = .ok ⟨7, some 9999⟩ := by
  decide +kernel

end Sample

end Steamroids
