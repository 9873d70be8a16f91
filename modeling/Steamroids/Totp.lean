import Mathlib.Data.Nat.Digits.Lemmas
import Steamroids.Base64
import Steamroids.HttpConnect
import Steamroids.Sha1

/-!
# Steam Guard Codes

The five letters that the Steam Mobile Authenticator shows (`totp.rs`): an HMAC of the number of
half minutes since the epoch, of which four bytes are picked, written in base 26 with an alphabet
of Steam's own. The secret is given in base64, with blanks around it or not.

The HMAC and the base64 decoder are those of the crates `hmac`, `sha1` and `base64`, and parameters
here. What is said of a code rests on the specifications `Sha1.hmac` and `Base64.encode`.

## Main results

* `truncate_eq`: picking and masking the bytes gives the number of the specification.
* `auth_code_iff`: which code is returned, and when there is one.
-/

namespace Steamroids

/-! ### The code -/

/-- The characters of a code. -/
def steamAlphabet : List Char := "23456789BCDFGHJKMNPQRTVWXY".toList

/-- As many characters as the base of a code. -/
theorem length_steamAlphabet : steamAlphabet.length = 26 := by decide +kernel

/-- No character stands for two digits. -/
theorem nodup_steamAlphabet : steamAlphabet.Nodup := by decide +kernel

/-- The length of a time step in seconds. -/
def timeStepSecs : UInt64 := 30

/-- `u64::to_be_bytes`. -/
def beBytes (n : UInt64) : Bytes :=
  [(n >>> 56).toUInt8, (n >>> 48).toUInt8, (n >>> 40).toUInt8, (n >>> 32).toUInt8,
    (n >>> 24).toUInt8, (n >>> 16).toUInt8, (n >>> 8).toUInt8, n.toUInt8]

/-- `u32::from_be_bytes`. -/
def beWord (a b c d : UInt8) : Nat :=
  a.toNat * 2 ^ 24 + b.toNat * 2 ^ 16 + c.toNat * 2 ^ 8 + d.toNat

/-- The offset leaves room for four bytes. -/
theorem and_fifteen_le (b : UInt8) : (b &&& 0x0f).toNat ≤ 15 := by
  rw [UInt8.toNat_and]
  exact Nat.and_le_right

/-- The four bytes of the hash that its last one points to, without the top bit. -/
def truncate (hash : Sha1.Digest) : Nat :=
  let last := hash.get 19 (by decide)
  have hoffset := and_fifteen_le last
  let offset := (last &&& 0x0f).toNat
  beWord (hash.get offset (by omega) &&& 0x7f) (hash.get (offset + 1) (by omega))
    (hash.get (offset + 2) (by omega)) (hash.get (offset + 3) (by omega))

/-- The loop over the slots, with the number of slots left. -/
def codeLoop : Nat → Nat → List Char
  | 0, _ => []
  | slots + 1, code =>
      have hlt : code % 26 < steamAlphabet.length :=
        length_steamAlphabet ▸ Nat.mod_lt code (by decide)
      steamAlphabet.get ⟨code % 26, hlt⟩ :: codeLoop slots (code / 26)

/-- The code of a time step, by the `hmac` crate. -/
def generateWithStep (hmac : Bytes → Bytes → Sha1.Digest) (secret : Bytes) (step : UInt64) :
    String :=
  String.ofList (codeLoop 5 (truncate (hmac secret (beBytes step))))

-- Two vectors of the source, for a secret of twenty zeros.
example : [0, 56000000].map (generateWithStep Sha1.hmac (List.replicate 20 0)) =
    ["RYH4D", "3F9QW"] := by
  decide +kernel

/-- `str::trim`. -/
def trim (s : String) : String := trimEnd (String.ofList (s.toList.dropWhile isWhitespace))

/-- Generate the code for a shared secret, at the given time or else by the system clock, which
may be before the epoch. An error of the `base64` crate is given by its text. -/
def generateAuthCode (hmac : Bytes → Bytes → Sha1.Digest) (b64 : List Char → Except String Bytes)
    (clock : Option UInt64) (sharedSecretB64 : String) (timestamp : Option UInt64) :
    Except Error String := do
  let secret ← (b64 (trim sharedSecretB64).toList).mapError .base64
  let ts ← (timestamp <|> clock).elim (.error (.invalidConfig "system clock before epoch")) .ok
  pure (generateWithStep hmac secret (ts / timeStepSecs))

/-! ### What a code says -/

/-- The number that the bytes of a hash from its offset on write, without its top bit. -/
def dynamicTruncation (hash : Sha1.Digest) : Nat :=
  let offset := (hash.bytes.getD 19 0).toNat % 16
  let at' := fun i => (hash.bytes.getD (offset + i) 0).toNat
  (at' 0 * 256 ^ 3 + at' 1 * 256 ^ 2 + at' 2 * 256 + at' 3) % 2 ^ 31

/-- The number that the letters of a code write in base 26, the least significant first. -/
def codeValue (code : String) : Nat := Nat.ofDigits 26 (code.toList.map steamAlphabet.idxOf)

/-- The code writes a number, as far as it goes. -/
structure IsCode (code : String) (n : Nat) : Prop where
  length : code.toList.length = 5
  letters : ∀ c ∈ code.toList, c ∈ steamAlphabet
  value : codeValue code = n % 26 ^ 5

/-- A byte of a hash, with or without the bound on its index. -/
theorem get_eq_getD (hash : Sha1.Digest) {i : Nat} (hi : i < 20) :
    hash.get i hi = hash.bytes.getD i 0 := by
  have hlt : i < hash.bytes.length := by rw [hash.length_eq]; exact hi
  rw [List.getD_eq_getElem _ _ hlt]
  rfl

/-- Picking and masking the bytes gives the number of the specification. -/
theorem truncate_eq (hash : Sha1.Digest) : truncate hash = dynamicTruncation hash := by
  have hmask : ∀ b : UInt8, (b &&& 0x7f).toNat = b.toNat % 128 := by
    intro b
    rw [UInt8.toNat_and]
    exact Nat.and_two_pow_sub_one_eq_mod b.toNat 7
  have hlast : ∀ b : UInt8, (b &&& 0x0f).toNat = b.toNat % 16 := by
    intro b
    rw [UInt8.toNat_and]
    exact Nat.and_two_pow_sub_one_eq_mod b.toNat 4
  simp only [truncate, dynamicTruncation, beWord, get_eq_getD, hmask, hlast, Nat.add_zero]
  generalize (hash.bytes.getD 19 0).toNat % 16 = offset
  have h₀ := (hash.bytes.getD offset 0).toNat_lt
  have h₁ := (hash.bytes.getD (offset + 1) 0).toNat_lt
  have h₂ := (hash.bytes.getD (offset + 2) 0).toNat_lt
  have h₃ := (hash.bytes.getD (offset + 3) 0).toNat_lt
  omega

/-- The loop writes the number in base 26, in as many letters as there are slots. -/
theorem codeLoop_spec (slots code : Nat) :
    (codeLoop slots code).length = slots ∧ (∀ c ∈ codeLoop slots code, c ∈ steamAlphabet) ∧
      Nat.ofDigits 26 ((codeLoop slots code).map steamAlphabet.idxOf) = code % 26 ^ slots := by
  induction slots generalizing code with
  | zero => simp [codeLoop, Nat.mod_one]
  | succ slots ih =>
      obtain ⟨hlen, hletters, hvalue⟩ := ih (code / 26)
      have hlt : code % 26 < steamAlphabet.length :=
        length_steamAlphabet ▸ Nat.mod_lt code (by decide)
      have hidx : steamAlphabet.idxOf (steamAlphabet.get ⟨code % 26, hlt⟩) = code % 26 :=
        nodup_steamAlphabet.idxOf_getElem _ hlt
      refine ⟨by rw [codeLoop, List.length_cons, hlen], ?_, ?_⟩
      · rw [codeLoop]
        exact List.forall_mem_cons.mpr ⟨List.get_mem _ _, hletters⟩
      · rw [codeLoop, List.map_cons, Nat.ofDigits_cons, hvalue, hidx, Nat.pow_succ', Nat.mod_mul]

/-- The letters of a code are known by their places in the alphabet. -/
theorem map_idxOf_injective {s s' : List Char} (hs : ∀ c ∈ s, c ∈ steamAlphabet)
    (hs' : ∀ c ∈ s', c ∈ steamAlphabet)
    (h : s.map steamAlphabet.idxOf = s'.map steamAlphabet.idxOf) : s = s' := by
  have hback : ∀ s : List Char, (∀ c ∈ s, c ∈ steamAlphabet) →
      (s.map steamAlphabet.idxOf).map (steamAlphabet.getD · ' ') = s := by
    intro s hs
    rw [List.map_map]
    conv_rhs => rw [← List.map_id s]
    refine List.map_congr_left ?_
    intro c hc
    have hlt := List.idxOf_lt_length_of_mem (hs c hc)
    show steamAlphabet.getD (steamAlphabet.idxOf c) ' ' = c
    rw [List.getD_eq_getElem _ _ hlt]
    exact List.getElem_idxOf hlt
  rw [← hback s hs, h, hback s' hs']

/-- There is one code for a number. -/
theorem IsCode.unique {code code' : String} {n : Nat} (h : IsCode code n) (h' : IsCode code' n) :
    code = code' := by
  have hlt : ∀ {s : String}, (∀ c ∈ s.toList, c ∈ steamAlphabet) →
      ∀ x ∈ s.toList.map steamAlphabet.idxOf, x < 26 := by
    intro s hs x hx
    obtain ⟨c, hc, rfl⟩ := List.mem_map.mp hx
    rw [← length_steamAlphabet]
    exact List.idxOf_lt_length_of_mem (hs c hc)
  have hdigits : code.toList.map steamAlphabet.idxOf = code'.toList.map steamAlphabet.idxOf :=
    Nat.ofDigits_inj_of_len_eq (by decide) (by rw [List.length_map, List.length_map, h.length,
      h'.length]) (hlt h.letters) (hlt h'.letters) (h.value.trans h'.value.symm)
  exact String.toList_injective (map_idxOf_injective h.letters h'.letters hdigits)

/-- The code of a time step writes the truncated hash of the step. -/
theorem generateWithStep_isCode (hmac : Bytes → Bytes → Sha1.Digest) (secret : Bytes)
    (step : UInt64) :
    IsCode (generateWithStep hmac secret step)
      (dynamicTruncation (hmac secret (beBytes step))) := by
  obtain ⟨hlen, hletters, hvalue⟩ := codeLoop_spec 5 (truncate (hmac secret (beBytes step)))
  constructor
  · rw [generateWithStep, String.toList_ofList]
    exact hlen
  · rw [generateWithStep, String.toList_ofList]
    exact hletters
  · rw [codeValue, generateWithStep, String.toList_ofList, ← truncate_eq]
    exact hvalue

/-- The code that belongs to a secret by the crates, at the given time or else by the clock. -/
def CodeOf (hmac : Bytes → Bytes → Sha1.Digest) (b64 : List Char → Except String Bytes)
    (clock : Option UInt64) (text : String) (timestamp : Option UInt64) (code : String) : Prop :=
  ∃ ts secret, (timestamp <|> clock) = some ts ∧ b64 (trim text).toList = .ok secret ∧
    IsCode code (dynamicTruncation (hmac secret (beBytes (ts / timeStepSecs))))

/-- A code is returned exactly if there is one, and then it is that one. -/
theorem generateAuthCode_eq_ok_iff {hmac : Bytes → Bytes → Sha1.Digest}
    {b64 : List Char → Except String Bytes} {clock timestamp : Option UInt64}
    {text code : String} :
    generateAuthCode hmac b64 clock text timestamp = .ok code ↔
      CodeOf hmac b64 clock text timestamp code := by
  rw [CodeOf, generateAuthCode]
  rcases hdec : b64 (trim text).toList with e | secret
  · simp [Except.mapError, bind, Except.bind]
  rcases hts : (timestamp <|> clock) with _ | ts
  · simp [Except.mapError, bind, Except.bind]
  have hcode := generateWithStep_isCode hmac secret (ts / timeStepSecs)
  constructor
  · intro h
    obtain rfl : generateWithStep hmac secret (ts / timeStepSecs) = code := Except.ok.inj h
    exact ⟨ts, secret, rfl, rfl, hcode⟩
  · rintro ⟨ts', secret', hts', hsecret', hcode'⟩
    obtain rfl := Option.some.inj hts'
    obtain rfl := Except.ok.inj hsecret'
    exact congrArg Except.ok (hcode.unique hcode')

/-- **The code of a secret.** With crates that compute HMAC-SHA1 and base64, a code is returned
exactly if the secret is base64, up to blanks around it, and a time is given or the clock is not
before the epoch. Then it is the five letters that write the truncated HMAC of the half minute in
base 26. -/
theorem auth_code_iff {hmac : Bytes → Bytes → Sha1.Digest} {b64 : List Char → Except String Bytes}
    (hhmac : ∀ key msg, hmac key msg = Sha1.hmac key msg)
    (hb64 : ∀ text bytes, b64 text = .ok bytes ↔ text = Base64.encode bytes)
    (clock : Option UInt64) (text : String) (timestamp : Option UInt64) (code : String) :
    generateAuthCode hmac b64 clock text timestamp = .ok code ↔
      ∃ ts secret, (timestamp <|> clock) = some ts ∧ (trim text).toList = Base64.encode secret ∧
        IsCode code (dynamicTruncation (Sha1.hmac secret (beBytes (ts / timeStepSecs)))) := by
  rw [generateAuthCode_eq_ok_iff]
  simp only [CodeOf, hb64, hhmac]

/-- A decoder for base64. -/
def Sample.base64 (text : List Char) : Except String Bytes :=
  (Base64.decode text).elim (.error "Invalid padding") .ok

/-- The decoder is the one of the specification. -/
theorem Sample.base64_eq_ok_iff (text : List Char) (bytes : Bytes) :
    Sample.base64 text = .ok bytes ↔ text = Base64.encode bytes := by
  rw [← Base64.decode_eq_some_iff, Sample.base64]
  cases Base64.decode text <;> simp

/-- The code of twenty zeros in the first half minute, by the clock. -/
theorem auth_code_iff_zeros :
    IsCode "RYH4D" (dynamicTruncation (Sha1.hmac (List.replicate 20 0) (beBytes 0))) := by
  have hcode : generateAuthCode Sha1.hmac Sample.base64 (some 29)
      " AAAAAAAAAAAAAAAAAAAAAAAAAAA=" none = .ok "RYH4D" := by
    decide +kernel
  obtain ⟨ts, secret, hts, hsecret, h⟩ :=
    (auth_code_iff (fun _ _ => rfl) Sample.base64_eq_ok_iff _ _ _ _).mp hcode
  obtain rfl : 29 = ts := Option.some.inj hts
  obtain rfl : List.replicate 20 0 = secret := by
    have h := Base64.decode_eq_some_iff.mpr hsecret
    have h' : Base64.decode (trim " AAAAAAAAAAAAAAAAAAAAAAAAAAA=").toList =
        some (List.replicate 20 0) := by
      decide +kernel
    exact Option.some.inj (h'.symm.trans h)
  exact h

end Steamroids
