import Steamroids.Base64Url

/-!
# Base64

The standard encoding of byte strings: the URL-safe one with two other characters, filled up with
`=` to a multiple of four characters. The decoder is strict, as it is for the URL-safe encoding,
and insists on the filling.

## Main results

* `decode_eq_some_iff`: the decoder accepts what the encoder writes, and nothing else.
* `mem_encode`: the encoder writes letters, digits and three other characters only.
-/

namespace Base64

/-- The standard character for a URL-safe one. -/
def ofUrl (c : Char) : Char := if c = '-' then '+' else if c = '_' then '/' else c

/-- The URL-safe character for a standard one. -/
def toUrl? (c : Char) : Option Char :=
  if c = '+' then some '-'
  else if c = '/' then some '_'
  else if c = '-' ∨ c = '_' then none
  else some c

/-- What fills up `n` characters. -/
def padding (n : Nat) : List Char := List.replicate ((4 - n % 4) % 4) '='

/-- The standard encoding: that of the URL alphabet with two symbols exchanged, and padded. -/
def encode (bytes : List UInt8) : List Char :=
  let body := (Base64Url.encode bytes).map ofUrl
  body ++ padding body.length

/-- The decoding, which accepts exact padding only. -/
def decode (s : List Char) : Option (List UInt8) :=
  let body := s.takeWhile (· ≠ '=')
  if s = body ++ padding body.length then (body.mapM toUrl?).bind Base64Url.decode else none

/-- The exchange of the symbols is undone. -/
theorem ofUrl_of_toUrl? {c c' : Char} (h : toUrl? c = some c') : ofUrl c' = c := by
  simp only [toUrl?] at h
  split at h
  · obtain rfl := Option.some.inj h
    subst_vars
    rfl
  · split at h
    · obtain rfl := Option.some.inj h
      subst_vars
      rfl
    · split at h
      · cases h
      · rename_i hurl
        obtain rfl := Option.some.inj h
        rw [ofUrl, if_neg fun h => hurl (.inl h), if_neg fun h => hurl (.inr h)]

/-- Every symbol of the URL alphabet has a standard one, and it is not the padding. -/
theorem toUrl?_ofUrl {c : Char} (h : c ∈ Base64Url.alphabet) :
    toUrl? (ofUrl c) = some c ∧ ofUrl c ≠ '=' := by
  have hall : Base64Url.alphabet.all
      (fun c => toUrl? (ofUrl c) = some c ∧ ofUrl c ≠ '=') = true := by decide +kernel
  exact of_decide_eq_true (List.all_eq_true.mp hall c h)

/-- The encoding consists of symbols of the alphabet. -/
theorem mem_alphabet {bytes : List UInt8} {c : Char} (h : c ∈ Base64Url.encode bytes) :
    c ∈ Base64Url.alphabet := by
  obtain ⟨n, hn, rfl⟩ := List.mem_map.mp h
  have hlt : n < Base64Url.alphabet.length := by
    rw [Base64Url.length_alphabet]
    exact Base64Url.sextets_lt bytes n hn
  rw [Base64Url.symbol, List.getD_eq_getElem _ _ hlt]
  exact List.getElem_mem hlt

/-- A text of symbols comes back from the exchange. -/
theorem mapM_toUrl?_ofUrl {s : List Char} (h : ∀ c ∈ s, c ∈ Base64Url.alphabet) :
    (s.map ofUrl).mapM toUrl? = some s := by
  induction s with
  | nil => rfl
  | cons c s ih =>
      obtain ⟨hc, hs⟩ := List.forall_mem_cons.mp h
      rw [List.map_cons, List.mapM_cons, (toUrl?_ofUrl hc).1, ih hs]
      rfl

/-- What the exchange accepts, it gives back. -/
theorem map_ofUrl_of_mapM {s u : List Char} (h : s.mapM toUrl? = some u) : u.map ofUrl = s := by
  induction s generalizing u with
  | nil =>
      obtain rfl := Option.some.inj h
      rfl
  | cons c s ih =>
      simp only [List.mapM_cons, Option.bind_eq_bind, Option.bind_eq_some_iff, Option.pure_def,
        Option.some.injEq] at h
      obtain ⟨c', hc, u, hu, rfl⟩ := h
      rw [List.map_cons, ofUrl_of_toUrl? hc, ih hu]

/-- The filling is found again behind a text without it. -/
theorem takeWhile_append_padding {s : List Char} (h : ∀ c ∈ s, c ≠ '=') (n : Nat) :
    (s ++ padding n).takeWhile (· ≠ '=') = s := by
  rw [List.takeWhile_append_of_pos (by simpa using h)]
  have hnil : (padding n).takeWhile (· ≠ '=') = [] := by
    rw [padding]
    cases (4 - n % 4) % 4 <;> simp [List.replicate_succ]
  rw [hnil, List.append_nil]

/-- The decoder accepts what the encoder writes, and nothing else. -/
theorem decode_eq_some_iff {s : List Char} {bytes : List UInt8} :
    decode s = some bytes ↔ s = encode bytes := by
  simp only [decode, Option.ite_none_right_eq_some, Option.bind_eq_some_iff,
    Base64Url.decode_eq_some_iff]
  constructor
  · rintro ⟨hs, u, hu, rfl⟩
    rw [encode, map_ofUrl_of_mapM hu]
    exact hs
  · intro hs
    have hbody : ∀ c ∈ (Base64Url.encode bytes).map ofUrl, c ≠ '=' := by
      intro c hc
      obtain ⟨c', hc', rfl⟩ := List.mem_map.mp hc
      exact (toUrl?_ofUrl (mem_alphabet hc')).2
    rw [hs, encode, takeWhile_append_padding hbody]
    exact ⟨rfl, _, mapM_toUrl?_ofUrl fun c => mem_alphabet, rfl⟩

/-- **Round trip.** What was encoded is decoded to the same bytes. -/
theorem decode_encode (bytes : List UInt8) : decode (encode bytes) = some bytes :=
  decode_eq_some_iff.mpr rfl

/-- A character of the encoding: a letter, a digit, or one of `+`, `/` and `=`. -/
theorem mem_encode {bytes : List UInt8} {c : Char} (h : c ∈ encode bytes) :
    c.isAlphanum = true ∨ c ∈ ['+', '/', '='] := by
  rw [encode, List.mem_append] at h
  rcases h with h | h
  · obtain ⟨c', hc', rfl⟩ := List.mem_map.mp h
    have hall : Base64Url.alphabet.all
        (fun c => (ofUrl c).isAlphanum = true ∨ ofUrl c ∈ ['+', '/', '=']) = true := by
      decide +kernel
    exact of_decide_eq_true (List.all_eq_true.mp hall c' (mem_alphabet hc'))
  · exact .inr (by simp [List.eq_of_mem_replicate h])

example : encode [0x75, 0x3a, 0x70] = "dTpw".toList := by decide +kernel

example : decode "AAAAAAAAAAAAAAAAAAAAAAAAAAA=".toList = some (List.replicate 20 0) := by
  decide +kernel

end Base64
