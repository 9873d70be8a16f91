import Steamroids.ProxyUrl

/-!
# Displayed Addresses

`ProxyConfig::display` shows a proxy as `scheme://host:port`, without its credentials. Such an
address can be parsed again: the brackets that `unbracket` takes off an IPv6 literal are put back by
`authority`, the label is a scheme of the same kind, and the scan of the raw text restores a port
that the `url` crate drops.

`UrlCrate.Reparses` says what is needed of the crate, and only for hosts that it has given out.

## Main results

* `authority_unbracket`: the two sides of bracketing cancel.
* `hasExplicitPort_address`: the port of an address is found in its text.
* `display_parses_back`: a displayed address is read back.
-/

namespace Steamroids

/-- There is no delimiter in a host. -/
theorem HostShape.notMem {host : List Char} (h : HostShape host) {c : Char}
    (hc : c ∈ ['/', '?', '#', '@']) : c ∉ host := by
  cases h with
  | @literal inner _ hinner =>
      intro hmem
      have hbrackets : c ≠ '[' ∧ c ≠ ']' := by
        simp only [List.mem_cons, List.not_mem_nil, or_false] at hc
        rcases hc with rfl | rfl | rfl | rfl <;> decide
      simp only [List.mem_cons, List.mem_append, List.not_mem_nil, or_false, hbrackets.1,
        hbrackets.2, false_or] at hmem
      exact hinner c hmem (List.mem_append_left ['[', ']'] hc)
  | name hname => exact fun hmem => hname c hmem (List.mem_append_left ['[', ']', ':'] hc)

/-- `authority` undoes `unbracket`. -/
theorem authority_unbracket {host : String} (h : HostShape host.toList) (port : UInt16) :
    authority (unbracket host) port = host ++ ":" ++ toString port := by
  generalize hlist : host.toList = text at h
  have hhost : host = String.ofList text := by rw [← hlist, String.ofList_toList]
  cases h with
  | @literal inner hcolon _ =>
      have hbare : unbracket host = String.ofList inner := by
        simp [unbracket, hlist]
      have hcontains : (String.ofList inner).toList.contains ':' = true := by
        simpa using hcolon
      rw [authority, hbare, if_pos hcontains, hhost]
      apply String.toList_injective
      simp
  | name hname =>
      have hcolon : ':' ∉ text := fun hmem => hname _ hmem (by decide)
      have hopen : ∀ rest, text ≠ '[' :: rest := by
        rintro rest rfl
        exact hname '[' List.mem_cons_self (by decide)
      have hbare : unbracket host = host := by
        rw [unbracket, hlist]
        split
        · exact absurd rfl (hopen _)
        · rfl
      rw [authority, hbare, hlist, if_neg (by simpa using hcolon)]

/-- A port is shown in decimal. -/
theorem toList_toString_port (port : UInt16) :
    (toString port).toList = Nat.toDigits 10 port.toNat := Nat.toList_repr

/-- A colon and a port have the shape of a port. -/
theorem portShape_toString (port : UInt16) : PortShape (':' :: (toString port).toList) := by
  refine .inr ⟨_, rfl, List.all_eq_true.mpr fun c hc => ?_⟩
  rw [toList_toString_port] at hc
  exact Nat.isDigit_of_mem_toDigits (Nat.succ_pos 9) le_rfl hc

/-- The scan finds the port of an address that is spelled with one. -/
theorem hasExplicitPort_address {scheme host : String} (hscheme : ':' ∉ scheme.toList)
    (hhost : HostShape host.toList) (port : UInt16) :
    hasExplicitPort (scheme ++ "://" ++ (host ++ ":" ++ toString port)) = true := by
  have hport := portShape_toString port
  have hspelled : scheme ++ "://" ++ (host ++ ":" ++ toString port) =
      String.ofList (scheme.toList ++
        ':' :: '/' :: '/' :: (host.toList ++ ':' :: (toString port).toList ++ [])) := by
    apply String.toList_injective
    simp
  have hfree : ∀ c ∈ ['/', '?', '#', '@'], c ∉ host.toList ++ ':' :: (toString port).toList := by
    intro c hc hmem
    rcases List.mem_append.mp hmem with hmem | hmem
    · exact hhost.notMem hc hmem
    · revert hmem
      simp only [List.mem_cons, List.not_mem_nil, or_false] at hc
      rcases hc with rfl | rfl | rfl | rfl <;> exact hport.ne_of_mem (by decide) (by decide)
  have hauthority : ∀ c ∈ host.toList ++ ':' :: (toString port).toList, c ∉ ['/', '?', '#'] :=
    fun c hc hmem => hfree c (List.mem_append_left ['@'] hmem) hc
  rw [hspelled, hasExplicitPort_spelled hscheme hauthority (.inl rfl),
    portInAuthority_eq (behindLast_of_notMem (hfree '@' (by decide))) hhost hport,
    toList_toString_port, decide_eq_true_eq, List.length_cons]
  exact Nat.succ_le_succ Nat.length_toDigits_pos

/-- What the crate makes of an address with a host that it has given out: a host is a bracketed
literal or free of delimiters, and it is read back behind the same scheme, or behind `socks5` if it
came from `socks5h`, with the port unless that is the default, which the crate knows. -/
structure UrlCrate.Reparses (U : UrlCrate) : Prop where
  known : U.KnowsDefaults
  shape : ∀ raw url host, U.parse raw = .ok url → url.scheme ∈ proxySchemes →
    url.hostStr = some host → HostShape host.toList
  again : ∀ raw url host scheme (port : UInt16), U.parse raw = .ok url →
    url.scheme ∈ proxySchemes → url.hostStr = some host →
    (scheme = url.scheme ∨ scheme = "socks5" ∧ url.scheme = "socks5h") →
    U.parse (scheme ++ "://" ++ (host ++ ":" ++ toString port)) =
      .ok { scheme, hostStr := some host,
            port := if knownDefaultPort scheme = some port then none else some port }

/-- The port of an address with one is read back, also where the crate drops it. -/
theorem resolvePort_address {U : UrlCrate} (hU : U.KnowsDefaults) {scheme host : String}
    (hscheme : ':' ∉ scheme.toList) (hhost : HostShape host.toList) (port : UInt16) :
    resolvePort U
        { scheme, hostStr := some host,
          port := if knownDefaultPort scheme = some port then none else some port }
        (scheme ++ "://" ++ (host ++ ":" ++ toString port)) = .ok port := by
  by_cases hdefault : knownDefaultPort scheme = some port
  · simp [resolvePort, hU _, hdefault, hasExplicitPort_address hscheme hhost]
  · simp [resolvePort, hdefault]

/-- The scheme that a parsed proxy is displayed with. -/
theorem schemeLabel_of_parsed {cfg : ProxyConfig} {scheme : String}
    (hkind : proxyKind scheme = .ok cfg.kind) (htls : cfg.tlsToProxy = (scheme == "https")) :
    (cfg.schemeLabel = scheme ∨ cfg.schemeLabel = "socks5" ∧ scheme = "socks5h") ∧
      scheme ∈ proxySchemes ∧ proxyKind cfg.schemeLabel = .ok cfg.kind ∧
      cfg.tlsToProxy = (cfg.schemeLabel == "https") ∧ ':' ∉ cfg.schemeLabel.toList := by
  rcases proxyKind_eq_ok hkind with ⟨rfl | rfl, hk⟩ | ⟨rfl | rfl, hk⟩ <;>
    simp only [ProxyConfig.schemeLabel, hk, htls] <;> decide

/-- **A displayed address is read back**, without the credentials. -/
theorem display_parses_back (U : UrlCrate) (hU : U.Reparses) (raw : String) (cfg : ProxyConfig)
    (hparse : ProxyConfig.parse U raw = .ok cfg) :
    ProxyConfig.parse U cfg.display = .ok { cfg with credentials := none } := by
  obtain ⟨url, host, hurl, hhost, hkind, hbare, -, htls⟩ := ProxyConfig.parse_eq_ok hparse
  obtain ⟨hlabel, hmem, hkind', htls', hcolon⟩ := schemeLabel_of_parsed hkind htls
  have hshape := hU.shape raw url host hurl hmem hhost
  have hdisplay : cfg.display =
      cfg.schemeLabel ++ "://" ++ (host ++ ":" ++ toString cfg.port) := by
    rw [ProxyConfig.display, hbare, authority_unbracket hshape]
  have hagain := hU.again raw url host cfg.schemeLabel cfg.port hurl hmem hhost hlabel
  have hport := resolvePort_address hU.known hcolon hshape cfg.port
  have hempty : percentDecode "" = "" := by decide
  rw [ProxyConfig.parse, hdisplay, hagain]
  simp only [Except.mapError, bind, Except.bind, hkind', proxyHost, hport]
  simp [hbare, htls', hempty]

namespace Sample

/-- A crate that knows one IPv6 address over https, with any port. -/
def literalCrate : UrlCrate where
  parse raw :=
    if raw = "https://user:pw@[::1]:443" then
      .ok { scheme := "https", hostStr := some "[::1]", port := none,
            username := "user", password := some "pw" }
    else if "https://[::1]:".toList.isPrefixOf raw.toList then
      let digits := raw.toList.drop 14
      let port := Nat.ofDigitChars 10 digits 0
      if digits.all Char.isDigit && decide (port < 65536) then
        .ok { scheme := "https", hostStr := some "[::1]",
              port := if digits.isEmpty || port == 443 then none else some (UInt16.ofNat port) }
      else .error "invalid port number"
    else .error "relative URL without a base"
  portOrKnownDefault url := url.port <|> knownDefaultPort url.scheme

/-- Every URL that it knows has this host. -/
theorem literalCrate_eq_ok {raw : String} {url : Url} (h : literalCrate.parse raw = .ok url) :
    url.scheme = "https" ∧ url.hostStr = some "[::1]" := by
  simp only [literalCrate] at h
  split at h
  · obtain rfl := Except.ok.inj h
    exact ⟨rfl, rfl⟩
  split at h
  · split at h
    · obtain rfl := Except.ok.inj h
      exact ⟨rfl, rfl⟩
    · cases h
  · cases h

/-- It reads the address with any port. -/
theorem literalCrate_address (port : UInt16) :
    literalCrate.parse ("https" ++ "://" ++ ("[::1]" ++ ":" ++ toString port)) =
      .ok { scheme := "https", hostStr := some "[::1]",
            port := if knownDefaultPort "https" = some port then none else some port } := by
  have hlist : ("https" ++ "://" ++ ("[::1]" ++ ":" ++ toString port)).toList =
      "https://[::1]:".toList ++ Nat.toDigits 10 port.toNat := by
    simp [toList_toString_port]
  have hother : "https" ++ "://" ++ ("[::1]" ++ ":" ++ toString port) ≠
      "https://user:pw@[::1]:443" := by
    intro heq
    rw [heq] at hlist
    simp at hlist
  have hprefix : "https://[::1]:".toList.isPrefixOf
      ("https://[::1]:".toList ++ Nat.toDigits 10 port.toNat) = true := by simp
  have hdrop : ("https://[::1]:".toList ++ Nat.toDigits 10 port.toNat).drop 14 =
      Nat.toDigits 10 port.toNat := List.drop_left' (by decide)
  have hdigits : (Nat.toDigits 10 port.toNat).all Char.isDigit = true :=
    List.all_eq_true.mpr fun c hc => Nat.isDigit_of_mem_toDigits (Nat.succ_pos 9) le_rfl hc
  have hnonempty : (Nat.toDigits 10 port.toNat).isEmpty = false := by simp
  have hdefault : knownDefaultPort "https" = some port ↔ port.toNat = 443 := by
    rw [show knownDefaultPort "https" = some 443 by decide, Option.some.injEq, eq_comm,
      ← UInt16.toNat_inj]
    rfl
  simp only [literalCrate, if_neg hother, hlist, hprefix, if_true, hdrop, hdigits,
    Nat.ofDigitChars_ten_toDigits, hnonempty, hdefault]
  simp [port.toNat_lt]

/-- It reads its own addresses back. -/
theorem literalCrate_reparses : literalCrate.Reparses where
  known _ := rfl
  shape raw url host h _ hhost := by
    rw [(literalCrate_eq_ok h).2] at hhost
    obtain rfl := Option.some.inj hhost
    refine @HostShape.literal [':', ':', '1'] (by decide) ?_
    intro c hc
    rcases List.mem_cons.mp hc with rfl | hc
    · decide
    · rcases List.mem_pair.mp hc with rfl | rfl <;> decide
  again raw url host scheme port h _ hhost hscheme := by
    obtain ⟨hs, hstr⟩ := literalCrate_eq_ok h
    rw [hstr] at hhost
    obtain rfl := Option.some.inj hhost
    obtain rfl : scheme = "https" := by
      rcases hscheme with rfl | ⟨-, h5⟩
      · exact hs
      · rw [hs] at h5
        exact absurd h5 (by decide)
    exact literalCrate_address port

end Sample

/-- The port 443 of an https proxy with credentials is read back. -/
theorem display_parses_back_literal :
    ProxyConfig.parse Sample.literalCrate "https://user:pw@[::1]:443" =
        .ok { kind := .httpConnect, host := "::1", port := 443, tlsToProxy := true,
              credentials := some { username := "user", password := "pw" } } ∧
      ProxyConfig.parse Sample.literalCrate "https://[::1]:443" =
        .ok { kind := .httpConnect, host := "::1", port := 443, tlsToProxy := true } :=
  have hparse : ProxyConfig.parse Sample.literalCrate "https://user:pw@[::1]:443" =
      .ok { kind := .httpConnect, host := "::1", port := 443, tlsToProxy := true,
            credentials := some { username := "user", password := "pw" } } := by decide
  ⟨hparse, display_parses_back Sample.literalCrate Sample.literalCrate_reparses _ _ hparse⟩

end Steamroids
