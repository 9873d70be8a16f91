import Mathlib.Data.List.TakeWhile
import Steamroids.PercentDecode
import Steamroids.Pool

/-!
# Proxy URLs

`ProxyConfig::parse` (`transport/proxy.rs`) reads a proxy from a URL with the `url` crate. The crate
drops a port that is the default one of the scheme, so the code scans the text a second time to
tell `http://host:80` from `http://host`.

The crate is a parameter (`UrlCrate`). What a URL writes is said apart from it, after the URL
standard: `cleaned` is the text without what a parser ignores, `authorityOf` the authority in it,
and `writtenPort` the port in that. `UrlCrate.Standard` says that the crate reports the scheme and
the port accordingly. The scan of the source sees the text as it was given.

## Main results

* `ProxyConfig.parse_eq_ok`: what an accepted URL is made of.
* `hasExplicitPort_of_plain`: on a plainly spelled URL the scan is right.
* `proxy_port_as_written`: when the port is the written one, or the default.
-/

namespace Steamroids

/-! ### Splitting text -/

/-- `str::split_once`, at the first occurrence of `sep`. -/
def splitOnce (sep : List Char) : List Char → Option (List Char × List Char)
  | [] => if sep.isPrefixOf [] then some ([], []) else none
  | c :: cs =>
      if sep.isPrefixOf (c :: cs) then some ([], (c :: cs).drop sep.length)
      else (splitOnce sep cs).map fun (before, after) => (c :: before, after)

/-- `str::rsplit_once`, at the last occurrence of `sep`. -/
def rsplitOnce (sep : Char) : List Char → Option (List Char × List Char)
  | [] => none
  | c :: cs =>
      match rsplitOnce sep cs with
      | some (before, after) => some (c :: before, after)
      | none => if c = sep then some ([], cs) else none

/-- What stands behind the last `sep`, or all of it. -/
def behindLast (sep : Char) (text : List Char) : List Char :=
  (rsplitOnce sep text).elim text Prod.snd

/-- The split is at the first separator. -/
theorem splitOnce_append {s : Char} {sep before : List Char} (h : s ∉ before)
    (rest : List Char) :
    splitOnce (s :: sep) (before ++ s :: (sep ++ rest)) = some (before, rest) := by
  induction before with
  | nil => simp [splitOnce]
  | cons c before ih =>
      obtain ⟨hc, hbefore⟩ := List.ne_and_not_mem_of_not_mem_cons h
      simp [splitOnce, hc, ih hbefore]

/-- Without a separator there is no split. -/
theorem splitOnce_of_notMem {s : Char} {sep text : List Char} (h : s ∉ text) :
    splitOnce (s :: sep) text = none := by
  induction text with
  | nil => rfl
  | cons c text ih =>
      obtain ⟨hc, htext⟩ := List.ne_and_not_mem_of_not_mem_cons h
      simp [splitOnce, hc, ih htext]

/-- Nor is there one from the right. -/
theorem rsplitOnce_of_notMem {sep : Char} {text : List Char} (h : sep ∉ text) :
    rsplitOnce sep text = none := by
  induction text with
  | nil => rfl
  | cons c text ih =>
      obtain ⟨hc, htext⟩ := List.ne_and_not_mem_of_not_mem_cons h
      simp [rsplitOnce, Ne.symm hc, ih htext]

/-- Without a separator all of the text is behind it. -/
theorem behindLast_of_notMem {sep : Char} {text : List Char} (h : sep ∉ text) :
    behindLast sep text = text := by
  rw [behindLast, rsplitOnce_of_notMem h]
  rfl

/-- The split from the right is at the last separator. -/
theorem rsplitOnce_append {sep : Char} {after : List Char} (h : sep ∉ after)
    (before : List Char) : rsplitOnce sep (before ++ sep :: after) = some (before, after) := by
  induction before with
  | nil => simp [rsplitOnce, rsplitOnce_of_notMem h]
  | cons c before ih => simp [rsplitOnce, ih]

/-- What is behind the last separator. -/
theorem behindLast_append {sep : Char} {after : List Char} (h : sep ∉ after)
    (before : List Char) : behindLast sep (before ++ sep :: after) = after := by
  rw [behindLast, rsplitOnce_append h]
  rfl

/-! ### The `url` crate -/

/-- What the crate makes of a URL, as far as it is looked at. -/
structure Url where
  scheme : String
  hostStr : Option String
  port : Option UInt16
  username : String := ""
  password : Option String := none
  deriving DecidableEq, Repr

/-- What is used of the `url` crate. -/
structure UrlCrate where
  /-- `url::Url::parse`. -/
  parse : String → Except String Url
  /-- `url::Url::port_or_known_default`. -/
  portOrKnownDefault : Url → Option UInt16

/-- The default port of a scheme, as the crate documents it. -/
def knownDefaultPort (scheme : String) : Option UInt16 :=
  if scheme = "http" ∨ scheme = "ws" then some 80
  else if scheme = "https" ∨ scheme = "wss" then some 443
  else if scheme = "ftp" then some 21
  else none

/-- The crate falls back on the default port of the scheme. -/
def UrlCrate.KnowsDefaults (U : UrlCrate) : Prop :=
  ∀ url, U.portOrKnownDefault url = (url.port <|> knownDefaultPort url.scheme)

/-! ### The parser of the source -/

/-- Strip the brackets off an IPv6 URL host. -/
def unbracket (host : String) : String :=
  match host.toList with
  | '[' :: rest => if rest.getLast? = some ']' then String.ofList rest.dropLast else host
  | _ => host

/-- The scan of an authority. -/
def portInAuthority (authority : List Char) : Bool :=
  let hostPort := behindLast '@' authority
  -- skip an IPv6 literal so that its inner colons do not read as a port
  let tail := behindLast ']' hostPort
  match splitOnce [':'] tail with
  | some (_, port) => !port.isEmpty && port.all Char.isDigit
  | none => false

/-- Is a port written in the raw authority? -/
def hasExplicitPort (raw : String) : Bool :=
  match splitOnce [':', '/', '/'] raw.toList with
  | some (_, rest) => portInAuthority (rest.takeWhile fun c => !(['/', '?', '#'].contains c))
  | none => false

/-- The kind of proxy that a scheme asks for. -/
def proxyKind (scheme : String) : Except Error ProxyKind :=
  if scheme = "socks5" ∨ scheme = "socks5h" then .ok .socks5
  else if scheme = "http" ∨ scheme = "https" then .ok .httpConnect
  else .error (.invalidConfig ("unsupported proxy scheme: " ++ scheme))

/-- The port of a URL that writes none. -/
def defaultPort (scheme : String) : Option UInt16 :=
  if scheme = "socks5" ∨ scheme = "socks5h" then some 1080
  else if scheme = "http" then some 8080
  else if scheme = "https" then some 443
  else none

/-- Resolve the proxy port, preferring whatever the URL actually wrote. -/
def resolvePort (U : UrlCrate) (url : Url) (raw : String) : Except Error UInt16 :=
  match url.port with
  | some port => .ok port
  | none =>
      let port :=
        if hasExplicitPort raw then U.portOrKnownDefault url else defaultPort url.scheme
      match port with
      | some port => .ok port
      | none => .error (.invalidUrl "proxy URL missing port")

/-- The host of a proxy, an IPv6 address without its brackets. -/
def proxyHost (url : Url) : Except Error String :=
  match url.hostStr with
  | some host => .ok (unbracket host)
  | none => .error (.invalidUrl "proxy URL missing host")

/-- Parse a proxy URL. -/
def ProxyConfig.parse (U : UrlCrate) (urlStr : String) : Except Error ProxyConfig := do
  let url ← (U.parse urlStr).mapError .urlParse
  let kind ← proxyKind url.scheme
  let host ← proxyHost url
  let port ← resolvePort U url urlStr
  let username := percentDecode url.username
  let password := percentDecode (url.password.getD "")
  let credentials :=
    if username.isEmpty && password.isEmpty then none else some { username, password }
  .ok { kind, host, port, credentials, tlsToProxy := url.scheme == "https" }

/-! ### What a URL writes -/

/-- A parser trims C0 controls and spaces off both ends, and drops tabs and line ends. -/
def cleaned (raw : List Char) : List Char :=
  let trimmed := ((raw.dropWhile (· ≤ ' ')).reverse.dropWhile (· ≤ ' ')).reverse
  trimmed.filter fun c => !(['\t', '\n', '\r'].contains c)

/-- The scheme, in lower case, and what is behind its colon. -/
def schemeAndRest (raw : List Char) : Option (List Char × List Char) :=
  (splitOnce [':'] (cleaned raw)).map fun (scheme, rest) => (scheme.map Char.toLower, rest)

/-- The scheme of a URL, as it is written. -/
def schemeOf (raw : String) : Option String :=
  (schemeAndRest raw.toList).map fun (scheme, _) => String.ofList scheme

/-- A slash, or what counts as one in the URLs of http and https. -/
def isSlash (special : Bool) (c : Char) : Bool := c = '/' || special && c = '\\'

/-- The authority. Any number of slashes may stand in front of it in the URLs of http and https,
and exactly two in others. -/
def authorityOf (raw : List Char) : Option (List Char) := do
  let (scheme, rest) ← schemeAndRest raw
  let special := ["http".toList, "https".toList].contains scheme
  let rest ←
    if special then some (rest.dropWhile (isSlash special))
    else if ['/', '/'].isPrefixOf rest then some (rest.drop 2)
    else none
  some (rest.takeWhile fun c => !(isSlash special c || c = '?' || c = '#'))

/-- What stands behind the first colon that is outside of brackets. -/
def portText : Bool → List Char → Option (List Char)
  | _, [] => none
  | inside, c :: cs =>
      if c = ':' && !inside then some cs
      else portText (if c = '[' then true else if c = ']' then false else inside) cs

/-- The port that the authority writes. An empty one counts as none. -/
def writtenPort (raw : String) : Option Nat := do
  let authority ← authorityOf raw.toList
  let behindColon ← portText false (behindLast '@' authority)
  -- the crate ends a port at a backslash whatever the scheme
  let text := behindColon.takeWhile (· ≠ '\\')
  if !text.isEmpty && text.all Char.isDigit then
    some (Nat.ofDigitChars 10 text 0)
  else
    none

/-- The schemes that are accepted. -/
def proxySchemes : List String := ["socks5", "socks5h", "http", "https"]

/-- The crate reports the scheme of a URL and, where there is a host, the port that is written,
unless it is the default of the scheme, which it knows. -/
structure UrlCrate.Standard (U : UrlCrate) : Prop where
  known : U.KnowsDefaults
  scheme : ∀ raw url, U.parse raw = .ok url → schemeOf raw = some url.scheme
  port : ∀ raw url, U.parse raw = .ok url → url.hostStr.isSome → url.scheme ∈ proxySchemes →
    url.port.map UInt16.toNat =
      (writtenPort raw).filter fun p => (knownDefaultPort url.scheme).map UInt16.toNat ≠ some p

/-! ### Plain spelling -/

/-- A host as the crate gives it: an IPv6 literal in brackets, or a name or an address without
brackets and colons. -/
inductive HostShape : List Char → Prop
  | literal {inner : List Char} : ':' ∈ inner →
      (∀ c ∈ inner, c ∉ ['/', '?', '#', '@', '[', ']']) → HostShape ('[' :: (inner ++ [']']))
  | name {host : List Char} :
      (∀ c ∈ host, c ∉ ['/', '?', '#', '@', '[', ']', ':']) → HostShape host

/-- A port behind a host: nothing, or a colon and digits. -/
def PortShape (port : List Char) : Prop :=
  port = [] ∨ ∃ digits, port = ':' :: digits ∧ digits.all Char.isDigit

/-- There are only digits and a colon in a port. -/
theorem PortShape.ne_of_mem {port : List Char} (h : PortShape port) {c : Char}
    (hc : c.isDigit = false) (hcolon : c ≠ ':') : c ∉ port := by
  intro hmem
  rcases h with rfl | ⟨digits, rfl, hdigits⟩
  · cases hmem
  · rcases List.mem_cons.mp hmem with rfl | hmem
    · exact hcolon rfl
    · rw [List.all_eq_true.mp hdigits c hmem] at hc
      cases hc

/-- The scan of a host and a port. -/
theorem behindLast_bracket {host port : List Char} (hhost : HostShape host)
    (hport : PortShape port) :
    ∃ name, ':' ∉ name ∧ behindLast ']' (host ++ port) = name ++ port := by
  have hbracket : ']' ∉ port := hport.ne_of_mem (by decide) (by decide)
  cases hhost with
  | @literal inner =>
      refine ⟨[], by simp, ?_⟩
      rw [List.nil_append, List.cons_append, List.append_assoc, ← List.cons_append,
        List.singleton_append, behindLast_append hbracket]
  | name hname =>
      refine ⟨host, fun hmem => hname _ hmem (by decide), behindLast_of_notMem ?_⟩
      intro hmem
      rcases List.mem_append.mp hmem with hmem | hmem
      · exact hname _ hmem (by decide)
      · exact hbracket hmem

/-- The scan of an authority finds a port exactly if there is a digit behind the colon. -/
theorem portInAuthority_eq {authority host port : List Char}
    (hauthority : behindLast '@' authority = host ++ port) (hhost : HostShape host)
    (hport : PortShape port) : portInAuthority authority = decide (2 ≤ port.length) := by
  obtain ⟨name, hname, hbehind⟩ := behindLast_bracket hhost hport
  simp only [portInAuthority, hauthority, hbehind]
  rcases hport with rfl | ⟨digits, rfl, hdigits⟩
  · rw [List.append_nil, splitOnce_of_notMem hname]
    rfl
  · have hsplit : splitOnce [':'] (name ++ ':' :: digits) = some (name, digits) :=
      splitOnce_append hname digits
    rw [hsplit]
    cases digits with
    | nil => rfl
    | cons c digits => simpa using hdigits

/-- A text without a colon outside of brackets is passed over. -/
theorem portText_append {inside : Bool} {text rest : List Char}
    (h : ∀ c ∈ text, c ≠ '[' ∧ c ≠ ']' ∧ (c = ':' → inside = true)) :
    portText inside (text ++ rest) = portText inside rest := by
  induction text with
  | nil => rfl
  | cons c text ih =>
      obtain ⟨⟨hopen, hclose, hcolon⟩, htext⟩ := List.forall_mem_cons.mp h
      have hstop : ¬ ((c = ':' && !inside) = true) := by
        cases inside <;> simp_all
      rw [List.cons_append, portText, if_neg hstop, if_neg hopen, if_neg hclose, ih htext]

/-- The first colon behind a host is the one of the port. -/
theorem portText_host {host port : List Char} (hhost : HostShape host) :
    portText false (host ++ port) = portText false port := by
  cases hhost with
  | @literal inner _ hinner =>
      have hskip : portText true (inner ++ ']' :: port) = portText true (']' :: port) := by
        refine portText_append fun c hc => ?_
        have hfree := hinner c hc
        simp only [List.mem_cons, List.not_mem_nil, or_false, not_or] at hfree
        obtain ⟨-, -, -, -, hopen, hclose⟩ := hfree
        exact ⟨hopen, hclose, fun _ => rfl⟩
      rw [List.cons_append, List.append_assoc, List.singleton_append]
      exact hskip
  | name hname =>
      refine portText_append fun c hc => ?_
      have hfree := hname c hc
      simp only [List.mem_cons, List.not_mem_nil, or_false, not_or] at hfree
      obtain ⟨-, -, -, -, hopen, hclose, hcolon⟩ := hfree
      exact ⟨hopen, hclose, fun heq => absurd heq hcolon⟩

/-- A written port is found behind the host. -/
theorem isSome_writtenPort {raw : String} {authority host port : List Char}
    (hraw : authorityOf raw.toList = some authority)
    (hauthority : behindLast '@' authority = host ++ port) (hhost : HostShape host)
    (hport : PortShape port) : (writtenPort raw).isSome = decide (2 ≤ port.length) := by
  rw [writtenPort, hraw]
  simp only [Option.bind_eq_bind, Option.bind_some, hauthority, portText_host hhost]
  rcases hport with rfl | ⟨digits, rfl, hdigits⟩
  · rfl
  · have hkeep : digits.takeWhile (· ≠ '\\') = digits := by
      refine List.takeWhile_eq_self_iff.mpr fun c hc => ?_
      have hdigit := List.all_eq_true.mp hdigits c hc
      refine decide_eq_true ?_
      rintro rfl
      exact absurd hdigit (by decide)
    have htext : portText false (':' :: digits) = some digits := rfl
    rw [htext, Option.bind_some, hkeep, hdigits, Bool.and_true]
    cases digits with
    | nil => rfl
    | cons c digits => simp

/-- A part of a text that ends where `stop` begins to hold. -/
theorem takeWhile_not_append {stop : Char → Bool} {text tail : List Char}
    (htext : ∀ c ∈ text, stop c = false)
    (htail : tail = [] ∨ ∃ c rest, tail = c :: rest ∧ stop c = true) :
    (text ++ tail).takeWhile (fun c => !stop c) = text := by
  rw [List.takeWhile_append_of_pos (by simpa using htext)]
  rcases htail with rfl | ⟨c, rest, rfl, hc⟩
  · simp
  · simp [hc]

/-- The scan finds an authority that stands behind `://`. -/
theorem hasExplicitPort_spelled {scheme authority tail : List Char} (hscheme : ':' ∉ scheme)
    (hauthority : ∀ c ∈ authority, c ∉ ['/', '?', '#'])
    (htail : tail = [] ∨ ∃ c rest, tail = c :: rest ∧ c ∈ ['/', '?', '#']) :
    hasExplicitPort (String.ofList (scheme ++ ':' :: '/' :: '/' :: (authority ++ tail))) =
      portInAuthority authority := by
  have hsplit : splitOnce [':', '/', '/'] (scheme ++ ':' :: '/' :: '/' :: (authority ++ tail)) =
      some (scheme, authority ++ tail) :=
    splitOnce_append hscheme (authority ++ tail)
  have htake : (authority ++ tail).takeWhile (fun c => !(['/', '?', '#'].contains c)) = authority :=
    takeWhile_not_append (by simpa using hauthority) (by simpa using htail)
  rw [hasExplicitPort, String.toList_ofList, hsplit]
  exact congrArg portInAuthority htake

/-- A URL as it is usually spelled: a scheme, `://`, and an authority that ends in a host and a
port, without blanks, controls or backslashes. Blanks may stand in front, and anything behind the
authority. -/
structure PlainlySpelled (raw blanks scheme authority host port tail : List Char) : Prop where
  spelled : raw = blanks ++ scheme ++ ':' :: '/' :: '/' :: (authority ++ tail)
  blanks_le : ∀ c ∈ blanks, c ≤ ' '
  scheme_plain : ∀ c ∈ scheme, ' ' < c ∧ c ≠ ':'
  authority_plain : ∀ c ∈ authority, ' ' < c ∧ c ∉ ['/', '?', '#', '\\']
  nonempty : authority ≠ []
  ends : tail = [] ∨ ∃ c rest, tail = c :: rest ∧ c ∈ ['/', '?', '#']
  host_port : behindLast '@' authority = host ++ port
  host_shape : HostShape host
  port_shape : PortShape port

/-- The text is spelled plainly. -/
def Plain (raw : String) : Prop :=
  ∃ blanks scheme authority host port tail,
    PlainlySpelled raw.toList blanks scheme authority host port tail

/-- Blanks are trimmed off the end up to a character that is none. -/
theorem trimEnd_append {front : List Char} {c : Char} (hc : ' ' < c) (rest : List Char) :
    ((front ++ c :: rest).reverse.dropWhile (· ≤ ' ')).reverse =
      front ++ c :: (rest.reverse.dropWhile (· ≤ ' ')).reverse := by
  have hstop : (c :: front.reverse).dropWhile (· ≤ ' ') = c :: front.reverse :=
    List.dropWhile_cons_of_neg (by simpa using hc)
  rw [List.reverse_append, List.reverse_cons, List.append_assoc, List.singleton_append,
    List.dropWhile_append]
  split
  · rename_i hempty
    rw [hstop, List.isEmpty_iff.mp hempty]
    simp
  · simp

/-- Tabs and line ends are blanks. -/
theorem filter_of_plain {text : List Char} (h : ∀ c ∈ text, ' ' < c) :
    text.filter (fun c => !(['\t', '\n', '\r'].contains c)) = text := by
  refine List.filter_eq_self.mpr fun c hc => ?_
  have hlt := h c hc
  simp only [List.contains_cons, List.contains_nil, Bool.or_false, Bool.not_eq_true',
    Bool.or_eq_false_iff, beq_eq_false_iff_ne]
  refine ⟨?_, ?_, ?_⟩ <;> rintro rfl <;> exact absurd hlt (by decide)

/-- Cleaning takes the blanks in front away, leaves a text without blanks as it is, and keeps the
first character behind it. -/
theorem cleaned_spelled {blanks core tail : List Char} (hblanks : ∀ c ∈ blanks, c ≤ ' ')
    (hcore : ∀ c ∈ core, ' ' < c) (hne : core ≠ []) (htail : ∀ c ∈ tail.head?, ' ' < c) :
    ∃ tail', cleaned (blanks ++ (core ++ tail)) = core ++ tail' ∧ tail'.head? = tail.head? := by
  have hfront : (blanks ++ (core ++ tail)).dropWhile (· ≤ ' ') = core ++ tail := by
    rw [List.dropWhile_append_of_pos (by simpa using hblanks)]
    obtain ⟨c, later, rfl⟩ := List.exists_cons_of_ne_nil hne
    have hc := hcore c List.mem_cons_self
    rw [List.cons_append, List.dropWhile_cons_of_neg (by simpa using hc)]
  rw [cleaned, hfront]
  rcases tail with _ | ⟨c, rest⟩
  · refine ⟨[], ?_, rfl⟩
    obtain ⟨front, c, rfl⟩ := (List.eq_nil_or_concat' core).resolve_left hne
    rw [List.append_nil, trimEnd_append (hcore c (by simp)) []]
    exact filter_of_plain hcore
  · have hc : ' ' < c := htail c rfl
    refine ⟨c :: ((rest.reverse.dropWhile (· ≤ ' ')).reverse).filter
      (fun c => !(['\t', '\n', '\r'].contains c)), ?_, rfl⟩
    have hkept := List.filter_eq_self.mp (filter_of_plain (List.forall_mem_singleton.mpr hc)) c
      List.mem_cons_self
    rw [trimEnd_append hc, List.filter_append, filter_of_plain hcore, List.filter_cons,
      if_pos hkept]

namespace PlainlySpelled

variable {raw blanks scheme authority host port tail : List Char}

/-- What a parser reads of a plainly spelled URL: the scheme, the authority, and something that
begins as what is behind the authority does. -/
theorem schemeAndRest_eq (h : PlainlySpelled raw blanks scheme authority host port tail) :
    ∃ tail', schemeAndRest raw =
        some (scheme.map Char.toLower, '/' :: '/' :: (authority ++ tail')) ∧
      tail'.head? = tail.head? := by
  have hcore : ∀ c ∈ scheme ++ ':' :: '/' :: '/' :: authority, ' ' < c := by
    intro c hc
    simp only [List.mem_append, List.mem_cons] at hc
    rcases hc with hc | rfl | rfl | rfl | hc
    · exact (h.scheme_plain c hc).1
    · decide
    · decide
    · decide
    · exact (h.authority_plain c hc).1
  have htail : ∀ c ∈ tail.head?, ' ' < c := by
    intro c hc
    rcases h.ends with rfl | ⟨d, rest, rfl, hd⟩
    · cases hc
    · obtain rfl : d = c := Option.some.inj hc
      simp only [List.mem_cons, List.not_mem_nil, or_false] at hd
      rcases hd with rfl | rfl | rfl <;> decide
  obtain ⟨tail', hclean, hhead⟩ := cleaned_spelled h.blanks_le hcore (by simp) htail
  have hraw : raw = blanks ++ (scheme ++ ':' :: '/' :: '/' :: authority ++ tail) := by
    rw [h.spelled]
    simp
  have hsplit : splitOnce [':'] (cleaned raw) =
      some (scheme, '/' :: '/' :: (authority ++ tail')) := by
    rw [hraw, hclean, List.append_assoc, List.cons_append]
    exact splitOnce_append (fun hmem => (h.scheme_plain _ hmem).2 rfl) _
  exact ⟨tail', by rw [schemeAndRest, hsplit]; rfl, hhead⟩

/-- The authority of a plainly spelled http URL is what stands behind `://`. -/
theorem authorityOf_eq (h : PlainlySpelled raw blanks scheme authority host port tail)
    (hhttp : scheme.map Char.toLower = "http".toList) : authorityOf raw = some authority := by
  obtain ⟨tail', hread, hhead⟩ := h.schemeAndRest_eq
  have hplain : ∀ c ∈ authority, isSlash true c = false ∧ c ≠ '?' ∧ c ≠ '#' := by
    intro c hc
    have hfree := (h.authority_plain c hc).2
    simp only [List.mem_cons, List.not_mem_nil, or_false, not_or] at hfree
    obtain ⟨hslash, hquery, hhash, hback⟩ := hfree
    exact ⟨by simp [isSlash, hslash, hback], hquery, hhash⟩
  have hdrop : ('/' :: '/' :: (authority ++ tail')).dropWhile (isSlash true) =
      authority ++ tail' := by
    obtain ⟨c, later, rfl⟩ := List.exists_cons_of_ne_nil h.nonempty
    have hc := (hplain c List.mem_cons_self).1
    have hslash : isSlash true '/' = true := rfl
    rw [List.dropWhile_cons_of_pos hslash, List.dropWhile_cons_of_pos hslash, List.cons_append,
      List.dropWhile_cons_of_neg (by simp [hc])]
  have hends : tail' = [] ∨ ∃ c rest, tail' = c :: rest ∧
      (isSlash true c || c = '?' || c = '#') = true := by
    rcases tail' with _ | ⟨c, rest⟩
    · exact .inl rfl
    · refine .inr ⟨c, rest, rfl, ?_⟩
      rcases h.ends with rfl | ⟨d, later, rfl, hd⟩
      · cases hhead
      · obtain rfl : c = d := Option.some.inj hhead
        simp only [List.mem_cons, List.not_mem_nil, or_false] at hd
        rcases hd with rfl | rfl | rfl <;> rfl
  have htake : (authority ++ tail').takeWhile
      (fun c => !(isSlash true c || c = '?' || c = '#')) = authority := by
    refine takeWhile_not_append (fun c hc => ?_) hends
    obtain ⟨hslash, hquery, hhash⟩ := hplain c hc
    simp [hslash, hquery, hhash]
  have hspecial : ["http".toList, "https".toList].contains (scheme.map Char.toLower) = true := by
    rw [hhttp]
    decide
  simp only [authorityOf, hread, Option.bind_eq_bind, Option.bind_some, hspecial, if_true, hdrop,
    htake]

end PlainlySpelled

/-- **Plainly spelled URLs.** On them the scan of the raw text finds a port exactly if one is
written. -/
theorem hasExplicitPort_of_plain {raw : String} (h : Plain raw)
    (hhttp : schemeOf raw = some "http") : hasExplicitPort raw = (writtenPort raw).isSome := by
  obtain ⟨blanks, scheme, authority, host, port, tail, h⟩ := h
  have hscheme : scheme.map Char.toLower = "http".toList := by
    obtain ⟨tail', hread, -⟩ := h.schemeAndRest_eq
    rw [schemeOf, hread] at hhttp
    rw [← Option.some.inj hhttp, String.toList_ofList]
  have hcolon : ':' ∉ blanks ++ scheme := by
    intro hmem
    rcases List.mem_append.mp hmem with hmem | hmem
    · exact absurd (h.blanks_le _ hmem) (by decide)
    · exact (h.scheme_plain _ hmem).2 rfl
  have hfree : ∀ c ∈ authority, c ∉ ['/', '?', '#'] := by
    intro c hc hmem
    exact (h.authority_plain c hc).2 (List.mem_append_left ['\\'] hmem)
  have hscan := hasExplicitPort_spelled hcolon hfree h.ends
  rw [← h.spelled, String.ofList_toList] at hscan
  rw [hscan, portInAuthority_eq h.host_port h.host_shape h.port_shape,
    isSome_writtenPort (h.authorityOf_eq hscheme) h.host_port h.host_shape h.port_shape]

/-! ### The port of a proxy -/

/-- The schemes of proxies, and their kinds. -/
theorem proxyKind_eq_ok {scheme : String} {kind : ProxyKind} (h : proxyKind scheme = .ok kind) :
    (scheme = "socks5" ∨ scheme = "socks5h") ∧ kind = .socks5 ∨
      (scheme = "http" ∨ scheme = "https") ∧ kind = .httpConnect := by
  rw [proxyKind] at h
  split at h
  · exact .inl ⟨‹_›, (Except.ok.inj h).symm⟩
  split at h
  · exact .inr ⟨‹_›, (Except.ok.inj h).symm⟩
  · cases h

/-- **An accepted URL**: what the crate made of it, and what each field is made of. -/
theorem ProxyConfig.parse_eq_ok {U : UrlCrate} {raw : String} {cfg : ProxyConfig}
    (h : ProxyConfig.parse U raw = .ok cfg) :
    ∃ url host, U.parse raw = .ok url ∧ url.hostStr = some host ∧
      proxyKind url.scheme = .ok cfg.kind ∧ cfg.host = unbracket host ∧
      resolvePort U url raw = .ok cfg.port ∧ cfg.tlsToProxy = (url.scheme == "https") := by
  rw [ProxyConfig.parse] at h
  obtain ⟨url, hurl, h⟩ := bind_eq_ok.mp h
  obtain ⟨kind, hkind, h⟩ := bind_eq_ok.mp h
  obtain ⟨host, hhost, h⟩ := bind_eq_ok.mp h
  obtain ⟨port, hport, h⟩ := bind_eq_ok.mp h
  obtain rfl := Except.ok.inj h
  rcases hparse : U.parse raw with e | url'
  · rw [hparse] at hurl
    cases hurl
  · rw [hparse] at hurl
    obtain rfl : url' = url := Except.ok.inj hurl
    rcases hstr : url'.hostStr with _ | str
    · rw [proxyHost, hstr] at hhost
      cases hhost
    · rw [proxyHost, hstr] at hhost
      exact ⟨url', str, rfl, hstr, hkind, (Except.ok.inj hhost).symm, hport, rfl⟩

/-- The port that a URL means, by what it writes and by its scheme. -/
def meantPort (raw : String) : Option Nat :=
  writtenPort raw <|> (schemeOf raw).bind fun scheme => (defaultPort scheme).map UInt16.toNat

/-- What the port of a URL is for which the crate reports none. -/
theorem resolvePort_of_none {U : UrlCrate} (hU : U.KnowsDefaults) {url : Url} {raw : String}
    {port : UInt16} (hnone : url.port = none) (h : resolvePort U url raw = .ok port) :
    (if hasExplicitPort raw then knownDefaultPort url.scheme else defaultPort url.scheme) =
      some port := by
  have hknown : U.portOrKnownDefault url = knownDefaultPort url.scheme := by
    rw [hU url, hnone]
    rfl
  simp only [resolvePort, hnone, hknown] at h
  split at h
  · rename_i found hfound
    rw [hfound, Except.ok.inj h]
  · cases h

/-- The crate drops the default port of the scheme, and no other. -/
theorem written_of_unreported {known written : Option Nat}
    (h : written.filter (fun p => known ≠ some p) = none) : written = none ∨ written = known := by
  rcases written with _ | p
  · exact .inl rfl
  · have hp := Option.filter_eq_none_iff.mp h p rfl
    exact .inr (by simpa using hp : known = some p).symm

/-- The port of a URL for which the crate reports none, by what the scan says. For socks the crate
knows no default, so the scan must have found nothing; for https both defaults are 443. -/
theorem unreported_port {scheme : String} {kind : ProxyKind} {scan : Bool} {written : Option Nat}
    {port : UInt16} (hkind : proxyKind scheme = .ok kind)
    (hresolved : (if scan then knownDefaultPort scheme else defaultPort scheme) = some port)
    (hwritten : written = none ∨ written = (knownDefaultPort scheme).map UInt16.toNat) :
    some port.toNat = (written <|> (defaultPort scheme).map UInt16.toNat) ↔
      (some scheme = some "http" → (written = none ∨ written = some 80) →
        scan = written.isSome) := by
  rcases proxyKind_eq_ok hkind with ⟨hsocks, -⟩ | ⟨rfl | rfl, -⟩
  · have hknown : knownDefaultPort scheme = none := by
      rcases hsocks with rfl | rfl <;> rfl
    have hhttp : scheme ≠ "http" := by
      rcases hsocks with rfl | rfl <;> decide
    rw [hknown, Option.map_none, or_self] at hwritten
    rw [hknown] at hresolved
    rw [hwritten]
    refine iff_of_true ?_ fun heq => absurd (Option.some.inj heq) hhttp
    split at hresolved
    · cases hresolved
    · rw [hresolved]
      rfl
  · have hport : (if scan then 80 else 8080) = port := by
      cases scan <;> exact Option.some.inj hresolved
    rw [← hport]
    rcases hwritten with rfl | rfl <;> cases scan <;> decide
  · have hport : 443 = port := by
      cases scan <;> exact Option.some.inj hresolved
    rw [← hport]
    refine iff_of_true ?_ fun heq => absurd (Option.some.inj heq) (by decide)
    rcases hwritten with rfl | rfl <;> rfl

/-- When the port of an accepted URL is the one that is meant, by what the scan finds. -/
theorem port_eq_meantPort_iff {U : UrlCrate} (hU : U.Standard) {raw : String} {cfg : ProxyConfig}
    (hparse : ProxyConfig.parse U raw = .ok cfg) :
    some cfg.port.toNat = meantPort raw ↔
      (schemeOf raw = some "http" → (writtenPort raw = none ∨ writtenPort raw = some 80) →
        hasExplicitPort raw = (writtenPort raw).isSome) := by
  obtain ⟨url, host, hurl, hhost, hkind, -, hport, -⟩ := ProxyConfig.parse_eq_ok hparse
  have hscheme := hU.scheme raw url hurl
  have hmem : url.scheme ∈ proxySchemes := by
    rcases proxyKind_eq_ok hkind with ⟨h | h, -⟩ | ⟨h | h, -⟩ <;> simp [proxySchemes, h]
  have hreport := hU.port raw url hurl (by simp [hhost]) hmem
  rw [meantPort, hscheme, Option.bind_some]
  rcases hurlPort : url.port with _ | port
  · rw [hurlPort, Option.map_none] at hreport
    exact unreported_port hkind (resolvePort_of_none hU.known hurlPort hport)
      (written_of_unreported hreport.symm)
  · rw [resolvePort, hurlPort] at hport
    rw [hurlPort] at hreport
    obtain rfl : port = cfg.port := Except.ok.inj hport
    obtain ⟨hwritten, hother⟩ := Option.filter_eq_some_iff.mp hreport.symm
    rw [hwritten]
    refine iff_of_true rfl ?_
    rintro hhttp (hnone | h80)
    · cases hnone
    · rw [Option.some.inj hhttp, Option.some.inj h80] at hother
      exact absurd hother (by decide)

/-- **The port of an accepted URL.** It is the one that is written, or else the default of the
scheme, if the scheme is not http, if a port other than 80 is written, or if the URL is spelled
plainly. In general it is, except for http with the port 80 written or none: there the scan of the
raw text has to find a port exactly if one is written. -/
theorem proxy_port_as_written (U : UrlCrate) (hU : U.Standard) (raw : String) (cfg : ProxyConfig)
    (hparse : ProxyConfig.parse U raw = .ok cfg) :
    (schemeOf raw ≠ some "http" ∨ (∃ p, writtenPort raw = some p ∧ p ≠ 80) ∨ Plain raw →
      some cfg.port.toNat = meantPort raw) ∧
    (some cfg.port.toNat = meantPort raw ↔
      (schemeOf raw = some "http" → (writtenPort raw = none ∨ writtenPort raw = some 80) →
        hasExplicitPort raw = (writtenPort raw).isSome)) := by
  have hiff := port_eq_meantPort_iff hU hparse
  refine ⟨fun hcond => hiff.mpr fun hhttp hport => ?_, hiff⟩
  rcases hcond with hother | ⟨p, hp, hne⟩ | hplain
  · exact absurd hhttp hother
  · rw [hp] at hport
    rcases hport with hnone | h80
    · cases hnone
    · exact absurd (Option.some.inj h80) hne
  · exact hasExplicitPort_of_plain hplain hhttp

namespace Sample

/-- A crate that knows one URL, with and without a line end behind it. -/
def tableCrate : UrlCrate where
  parse raw :=
    if raw = "http://host:80" ∨ raw = "http://host:80\n" then
      .ok { scheme := "http", hostStr := some "host", port := none }
    else
      .error "relative URL without a base"
  portOrKnownDefault url := url.port <|> knownDefaultPort url.scheme

/-- The two URLs that it knows. -/
theorem tableCrate_eq_ok {raw : String} {url : Url} (h : tableCrate.parse raw = .ok url) :
    (raw = "http://host:80" ∨ raw = "http://host:80\n") ∧
      url = { scheme := "http", hostStr := some "host", port := none } := by
  simp only [tableCrate] at h
  split at h
  · exact ⟨‹_›, (Except.ok.inj h).symm⟩
  · cases h

/-- It reports them as the standard says. -/
theorem tableCrate_standard : tableCrate.Standard where
  known _ := rfl
  scheme raw url h := by
    obtain ⟨rfl | rfl, rfl⟩ := tableCrate_eq_ok h <;> decide
  port raw url h _ _ := by
    obtain ⟨rfl | rfl, rfl⟩ := tableCrate_eq_ok h <;> decide

/-- The first one is spelled plainly. -/
theorem plain_eighty : Plain "http://host:80" := by
  refine ⟨[], "http".toList, "host:80".toList, "host".toList, ":80".toList, [], ?_⟩
  exact
    { spelled := rfl
      blanks_le := by simp
      scheme_plain := by simp
      authority_plain := by simp
      nonempty := by simp
      ends := .inl rfl
      host_port := by decide
      host_shape := .name (by simp)
      port_shape := .inr ⟨"80".toList, rfl, by decide⟩ }

end Sample

/-- The scan takes the line end for a part of the port. -/
theorem port_lost_to_line_end :
    Sample.tableCrate.Standard ∧
      ProxyConfig.parse Sample.tableCrate "http://host:80\n" =
        .ok { kind := .httpConnect, host := "host", port := 8080 } ∧
      writtenPort "http://host:80\n" = some 80 :=
  ⟨Sample.tableCrate_standard, by decide, by decide⟩

/-- Without the line end the written port is kept. -/
theorem proxy_port_as_written_eighty :
    ProxyConfig.parse Sample.tableCrate "http://host:80" =
        .ok { kind := .httpConnect, host := "host", port := 80 } ∧
      Plain "http://host:80" ∧ some 80 = meantPort "http://host:80" :=
  have hparse : ProxyConfig.parse Sample.tableCrate "http://host:80" =
      .ok { kind := .httpConnect, host := "host", port := 80 } := by decide
  ⟨hparse, Sample.plain_eighty,
    (proxy_port_as_written Sample.tableCrate Sample.tableCrate_standard "http://host:80" _
      hparse).1 (.inr (.inr Sample.plain_eighty))⟩

end Steamroids
