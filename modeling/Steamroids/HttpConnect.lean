import Mathlib.Data.List.TakeWhile
import Steamroids.Buffered
import Steamroids.Message
import Steamroids.Pool
import Steamroids.Utf8

/-!
# Tunnels Through an HTTP Proxy

`connect_http` (`transport/proxy.rs`) asks a proxy for a tunnel: it connects, wraps the leg in TLS
for an `https` proxy, sends a `CONNECT` request, and reads the head of the reply, a status line and
headers up to a blank line. What the proxy sends behind that line belongs to the tunnel already, and
may have arrived together with it, so the tunnel is the buffered reader itself.

What the network does is a parameter (`Network`), and the reply is a reader as in `Buffered`.

## Main results

* `connect_tunnels_tail`: the head is read whole or refused, and the tunnel begins behind it.
* `connect_needs_whole_head`: when a tunnel is only given for a whole head.
-/

namespace Steamroids

open Buffered (Broken Reader)

/-! ### Texts -/

/-- `char::is_whitespace`. -/
def isWhitespace (c : Char) : Bool :=
  let n := c.toNat
  (0x9 ≤ n && n ≤ 0xd) || n == 0x20 || n == 0x85 || n == 0xa0 || n == 0x1680 ||
    (0x2000 ≤ n && n ≤ 0x200a) || n == 0x2028 || n == 0x2029 || n == 0x202f || n == 0x205f ||
    n == 0x3000

/-- `str::trim_end`. -/
def trimEnd (s : String) : String :=
  String.ofList (s.toList.reverse.dropWhile isWhitespace).reverse

/-- `str::split_whitespace`. -/
def splitWhitespace (s : String) : List String :=
  ((s.toList.splitOnP isWhitespace).filter fun token => !token.isEmpty).map String.ofList

/-- Blanks at the end add no word. -/
theorem splitOnP_filter_blanks {blanks : List Char} (h : ∀ c ∈ blanks, isWhitespace c = true)
    (text : List Char) :
    ((text ++ blanks).splitOnP isWhitespace).filter (fun token => !token.isEmpty) =
      (text.splitOnP isWhitespace).filter fun token => !token.isEmpty := by
  induction blanks generalizing text with
  | nil => rw [List.append_nil]
  | cons c blanks ih =>
      obtain ⟨hc, hblanks⟩ := List.forall_mem_cons.mp h
      have hrest := ih hblanks []
      rw [List.nil_append] at hrest
      rw [List.splitOnP_append_cons text blanks hc, List.filter_append, hrest]
      simp

/-- Blanks at the end are of no account to the tokens. -/
theorem splitWhitespace_trimEnd (s : String) : splitWhitespace (trimEnd s) = splitWhitespace s := by
  have hs : s.toList = (trimEnd s).toList ++ (s.toList.reverse.takeWhile isWhitespace).reverse := by
    rw [trimEnd, String.toList_ofList, ← List.reverse_append, List.takeWhile_append_dropWhile,
      List.reverse_reverse]
  rw [splitWhitespace, splitWhitespace, hs, splitOnP_filter_blanks]
  intro c hc
  exact List.mem_takeWhile_imp (List.mem_reverse.mp hc)

/-! ### Reading the reply -/

/-- The number of header lines that are read at most. -/
def maxConnectHeaders : Nat := 64

/-- What comes out of `timeout(.., ..)` and the two `?` behind it. -/
def timeout {α : Type} (what : String) (wrap : String → Error) :
    Except (Broken String) α → Except Error α
  | .ok a => .ok a
  | .error .silent => .error (.timeout what)
  | .error (.failed e) => .error (wrap e)

/-- `read_line` under the deadline `what`: how many bytes were read, and their text. -/
def readLine (what : String) (reader : Reader UInt8 String) :
    Except Error (Nat × String × Reader UInt8 String) := do
  let (bytes, reader) ← timeout what .io (reader.readUntil 10)
  match Utf8.text? bytes with
  | some line => .ok (bytes.length, line, reader)
  | none => .error (.io "stream did not contain valid UTF-8")

/-- `is_ok_status`: the second word of the status line is `200`. -/
def isOkStatus (statusLine : String) : Bool := (splitWhitespace statusLine)[1]? == some "200"

/-- The loop over the headers, with the number of lines that may still be read. -/
def drainHeaders : Nat → Reader UInt8 String → Except Error (Reader UInt8 String)
  | 0, _ => .error (.httpConnect "proxy sent too many CONNECT response headers")
  | left + 1, reader => do
      let (bytes, line, reader) ← readLine "http connect read headers" reader
      if bytes == 0 || line == "\r\n" || line == "\n" then
        .ok reader
      else
        drainHeaders left reader

/-- The part of `connect_http` behind the request. -/
def readConnectReply (reader : Reader UInt8 String) : Except Error (Reader UInt8 String) := do
  let (_, statusLine, reader) ← readLine "http connect read status" reader
  let statusLine := trimEnd statusLine
  if !isOkStatus statusLine then
    .error (.httpConnect ("proxy refused: " ++ statusLine))
  else
    drainHeaders maxConnectHeaders reader

/-! ### The handshake -/

/-- What becomes of the steps towards a proxy: the connection to an address, the check of a server
name, the TLS handshake with it, the sending of a request, and the reply to it. The encoder is the
one of the `base64` crate. -/
structure Network where
  connect : String → Except (Broken String) Unit
  serverName : String → Except String Unit
  handshake : String → Except (Broken String) Unit
  send : String → Except (Broken String) Unit
  reply : String → Reader UInt8 String
  base64 : String → String

/-- The request for a tunnel to `target`. -/
def connectRequest (base64 : String → String) (proxy : ProxyConfig) (target : String) : String :=
  let auth :=
    match proxy.credentials with
    | some c =>
        "Proxy-Authorization: Basic " ++ base64 (c.username ++ ":" ++ c.password) ++ "\r\n"
    | none => ""
  "CONNECT " ++ target ++ " HTTP/1.1\r\nHost: " ++ target ++ "\r\n" ++ auth ++ "\r\n"

/-- For an https proxy the leg to the proxy itself is wrapped in TLS. -/
def wrapLeg (net : Network) (proxy : ProxyConfig) : Except Error Unit :=
  if proxy.tlsToProxy then do
    (net.serverName proxy.host).mapError fun e => .tls ("invalid proxy sni: " ++ e)
    timeout "proxy tls handshake" .tls (net.handshake proxy.host)
  else
    .ok ()

/-- Open a tunnel to the target through an HTTP proxy. -/
def connectHttp (net : Network) (proxy : ProxyConfig) (targetHost : String) (targetPort : UInt16) :
    Except Error (Reader UInt8 String) := do
  timeout "http connect tcp" .io (net.connect (authority proxy.host proxy.port))
  wrapLeg net proxy
  let request := connectRequest net.base64 proxy (authority targetHost targetPort)
  timeout "http connect write" .io (net.send request)
  readConnectReply (net.reply request)

/-! ### Lines of a reply -/

/-- A line with its end. -/
def Terminated (line : Bytes) : Prop := ∃ text, 10 ∉ text ∧ line = text ++ [10]

/-- The empty line, with either end. -/
def Blank (line : Bytes) : Prop := line = [13, 10] ∨ line = [10]

instance (line : Bytes) : Decidable (Blank line) := inferInstanceAs (Decidable (_ ∨ _))

/-- Valid text that is not the empty line. -/
structure HeaderLine (line : Bytes) : Prop where
  valid : ∃ text, Utf8.text? line = some text
  not_blank : ¬ Blank line

/-- A line whose second token is `200`. -/
def OkLine (line : Bytes) : Prop :=
  ∃ text, Utf8.text? line = some text ∧ (splitWhitespace text)[1]? = some "200"

/-- Trimming the line does not matter to its status. -/
theorem isOkStatus_trimEnd {text : String} :
    isOkStatus (trimEnd text) = true ↔ (splitWhitespace text)[1]? = some "200" := by
  rw [isOkStatus, splitWhitespace_trimEnd, beq_iff_eq]

/-- The comparisons of the loop find the empty line. -/
theorem blank_iff {line : Bytes} {text : String} (h : Utf8.text? line = some text) :
    (text == "\r\n" || text == "\n") = true ↔ Blank line := by
  have hcrlf : Utf8.text? [13, 10] = some "\r\n" := by decide
  have hlf : Utf8.text? [10] = some "\n" := by decide
  rw [Bool.or_eq_true, beq_iff_eq, beq_iff_eq]
  constructor
  · rintro (rfl | rfl)
    · exact .inl ((Utf8.text?_eq_some_iff.mp h).trans (Utf8.text?_eq_some_iff.mp hcrlf).symm)
    · exact .inr ((Utf8.text?_eq_some_iff.mp h).trans (Utf8.text?_eq_some_iff.mp hlf).symm)
  · rintro (rfl | rfl)
    · exact .inl (Option.some.inj (h.symm.trans hcrlf))
    · exact .inr (Option.some.inj (h.symm.trans hlf))

/-- A line that was read has to be a text. -/
theorem readLine_of_read (what : String) {reader reader' : Reader UInt8 String} {line : Bytes}
    (h : reader.readUntil 10 = .ok (line, reader')) :
    readLine what reader =
      match Utf8.text? line with
      | some text => .ok (line.length, text, reader')
      | none => .error (.io "stream did not contain valid UTF-8") := by
  rw [readLine, h]
  rfl

/-- A line is read whole, and nothing behind it. -/
theorem readLine_of_append {what : String} {reader : Reader UInt8 String} {line rest : Bytes}
    {text : String} (hline : Terminated line) (htext : Utf8.text? line = some text)
    (hcontent : reader.content = line ++ rest) :
    ∃ reader', readLine what reader = .ok (line.length, text, reader') ∧
      reader'.content = rest := by
  obtain ⟨before, hbefore, rfl⟩ := hline
  rw [List.append_assoc, List.singleton_append] at hcontent
  obtain ⟨reader', hread, hrest, -⟩ := reader.readUntil_of_append hbefore hcontent
  refine ⟨reader', ?_, hrest⟩
  rw [readLine_of_read what hread, htext]

/-! ### The headers -/

/-- One turn of the loop over a header line. -/
theorem drainHeaders_header {left : Nat} {reader reader' : Reader UInt8 String} {line : Bytes}
    {text : String} (hread : readLine "http connect read headers" reader =
      .ok (line.length, text, reader')) (hne : line ≠ []) (htext : Utf8.text? line = some text)
    (hblank : ¬ Blank line) :
    drainHeaders (left + 1) reader = drainHeaders left reader' := by
  have hlength : (line.length == 0) = false := by simpa using hne
  have hother : (text == "\r\n" || text == "\n") = false := by
    rw [Bool.eq_false_iff]
    exact mt (blank_iff htext).mp hblank
  rw [drainHeaders, hread]
  simp only [bind, Except.bind, hlength, Bool.or_assoc, hother, Bool.or_false, Bool.false_eq_true,
    if_false]

/-- The turn that ends the loop. -/
theorem drainHeaders_end {left bytes : Nat} {reader reader' : Reader UInt8 String} {text : String}
    (hread : readLine "http connect read headers" reader = .ok (bytes, text, reader'))
    (hend : (bytes == 0 || text == "\r\n" || text == "\n") = true) :
    drainHeaders (left + 1) reader = .ok reader' := by
  rw [drainHeaders, hread]
  simp only [bind, Except.bind, hend, if_true]

/-- A terminated line is not empty. -/
theorem Terminated.ne_nil {line : Bytes} (h : Terminated line) : line ≠ [] := by
  obtain ⟨text, -, rfl⟩ := h
  simp

/-- A blank line is terminated. -/
theorem Blank.terminated {line : Bytes} (h : Blank line) : Terminated line := by
  rcases h with rfl | rfl
  · exact ⟨[13], by decide, rfl⟩
  · exact ⟨[], by decide, rfl⟩

/-- A blank line is a text. -/
theorem Blank.valid {line : Bytes} (h : Blank line) : ∃ text, Utf8.text? line = some text := by
  rcases h with rfl | rfl
  · exact ⟨"\r\n", by decide⟩
  · exact ⟨"\n", by decide⟩

/-- The loop passes over header lines, as long as it may read on. -/
theorem drainHeaders_headers (left : Nat) {headers : List Bytes} {rest : Bytes}
    {reader : Reader UInt8 String} (hheaders : ∀ line ∈ headers, Terminated line ∧ HeaderLine line)
    (hcontent : reader.content = headers.flatten ++ rest) :
    ∃ reader', drainHeaders (headers.length + left) reader = drainHeaders left reader' ∧
      reader'.content = rest := by
  induction headers generalizing reader with
  | nil => exact ⟨reader, by rw [List.length_nil, Nat.zero_add], hcontent⟩
  | cons line headers ih =>
      obtain ⟨⟨hline, hheader⟩, hlater⟩ := List.forall_mem_cons.mp hheaders
      obtain ⟨text, htext⟩ := hheader.valid
      rw [List.flatten_cons, List.append_assoc] at hcontent
      obtain ⟨next, hread, hnext⟩ := readLine_of_append hline htext hcontent
      obtain ⟨reader', hdrain, hrest⟩ := ih hlater hnext
      refine ⟨reader', ?_, hrest⟩
      rw [List.length_cons, Nat.add_right_comm,
        drainHeaders_header hread hline.ne_nil htext hheader.not_blank, hdrain]

/-- At a blank line the loop ends, right behind it. -/
theorem drainHeaders_blank (left : Nat) {blank tail : Bytes} {reader : Reader UInt8 String}
    (hblank : Blank blank) (hcontent : reader.content = blank ++ tail) :
    ∃ tunnel, drainHeaders (left + 1) reader = .ok tunnel ∧ tunnel.content = tail := by
  obtain ⟨text, htext⟩ := hblank.valid
  obtain ⟨tunnel, hread, htail⟩ := readLine_of_append hblank.terminated htext hcontent
  refine ⟨tunnel, drainHeaders_end hread ?_, htail⟩
  rw [Bool.or_assoc, (blank_iff htext).mpr hblank, Bool.or_true]

/-! ### A whole reply -/

/-- The reply to the request for a tunnel. -/
def Network.replyTo (net : Network) (proxy : ProxyConfig) (targetHost : String)
    (targetPort : UInt16) : Reader UInt8 String :=
  net.reply (connectRequest net.base64 proxy (authority targetHost targetPort))

/-- The request reaches the proxy. -/
structure Network.Reaches (net : Network) (proxy : ProxyConfig) (targetHost : String)
    (targetPort : UInt16) : Prop where
  connected : net.connect (authority proxy.host proxy.port) = .ok ()
  wrapped : wrapLeg net proxy = .ok ()
  sent : net.send (connectRequest net.base64 proxy (authority targetHost targetPort)) = .ok ()

/-- Once the proxy is reached, its reply decides. -/
theorem Network.Reaches.connectHttp_eq {net : Network} {proxy : ProxyConfig} {targetHost : String}
    {targetPort : UInt16} (h : net.Reaches proxy targetHost targetPort) :
    connectHttp net proxy targetHost targetPort =
      readConnectReply (net.replyTo proxy targetHost targetPort) := by
  rw [connectHttp, h.connected, h.wrapped]
  simp only [timeout, bind, Except.bind, h.sent]
  rfl

/-- Behind a good status line it is up to the headers. -/
theorem readConnectReply_of_ok {reader reader' : Reader UInt8 String} {bytes : Nat} {text : String}
    (hread : readLine "http connect read status" reader = .ok (bytes, text, reader'))
    (hok : (splitWhitespace text)[1]? = some "200") :
    readConnectReply reader = drainHeaders maxConnectHeaders reader' := by
  rw [readConnectReply, hread]
  simp only [bind, Except.bind, isOkStatus_trimEnd.mpr hok, Bool.not_true, Bool.false_eq_true,
    if_false]

/-- **A whole reply.** The tunnel is given if the blank line is among the first 64 behind the
status line, and then it yields what stands behind the blank line; else there are too many
headers. -/
theorem connect_tunnels_tail (net : Network) (proxy : ProxyConfig) (targetHost : String)
    (targetPort : UInt16) (hreach : net.Reaches proxy targetHost targetPort) (status : Bytes)
    (headers : List Bytes) (blank tail : Bytes) (hstatus : Terminated status) (hok : OkLine status)
    (hheaders : ∀ line ∈ headers, Terminated line ∧ HeaderLine line) (hblank : Blank blank)
    (hreply : (net.replyTo proxy targetHost targetPort).content =
      status ++ (headers.flatten ++ (blank ++ tail))) :
    ((∃ tunnel, connectHttp net proxy targetHost targetPort = .ok tunnel) ↔
      headers.length ≤ 63) ∧
    (∀ tunnel, connectHttp net proxy targetHost targetPort = .ok tunnel → tunnel.Yields tail) ∧
    (64 ≤ headers.length →
      ∃ text, connectHttp net proxy targetHost targetPort = .error (.httpConnect text)) := by
  obtain ⟨text, htext, h200⟩ := hok
  obtain ⟨reader, hread, hrest⟩ := readLine_of_append hstatus htext hreply
  have hresult : connectHttp net proxy targetHost targetPort = drainHeaders 64 reader :=
    hreach.connectHttp_eq.trans (readConnectReply_of_ok hread h200)
  rw [hresult]
  rcases Nat.lt_or_ge headers.length 64 with hfew | hmany
  · obtain ⟨left, hleft⟩ : ∃ left, 64 = headers.length + (left + 1) :=
      ⟨63 - headers.length, by omega⟩
    obtain ⟨next, hdrain, hnext⟩ := drainHeaders_headers (left + 1) hheaders hrest
    obtain ⟨tunnel, hend, htail⟩ := drainHeaders_blank left hblank hnext
    rw [hleft, hdrain, hend]
    refine ⟨iff_of_true ⟨tunnel, rfl⟩ (by omega), ?_, fun h => absurd h (by omega)⟩
    intro tunnel' heq
    obtain rfl := Except.ok.inj heq
    exact htail ▸ tunnel.yields_content
  · have hfirst : ∀ line ∈ headers.take 64, Terminated line ∧ HeaderLine line :=
      fun line hline => hheaders line (List.mem_of_mem_take hline)
    have hcut : reader.content =
        (headers.take 64).flatten ++ ((headers.drop 64).flatten ++ (blank ++ tail)) := by
      rw [hrest, ← List.append_assoc (headers.take 64).flatten, ← List.flatten_append,
        List.take_append_drop]
    obtain ⟨next, hdrain, -⟩ := drainHeaders_headers 0 hfirst hcut
    rw [List.length_take_of_le hmany, Nat.add_zero] at hdrain
    rw [hdrain, drainHeaders]
    refine ⟨iff_of_false ?_ (by omega), ?_, fun _ => ⟨_, rfl⟩⟩
    · rintro ⟨tunnel, heq⟩
      cases heq
    · intro tunnel heq
      cases heq

namespace Sample

/-- A network in which all goes well, with the given reply. -/
def calmNetwork (reply : Reader UInt8 String) : Network where
  connect _ := .ok ()
  serverName _ := .ok ()
  handshake _ := .ok ()
  send _ := .ok ()
  reply _ := reply
  base64 s := s

/-- A proxy without TLS and without credentials. -/
def plainProxy : ProxyConfig := { kind := .httpConnect, host := "127.0.0.1", port := 8080 }

/-- The network of the examples reaches the proxy. -/
theorem calmNetwork_reaches (reply : Reader UInt8 String) :
    (calmNetwork reply).Reaches plainProxy "cm.steampowered.com" 27017 := ⟨rfl, rfl, rfl⟩

/-- A reply with a header, cut inside the status line and inside the blank line. -/
def cutReply : Reader UInt8 String where
  buffer := []
  chunks :=
    [⟨Utf8.encode "HTTP/1.1 20", by decide⟩, ⟨Utf8.encode "0 OK\r\nVia: a\n\r", by decide⟩,
      ⟨Utf8.encode "\nTUNNELLED", by decide⟩]
  ending := some .silent

end Sample

/-- The bytes behind a reply that comes in pieces go to the tunnel. -/
theorem connect_tunnels_tail_cut :
    ∃ tunnel, connectHttp (Sample.calmNetwork Sample.cutReply) Sample.plainProxy
        "cm.steampowered.com" 27017 = .ok tunnel ∧
       tunnel.Yields (Utf8.encode "TUNNELLED") := by
  have hstatus : Terminated (Utf8.encode "HTTP/1.1 200 OK\r\n") :=
    ⟨Utf8.encode "HTTP/1.1 200 OK\r", by decide, by decide⟩
  have hok : OkLine (Utf8.encode "HTTP/1.1 200 OK\r\n") := ⟨_, Utf8.text?_encode _, by decide⟩
  have hheader : Terminated (Utf8.encode "Via: a\n") ∧ HeaderLine (Utf8.encode "Via: a\n") :=
    ⟨⟨Utf8.encode "Via: a", by decide, by decide⟩, ⟨_, Utf8.text?_encode _⟩, by decide⟩
  obtain ⟨htunnel, hyields, -⟩ := connect_tunnels_tail (Sample.calmNetwork Sample.cutReply)
    Sample.plainProxy "cm.steampowered.com" 27017 (Sample.calmNetwork_reaches Sample.cutReply)
    (Utf8.encode "HTTP/1.1 200 OK\r\n") [Utf8.encode "Via: a\n"] [13, 10]
    (Utf8.encode "TUNNELLED") hstatus hok (List.forall_mem_singleton.mpr hheader) (.inl rfl)
    (by decide)
  obtain ⟨tunnel, hconnect⟩ := htunnel.mpr (by decide)
  exact ⟨tunnel, hconnect, hyields tunnel hconnect⟩

/-! ### A reply that ends early -/

/-- A status line that is good, and a blank line among the next 64. -/
def CompleteHead (content : Bytes) : Prop :=
  ∃ status lines, Buffered.pieces 10 content = status :: lines ∧ OkLine status ∧
    ∃ line ∈ lines.take 64, Blank line

/-- A status line that is good, fewer than 64 header lines, and nothing behind them. The last of
these lines may lack its end. -/
def EndsEarly (content : Bytes) : Prop :=
  ∃ status lines, Buffered.pieces 10 content = status :: lines ∧ OkLine status ∧
    lines.length < 64 ∧ ∀ line ∈ lines, HeaderLine line

/-- From a closed reply the lines are read one after the other, and then nothing. -/
theorem readLine_of_closed (what : String) {reader : Reader UInt8 String}
    (h : reader.ending = none) :
    ∃ reader' : Reader UInt8 String, reader'.ending = none ∧
      (Buffered.pieces 10 reader.content = [] ∧ readLine what reader = .ok (0, "", reader') ∨
        ∃ line, line ≠ [] ∧
          Buffered.pieces 10 reader.content = line :: Buffered.pieces 10 reader'.content ∧
          readLine what reader =
            match Utf8.text? line with
            | some text => .ok (line.length, text, reader')
            | none => .error (.io "stream did not contain valid UTF-8")) := by
  obtain ⟨line, reader', hread, hclosed, hline⟩ := Reader.readUntil_of_closed 10 h
  have hreadLine := readLine_of_read what hread
  refine ⟨reader', hclosed, ?_⟩
  rcases hline with ⟨hnil, rfl⟩ | ⟨hne, hpieces⟩
  · exact .inl ⟨by rw [hnil]; rfl, hreadLine⟩
  · exact .inr ⟨line, hne, hpieces, hreadLine⟩

/-- The loop comes through at a blank line, or at the end of the reply. -/
theorem lines_of_drainHeaders {left : Nat} {reader tunnel : Reader UInt8 String}
    (hclosed : reader.ending = none) (h : drainHeaders left reader = .ok tunnel) :
    (∃ line ∈ (Buffered.pieces 10 reader.content).take left, Blank line) ∨
      (Buffered.pieces 10 reader.content).length < left ∧
        ∀ line ∈ Buffered.pieces 10 reader.content, HeaderLine line := by
  induction left generalizing reader with
  | zero => cases h
  | succ left ih =>
      obtain ⟨reader', hclosed', ⟨hnil, -⟩ | ⟨line, hne, hpieces, hread⟩⟩ :=
        readLine_of_closed "http connect read headers" hclosed
      · exact .inr (by simp [hnil])
      rcases htext : Utf8.text? line with _ | text
      · rw [htext] at hread
        rw [drainHeaders, hread] at h
        cases h
      rw [htext] at hread
      rw [hpieces]
      by_cases hblank : Blank line
      · exact .inl ⟨line, by simp, hblank⟩
      · rw [drainHeaders_header hread hne htext hblank] at h
        rcases ih hclosed' h with ⟨found, hfound, hb⟩ | ⟨hlen, hheaders⟩
        · exact .inl ⟨found, by simp [hfound], hb⟩
        · refine .inr ⟨by simpa using hlen, List.forall_mem_cons.mpr ⟨⟨⟨text, htext⟩, hblank⟩, ?_⟩⟩
          exact hheaders

/-- The end of the reply passes for the blank line. -/
theorem drainHeaders_of_lines {left : Nat} {reader : Reader UInt8 String}
    (hclosed : reader.ending = none) (hlen : (Buffered.pieces 10 reader.content).length < left)
    (hheaders : ∀ line ∈ Buffered.pieces 10 reader.content, HeaderLine line) :
    ∃ tunnel, drainHeaders left reader = .ok tunnel := by
  induction left generalizing reader with
  | zero => exact absurd hlen (Nat.not_lt_zero _)
  | succ left ih =>
      obtain ⟨reader', hclosed', ⟨-, hread⟩ | ⟨line, hne, hpieces, hread⟩⟩ :=
        readLine_of_closed "http connect read headers" hclosed
      · exact ⟨reader', drainHeaders_end hread rfl⟩
      · rw [hpieces] at hlen hheaders
        obtain ⟨hheader, hlater⟩ := List.forall_mem_cons.mp hheaders
        obtain ⟨text, htext⟩ := hheader.valid
        rw [htext] at hread
        rw [drainHeaders_header hread hne htext hheader.not_blank]
        exact ih hclosed' (by simpa using hlen) hlater

/-- What the first line of a closed reply has to be. -/
theorem readConnectReply_of_closed {reader : Reader UInt8 String} (hclosed : reader.ending = none) :
    (∃ status lines reader', Buffered.pieces 10 reader.content = status :: lines ∧
        OkLine status ∧ Buffered.pieces 10 reader'.content = lines ∧ reader'.ending = none ∧
        readConnectReply reader = drainHeaders 64 reader') ∨
      (∀ status lines, Buffered.pieces 10 reader.content = status :: lines → ¬ OkLine status) ∧
        ∃ e, readConnectReply reader = .error e := by
  obtain ⟨reader', hclosed', ⟨hnil, hread⟩ | ⟨status, -, hpieces, hread⟩⟩ :=
    readLine_of_closed "http connect read status" hclosed
  · refine .inr ⟨fun status lines h => ?_, ?_⟩
    · rw [hnil] at h
      cases h
    · rw [readConnectReply, hread]
      exact ⟨_, rfl⟩
  have hfirst : ¬ OkLine status →
      ∀ status' lines, Buffered.pieces 10 reader.content = status' :: lines → ¬ OkLine status' := by
    intro hbad status' lines h
    rwa [← (List.cons.inj (hpieces.symm.trans h)).1]
  rcases htext : Utf8.text? status with _ | text
  · refine .inr ⟨hfirst ?_, ?_⟩
    · rintro ⟨text, htext', -⟩
      cases htext.symm.trans htext'
    · rw [readConnectReply, hread, htext]
      exact ⟨_, rfl⟩
  rw [htext] at hread
  by_cases h200 : (splitWhitespace text)[1]? = some "200"
  · exact .inl ⟨status, _, reader', hpieces, ⟨text, htext, h200⟩, rfl, hclosed',
      readConnectReply_of_ok hread h200⟩
  · refine .inr ⟨hfirst ?_, ?_⟩
    · rintro ⟨text', htext', hok⟩
      obtain rfl : text = text' := Option.some.inj (htext.symm.trans htext')
      exact h200 hok
    · have hrefused : isOkStatus (trimEnd text) = false :=
        Bool.eq_false_iff.mpr (mt isOkStatus_trimEnd.mp h200)
      rw [readConnectReply, hread]
      simp only [bind, Except.bind, hrefused, Bool.not_false, if_true]
      exact ⟨_, rfl⟩

/-- **A tunnel needs a whole head.** If the proxy closes the connection, a tunnel stands for a
complete head exactly if the reply does not end between a good status line and the blank line, with
nothing wrong up to there. -/
theorem connect_needs_whole_head (net : Network) (proxy : ProxyConfig) (targetHost : String)
    (targetPort : UInt16) (hreach : net.Reaches proxy targetHost targetPort)
    (hclosed : (net.replyTo proxy targetHost targetPort).ending = none) :
    ((∃ tunnel, connectHttp net proxy targetHost targetPort = .ok tunnel) →
      CompleteHead (net.replyTo proxy targetHost targetPort).content) ↔
    ¬ EndsEarly (net.replyTo proxy targetHost targetPort).content := by
  rw [hreach.connectHttp_eq]
  generalize net.replyTo proxy targetHost targetPort = reader at hclosed ⊢
  rcases readConnectReply_of_closed hclosed with
    ⟨status, lines, reader', hpieces, hok, hlines, hclosed', hreply⟩ | ⟨hbad, e, hreply⟩
  · constructor
    · rintro hwhole ⟨status', lines', hpieces', -, hlen, hheaders⟩
      obtain ⟨rfl, rfl⟩ := List.cons.inj (hpieces.symm.trans hpieces')
      rw [← hlines] at hlen hheaders
      obtain ⟨tunnel, hdrain⟩ := drainHeaders_of_lines hclosed' hlen hheaders
      obtain ⟨_, _, hpieces'', -, line, hline, hblank⟩ := hwhole ⟨tunnel, hreply.trans hdrain⟩
      obtain ⟨-, rfl⟩ := List.cons.inj (hpieces.symm.trans hpieces'')
      rw [← hlines] at hline
      exact (hheaders line (List.mem_of_mem_take hline)).not_blank hblank
    · rintro hlate ⟨tunnel, htunnel⟩
      rcases lines_of_drainHeaders hclosed' (hreply.symm.trans htunnel) with hblank | hearly
      · rw [hlines] at hblank
        exact ⟨status, lines, hpieces, hok, hblank⟩
      · rw [hlines] at hearly
        exact absurd ⟨status, lines, hpieces, hok, hearly⟩ hlate
  · refine iff_of_true ?_ ?_
    · rintro ⟨tunnel, htunnel⟩
      cases hreply.symm.trans htunnel
    · rintro ⟨status, lines, hpieces, hok, -⟩
      exact hbad status lines hpieces hok

/-- A reply that ends inside a header line. -/
def Sample.cutOffReply : Reader UInt8 String where
  buffer := []
  chunks := [⟨Utf8.encode "HTTP/1.1 200 OK\r\nVia: a\r\nX-Pa", by decide⟩]
  ending := none

/-- A tunnel is given although the reply ends inside its head. -/
theorem tunnel_from_cut_off_head :
    connectHttp (Sample.calmNetwork Sample.cutOffReply) Sample.plainProxy
        "cm.steampowered.com" 27017 = .ok { buffer := [], chunks := [], ending := none } ∧
      ¬ CompleteHead Sample.cutOffReply.content := by
  refine ⟨by decide, ?_⟩
  rintro ⟨status, lines, hpieces, -, line, hline, hblank⟩
  have hnone : ∀ line ∈ Buffered.pieces 10 Sample.cutOffReply.content, ¬ Blank line := by decide
  rw [hpieces] at hnone
  exact hnone line (List.mem_cons_of_mem status (List.mem_of_mem_take hline)) hblank

/-- A reply that is closed behind its head. -/
def Sample.closedReply : Reader UInt8 String where
  buffer := []
  chunks := [⟨Utf8.encode "HTTP/1.1 200 OK\r\n\r\n", by decide⟩]
  ending := none

/-- A whole head is enough, even if the proxy closes behind it. -/
theorem connect_needs_whole_head_closed :
    (∃ tunnel, connectHttp (Sample.calmNetwork Sample.closedReply) Sample.plainProxy
        "cm.steampowered.com" 27017 = .ok tunnel) ∧ CompleteHead Sample.closedReply.content := by
  have htunnel : ∃ tunnel, connectHttp (Sample.calmNetwork Sample.closedReply) Sample.plainProxy
      "cm.steampowered.com" 27017 = .ok tunnel :=
    ⟨{ buffer := [], chunks := [], ending := none }, by decide⟩
  refine ⟨htunnel, (connect_needs_whole_head (Sample.calmNetwork Sample.closedReply)
    Sample.plainProxy "cm.steampowered.com" 27017 (Sample.calmNetwork_reaches Sample.closedReply)
    rfl).mpr ?_ htunnel⟩
  rintro ⟨status, lines, hpieces, -, -, hheaders⟩
  have hlines : Buffered.pieces 10 Sample.closedReply.content =
      [Utf8.encode "HTTP/1.1 200 OK\r\n", [13, 10]] := by decide
  obtain ⟨-, rfl⟩ := List.cons.inj (hlines.symm.trans hpieces)
  exact (hheaders [13, 10] (by simp)).not_blank (.inl rfl)

end Steamroids
