import Steamroids.Acts

/-!
# Whose Session It Is

The id of the logged-on account lives in three places: in the `SessionHandle`, in the driver,
which publishes it and stamps it into every frame, and in the connection. A new connection
starts with a placeholder, which `logon` replaces if the header of the response has a `steamid`
(`session/connection.rs`). The handle and the first driver copy what the first logon found, and
a reconnect copies what the next one found (`session/driver.rs`).

So a response without the field puts the placeholder in place of the account's id, although the
session has known that id from the start (`placeholder_after_reconnect`).

## Main results

* `establish_steamId`: the id that a logon ends with, from the response that it read.
* `Act.marks`, `Reachable.identity`: what is published and stamped is what the logon of the
  same connection ended with.
* `session_id_stable`: every id is the account's exactly if every response carries it.
-/

namespace Steamroids

namespace SessionDriver

variable {P : Prost} {d d' : SessionDriver}

/-! ### The id of a logon -/

/-- The `steamid` in the header of the response to a logon that has read these items. -/
def answeredId (P : Prost) (items : List WsItem) : Option UInt64 :=
  ((decodedPrefix P items).find? SteamMessage.answersLogon).bind fun msg => msg.header.steamid

/-- The id that an accepted logon ends with: the response's, or else the placeholder. -/
def grantedId (P : Prost) (items : List WsItem) : UInt64 :=
  (answeredId P items).getD logonHeaderSteamid

/-- An accepted logon takes the id of the response, or keeps its own. -/
theorem logonMessage_steamId {conn conn' : CmConnection} {logged : LoggedOn} {msg : SteamMessage}
    (h : conn.logonMessage P msg = some (.ok (conn', logged))) :
    conn'.steamId = msg.header.steamid.getD conn.steamId ∧ logged.steamId = conn'.steamId := by
  simp only [CmConnection.logonMessage] at h
  split at h
  · split at h
    · simp at h
    · split at h
      · simp at h
      · simp only [Option.some.injEq, Except.ok.injEq, Prod.mk.injEq] at h
        obtain ⟨rfl, rfl⟩ := h
        exact ⟨rfl, rfl⟩
  · split at h <;> simp at h

/-- A logon ends with the id that it was granted. -/
theorem establish_steamId {items : List WsItem} {c : CmConnection × LoggedOn}
    (h : establish P items = some c) :
    c.1.steamId = grantedId P items ∧ c.2.steamId = grantedId P items := by
  obtain ⟨conn, skipped, answer, -, hdec, hskip, hans, hresult, hc⟩ := establish_answered h
  obtain ⟨hconn, hlogged⟩ := logonMessage_steamId hresult
  have hfind : (decodedPrefix P items).find? SteamMessage.answersLogon = some answer := by
    rw [hdec, List.find?_append, List.find?_eq_none.mpr (by simpa using hskip)]
    simp [hans]
  have hgranted : grantedId P items = conn.steamId := by
    simp [grantedId, answeredId, hfind, hconn, CmConnection.connect]
  rw [hgranted, hc]
  exact ⟨rfl, hlogged⟩

/-! ### What carries an id -/

/-- An entry carries no id, or the id `id` in a frame on connection `conn`. -/
def Marked (conn : Nat) (id : UInt64) : Effect → Prop
  | .wrote k frame _ _ => k = conn ∧ frame.header.steamid = some id
  | .adopted _ _ => False
  | .published (.loggedOn _) => False
  | _ => True

/-- An act that is no reconnect writes under the id of the connection. -/
structure Keeps (d d' : SessionDriver) : Prop where
  conn : d'.conn = d.conn
  steamId : d'.steamId = d.steamId
  log : ∃ es, d'.log = d.log ++ es ∧ ∀ e ∈ es, Marked d.conn d.steamId e

/-- An act that is a reconnect publishes the id of the new connection. -/
structure Renews (P : Prost) (d d' : SessionDriver) (items : List WsItem) : Prop where
  conn : d'.conn = d.conn + 1
  steamId : d'.steamId = grantedId P items
  log : d'.log = d.log ++
    [.adopted d'.conn items, .cleared, .published (.loggedOn d'.steamId)]

/-- Every act keeps the id of the connection, or is a reconnect. -/
theorem Act.marks (h : Act P d d') : Keeps d d' ∨ ∃ items, Renews P d d' items := by
  cases h with
  | live now hstate hpending hin hc =>
      obtain ⟨hconn, -⟩ := establish_steamId hc
      exact .inr ⟨_, rfl, hconn, rfl⟩
  | abandon ch => exact .inl ⟨rfl, rfl, [], (List.append_nil _).symm, by simp⟩
  | turn l' hph => exact .inl ⟨rfl, rfl, [], (List.append_nil _).symm, by simp⟩
  | exit ph hph => exact .inl ⟨rfl, rfl, [], (List.append_nil _).symm, by simp⟩
  | announce hin hw =>
      refine .inl ⟨rfl, rfl, _, rfl, ?_⟩
      intro e he
      rcases mem_announce he with rfl | rfl <;> trivial
  | sweep now =>
      refine .inl ⟨rfl, rfl, _, rfl, ?_⟩
      intro e he
      obtain ⟨entry, ⟨rfl, -⟩ | rfl⟩ := mem_swept he <;> trivial
  | failAll reason hreason =>
      refine .inl ⟨rfl, rfl, _, rfl, ?_⟩
      intro e he
      obtain ⟨entry, -, rfl⟩ := List.mem_map.mp he
      trivial
  | _ => exact .inl ⟨rfl, rfl, _, rfl, by simp [Marked, frame]⟩

/-- Every id in the ledger is the one that the logon of a connection ended with, and every
connection has published its own. -/
structure Identity (P : Prost) (d : SessionDriver) : Prop where
  current : ∃ items, Effect.adopted d.conn items ∈ d.log ∧ d.steamId = grantedId P items
  wrote : ∀ {conn frame origin sent}, Effect.wrote conn frame origin sent ∈ d.log →
    ∃ items, Effect.adopted conn items ∈ d.log ∧ frame.header.steamid = some (grantedId P items)
  published : ∀ {id}, Effect.published (.loggedOn id) ∈ d.log →
    ∃ conn items, Effect.adopted conn items ∈ d.log ∧ id = grantedId P items
  adopted : ∀ {conn items}, Effect.adopted conn items ∈ d.log →
    Effect.published (.loggedOn (grantedId P items)) ∈ d.log

/-- An act that keeps the id keeps the ledger in order. -/
theorem Identity.keep (h : Identity P d) (hk : Keeps d d') : Identity P d' := by
  obtain ⟨es, hlog, hes⟩ := hk.log
  have hold : ∀ e ∈ d.log, e ∈ d'.log := fun e he => hlog ▸ List.mem_append_left es he
  have hnew : ∀ e ∈ d'.log, e ∈ d.log ∨ Marked d.conn d.steamId e := by
    intro e he
    rcases List.mem_append.mp (hlog ▸ he) with he | he
    · exact .inl he
    · exact .inr (hes e he)
  obtain ⟨items, hitems, hid⟩ := h.current
  refine ⟨?_, ?_, ?_, ?_⟩
  · exact ⟨items, hk.conn ▸ hold _ hitems, hk.steamId.trans hid⟩
  · intro conn frame origin sent hmem
    rcases hnew _ hmem with hmem | ⟨rfl, hframe⟩
    · obtain ⟨items', hitems', hframe⟩ := h.wrote hmem
      exact ⟨items', hold _ hitems', hframe⟩
    · exact ⟨items, hold _ hitems, hid ▸ hframe⟩
  · intro id hmem
    rcases hnew _ hmem with hmem | hfalse
    · obtain ⟨conn, items', hitems', hid'⟩ := h.published hmem
      exact ⟨conn, items', hold _ hitems', hid'⟩
    · exact hfalse.elim
  · intro conn items' hmem
    rcases hnew _ hmem with hmem | hfalse
    · exact hold _ (h.adopted hmem)
    · exact hfalse.elim

/-- So does a reconnect, with the id of the new connection. -/
theorem Identity.renew {items : List WsItem} (h : Identity P d) (hr : Renews P d d' items) :
    Identity P d' := by
  have hlog := hr.log
  refine ⟨⟨items, by simp [hlog], hr.steamId⟩, ?_, ?_, ?_⟩
  · intro conn frame origin sent hmem
    obtain ⟨items', hitems', hframe⟩ := h.wrote (by simpa [hlog] using hmem)
    exact ⟨items', by simp [hlog, hitems'], hframe⟩
  · intro id hmem
    have hcases : Effect.published (.loggedOn id) ∈ d.log ∨ id = d'.steamId := by
      simpa [hlog] using hmem
    rcases hcases with hmem | rfl
    · obtain ⟨conn, items', hitems', hid⟩ := h.published hmem
      exact ⟨conn, items', by simp [hlog, hitems'], hid⟩
    · exact ⟨d'.conn, items, by simp [hlog], hr.steamId⟩
  · intro conn items' hmem
    have hcases : Effect.adopted conn items' ∈ d.log ∨ conn = d'.conn ∧ items' = items := by
      simpa [hlog] using hmem
    rcases hcases with hmem | ⟨-, rfl⟩
    · simp [hlog, h.adopted hmem]
    · simp [hlog, hr.steamId]

/-- **Ids over whole runs.** -/
theorem Reachable.identity (h : Reachable P d) : Identity P d := by
  refine h.invariant ?_ ?_
  · intro now items d₀ hspawn
    obtain ⟨c, hc, rfl⟩ := Option.map_eq_some_iff.mp hspawn
    obtain ⟨-, hid⟩ := establish_steamId hc
    refine ⟨⟨items, by simp [enterConnected], hid⟩, by simp [enterConnected], ?_, ?_⟩
    · intro id hmem
      obtain rfl : id = c.2.steamId := by simpa [enterConnected] using hmem
      exact ⟨0, items, by simp [enterConnected], hid⟩
    · intro conn items' hmem
      obtain ⟨-, rfl⟩ : conn = 0 ∧ items' = items := by simpa [enterConnected] using hmem
      simp [enterConnected, hid]
  · intro u u' hact hu
    rcases hact.marks with hk | ⟨items, hr⟩
    · exact hu.keep hk
    · exact hu.renew hr

end SessionDriver

/-! ### The three copies -/

/-- The id that a `SessionHandle` carries. -/
structure SessionHandle where
  steamId : UInt64
  deriving DecidableEq, Repr

/-- The handle and the driver that `spawn_session` starts. -/
def spawnSession (P : Prost) (now : Nat) (items : List WsItem) :
    Option (SessionHandle × SessionDriver) :=
  match SessionDriver.establish P items, SessionDriver.spawn P now items with
  | some (_, logged), some d => some (⟨logged.steamId⟩, d)
  | _, _ => none

/-- A handle carries the id of the first logon. -/
theorem spawnSession_eq_some {P : Prost} {now : Nat} {items : List WsItem}
    {handle : SessionHandle} {d : SessionDriver}
    (h : spawnSession P now items = some (handle, d)) :
    handle.steamId = SessionDriver.grantedId P items ∧
      SessionDriver.spawn P now items = some d := by
  simp only [spawnSession] at h
  split at h
  · rename_i conn logged d₀ hest hspawn
    simp only [Option.some.injEq, Prod.mk.injEq] at h
    obtain ⟨rfl, rfl⟩ := h
    exact ⟨(SessionDriver.establish_steamId hest).2, hspawn⟩
  · cases h

/-- **The account's id.** Let the first logon response of a session carry the id `A`, and every
later one `A` or nothing. Then the handle, everything that is published and every frame carry
`A` exactly if every response does, or `A` is the placeholder itself. -/
theorem session_id_stable {P : Prost} {now : Nat} {items : List WsItem} {handle : SessionHandle}
    {d₀ d : SessionDriver} {is : List Input} {A : UInt64}
    (hspawn : spawnSession P now items = some (handle, d₀))
    (hrun : Ledger.exec (SessionDriver.step P) d₀ is = some d)
    (hfirst : SessionDriver.answeredId P items = some A)
    (hlater : ∀ conn later, Effect.adopted conn later ∈ d.log →
      SessionDriver.answeredId P later = some A ∨ SessionDriver.answeredId P later = none) :
    (handle.steamId = A ∧
      (∀ id, Effect.published (.loggedOn id) ∈ d.log → id = A) ∧
      ∀ conn frame origin sent, Effect.wrote conn frame origin sent ∈ d.log →
        frame.header.steamid = some A) ↔
    ∀ conn later, Effect.adopted conn later ∈ d.log →
      SessionDriver.answeredId P later = some A ∨ A = logonHeaderSteamid := by
  obtain ⟨hhandle, hspawn'⟩ := spawnSession_eq_some hspawn
  have hid := (SessionDriver.Reachable.of_spawn hspawn').run hrun |>.identity
  constructor
  · rintro ⟨-, hpublished, -⟩ conn later hmem
    rcases hlater conn later hmem with hcarries | homits
    · exact .inl hcarries
    · have hgranted := hpublished _ (hid.adopted hmem)
      rw [SessionDriver.grantedId, homits] at hgranted
      exact .inr hgranted.symm
  · intro hcarry
    have hgranted : ∀ conn later, Effect.adopted conn later ∈ d.log →
        SessionDriver.grantedId P later = A := by
      intro conn later hmem
      rcases hlater conn later hmem with hcarries | homits
      · rw [SessionDriver.grantedId, hcarries, Option.getD_some]
      · rcases hcarry conn later hmem with hcarries | hplaceholder
        · rw [SessionDriver.grantedId, hcarries, Option.getD_some]
        · rw [SessionDriver.grantedId, homits, Option.getD_none, hplaceholder]
    refine ⟨?_, ?_, ?_⟩
    · rw [hhandle, SessionDriver.grantedId, hfirst, Option.getD_some]
    · intro id hmem
      obtain ⟨conn, later, hadopted, rfl⟩ := hid.published hmem
      exact hgranted conn later hadopted
    · intro conn frame origin sent hmem
      obtain ⟨later, hadopted, hframe⟩ := hid.wrote hmem
      rw [hframe, hgranted conn later hadopted]

/-- The items that the logon of an adopted connection has read. -/
def Effect.logonItems? : Effect → Option (List WsItem)
  | .adopted _ items => some items
  | _ => none

/-- The items of an adopted connection are among the logons. -/
theorem mem_logonItems {log : List Effect} {conn : Nat} {items : List WsItem}
    (h : Effect.adopted conn items ∈ log) : items ∈ log.filterMap Effect.logonItems? :=
  List.mem_filterMap.mpr ⟨_, h, rfl⟩

namespace Sample

/-- An individual account of the public universe. -/
def account : UInt64 := 0x0110000100000007

/-- Like `prost`, with headers that are empty or hold the `steamid` of an individual account
below 256. -/
def idProst : Prost :=
  { prost with
    header
      | [] => .ok {}
      | [0x09, n, 0, 0, 0, 1, 0, 0x10, 1] =>
          .ok { steamid := some (logonHeaderSteamid + n.toUInt64) }
      | _ => .error "unexpected bytes" }

/-- An accepted logon whose header has the account's id. -/
def identified : List WsItem :=
  [item (encodeRaw emsgClientLogonResponse [0x09, 7, 0, 0, 0, 1, 0, 0x10, 1] [0x08, 0x01])]

/-- An accepted logon whose header is empty. -/
def anonymous : List WsItem := [item logonFrame]

/-- The write of a notification fails, the session reconnects with a logon that reads `items`,
and a second notification is written. -/
def reconnecting (items : List WsItem) : List Input :=
  [.command (some (.notify 1 [] 3)) (some "broken pipe"), .wake, .attempt 1 (.ok items),
    .command (some (.notify 1 [] 4)) none]

/-- The session of the account. -/
def owned : SessionHandle × SessionDriver :=
  (spawnSession idProst 0 identified).get (by decide)

/-- The session after a reconnect whose logon read `identified` again. -/
def identifiedAgain : SessionDriver :=
  (Ledger.exec (SessionDriver.step idProst) owned.2 (reconnecting identified)).get (by decide)

/-- The session after a reconnect whose logon read `anonymous`. -/
def madeAnonymous : SessionDriver :=
  (Ledger.exec (SessionDriver.step idProst) owned.2 (reconnecting anonymous)).get (by decide)

end Sample

/-- A session that reconnects, and is told the account's id again. -/
theorem session_id_stable_identified :
    Effect.adopted 1 Sample.identified ∈ Sample.identifiedAgain.log ∧
      Sample.owned.1.steamId = Sample.account ∧
      (∀ id, Effect.published (.loggedOn id) ∈ Sample.identifiedAgain.log → id = Sample.account) ∧
      ∀ conn frame origin sent,
        Effect.wrote conn frame origin sent ∈ Sample.identifiedAgain.log →
          frame.header.steamid = some Sample.account := by
  have hspawn : spawnSession Sample.idProst 0 Sample.identified = some Sample.owned :=
    (Option.some_get _).symm
  have hcarry : ∀ conn later, Effect.adopted conn later ∈ Sample.identifiedAgain.log →
      SessionDriver.answeredId Sample.idProst later = some Sample.account := by
    intro conn later hmem
    have hitems : Sample.identifiedAgain.log.filterMap Effect.logonItems? =
        [Sample.identified, Sample.identified] := by decide
    have hlater := mem_logonItems hmem
    rw [hitems] at hlater
    obtain rfl : later = Sample.identified := by simpa using hlater
    decide
  refine ⟨by decide, ?_⟩
  exact (session_id_stable hspawn (Option.some_get _).symm (by decide)
    fun conn later hmem => .inl (hcarry conn later hmem)).mpr
      fun conn later hmem => .inl (hcarry conn later hmem)

/-- A logon response without the id makes the session publish the placeholder, and write its
frames under it, while the handle still has the account's id. -/
theorem placeholder_after_reconnect :
    SessionDriver.answeredId Sample.idProst Sample.identified = some Sample.account ∧
      Sample.madeAnonymous.log.filterMap Effect.logonItems? =
        [Sample.identified, Sample.anonymous] ∧
      SessionDriver.answeredId Sample.idProst Sample.anonymous = none ∧
      Sample.owned.1.steamId = Sample.account ∧
      Effect.published (.loggedOn logonHeaderSteamid) ∈ Sample.madeAnonymous.log ∧
      Effect.wrote 1 (Sample.madeAnonymous.frame 1 none []) none true ∈ Sample.madeAnonymous.log ∧
      (Sample.madeAnonymous.frame 1 none []).header.steamid = some logonHeaderSteamid ∧
      logonHeaderSteamid ≠ Sample.account := by
  decide

end Steamroids
