import Steamroids.Message
import Steamroids.Pool

/-!
# The HTTP Client

Both the password flow and the discovery of servers talk HTTPS to Steam, through one client that
`http.rs` builds, with the proxy of the session if it has one. Reqwest is a parameter: what is
modelled is what it is told.

## Main results

* `httpClient_cases`: a client goes through the proxy that it was built for, or is not built.
-/

namespace Steamroids

/-- What is used of reqwest: the error of `Proxy::all` on a URL, and that of building the client,
if there is one. -/
structure HttpCode where
  proxyAll : String → Option String
  build : Option String

/-- A proxy as it is given to reqwest. -/
structure HttpProxy where
  url : String
  basicAuth : Option ProxyCredentials
  deriving DecidableEq, Repr

/-- The budget of a whole exchange. -/
def totalTimeout : Nat := fromSecs 30

/-- Translate a proxy for reqwest. -/
def buildProxy (H : HttpCode) (cfg : ProxyConfig) : Except Error HttpProxy :=
  let scheme := match cfg.kind with
    | .socks5 => "socks5h"
    | .httpConnect => if cfg.tlsToProxy then "https" else "http"
  let url := scheme ++ "://" ++ authority cfg.host cfg.port
  match H.proxyAll url with
  | some e => .error (.invalidConfig ("proxy: " ++ e))
  | none => .ok ⟨url, cfg.credentials⟩

/-- Build an HTTP client: the proxy that it goes through, if any. -/
def httpClient (H : HttpCode) (proxy : Option ProxyConfig) : Except Error (Option HttpProxy) := do
  let proxy ← match proxy with
    | some cfg => (buildProxy H cfg).map some
    | none => .ok none
  match H.build with
  | some e => .error (.invalidConfig ("reqwest client: " ++ e))
  | none => .ok proxy

/-- The proxy as reqwest is to use it: host names are resolved by a SOCKS5 proxy, and the leg to an
HTTP proxy is in TLS if it is an https one. -/
def ProxyConfig.httpProxy (p : ProxyConfig) : HttpProxy :=
  let scheme := match p.kind with
    | .socks5 => "socks5h"
    | .httpConnect => if p.tlsToProxy then "https" else "http"
  ⟨scheme ++ "://" ++ authority p.host p.port, p.credentials⟩

/-- A client goes through the proxy, if there is one. -/
theorem httpClient_cases (H : HttpCode) (proxy : Option ProxyConfig) :
    (∃ text, httpClient H proxy = .error (.invalidConfig text)) ∨
      httpClient H proxy = .ok (proxy.map ProxyConfig.httpProxy) := by
  cases proxy with
  | none =>
      cases hbuild : H.build with
      | some e => exact .inl ⟨_, by simp only [httpClient, hbuild]; rfl⟩
      | none => exact .inr (by simp only [httpClient, hbuild]; rfl)
  | some p =>
      cases hall : H.proxyAll p.httpProxy.url <;> simp only [ProxyConfig.httpProxy] at hall
      · cases hbuild : H.build with
        | some e => exact .inl ⟨_, by simp only [httpClient, buildProxy, hall, hbuild]; rfl⟩
        | none => exact .inr (by simp only [httpClient, buildProxy, hall, hbuild]; rfl)
      · exact .inl ⟨_, by simp only [httpClient, buildProxy, hall]; rfl⟩

end Steamroids
