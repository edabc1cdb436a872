import LibRustdesk.Framework.Base64
import LibRustdesk.Framework.PercentEncoding
import LibRustdesk.Net.CheckWs

/-!
# Proxies

The proxy for outgoing connections is configured as a URL (`proxy.rs` of `libs/hbb_common`). Of an
HTTP or HTTPS proxy the host and the port are kept as the text they have in the URL, and
`get_domain`, `resolve_host` and `get_host_and_port` take it apart again, each at a colon. A SOCKS5
proxy is resolved at once, and only its address is kept.

The URL is parsed by another library (`UrlCrate`), which leaves out the default port of HTTP and
HTTPS, keeps the user and the password encoded, and has no password where it is empty
(`UrlCrate.Reads`).

* `ProxyScheme.parse`, `resolveHost`, `makeRequest` — the functions.
* `ProxyConfig` — a proxy as it is meant, and the URL for it.
* `Right` — host, port and credentials are those of the configuration, and the request names the
  target. `Sound` says when.
* `right_iff_sound` — **exactly when a proxy and a target are used as they are meant**.

No IPv6 address is right, neither that of an HTTP proxy nor that of a target, a SOCKS5 proxy loses
its name, and credentials are used as they are encoded.
-/

namespace LibRustdesk.Proxy

open PercentEncoding (utf8 PlainClass Plain)

/-! ### The libraries around it -/

/-- `(host, port).to_socket_addrs()`. -/
def Resolver := List Char → UInt16 → Option (List SocketAddr)

structure UrlCrate where
  Url : Type
  /-- `Url::parse`. -/
  parse : List Char → Option Url
  asStr : Url → List Char
  hasHost : Url → Bool
  scheme : Url → List Char
  username : Url → List Char
  password : Url → Option (List Char)
  /-- `url[Position::BeforeHost..Position::AfterPort]`. -/
  hostAndPort : Url → List Char
  /-- With the port for a URL that has none, nor has its scheme. -/
  socketAddrs : Url → Option UInt16 → Option (List SocketAddr)

inductive ProxyError
  | io
  | urlBadScheme (url : List Char)
  | urlParseScheme
  | addressResolutionFailed (host : List Char)

/-! ### Credentials -/

structure Auth where
  userName : List Char
  password : List Char

namespace Auth

def getBasicAuthorization (auth : Auth) : List Char :=
  Base64.encode (utf8 (auth.userName ++ ':' :: auth.password))

def getProxyAuthorization (auth : Auth) : List Char :=
  "Proxy-Authorization: Basic ".toList ++ auth.getBasicAuthorization ++ "\r\n".toList

end Auth

/-! ### The proxy -/

inductive ProxyScheme
  | http (auth : Option Auth) (host : List Char)
  | https (auth : Option Auth) (host : List Char)
  | socks5 (addr : SocketAddr) (auth : Option Auth) (remoteDns : Bool)

def splitOnce (sep : Char) : List Char → Option (List Char × List Char)
  | [] => none
  | c :: s =>
    if c = sep then some ([], s)
    else (splitOnce sep s).map fun (before, after) => (c :: before, after)

def withoutPlus : List Char → List Char
  | '+' :: digits => digits
  | digits => digits

/-- `parse::<u16>`. -/
def parseU16 (s : List Char) : Option UInt16 :=
  if withoutPlus s = [] then none
  else (Client.parseDigits 0 (withoutPlus s)).bind fun n =>
    if n < 2 ^ 16 then some (UInt16.ofNat n) else none

/-- The first address, or else `e`. -/
def nextAddr (e : ProxyError) : Option (List SocketAddr) → Except ProxyError SocketAddr
  | none => .error .io
  | some [] => .error e
  | some (addr :: _) => .ok addr

namespace ProxyScheme

def maybeAuth : ProxyScheme → Option Auth
  | http auth _ | https auth _ | socks5 _ auth _ => auth

def setBasicAuth (userName password : List Char) : ProxyScheme → ProxyScheme
  | http _ host => http (some ⟨userName, password⟩) host
  | https _ host => https (some ⟨userName, password⟩) host
  | socks5 addr _ remoteDns => socks5 addr (some ⟨userName, password⟩) remoteDns

section Parse

variable (u : UrlCrate)

def toAddr (url : u.Url) : Except ProxyError SocketAddr :=
  nextAddr .urlParseScheme
    (u.socketAddrs url (if u.scheme url = "socks5".toList then some 1080 else none))

def ofScheme (url : u.Url) : Except ProxyError ProxyScheme :=
  if u.scheme url = "http".toList then .ok (http none (u.hostAndPort url))
  else if u.scheme url = "https".toList then .ok (https none (u.hostAndPort url))
  else if u.scheme url = "socks5".toList then
    (toAddr u url).map fun addr => socks5 addr none false
  else .error (.urlBadScheme (u.scheme url))

def withAuth (url : u.Url) (scheme : ProxyScheme) : ProxyScheme :=
  match u.password url with
  | some pwd => scheme.setBasicAuth (u.username url) pwd
  | none => scheme

def parse (url : u.Url) : Except ProxyError ProxyScheme := (ofScheme u url).map (withAuth u url)

end Parse

def resolveHost (resolve : Resolver) (host : List Char) (defaultPort : UInt16) :
    Except ProxyError SocketAddr :=
  let (hostStr, port) := match splitOnce ':' host with
    | some (h, p) => (h, parseU16 p)
    | none => (host, none)
  nextAddr (.addressResolutionFailed host) (resolve hostStr (port.getD defaultPort))

def socketAddrs (resolve : Resolver) : ProxyScheme → Except ProxyError SocketAddr
  | http _ host => resolveHost resolve host 80
  | https _ host => resolveHost resolve host 443
  | socks5 addr _ _ => .ok addr

def domainOf (host : List Char) : Except ProxyError (List Char) :=
  match (host.splitOn ':').head? with
  | none => .error (.addressResolutionFailed host)
  | some domain => .ok domain

def getDomain : ProxyScheme → Except ProxyError (List Char)
  | http _ host | https _ host => domainOf host
  | socks5 addr _ _ => .ok addr.ip.display

def appendDefaultPort (host : List Char) (defaultPort : UInt16) : List Char :=
  if ':' ∈ host then host else host ++ ':' :: displayNat defaultPort.toNat

def getHostAndPort : ProxyScheme → List Char
  | http _ host => appendDefaultPort host 80
  | https _ host => appendDefaultPort host 443
  | socks5 addr _ _ => addr.display

end ProxyScheme

/-- `into_url` of a text. -/
def intoUrl (u : UrlCrate) (s : List Char) : Except ProxyError u.Url :=
  match u.parse s with
  | none => .error .urlParseScheme
  | some url => if u.hasHost url then .ok url else .error (.urlBadScheme (u.asStr url))

/-- A text that is no URL is tried once more, as a SOCKS5 proxy. -/
def intoProxyScheme (u : UrlCrate) (s : List Char) : Except ProxyError ProxyScheme :=
  match intoUrl u s with
  | .ok url => ProxyScheme.parse u url
  | .error .urlParseScheme => (intoUrl u ("socks5://".toList ++ s)).bind (ProxyScheme.parse u)
  | .error e => .error e

/-! ### The request -/

inductive TargetAddr
  | ip (addr : SocketAddr)
  | domain (name : List Char) (port : UInt16)

def getDomainAndPort : TargetAddr → List Char × UInt16
  | .ip addr => (addr.ip.display, addr.port)
  | .domain name port => (name, port)

def withPort (host : List Char) (port : UInt16) : List Char := host ++ ':' :: displayNat port.toNat

def makeRequest (proxy : ProxyScheme) (host : List Char) (port : UInt16) : List Char :=
  "CONNECT ".toList ++ withPort host port ++ " HTTP/1.1\r\nHost: ".toList ++ withPort host port ++
    "\r\n".toList ++ (proxy.maybeAuth.map Auth.getProxyAuthorization).getD [] ++ "\r\n".toList

/-- The request of `http_connect`. -/
def connectRequest (proxy : ProxyScheme) (target : TargetAddr) : List Char :=
  makeRequest proxy (getDomainAndPort target).1 (getDomainAndPort target).2

/-! ### What is meant -/

inductive Scheme
  | http
  | https
  | socks5
  deriving DecidableEq

namespace Scheme

def text : Scheme → List Char
  | http => "http".toList
  | https => "https".toList
  | socks5 => "socks5".toList

def defaultPort : Scheme → UInt16
  | http => 80
  | https => 443
  | socks5 => 1080

def knownPort : Scheme → Option UInt16
  | http => some 80
  | https => some 443
  | socks5 => none

end Scheme

inductive Host
  | domain (name : List Char) (h : CheckWs.Domain name)
  | ipv4 (ip : Ipv4Addr)
  | ipv6 (ip : Ipv6Addr)

namespace Host

def name : Host → List Char
  | domain name _ => name
  | ipv4 ip => ip.display
  | ipv6 ip => ip.display

def text : Host → List Char
  | domain name _ => name
  | ipv4 ip => ip.display
  | ipv6 ip => '[' :: ip.display ++ [']']

end Host

structure Credentials where
  user : List Char
  password : List Char

def isUserinfo (c : Char) : Bool := c.isAlphanum || "!$&'()*+,-._~".toList.contains c

theorem ascii_of_isUserinfo {c : Char} (h : isUserinfo c = true) : c.toNat < 128 := by
  rcases Bool.or_eq_true_iff.mp h with halphanum | hmem
  · have hle (a : Char) (ha : a.toNat < 128) (hca : c ≤ a) : c.toNat < 128 :=
      Nat.lt_of_le_of_lt hca ha
    unfold Char.isAlphanum Char.isAlpha Char.isUpper Char.isLower Char.isDigit at halphanum
    simp only [Bool.or_eq_true, Bool.and_eq_true, decide_eq_true_eq] at halphanum
    rcases halphanum with (h | h) | h
    · exact hle 'Z' (by decide) h.2
    · exact hle 'z' (by decide) h.2
    · exact hle '9' (by decide) h.2
  · have hall : "!$&'()*+,-._~".toList.all (fun c => decide (c.toNat < 128)) = true := by decide
    exact of_decide_eq_true (List.all_eq_true.mp hall c (List.contains_iff_mem.mp hmem))

/-- The letters that need no encoding in a user or a password. -/
def userinfo : PlainClass where
  isPlain := isUserinfo
  ascii _ h := ascii_of_isUserinfo h

structure ProxyConfig where
  scheme : Scheme
  host : Host
  port : Option UInt16
  auth : Option Credentials

namespace Credentials

def text (c : Credentials) : List Char :=
  PercentEncoding.encode userinfo c.user ++ ':' :: PercentEncoding.encode userinfo c.password ++
    ['@']

def header (c : Credentials) : List Char :=
  "Proxy-Authorization: Basic ".toList ++ Base64.encode (utf8 (c.user ++ ':' :: c.password)) ++
    "\r\n".toList

end Credentials

def portText : Option UInt16 → List Char
  | none => []
  | some port => ':' :: displayNat port.toNat

namespace ProxyConfig

variable (p : ProxyConfig)

def text : List Char :=
  p.scheme.text ++ "://".toList ++ (p.auth.map Credentials.text).getD [] ++ p.host.text ++
    portText p.port

def effectivePort : UInt16 := p.port.getD p.scheme.defaultPort

/-- The port in the URL that is not the one that is known. -/
def explicitPort : Option UInt16 := if p.port = p.scheme.knownPort then none else p.port

def address (resolve : Resolver) : Option SocketAddr :=
  match p.host with
  | .domain name _ => (resolve name p.effectivePort).bind List.head?
  | .ipv4 ip => some (.new (.v4 ip) p.effectivePort)
  | .ipv6 ip => some (.new (.v6 ip) p.effectivePort)

end ProxyConfig

def Resolver.ReadsIpv4 (resolve : Resolver) : Prop :=
  ∀ (ip : Ipv4Addr) port, resolve ip.display port = some [.new (.v4 ip) port]

/-- The text of a host in a URL: an IPv6 address is in brackets, and has a colon. -/
def Host.WrittenAs (t : List Char) : Host → Prop
  | domain name _ => t = name
  | ipv4 ip => t = ip.display
  | ipv6 _ => ∃ s, ':' ∈ s ∧ t = '[' :: s ++ [']']

structure UrlCrate.Reads (u : UrlCrate) (resolve : Resolver) (p : ProxyConfig) (url : u.Url) :
    Prop where
  parse : u.parse p.text = some url
  hasHost : u.hasHost url = true
  scheme : u.scheme url = p.scheme.text
  username : u.username url =
    (p.auth.map fun c => PercentEncoding.encode userinfo c.user).getD []
  password : u.password url = p.auth.bind fun c =>
    if c.password = [] then none else some (PercentEncoding.encode userinfo c.password)
  hostAndPort : ∃ t, p.host.WrittenAs t ∧ u.hostAndPort url = t ++ portText p.explicitPort
  socketAddrs : ∀ default, u.socketAddrs url default =
    (p.port <|> p.scheme.knownPort <|> default).bind fun port =>
      match p.host with
      | .domain name _ => resolve name port
      | .ipv4 ip => some [.new (.v4 ip) port]
      | .ipv6 ip => some [.new (.v6 ip) port]

def requestLine : TargetAddr → List Char
  | .ip (.v4 ip port) => "CONNECT ".toList ++ withPort ip.display port ++ " HTTP/1.1\r\n".toList
  | .ip (.v6 ip port _ _) =>
    "CONNECT ".toList ++ withPort ('[' :: ip.display ++ [']']) port ++ " HTTP/1.1\r\n".toList
  | .domain name port => "CONNECT ".toList ++ withPort name port ++ " HTTP/1.1\r\n".toList

/-- What a proxy yields is where it is configured to be. -/
structure YieldsHost (resolve : Resolver) (p : ProxyConfig) (s : ProxyScheme) : Prop where
  address : (s.socketAddrs resolve).toOption = p.address resolve
  domain : s.getDomain.toOption = some p.host.name ∨ s.getDomain.toOption = some p.host.text
  hostAndPort : s.getHostAndPort = withPort p.host.text p.effectivePort

/-- So are the credentials, and the request names the target. -/
structure Yields (resolve : Resolver) (p : ProxyConfig) (target : TargetAddr) (s : ProxyScheme) :
    Prop where
  host : YieldsHost resolve p s
  auth : s.maybeAuth.map Auth.getProxyAuthorization = p.auth.map Credentials.header
  request : requestLine target <+: connectRequest s target

def Right (u : UrlCrate) (resolve : Resolver) (p : ProxyConfig) (target : TargetAddr) : Prop :=
  ∃ s, (intoProxyScheme u p.text).toOption = some s ∧ Yields resolve p target s

/-- A proxy for HTTP has no IPv6 address, one for SOCKS5 no name. -/
def SoundHost (p : ProxyConfig) : Prop :=
  match p.scheme, p.host with
  | .http, .ipv6 _ | .https, .ipv6 _ | .socks5, .domain _ _ => False
  | _, _ => True

def SoundTarget : TargetAddr → Prop
  | .ip (.v6 _ _ _ _) => False
  | .ip (.v4 _ _) | .domain _ _ => True

/-- There is a password, and nothing is to be encoded. -/
def SoundAuth (c : Credentials) : Prop :=
  c.password ≠ [] ∧ Plain userinfo c.user ∧ Plain userinfo c.password

structure Sound (p : ProxyConfig) (target : TargetAddr) : Prop where
  host : SoundHost p
  auth : ∀ c ∈ p.auth, SoundAuth c
  target : SoundTarget target

/-! ### A host with a port -/

theorem splitOnce_append {t : List Char} (ht : ':' ∉ t) (rest : List Char) :
    splitOnce ':' (t ++ ':' :: rest) = some (t, rest) := by
  induction t with
  | nil => rfl
  | cons c t ih =>
    rw [List.mem_cons, not_or] at ht
    rw [List.cons_append, splitOnce, if_neg (Ne.symm ht.1), ih ht.2]
    rfl

theorem splitOnce_eq_none {t : List Char} (ht : ':' ∉ t) : splitOnce ':' t = none := by
  induction t with
  | nil => rfl
  | cons c t ih =>
    rw [List.mem_cons, not_or] at ht
    rw [splitOnce, if_neg (Ne.symm ht.1), ih ht.2]
    rfl

theorem parseU16_displayNat (port : UInt16) : parseU16 (displayNat port.toNat) = some port := by
  have hdigits : ∀ c ∈ displayNat port.toNat, c.isDigit = true := fun c hc =>
    isDigit_of_mem_displayNat hc
  have hparse : Client.parseDigits 0 (displayNat port.toNat) = some port.toNat := by
    rw [HostPort.parseDigits_eq hdigits]
    exact congrArg some Nat.ofDigitChars_ten_toDigits
  have hsign : withoutPlus (displayNat port.toNat) = displayNat port.toNat := by
    unfold withoutPlus
    split
    · next rest htext =>
      -- no digit is a sign
      exact absurd (hdigits '+' (htext ▸ List.mem_cons_self)) (by decide)
    · rfl
  unfold parseU16
  rw [hsign, if_neg (show displayNat port.toNat ≠ [] from Nat.toDigits_ne_nil), hparse,
    Option.bind_some, if_pos port.toNat_lt, UInt16.ofNat_toNat]

theorem toOption_nextAddr (e : ProxyError) (addrs : Option (List SocketAddr)) :
    (nextAddr e addrs).toOption = addrs.bind List.head? := by
  cases addrs with
  | none => rfl
  | some addrs =>
    cases addrs with
    | nil => rfl
    | cons addr addrs => rfl

section HttpHost

variable {t : List Char} (ht : ':' ∉ t) (port : Option UInt16) (defaultPort : UInt16)

include ht

theorem resolveHost_eq (resolve : Resolver) :
    (ProxyScheme.resolveHost resolve (t ++ portText port) defaultPort).toOption =
      (resolve t (port.getD defaultPort)).bind List.head? := by
  have hsplit : splitOnce ':' (t ++ portText port) =
      port.map fun q => (t, displayNat q.toNat) := by
    cases port with
    | none => rw [portText, List.append_nil, splitOnce_eq_none ht]; rfl
    | some q => exact splitOnce_append ht _
  unfold ProxyScheme.resolveHost
  rw [hsplit]
  cases port with
  | none =>
    rw [portText, List.append_nil]
    exact toOption_nextAddr _ _
  | some q =>
    dsimp only [Option.map_some]
    rw [parseU16_displayNat]
    exact toOption_nextAddr _ _

theorem getDomain_eq : ((t ++ portText port).splitOn ':').head? = some t := by
  cases port with
  | none =>
    rw [portText, List.append_nil, List.splitOn_eq_singleton ht]
    rfl
  | some q =>
    rw [portText, List.splitOn_append_cons_self_of_not_mem ht]
    rfl

theorem appendDefaultPort_eq : ProxyScheme.appendDefaultPort (t ++ portText port) defaultPort =
    withPort t (port.getD defaultPort) := by
  unfold ProxyScheme.appendDefaultPort
  cases port with
  | none =>
    rw [portText, List.append_nil, if_neg ht]
    rfl
  | some q =>
    rw [portText, if_pos (List.mem_append_right _ List.mem_cons_self)]
    rfl

end HttpHost

theorem toOption_domainOf (host : List Char) :
    (ProxyScheme.domainOf host).toOption = (host.splitOn ':').head? := by
  unfold ProxyScheme.domainOf
  cases (host.splitOn ':').head? with
  | none | some => rfl

/-! ### The request -/

theorem requestLine_starts (proxy : ProxyScheme) (host : List Char) (port : UInt16) :
    "CONNECT ".toList ++ withPort host port ++ " HTTP/1.1\r\n".toList <+:
      makeRequest proxy host port := by
  refine ⟨"Host: ".toList ++ withPort host port ++ "\r\n".toList ++
    (proxy.maybeAuth.map Auth.getProxyAuthorization).getD [] ++ "\r\n".toList, ?_⟩
  unfold makeRequest
  rw [show " HTTP/1.1\r\nHost: ".toList = " HTTP/1.1\r\n".toList ++ "Host: ".toList from rfl]
  simp only [List.append_assoc]

theorem request_iff (proxy : ProxyScheme) (target : TargetAddr) :
    requestLine target <+: connectRequest proxy target ↔ SoundTarget target := by
  cases target with
  | domain name port => exact iff_true_intro (requestLine_starts proxy name port)
  | ip addr =>
    cases addr with
    | v4 ip port => exact iff_true_intro (requestLine_starts proxy ip.display port)
    | v6 ip port flowinfo scopeId =>
      refine iff_false_intro fun h => ?_
      obtain ⟨rest, heq⟩ := h
      unfold requestLine connectRequest makeRequest getDomainAndPort withPort at heq
      simp only [List.append_assoc, List.append_cancel_left_eq] at heq
      -- the address does not begin with a bracket
      have hcolon := Ipv6Addr.colon_mem_display ip
      cases hdisplay : ip.display with
      | nil =>
        rw [hdisplay] at hcolon
        exact List.not_mem_nil hcolon
      | cons c text =>
        have hletter := Ipv6Addr.letters_display (hdisplay ▸ List.mem_cons_self : c ∈ ip.display)
        simp only [SocketAddr.ip, IpAddr.display, hdisplay, List.cons_append] at heq
        obtain ⟨rfl, -⟩ := List.cons.inj heq
        exact absurd hletter (by decide)

/-! ### The credentials -/

theorem header_iff (c : Credentials) :
    Auth.getProxyAuthorization ⟨PercentEncoding.encode userinfo c.user,
      PercentEncoding.encode userinfo c.password⟩ = c.header ↔
    Plain userinfo c.user ∧ Plain userinfo c.password := by
  have hle := PercentEncoding.length_utf8_encode_le (p := userinfo) c.user
  have hle' := PercentEncoding.length_utf8_encode_le (p := userinfo) c.password
  unfold Auth.getProxyAuthorization Auth.getBasicAuthorization Credentials.header
  rw [List.append_cancel_right_eq, List.append_cancel_left_eq, Base64.encode_injective.eq_iff]
  constructor
  · intro heq
    have hlen := congrArg List.length heq
    rw [PercentEncoding.utf8_append, PercentEncoding.utf8_append, PercentEncoding.utf8_cons,
      PercentEncoding.utf8_cons] at hlen
    simp only [List.length_append] at hlen
    exact ⟨PercentEncoding.length_utf8_encode_iff.mp (by omega),
      PercentEncoding.length_utf8_encode_iff.mp (by omega)⟩
  · rintro ⟨huser, hpassword⟩
    rw [PercentEncoding.encode_of_plain huser, PercentEncoding.encode_of_plain hpassword]

/-! ### The proxy -/

section Parsed

variable {u : UrlCrate} {resolve : Resolver} {p : ProxyConfig} {url : u.Url}
  (h : u.Reads resolve p url)

include h

theorem intoProxyScheme_eq : intoProxyScheme u p.text = ProxyScheme.parse u url := by
  have hurl : intoUrl u p.text = .ok url := by
    unfold intoUrl
    rw [h.parse]
    exact if_pos h.hasHost
  unfold intoProxyScheme
  rw [hurl]

variable {scheme : ProxyScheme}

theorem auth_iff (hnone : scheme.maybeAuth = none) :
    (ProxyScheme.withAuth u url scheme).maybeAuth.map Auth.getProxyAuthorization =
      p.auth.map Credentials.header ↔ ∀ c ∈ p.auth, SoundAuth c := by
  have hset (userName password : List Char) :
      (scheme.setBasicAuth userName password).maybeAuth = some ⟨userName, password⟩ := by
    cases scheme with
    | http | https | socks5 => rfl
  have huser := h.username
  have hpassword := h.password
  unfold ProxyScheme.withAuth
  cases hauth : p.auth with
  | none =>
    rw [hauth] at hpassword
    rw [hpassword]
    dsimp only [Option.bind_none]
    rw [hnone]
    exact iff_of_true rfl (by simp)
  | some c =>
    rw [hauth] at huser hpassword
    rw [huser, hpassword]
    have hone : (∀ c' ∈ some c, SoundAuth c') ↔ SoundAuth c := by simp
    rw [hone, Option.bind_some, Option.map_some, Option.map_some, Option.getD_some]
    by_cases hempty : c.password = []
    · -- the library for URLs knows of no password
      rw [if_pos hempty]
      rw [hnone]
      exact iff_of_false (by simp) fun hsound => hsound.1 hempty
    · rw [if_neg hempty]
      rw [hset, Option.map_some, Option.some_inj, header_iff]
      exact (and_iff_right hempty).symm

omit h in
theorem yieldsHost_withAuth :
    YieldsHost resolve p (ProxyScheme.withAuth u url scheme) ↔ YieldsHost resolve p scheme := by
  have hset (userName password : List Char) :
      YieldsHost resolve p (scheme.setBasicAuth userName password) ↔
        YieldsHost resolve p scheme := by
    cases scheme with
    | http | https => exact ⟨fun ⟨h, h', h''⟩ => ⟨h, h', h''⟩, fun ⟨h, h', h''⟩ => ⟨h, h', h''⟩⟩
    | socks5 addr auth remoteDns =>
      exact ⟨fun ⟨h, h', h''⟩ => ⟨h, h', h''⟩, fun ⟨h, h', h''⟩ => ⟨h, h', h''⟩⟩
  unfold ProxyScheme.withAuth
  split
  · exact hset _ _
  · exact Iff.rfl

theorem right_iff (hscheme : ProxyScheme.ofScheme u url = .ok scheme)
    (hnone : scheme.maybeAuth = none) {target : TargetAddr} : Right u resolve p target ↔
      YieldsHost resolve p scheme ∧ (∀ c ∈ p.auth, SoundAuth c) ∧ SoundTarget target := by
  have hparse : intoProxyScheme u p.text = .ok (ProxyScheme.withAuth u url scheme) := by
    rw [intoProxyScheme_eq h]
    unfold ProxyScheme.parse
    rw [hscheme]
    rfl
  unfold Right
  rw [hparse]
  constructor
  · rintro ⟨s, hs, hyields⟩
    obtain rfl := Option.some.inj hs
    exact ⟨yieldsHost_withAuth.mp hyields.host, (auth_iff h hnone).mp hyields.auth,
      (request_iff _ _).mp hyields.request⟩
  · rintro ⟨hhost, hauth, htarget⟩
    exact ⟨_, rfl, yieldsHost_withAuth.mpr hhost, (auth_iff h hnone).mpr hauth,
      (request_iff _ _).mpr htarget⟩

omit h in
theorem explicitPort_getD {port : UInt16} (hknown : p.scheme.knownPort = some port)
    (hdefault : p.scheme.defaultPort = port) :
    p.explicitPort.getD port = p.effectivePort := by
  unfold ProxyConfig.explicitPort ProxyConfig.effectivePort
  rw [hknown, hdefault]
  split
  · next heq => rw [heq]; rfl
  · rfl

theorem yieldsHost_http_iff (hresolve : resolve.ReadsIpv4) {port : UInt16}
    (hknown : p.scheme.knownPort = some port) (hdefault : p.scheme.defaultPort = port) 
    (haddrs : scheme.socketAddrs resolve = ProxyScheme.resolveHost resolve (u.hostAndPort url) port)
    (hdomain : scheme.getDomain.toOption = ((u.hostAndPort url).splitOn ':').head?)
    (hport : scheme.getHostAndPort = ProxyScheme.appendDefaultPort (u.hostAndPort url) port) :
    YieldsHost resolve p scheme ↔ ∀ ip, p.host ≠ .ipv6 ip := by
  obtain ⟨t, hwritten, htext⟩ := h.hostAndPort
  have heffective := explicitPort_getD hknown hdefault
  rw [htext] at haddrs hdomain hport
  -- a host without a colon is taken apart as it was put together
  have hplain (hcolon : ':' ∉ t) (hname : p.host.name = t) (hhost : p.host.text = t)
      (haddress : p.address resolve = (resolve t p.effectivePort).bind List.head?) :
      YieldsHost resolve p scheme := by
    constructor
    · rw [haddrs, resolveHost_eq hcolon, heffective, haddress]
    · rw [hdomain, getDomain_eq hcolon, hname]
      exact Or.inl rfl
    · rw [hport, appendDefaultPort_eq hcolon, heffective, hhost]
  have haddress : p.address resolve = match p.host with
      | .domain name _ => (resolve name p.effectivePort).bind List.head?
      | .ipv4 ip => some (.new (.v4 ip) p.effectivePort)
      | .ipv6 ip => some (.new (.v6 ip) p.effectivePort) := rfl
  cases hhost : p.host with
  | domain name hname =>
    rw [hhost] at hwritten haddress
    obtain rfl : t = name := hwritten
    exact iff_of_true (hplain hname.1 (by rw [hhost]; rfl) (by rw [hhost]; rfl) haddress)
      fun ip heq => Host.noConfusion heq
  | ipv4 ip =>
    rw [hhost] at hwritten haddress
    obtain rfl : t = ip.display := hwritten
    have hcolon : ':' ∉ ip.display := by
      intro hmem
      exact absurd (Ipv4Addr.letters_display hmem) (by decide)
    refine iff_of_true (hplain hcolon (by rw [hhost]; rfl) (by rw [hhost]; rfl) ?_)
      fun ip heq => Host.noConfusion heq
    rw [haddress, hresolve]
    rfl
  | ipv6 ip =>
    rw [hhost] at hwritten
    obtain ⟨s, hs, rfl⟩ := hwritten
    refine iff_of_false (fun hyields => ?_) fun hne => hne ip rfl
    -- what is before the first colon has none
    have hfirst {name : List Char} (hname : ':' ∈ name)
        (heq : scheme.getDomain.toOption = some name) : False := by
      rw [hdomain] at heq
      exact not_mem_piece (List.mem_of_head? heq) hname
    rcases hyields.domain with heq | heq
    · rw [hhost] at heq
      exact hfirst (Ipv6Addr.colon_mem_display ip) heq
    · rw [hhost] at heq
      exact hfirst (List.mem_append_left _ (List.mem_cons_of_mem _ (Ipv6Addr.colon_mem_display ip)))
        heq

omit h in
theorem yieldsHost_socks5_iff {addr : SocketAddr} (haddr : p.address resolve = some addr) :
    YieldsHost resolve p (.socks5 addr none false) ↔ ∀ name hname, p.host ≠ .domain name hname := by
  have haddress : (ProxyScheme.socketAddrs resolve (.socks5 addr none false)).toOption =
      p.address resolve := haddr.symm
  unfold ProxyConfig.address at haddr
  cases hhost : p.host with
  | domain name hname =>
    refine iff_of_false (fun hyields => ?_) fun hne => hne name hname rfl
    have hname' : addr.ip.display = name := by
      have hdomain := hyields.domain
      rw [hhost] at hdomain
      exact hdomain.elim Option.some.inj Option.some.inj
    obtain ⟨hcolon, c, hc, hdigit, hdot⟩ := hname
    rw [← hname'] at hcolon hc
    cases addr with
    | v4 ip port =>
      rcases Ipv4Addr.letters_display hc with hc | hc
      · exact Bool.false_ne_true (hdigit.symm.trans hc)
      · exact hdot hc
    | v6 ip port flowinfo scopeId => exact hcolon (Ipv6Addr.colon_mem_display ip)
  | ipv4 ip =>
    refine iff_of_true ?_ fun name hname heq => Host.noConfusion heq
    rw [hhost] at haddr
    obtain rfl := Option.some.inj haddr
    refine ⟨haddress, Or.inl ?_, ?_⟩
    · rw [hhost]
      rfl
    · rw [hhost]
      rfl
  | ipv6 ip =>
    refine iff_of_true ?_ fun name hname heq => Host.noConfusion heq
    rw [hhost] at haddr
    obtain rfl := Option.some.inj haddr
    refine ⟨haddress, Or.inl ?_, ?_⟩
    · rw [hhost]
      rfl
    · rw [hhost]
      unfold withPort Host.text
      rw [List.append_assoc]
      exact List.append_assoc _ _ _

theorem toAddr_socks5 (hscheme : p.scheme = .socks5) :
    (ProxyScheme.toAddr u url).toOption = p.address resolve := by
  have hsocks : u.scheme url = "socks5".toList := by rw [h.scheme, hscheme]; rfl
  have hport : (p.port <|> p.scheme.knownPort <|> some 1080) = some p.effectivePort := by
    unfold ProxyConfig.effectivePort
    rw [hscheme]
    cases p.port with
    | none | some => rfl
  unfold ProxyScheme.toAddr
  rw [if_pos hsocks, toOption_nextAddr, h.socketAddrs, hport, Option.bind_some]
  unfold ProxyConfig.address
  split
  · rfl
  · rfl
  · rfl

end Parsed

theorem soundHost_http {p : ProxyConfig} (h : p.scheme = .http ∨ p.scheme = .https) :
    SoundHost p ↔ ∀ ip, p.host ≠ .ipv6 ip := by
  obtain ⟨scheme, host, port, auth⟩ := p
  cases host with
  | domain name hname =>
    refine iff_of_true ?_ fun ip heq => Host.noConfusion heq
    rcases h with rfl | rfl
    · exact True.intro
    · exact True.intro
  | ipv4 ip =>
    refine iff_of_true ?_ fun ip heq => Host.noConfusion heq
    rcases h with rfl | rfl
    · exact True.intro
    · exact True.intro
  | ipv6 ip =>
    refine iff_of_false (fun hsound => ?_) fun hne => hne ip rfl
    rcases h with rfl | rfl
    · exact hsound
    · exact hsound

theorem soundHost_socks5 {p : ProxyConfig} (h : p.scheme = .socks5) :
    SoundHost p ↔ ∀ name hname, p.host ≠ .domain name hname := by
  obtain ⟨scheme, host, port, auth⟩ := p
  cases h
  cases host with
  | domain name hname => exact iff_of_false id fun hne => hne name hname rfl
  | ipv4 | ipv6 => exact iff_of_true True.intro fun name hname heq => Host.noConfusion heq

/-- A library that reads one URL, with `t` for its host. -/
def crateFor (resolve : Resolver) (p : ProxyConfig) (t : List Char) : UrlCrate where
  Url := Unit
  parse s := if s = p.text then some () else none
  asStr _ := p.text
  hasHost _ := true
  scheme _ := p.scheme.text
  username _ := (p.auth.map fun c => PercentEncoding.encode userinfo c.user).getD []
  password _ := p.auth.bind fun c =>
    if c.password = [] then none else some (PercentEncoding.encode userinfo c.password)
  hostAndPort _ := t ++ portText p.explicitPort
  socketAddrs _ default := (p.port <|> p.scheme.knownPort <|> default).bind fun port =>
    match p.host with
    | .domain name _ => resolve name port
    | .ipv4 ip => some [.new (.v4 ip) port]
    | .ipv6 ip => some [.new (.v6 ip) port]

theorem reads_crateFor (resolve : Resolver) {p : ProxyConfig} {t : List Char}
    (h : p.host.WrittenAs t) : (crateFor resolve p t).Reads resolve p () :=
  ⟨if_pos rfl, rfl, rfl, rfl, rfl, ⟨t, h, rfl⟩, fun _ => rfl⟩

/-- IPv4 addresses are what they say, and any name is one host. -/
def resolveNumbers : Resolver := fun host port =>
  match host.splitOn '.' with
  | [a, b, c, d] =>
    let octet s := UInt8.ofNat (Nat.ofDigitChars 10 s 0)
    some [.new (.v4 ⟨octet a, octet b, octet c, octet d⟩) port]
  | _ => some [.new (.v4 ⟨10, 0, 0, 1⟩) port]

theorem readsIpv4_resolveNumbers : resolveNumbers.ReadsIpv4 := by
  intro ip port
  have hdot (n : ℕ) : '.' ∉ displayNat n := fun hmem =>
    absurd (isDigit_of_mem_displayNat hmem) (by decide)
  have hsplit : ip.display.splitOn '.' = [displayNat ip.a.toNat, displayNat ip.b.toNat,
      displayNat ip.c.toNat, displayNat ip.d.toNat] := by
    unfold Ipv4Addr.display
    rw [List.splitOn_append_cons_self_of_not_mem (hdot _),
      List.splitOn_append_cons_self_of_not_mem (hdot _),
      List.splitOn_append_cons_self_of_not_mem (hdot _), List.splitOn_eq_singleton (hdot _)]
  have hoctet (b : UInt8) : UInt8.ofNat (Nat.ofDigitChars 10 (displayNat b.toNat) 0) = b := by
    unfold displayNat
    rw [Nat.ofDigitChars_ten_toDigits, UInt8.ofNat_toNat]
  unfold resolveNumbers
  rw [hsplit]
  dsimp only
  rw [hoctet, hoctet, hoctet, hoctet]

/-- **Exactly when a proxy and a target are used as they are meant**: an HTTP proxy has no IPv6
address, a SOCKS5 proxy no name, there is a password if there are credentials, none of them is to
be encoded, and the target is no IPv6 address. -/
theorem right_iff_sound (u : UrlCrate) (resolve : Resolver) (p : ProxyConfig) (url : u.Url)
    (target : TargetAddr) (hreads : u.Reads resolve p url) (hresolve : resolve.ReadsIpv4) :
    Right u resolve p target ↔ Sound p target := by
  have hsound : Sound p target ↔ SoundHost p ∧ (∀ c ∈ p.auth, SoundAuth c) ∧ SoundTarget target :=
    ⟨fun ⟨h, h', h''⟩ => ⟨h, h', h''⟩, fun ⟨h, h', h''⟩ => ⟨h, h', h''⟩⟩
  have hurl := hreads.scheme
  rw [hsound]
  cases hscheme : p.scheme with
  | http =>
    rw [hscheme] at hurl
    have hof : ProxyScheme.ofScheme u url = .ok (.http none (u.hostAndPort url)) := if_pos hurl
    have hhost : YieldsHost resolve p (.http none (u.hostAndPort url)) ↔ _ :=
      yieldsHost_http_iff hreads hresolve (by rw [hscheme]; rfl) (by rw [hscheme]; rfl) rfl
        (toOption_domainOf _) rfl
    rw [right_iff hreads hof rfl, hhost, soundHost_http (Or.inl hscheme)]
  | https =>
    rw [hscheme] at hurl
    have hne : u.scheme url ≠ "http".toList := by rw [hurl]; decide
    have hof : ProxyScheme.ofScheme u url = .ok (.https none (u.hostAndPort url)) :=
      (if_neg hne).trans (if_pos hurl)
    have hhost : YieldsHost resolve p (.https none (u.hostAndPort url)) ↔ _ :=
      yieldsHost_http_iff hreads hresolve (by rw [hscheme]; rfl) (by rw [hscheme]; rfl) rfl
        (toOption_domainOf _) rfl
    rw [right_iff hreads hof rfl, hhost, soundHost_http (Or.inr hscheme)]
  | socks5 =>
    rw [hscheme] at hurl
    have hne : u.scheme url ≠ "http".toList := by rw [hurl]; decide
    have hne' : u.scheme url ≠ "https".toList := by rw [hurl]; decide
    have hof : ProxyScheme.ofScheme u url =
        (ProxyScheme.toAddr u url).map fun addr => .socks5 addr none false :=
      (if_neg hne).trans ((if_neg hne').trans (if_pos hurl))
    have haddr := toAddr_socks5 hreads hscheme
    rw [soundHost_socks5 hscheme]
    cases htoAddr : ProxyScheme.toAddr u url with
    | error e =>
      -- a name that has no address
      rw [htoAddr] at haddr hof
      have hname : ¬ ∀ name hname, p.host ≠ .domain name hname := by
        intro hne
        unfold ProxyConfig.address at haddr
        cases hhost : p.host with
        | domain name hname => exact hne name hname hhost
        | ipv4 ip =>
          rw [hhost] at haddr
          cases haddr
        | ipv6 ip =>
          rw [hhost] at haddr
          cases haddr
      refine iff_of_false ?_ fun hsound => hname hsound.1
      rintro ⟨s, hs, -⟩
      rw [intoProxyScheme_eq hreads] at hs
      unfold ProxyScheme.parse at hs
      rw [hof] at hs
      cases hs
    | ok addr =>
      rw [htoAddr] at haddr hof
      rw [right_iff hreads hof rfl, yieldsHost_socks5_iff haddr.symm]

def namedProxy : ProxyConfig where
  scheme := .http
  host := .domain "proxy.example".toList (by decide)
  port := some 3128
  auth := some ⟨"user".toList, "secret".toList⟩

theorem right_namedProxy : Right (crateFor resolveNumbers namedProxy "proxy.example".toList)
    resolveNumbers namedProxy (.domain "peer.example".toList 21116) :=
  (right_iff_sound _ _ namedProxy () _
    (reads_crateFor resolveNumbers (p := namedProxy) (t := "proxy.example".toList) rfl)
    readsIpv4_resolveNumbers).mpr
    ⟨True.intro, fun c hc => Option.some.inj hc ▸ ⟨by decide, by decide, by decide⟩, True.intro⟩

/-- An HTTP proxy on an IPv6 address, with a letter in the password that is to be encoded. -/
def ipv6Proxy : ProxyConfig where
  scheme := .http
  host := .ipv6 .localhost
  port := none
  auth := some ⟨"user".toList, "p@ss".toList⟩

/-- The domain is a bracket, the port is missing, the password is encoded, and the target is named
without brackets. -/
theorem ipv6Proxy_wrong :
    ipv6Proxy.text = "http://user:p%40ss@[::1]".toList ∧
    ((intoProxyScheme (crateFor resolveNumbers ipv6Proxy "[::1]".toList)
      ipv6Proxy.text).toOption.map fun s =>
        (s.getDomain.toOption, s.getHostAndPort, s.maybeAuth.map Auth.password)) =
      some (some "[".toList, "[::1]".toList, some "p%40ss".toList) ∧
    "CONNECT ::1:21116 HTTP/1.1\r\n".toList <+:
      connectRequest (.http none []) (.ip (.v6 .localhost 21116 0 0)) := by
  decide +kernel

end LibRustdesk.Proxy
