import LibRustdesk.Net.AddrText

/-!
# Endpoints of a WebSocket

With a WebSocket a host and a port are turned into a URL (`check_ws`, `websocket.rs` of
`libs/hbb_common`). Which of the two servers it is follows from the port: that of the configured
rendezvous server and the one below it are the rendezvous server (`/ws/id`), any other one is the
relay (`/ws/relay`). An IP address keeps a port, two above, and a domain gets a path.

Whether a text is an IPv6 address is decided by `is_ipv6_str`, which leaves out addresses that begin
or end with a colon and takes some names (`HostPort`). `split_host_port` finds no port in these, and
the text comes back as it was: a debug build stops there, in an assertion.

* `isIpv4Str`, `checkWs` — the functions, over a configuration.
* `Host`, `Server` — the addresses that are asked about, with or without a port.
* `Maps` — what is asked of `check_ws`, and `Sound` when it holds.
* `maps_iff_sound` — **exactly when an endpoint is mapped as it should be**.
-/

namespace LibRustdesk.CheckWs

open HostPort
open Bridge (displayInt)

/-! ### The functions -/

/-- `25[0-5]|2[0-4][0-9]|[01]?[0-9][0-9]?`. -/
def octet : Regex Char :=
  .alt (.seq (letter '2') (.seq (letter '5') (.one fun c => '0' ≤ c && c ≤ '5')))
    (.alt (.seq (letter '2') (.seq (.one fun c => '0' ≤ c && c ≤ '4') (.one Char.isDigit)))
      (.seq (Regex.opt (.one fun c => c == '0' || c == '1'))
        (.seq (.one Char.isDigit) (Regex.opt (.one Char.isDigit)))))

def octets : Regex Char :=
  .seq octet (.seq (letter '.') (.seq octet (.seq (letter '.') (.seq octet (.seq (letter '.')
    octet)))))

variable (d : DigitClass)

/-- `(:\d+)?`. -/
def optPort : Regex Char :=
  Regex.opt (.seq (letter ':') (Regex.plus (.one d.isDecimal)))

def isIpv4Str (id : List Char) : Bool := (Regex.seq octets (optPort d)).isMatch id

def isIpStr (id : List Char) : Bool := isIpv4Str d id || isIpv6Str d id

def rendezvousPort : Int32 := 21116

def relayPort : Int32 := 21117

/-- What `check_ws` reads of the configuration. -/
structure Config where
  useWs : Bool
  exeRendezvousServer : List Char := []
  customRendezvousServer : List Char := []
  prodRendezvousServer : List Char := []
  /-- `CONFIG2.rendezvous_server`. -/
  storedRendezvousServer : List Char := []
  /-- `get_rendezvous_servers`. -/
  rendezvousServers : List (List Char) := []
  relayServer : List Char := []
  apiServer : List Char := []

namespace Config

def configuredServer (c : Config) : List Char :=
  let server := c.exeRendezvousServer
  let server := if server.isEmpty then c.customRendezvousServer else server
  let server := if server.isEmpty then c.prodRendezvousServer else server
  let server := if server.isEmpty then c.storedRendezvousServer else server
  if server.isEmpty then c.rendezvousServers.head?.getD [] else server

def getRendezvousServer (c : Config) : List Char :=
  if ':' ∈ c.configuredServer then c.configuredServer
  else c.configuredServer ++ ':' :: displayInt rendezvousPort.toInt

end Config

def isWsEndpoint (endpoint : List Char) : Bool :=
  "ws://".toList.isPrefixOf endpoint || "wss://".toList.isPrefixOf endpoint

/-- The port of a server, or else `default`. -/
def portOr (server : List Char) (default : Int32) : Int32 :=
  ((splitHostPort d server).map Prod.snd).getD default

/-- Whether it is the relay, and the port of the WebSocket. A sum that is no `i32` ends the
thread. -/
def destination (endpointPort rendezvousPort relayPort : Int32) : Option (Bool × Int32) :=
  if endpointPort = rendezvousPort then (addI32 endpointPort 2).map fun port => (false, port)
  else
    (addI32 rendezvousPort (-1)).bind fun online =>
      if endpointPort = online then (addI32 endpointPort 3).map fun port => (false, port)
      else if endpointPort = relayPort then (addI32 endpointPort 2).map fun port => (true, port)
      else
        (addI32 rendezvousPort 1).bind fun relay =>
          if endpointPort = relay then (addI32 endpointPort 2).map fun port => (true, port)
          -- the relay of the other side
          else (addI32 endpointPort 2).map fun port => (true, port)

def protocol (c : Config) (isDomain : Bool) : List Char :=
  if isDomain && "https".toList.isPrefixOf c.apiServer then "wss".toList else "ws".toList

def url (c : Config) (endpoint host : List Char) (relay : Bool) (port : Int32) : List Char :=
  if isIpStr d endpoint then
    protocol c false ++ "://".toList ++ (host ++ ':' :: displayInt port.toInt)
  else
    protocol c true ++ "://".toList ++
      (host ++ if relay then "/ws/relay".toList else "/ws/id".toList)

def checkWs (c : Config) (endpoint : List Char) : Option (List Char) :=
  if !c.useWs then some endpoint
  else if endpoint.isEmpty then some endpoint
  else if isWsEndpoint endpoint then some endpoint
  else
    match splitHostPort d endpoint with
    -- `debug_assert!(false, "endpoint doesn't have port")`
    | none => some endpoint
    | some (host, port) =>
      (destination port (portOr d c.getRendezvousServer rendezvousPort)
        (portOr d c.relayServer relayPort)).map fun dst => url d c endpoint host dst.1 dst.2

/-! ### Addresses -/

/-- Digits, colons and dots, with two colons at least. -/
def Ipv6Literal (s : List Char) : Prop :=
  (∀ c ∈ s, isHex c = true ∨ c = ':' ∨ c = '.') ∧ 2 ≤ s.count ':'

/-- No colon, and a letter that is not in an IPv4 address. -/
def Domain (s : List Char) : Prop :=
  ':' ∉ s ∧ ∃ c ∈ s, c.isDigit = false ∧ c ≠ '.'

instance (s : List Char) : Decidable (Ipv6Literal s) :=
  @instDecidableAnd _ _ (List.decidableBAll _ s) inferInstance

instance (s : List Char) : Decidable (Domain s) :=
  @instDecidableAnd _ _ inferInstance (List.decidableBEx _ s)

inductive Host
  | ipv4 (ip : Ipv4Addr)
  | ipv6 (s : List Char) (h : Ipv6Literal s)
  | domain (s : List Char) (h : Domain s)

namespace Host

def text : Host → List Char
  | ipv4 ip => ip.display
  | ipv6 s _ => '[' :: s ++ [']']
  | domain s _ => s

def isIpv6 : Host → Bool
  | ipv6 _ _ => true
  | ipv4 _ | domain _ _ => false

def isIp : Host → Bool
  | ipv4 _ | ipv6 _ _ => true
  | domain _ _ => false

end Host

structure Port where
  val : Int32
  pos : 0 < val
  le : val.toInt ≤ 65535

def hostPort (host : Host) (port : Port) : List Char :=
  host.text ++ ':' :: displayInt port.val.toInt

inductive Server
  | withPort (host : Host) (port : Port)
  | host (host : Host)
  /-- An IPv6 address without brackets has no port. -/
  | bare (s : List Char) (h : Ipv6Literal s)

namespace Server

def text : Server → List Char
  | .withPort h port => hostPort h port
  | .host h => h.text
  | .bare s _ => s

/-- The port of a server, or else `default`. -/
def portOr (default : ℤ) : Server → ℤ
  | .withPort _ port => port.val.toInt
  | .host _ => default
  | .bare _ _ => default

end Server

/-! ### What is asked of it -/

/-- `ws://host:port` for an IP address, and the domain with a path for a domain. -/
def endpointUrl (c : Config) (host : Host) (path : List Char) (port : ℤ) : List Char :=
  if host.isIp then "ws://".toList ++ (host.text ++ ':' :: displayInt port)
  else protocol c true ++ "://".toList ++ (host.text ++ path)

def idEndpoint (c : Config) (host : Host) (rendezvous : ℤ) : List Char :=
  endpointUrl c host "/ws/id".toList (rendezvous + 2)

def relayEndpoint (c : Config) (host : Host) (port : ℤ) : List Char :=
  endpointUrl c host "/ws/relay".toList (port + 2)

/-- What is asked of an endpoint, where `rendezvous` is the port of the rendezvous server, and
`relay` that of the relay server if there is one. -/
structure Maps (c : Config) (rendezvous : ℤ) (relay : Option ℤ) (host : Host) (port : Port) :
    Prop where
  id : port.val.toInt = rendezvous ∨ port.val.toInt + 1 = rendezvous →
    checkWs d c (hostPort host port) = some (idEndpoint c host rendezvous)
  relay : relay = some port.val.toInt ∨ port.val.toInt = rendezvous + 1 ∨
      port.val.toInt ≠ rendezvous ∧ port.val.toInt + 1 ≠ rendezvous →
    checkWs d c (hostPort host port) = some (relayEndpoint c host port.val.toInt)
  idempotent : ∃ u, checkWs d c (hostPort host port) = some u ∧ checkWs d c u = some u
  bound : host.isIp = true → ∀ path n,
    checkWs d c (hostPort host port) = some (endpointUrl c host path n) → n ≤ 65535

/-- With WebSockets, these are the servers that are configured. -/
structure Configured (c : Config) (server : Server) (relay : Option Server) : Prop where
  useWs : c.useWs = true
  rendezvous : c.configuredServer = server.text
  relay : c.relayServer = (relay.map Server.text).getD []

/-- The expression for IPv6 takes the endpoint if and only if its host is an IPv6 address. -/
def Readable (host : Host) (port : Port) : Prop :=
  isIpv6Str d (hostPort host port) = host.isIpv6

instance (host : Host) (port : Port) : Decidable (Readable d host port) :=
  inferInstanceAs (Decidable (_ = _))

def readPort : Server → Int32
  | .withPort host port => if Readable d host port then port.val else rendezvousPort
  | .host _ => rendezvousPort
  | .bare _ _ => rendezvousPort

/-- The endpoint is read as it is meant, so is the rendezvous server as far as it matters, the
port for the WebSocket is one, and the relay server is not where the rendezvous server is. -/
def Sound (server : Server) (relay : Option ℤ) (host : Host) (port : Port) : Prop :=
  Readable d host port ∧
    if host.isIp then
      (port.val.toInt + 1 = (readPort d server).toInt ↔
        port.val.toInt + 1 = server.portOr rendezvousPort.toInt) ∧
      (if port.val.toInt + 1 = server.portOr rendezvousPort.toInt
        then relay ≠ some port.val.toInt ∧ port.val.toInt + 3 ≤ 65535
        else port.val.toInt + 2 ≤ 65535)
    else
      (port.val.toInt = (readPort d server).toInt ∨ port.val.toInt + 1 = (readPort d server).toInt ↔
        port.val.toInt = server.portOr rendezvousPort.toInt ∨
          port.val.toInt + 1 = server.portOr rendezvousPort.toInt) ∧
      (relay = some port.val.toInt → port.val.toInt ≠ server.portOr rendezvousPort.toInt ∧
        port.val.toInt + 1 ≠ server.portOr rendezvousPort.toInt)

/-! ### Hosts -/

variable {s : List Char}

theorem Ipv6Literal.not_mem (h : Ipv6Literal s) {c : Char} (hhex : isHex c = false)
    (hcolon : c ≠ ':') (hdot : c ≠ '.') : c ∉ s := by
  intro hmem
  rcases h.1 c hmem with hc | hc | hc
  · exact Bool.false_ne_true (hhex.symm.trans hc)
  · exact hcolon hc
  · exact hdot hc

theorem colon_not_mem {host : Host} (h : host.isIpv6 = false) : ':' ∉ host.text := by
  intro hmem
  cases host with
  | ipv4 ip =>
    rcases Ipv4Addr.letters_display hmem with hdigit | hdot
    · exact absurd hdigit (by decide)
    · exact absurd hdot (by decide)
  | ipv6 s hs => exact Bool.false_ne_true h.symm
  | domain s hs => exact hs.1 hmem

theorem two_le_count_ipv6 (h : Ipv6Literal s) : 2 ≤ (Host.ipv6 s h).text.count ':' := by
  have hcount : (Host.ipv6 s h).text.count ':' = s.count ':' := by
    unfold Host.text
    rw [List.count_append, List.count_cons_of_ne (by decide),
      List.count_eq_zero.mpr (by decide : ':' ∉ [']'])]
    omega
  rw [hcount]
  exact h.2

/-! ### What is split off -/

theorem splitHostPort_colons (hsix : ¬ isIpv6Str d s = true)
    (hcount : 2 ≤ s.count ':') : splitHostPort d s = none := by
  have hlen : (s.splitOn ':').length = s.count ':' + 1 := length_splitOn
  have hmem : ':' ∈ s := List.count_pos_iff.mp (by omega)
  unfold splitHostPort
  rw [if_neg hsix, if_pos hmem]
  split
  · next heq =>
    rw [heq, List.length_cons, List.length_cons, List.length_nil] at hlen
    omega
  · rfl

theorem splitHostPort_hostPort (host : Host) (port : Port) :
    splitHostPort d (hostPort host port) =
      if Readable d host port then some (host.text, port.val) else none := by
  have hpos := port.pos
  have hport : ':' ∉ displayInt port.val.toInt := not_mem_port hpos (by decide)
  have hparse := parsePort_displayInt hpos
  have hcolon : ':' ∈ hostPort host port := List.mem_append_right _ List.mem_cons_self
  rcases Bool.eq_false_or_eq_true host.isIpv6 with hipv6 | hipv6
  · cases host with
    | ipv4 | domain => cases hipv6
    | ipv6 s hs =>
      by_cases hsix : isIpv6Str d (hostPort (.ipv6 s hs) port) = true
      · have hclose : ']' ∉ '[' :: s := by
          rw [List.mem_cons, not_or]
          exact ⟨by decide, hs.not_mem (by decide) (by decide) (by decide)⟩
        have hsplit : splitPair ']' ':' (hostPort (.ipv6 s hs) port) =
            ['[' :: s, displayInt port.val.toInt] := by
          unfold hostPort Host.text
          rw [List.append_assoc]
          exact splitPair_eq hclose (not_mem_port hpos (by decide)) (by decide)
        have hhead : (hostPort (.ipv6 s hs) port).head? = some '[' := rfl
        have hread : Readable d (.ipv6 s hs) port := hsix
        unfold splitHostPort
        rw [if_pos hsix, if_pos hhead, hsplit, if_pos hread]
        dsimp only
        rw [hparse, if_pos hpos]
        rfl
      · have hcount : 2 ≤ (hostPort (.ipv6 s hs) port).count ':' := by
          have htwo := two_le_count_ipv6 hs
          unfold hostPort
          rw [List.count_append]
          omega
        rw [splitHostPort_colons d hsix hcount]
        exact (if_neg hsix).symm
  · have hhost := colon_not_mem hipv6
    by_cases hsix : isIpv6Str d (hostPort host port) = true
    · -- a short name with a short port is taken for an address without brackets
      have hhead : (hostPort host port).head? ≠ some '[' := by
        obtain ⟨hshort, -⟩ := (isIpv6Str_concat_iff hhost hport).mp hsix
        unfold hostPort
        cases htext : host.text with
        | nil =>
          rw [htext] at hshort
          exact absurd hshort.1 (by decide)
        | cons c text =>
          intro heq
          obtain rfl := Option.some.inj heq
          exact absurd (hshort.2.2 '[' (htext ▸ List.mem_cons_self)) (by decide)
      have hread : ¬ Readable d host port := fun h =>
        Bool.false_ne_true (hipv6.symm.trans (h.symm.trans hsix))
      unfold splitHostPort
      rw [if_pos hsix, if_neg hhead, if_neg hread]
    · have hread : Readable d host port := (Bool.eq_false_iff.mpr hsix).trans hipv6.symm
      unfold splitHostPort
      rw [if_neg hsix, if_pos hcolon, if_pos hread]
      unfold hostPort
      rw [splitOn_eq hhost hport]
      dsimp only
      rw [hparse, if_pos hpos]

/-! ### Which address it is -/

theorem mem_octet (a : UInt8) : displayNat a.toNat ∈ octet.language := by
  have hall : ∀ n < 256, octet.isMatch (displayNat n) = true := by decide +kernel
  exact (Regex.isMatch_iff _ _).mp (hall _ a.toNat_lt)

theorem mem_letter {a : Char} : [a] ∈ (letter a).language :=
  Regex.mem_one_iff.mpr ⟨a, beq_self_eq_true a, rfl⟩

theorem isIpv4Str_ipv4 (ip : Ipv4Addr) (port : Port) :
    isIpv4Str d (hostPort (.ipv4 ip) port) = true := by
  have htext : ip.display ∈ octets.language :=
    Regex.mem_seq.mpr ⟨_, mem_octet ip.a, _, Regex.mem_seq.mpr ⟨_, mem_letter, _,
      Regex.mem_seq.mpr ⟨_, mem_octet ip.b, _, Regex.mem_seq.mpr ⟨_, mem_letter, _,
        Regex.mem_seq.mpr ⟨_, mem_octet ip.c, _, Regex.mem_seq.mpr ⟨_, mem_letter, _,
          mem_octet ip.d, rfl⟩, rfl⟩, rfl⟩, rfl⟩, rfl⟩, rfl⟩
  have hport : ':' :: displayInt port.val.toInt ∈ (optPort d).language :=
    Regex.mem_alt.mpr (Or.inr (Regex.mem_seq.mpr ⟨_, mem_letter, _,
      Regex.mem_plus_one.mpr ⟨port_ne_nil port.pos, isDecimal_of_mem_port port.pos⟩, rfl⟩))
  exact (Regex.isMatch_iff _ _).mpr (Regex.mem_seq.mpr ⟨_, htext, _, hport, rfl⟩)

theorem within_octets : octets.Within fun c => c.isDigit = true ∨ c = '.' := by
  have hrange (a b : Char) (ha : '0' ≤ a) (hb : b ≤ '9') (c : Char) (h : (a ≤ c && c ≤ b) = true) :
      c.isDigit = true ∨ c = '.' := by
    rw [Bool.and_eq_true, decide_eq_true_eq, decide_eq_true_eq] at h
    refine Or.inl ?_
    unfold Char.isDigit
    rw [Bool.and_eq_true, decide_eq_true_eq, decide_eq_true_eq]
    exact ⟨Char.le_trans ha h.1, Char.le_trans h.2 hb⟩
  have hletter (a : Char) (ha : a.isDigit = true) (c : Char) (h : (c == a) = true) :
      c.isDigit = true ∨ c = '.' := by
    rw [beq_iff_eq.mp h]
    exact Or.inl ha
  have hdot (c : Char) (h : (c == '.') = true) : c.isDigit = true ∨ c = '.' :=
    Or.inr (beq_iff_eq.mp h)
  have hdigit (c : Char) (h : c.isDigit = true) : c.isDigit = true ∨ c = '.' := Or.inl h
  have hbit (c : Char) (h : (c == '0' || c == '1') = true) : c.isDigit = true ∨ c = '.' := by
    rcases Bool.or_eq_true_iff.mp h with h | h
    · exact hletter '0' (by decide) c h
    · exact hletter '1' (by decide) c h
  have hoctet : octet.Within fun c => c.isDigit = true ∨ c = '.' :=
    ⟨⟨hletter '2' (by decide), hletter '5' (by decide), hrange '0' '5' (by decide) (by decide)⟩,
      ⟨hletter '2' (by decide), hrange '0' '4' (by decide) (by decide), hdigit⟩,
      ⟨trivial, hbit⟩, hdigit, trivial, hdigit⟩
  exact ⟨hoctet, hdot, hoctet, hdot, hoctet, hdot, hoctet⟩

theorem before_first {a : Char} {s s' t t' : List Char} (hs : a ∉ s) (hs' : a ∉ s')
    (h : s ++ a :: t = s' ++ a :: t') : s = s' := by
  have hsplit := congrArg (List.splitOn a) h
  rw [List.splitOn_append_cons_self_of_not_mem hs,
    List.splitOn_append_cons_self_of_not_mem hs'] at hsplit
  exact (List.cons.inj hsplit).1

theorem isIpv4Str_domain (hs : Domain s) (port : Port) :
    ¬ isIpv4Str d (hostPort (.domain s hs) port) = true := by
  intro h
  obtain ⟨w, hw, t, ht, heq⟩ := Regex.mem_seq.mp ((Regex.isMatch_iff _ _).mp h)
  obtain ⟨hcolon, c, hc, hdigit, hdot⟩ := hs
  have hletters := Regex.within_of_mem within_octets hw
  have hw' : ':' ∉ w := by
    intro hmem
    rcases hletters _ hmem with h' | h'
    · exact absurd h' (by decide)
    · exact absurd h' (by decide)
  rcases Regex.mem_alt.mp ht with ht | ht
  · -- without a port there is no colon
    obtain rfl := (Language.mem_one _).mp ht
    refine hw' ?_
    rw [← List.append_nil w, heq]
    exact List.mem_append_right _ List.mem_cons_self
  · obtain ⟨u, hu, v, -, rfl⟩ := Regex.mem_seq.mp ht
    obtain ⟨c', hc', rfl⟩ := hu
    obtain rfl := beq_iff_eq.mp hc'
    obtain rfl := before_first hw' hcolon heq
    rcases hletters c hc with h' | h'
    · exact Bool.false_ne_true (hdigit.symm.trans h')
    · exact hdot h'

theorem isIpStr_iff {host : Host} {port : Port} (hread : Readable d host port) :
    isIpStr d (hostPort host port) = host.isIp := by
  unfold isIpStr
  rw [show isIpv6Str d (hostPort host port) = host.isIpv6 from hread]
  cases host with
  | ipv4 ip =>
    rw [isIpv4Str_ipv4]
    rfl
  | ipv6 s hs => exact Bool.or_true _
  | domain s hs =>
    rw [Bool.eq_false_iff.mpr (isIpv4Str_domain d hs port)]
    rfl

theorem not_scheme {host : Host} {port : Port} {scheme t : List Char} (hscheme : ':' ∉ scheme)
    (hw : scheme.head? = some 'w') : scheme ++ ':' :: '/' :: t ≠ hostPort host port := by
  intro heq
  rcases Bool.eq_false_or_eq_true host.isIpv6 with hipv6 | hipv6
  · cases host with
    | ipv4 | domain => cases hipv6
    | ipv6 s hs =>
      -- it begins with a bracket
      have hhead := congrArg List.head? heq
      rw [List.head?_append, hw] at hhead
      exact absurd (Option.some.inj hhead) (by decide)
  · -- a slash is behind the colon
    obtain rfl := before_first hscheme (colon_not_mem hipv6) heq
    have hport := List.cons.inj (List.append_cancel_left heq)
    exact not_mem_port port.pos (by decide) (hport.2 ▸ List.mem_cons_self : '/' ∈ _)

theorem isWsEndpoint_hostPort (host : Host) (port : Port) :
    isWsEndpoint (hostPort host port) = false := by
  refine Bool.eq_false_iff.mpr fun h => ?_
  rcases Bool.or_eq_true_iff.mp h with h | h
  · obtain ⟨t, heq⟩ := List.isPrefixOf_iff_prefix.mp h
    exact not_scheme (by decide : ':' ∉ ['w', 's']) rfl heq
  · obtain ⟨t, heq⟩ := List.isPrefixOf_iff_prefix.mp h
    exact not_scheme (by decide : ':' ∉ ['w', 's', 's']) rfl heq

/-! ### The ports -/

variable {d} in
theorem portOr_readable {host : Host} {port : Port} {default : Int32} :
    portOr d (hostPort host port) default = if Readable d host port then port.val else default := by
  unfold portOr
  rw [splitHostPort_hostPort]
  split
  · rfl
  · rfl

theorem splitHostPort_ipv6 (h : Ipv6Literal s) :
    splitHostPort d s = none ∧ splitHostPort d (Host.ipv6 s h).text = none := by
  constructor
  · by_cases hsix : isIpv6Str d s = true
    · have hhead : s.head? ≠ some '[' := fun hhead =>
        h.not_mem (by decide) (by decide) (by decide) (List.mem_of_head? hhead)
      unfold splitHostPort
      rw [if_pos hsix, if_neg hhead]
    · exact splitHostPort_colons d hsix h.2
  · refine splitHostPort_colons d (fun hsix => ?_) (two_le_count_ipv6 h)
    rcases isIpv6Str_iff.mp hsix with hgroups | ⟨groups, port, -, ⟨hne, hall⟩, heq⟩
    · exact hgroups.head rfl
    · -- a port is behind the bracket
      have hlast := congrArg List.getLast? heq
      unfold bracketed Host.text at hlast
      rw [List.getLast?_append_of_ne_nil _ hne, List.getLast?_concat] at hlast
      have hclose := hall _ (List.mem_of_getLast? hlast.symm)
      rw [d.ascii _ (by decide)] at hclose
      exact absurd hclose (by decide)

theorem portOr_rendezvous {c : Config} {server : Server} (h : c.configuredServer = server.text) :
    portOr d c.getRendezvousServer rendezvousPort = readPort d server := by
  have hnone {s : List Char} (hcount : 2 ≤ s.count ':') (hsplit : splitHostPort d s = none)
      (hs : c.configuredServer = s) :
      portOr d c.getRendezvousServer rendezvousPort = rendezvousPort := by
    have hcolon : ':' ∈ s := List.count_pos_iff.mp (by omega)
    unfold Config.getRendezvousServer portOr
    rw [hs, if_pos hcolon, hsplit]
    rfl
  cases server with
  | withPort host port =>
    have hcolon : ':' ∈ hostPort host port := List.mem_append_right _ List.mem_cons_self
    unfold Config.getRendezvousServer
    rw [show c.configuredServer = hostPort host port from h, if_pos hcolon]
    exact portOr_readable
  | host host =>
    rcases Bool.eq_false_or_eq_true host.isIpv6 with hipv6 | hipv6
    · cases host with
      | ipv4 ip => cases hipv6
      | domain s hs => cases hipv6
      | ipv6 s hs => exact hnone (two_le_count_ipv6 hs) (splitHostPort_ipv6 d hs).2 h
    · -- the default port is put behind it
      have hdefault := @portOr_readable d host ⟨rendezvousPort, by decide, by decide⟩ rendezvousPort
      rw [ite_self] at hdefault
      unfold Config.getRendezvousServer
      rw [show c.configuredServer = host.text from h, if_neg (colon_not_mem hipv6)]
      exact hdefault
  | bare s hs => exact hnone hs.2 (splitHostPort_ipv6 d hs).1 h

theorem readPort_le (server : Server) :
    0 < (readPort d server).toInt ∧ (readPort d server).toInt ≤ 65535 := by
  have hdefault : 0 < rendezvousPort.toInt ∧ rendezvousPort.toInt ≤ 65535 := by decide
  unfold readPort
  split
  · split
    · next port hread => exact ⟨toInt_pos port.pos, port.le⟩
    · exact hdefault
  · exact hdefault
  · exact hdefault

theorem destination_eq {q r : Int32} (relay : Int32) (hq : 0 < q.toInt ∧ q.toInt ≤ 65535)
    (hr : 0 < r.toInt ∧ r.toInt ≤ 65535) : ∃ port, destination q r relay =
      some (decide (¬ (q.toInt = r.toInt ∨ q.toInt + 1 = r.toInt)), port) ∧
      port.toInt = if q.toInt + 1 = r.toInt then q.toInt + 3 else q.toInt + 2 := by
  have hsum (a b : Int32) (ha : 0 < a.toInt ∧ a.toInt ≤ 65535) (hb : -1 ≤ b.toInt ∧ b.toInt ≤ 3) :
      ∃ sum, addI32 a b = some sum ∧ sum.toInt = a.toInt + b.toInt :=
    addI32_toInt (by omega) (by omega)
  obtain ⟨two, htwo, htwo'⟩ := hsum q 2 hq (by decide)
  obtain ⟨three, hthree, hthree'⟩ := hsum q 3 hq (by decide)
  obtain ⟨online, honline, honline'⟩ := hsum r (-1) hr (by decide)
  obtain ⟨next, hnext, -⟩ := hsum r 1 hr (by decide)
  have hneg : (-1 : Int32).toInt = -1 := by decide
  have htwoInt : (2 : Int32).toInt = 2 := by decide
  have hthreeInt : (3 : Int32).toInt = 3 := by decide
  have hrendezvous : q = r ↔ q.toInt = r.toInt := Int32.toInt_inj.symm
  have honlineIff : q = online ↔ q.toInt + 1 = r.toInt := by
    rw [← Int32.toInt_inj]
    omega
  unfold destination
  rw [htwo, hthree, honline, hnext]
  dsimp only [Option.map_some, Option.bind_some]
  by_cases hid : q = r
  · refine ⟨two, ?_, ?_⟩
    · rw [if_pos hid, decide_eq_false (not_not.mpr (Or.inl (hrendezvous.mp hid)))]
    · rw [if_neg (by have := hrendezvous.mp hid; omega)]
      omega
  · by_cases hline : q = online
    · refine ⟨three, ?_, ?_⟩
      · rw [if_neg hid, if_pos hline, decide_eq_false (not_not.mpr (Or.inr (honlineIff.mp hline)))]
      · rw [if_pos (honlineIff.mp hline)]
        omega
    · -- the relay server, whichever it is
      refine ⟨two, ?_, ?_⟩
      · have hrelay : ¬ (q.toInt = r.toInt ∨ q.toInt + 1 = r.toInt) :=
          not_or.mpr ⟨mt hrendezvous.mpr hid, mt honlineIff.mpr hline⟩
        rw [if_neg hid, if_neg hline, decide_eq_true hrelay, ite_self, ite_self]
      · rw [if_neg (mt honlineIff.mpr hline)]
        omega

/-! ### The URL -/

theorem endpointUrl_ip {host : Host} (h : host.isIp = true) {c : Config} {path : List Char}
    {port : ℤ} : endpointUrl c host path port =
      "ws://".toList ++ (host.text ++ ':' :: displayInt port) := if_pos h

theorem endpointUrl_domain {host : Host} (h : host.isIp = false) {c : Config} {path : List Char}
    {port : ℤ} : endpointUrl c host path port =
      protocol c true ++ "://".toList ++ (host.text ++ path) := if_neg (Bool.eq_false_iff.mp h)

theorem endpointUrl_ip_inj {host : Host} (h : host.isIp = true) {c : Config}
    {path path' : List Char} {m n : ℤ} :
    endpointUrl c host path m = endpointUrl c host path' n ↔ m = n := by
  rw [endpointUrl_ip h, endpointUrl_ip h, List.append_cancel_left_eq, List.append_cancel_left_eq,
    List.cons_inj_right]
  exact displayInt_injective.eq_iff

theorem endpointUrl_domain_inj {host : Host} (h : host.isIp = false) {c : Config}
    {path path' : List Char} {m n : ℤ} :
    endpointUrl c host path m = endpointUrl c host path' n ↔ path = path' := by
  rw [endpointUrl_domain h, endpointUrl_domain h, List.append_cancel_left_eq,
    List.append_cancel_left_eq]

theorem isWsEndpoint_endpointUrl (c : Config) (host : Host) (path : List Char) (port : ℤ) :
    isWsEndpoint (endpointUrl c host path port) = true := by
  have hws (t : List Char) : isWsEndpoint ("ws://".toList ++ t) = true := rfl
  have hwss (t : List Char) : isWsEndpoint ("wss://".toList ++ t) = true := rfl
  cases hip : host.isIp with
  | true =>
    rw [endpointUrl_ip hip]
    exact hws _
  | false =>
    rw [endpointUrl_domain hip]
    unfold protocol
    split
    · exact hwss _
    · exact hws _

theorem checkWs_endpointUrl (c : Config) (host : Host) (path : List Char) (n : ℤ) :
    checkWs d c (endpointUrl c host path n) = some (endpointUrl c host path n) := by
  unfold checkWs
  rw [isWsEndpoint_endpointUrl, if_pos rfl, ite_self, ite_self]

/-- The path for a port, where `rendezvous` is the port that is read of the rendezvous server. -/
def pathOf (q rendezvous : ℤ) : List Char :=
  if q = rendezvous ∨ q + 1 = rendezvous then "/ws/id".toList else "/ws/relay".toList

def wsPort (q rendezvous : ℤ) : ℤ := if q + 1 = rendezvous then q + 3 else q + 2

section Mapped

variable {d} {c : Config} {server : Server} {relay : Option Server}
  (h : Configured c server relay) {host : Host} {port : Port}

include h

theorem checkWs_unreadable (hread : ¬ Readable d host port) :
    checkWs d c (hostPort host port) = some (hostPort host port) := by
  unfold checkWs
  rw [h.useWs, isWsEndpoint_hostPort, splitHostPort_hostPort, if_neg hread]
  simp only [Bool.not_true, Bool.false_eq_true, ite_self]

theorem checkWs_readable (hread : Readable d host port) :
    checkWs d c (hostPort host port) = some (endpointUrl c host
      (pathOf port.val.toInt (readPort d server).toInt)
      (wsPort port.val.toInt (readPort d server).toInt)) := by
  have hne : (hostPort host port).isEmpty = false := by
    rw [List.isEmpty_eq_false_iff]
    exact List.append_ne_nil_of_right_ne_nil _ (List.cons_ne_nil _ _)
  obtain ⟨n, hn, htoInt⟩ := destination_eq (portOr d c.relayServer relayPort)
    ⟨toInt_pos port.pos, port.le⟩ (readPort_le d server)
  unfold checkWs
  rw [h.useWs, hne, isWsEndpoint_hostPort, splitHostPort_hostPort, if_pos hread,
    portOr_rendezvous d h.rendezvous]
  have htrue : ¬ (!true) = true := by decide
  rw [if_neg htrue, if_neg Bool.false_ne_true, if_neg Bool.false_ne_true]
  dsimp only
  rw [hn, Option.map_some]
  refine congrArg some ?_
  unfold url
  rw [isIpStr_iff d hread, htoInt]
  cases hip : host.isIp with
  | true =>
    rw [if_pos rfl, endpointUrl_ip hip]
    rfl
  | false =>
    rw [if_neg Bool.false_ne_true, endpointUrl_domain hip]
    unfold pathOf
    by_cases hid : port.val.toInt = (readPort d server).toInt ∨
        port.val.toInt + 1 = (readPort d server).toInt
    · rw [decide_eq_false (not_not.mpr hid), if_neg Bool.false_ne_true, if_pos hid]
    · rw [decide_eq_true hid, if_pos rfl, if_neg hid]

theorem mapped_ip (hread : Readable d host port) (hip : host.isIp = true) {path : List Char}
    {n : ℤ} : checkWs d c (hostPort host port) = some (endpointUrl c host path n) ↔
      wsPort port.val.toInt (readPort d server).toInt = n := by
  rw [checkWs_readable h hread, Option.some_inj, endpointUrl_ip_inj hip]

theorem mapped_domain (hread : Readable d host port) (hip : host.isIp = false) {path : List Char}
    {n : ℤ} : checkWs d c (hostPort host port) = some (endpointUrl c host path n) ↔
      pathOf port.val.toInt (readPort d server).toInt = path := by
  rw [checkWs_readable h hread, Option.some_inj, endpointUrl_domain_inj hip]

variable {relayAt : Option ℤ}

theorem not_maps_of_unreadable {r : ℤ} (hread : ¬ Readable d host port) :
    ¬ Maps d c r relayAt host port := by
  intro hmaps
  have hback := checkWs_unreadable h hread
  have hnot {path : List Char} {n : ℤ}
      (heq : checkWs d c (hostPort host port) = some (endpointUrl c host path n)) : False := by
    have hws := isWsEndpoint_endpointUrl c host path n
    rw [← Option.some.inj (hback.symm.trans heq), isWsEndpoint_hostPort] at hws
    exact Bool.false_ne_true hws
  by_cases hid : port.val.toInt = r ∨ port.val.toInt + 1 = r
  · exact hnot (hmaps.id hid)
  · exact hnot (hmaps.relay (Or.inr (Or.inr (not_or.mp hid))))

theorem maps_ip_iff {r : ℤ} (hread : Readable d host port)
    (hip : host.isIp = true) : Maps d c r relayAt host port ↔
      (port.val.toInt + 1 = (readPort d server).toInt ↔ port.val.toInt + 1 = r) ∧
        if port.val.toInt + 1 = r then relayAt ≠ some port.val.toInt ∧ port.val.toInt + 3 ≤ 65535
        else port.val.toInt + 2 ≤ 65535 := by
  have hmapped {path : List Char} {n : ℤ} :
      checkWs d c (hostPort host port) = some (endpointUrl c host path n) ↔
        wsPort port.val.toInt (readPort d server).toInt = n := mapped_ip h hread hip
  generalize (readPort d server).toInt = r' at hmapped
  constructor
  · intro hmaps
    have hbound := hmaps.bound hip [] _ (hmapped.mpr rfl)
    by_cases hline : port.val.toInt + 1 = r
    · have hid := hmapped.mp (hmaps.id (Or.inr hline))
      unfold wsPort at hid hbound
      rw [if_pos hline]
      split at hid
      · next hline' =>
        rw [if_pos hline'] at hbound
        refine ⟨iff_of_true hline' hline, fun heq => ?_, hbound⟩
        have hrelay := hmapped.mp (hmaps.relay (Or.inl heq))
        unfold wsPort at hrelay
        rw [if_pos hline'] at hrelay
        omega
      · omega
    · have htwo : wsPort port.val.toInt r' = port.val.toInt + 2 := by
        by_cases hid : port.val.toInt = r
        · have heq := hmapped.mp (hmaps.id (Or.inl hid))
          omega
        · exact hmapped.mp (hmaps.relay (Or.inr (Or.inr ⟨hid, hline⟩)))
      rw [htwo] at hbound
      rw [if_neg hline]
      refine ⟨iff_of_false (fun hline' => ?_) hline, hbound⟩
      unfold wsPort at htwo
      rw [if_pos hline'] at htwo
      omega
  · rintro ⟨hiff, hport⟩
    have hvalue : wsPort port.val.toInt r' =
        if port.val.toInt + 1 = r then port.val.toInt + 3 else port.val.toInt + 2 := by
      unfold wsPort
      simp only [hiff]
    constructor
    · intro hid
      refine hmapped.mpr (hvalue.trans ?_)
      split
      · omega
      · omega
    · intro hrelay
      refine hmapped.mpr (hvalue.trans (if_neg fun hline => ?_))
      rw [if_pos hline] at hport
      rcases hrelay with heq | heq | heq
      · exact hport.1 heq
      · omega
      · exact heq.2 hline
    · exact ⟨_, checkWs_readable h hread, checkWs_endpointUrl d c host _ _⟩
    · intro _ path n heq
      rw [← hmapped.mp heq, hvalue]
      split
      · next hline =>
        rw [if_pos hline] at hport
        exact hport.2
      · next hline =>
        rw [if_neg hline] at hport
        exact hport

theorem maps_domain_iff {r : ℤ} (hread : Readable d host port)
    (hip : host.isIp = false) : Maps d c r relayAt host port ↔
      (port.val.toInt = (readPort d server).toInt ∨
          port.val.toInt + 1 = (readPort d server).toInt ↔
        port.val.toInt = r ∨ port.val.toInt + 1 = r) ∧
      (relayAt = some port.val.toInt → port.val.toInt ≠ r ∧ port.val.toInt + 1 ≠ r) := by
  have hmapped {path : List Char} {n : ℤ} :
      checkWs d c (hostPort host port) = some (endpointUrl c host path n) ↔
        pathOf port.val.toInt (readPort d server).toInt = path := mapped_domain h hread hip
  generalize (readPort d server).toInt = r' at hmapped
  have hpath : pathOf port.val.toInt r' = "/ws/id".toList ↔
      port.val.toInt = r' ∨ port.val.toInt + 1 = r' := by
    unfold pathOf
    split
    · next hid => exact iff_of_true rfl hid
    · next hid => exact iff_of_false (by decide) hid
  have hpath' : pathOf port.val.toInt r' = "/ws/relay".toList ↔
      ¬ (port.val.toInt = r' ∨ port.val.toInt + 1 = r') := by
    unfold pathOf
    split
    · next hid => exact iff_of_false (by decide) (not_not.mpr hid)
    · next hid => exact iff_of_true rfl hid
  constructor
  · intro hmaps
    have hid (hid : port.val.toInt = r ∨ port.val.toInt + 1 = r) :=
      hpath.mp (hmapped.mp (hmaps.id hid))
    have hrelay (hrelay : relayAt = some port.val.toInt ∨ port.val.toInt = r + 1 ∨
        port.val.toInt ≠ r ∧ port.val.toInt + 1 ≠ r) :=
      hpath'.mp (hmapped.mp (hmaps.relay hrelay))
    refine ⟨⟨fun hr' => ?_, hid⟩, fun heq => ?_⟩
    · by_contra hr
      exact hrelay (Or.inr (Or.inr (not_or.mp hr))) hr'
    · exact not_or.mp fun hr => hrelay (Or.inl heq) (hid hr)
  · rintro ⟨hiff, hrelay⟩
    constructor
    · exact fun hid => hmapped.mpr (hpath.mpr (hiff.mpr hid))
    · intro hcase
      refine hmapped.mpr (hpath'.mpr fun hr' => ?_)
      have hr := hiff.mp hr'
      rcases hcase with heq | heq | heq
      · exact not_or.mpr (hrelay heq) hr
      · omega
      · exact not_or.mpr heq hr
    · exact ⟨_, checkWs_readable h hread, checkWs_endpointUrl d c host _ _⟩
    · exact fun hip' => absurd hip' (Bool.eq_false_iff.mp hip)

end Mapped

/-- **Exactly when an endpoint is mapped** as it should be. -/
theorem maps_iff_sound (d : DigitClass) (c : Config) (server : Server) (relay : Option Server)
    (host : Host) (port : Port) (h : Configured c server relay) :
    Maps d c (server.portOr rendezvousPort.toInt) (relay.map (Server.portOr relayPort.toInt)) host
        port ↔
      Sound d server (relay.map (Server.portOr relayPort.toInt)) host port := by
  unfold Sound
  by_cases hread : Readable d host port
  · rw [and_iff_right hread]
    split
    · next hip => exact maps_ip_iff h hread hip
    · next hip => exact maps_domain_iff h hread (Bool.eq_false_iff.mpr hip)
  · exact iff_of_false (not_maps_of_unreadable h hread) fun hsound => hread hsound.1

/-- A compressed address, and the servers where they are by default. -/
theorem maps_compressed :
    Maps asciiDigits { useWs := true, customRendezvousServer := "hbbs.example".toList }
      21116 none (.ipv6 "2001:db8::1".toList (by decide)) ⟨21115, by decide, by decide⟩ :=
  (maps_iff_sound asciiDigits _ (.host (.domain "hbbs.example".toList (by decide))) none _ _
    ⟨rfl, rfl, rfl⟩).mpr (by unfold Sound; decide +kernel)

/-- The loopback address comes back as it was, and so does a short name; a rendezvous server there
is not known by its port; and 65537 is no port. -/
theorem loopback_unmapped :
    (checkWs asciiDigits { useWs := true, customRendezvousServer := "hbbs.example".toList }
      (hostPort (.ipv6 "::1".toList (by decide)) ⟨21116, by decide, by decide⟩) =
        some "[::1]:21116".toList ∧
      idEndpoint { useWs := true } (.ipv6 "::1".toList (by decide)) 21116 =
        "ws://[::1]:21118".toList) ∧
    checkWs asciiDigits { useWs := true, customRendezvousServer := "hbbs.example:8080".toList }
      (hostPort (.domain "face".toList (by decide)) ⟨8080, by decide, by decide⟩) =
        some "face:8080".toList ∧
    checkWs asciiDigits { useWs := true, customRendezvousServer := "[::1]:30000".toList }
      (hostPort (.domain "hbbs.example".toList (by decide)) ⟨30000, by decide, by decide⟩) =
        some "ws://hbbs.example/ws/relay".toList ∧
    checkWs asciiDigits { useWs := true, customRendezvousServer := "hbbs.example".toList }
      (hostPort (.ipv4 ⟨10, 0, 0, 1⟩) ⟨65535, by decide, by decide⟩) =
        some "ws://10.0.0.1:65537".toList := by
  decide +kernel

end LibRustdesk.CheckWs
