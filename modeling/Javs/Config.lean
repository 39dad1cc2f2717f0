import Javs.ControlChannel

/-!
Addresses, the server configuration, and the `PUSH_REPLY` text built from it.
-/

namespace Javs

abbrev Ipv4Addr := UInt32
abbrev Ipv6Addr := BitVec 128

inductive IpAddr
  | v4 (a : Ipv4Addr)
  | v6 (a : Ipv6Addr)
  deriving DecidableEq, Repr

structure SocketAddr where
  ip : IpAddr
  port : UInt16
  deriving DecidableEq, Repr

/-! ### Printing addresses -/

def Ipv4Addr.show (a : Ipv4Addr) : Text :=
  let n := a.toNat
  dec (n / 2 ^ 24) ++ ['.'] ++ dec (n / 2 ^ 16 % 256) ++ ['.'] ++ dec (n / 2 ^ 8 % 256) ++ ['.'] ++
    dec (n % 256)

def Ipv6Addr.segments (a : Ipv6Addr) : List ℕ :=
  (List.range 8).map fun i => a.toNat / 2 ^ (112 - 16 * i) % 2 ^ 16

/-- Start and length of the first longest run of zero segments. -/
def zeroRun (segs : List ℕ) : ℕ × ℕ :=
  let round : (ℕ × ℕ) × (ℕ × ℕ) → ℕ × ℕ → (ℕ × ℕ) × (ℕ × ℕ) := fun (best, cur) (s, i) =>
    if s = 0 then
      let cur := (if cur.2 = 0 then i else cur.1, cur.2 + 1)
      (if cur.2 > best.2 then cur else best, cur)
    else (best, (0, 0))
  (segs.zipIdx.foldl round ((0, 0), (0, 0))).1

def showSegments (segs : List ℕ) : Text := [':'].intercalate (segs.map (Nat.toDigits 16))

def Ipv6Addr.show (a : Ipv6Addr) : Text :=
  let segs := a.segments
  if segs.take 6 = [0, 0, 0, 0, 0, 0xffff] then
    "::ffff:".toList ++ Ipv4Addr.show (UInt32.ofNat (a.toNat % 2 ^ 32))
  else
    let (start, len) := zeroRun segs
    if len > 1 then
      showSegments (segs.take start) ++ "::".toList ++ showSegments (segs.drop (start + len))
    else showSegments segs

def IpAddr.show : IpAddr → Text
  | .v4 a => Ipv4Addr.show a
  | .v6 a => Ipv6Addr.show a

/-! ### Configuration -/

structure ClientConfig where
  assignIp : Option IpAddr := none
  pushRoutes : List Text := []
  deriving DecidableEq, Repr

structure ServerConfig where
  tunIp : IpAddr
  tunNetmask : IpAddr
  clientPoolStart : IpAddr
  clientPoolEnd : IpAddr
  cipher : Text := "AES-256-GCM".toList
  tunMtu : UInt16 := 1500
  pushRoutes : List Text := []
  pushDns : List IpAddr := []
  tunIp6 : Option IpAddr := none
  tunPrefix6 : UInt8 := 64
  clientPoolStartV6 : Option IpAddr := none
  clientPoolEndV6 : Option IpAddr := none
  pushRoutesV6 : List Text := []
  keepalivePing : UInt32 := 10
  keepaliveTimeout : UInt32 := 120
  renegSec : UInt32 := 3600
  /-- Per-client overrides, keyed by the common name in the client certificate. -/
  clientConfigs : Text → Option ClientConfig := fun _ => none

structure Pools where
  start : Ipv4Addr
  stop : Ipv4Addr
  v6 : Option (Ipv6Addr × Ipv6Addr)
  deriving DecidableEq, Repr

/-- The address checks of `VpnServer::new`. -/
def ServerConfig.pools (cfg : ServerConfig) : Res Pools := do
  let start ← match cfg.clientPoolStart with
    | .v4 a => pure a
    | .v6 _ => throw (.bail "client_pool_start must be IPv4 (use *_v6 for IPv6)")
  let stop ← match cfg.clientPoolEnd with
    | .v4 a => pure a
    | .v6 _ => throw (.bail "client_pool_end must be IPv4 (use *_v6 for IPv6)")
  match cfg.tunIp6, cfg.clientPoolStartV6, cfg.clientPoolEndV6 with
  | none, _, _ => return ⟨start, stop, none⟩
  | some _, some (.v6 s), some (.v6 e) => return ⟨start, stop, some (s, e)⟩
  | some _, _, _ => throw (.bail
      "tun_ip6 is set but client_pool_start_v6 / client_pool_end_v6 is missing or non-v6")

def ServerConfig.clientConfig (cfg : ServerConfig) (cn : Option Text) : Option ClientConfig :=
  cn.bind cfg.clientConfigs

/-! ### PUSH_REPLY -/

def netmaskOf : IpAddr → Ipv4Addr
  | .v4 a => a
  | .v6 _ => 0xFFFFFF00

/-- `str::parse::<u32>`: an optional plus sign and at least one digit, in range. -/
def parseU32 (t : Text) : Option ℕ :=
  let digits := if t.head? = some '+' then t.tail else t
  if digits ≠ [] ∧ digits.all Char.isDigit then
    let n := digits.foldl (fun n c => 10 * n + (c.toNat - 48)) 0
    if n < 2 ^ 32 then some n else none
  else none

def cidrToRoute (cidr : Text) : Option (Text × Text) := do
  let idx ← cidr.findIdx? (· = '/')
  let bits ← parseU32 (cidr.drop (idx + 1))
  if bits > 32 then none
  else
    let mask : UInt32 := if bits = 0 then 0 else 0xFFFFFFFF <<< UInt32.ofNat (32 - bits)
    some (cidr.take idx, Ipv4Addr.show mask)

def routeDirective (r : Text) : Text :=
  if r = "0.0.0.0/0".toList then []
  else
    match cidrToRoute r with
    | some (net, mask) => ",route ".toList ++ net ++ [' '] ++ mask
    | none => []

def buildPushReply (cfg : ServerConfig) (clientIp : Ipv4Addr) (clientIp6 : Option Ipv6Addr)
    (peerId : UInt32) (extraRoutes : List Text) : Bytes :=
  let routes := cfg.pushRoutes ++ extraRoutes
  let text := "PUSH_REPLY,ifconfig ".toList ++ Ipv4Addr.show clientIp ++ [' '] ++
    Ipv4Addr.show (netmaskOf cfg.tunNetmask) ++ ",topology subnet".toList ++
    ",route-gateway ".toList ++ cfg.tunIp.show ++
    (match cfg.tunIp6, clientIp6 with
      | some (.v6 server6), some client6 =>
        ",ifconfig-ipv6 ".toList ++ Ipv6Addr.show client6 ++ ['/'] ++ dec cfg.tunPrefix6.toNat ++
          [' '] ++ Ipv6Addr.show server6
      | _, _ => []) ++
    routes.flatMap routeDirective ++
    (if routes.contains "0.0.0.0/0".toList then ",redirect-gateway def1 bypass-dhcp".toList
      else []) ++
    cfg.pushRoutesV6.flatMap (fun r => ",route-ipv6 ".toList ++ r) ++
    cfg.pushDns.flatMap (fun d => ",dhcp-option DNS ".toList ++ d.show) ++
    ",ping ".toList ++ dec cfg.keepalivePing.toNat ++ ",ping-restart ".toList ++
    dec cfg.keepaliveTimeout.toNat ++ ",cipher AES-256-GCM".toList ++ ",peer-id ".toList ++
    dec peerId.toNat
  utf8 text ++ [0]

end Javs
