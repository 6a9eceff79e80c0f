import CheetahMedia.Lib.Checked
import CheetahMedia.Lib.IpAddr

namespace CheetahMedia.Webhook
open Lib

inductive IpNetParseError
  | missingSlash
  | invalidPrefix
  | invalidAddress
deriving DecidableEq

/-- `Ipv4Net` and `Ipv6Net`, by the width of their addresses. -/
structure Net (w : Nat) where
  addr : BitVec w
  mask : BitVec w
  prefixLen : Nat
deriving DecidableEq

namespace Net

def new (addr : BitVec w) (prefixLen : Nat) : Net w :=
  let prefixLen := min prefixLen w
  let shift := w - prefixLen
  let mask := if prefixLen = 0 then 0 else BitVec.allOnes w <<< shift
  { addr := addr &&& mask, mask, prefixLen }

def contains (net : Net w) (ip : BitVec w) : Bool := ip &&& net.mask = net.addr

end Net

inductive IpNet
  | v4 (net : Net 32)
  | v6 (net : Net 128)
deriving DecidableEq

namespace IpNet

def contains : IpNet → IpAddr → Bool
  | .v4 net, .v4 ip => net.contains ip.bits
  | .v6 net, .v6 ip => net.contains ip.bits
  | _, _ => false

def fromStr (s : Text) : Except IpNetParseError IpNet :=
  match Text.splitOnce '/' s with
  | none => .error .missingSlash
  | some (addrStr, prefixStr) => match Text.parseUnsigned 8 prefixStr with
    | none => .error .invalidPrefix
    | some prefixLen => match Text.parseIpv4Addr addrStr with
      | some a => .ok (.v4 (Net.new a.bits prefixLen))
      | none => match Text.parseIpv6Addr addrStr with
        | some a => .ok (.v6 (Net.new a.bits prefixLen))
        | none => .error .invalidAddress

end IpNet

def canonicalizeIp : IpAddr → IpAddr
  | .v6 a => match a.toIpv4Mapped with
    | some mapped => .v4 mapped
    | none => .v6 a
  | other => other

def isLoopbackOrLinkLocal : IpAddr → Bool
  | .v4 a => a.isLoopback || a.isLinkLocal
  | .v6 a => a.isLoopback || a.isUnicastLinkLocal

def isMetadataService (ip : IpAddr) : Bool := ip = .v4 (.ofOctets [169, 254, 169, 254])

def isPrivateOrUnspecified : IpAddr → Bool
  | .v4 a => a.isPrivate || a.isUnspecified
  | .v6 a => a.isUnspecified || a.isUniqueLocal

structure WebhookUrlPolicy where
  allowedCidrs : List IpNet
  blockPrivate : Bool
deriving DecidableEq

namespace WebhookUrlPolicy

def fromCidrStrings (cidrs : List Text) : Except IpNetParseError WebhookUrlPolicy := do
  let allowedCidrs ← cidrs.mapM IpNet.fromStr
  pure { allowedCidrs, blockPrivate := true }

def default : WebhookUrlPolicy := { allowedCidrs := [], blockPrivate := true }

def isAllowed (policy : WebhookUrlPolicy) (ip : IpAddr) : Bool :=
  let ip := canonicalizeIp ip
  if policy.allowedCidrs.any (·.contains ip) then true
  else if isLoopbackOrLinkLocal ip then false
  else if isMetadataService ip then false
  else if isPrivateOrUnspecified ip then false
  else true

end WebhookUrlPolicy

structure SocketAddr where
  ip : IpAddr
  port : Nat

/-- URL parts that the HTTP client needs. -/
structure ParsedUrl where
  scheme : Text
  host : Text
  port : Nat
  pathAndQuery : Text

inductive WebhookUrlVerdict
  | allow (addr : SocketAddr) (parsed : ParsedUrl)
  | deny (reason : Text)

inductive WebhookSecurityError
  | unsupportedScheme (scheme : Text)
  | missingHost
  | blockedAddress (ip : IpAddr)
  | resolutionFailed (reason : Text)
  | invalidUrl (reason : Text)

/-- What the URL library reports of a URL. -/
structure Url where
  scheme : Text
  host : Option Text
  portOrKnownDefault : Option Nat
  path : Text
  query : Option Text

def Url.pathAndQuery (url : Url) : Text :=
  match url.query with
  | some query => url.path ++ '?' :: query
  | none => url.path

/-- The addresses that a `host:port` resolves to at some moment. -/
abbrev Resolver := Text → Except Text (List SocketAddr)

/-- A policy that does not block private addresses lets every address pass. -/
def WebhookUrlPolicy.permits (policy : WebhookUrlPolicy) (ip : IpAddr) : Bool :=
  !policy.blockPrivate || policy.isAllowed ip

def WebhookUrlPolicy.evaluate (policy : WebhookUrlPolicy) (parse : Text → Except Text Url)
    (toSocketAddrs : Resolver) (url : Text) : Except WebhookSecurityError WebhookUrlVerdict := do
  let parsed ← (parse url).mapError .invalidUrl
  ensure (parsed.scheme = "http".toList || parsed.scheme = "https".toList)
    (.unsupportedScheme parsed.scheme)
  let host ← parsed.host.elim (throw .missingHost) pure
  let port ← parsed.portOrKnownDefault.elim
    (throw (.resolutionFailed "unknown port".toList)) pure
  let addrs ← (toSocketAddrs (host ++ ':' :: Text.decimal port)).mapError .resolutionFailed
  let addr ← addrs.head?.elim (throw (.resolutionFailed ("no address for ".toList ++ host))) pure
  ensure (policy.permits addr.ip) (.blockedAddress addr.ip)
  pure (.allow addr { scheme := parsed.scheme, host, port, pathAndQuery := parsed.pathAndQuery })

theorem WebhookUrlPolicy.of_evaluate {policy : WebhookUrlPolicy}
    (h : policy.evaluate parse toSocketAddrs url = .ok verdict) :
    ∃ addr parsed, verdict = .allow addr parsed ∧ policy.permits addr.ip = true := by
  unfold evaluate at h
  obtain ⟨parsed, _, h⟩ := of_bind_ok h
  obtain ⟨_, _, h⟩ := of_bind_ok h
  obtain ⟨host, _, h⟩ := of_bind_ok h
  obtain ⟨port, _, h⟩ := of_bind_ok h
  obtain ⟨addrs, _, h⟩ := of_bind_ok h
  obtain ⟨addr, _, h⟩ := of_bind_ok h
  obtain ⟨_, hpermits, h⟩ := of_bind_ok h
  cases h
  exact ⟨addr, _, rfl, of_ensure hpermits⟩

theorem canonicalizeIp_eq (ip : IpAddr) : canonicalizeIp ip = ip.toCanonical := by
  cases ip <;> rfl

theorem Net.new_contains (addr ip : BitVec w) :
    (Net.new addr p).contains ip = true ↔ SharesPrefix p addr ip := by
  have hmask : (Net.new addr p).mask = prefixMask w (min p w) := rfl
  have haddr : (Net.new addr p).addr = addr &&& prefixMask w (min p w) := rfl
  rw [Net.contains, decide_eq_true_iff, hmask, haddr, eq_comm,
    and_prefixMask_eq_iff (Nat.min_le_right ..), sharesPrefix_min]

/-- An accepted text is a block, and its net contains what the block covers. -/
theorem IpNet.of_fromStr (h : fromStr s = .ok net) :
    ∃ c, Cidr.Reads s c ∧ ∀ ip, net.contains ip = true ↔ c.Covers ip := by
  unfold fromStr at h
  split at h
  · cases h
  · rename_i a p hsplit
    obtain ⟨rfl, _⟩ := Text.of_splitOnce hsplit
    split at h
    · cases h
    · rename_i prefixLen hprefix
      split at h
      · rename_i addr haddr
        cases h
        refine ⟨⟨.v4 addr, prefixLen⟩, ⟨a, p, rfl, Text.parseIpAddr_of_v4 haddr, hprefix⟩, ?_⟩
        rintro (ip | ip)
        · exact Net.new_contains addr.bits ip.bits
        · exact iff_of_false Bool.false_ne_true id
      · split at h
        · rename_i addr haddr
          cases h
          refine ⟨⟨.v6 addr, prefixLen⟩, ⟨a, p, rfl, Text.parseIpAddr_of_v6 haddr, hprefix⟩, ?_⟩
          rintro (ip | ip)
          · exact iff_of_false Bool.false_ne_true id
          · exact Net.new_contains addr.bits ip.bits
        · cases h

theorem WebhookUrlPolicy.of_fromCidrStrings (h : fromCidrStrings cidrs = .ok policy) :
    List.Forall₂ (fun s net => IpNet.fromStr s = .ok net) cidrs policy.allowedCidrs := by
  obtain ⟨nets, hnets, hpolicy⟩ := of_bind_ok h
  cases hpolicy
  exact forall₂_of_mapM hnets

end CheetahMedia.Webhook
