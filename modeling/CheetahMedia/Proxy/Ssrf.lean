import CheetahMedia.Lib.Checked
import CheetahMedia.Lib.IpAddr

namespace CheetahMedia.Proxy
open Lib

/-- The invalid arguments, by what their messages are filled with. -/
inductive SsrfError
  | invalidCidr (s : Text)
  | invalidCidrPrefix (s : Text)
  | invalidCidrAddress (s : Text)
  | prefixExceedsMaximum (prefixLen maxPrefix : Nat) (s : Text)
  | forbiddenTarget (addr : IpAddr)
deriving DecidableEq

inductive IpNetwork
  | v4 (network : Ipv4Addr) (prefixLen : Nat)
  | v6 (network : Ipv6Addr) (prefixLen : Nat)
deriving DecidableEq

/-- The mask of either family, by the width of its addresses. -/
def maskOf (w prefixLen : Nat) : BitVec w :=
  if prefixLen = 0 then 0
  else if w ≤ prefixLen then BitVec.allOnes w
  else BitVec.allOnes w <<< (w - prefixLen)

namespace IpNetwork

def contains : IpNetwork → IpAddr → Bool
  | .v4 network prefixLen, .v4 addr =>
    addr.bits &&& maskOf 32 prefixLen = network.bits &&& maskOf 32 prefixLen
  | .v6 network prefixLen, .v6 addr =>
    addr.bits &&& maskOf 128 prefixLen = network.bits &&& maskOf 128 prefixLen
  -- Different address families never match.
  | _, _ => false

def of (addr : IpAddr) (prefixLen : Nat) : IpNetwork :=
  match addr with
  | .v4 a => .v4 a prefixLen
  | .v6 a => .v6 a prefixLen

end IpNetwork

def maxPrefix : IpAddr → Nat
  | .v4 _ => 32
  | .v6 _ => 128

def parseCidr (s : Text) : Except SsrfError IpNetwork :=
  let s := Text.trim s
  match Text.rsplitOnce '/' s with
  | none => match Text.parseIpAddr s with
    -- A bare address is treated as a /32 or /128 host route.
    | some addr => .ok (.of addr (maxPrefix addr))
    | none => .error (.invalidCidr s)
  | some (addrPart, prefixPart) => match Text.parseUnsigned 8 (Text.trim prefixPart) with
    | none => .error (.invalidCidrPrefix s)
    | some prefixLen => match Text.parseIpAddr (Text.trim addrPart) with
      | none => .error (.invalidCidrAddress s)
      | some addr =>
        if maxPrefix addr < prefixLen then
          .error (.prefixExceedsMaximum prefixLen (maxPrefix addr) s)
        else .ok (.of addr prefixLen)

def parseAllowlist (cidrs : List Text) : Except SsrfError (List IpNetwork) := cidrs.mapM parseCidr

def normalizeIp : IpAddr → IpAddr
  | .v6 a => match a.toIpv4Mapped with
    | some mapped => .v4 mapped
    | none => .v6 a
  | other => other

def isIpv6UniqueLocal (a : Ipv6Addr) : Bool := a.segment 0 &&& 0xfe00 = 0xfc00

def isIpv6LinkLocal (a : Ipv6Addr) : Bool := a.segment 0 &&& 0xffc0 = 0xfe80

def isInternalV4 (a : Ipv4Addr) : Bool :=
  a.isLoopback || a.isPrivate || a.isLinkLocal || a.isUnspecified || a.isMulticast ||
    a.isBroadcast || a.isDocumentation

def isInternalIp : IpAddr → Bool
  | .v4 a => isInternalV4 a
  | .v6 a => match a.toIpv4Mapped with
    | some mapped => isInternalV4 mapped
    | none =>
      isIpv6UniqueLocal a || isIpv6LinkLocal a || a.isLoopback || a.isUnspecified || a.isMulticast

def checkIpAddr (addr : IpAddr) (allowlist : List IpNetwork) : Except SsrfError Unit :=
  let addr := normalizeIp addr
  if isInternalIp addr && !allowlist.any (·.contains addr) then .error (.forbiddenTarget addr)
  else .ok ()

theorem normalizeIp_eq (ip : IpAddr) : normalizeIp ip = ip.toCanonical := by
  cases ip <;> rfl

theorem maskOf_eq (w p : Nat) : maskOf w p = prefixMask w (min p w) := by
  unfold maskOf prefixMask
  by_cases hzero : p = 0
  · rw [if_pos hzero, if_pos (by omega)]
  · rw [if_neg hzero]
    by_cases hw : w ≤ p
    · rw [if_pos hw, Nat.min_eq_right hw, Nat.sub_self, BitVec.shiftLeft_zero]
      split
      · rename_i hw
        subst hw
        exact BitVec.eq_of_zero_length rfl
      · rfl
    · rw [if_neg hw, Nat.min_eq_left (by omega), if_neg hzero]

theorem and_maskOf_eq_iff {a b : BitVec w} :
    b &&& maskOf w p = a &&& maskOf w p ↔ SharesPrefix p a b := by
  rw [maskOf_eq, eq_comm, and_prefixMask_eq_iff (Nat.min_le_right ..), sharesPrefix_min]

theorem IpNetwork.of_contains (c : Cidr) (ip : IpAddr) :
    (IpNetwork.of c.addr c.prefixLen).contains ip = true ↔ c.Covers ip := by
  obtain ⟨addr | addr, p⟩ := c <;> rcases ip with ip | ip
  · exact decide_eq_true_iff.trans and_maskOf_eq_iff
  · exact iff_of_false Bool.false_ne_true id
  · exact iff_of_false Bool.false_ne_true id
  · exact decide_eq_true_iff.trans and_maskOf_eq_iff

/-- A text that reads as a block is parsed to it, unless its prefix is too long. -/
theorem parseCidr_of_reads (h : Cidr.Reads s c) :
    parseCidr s =
      if maxPrefix c.addr < c.prefixLen then
        .error (.prefixExceedsMaximum c.prefixLen (maxPrefix c.addr) s)
      else .ok (.of c.addr c.prefixLen) := by
  obtain ⟨a, p, rfl, haddr, hprefix⟩ := h
  have ha : ∀ c ∈ a, Text.isWhitespace c = false := fun c hc =>
    (Text.isAddrChar_of_parseIpAddr haddr c hc).not_isWhitespace
  have hp : ∀ c ∈ p, Text.isWhitespace c = false ∧ c ≠ '/' := by
    intro c hc
    rcases Text.isDigit_of_parseUnsigned hprefix hc with hdigit | rfl
    · refine ⟨Text.not_isWhitespace_of_isDigit hdigit, ?_⟩
      rintro rfl
      cases hdigit
    · exact ⟨rfl, by decide⟩
  have htrim : Text.trim (a ++ '/' :: p) = a ++ '/' :: p := by
    refine Text.trim_word fun c hc => ?_
    rcases List.mem_append.mp hc with hc | hc
    · exact ha c hc
    · rcases List.mem_cons.mp hc with rfl | hc
      · rfl
      · exact (hp c hc).1
  have hslash : '/' ∉ p := fun hc => (hp _ hc).2 rfl
  unfold parseCidr
  dsimp only
  rw [htrim, Text.rsplitOnce_append hslash]
  dsimp only
  rw [Text.trim_word fun c hc => (hp c hc).1, Text.trim_word ha, hprefix, haddr]

theorem of_parseCidr (hreads : Cidr.Reads s c) (h : parseCidr s = .ok network) :
    network = .of c.addr c.prefixLen := by
  rw [parseCidr_of_reads hreads] at h
  split at h
  · cases h
  · exact (Except.ok.inj h).symm

end CheetahMedia.Proxy
