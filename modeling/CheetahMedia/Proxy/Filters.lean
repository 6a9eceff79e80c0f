import CheetahMedia.Proxy.Ssrf
import CheetahMedia.Webhook.Security

namespace CheetahMedia.Proxy
open Lib Webhook

/-- Addresses that no filter is to let through by itself. -/
def isSpecial : IpAddr → Bool
  | .v4 a =>
    a.isLoopback || a.isLinkLocal || a.isPrivate || a.isUnspecified || a.isMulticast ||
      a.isBroadcast || a.isDocumentation
  | .v6 a =>
    a.isLoopback || a.isUnicastLinkLocal || a.isUniqueLocal || a.isUnspecified || a.isMulticast ||
      a.isDocumentation

/-- The special addresses that the webhook filter does not know; the proxy filter knows them but
for the IPv6 documentation blocks. -/
def isOverlooked : IpAddr → Bool
  | .v4 a => a.isMulticast || a.isBroadcast || a.isDocumentation
  | .v6 a => a.isMulticast || a.isDocumentation

/-- What the webhook filter refuses outside its list. -/
def isBlocked (ip : IpAddr) : Bool :=
  isLoopbackOrLinkLocal ip || isMetadataService ip || isPrivateOrUnspecified ip

theorem isLinkLocal_of_isMetadataService (h : isMetadataService ip = true) :
    isLoopbackOrLinkLocal ip = true := by
  obtain rfl := of_decide_eq_true h
  decide

theorem isBlocked_eq (ip : IpAddr) :
    isBlocked ip = (isLoopbackOrLinkLocal ip || isPrivateOrUnspecified ip) := by
  unfold isBlocked
  cases h : isMetadataService ip with
  | false => rw [Bool.or_false]
  | true => rw [isLinkLocal_of_isMetadataService h, Bool.true_or, Bool.true_or]

theorem isSpecial_eq (ip : IpAddr) : isSpecial ip = (isBlocked ip || isOverlooked ip) := by
  rw [isBlocked_eq]
  rcases ip with a | a
  · simp only [isSpecial, isLoopbackOrLinkLocal, isPrivateOrUnspecified, isOverlooked, Bool.or_assoc]
  · simp only [isSpecial, isLoopbackOrLinkLocal, isPrivateOrUnspecified, isOverlooked, Bool.or_assoc]
    cases a.isUniqueLocal <;> cases a.isUnspecified <;> simp

theorem octet_of_isUnspecified {a : Ipv4Addr} (h : a.isUnspecified = true) : a.octet i = 0 := by
  have hbits : a.bits = 0 := of_decide_eq_true h
  rw [Ipv4Addr.octet, hbits]
  exact Nat.zero_mod _ ▸ congrArg (· % 256) (Nat.zero_div _)

theorem octet_of_isBroadcast {a : Ipv4Addr} (h : a.isBroadcast = true) : a.octet 0 = 255 := by
  have hbits : a.bits = BitVec.allOnes 32 := of_decide_eq_true h
  rw [Ipv4Addr.octet, hbits]
  rfl

/-- The first octet of what the webhook filter blocks, with what tells it from documentation. -/
theorem octets_of_blocked {a : Ipv4Addr} (h : isBlocked (.v4 a) = true) :
    a.octet 0 = 0 ∨ a.octet 0 = 10 ∨ a.octet 0 = 127 ∨ a.octet 0 = 169 ∨ a.octet 0 = 172 ∨
      (a.octet 0 = 192 ∧ a.octet 1 = 168) := by
  rw [isBlocked_eq] at h
  simp only [isLoopbackOrLinkLocal, isPrivateOrUnspecified, Bool.or_eq_true] at h
  rcases h with (h | h) | (h | h)
  · exact .inr (.inr (.inl (of_decide_eq_true h)))
  · simp only [Ipv4Addr.isLinkLocal, Bool.and_eq_true, decide_eq_true_eq] at h
    exact .inr (.inr (.inr (.inl h.1)))
  · simp only [Ipv4Addr.isPrivate, Bool.or_eq_true, Bool.and_eq_true, decide_eq_true_eq] at h
    omega
  · exact .inl (octet_of_isUnspecified h)

theorem octets_of_overlooked {a : Ipv4Addr} (h : isOverlooked (.v4 a) = true) :
    198 ≤ a.octet 0 ∨ (a.octet 0 = 192 ∧ a.octet 1 = 0) := by
  simp only [isOverlooked, Bool.or_eq_true] at h
  rcases h with (h | h) | h
  · simp only [Ipv4Addr.isMulticast, Bool.and_eq_true, decide_eq_true_eq] at h
    omega
  · rw [octet_of_isBroadcast h]
    exact .inl (by decide)
  · simp only [Ipv4Addr.isDocumentation, Bool.or_eq_true, Bool.and_eq_true, decide_eq_true_eq] at h
    omega

/-- A mask that lies within another sees no more than that one. -/
theorem and_of_and {s m n v : BitVec 16} (h : s &&& n = v) (hmn : n &&& m = m) : s &&& m = v &&& m := by
  rw [← h, BitVec.and_assoc, hmn]

/-- The first group of what the webhook filter blocks. -/
theorem segment_of_blocked {a : Ipv6Addr} (h : isBlocked (.v6 a) = true) :
    a.segment 0 = 0 ∨ a.segment 0 &&& 0xffc0 = 0xfe80 ∨ a.segment 0 &&& 0xfe00 = 0xfc00 := by
  rw [isBlocked_eq] at h
  simp only [isLoopbackOrLinkLocal, isPrivateOrUnspecified, Bool.or_eq_true] at h
  rcases h with (h | h) | (h | h)
  · have hbits : a.bits = 1 := of_decide_eq_true h
    exact .inl (by rw [Ipv6Addr.segment, hbits]; rfl)
  · exact .inr (.inl (of_decide_eq_true h))
  · have hbits : a.bits = 0 := of_decide_eq_true h
    exact .inl (by rw [Ipv6Addr.segment, hbits]; rfl)
  · exact .inr (.inr (of_decide_eq_true h))

theorem segment_of_overlooked {a : Ipv6Addr} (h : isOverlooked (.v6 a) = true) :
    a.segment 0 &&& 0xff00 = 0xff00 ∨ a.segment 0 = 0x2001 ∨ a.segment 0 = 0x3fff := by
  rcases Bool.or_eq_true _ _ |>.mp h with h | h
  · exact .inl (of_decide_eq_true h)
  · simp only [Ipv6Addr.isDocumentation, Bool.or_eq_true, Bool.and_eq_true, decide_eq_true_eq] at h
    exact .inr (h.imp And.left And.left)

theorem not_isOverlooked_of_isBlocked (h : isBlocked ip = true) : isOverlooked ip = false := by
  refine Bool.eq_false_iff.mpr fun hover => ?_
  rcases ip with a | a
  · have hblocked := octets_of_blocked h
    have hoverlooked := octets_of_overlooked hover
    omega
  · rcases segment_of_overlooked hover with hmulticast | hdoc
    · rcases segment_of_blocked h with hzero | hlocal | hunique
      · rw [hzero] at hmulticast
        exact absurd hmulticast (by decide)
      · have hmask := and_of_and (m := 0xff00) hlocal (by decide)
        rw [hmulticast] at hmask
        exact absurd hmask (by decide)
      · have hmask := and_of_and (m := 0xfe00) hmulticast (by decide)
        rw [hunique] at hmask
        exact absurd hmask (by decide)
    · rcases hdoc with hdoc | hdoc <;> rcases segment_of_blocked h with hlow | hlow | hlow <;>
        rw [hdoc] at hlow <;> exact absurd hlow (by decide)

/-- No IPv4-mapped address is left. -/
theorem toIpv4Mapped_of_toCanonical {ip : IpAddr} (h : ip.toCanonical = .v6 a) :
    a.toIpv4Mapped = none := by
  rcases ip with b | b
  · cases h
  · cases hmapped : b.toIpv4Mapped with
    | some mapped =>
      rw [IpAddr.toCanonical, hmapped] at h
      cases h
    | none =>
      rw [IpAddr.toCanonical, hmapped] at h
      cases h
      exact hmapped

/-- The proxy filter knows every special address but the IPv6 documentation. -/
theorem isInternalIp_of_blocked (hcanonical : ip.toCanonical = ip) (h : isBlocked ip = true) :
    isInternalIp ip = true := by
  rw [isBlocked_eq] at h
  simp only [isLoopbackOrLinkLocal, isPrivateOrUnspecified] at h
  rcases ip with a | a
  · simp only [isInternalIp, isInternalV4]
    dsimp only at h
    simp only [Bool.or_eq_true] at h ⊢
    tauto
  · simp only [isInternalIp, toIpv4Mapped_of_toCanonical hcanonical]
    dsimp only at h
    simp only [Bool.or_eq_true] at h ⊢
    rcases h with (h | h) | (h | h)
    · exact .inl (.inl (.inr h))
    · exact .inl (.inl (.inl (.inr h)))
    · exact .inl (.inr h)
    · exact .inl (.inl (.inl (.inl h)))

theorem isBlocked_of_isInternalIp (hcanonical : ip.toCanonical = ip) (h : isInternalIp ip = true) :
    isBlocked ip = true ∨ isOverlooked ip = true := by
  rw [isBlocked_eq, ← Bool.or_eq_true]
  rcases ip with a | a
  · simp only [isInternalIp, isInternalV4, Bool.or_eq_true] at h
    simp only [isLoopbackOrLinkLocal, isPrivateOrUnspecified, isOverlooked, Bool.or_eq_true]
    tauto
  · simp only [isInternalIp, toIpv4Mapped_of_toCanonical hcanonical, Bool.or_eq_true] at h
    simp only [isLoopbackOrLinkLocal, isPrivateOrUnspecified, isOverlooked, Bool.or_eq_true]
    rcases h with (((h | h) | h) | h) | h
    · exact .inl (.inr (.inr h))
    · exact .inl (.inl (.inr h))
    · exact .inl (.inl (.inl h))
    · exact .inl (.inr (.inl h))
    · exact .inr (.inl h)

theorem toCanonical_toCanonical (ip : IpAddr) : ip.toCanonical.toCanonical = ip.toCanonical := by
  cases hcanonical : ip.toCanonical with
  | v4 a => rfl
  | v6 a => rw [IpAddr.toCanonical, toIpv4Mapped_of_toCanonical hcanonical]

theorem isAllowed_iff (policy : WebhookUrlPolicy) (ip : IpAddr) :
    policy.isAllowed ip = true ↔
      policy.allowedCidrs.any (·.contains ip.toCanonical) = true ∨
        isBlocked ip.toCanonical = false := by
  unfold WebhookUrlPolicy.isAllowed isBlocked
  rw [canonicalizeIp_eq]
  dsimp only
  cases policy.allowedCidrs.any (·.contains ip.toCanonical) <;>
    cases isLoopbackOrLinkLocal ip.toCanonical <;> cases isMetadataService ip.toCanonical <;>
    cases isPrivateOrUnspecified ip.toCanonical <;> decide

theorem checkIpAddr_iff (ip : IpAddr) (allowlist : List IpNetwork) :
    checkIpAddr ip allowlist = .ok () ↔
      allowlist.any (·.contains ip.toCanonical) = true ∨ isInternalIp ip.toCanonical = false := by
  unfold checkIpAddr
  rw [normalizeIp_eq]
  dsimp only
  cases isInternalIp ip.toCanonical <;> cases allowlist.any (·.contains ip.toCanonical) <;> simp

/-- The entries of a list that was accepted: each reads as a block, and matches what it covers. -/
def EntriesMatch (contains : α → IpAddr → Bool) (cidrs : List Text) (nets : List α) : Prop :=
  List.Forall₂ (fun s net => ∃ c, Cidr.Reads s c ∧ ∀ x, contains net x = true ↔ c.Covers x) cidrs nets

/-- A list contains what one of its texts stands for. -/
theorem EntriesMatch.any_iff {contains : α → IpAddr → Bool} (h : EntriesMatch contains cidrs nets)
    (ip : IpAddr) : nets.any (contains · ip) = true ↔ Cidr.Listed cidrs ip := by
  induction h with
  | nil => simp [Cidr.Listed]
  | @cons s net cidrs nets hentry _ ih =>
    obtain ⟨c, hreads, hcovers⟩ := hentry
    rw [List.any_cons, Bool.or_eq_true, hcovers, ih]
    constructor
    · rintro (hc | ⟨t, ht, hlisted⟩)
      · exact ⟨s, List.mem_cons_self, c, hreads, hc⟩
      · exact ⟨t, List.mem_cons_of_mem s ht, hlisted⟩
    · rintro ⟨t, ht, d, hd, hlisted⟩
      rcases List.mem_cons.mp ht with rfl | ht
      · exact .inl (hd.unique hreads ▸ hlisted)
      · exact .inr ⟨t, ht, d, hd, hlisted⟩

theorem entriesMatch_webhook (h : WebhookUrlPolicy.fromCidrStrings cidrs = .ok policy) :
    EntriesMatch IpNet.contains cidrs policy.allowedCidrs :=
  (WebhookUrlPolicy.of_fromCidrStrings h).imp fun _ _ => IpNet.of_fromStr

/-- The proxy's parser knows more spellings, but reads those of the webhook's alike. -/
theorem entriesMatch_proxy (h : EntriesMatch IpNet.contains cidrs nets)
    (hparsed : parseAllowlist cidrs = .ok allowlist) :
    EntriesMatch IpNetwork.contains cidrs allowlist := by
  replace hparsed := forall₂_of_mapM hparsed
  unfold EntriesMatch at h ⊢
  induction h generalizing allowlist with
  | nil =>
    cases hparsed
    exact .nil
  | cons hentry _ ih =>
    cases hparsed with
    | cons hnetwork hrest =>
      obtain ⟨c, hreads, _⟩ := hentry
      obtain rfl := of_parseCidr hreads hnetwork
      exact .cons ⟨c, hreads, IpNetwork.of_contains c⟩ (ih hrest)

/-- One verdict from both filters, which refuse every special address that is not listed, and
entries that match the addresses with their prefix. -/
structure FiltersAgree (cidrs : List Text) (policy : WebhookUrlPolicy) (allowlist : List IpNetwork)
    (ip : IpAddr) : Prop where
  verdict : policy.isAllowed ip = true ↔ checkIpAddr ip allowlist = .ok ()
  refused : isSpecial ip.toCanonical = true → ¬ Cidr.Listed cidrs ip.toCanonical →
    policy.isAllowed ip = false ∧ checkIpAddr ip allowlist ≠ .ok ()
  webhookEntries : EntriesMatch IpNet.contains cidrs policy.allowedCidrs
  proxyEntries : EntriesMatch IpNetwork.contains cidrs allowlist

/-- The filters agree on an address unless it is multicast, broadcast or documentation and not
listed. -/
theorem filtersAgree_iff (hpolicy : WebhookUrlPolicy.fromCidrStrings cidrs = .ok policy)
    (hallowlist : parseAllowlist cidrs = .ok allowlist) (ip : IpAddr) :
    FiltersAgree cidrs policy allowlist ip ↔
      (Cidr.Listed cidrs ip.toCanonical ∨ isOverlooked ip.toCanonical = false) := by
  have hwebhook := entriesMatch_webhook hpolicy
  have hproxy := entriesMatch_proxy hwebhook hallowlist
  have hallowed := isAllowed_iff policy ip
  have hchecked := checkIpAddr_iff ip allowlist
  rw [hwebhook.any_iff] at hallowed
  rw [hproxy.any_iff] at hchecked
  have hcanonical := toCanonical_toCanonical ip
  constructor
  · intro h
    by_contra hcond
    obtain ⟨hlisted, hover⟩ := not_or.mp hcond
    rw [Bool.not_eq_false] at hover
    have hspecial : isSpecial ip.toCanonical = true := by rw [isSpecial_eq, hover, Bool.or_true]
    have hblocked : isBlocked ip.toCanonical = false := by
      by_contra hblocked
      rw [Bool.not_eq_false] at hblocked
      rw [not_isOverlooked_of_isBlocked hblocked] at hover
      cases hover
    rw [(h.refused hspecial hlisted).1] at hallowed
    exact Bool.false_ne_true (hallowed.mpr (.inr hblocked))
  · intro hcond
    have hinternal : ¬ Cidr.Listed cidrs ip.toCanonical →
        isInternalIp ip.toCanonical = isBlocked ip.toCanonical := by
      intro hlisted
      have hover := hcond.resolve_left hlisted
      refine Bool.eq_iff_iff.mpr ⟨fun h => ?_, isInternalIp_of_blocked hcanonical⟩
      rcases isBlocked_of_isInternalIp hcanonical h with h | h
      · exact h
      · rw [hover] at h
        cases h
    refine ⟨?_, fun hspecial hlisted => ?_, hwebhook, hproxy⟩
    · rw [hallowed, hchecked]
      by_cases hlisted : Cidr.Listed cidrs ip.toCanonical
      · exact iff_of_true (.inl hlisted) (.inl hlisted)
      · rw [hinternal hlisted]
    · rw [isSpecial_eq, hcond.resolve_left hlisted, Bool.or_false] at hspecial
      constructor
      · refine Bool.eq_false_iff.mpr fun h => ?_
        rcases hallowed.mp h with h | h
        · exact hlisted h
        · rw [hspecial] at h
          cases h
      · intro h
        rcases hchecked.mp h with h | h
        · exact hlisted h
        · rw [hinternal hlisted, hspecial] at h
          cases h

theorem filtersAgree_listed :
    FiltersAgree ["10.0.0.0/8".toList]
      { allowedCidrs := [.v4 (Net.new 0x0a000000 8)], blockPrivate := true }
      [.v4 ⟨0x0a000000⟩ 8] (.v6 ⟨0xffff0a010203⟩) := by
  refine (filtersAgree_iff (by decide +kernel) (by decide +kernel) _).mpr (.inl ?_)
  exact ⟨_, List.mem_singleton_self _, ⟨.v4 ⟨0x0a000000⟩, 8⟩,
    ⟨"10.0.0.0".toList, "8".toList, by decide, by decide +kernel, by decide⟩, by
      show SharesPrefix 8 _ _
      decide⟩

/-- The all-hosts group 224.0.0.1 with nothing listed: the webhook filter lets it through. -/
theorem filters_disagree :
    WebhookUrlPolicy.fromCidrStrings [] = .ok .default ∧ parseAllowlist [] = .ok [] ∧
      WebhookUrlPolicy.default.isAllowed (.v4 (.ofOctets [224, 0, 0, 1])) = true ∧
      checkIpAddr (.v4 (.ofOctets [224, 0, 0, 1])) [] =
        .error (.forbiddenTarget (.v4 (.ofOctets [224, 0, 0, 1]))) ∧
      ¬ FiltersAgree [] .default [] (.v4 (.ofOctets [224, 0, 0, 1])) := by
  refine ⟨rfl, rfl, by decide, by decide, fun h => ?_⟩
  exact absurd (h.verdict.mp (by decide)) (by decide)

end CheetahMedia.Proxy
