import Mathlib.Data.List.Basic
import CheetahMedia.Lib.Text

namespace CheetahMedia.Lib

/-- Only the first so many bits set. -/
def prefixMask (w p : Nat) : BitVec w := if p = 0 then 0 else BitVec.allOnes w <<< (w - p)

/-- The first bits are the same. -/
def SharesPrefix (p : Nat) (a b : BitVec w) : Prop := ∀ i < p, a.getMsbD i = b.getMsbD i

instance (p : Nat) (a b : BitVec w) : Decidable (SharesPrefix p a b) :=
  inferInstanceAs (Decidable (∀ i < p, _))

theorem getMsbD_prefixMask (hp : p ≤ w) : (prefixMask w p).getMsbD i = decide (i < p) := by
  unfold prefixMask
  split
  · rename_i hzero
    simp [hzero]
  · rw [BitVec.getMsbD_shiftLeft, BitVec.getMsbD_allOnes, decide_eq_decide]
    omega

theorem and_prefixMask_eq_iff {a b : BitVec w} (hp : p ≤ w) :
    a &&& prefixMask w p = b &&& prefixMask w p ↔ SharesPrefix p a b := by
  constructor
  · intro h i hi
    have hbit := congrArg (·.getMsbD i) h
    simpa only [BitVec.getMsbD_and, getMsbD_prefixMask hp, hi, decide_true, Bool.and_true] using hbit
  · intro h
    apply BitVec.eq_of_getMsbD_eq
    intro i _
    simp only [BitVec.getMsbD_and, getMsbD_prefixMask hp]
    by_cases hi : i < p
    · rw [h i hi]
    · simp only [hi, decide_false, Bool.and_false]

/-- There are no bits beyond the width. -/
theorem sharesPrefix_min {a b : BitVec w} : SharesPrefix (min p w) a b ↔ SharesPrefix p a b := by
  constructor
  · intro h i hi
    by_cases hw : i < w
    · exact h i (Nat.lt_min.mpr ⟨hi, hw⟩)
    · rw [BitVec.getMsbD_of_ge _ _ (Nat.le_of_not_lt hw), BitVec.getMsbD_of_ge _ _ (Nat.le_of_not_lt hw)]
  · intro h i hi
    exact h i (Nat.lt_min.mp hi).1

/-- An address as its bits, in network order. -/
structure Ipv4Addr where
  bits : BitVec 32
deriving DecidableEq

structure Ipv6Addr where
  bits : BitVec 128
deriving DecidableEq

inductive IpAddr
  | v4 (addr : Ipv4Addr)
  | v6 (addr : Ipv6Addr)
deriving DecidableEq

namespace Ipv4Addr

def octet (a : Ipv4Addr) (i : Nat) : Nat := a.bits.toNat / 256 ^ (3 - i) % 256

def ofOctets (octets : List Nat) : Ipv4Addr :=
  ⟨BitVec.ofNat 32 (octets.foldl (fun n o => n * 256 + o) 0)⟩

def isLoopback (a : Ipv4Addr) : Bool := a.octet 0 = 127

def isPrivate (a : Ipv4Addr) : Bool :=
  a.octet 0 = 10 || (a.octet 0 = 172 && 16 ≤ a.octet 1 && a.octet 1 ≤ 31) ||
    (a.octet 0 = 192 && a.octet 1 = 168)

def isLinkLocal (a : Ipv4Addr) : Bool := a.octet 0 = 169 && a.octet 1 = 254

def isUnspecified (a : Ipv4Addr) : Bool := a.bits = 0

def isMulticast (a : Ipv4Addr) : Bool := 224 ≤ a.octet 0 && a.octet 0 ≤ 239

def isBroadcast (a : Ipv4Addr) : Bool := a.bits = BitVec.allOnes 32

def isDocumentation (a : Ipv4Addr) : Bool :=
  (a.octet 0 = 192 && a.octet 1 = 0 && a.octet 2 = 2) ||
    (a.octet 0 = 198 && a.octet 1 = 51 && a.octet 2 = 100) ||
    (a.octet 0 = 203 && a.octet 1 = 0 && a.octet 2 = 113)

end Ipv4Addr

namespace Ipv6Addr

/-- One of the eight groups of 16 bits. -/
def segment (a : Ipv6Addr) (i : Nat) : BitVec 16 := a.bits.extractLsb' (16 * (7 - i)) 16

def ofSegments (segments : List Nat) : Ipv6Addr :=
  ⟨BitVec.ofNat 128 (segments.foldl (fun n s => n * 65536 + s) 0)⟩

def isLoopback (a : Ipv6Addr) : Bool := a.bits = 1

def isUnspecified (a : Ipv6Addr) : Bool := a.bits = 0

def isMulticast (a : Ipv6Addr) : Bool := a.segment 0 &&& 0xff00 = 0xff00

def isUniqueLocal (a : Ipv6Addr) : Bool := a.segment 0 &&& 0xfe00 = 0xfc00

def isUnicastLinkLocal (a : Ipv6Addr) : Bool := a.segment 0 &&& 0xffc0 = 0xfe80

def isDocumentation (a : Ipv6Addr) : Bool :=
  (a.segment 0 = 0x2001 && a.segment 1 = 0xdb8) ||
    (a.segment 0 = 0x3fff && decide (a.segment 1 ≤ 0x0fff))

/-- The IPv4 address of `::ffff:a.b.c.d`. -/
def toIpv4Mapped (a : Ipv6Addr) : Option Ipv4Addr :=
  if a.bits.extractLsb' 32 96 = 0xffff then some ⟨a.bits.extractLsb' 0 32⟩ else none

end Ipv6Addr

/-- An IPv4-mapped address as the IPv4 address it stands for. -/
def IpAddr.toCanonical : IpAddr → IpAddr
  | .v4 a => .v4 a
  | .v6 a => match a.toIpv4Mapped with
    | some mapped => .v4 mapped
    | none => .v6 a

namespace Text

def digitValue (c : Char) : Nat :=
  if 48 ≤ c.toNat ∧ c.toNat ≤ 57 then c.toNat - 48
  else if 97 ≤ c.toNat ∧ c.toNat ≤ 122 then c.toNat - 87
  else if 65 ≤ c.toNat ∧ c.toNat ≤ 90 then c.toNat - 55
  else 36

/-- The value of a digit or letter in a radix up to 36. -/
def toDigit (radix : Nat) (c : Char) : Option Nat :=
  if digitValue c < radix then some (digitValue c) else none

/-- Digits up to the first character that is none, with their number; too many of them fail. -/
def readDigits (radix maxDigits : Nat) : Nat → Nat → Text → Option (Nat × Nat × Text)
  | result, count, [] => some (result, count, [])
  | result, count, c :: rest => match toDigit radix c with
    | none => some (result, count, c :: rest)
    | some d =>
      if maxDigits < count + 1 then none
      else readDigits radix maxDigits (result * radix + d) (count + 1) rest

def readNumber (radix maxDigits : Nat) (allowZeroPrefix : Bool) (width : Nat) (t : Text) :
    Option (Nat × Text) :=
  match readDigits radix maxDigits 0 0 t with
  | none => none
  | some (result, count, rest) =>
    if count = 0 then none
    else if !allowZeroPrefix && t.head? = some '0' && 1 < count then none
    else if result < 2 ^ width then some (result, rest)
    else none

def readGivenChar (target : Char) : Text → Option Text
  | [] => none
  | c :: rest => if c = target then some rest else none

/-- What an inner reader reads, behind a separator unless it is the first. -/
def readSeparator (sep : Char) (index : Nat) (read : Text → Option (α × Text)) (t : Text) :
    Option (α × Text) :=
  if 0 < index then (readGivenChar sep t).bind read else read t

/-- Octets until there are so many. -/
def readOctets : Nat → List Nat → Text → Option (List Nat × Text)
  | 0, octets, t => some (octets, t)
  | n + 1, octets, t => match readSeparator '.' octets.length (readNumber 10 3 false 8) t with
    | some (octet, rest) => readOctets n (octets ++ [octet]) rest
    | none => none

def readIpv4Addr (t : Text) : Option (Ipv4Addr × Text) :=
  (readOctets 4 [] t).map fun (octets, rest) => (Ipv4Addr.ofOctets octets, rest)

/-- Groups up to the limit, and whether the last two are an embedded IPv4 address. -/
def readGroups : Nat → List Nat → Text → List Nat × Bool × Text
  | 0, groups, t => (groups, false, t)
  | left + 1, groups, t =>
    let ipv4 := if 0 < left then readSeparator ':' groups.length readIpv4Addr t else none
    match ipv4 with
    | some (a, rest) =>
      (groups ++ [a.octet 0 * 256 + a.octet 1, a.octet 2 * 256 + a.octet 3], true, rest)
    | none => match readSeparator ':' groups.length (readNumber 16 4 true 16) t with
      | some (group, rest) => readGroups left (groups ++ [group]) rest
      | none => (groups, false, t)

def readIpv6Addr (t : Text) : Option (Ipv6Addr × Text) :=
  let (head, headIpv4, t) := readGroups 8 [] t
  if head.length = 8 then some (Ipv6Addr.ofSegments head, t)
  else if headIpv4 then none
  else match (readGivenChar ':' t).bind (readGivenChar ':') with
    | none => none
    | some t =>
      -- The `::` stands for one group of zeros at least.
      let (tail, _, t) := readGroups (8 - (head.length + 1)) [] t
      let zeros := List.replicate (8 - head.length - tail.length) 0
      some (Ipv6Addr.ofSegments (head ++ zeros ++ tail), t)

def readIpAddr (t : Text) : Option (IpAddr × Text) :=
  match readIpv4Addr t with
  | some (a, rest) => some (.v4 a, rest)
  | none => (readIpv6Addr t).map fun (a, rest) => (.v6 a, rest)

/-- A value that is all of the text. -/
def parseWith (read : Text → Option (α × Text)) (t : Text) : Option α :=
  match read t with
  | some (a, []) => some a
  | _ => none

def parseIpv4Addr (t : Text) : Option Ipv4Addr :=
  if 15 < (toBytes t).length then none else parseWith readIpv4Addr t

def parseIpv6Addr (t : Text) : Option Ipv6Addr := parseWith readIpv6Addr t

def parseIpAddr (t : Text) : Option IpAddr := parseWith readIpAddr t

example : parseIpAddr "::ffff:10.0.0.1".toList =
    some (.v6 (.ofSegments [0, 0, 0, 0, 0, 0xffff, 0x0a00, 1])) := by decide +kernel

/-- A character that an address is written with. -/
def IsAddrChar (c : Char) : Prop := toDigit 16 c ≠ none ∨ c = '.' ∨ c = ':'

theorem toDigit_eq_some (h : toDigit radix c = some d) : digitValue c < radix := by
  unfold toDigit at h
  split at h
  · assumption
  · cases h

theorem isAddrChar_of_toDigit (hradix : radix ≤ 16) (h : toDigit radix c = some d) :
    IsAddrChar c := by
  refine .inl ?_
  rw [toDigit, if_pos (Nat.lt_of_lt_of_le (toDigit_eq_some h) hradix)]
  exact Option.some_ne_none _

theorem isWhitespace_of_digitValue (h : digitValue c < 36) : isWhitespace c = false := by
  have hrange : 48 ≤ c.toNat ∧ c.toNat ≤ 122 := by
    unfold digitValue at h
    split at h
    · omega
    · split at h
      · omega
      · split at h <;> omega
  simp only [isWhitespace]
  simp
  omega

theorem IsAddrChar.not_isWhitespace (h : IsAddrChar c) : isWhitespace c = false := by
  rcases h with h | rfl | rfl
  · obtain ⟨d, hd⟩ := Option.ne_none_iff_exists'.mp h
    exact isWhitespace_of_digitValue (Nat.lt_trans (toDigit_eq_some hd) (by decide))
  · rfl
  · rfl

/-- A reader took characters of an address off the front. -/
def Took (t rest : Text) : Prop := ∃ a, t = a ++ rest ∧ ∀ c ∈ a, IsAddrChar c

theorem Took.refl (t : Text) : Took t t := ⟨[], rfl, fun _ h => by cases h⟩

theorem Took.trans (h : Took s t) (h' : Took t u) : Took s u := by
  obtain ⟨a, rfl, ha⟩ := h
  obtain ⟨b, rfl, hb⟩ := h'
  refine ⟨a ++ b, (List.append_assoc ..).symm, fun c hc => ?_⟩
  rcases List.mem_append.mp hc with hc | hc
  · exact ha c hc
  · exact hb c hc

theorem Took.cons (hc : IsAddrChar c) (h : Took t rest) : Took (c :: t) rest :=
  Took.trans ⟨[c], rfl, fun _ hx => by cases List.mem_singleton.mp hx; exact hc⟩ h

/-- A reader that takes no other characters. -/
def Takes (read : Text → Option (α × Text)) : Prop :=
  ∀ t a rest, read t = some (a, rest) → Took t rest

theorem took_readDigits (hradix : radix ≤ 16)
    (h : readDigits radix maxDigits result count t = some (value, n, rest)) : Took t rest := by
  induction t generalizing result count with
  | nil =>
    cases h
    exact Took.refl _
  | cons c t ih =>
    unfold readDigits at h
    split at h
    · cases h
      exact Took.refl _
    · rename_i d hdigit
      split at h
      · cases h
      · exact (ih h).cons (isAddrChar_of_toDigit hradix hdigit)

theorem takes_readNumber (hradix : radix ≤ 16) :
    Takes (readNumber radix maxDigits allowZeroPrefix width) := by
  intro t a rest h
  unfold readNumber at h
  split at h
  · cases h
  · rename_i hdigits
    have htook := took_readDigits hradix hdigits
    split at h
    · cases h
    · split at h
      · cases h
      · split at h
        · cases h
          exact htook
        · cases h

theorem took_readGivenChar (htarget : IsAddrChar target) (h : readGivenChar target t = some rest) :
    Took t rest := by
  cases t with
  | nil => cases h
  | cons c t =>
    simp only [readGivenChar] at h
    split at h
    · rename_i hc
      cases h
      exact (Took.refl _).cons (hc ▸ htarget)
    · cases h

theorem takes_readSeparator {read : Text → Option (α × Text)} (hsep : IsAddrChar sep)
    (hread : Takes read) (index : Nat) :
    Takes (readSeparator sep index read) := by
  intro t a rest h
  unfold readSeparator at h
  split at h
  · obtain ⟨more, hgiven, hinner⟩ := Option.bind_eq_some_iff.mp h
    exact (took_readGivenChar hsep hgiven).trans (hread _ _ _ hinner)
  · exact hread _ _ _ h

theorem takes_readOctets : ∀ n octets, Takes (readOctets n octets)
  | 0, octets => fun t a rest h => by
    cases h
    exact Took.refl _
  | n + 1, octets => fun t a rest h => by
    unfold readOctets at h
    split at h
    · rename_i hoctet
      have htook := takes_readSeparator (.inr (.inl rfl))
        (takes_readNumber (by decide)) _ _ _ _ hoctet
      exact htook.trans (takes_readOctets n _ _ _ _ h)
    · cases h

theorem takes_readIpv4Addr : Takes readIpv4Addr := by
  intro t a rest h
  obtain ⟨⟨octets, more⟩, hoctets, heq⟩ := Option.map_eq_some_iff.mp h
  cases heq
  exact takes_readOctets _ _ _ _ _ hoctets

theorem took_readGroups : ∀ left groups t, Took t (readGroups left groups t).2.2
  | 0, groups, t => Took.refl t
  | left + 1, groups, t => by
    unfold readGroups
    dsimp only
    split
    · rename_i a rest hipv4
      split at hipv4
      · exact takes_readSeparator (.inr (.inr rfl)) takes_readIpv4Addr _ _ _ _ hipv4
      · cases hipv4
    · split
      · rename_i group rest hgroup
        have htook := takes_readSeparator (.inr (.inr rfl))
          (takes_readNumber (by decide)) _ _ _ _ hgroup
        exact htook.trans (took_readGroups left _ rest)
      · exact Took.refl t

theorem takes_readIpv6Addr : Takes readIpv6Addr := by
  intro t a rest h
  unfold readIpv6Addr at h
  have hhead := took_readGroups 8 [] t
  dsimp only at h
  split at h
  · cases h
    exact hhead
  · split at h
    · cases h
    · split at h
      · cases h
      · rename_i more hcolons
        obtain ⟨first, hfirst, hsecond⟩ := Option.bind_eq_some_iff.mp hcolons
        cases h
        exact hhead.trans ((took_readGivenChar (.inr (.inr rfl)) hfirst).trans
          ((took_readGivenChar (.inr (.inr rfl)) hsecond).trans (took_readGroups _ _ _)))

theorem parseWith_eq_some {read : Text → Option (α × Text)} (h : parseWith read t = some a) : read t = some (a, []) := by
  unfold parseWith at h
  split at h
  · rename_i hread
    cases h
    exact hread
  · cases h

theorem isAddrChar_of_parseWith {read : Text → Option (α × Text)} (hread : Takes read)
    (h : parseWith read t = some a) :
    ∀ c ∈ t, IsAddrChar c := by
  obtain ⟨taken, rfl, htaken⟩ := hread _ _ _ (parseWith_eq_some h)
  rwa [List.append_nil]

theorem takes_readIpAddr : Takes readIpAddr := by
  intro t a rest h
  unfold readIpAddr at h
  split at h
  · rename_i hread
    cases h
    exact takes_readIpv4Addr _ _ _ hread
  · obtain ⟨⟨addr, more⟩, hread, heq⟩ := Option.map_eq_some_iff.mp h
    cases heq
    exact takes_readIpv6Addr _ _ _ hread

theorem isAddrChar_of_parseIpAddr (h : parseIpAddr t = some a) : ∀ c ∈ t, IsAddrChar c :=
  isAddrChar_of_parseWith takes_readIpAddr h

/-- What starts with an IPv4 address is no IPv6 address. -/
theorem readIpv6Addr_of_readIpv4Addr (h : readIpv4Addr t = some (a, rest)) :
    readIpv6Addr t = none := by
  unfold readIpv6Addr
  have hgroups : readGroups 8 [] t =
      ([a.octet 0 * 256 + a.octet 1, a.octet 2 * 256 + a.octet 3], true, rest) := by
    unfold readGroups
    simp only [Nat.zero_lt_succ, if_true, readSeparator, List.length_nil, Nat.lt_irrefl, if_false, h,
      List.nil_append]
  rw [hgroups]
  rfl

theorem parseIpAddr_of_v4 (h : parseIpv4Addr t = some a) : parseIpAddr t = some (.v4 a) := by
  unfold parseIpv4Addr at h
  split at h
  · cases h
  · rw [parseIpAddr, parseWith, readIpAddr, parseWith_eq_some h]

theorem parseIpAddr_of_v6 (h : parseIpv6Addr t = some a) : parseIpAddr t = some (.v6 a) := by
  have hv6 := parseWith_eq_some h
  have hv4 : readIpv4Addr t = none := by
    cases hread : readIpv4Addr t with
    | none => rfl
    | some read =>
      rw [readIpv6Addr_of_readIpv4Addr hread] at hv6
      cases hv6
  rw [parseIpAddr, parseWith, readIpAddr, hv4, hv6]
  rfl

/-- The two sides of the last `c`. -/
def rsplitOnce (c : Char) (t : Text) : Option (Text × Text) :=
  (splitOnce c t.reverse).map fun (b, a) => (a.reverse, b.reverse)

theorem rsplitOnce_append (h : c ∉ b) (a : Text) : rsplitOnce c (a ++ c :: b) = some (a, b) := by
  have hreverse : (a ++ c :: b).reverse = b.reverse ++ c :: a.reverse := by
    rw [List.reverse_append, List.reverse_cons, List.append_assoc, List.singleton_append]
  rw [rsplitOnce, hreverse, splitOnce_append (List.mem_reverse.not.mpr h), Option.map_some]
  simp only [List.reverse_reverse]

theorem isDigit_of_parseUnsigned (h : parseUnsigned width t = some n) (hc : c ∈ t) :
    c.isDigit = true ∨ c = '+' := by
  have hmem : c ∈ (if t.head? = some '+' then t.tail else t) ∨ c = '+' := by
    split
    · rename_i hplus
      obtain ⟨rest, rfl⟩ := List.head?_eq_some_iff.mp hplus
      exact (List.mem_cons.mp hc).symm
    · exact .inl hc
  unfold parseUnsigned at h
  generalize (if t.head? = some '+' then t.tail else t) = digits at h hmem
  dsimp only at h
  split at h
  · rename_i hdigits
    exact hmem.imp_left (List.all_eq_true.mp hdigits.2.1 c)
  · cases h

end Text

/-- The addresses of one family that begin with the same bits. -/
structure Cidr where
  addr : IpAddr
  prefixLen : Nat

namespace Cidr

def Covers (c : Cidr) : IpAddr → Prop
  | .v4 b => match c.addr with
    | .v4 a => SharesPrefix c.prefixLen a.bits b.bits
    | .v6 _ => False
  | .v6 b => match c.addr with
    | .v4 _ => False
    | .v6 a => SharesPrefix c.prefixLen a.bits b.bits

/-- What an address, a slash and the number of its bits that count stand for. -/
def Reads (t : Text) (c : Cidr) : Prop :=
  ∃ a p, t = a ++ '/' :: p ∧ Text.parseIpAddr a = some c.addr ∧
    Text.parseUnsigned 8 p = some c.prefixLen

theorem Reads.unique (h : Reads t c) (h' : Reads t d) : c = d := by
  obtain ⟨a, p, rfl, haddr, hprefix⟩ := h
  obtain ⟨b, q, heq, haddr', hprefix'⟩ := h'
  have hslash : ∀ {t a}, Text.parseIpAddr t = some a → '/' ∉ t := fun h hc =>
    absurd (Text.isAddrChar_of_parseIpAddr h _ hc) (by simp [Text.IsAddrChar, Text.toDigit,
      Text.digitValue])
  have hsplit := Text.splitOnce_append (hslash haddr) p
  rw [heq, Text.splitOnce_append (hslash haddr')] at hsplit
  cases hsplit
  obtain ⟨addr, prefixLen⟩ := c
  obtain ⟨addr', prefixLen'⟩ := d
  cases haddr.symm.trans haddr'
  cases hprefix.symm.trans hprefix'
  rfl

/-- Some text of the list reads as a block that covers the address. -/
def Listed (cidrs : List Text) (ip : IpAddr) : Prop := ∃ t ∈ cidrs, ∃ c, Reads t c ∧ c.Covers ip

end Cidr
end CheetahMedia.Lib
