import Mathlib.Data.List.MinMax
import Mathlib.Data.List.Perm.Subperm

namespace CheetahMedia.Codec

structure RtpReorderSettings where
  maxPackets : Nat := 2
  maxDelayMs : Nat := 40

/-- A packet under its extended sequence number. -/
structure PendingPacket (α : Type) where
  sequenceNumber : Nat
  arrivalMs : Nat
  packet : α

/-- Of the numbers with these 16 bits in the cycles around, the closest to the expected one. -/
def closestTo (expected : Nat) (raw : UInt16) : Int :=
  let nearer (best candidate : Int) : Int :=
    if (candidate - expected).natAbs < (best - expected).natAbs then candidate else best
  let base : Int := (expected / 65536 : Nat) * 65536 + raw.toNat
  nearer (nearer base (base - 65536)) (base + 65536)

/-- A number before the expected one, or half a period away from it, is read as the one just
before it. -/
def extendTo (expected : Nat) (raw : UInt16) : Nat :=
  let best := closestTo expected raw
  if 32768 ≤ (best - expected).natAbs ∨ best < expected then expected - 1 else best.toNat

structure RtpReorderBuffer (α : Type) where
  settings : RtpReorderSettings
  expectedSeq : Option Nat := none
  pending : List (PendingPacket α) := []

namespace RtpReorderBuffer
variable {α : Type}

def new (settings : RtpReorderSettings) : RtpReorderBuffer α := { settings := settings }

def reset (b : RtpReorderBuffer α) : RtpReorderBuffer α :=
  { b with expectedSeq := none, pending := [] }

def pendingLen (b : RtpReorderBuffer α) : Nat := b.pending.length

def ABSOLUTE_PENDING_CAP : Nat := 64

def extendSequence (b : RtpReorderBuffer α) (raw : UInt16) : Nat :=
  match b.expectedSeq with
  | none => raw.toNat
  | some expected => extendTo expected raw

/-- Each packet that is found is removed, so the number of packets bounds the passes. -/
def drainWithin : Nat → Nat → List (PendingPacket α) →
    Nat × List (PendingPacket α) × List (PendingPacket α)
  | 0, expected, pending => (expected, [], pending)
  | passes + 1, expected, pending =>
    match pending.find? (·.sequenceNumber = expected) with
    | none => (expected, [], pending)
    | some packet =>
      let (next, out, rest) :=
        drainWithin passes (expected + 1) (pending.eraseP (·.sequenceNumber = expected))
      (next, packet :: out, rest)

def drainContiguous (b : RtpReorderBuffer α) : RtpReorderBuffer α × List (PendingPacket α) :=
  let (next, out, rest) := drainWithin b.pending.length (b.expectedSeq.getD 0) b.pending
  ({ b with expectedSeq := some next, pending := rest }, out)

def forceReleaseClosest (b : RtpReorderBuffer α) (expected : Nat) :
    RtpReorderBuffer α × List (PendingPacket α) :=
  match b.pending.argmin (·.sequenceNumber - expected) with
  | none => (b, [])
  | some first =>
    let (b, out) := { b with
      expectedSeq := some (first.sequenceNumber + 1)
      pending := b.pending.eraseP (·.sequenceNumber = first.sequenceNumber) }.drainContiguous
    (b, first :: out)

/-- Too many packets wait, or one of them has waited too long. -/
def mustRelease (b : RtpReorderBuffer α) (arrivalMs : Nat) : Bool :=
  (0 < b.settings.maxPackets ∧ b.settings.maxPackets < b.pending.length) ∨
    (0 < b.settings.maxDelayMs ∧
      b.pending.any fun p => b.settings.maxDelayMs ≤ arrivalMs - p.arrivalMs) ∨
    ABSOLUTE_PENDING_CAP < b.pending.length

/-- A packet from ahead waits, unless one with its number does. -/
def buffer (b : RtpReorderBuffer α) (received : PendingPacket α) : RtpReorderBuffer α :=
  if b.pending.any (·.sequenceNumber = received.sequenceNumber) then b
  else { b with pending := b.pending ++ [received] }

/-- What `push` does, with the numbers of the packets that are released. -/
def receive (b : RtpReorderBuffer α) (sequenceNumber : UInt16) (arrivalMs : Nat) (packet : α) :
    RtpReorderBuffer α × List (PendingPacket α) :=
  let seq := b.extendSequence sequenceNumber
  let received : PendingPacket α := ⟨seq, arrivalMs, packet⟩
  match b.expectedSeq with
  | none => ({ b with expectedSeq := some (seq + 1) }, [received])
  | some expected =>
    if seq < expected then (b, [])
    else if seq = expected then
      let (b, out) := { b with expectedSeq := some (expected + 1) }.drainContiguous
      (b, received :: out)
    else
      let b := b.buffer received
      if b.mustRelease arrivalMs then b.forceReleaseClosest expected else (b, [])

def push (b : RtpReorderBuffer α) (sequenceNumber : UInt16) (arrivalMs : Nat) (packet : α) :
    RtpReorderBuffer α × List α :=
  let (b, out) := b.receive sequenceNumber arrivalMs packet
  (b, out.map (·.packet))

end RtpReorderBuffer

/-- Numbers for statistics, which nothing waits for. -/
structure RtpSequenceUnwrapper where
  expected : Option Nat := none
  max : Option Nat := none

namespace RtpSequenceUnwrapper

def extend (u : RtpSequenceUnwrapper) (raw : UInt16) : RtpSequenceUnwrapper × Nat :=
  match u.expected with
  | none => ({ expected := some (raw.toNat + 1), max := some raw.toNat }, raw.toNat)
  | some expected =>
    let best := closestTo expected raw
    if 32768 ≤ (best - expected).natAbs ∨ best < expected then (u, expected - 1)
    else
      let extended := best.toNat
      ({ expected := some (extended + 1)
         max := if u.max.all (· < extended) then some extended else u.max }, extended)

end RtpSequenceUnwrapper

/-- Numbers that are no more than half a period ahead are told from their 16 bits. -/
theorem closestTo_ahead (hle : expected ≤ n) (hlt : n < expected + 32768) :
    closestTo expected (UInt16.ofNat n) = n := by
  have hraw : (UInt16.ofNat n).toNat = n % 65536 := UInt16.toNat_ofNat'
  simp only [closestTo, hraw]
  split <;> split <;> omega

/-- The number with these 16 bits that is less than half a period away. Half a period behind,
the number as far ahead may be found instead. -/
theorem closestTo_near (expected : Nat) {n : Int} (hraw : (raw.toNat : Int) = n % 65536)
    (hlow : (expected : Int) - 32768 ≤ n) (hhigh : n < expected + 32768) :
    closestTo expected raw = n ∨
      n = expected - 32768 ∧ closestTo expected raw = expected + 32768 := by
  simp only [closestTo, hraw]
  split <;> split <;> omega

theorem extendTo_ahead (hle : expected ≤ n) (hlt : n < expected + 32768) :
    extendTo expected (UInt16.ofNat n) = n := by
  have hfar : ¬(32768 ≤ ((n : Int) - expected).natAbs ∨ (n : Int) < expected) := by omega
  rw [extendTo, closestTo_ahead hle hlt, if_neg hfar, Int.toNat_natCast]

namespace RtpSequenceUnwrapper
variable {u : RtpSequenceUnwrapper} {m : Nat}

/-- The number expected next follows the highest. -/
def Numbered (u : RtpSequenceUnwrapper) : Prop := u.expected = u.max.map (· + 1)

theorem extend_first (hu : u.Numbered) (hm : u.max = none) (raw : UInt16) :
    u.extend raw = ({ expected := some (raw.toNat + 1), max := some raw.toNat }, raw.toNat) := by
  rw [Numbered, hm] at hu
  rw [extend, hu]
  rfl

theorem extend_next (hu : u.Numbered) (hm : u.max = some m) (raw : UInt16) :
    (u.extend raw).1 =
      if 32768 ≤ (closestTo (m + 1) raw - (m + 1 : Nat)).natAbs ∨
          closestTo (m + 1) raw < (m + 1 : Nat) then u
      else ⟨some ((closestTo (m + 1) raw).toNat + 1), some (closestTo (m + 1) raw).toNat⟩ := by
  rw [Numbered, hm, Option.map_some] at hu
  simp only [extend, hu]
  split
  · rfl
  · rename_i hahead
    have hgt : m < (closestTo (m + 1) raw).toNat := by omega
    rw [hm, Option.all_some, if_pos (decide_eq_true hgt)]

theorem Numbered.extend (hu : u.Numbered) (raw : UInt16) :
    (u.extend raw).1.Numbered := by
  cases hm : u.max with
  | none =>
    rw [extend_first hu hm]
    rfl
  | some m =>
    rw [extend_next hu hm]
    split
    · exact hu
    · rfl

/-- The highest number never goes back, and goes no further than half a period ahead. -/
theorem le_extend (hu : u.Numbered) (hm : u.max = some m) (raw : UInt16) :
    ∃ m', (u.extend raw).1.max = some m' ∧ m ≤ m' ∧ m' ≤ m + 32768 := by
  rw [extend_next hu hm]
  split
  · exact ⟨m, hm, le_rfl, by omega⟩
  · exact ⟨_, rfl, by omega, by omega⟩

/-- Within half a period of the highest number the 16 bits tell which number is meant. -/
theorem extend_near {n : Int} (hu : u.Numbered) (hm : u.max = some m)
    (hraw : (raw.toNat : Int) = n % 65536) (hlow : (m : Int) - 32768 < n) (hhigh : n ≤ m + 32768) :
    (u.extend raw).1.max = some (Max.max (m : Int) n).toNat := by
  have hcast : ((m + 1 : Nat) : Int) = m + 1 := rfl
  rw [extend_next hu hm]
  rcases closestTo_near (m + 1) hraw (by omega) (by omega) with hbest | ⟨hn, hbest⟩
  · rw [hbest]
    split
    · rw [hm]
      congr 1
      omega
    · rw [max_eq_right (by omega)]
  · rw [hbest, if_pos (by omega), hm]
    congr 1
    omega

end RtpSequenceUnwrapper

end CheetahMedia.Codec
