import CheetahMedia.Lib.Slots
import Mathlib.Algebra.Group.Nat.Defs
import Mathlib.Data.List.Infix

namespace CheetahMedia.Engine
open Lib

namespace RingBuffer

structure Timebase where
  num : UInt32
  den : UInt32
deriving DecidableEq

/-- What `bootstrap_frames` reads of a frame. -/
structure AVFrame where
  pts : Int64
  dts : Int64
  timebase : Timebase
  key : Bool
  discontinuity : Bool
deriving DecidableEq

/-- A shared frame: the address tells one allocation from another with the same contents. -/
structure Arc where
  address : Nat
  frame : AVFrame
deriving DecidableEq

inductive BootstrapMode
  | none
  | liveTail
  | fullGop
deriving DecidableEq

structure BootstrapPolicy where
  mode : BootstrapMode
  maxBootstrapAgeMs : Option Nat
  maxBootstrapFrames : Nat
  waitForNextRandomAccessPoint : Bool

/-- No product of an `i64`, a `u32` and a thousand overflows an `i128`. -/
def frameTimeMs (frame : AVFrame) : Option Int := do
  let ts ←
    if 0 ≤ frame.dts.toInt then some frame.dts.toInt
    else if 0 ≤ frame.pts.toInt then some frame.pts.toInt
    else none
  let numer := ts * frame.timebase.num.toNat
  let denom := frame.timebase.den.toNat
  if denom = 0 then none else return (numer * 1000).tdiv denom

structure IdrNode where
  ringPos : Nat
  slotVersion : Nat

structure RingSlot where
  frame : Option Arc := none
  version : Nat := 0

end RingBuffer

/-- Positions count up from zero and do not come round. -/
structure RingBuffer where
  slots : List RingBuffer.RingSlot
  mask : Nat
  writePos : Nat
  idrList : List RingBuffer.IdrNode

namespace RingBuffer

/-- The number of slots that a requested capacity comes to. -/
def slotCount (capacity : Nat) : Nat := (max capacity 2).nextPowerOfTwo

def new (capacity : Nat) : RingBuffer :=
  let cap := slotCount capacity
  { slots := List.replicate cap {}, mask := cap - 1, writePos := 0, idrList := [] }

def slot (r : RingBuffer) (pos : Nat) : RingSlot := r.slots.getD (pos &&& r.mask) {}

def earliestReadablePos (r : RingBuffer) (stop : Nat) : Nat := stop - r.slots.length

def pruneIdrNodes (r : RingBuffer) (list : List IdrNode) (stop : Nat) : List IdrNode :=
  let minPos := r.earliestReadablePos stop
  list.filter fun node =>
    !(node.ringPos < minPos || stop ≤ node.ringPos) &&
      (r.slot node.ringPos).version == node.slotVersion

def recordIdr (r : RingBuffer) (ringPos slotVersion : Nat) : RingBuffer :=
  let list := r.pruneIdrNodes (r.idrList ++ [⟨ringPos, slotVersion⟩]) r.writePos
  let maxEntries := r.slots.length * 2
  { r with idrList := list.drop (list.length - maxEntries) }

/-- The frame goes into the slot of the write position, over what was there. -/
def push (r : RingBuffer) (frame : Arc) : RingBuffer :=
  let pos := r.writePos
  let version := (r.slot pos).version + 1
  let stored := { r with
    writePos := pos + 1, slots := r.slots.set (pos &&& r.mask) ⟨some frame, version⟩ }
  if frame.frame.key then stored.recordIdr pos version else stored

/-- With no writer beside it the version does not change between the two loads. -/
def read (r : RingBuffer) (ringPos : Nat) : Option Arc := (r.slot ringPos).frame

def clampStartByMaxAge (r : RingBuffer) (start stop : Nat) (maxBootstrapAgeMs : Option Nat) : Nat :=
  match maxBootstrapAgeMs with
  | none => start
  | some maxAgeMs =>
    if maxAgeMs = 0 ∨ stop ≤ start then stop
    else
      let latest := (List.range' start (stop - start)).reverse.findSome? r.read
      match latest.bind fun arc => frameTimeMs arc.frame with
      | none => start
      | some latestTsMs =>
        let minTsMs := latestTsMs - maxAgeMs
        let tooOld ringPos :=
          (r.read ringPos).any fun arc => (frameTimeMs arc.frame).any (· < minTsMs)
        match Slots.findBack tooOld start stop with
        | some ringPos => ringPos + 1
        | none => start

def clampStartByDiscontinuity (r : RingBuffer) (start stop : Nat) : Nat :=
  let broken ringPos := (r.read ringPos).any fun arc => arc.frame.discontinuity
  (Slots.findBack broken start stop).getD start

/-- Where the chosen key frame is, or what its lack comes to. -/
def chosenStart (chosen : Option IdrNode) (start stop : Nat) (policy : BootstrapPolicy) : Nat :=
  match chosen with
  | some node => node.ringPos
  | none => if policy.waitForNextRandomAccessPoint then stop else start

/-- The pruned list of key frames is stored. -/
def clampStartByRandomAccess (r : RingBuffer) (start stop : Nat) (policy : BootstrapPolicy) :
    Nat × RingBuffer :=
  let list := r.pruneIdrNodes r.idrList stop
  let within (node : IdrNode) := decide (start ≤ node.ringPos) && decide (node.ringPos < stop)
  match policy.mode with
  | .none => (start, r)
  | .liveTail =>
    (chosenStart (list.reverse.find? within) start stop policy, { r with idrList := list })
  | .fullGop => (chosenStart (list.find? within) start stop policy, { r with idrList := list })

def bootstrapFrames (r : RingBuffer) (policy : BootstrapPolicy) : List Arc × RingBuffer :=
  if policy.mode = .none ∨ policy.maxBootstrapFrames = 0 then ([], r)
  else
    let stop := r.writePos
    let start := stop - policy.maxBootstrapFrames
    let start := r.clampStartByMaxAge start stop policy.maxBootstrapAgeMs
    let start := r.clampStartByDiscontinuity start stop
    let (start, r') := r.clampStartByRandomAccess start stop policy
    ((List.range' start (stop - start)).filterMap r.read, r')

/-- The calls, one after the other. -/
inductive Operation
  | push (frame : AVFrame)
  | bootstrap (policy : BootstrapPolicy)

/-- Every pushed frame is an allocation of its own. -/
def apply (r : RingBuffer) : Operation → RingBuffer
  | .push frame => r.push ⟨r.writePos, frame⟩
  | .bootstrap policy => (r.bootstrapFrames policy).2

def after (capacity : Nat) (ops : List Operation) : RingBuffer := ops.foldl apply (new capacity)

def pushed (ops : List Operation) : List AVFrame :=
  ops.filterMap fun
    | .push frame => some frame
    | .bootstrap _ => none

/-- The allocations of the frames in the order in which they were pushed. -/
def shared (frames : List AVFrame) : List Arc := frames.mapIdx fun i frame => ⟨i, frame⟩

/-- What a subscriber is promised of the frames pushed before it came. -/
structure Recent (arcs : List Arc) (policy : BootstrapPolicy) (out : List Arc) : Prop where
  /-- A contiguous run that ends with the last frame, or nothing. -/
  contiguous : out <:+ arcs
  bounded : out.length ≤ policy.maxBootstrapFrames
  /-- Nothing is older than the latest discontinuity. -/
  continuous : ∀ before arc later, arcs = before ++ arc :: later →
    arc.frame.discontinuity = true → (∀ other ∈ later, other.frame.discontinuity = false) →
    out <:+ arc :: later
  keyed : policy.mode ≠ .none → policy.waitForNextRandomAccessPoint = true →
    ∀ arc ∈ out.head?, arc.frame.key = true

/-- The frames that are still in their slots. -/
def readable (capacity : Nat) (frames : List AVFrame) : List AVFrame :=
  frames.drop (frames.length - slotCount capacity)

/-- No frame that is still in its slot is too old. -/
def AllYoung (frames : List AVFrame) : Option Nat → Prop
  | none => True
  | some maxAgeMs => maxAgeMs ≠ 0 ∧
    ∀ latest ∈ frames.getLast?.bind frameTimeMs, ∀ frame ∈ frames, ∀ ts ∈ frameTimeMs frame,
      latest - maxAgeMs ≤ ts

/-- More frames are asked for than there are slots, after more pushes than slots, and
nothing moves the start forward to a frame that is still in its slot. -/
structure Aliased (capacity : Nat) (frames : List AVFrame) (policy : BootstrapPolicy) : Prop where
  asked : policy.mode ≠ .none
  wrapped : slotCount capacity < frames.length
  beyond : slotCount capacity < policy.maxBootstrapFrames
  young : AllYoung (readable capacity frames) policy.maxBootstrapAgeMs
  unbroken : ∀ frame ∈ readable capacity frames, frame.discontinuity = false
  keyless : ∀ frame ∈ readable capacity frames, frame.key = false
  hasty : policy.waitForNextRandomAccessPoint = false

theorem slotCount_pow (capacity : Nat) : ∃ k, slotCount capacity = 2 ^ k :=
  Nat.isPowerOfTwo_nextPowerOfTwo _

theorem slotCount_pos (capacity : Nat) : 0 < slotCount capacity :=
  Nat.pos_of_isPowerOfTwo (slotCount_pow capacity)

/-- What each push leaves in its slot. -/
def entries (capacity : Nat) (frames : List AVFrame) : List RingSlot :=
  frames.mapIdx fun p frame => ⟨some ⟨p, frame⟩, p / slotCount capacity + 1⟩

@[simp] theorem entries_length (capacity : Nat) (frames : List AVFrame) :
    (entries capacity frames).length = frames.length := List.length_mapIdx

/-- The node of a key frame at a position. -/
def nodeAt (capacity p : Nat) : IdrNode := ⟨p, p / slotCount capacity + 1⟩

/-- The slots hold the newest frames, and every key frame among these has its node. -/
structure Inv (capacity : Nat) (frames : List AVFrame) (r : RingBuffer) : Prop where
  size : r.slots.length = slotCount capacity
  mask : r.mask = slotCount capacity - 1
  writePos : r.writePos = frames.length
  holds : Slots.Holds {} r.slots (entries capacity frames)
  sound : ∀ node ∈ r.idrList, node.slotVersion = node.ringPos / slotCount capacity + 1 ∧
    ∃ frame, frames[node.ringPos]? = some frame ∧ frame.key = true
  complete : ∀ p frame, frames.length ≤ p + slotCount capacity → frames[p]? = some frame →
    frame.key = true → nodeAt capacity p ∈ r.idrList
  distinct : (r.idrList.map IdrNode.ringPos).Nodup

section Slots
variable {r : RingBuffer}

theorem slot_eq (hsize : r.slots.length = slotCount capacity)
    (hmask : r.mask = slotCount capacity - 1) (p : Nat) :
    r.slot p = r.slots.getD (p % r.slots.length) {} := by
  obtain ⟨k, hk⟩ := slotCount_pow capacity
  rw [slot, hmask, hsize, hk, Nat.and_two_pow_sub_one_eq_mod]

/-- Positions that were overwritten show a newer frame. -/
theorem slot_of_holds (hsize : r.slots.length = slotCount capacity)
    (hmask : r.mask = slotCount capacity - 1)
    (hholds : Slots.Holds {} r.slots (entries capacity frames)) (hp : p < frames.length) :
    ∃ q frame, q = Slots.newest (slotCount capacity) frames.length p ∧ frames[q]? = some frame ∧
      r.slot p = ⟨some ⟨q, frame⟩, q / slotCount capacity + 1⟩ := by
  have hread := hholds.read (hsize ▸ slotCount_pos capacity) (by simpa using hp)
  rw [hsize, entries_length] at hread
  have hlt : Slots.newest (slotCount capacity) frames.length p < frames.length :=
    Slots.newest_lt hp
  refine ⟨_, frames[Slots.newest (slotCount capacity) frames.length p], rfl,
    List.getElem?_eq_getElem hlt, ?_⟩
  rw [slot_eq hsize hmask, List.getD_eq_getElem?_getD, hsize, hread]
  simp [entries, hlt]

theorem mem_pruneIdrNodes : node ∈ r.pruneIdrNodes list stop ↔
    node ∈ list ∧ stop ≤ node.ringPos + r.slots.length ∧ node.ringPos < stop ∧
      (r.slot node.ringPos).version = node.slotVersion := by
  simp only [pruneIdrNodes, earliestReadablePos, List.mem_filter, Bool.and_eq_true,
    Bool.not_eq_true', Bool.or_eq_false_iff, decide_eq_false_iff_not, beq_iff_eq]
  constructor
  · rintro ⟨hmem, ⟨hmin, hstop⟩, hversion⟩
    have hmin := of_decide_eq_false hmin
    exact ⟨hmem, by omega, by omega, hversion⟩
  · rintro ⟨hmem, hmin, hstop, hversion⟩
    exact ⟨hmem, ⟨decide_eq_false (by omega), by omega⟩, hversion⟩

/-- Pruning keeps the nodes of the frames that are still in their slots, and no more nodes
than there are slots. -/
theorem prune_spec (hsize : r.slots.length = slotCount capacity)
    (hmask : r.mask = slotCount capacity - 1)
    (hholds : Slots.Holds {} r.slots (entries capacity frames))
    (hversion : ∀ node ∈ list, node.slotVersion = node.ringPos / slotCount capacity + 1)
    (hdistinct : (list.map IdrNode.ringPos).Nodup) :
    (∀ node, node ∈ r.pruneIdrNodes list frames.length ↔ node ∈ list ∧
      frames.length ≤ node.ringPos + slotCount capacity ∧ node.ringPos < frames.length) ∧
    ((r.pruneIdrNodes list frames.length).map IdrNode.ringPos).Nodup ∧
    (r.pruneIdrNodes list frames.length).length ≤ slotCount capacity := by
  have hmem : ∀ node, node ∈ r.pruneIdrNodes list frames.length ↔ node ∈ list ∧
      frames.length ≤ node.ringPos + slotCount capacity ∧ node.ringPos < frames.length := by
    intro node
    rw [mem_pruneIdrNodes, hsize]
    constructor
    · rintro ⟨hnode, hmin, hstop, -⟩
      exact ⟨hnode, hmin, hstop⟩
    · rintro ⟨hnode, hmin, hstop⟩
      obtain ⟨q, frame, rfl, -, hslot⟩ := slot_of_holds hsize hmask hholds hstop
      rw [Slots.newest_of_recent (slotCount_pos capacity) hmin] at hslot
      exact ⟨hnode, hmin, hstop, by rw [hslot, hversion node hnode]⟩
  have hnodup : ((r.pruneIdrNodes list frames.length).map IdrNode.ringPos).Nodup :=
    hdistinct.sublist (List.filter_sublist.map _)
  refine ⟨hmem, hnodup, ?_⟩
  have hwindow : (r.pruneIdrNodes list frames.length).map IdrNode.ringPos ⊆
      List.range' (frames.length - slotCount capacity) (slotCount capacity) := by
    intro p hp
    obtain ⟨node, hnode, rfl⟩ := List.mem_map.mp hp
    obtain ⟨-, hmin, hstop⟩ := (hmem node).mp hnode
    exact List.mem_range'_1.mpr ⟨by omega, by omega⟩
  have hlen := hnodup.length_le_of_subset hwindow
  simpa using hlen

end Slots

section Keeps
variable {r : RingBuffer}

theorem Inv.new (capacity : Nat) : Inv capacity [] (new capacity) where
  size := List.length_replicate
  mask := rfl
  writePos := rfl
  holds := Slots.Holds.init _
  sound _ h := by cases h
  complete p frame _ h := by simp at h
  distinct := List.nodup_nil

/-- The slot that is written next carries the version of the round before. -/
theorem Inv.next_version (h : Inv capacity frames r) :
    (r.slot r.writePos).version + 1 = frames.length / slotCount capacity + 1 := by
  have hpos := slotCount_pos capacity
  rw [slot_eq h.size h.mask, h.writePos, List.getD_eq_getElem?_getD, h.size]
  rcases Nat.lt_or_ge frames.length (slotCount capacity) with hfirst | hagain
  · have hfresh := h.holds.fresh frames.length (by simp) (by rw [h.size]; exact hfirst)
    rw [Nat.mod_eq_of_lt hfirst, Nat.div_eq_of_lt hfirst, hfresh]
    rfl
  · have hkept := h.holds.kept (frames.length - slotCount capacity) (by simp; omega)
      (by rw [h.size, entries_length]; omega)
    have hbefore : frames.length - slotCount capacity < frames.length := by omega
    rw [h.size, ← Nat.mod_eq_sub_mod hagain] at hkept
    rw [hkept, Nat.div_eq_sub_div hpos hagain]
    simp [entries, hbefore]

theorem entries_concat (capacity : Nat) (frames : List AVFrame) (frame : AVFrame) :
    entries capacity (frames ++ [frame]) = entries capacity frames ++
      [⟨some ⟨frames.length, frame⟩, frames.length / slotCount capacity + 1⟩] :=
  List.mapIdx_concat

/-- The slots and the position after a push, before key frames are recorded. -/
def stored (r : RingBuffer) (frame : Arc) : RingBuffer :=
  { r with
    writePos := r.writePos + 1
    slots := r.slots.set (r.writePos &&& r.mask) ⟨some frame, (r.slot r.writePos).version + 1⟩ }

theorem Inv.stored_holds (h : Inv capacity frames r) (frame : AVFrame) :
    (r.stored ⟨r.writePos, frame⟩).slots.length = slotCount capacity ∧
    Slots.Holds {} (r.stored ⟨r.writePos, frame⟩).slots (entries capacity (frames ++ [frame])) := by
  have hsize : 0 < r.slots.length := h.size ▸ slotCount_pos capacity
  obtain ⟨k, hk⟩ := slotCount_pow capacity
  have hindex : r.writePos &&& r.mask = (entries capacity frames).length % r.slots.length := by
    rw [h.mask, h.writePos, h.size, hk, Nat.and_two_pow_sub_one_eq_mod, entries_length]
  refine ⟨by simp [stored, h.size], ?_⟩
  rw [stored, hindex, h.next_version, h.writePos, entries_concat]
  exact h.holds.push hsize _

theorem Inv.push (h : Inv capacity frames r) (frame : AVFrame) :
    Inv capacity (frames ++ [frame]) (r.push ⟨r.writePos, frame⟩) := by
  obtain ⟨hsize, hholds⟩ := h.stored_holds frame
  have hlen : (frames ++ [frame]).length = frames.length + 1 := by simp
  have hpush : r.push ⟨r.writePos, frame⟩ = if frame.key then
      (r.stored ⟨r.writePos, frame⟩).recordIdr r.writePos ((r.slot r.writePos).version + 1)
    else r.stored ⟨r.writePos, frame⟩ := rfl
  have hsound : ∀ node ∈ r.idrList, node.slotVersion = node.ringPos / slotCount capacity + 1 ∧
      ∃ f, (frames ++ [frame])[node.ringPos]? = some f ∧ f.key = true := by
    intro node hnode
    obtain ⟨hversion, f, hf, hkey⟩ := h.sound node hnode
    obtain ⟨hlt, -⟩ := List.getElem?_eq_some_iff.mp hf
    exact ⟨hversion, f, by rw [List.getElem?_append_left hlt, hf], hkey⟩
  have hcomplete : ∀ p f, frames.length + 1 ≤ p + slotCount capacity → p < frames.length →
      (frames ++ [frame])[p]? = some f → f.key = true →
      nodeAt capacity p ∈ r.idrList := by
    intro p f hrecent hp hf hkey
    rw [List.getElem?_append_left hp] at hf
    exact h.complete p f (by omega) hf hkey
  rw [hpush, h.next_version, h.writePos]
  split
  · rename_i hkey
    have hversions : ∀ node ∈ r.idrList ++ [nodeAt capacity frames.length],
        node.slotVersion = node.ringPos / slotCount capacity + 1 := by
      intro node hnode
      rcases List.mem_append.mp hnode with hnode | hnode
      · exact (hsound node hnode).1
      · rw [List.mem_singleton.mp hnode]
        rfl
    have hdistinct : ((r.idrList ++
        [nodeAt capacity frames.length]).map IdrNode.ringPos).Nodup := by
      rw [List.map_append, List.nodup_append]
      refine ⟨h.distinct, by simp, fun p hp q hq => ?_⟩
      obtain ⟨node, hnode, rfl⟩ := List.mem_map.mp hp
      obtain ⟨-, f, hf, -⟩ := h.sound node hnode
      obtain ⟨hlt, -⟩ := List.getElem?_eq_some_iff.mp hf
      rw [List.mem_singleton.mp hq]
      exact Nat.ne_of_lt hlt
    rw [h.writePos] at hsize hholds
    obtain ⟨hmem, hnodup, hfew⟩ :=
      prune_spec (r := r.stored ⟨frames.length, frame⟩) hsize h.mask hholds hversions hdistinct
    have hlist : ((r.stored ⟨frames.length, frame⟩).recordIdr frames.length
        (frames.length / slotCount capacity + 1)).idrList =
        (r.stored ⟨frames.length, frame⟩).pruneIdrNodes (r.idrList ++
          [nodeAt capacity frames.length]) (frames ++ [frame]).length := by
      have hpos : (r.stored ⟨frames.length, frame⟩).writePos = (frames ++ [frame]).length := by
        rw [hlen, ← h.writePos]
        rfl
      dsimp only [recordIdr]
      rw [hpos, hsize, show (r.stored ⟨frames.length, frame⟩).idrList = r.idrList from rfl,
        ← nodeAt, Nat.sub_eq_zero_of_le (by omega), List.drop_zero]
    constructor
    case size => exact hsize
    case mask => exact h.mask
    case writePos => rw [hlen, ← h.writePos]; rfl
    case holds => exact hholds
    case sound =>
      rw [hlist]
      intro node hnode
      rcases List.mem_append.mp ((hmem node).mp hnode).1 with hnode | hnode
      · exact hsound node hnode
      · rw [List.mem_singleton.mp hnode]
        exact ⟨rfl, frame, by simp [nodeAt], hkey⟩
    case complete =>
      rw [hlist]
      intro p f hrecent hf hfkey
      obtain ⟨hp, -⟩ := List.getElem?_eq_some_iff.mp hf
      refine (hmem _).mpr ⟨?_, hrecent, hp⟩
      rw [hlen] at hrecent hp
      rcases Nat.lt_succ_iff_lt_or_eq.mp hp with hold | rfl
      · exact List.mem_append_left _ (hcomplete p f hrecent hold hf hfkey)
      · exact List.mem_append_right _ (List.mem_singleton_self _)
    case distinct =>
      rw [hlist]
      exact hnodup
  · rename_i hkey
    rw [h.writePos] at hsize hholds
    constructor
    case size => exact hsize
    case mask => exact h.mask
    case writePos => rw [hlen, ← h.writePos]; rfl
    case holds => exact hholds
    case sound => exact hsound
    case complete =>
      intro p f hrecent hf hfkey
      obtain ⟨hp, -⟩ := List.getElem?_eq_some_iff.mp hf
      rw [hlen] at hrecent hp
      rcases Nat.lt_succ_iff_lt_or_eq.mp hp with hold | rfl
      · exact hcomplete p f hrecent hold hf hfkey
      · obtain rfl : frame = f := by simpa using hf
        exact absurd hfkey hkey
    case distinct => exact h.distinct

/-- A list of nodes that was pruned serves as well. -/
theorem Inv.pruned (h : Inv capacity frames r) :
    Inv capacity frames { r with idrList := r.pruneIdrNodes r.idrList r.writePos } := by
  obtain ⟨hmem, hnodup, -⟩ := prune_spec h.size h.mask h.holds
    (fun node hnode => (h.sound node hnode).1) h.distinct
  rw [← h.writePos] at hmem hnodup
  refine ⟨h.size, h.mask, h.writePos, h.holds, fun node hnode => ?_, fun p f hrecent hf hkey => ?_,
    hnodup⟩
  · exact h.sound node ((hmem node).mp hnode).1
  · obtain ⟨hp, -⟩ := List.getElem?_eq_some_iff.mp hf
    rw [h.writePos] at hmem
    rw [h.writePos]
    exact (hmem _).mpr ⟨h.complete p f hrecent hf hkey, hrecent, hp⟩

theorem Inv.bootstrap (h : Inv capacity frames r) (policy : BootstrapPolicy) :
    Inv capacity frames (r.bootstrapFrames policy).2 := by
  unfold bootstrapFrames
  split
  · exact h
  · dsimp only
    unfold clampStartByRandomAccess
    cases policy.mode with
    | none => exact h
    | liveTail => exact h.pruned
    | fullGop => exact h.pruned

/-- After any calls the ring holds the frames that were pushed. -/
theorem after_inv (capacity : Nat) (ops : List Operation) :
    Inv capacity (pushed ops) (after capacity ops) := by
  induction ops using List.reverseRecOn with
  | nil => exact Inv.new capacity
  | append_singleton ops op ih =>
    rw [after, List.foldl_append, ← after]
    cases op with
    | push frame =>
      have hpushed : pushed (ops ++ [.push frame]) = pushed ops ++ [frame] := by simp [pushed]
      rw [hpushed]
      exact ih.push frame
    | bootstrap policy =>
      have hpushed : pushed (ops ++ [.bootstrap policy]) = pushed ops := by simp [pushed]
      rw [hpushed]
      exact ih.bootstrap policy

end Keeps

section Clamps
variable {r : RingBuffer}

theorem Inv.read (h : Inv capacity frames r) (hp : p < frames.length) :
    ∃ q frame, q = Slots.newest (slotCount capacity) frames.length p ∧ frames[q]? = some frame ∧
      r.read p = some ⟨q, frame⟩ := by
  obtain ⟨q, frame, hq, hframe, hslot⟩ := slot_of_holds h.size h.mask h.holds hp
  exact ⟨q, frame, hq, hframe, by rw [RingBuffer.read, hslot]⟩

/-- A position that was not overwritten shows the frame that was pushed there. -/
theorem Inv.read_recent (h : Inv capacity frames r)
    (hrecent : frames.length ≤ p + slotCount capacity) (hframe : frames[p]? = some frame) :
    r.read p = some ⟨p, frame⟩ := by
  obtain ⟨hp, -⟩ := List.getElem?_eq_some_iff.mp hframe
  obtain ⟨q, other, hq, hother, hread⟩ := h.read hp
  rw [Slots.newest_of_recent (slotCount_pos capacity) hrecent] at hq
  subst hq
  rw [hread, Option.some.inj (hframe.symm.trans hother)]

theorem mem_readable : frame ∈ readable capacity frames ↔
    ∃ p, frames.length ≤ p + slotCount capacity ∧ frames[p]? = some frame := by
  rw [readable, List.mem_iff_getElem?]
  constructor
  · rintro ⟨i, hi⟩
    rw [List.getElem?_drop] at hi
    exact ⟨_, by omega, hi⟩
  · rintro ⟨p, hp, hframe⟩
    refine ⟨p - (frames.length - slotCount capacity), ?_⟩
    rw [List.getElem?_drop, Nat.add_sub_cancel' (by omega), hframe]

/-- A search from the last frame down finds a frame that is still in its slot, as every
other position only shows such a frame again. -/
theorem Inv.findBack (h : Inv capacity frames r) (ask : Arc → Bool) (start : Nat) :
    (∃ p frame, Slots.findBack (fun p => (r.read p).any ask) start frames.length = some p ∧
      start ≤ p ∧ frames.length ≤ p + slotCount capacity ∧ frames[p]? = some frame ∧
      ask ⟨p, frame⟩ = true ∧ ∀ q other, p < q → frames[q]? = some other →
        ask ⟨q, other⟩ = false) ∨
    (Slots.findBack (fun p => (r.read p).any ask) start frames.length = none ∧
      ∀ q frame, start ≤ q → frames.length ≤ q + slotCount capacity → frames[q]? = some frame →
        ask ⟨q, frame⟩ = false) := by
  cases hfind : Slots.findBack (fun p => (r.read p).any ask) start frames.length with
  | none =>
    refine .inr ⟨rfl, fun q frame hstart hrecent hframe => ?_⟩
    obtain ⟨hq, -⟩ := List.getElem?_eq_some_iff.mp hframe
    have hno := Slots.findBack_none.mp hfind q hstart hq
    rwa [h.read_recent hrecent hframe, Option.any_some] at hno
  | some p =>
    obtain ⟨hstart, hp, hask, hlast⟩ := Slots.findBack_some hfind
    obtain ⟨q, frame, hq, hframe, hread⟩ := h.read hp
    rw [hread, Option.any_some] at hask
    have hrecent := Slots.newest_recent (slotCount_pos capacity) hp
    have hle : p ≤ Slots.newest (slotCount capacity) frames.length p := Slots.le_newest
    rw [← hq] at hrecent hle
    have hqp : q = p := by
      rcases Nat.lt_or_eq_of_le hle with hlt | heq
      · obtain ⟨hqn, -⟩ := List.getElem?_eq_some_iff.mp hframe
        have hno := hlast q hlt hqn
        rw [h.read_recent hrecent hframe, Option.any_some, hask] at hno
        cases hno
      · exact heq.symm
    subst hqp
    refine .inl ⟨q, frame, rfl, hstart, hrecent, hframe, hask, fun q' other hlt hother => ?_⟩
    obtain ⟨hq', -⟩ := List.getElem?_eq_some_iff.mp hother
    have hno := hlast q' hlt hq'
    rwa [h.read_recent (by omega) hother, Option.any_some] at hno

/-- What holds of no frame in its slot is found nowhere. -/
theorem Inv.findBack_none (h : Inv capacity frames r) {ask : Arc → Bool}
    (hno : ∀ q frame, frames.length ≤ q + slotCount capacity → frames[q]? = some frame →
      ask ⟨q, frame⟩ = false) (start : Nat) :
    Slots.findBack (fun p => (r.read p).any ask) start frames.length = none := by
  rcases h.findBack ask start with ⟨p, frame, -, -, hrecent, hframe, hask, -⟩ | ⟨hnone, -⟩
  · rw [hno p frame hrecent hframe] at hask
    cases hask
  · exact hnone

/-- The latest frame is the first that the age clamp looks at. -/
theorem Inv.latest (h : Inv capacity frames r) (hstart : start < frames.length) : ∃ arc,
    (List.range' start (frames.length - start)).reverse.findSome? r.read = some arc ∧
      (readable capacity frames).getLast? = some arc.frame := by
  have hlast : frames[frames.length - 1]? = some frames[frames.length - 1] :=
    List.getElem?_eq_getElem (by omega)
  have hpos := slotCount_pos capacity
  have hread := h.read_recent (by omega) hlast
  refine ⟨⟨frames.length - 1, frames[frames.length - 1]⟩, ?_, ?_⟩
  · obtain ⟨k, hk⟩ : ∃ k, frames.length - start = k + 1 := ⟨frames.length - start - 1, by omega⟩
    rw [hk, List.range'_1_concat, List.reverse_append, List.reverse_singleton,
      List.singleton_append, List.findSome?_cons, show start + k = frames.length - 1 by omega,
      hread]
  · rw [readable, List.getLast?_drop, if_neg (by omega), List.getLast?_eq_getElem?]
    exact hlast

theorem Inv.maxAge (h : Inv capacity frames r) (hstart : start ≤ frames.length)
    (age : Option Nat) :
    start ≤ r.clampStartByMaxAge start frames.length age ∧
    r.clampStartByMaxAge start frames.length age ≤ frames.length ∧
    (r.clampStartByMaxAge start frames.length age + slotCount capacity < frames.length →
      r.clampStartByMaxAge start frames.length age = start ∧
        AllYoung (readable capacity frames) age) := by
  unfold clampStartByMaxAge
  cases age with
  | none => exact ⟨Nat.le_refl _, hstart, fun _ => ⟨rfl, trivial⟩⟩
  | some maxAgeMs =>
    dsimp only
    split
    · exact ⟨hstart, Nat.le_refl _, fun hlt => by omega⟩
    · rename_i hask
      obtain ⟨hage, hlt⟩ := not_or.mp hask
      obtain ⟨arc, harc, hlast⟩ := h.latest (Nat.lt_of_not_le hlt)
      rw [harc, Option.bind_some]
      cases htime : frameTimeMs arc.frame with
      | none =>
        exact ⟨Nat.le_refl _, hstart, fun _ => ⟨rfl, hage, fun latest hlatest => by
          simp [hlast, htime] at hlatest⟩⟩
      | some latestTsMs =>
        dsimp only
        rcases h.findBack (fun arc => (frameTimeMs arc.frame).any (· < latestTsMs - maxAgeMs))
          start with ⟨p, frame, hfind, hle, hrecent, hframe, -, -⟩ | ⟨hnone, hyoung⟩
        · rw [hfind]
          obtain ⟨hp, -⟩ := List.getElem?_eq_some_iff.mp hframe
          exact ⟨by dsimp only; omega, hp, fun hlt => by dsimp only at hlt; omega⟩
        · rw [hnone]
          refine ⟨Nat.le_refl _, hstart, fun hlow => ⟨rfl, hage, ?_⟩⟩
          intro latest hlatest frame hframe ts hts
          rw [hlast, Option.bind_some, htime, Option.mem_some_iff] at hlatest
          obtain ⟨q, hrecent, hq⟩ := mem_readable.mp hframe
          have hno := hyoung q frame (by dsimp only at hlow; omega) hrecent hq
          rw [Option.mem_def.mp hts, Option.any_some] at hno
          have := of_decide_eq_false hno
          omega

/-- Frames that are all young leave the start where it is. -/
theorem Inv.maxAge_kept {age : Option Nat} (h : Inv capacity frames r)
    (hlt : start < frames.length)
    (hyoung : AllYoung (readable capacity frames) age) :
    r.clampStartByMaxAge start frames.length age = start := by
  unfold clampStartByMaxAge
  cases age with
  | none => rfl
  | some maxAgeMs =>
    obtain ⟨hage, hyoung⟩ := hyoung
    dsimp only
    rw [if_neg (not_or.mpr ⟨hage, Nat.not_le_of_lt hlt⟩)]
    obtain ⟨arc, harc, hlast⟩ := h.latest hlt
    rw [harc, Option.bind_some]
    cases htime : frameTimeMs arc.frame with
    | none => rfl
    | some latestTsMs =>
      dsimp only
      rw [h.findBack_none]
      intro q frame hrecent hframe
      cases hts : frameTimeMs frame with
      | none => rfl
      | some ts =>
        have hle := hyoung latestTsMs (by simp [hlast, htime]) frame
          (mem_readable.mpr ⟨q, hrecent, hframe⟩) ts hts
        exact decide_eq_false (by omega)

theorem Inv.discontinuity (h : Inv capacity frames r) (hstart : start ≤ frames.length) :
    start ≤ r.clampStartByDiscontinuity start frames.length ∧
    r.clampStartByDiscontinuity start frames.length ≤ frames.length ∧
    (∀ p frame, frames.length ≤ p + slotCount capacity → frames[p]? = some frame →
      frame.discontinuity = true → p ≤ r.clampStartByDiscontinuity start frames.length) ∧
    (r.clampStartByDiscontinuity start frames.length + slotCount capacity < frames.length →
      r.clampStartByDiscontinuity start frames.length = start ∧
        ∀ frame ∈ readable capacity frames, frame.discontinuity = false) := by
  unfold clampStartByDiscontinuity
  rcases h.findBack (fun arc => arc.frame.discontinuity) start with
    ⟨p, frame, hfind, hle, hrecent, hframe, -, hlater⟩ | ⟨hnone, hno⟩
  · dsimp only
    rw [hfind, Option.getD_some]
    obtain ⟨hp, -⟩ := List.getElem?_eq_some_iff.mp hframe
    refine ⟨hle, by omega, fun q other _ hother hbroken => ?_, fun hlow => by omega⟩
    rcases Nat.lt_or_ge p q with hlt | hge
    · rw [hlater q other hlt hother] at hbroken
      cases hbroken
    · exact hge
  · dsimp only
    rw [hnone, Option.getD_none]
    refine ⟨Nat.le_refl _, hstart, fun q other hrecent hother hbroken => ?_, fun hlow => ⟨rfl, ?_⟩⟩
    · rcases Nat.lt_or_ge q start with hlt | hge
      · exact Nat.le_of_lt hlt
      · rw [hno q other hge hrecent hother] at hbroken
        cases hbroken
    · intro frame hframe
      obtain ⟨q, hrecent, hq⟩ := mem_readable.mp hframe
      exact hno q frame (by omega) hrecent hq

/-- The start is at a key frame that is in its slot, or there is none in sight. -/
theorem Inv.chosen (h : Inv capacity frames r) (hstart : start ≤ frames.length)
    (policy : BootstrapPolicy) {list : List IdrNode}
    (hlist : ∀ node, node ∈ list ↔ node ∈ r.pruneIdrNodes r.idrList frames.length) :
    let s := chosenStart (list.find? fun node =>
      decide (start ≤ node.ringPos) && decide (node.ringPos < frames.length))
      start frames.length policy
    start ≤ s ∧ s ≤ frames.length ∧
    (policy.waitForNextRandomAccessPoint = true →
      s = frames.length ∨ ∃ frame, frames[s]? = some frame ∧ frame.key = true) ∧
    (s + slotCount capacity < frames.length → s = start ∧
      policy.waitForNextRandomAccessPoint = false ∧
        ∀ frame ∈ readable capacity frames, frame.key = false) := by
  obtain ⟨hmem, -, -⟩ := prune_spec h.size h.mask h.holds
    (fun node hnode => (h.sound node hnode).1) h.distinct
  dsimp only
  cases hfind : list.find? fun node =>
      decide (start ≤ node.ringPos) && decide (node.ringPos < frames.length) with
  | some node =>
    obtain ⟨hnode, hrecent, hlt⟩ :=
      (hmem node).mp ((hlist node).mp (List.mem_of_find?_eq_some hfind))
    have hwithin := List.find?_some hfind
    simp only [Bool.and_eq_true, decide_eq_true_eq] at hwithin
    exact ⟨hwithin.1, Nat.le_of_lt hlt, fun _ => .inr (h.sound node hnode).2,
      fun hlow => by simp only [chosenStart] at hlow; omega⟩
  | none =>
    unfold chosenStart
    cases hwait : policy.waitForNextRandomAccessPoint with
    | true =>
      refine ⟨hstart, Nat.le_refl _, fun _ => .inl rfl, fun hlow => ?_⟩
      simp only [if_true] at hlow
      omega
    | false =>
      refine ⟨Nat.le_refl _, hstart, fun hfalse => absurd hfalse Bool.false_ne_true,
        fun hlow => ⟨rfl, rfl, ?_⟩⟩
      intro frame hframe
      obtain ⟨p, hrecent, hp⟩ := mem_readable.mp hframe
      obtain ⟨hlt, -⟩ := List.getElem?_eq_some_iff.mp hp
      cases hkey : frame.key with
      | false => rfl
      | true =>
        have hnode := (hlist _).mpr
          ((hmem _).mpr ⟨h.complete p frame hrecent hp hkey, hrecent, hlt⟩)
        have hout := List.find?_eq_none.mp hfind _ hnode
        simp only [Bool.false_eq_true, if_false] at hlow
        have hle : start ≤ (nodeAt capacity p).ringPos := by
          dsimp only [nodeAt]
          omega
        exact absurd (Bool.and_eq_true_iff.mpr ⟨decide_eq_true hle, decide_eq_true hlt⟩) hout

theorem Inv.randomAccess (h : Inv capacity frames r) (hstart : start ≤ frames.length)
    {policy : BootstrapPolicy} (hmode : policy.mode ≠ .none) :
    let s := (r.clampStartByRandomAccess start frames.length policy).1
    start ≤ s ∧ s ≤ frames.length ∧
    (policy.waitForNextRandomAccessPoint = true →
      s = frames.length ∨ ∃ frame, frames[s]? = some frame ∧ frame.key = true) ∧
    (s + slotCount capacity < frames.length → s = start ∧
      policy.waitForNextRandomAccessPoint = false ∧
        ∀ frame ∈ readable capacity frames, frame.key = false) := by
  unfold clampStartByRandomAccess
  cases hm : policy.mode with
  | none => exact absurd hm hmode
  | liveTail => exact h.chosen hstart policy fun node => List.mem_reverse
  | fullGop => exact h.chosen hstart policy fun node => Iff.rfl

/-- With no key frame in its slot and no wait for one, the start stays. -/
theorem Inv.randomAccess_kept (h : Inv capacity frames r) {policy : BootstrapPolicy}
    (hkeyless : ∀ frame ∈ readable capacity frames, frame.key = false)
    (hhasty : policy.waitForNextRandomAccessPoint = false) (start : Nat) :
    (r.clampStartByRandomAccess start frames.length policy).1 = start := by
  have hempty : r.pruneIdrNodes r.idrList frames.length = [] := by
    obtain ⟨hmem, -, -⟩ := prune_spec h.size h.mask h.holds
      (fun node hnode => (h.sound node hnode).1) h.distinct
    refine List.eq_nil_iff_forall_not_mem.mpr fun node hnode => ?_
    obtain ⟨hlisted, hrecent, -⟩ := (hmem node).mp hnode
    obtain ⟨-, frame, hframe, hkey⟩ := h.sound node hlisted
    rw [hkeyless frame (mem_readable.mpr ⟨_, hrecent, hframe⟩)] at hkey
    cases hkey
  unfold clampStartByRandomAccess
  rw [hempty]
  cases policy.mode <;> simp [chosenStart, hhasty]

end Clamps

theorem shared_getElem? (frames : List AVFrame) (p : Nat) :
    (shared frames)[p]? = frames[p]?.map fun frame => ⟨p, frame⟩ := List.getElem?_mapIdx

@[simp] theorem shared_length (frames : List AVFrame) : (shared frames).length = frames.length :=
  List.length_mapIdx

section Bootstrap
variable {r : RingBuffer}

/-- Where the bootstrap starts: after each clamp it is no earlier than before it. -/
def startOf (r : RingBuffer) (policy : BootstrapPolicy) : Nat :=
  (r.clampStartByRandomAccess
    (r.clampStartByDiscontinuity
      (r.clampStartByMaxAge (r.writePos - policy.maxBootstrapFrames) r.writePos
        policy.maxBootstrapAgeMs) r.writePos) r.writePos policy).1

theorem bootstrapFrames_eq {policy : BootstrapPolicy} (hmode : policy.mode ≠ .none)
    (hmax : policy.maxBootstrapFrames ≠ 0) : (r.bootstrapFrames policy).1 =
      (List.range' (r.startOf policy) (r.writePos - r.startOf policy)).filterMap r.read := by
  rw [bootstrapFrames, if_neg (not_or.mpr ⟨hmode, hmax⟩)]
  rfl

/-- From a start that is not overwritten the frames are read in the order of the pushes. -/
theorem Inv.reads_suffix (h : Inv capacity frames r)
    (hrecent : frames.length ≤ start + slotCount capacity) :
    (List.range' start (frames.length - start)).filterMap r.read = (shared frames).drop start := by
  have hfilter := Slots.filterMap_range (shared frames) start
  rw [shared_length] at hfilter
  rw [← hfilter]
  refine List.filterMap_congr fun p hp => ?_
  have hrange := List.mem_range'_1.mp hp
  have hlt : p < frames.length := by omega
  rw [h.read_recent (by omega) (List.getElem?_eq_getElem hlt), shared_getElem?,
    List.getElem?_eq_getElem hlt]
  rfl

/-- From an overwritten start every frame read is one that is still in its slot. -/
theorem Inv.reads_recent (h : Inv capacity frames r) {arc : Arc}
    (harc : arc ∈ (List.range' start (frames.length - start)).filterMap r.read) :
    frames.length ≤ arc.address + slotCount capacity := by
  obtain ⟨p, hp, hread⟩ := List.mem_filterMap.mp harc
  have hrange := List.mem_range'_1.mp hp
  have hlt : p < frames.length := by omega
  obtain ⟨q, frame, hq, -, hread'⟩ := h.read hlt
  rw [hread'] at hread
  cases hread
  dsimp only
  rw [hq]
  exact Slots.newest_recent (slotCount_pos capacity) hlt

theorem Inv.reads_length (h : Inv capacity frames r) (start : Nat) :
    ((List.range' start (frames.length - start)).filterMap r.read).length =
      frames.length - start := by
  rw [List.filterMap_length_eq_length.mpr, List.length_range']
  intro p hp
  have hrange := List.mem_range'_1.mp hp
  obtain ⟨q, frame, -, -, hread⟩ := h.read (p := p) (by omega)
  rw [hread]
  rfl

/-- The start of a bootstrap: it is not too early, and it is overwritten only when nothing
moved it. -/
theorem Inv.startOf (h : Inv capacity frames r) {policy : BootstrapPolicy}
    (hmode : policy.mode ≠ .none) :
    frames.length ≤ r.startOf policy + policy.maxBootstrapFrames ∧
    r.startOf policy ≤ frames.length ∧
    (∀ p frame, frames.length ≤ p + slotCount capacity → frames[p]? = some frame →
      frame.discontinuity = true → p ≤ r.startOf policy) ∧
    (policy.waitForNextRandomAccessPoint = true → r.startOf policy = frames.length ∨
      ∃ frame, frames[r.startOf policy]? = some frame ∧ frame.key = true) ∧
    (r.startOf policy + slotCount capacity < frames.length → Aliased capacity frames policy) := by
  obtain ⟨hage, hageStop, hageLow⟩ := h.maxAge
    (Nat.sub_le frames.length policy.maxBootstrapFrames) policy.maxBootstrapAgeMs
  obtain ⟨hbreak, hbreakStop, hlatest, hbreakLow⟩ := h.discontinuity hageStop
  obtain ⟨hkey, hkeyStop, hkeyed, hkeyLow⟩ := h.randomAccess hbreakStop hmode
  rw [RingBuffer.startOf, h.writePos]
  refine ⟨by omega, hkeyStop, fun p frame hrecent hframe hbroken => ?_, hkeyed, fun hlow => ?_⟩
  · exact Nat.le_trans (hlatest p frame hrecent hframe hbroken) hkey
  · obtain ⟨hkeySame, hhasty, hkeyless⟩ := hkeyLow hlow
    obtain ⟨hbreakSame, hunbroken⟩ := hbreakLow (by omega)
    obtain ⟨hageSame, hyoung⟩ := hageLow (by omega)
    exact ⟨hmode, by omega, by omega, hyoung, hunbroken, hkeyless, hhasty⟩

theorem Inv.startOf_aliased (h : Inv capacity frames r) {policy : BootstrapPolicy}
    (ha : Aliased capacity frames policy) :
    r.startOf policy = frames.length - policy.maxBootstrapFrames := by
  have hpos := slotCount_pos capacity
  have hwrapped := ha.wrapped
  have hbeyond := ha.beyond
  have hbreak : r.clampStartByDiscontinuity (frames.length - policy.maxBootstrapFrames)
      frames.length = frames.length - policy.maxBootstrapFrames := by
    unfold clampStartByDiscontinuity
    dsimp only
    rw [h.findBack_none fun q frame hrecent hframe =>
      ha.unbroken frame (mem_readable.mpr ⟨q, hrecent, hframe⟩)]
    rfl
  rw [RingBuffer.startOf, h.writePos, h.maxAge_kept (by omega) ha.young, hbreak,
    h.randomAccess_kept ha.keyless ha.hasty]

/-- A bootstrap that starts at a frame in its slot. -/
theorem Inv.recent (h : Inv capacity frames r) {policy : BootstrapPolicy}
    (hmode : policy.mode ≠ .none)
    (hrecent : frames.length ≤ r.startOf policy + slotCount capacity) :
    Recent (shared frames) policy ((shared frames).drop (r.startOf policy)) := by
  obtain ⟨hmax, hstop, hlatest, hkeyed, -⟩ := h.startOf hmode
  refine ⟨List.drop_suffix _ _, ?_, fun before arc later heq hbroken hlater => ?_,
    fun _ hwait => ?_⟩
  · rw [List.length_drop, shared_length]
    omega
  · have hat : (shared frames)[before.length]? = some arc := by simp [heq]
    have hbefore : before.length ≤ r.startOf policy := by
      rw [shared_getElem?, Option.map_eq_some_iff] at hat
      obtain ⟨frame, hframe, rfl⟩ := hat
      rcases Nat.lt_or_ge (before.length + slotCount capacity) frames.length with hlow | hge
      · omega
      · exact hlatest _ frame hge hframe hbroken
    refine List.suffix_of_suffix_length_le (List.drop_suffix _ _) ⟨before, heq.symm⟩ ?_
    have hlen := congrArg List.length heq
    rw [List.length_append] at hlen
    rw [List.length_drop]
    omega
  · rcases hkeyed hwait with hend | ⟨frame, hframe, hkey⟩
    · simp [hend]
    · intro arc harc
      rw [List.head?_drop, shared_getElem?, hframe] at harc
      cases harc
      exact hkey

/-- The frames that a bootstrap returns are what a subscriber is promised exactly when it does
not read positions that were overwritten. -/
theorem bootstrap_recent_iff (capacity : Nat) (ops : List Operation) (policy : BootstrapPolicy) :
    Recent (shared (pushed ops)) policy ((after capacity ops).bootstrapFrames policy).1 ↔
      ¬ Aliased capacity (pushed ops) policy := by
  have h := after_inv capacity ops
  generalize pushed ops = frames, after capacity ops = r at h ⊢
  by_cases hnothing : policy.mode = .none ∨ policy.maxBootstrapFrames = 0
  · have hempty : (r.bootstrapFrames policy).1 = [] := by rw [bootstrapFrames, if_pos hnothing]
    rw [hempty]
    refine iff_of_true ⟨List.nil_suffix, Nat.zero_le _, fun _ _ _ _ _ _ => List.nil_suffix,
      fun _ _ _ harc => by cases harc⟩ fun ha => ?_
    rcases hnothing with hmode | hmax
    · exact ha.asked hmode
    · have := ha.beyond
      omega
  · obtain ⟨hmode, hmax⟩ := not_or.mp hnothing
    rw [bootstrapFrames_eq hmode hmax, h.writePos]
    obtain ⟨-, hstop, -, -, hlow⟩ := h.startOf hmode
    rcases Nat.lt_or_ge (r.startOf policy + slotCount capacity) frames.length with halias | hrecent
    · refine iff_of_false (fun hpromised => ?_) (not_not.mpr (hlow halias))
      obtain ⟨front, hfront⟩ := hpromised.contiguous
      have hlen := congrArg List.length hfront
      rw [List.length_append, h.reads_length, shared_length] at hlen
      have hfirst : (shared frames)[r.startOf policy]? =
          some ⟨r.startOf policy, frames[r.startOf policy]⟩ := by
        rw [shared_getElem?, List.getElem?_eq_getElem (by omega)]
        rfl
      rw [← hfront, List.getElem?_append_right (by omega)] at hfirst
      have := h.reads_recent (List.mem_of_getElem? hfirst)
      dsimp only at this
      omega
    · rw [h.reads_suffix hrecent]
      refine iff_of_true (h.recent hmode hrecent) fun ha => ?_
      have := h.startOf_aliased ha
      have := ha.wrapped
      have := ha.beyond
      omega

/-- A frame without marks. -/
def plainFrame : AVFrame := ⟨0, 0, ⟨1, 1000⟩, false, false⟩

def threeFrames : List Operation := [.push plainFrame, .push plainFrame, .push plainFrame]

/-- Two slots, three frames, and a subscriber that asks for three: the third frame comes first,
in the place of the one it overwrote, and again last. -/
theorem bootstrap_repeats : ¬ ∀ capacity ops policy, Recent (shared (pushed ops)) policy
    ((after capacity ops).bootstrapFrames policy).1 := by
  intro h
  have hrecent := h 2 threeFrames ⟨.liveTail, none, 3, false⟩
  have hrepeated : ¬ ((after 2 threeFrames).bootstrapFrames ⟨.liveTail, none, 3, false⟩).1 <:+
      shared (pushed threeFrames) := by
    decide +kernel
  exact hrepeated hrecent.contiguous

end Bootstrap

end RingBuffer
end CheetahMedia.Engine
