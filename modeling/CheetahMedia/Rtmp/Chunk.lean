import CheetahMedia.Rtmp.Bytes

namespace CheetahMedia.Rtmp

/-- Milliseconds on 32 bits. -/
structure RtmpTimestamp where
  millis : UInt32
deriving DecidableEq

namespace RtmpTimestamp

def ZERO : RtmpTimestamp := ⟨0⟩

def wrappingAdd (t u : RtmpTimestamp) : RtmpTimestamp := ⟨t.millis + u.millis⟩

def checkedSub (t u : RtmpTimestamp) : Option RtmpTimestamp :=
  if u.millis ≤ t.millis then some ⟨t.millis - u.millis⟩ else none

@[simp] theorem zero_wrappingAdd (t : RtmpTimestamp) : ZERO.wrappingAdd t = t := by
  simp [wrappingAdd, ZERO]

theorem wrappingAdd_checkedSub (h : checkedSub t u = some d) : u.wrappingAdd d = t := by
  unfold checkedSub at h
  split at h
  · cases h
    rw [wrappingAdd, UInt32.add_comm, UInt32.sub_add_cancel]
  · cases h

end RtmpTimestamp

/-- Multiplexes messages on one connection. -/
structure RtmpMessageStreamId where
  id : UInt32
deriving DecidableEq

namespace RtmpMessageStreamId

def PCM : RtmpMessageStreamId := ⟨0⟩
def FIRST : RtmpMessageStreamId := ⟨1⟩
def MEDIA : RtmpMessageStreamId := ⟨2⟩

end RtmpMessageStreamId

inductive RtmpMessageType
  | setChunkSize
  | abort
  | ack
  | userControl
  | winAckSize
  | setPeerBandwidth
  | audio
  | video
  | dataAmf3
  | commandAmf3
  | dataAmf0
  | commandAmf0
  | aggregate
deriving DecidableEq

namespace RtmpMessageType

def typeId : RtmpMessageType → UInt8
  | .setChunkSize => 1
  | .abort => 2
  | .ack => 3
  | .userControl => 4
  | .winAckSize => 5
  | .setPeerBandwidth => 6
  | .audio => 8
  | .video => 9
  | .dataAmf3 => 15
  | .commandAmf3 => 17
  | .dataAmf0 => 18
  | .commandAmf0 => 20
  | .aggregate => 22

def fromTypeId : UInt8 → Except Error RtmpMessageType
  | 1 => .ok .setChunkSize
  | 2 => .ok .abort
  | 3 => .ok .ack
  | 4 => .ok .userControl
  | 5 => .ok .winAckSize
  | 6 => .ok .setPeerBandwidth
  | 8 => .ok .audio
  | 9 => .ok .video
  | 15 => .ok .dataAmf3
  | 17 => .ok .commandAmf3
  | 18 => .ok .dataAmf0
  | 20 => .ok .commandAmf0
  | 22 => .ok .aggregate
  | typeId => .error (.invalidData s!"unknown message type: {typeId}")

@[simp] theorem fromTypeId_typeId (t : RtmpMessageType) : fromTypeId t.typeId = .ok t := by
  cases t <;> rfl

theorem typeId_of_fromTypeId (h : fromTypeId b = .ok t) : t.typeId = b := by
  unfold fromTypeId at h
  split at h <;> cases h <;> rfl

end RtmpMessageType

/-- Ids below 2 select the long forms of the basic header. -/
structure RtmpChunkStreamId where
  id : Nat
  inRange : 2 ≤ id ∧ id ≤ 65599
deriving DecidableEq

namespace RtmpChunkStreamId

def new (id : Nat) : Option RtmpChunkStreamId :=
  if h : 2 ≤ id ∧ id ≤ 65599 then some ⟨id, h⟩ else none

def fromMessageStreamId (streamId : RtmpMessageStreamId) : RtmpChunkStreamId where
  id := min (streamId.id.toNat + 2) 65599
  inRange := by omega

@[simp] theorem new_id (csid : RtmpChunkStreamId) : new csid.id = some csid := by
  simp [new, csid.inRange]

end RtmpChunkStreamId

inductive MessageHeaderFormat
  | f0
  | f1
  | f2
  | f3
deriving DecidableEq

def MessageHeaderFormat.fmt : MessageHeaderFormat → UInt8
  | .f0 => 0
  | .f1 => 1
  | .f2 => 2
  | .f3 => 3

structure RtmpChunkSize where
  size : Nat
  inRange : 1 ≤ size ∧ size ≤ 65536

namespace RtmpChunkSize

def new (size : Nat) : Option RtmpChunkSize :=
  if h : 1 ≤ size ∧ size ≤ 65536 then some ⟨size, h⟩ else none

def saturatingNew (size : Nat) : RtmpChunkSize where
  size := max 1 (min size 65536)
  inRange := by omega

def default : RtmpChunkSize := ⟨128, by decide⟩

instance : Inhabited RtmpChunkSize := ⟨default⟩

@[simp] theorem new_size (s : RtmpChunkSize) : new s.size = some s := by
  simp [new, s.inRange]

end RtmpChunkSize

/-- A whole message before its payload is interpreted. -/
structure RtmpChunk where
  chunkStreamId : RtmpChunkStreamId
  messageStreamId : RtmpMessageStreamId
  messageType : RtmpMessageType
  timestamp : RtmpTimestamp
  payload : Bytes
deriving DecidableEq

end CheetahMedia.Rtmp
