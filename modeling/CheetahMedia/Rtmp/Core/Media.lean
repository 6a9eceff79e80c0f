import CheetahMedia.Rtmp.Core

namespace CheetahMedia.Rtmp
open Lib

def MAX_PENDING_PUBLISH_MEDIA_EVENTS : Nat := 256
def MAX_PENDING_PUBLISH_MEDIA_BYTES : Nat := 8 * 1024 * 1024

@[match_pattern] abbrev RTMP_VIDEO_CODEC_ID_H264 : UInt8 := 7
@[match_pattern] abbrev RTMP_VIDEO_CODEC_ID_H265 : UInt8 := 12
@[match_pattern] abbrev RTMP_VIDEO_CODEC_ID_AV1 : UInt8 := 13
@[match_pattern] abbrev RTMP_VIDEO_CODEC_ID_H266 : UInt8 := 14

def EX_VIDEO_FLAG : UInt8 := 0x80
def EX_VIDEO_PACKET_TYPE_SEQUENCE_START : UInt8 := 0

def isSequenceHeader (mediaType : RtmpMediaType) (payload : Bytes) : Bool :=
  match payload.head? with
  | none => false
  | some first =>
    match mediaType with
    | .video =>
      if first &&& EX_VIDEO_FLAG ≠ 0 then
        payload[5]? = some EX_VIDEO_PACKET_TYPE_SEQUENCE_START
      else
        match first &&& 0x0F with
        | RTMP_VIDEO_CODEC_ID_H264 | RTMP_VIDEO_CODEC_ID_H265
        | RTMP_VIDEO_CODEC_ID_AV1 | RTMP_VIDEO_CODEC_ID_H266 => payload[1]? = some 0
        | _ => false
    | .audio => first >>> 4 = 10 ∧ payload[1]? = some 0
    | .data => false

/-- Take out the last item that `p` holds of. -/
def takeLastWhere (p : α → Bool) : List α → Option (α × List α)
  | [] => none
  | a :: as =>
    match takeLastWhere p as with
    | some (b, bs) => some (b, a :: bs)
    | none => if p a then some (a, as) else none

/-- The queue and its byte count once there is room for `payloadLen` more bytes.
Sequence headers stay, so the queue can remain over its limits. -/
def makeRoom (payloadLen : Nat) :
    Nat → List PendingPublishMedia → Nat → List PendingPublishMedia × Nat
  | 0, media, bytes => (media, bytes)
  | passes + 1, media, bytes =>
    if media.length ≥ MAX_PENDING_PUBLISH_MEDIA_EVENTS ∨
        bytes + payloadLen > MAX_PENDING_PUBLISH_MEDIA_BYTES then
      match takeLastWhere (fun m => !m.isSequenceHeader) media with
      | none => (media, bytes)
      | some (removed, media) => makeRoom payloadLen passes media (bytes - removed.payload.length)
    else (media, bytes)

namespace RtmpCore

/-- Every pass of the loop takes out one item, so their number bounds the passes. -/
def pushPendingPublishMedia (media : PendingPublishMedia) (core : RtmpCore) : RtmpCore :=
  let payloadLen := media.payload.length
  if payloadLen > MAX_PENDING_PUBLISH_MEDIA_BYTES then core
  else
    let (pending, bytes) :=
      makeRoom payloadLen core.pendingMedia.length core.pendingMedia core.pendingMediaBytes
    { core with
      pendingMedia := pending ++ [media]
      pendingMediaBytes := bytes + payloadLen }

def clearPendingPublish (core : RtmpCore) : RtmpCore :=
  { core with pendingPublish := none, pendingMedia := [], pendingMediaBytes := 0 }

def handleMediaInput (streamId timestampMs : UInt32) (mediaType : RtmpMediaType)
    (payload : Bytes) : CoreHandler Unit := do
  let activePublish ← Handler.gets (·.activePublish)
  let pendingPublish ← Handler.gets (·.pendingPublish)
  if activePublish = some streamId then
    emitEvent (.mediaData streamId timestampMs mediaType payload)
  else if pendingPublish = some streamId then
    Handler.modify (pushPendingPublishMedia
      ⟨streamId, timestampMs, mediaType, payload, isSequenceHeader mediaType payload⟩)
  else
    emitEvent (.messageIgnored "MediaData"
      (.text s!"media from unauthenticated stream_id={streamId} dropped"))

def emitPendingMedia (media : PendingPublishMedia) : CoreHandler Unit :=
  emitEvent (.mediaData media.streamId media.timestampMs media.mediaType media.payload)

def flushPendingPublishMedia (streamId : UInt32) : CoreHandler Unit := do
  let pendingPublish ← Handler.gets (·.pendingPublish)
  if pendingPublish = some streamId then do
    let pendingMedia ← Handler.gets (·.pendingMedia)
    Handler.forEach emitPendingMedia pendingMedia
    Handler.modify fun core => { core with
      pendingPublish := none
      pendingMedia := []
      pendingMediaBytes := core.pendingMedia.foldl
        (fun bytes media => bytes - media.payload.length) core.pendingMediaBytes }

end RtmpCore

end CheetahMedia.Rtmp
