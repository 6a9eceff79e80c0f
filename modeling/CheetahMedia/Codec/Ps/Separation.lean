import CheetahMedia.Codec.Ps.Taking

namespace CheetahMedia.Codec
open Lib

/-- The packet of a stream that a unit brings, if it has a payload. -/
def PsUnit.packet : PsUnit → Option (UInt8 × PesPacket)
  | .pes streamId packet =>
    match readPes packet with
    | some read => if read.payload.isEmpty then none else some (streamId, read)
    | none => none
  | _ => none

namespace PsDemuxer
variable {order : MapOrder} {d d' : PsDemuxer} {log : PesLog} {streamId : UInt8}

/-- What the packs before leave for a packet. -/
def atPack (d : PsDemuxer) : PsDemuxer :=
  if d.newPs then { d with newPs := false, videoBuffer := [], videoDts := none }
  else { d with newPs := false }

/-- The access unit that a pack header ends is given out under its own track, and what is taken
of a packet is calm. -/
structure Calm (order : MapOrder) (log : PesLog) (d : PsDemuxer) (streamId : UInt8)
    (pes : PesPacket) : Prop where
  pack : d.newPs → OwnTrack order log d
  video : isVideoStreamId streamId → d.atPack.takes order streamId pes →
    VideoCalm order log d.atPack streamId pes
  audio : isVideoStreamId streamId = false → d.atPack.takes order streamId pes →
    AudioCalm order log d.atPack streamId pes

instance : Decidable (Calm order log d streamId pes) :=
  decidable_of_iff (_ ∧ _ ∧ _) ⟨fun h => ⟨h.1, h.2.1, h.2.2⟩, fun h => ⟨h.1, h.2, h.3⟩⟩

theorem beginPack_atPack (h : Kept log d) : (d.beginPack order).1 = d.atPack := by
  unfold beginPack atPack
  dsimp only
  split
  · exact emitVideoFrame_state (h.newPs false).unstamped
  · rfl

theorem AllUnmixed.taken (h : AllUnmixed log events) (order : MapOrder) (d : PsDemuxer)
    (streamId : UInt8) (pes : PesPacket) : AllUnmixed (takenBy order log d streamId pes) events := by
  unfold takenBy
  split
  · exact h.mono _
  · exact h

theorem handlePes_kept (h : Kept log d) (hne : pes.payload ≠ [])
    (hcalm : Calm order log d streamId pes) :
    Kept (takenBy order log d.atPack streamId pes) (d.handlePes order streamId pes).1 ∧
      AllUnmixed (takenBy order log d.atPack streamId pes) (d.handlePes order streamId pes).2 := by
  obtain ⟨hkept, hframes⟩ := beginPack_kept h hcalm.pack
  have hstate : (d.beginPack order).1 = d.atPack := beginPack_atPack h
  rw [hstate] at hkept
  have hlater := AllUnmixed.taken hframes order d.atPack streamId pes
  have haudioEsId : d.atPack.audioEsId = d.audioEsId := by
    unfold atPack
    split <;> rfl
  unfold handlePes
  dsimp only
  rw [hstate]
  split
  · rename_i hvideo
    obtain ⟨hkept', hframes'⟩ := handleVideo_kept hkept hvideo hne (hcalm.video hvideo)
    exact ⟨hkept', hlater.append (AllUnmixed.taken hframes' _ _ _ _)⟩
  · rename_i hvideo
    rw [Bool.not_eq_true] at hvideo
    split
    · rename_i haudio
      rw [← haudioEsId] at haudio
      obtain ⟨hkept', hframes'⟩ := handleAudio_kept hkept hvideo haudio (hcalm.audio hvideo)
      exact ⟨hkept', hlater.append hframes'⟩
    · rename_i haudio
      rw [← haudioEsId, Bool.not_eq_true] at haudio
      have hnot : takenBy order log d.atPack streamId pes = log := by
        rw [takenBy, takes, hvideo, haudio]
        rfl
      rw [hnot] at hlater ⊢
      exact ⟨hkept, hlater.append (.of_none rfl)⟩

/-- The packets taken with a unit. -/
def logUnit (order : MapOrder) (log : PesLog) (d : PsDemuxer) (unit : PsUnit) : PesLog :=
  match unit.packet with
  | some (streamId, pes) => takenBy order log d.atPack streamId pes
  | none => log

def CalmUnit (order : MapOrder) (log : PesLog) (d : PsDemuxer) (unit : PsUnit) : Prop :=
  ∀ p ∈ unit.packet, Calm order log d p.1 p.2

instance : Decidable (CalmUnit order log d unit) := inferInstanceAs (Decidable (∀ _ ∈ _, _))

theorem parsePes_kept (h : Kept log d)
    (hcalm : CalmUnit order log d (PsUnit.pes streamId packet)) :
    Kept (logUnit order log d (PsUnit.pes streamId packet)) (d.parsePes order streamId packet).1 ∧
      AllUnmixed (logUnit order log d (PsUnit.pes streamId packet))
        (d.parsePes order streamId packet).2 := by
  unfold parsePes logUnit
  unfold CalmUnit at hcalm
  cases hread : readPes packet with
  | none =>
    simp only [PsUnit.packet, hread]
    exact ⟨h, .of_none rfl⟩
  | some pes =>
    cases hempty : pes.payload.isEmpty with
    | true =>
      simp only [PsUnit.packet, hread, hempty, if_true]
      exact ⟨h, .of_none rfl⟩
    | false =>
      simp only [PsUnit.packet, hread, hempty, Bool.false_eq_true, if_false] at hcalm ⊢
      exact handlePes_kept h (List.isEmpty_eq_false_iff.mp hempty) (hcalm _ rfl)

theorem handle_kept (h : Kept log d) (hcalm : CalmUnit order log d unit) :
    Kept (logUnit order log d unit) (d.handle order unit).1 ∧
      AllUnmixed (logUnit order log d unit) (d.handle order unit).2 := by
  have found : ∀ {log : PesLog} {r : PsDemuxer}, Kept log r →
      Kept log { r with probePackCount := 0, probeExceeded := false } :=
    fun h => h.change ⟨rfl, rfl, rfl, rfl⟩ h.ids h.caches
  cases unit with
  | packHeader =>
    show Kept log d.handlePackHeader.1 ∧ AllUnmixed log d.handlePackHeader.2
    unfold handlePackHeader
    dsimp only
    split
    · exact ⟨h.change ⟨rfl, rfl, rfl, rfl⟩ h.ids h.caches, .of_none rfl⟩
    · exact ⟨h.change ⟨rfl, rfl, rfl, rfl⟩ h.ids h.caches, .of_none rfl⟩
  | systemHeader => exact ⟨found h, .of_none rfl⟩
  | streamMap payload =>
    obtain ⟨hkept, hnone⟩ := parsePsm_kept h order payload
    exact ⟨found hkept, .of_none hnone⟩
  | pes streamId packet =>
    obtain ⟨hkept, hframes⟩ := parsePes_kept h hcalm
    exact ⟨found hkept, hframes⟩

end PsDemuxer

/-- What a demuxer does that frames can come of. -/
inductive PsAct
  | handle (unit : PsUnit)
  | giveOut

/-- An act and the demuxer that does it. -/
abbrev PsStep := PsDemuxer × PsAct

namespace PsStep

/-- The packets taken up to a step, and at it. -/
def record (order : MapOrder) (log : PesLog) : PsStep → PesLog
  | (d, .handle unit) => d.logUnit order log unit
  | (_, .giveOut) => log

def Calm (order : MapOrder) (log : PesLog) : PsStep → Prop
  | (d, .handle unit) => d.CalmUnit order log unit
  | (d, .giveOut) => d.OwnTrack order log

instance : ∀ step : PsStep, Decidable (step.Calm order log)
  | (d, .handle unit) => inferInstanceAs (Decidable (d.CalmUnit order log unit))
  | (d, .giveOut) => inferInstanceAs (Decidable (d.OwnTrack order log))

/-- The packets taken in the course of the steps. -/
def taken (order : MapOrder) (log : PesLog) (steps : List PsStep) : PesLog :=
  steps.foldl (PsStep.record order) log

def CalmAlong (order : MapOrder) : PesLog → List PsStep → Prop
  | _, [] => True
  | log, step :: steps => step.Calm order log ∧ CalmAlong order (step.record order log) steps

instance instDecidableCalmAlong (order : MapOrder) :
    ∀ (log : PesLog) (steps : List PsStep), Decidable (CalmAlong order log steps)
  | _, [] => inferInstanceAs (Decidable True)
  | log, step :: steps =>
    have := instDecidableCalmAlong order (step.record order log) steps
    inferInstanceAs (Decidable (_ ∧ _))

theorem taken_append (steps steps' : List PsStep) :
    taken order log (steps ++ steps') = taken order (taken order log steps) steps' :=
  List.foldl_append

theorem calmAlong_append : CalmAlong order log (steps ++ steps') ↔
    CalmAlong order log steps ∧ CalmAlong order (taken order log steps) steps' := by
  induction steps generalizing log with
  | nil => simp [CalmAlong, taken]
  | cons step steps ih =>
    rw [List.cons_append, CalmAlong, CalmAlong, ih, and_assoc]
    rfl

theorem record_extends (order : MapOrder) (log : PesLog) (step : PsStep) :
    ∃ more, step.record order log = log ++ more := by
  obtain ⟨d, unit | -⟩ := step
  · unfold record PsDemuxer.logUnit
    dsimp only
    split
    · unfold PsDemuxer.takenBy
      split
      · exact ⟨_, rfl⟩
      · exact ⟨[], (List.append_nil _).symm⟩
    · exact ⟨[], (List.append_nil _).symm⟩
  · exact ⟨[], (List.append_nil _).symm⟩

theorem taken_extends (order : MapOrder) (log : PesLog) (steps : List PsStep) :
    ∃ more, taken order log steps = log ++ more := by
  induction steps generalizing log with
  | nil => exact ⟨[], (List.append_nil _).symm⟩
  | cons step steps ih =>
    obtain ⟨now, hnow⟩ := step.record_extends order log
    obtain ⟨later, hlater⟩ := ih (step.record order log)
    refine ⟨now ++ later, ?_⟩
    rw [← List.append_assoc, ← hnow, ← hlater]
    rfl

end PsStep

/-- What is said to a demuxer. -/
inductive PsInput
  | push (data : Bytes)
  | flush

namespace PsDemuxer
variable {order : MapOrder} {d d' : PsDemuxer} {log : PesLog}

/-- The steps of `consumeWithin`. -/
def stepsWithin (order : MapOrder) (isLast : Bool) : Nat → PsDemuxer → Bytes → List PsStep
  | 0, _, _ => []
  | passes + 1, d, buf =>
    match cutNext d.config isLast buf with
    | .skip rest => stepsWithin order isLast passes d rest
    | .unit unit rest =>
      (d, .handle unit) :: stepsWithin order isLast passes (d.handle order unit).1 rest
    | _ => []

def stepsOfBuffer (order : MapOrder) (d : PsDemuxer) (isLast : Bool) : List PsStep :=
  stepsWithin order isLast (d.remainBuffer.length + 1) d d.remainBuffer

def apply (order : MapOrder) (d : PsDemuxer) : PsInput → PsDemuxer × List PsDemuxEvent
  | .push data => d.push order data
  | .flush => d.flush order

/-- The steps that an input sets off. -/
def stepsOf (order : MapOrder) (d : PsDemuxer) : PsInput → List PsStep
  | .push data =>
    if d.remainBuffer.length + data.length > d.config.maxReassemblyBytes then []
    else { d with remainBuffer := d.remainBuffer ++ data }.stepsOfBuffer order false
  | .flush => d.stepsOfBuffer order true ++ [((d.consumeBuffer order true).1, .giveOut)]

def run (order : MapOrder) : PsDemuxer → List PsInput → PsDemuxer × List PsDemuxEvent
  | d, [] => (d, [])
  | d, input :: inputs =>
    let (d, events) := d.apply order input
    let (d, events') := run order d inputs
    (d, events ++ events')

def stepsOfRun (order : MapOrder) : PsDemuxer → List PsInput → List PsStep
  | _, [] => []
  | d, input :: inputs => d.stepsOf order input ++ stepsOfRun order (d.apply order input).1 inputs

theorem AllUnmixed.later (h : AllUnmixed log events) (steps : List PsStep) :
    AllUnmixed (PsStep.taken order log steps) events := by
  obtain ⟨more, hmore⟩ := PsStep.taken_extends order log steps
  rw [hmore]
  exact h.mono more

theorem consumeWithin_kept (isLast : Bool) (passes : Nat) (buf : Bytes) (h : Kept log d)
    (hcalm : PsStep.CalmAlong order log (stepsWithin order isLast passes d buf)) :
    Kept (PsStep.taken order log (stepsWithin order isLast passes d buf))
      (consumeWithin order isLast passes d buf).1 ∧
    AllUnmixed (PsStep.taken order log (stepsWithin order isLast passes d buf))
      (consumeWithin order isLast passes d buf).2 := by
  have keep : ∀ rest, Kept log { d with remainBuffer := rest } :=
    fun _ => h.change ⟨rfl, rfl, rfl, rfl⟩ h.ids h.caches
  induction passes generalizing d buf log with
  | zero => exact ⟨keep buf, .of_none rfl⟩
  | succ passes ih =>
    unfold stepsWithin at hcalm ⊢
    unfold consumeWithin
    cases hcut : cutNext d.config isLast buf with
    | wait rest => exact ⟨keep rest, .of_none rfl⟩
    | tooLong => exact ⟨keep [], .of_none rfl⟩
    | skip rest =>
      rw [hcut] at hcalm
      exact ih rest h hcalm keep
    | unit unit rest =>
      rw [hcut] at hcalm
      obtain ⟨hnow, hlater⟩ := hcalm
      obtain ⟨hkept, hframes⟩ := handle_kept h hnow
      obtain ⟨hkept', hframes'⟩ := ih rest hkept hlater
        fun _ => hkept.change ⟨rfl, rfl, rfl, rfl⟩ hkept.ids hkept.caches
      exact ⟨hkept', (AllUnmixed.later hframes _).append hframes'⟩

theorem apply_kept (h : Kept log d) (input : PsInput)
    (hcalm : PsStep.CalmAlong order log (d.stepsOf order input)) :
    Kept (PsStep.taken order log (d.stepsOf order input)) (d.apply order input).1 ∧
      AllUnmixed (PsStep.taken order log (d.stepsOf order input)) (d.apply order input).2 := by
  cases input with
  | push data =>
    unfold stepsOf at hcalm ⊢
    unfold apply push
    dsimp only at hcalm ⊢
    split
    · exact ⟨h.change ⟨rfl, rfl, rfl, rfl⟩ h.ids h.caches, .of_none rfl⟩
    · rename_i hfits
      rw [if_neg hfits] at hcalm
      exact consumeWithin_kept false _ _ (h.change ⟨rfl, rfl, rfl, rfl⟩ h.ids h.caches) hcalm
  | flush =>
    unfold stepsOf at hcalm ⊢
    unfold apply flush
    dsimp only at hcalm ⊢
    rw [PsStep.calmAlong_append] at hcalm
    obtain ⟨hbefore, hown, -⟩ := hcalm
    rw [PsStep.taken_append]
    obtain ⟨hkept, hframes⟩ := consumeWithin_kept true _ _ h hbefore
    obtain ⟨hkept', hframes'⟩ := hkept.emit hown
    exact ⟨hkept', hframes.append hframes'⟩

theorem run_kept (h : Kept log d) (inputs : List PsInput)
    (hcalm : PsStep.CalmAlong order log (stepsOfRun order d inputs)) :
    Kept (PsStep.taken order log (stepsOfRun order d inputs)) (run order d inputs).1 ∧
      AllUnmixed (PsStep.taken order log (stepsOfRun order d inputs)) (run order d inputs).2 := by
  induction inputs generalizing d log with
  | nil => exact ⟨h, .of_none rfl⟩
  | cons input inputs ih =>
    unfold stepsOfRun at hcalm ⊢
    rw [PsStep.calmAlong_append] at hcalm
    obtain ⟨hnow, hlater⟩ := hcalm
    rw [PsStep.taken_append]
    obtain ⟨hkept, hframes⟩ := apply_kept h input hnow
    obtain ⟨hkept', hframes'⟩ := ih hkept hlater
    exact ⟨hkept', (AllUnmixed.later hframes _).append hframes'⟩

theorem new_kept (config : PsDemuxerConfig) : Kept [] (new config) where
  ids := ownIds_empty
  video := .inr ⟨rfl, rfl, rfl⟩
  unstamped _ := rfl
  audio ticks hticks := by cases hticks
  caches entry hentry := absurd hentry List.not_mem_nil

/-- The packets taken over the whole of a run. -/
def takenOver (order : MapOrder) (config : PsDemuxerConfig) (inputs : List PsInput) : PesLog :=
  PsStep.taken order [] (stepsOfRun order (new config) inputs)

/-- Where the steps of a run are calm, no frame is mixed of the packets of two streams. -/
theorem run_unmixed (order : MapOrder) (config : PsDemuxerConfig) (inputs : List PsInput)
    (hcalm : PsStep.CalmAlong order [] (stepsOfRun order (new config) inputs)) :
    AllUnmixed (takenOver order config inputs) (run order (new config) inputs).2 :=
  (run_kept (new_kept config) inputs hcalm).2

/-- A program stream map with one track of video and one of audio, a key frame, audio in its
midst, and the access unit behind it. -/
def twoStreams : List PsInput :=
  [.push [0x00, 0x00, 0x01, 0xBC, 0x00, 0x12, 0x80, 0xFF, 0x00, 0x00, 0x00, 0x08,
      0x1B, 0xE0, 0x00, 0x00, 0x90, 0xC0, 0x00, 0x00, 0x00, 0x00, 0x00, 0x00],
    .push [0x00, 0x00, 0x01, 0xE0, 0x00, 0x0E, 0x84, 0x80, 0x05, 0x21, 0x00, 0x01, 0x0E, 0x11,
      0x00, 0x00, 0x00, 0x01, 0x65, 0x88],
    .push [0x00, 0x00, 0x01, 0xC0, 0x00, 0x0A, 0x80, 0x80, 0x05, 0x21, 0x00, 0x01, 0x0E, 0x11,
      0x07, 0x08],
    .push [0x00, 0x00, 0x01, 0xE0, 0x00, 0x0E, 0x84, 0x80, 0x05, 0x21, 0x00, 0x01, 0x1C, 0x21,
      0x00, 0x00, 0x00, 0x01, 0x41, 0x9A],
    .flush]

theorem run_unmixed_twoStreams :
    AllUnmixed (takenOver .listed {} twoStreams) (run .listed (new {}) twoStreams).2 :=
  run_unmixed .listed {} twoStreams (by decide +kernel)

/-- The map declares the stream 0xC0 alone, and the packet is of 0xC1. -/
def strayPacket : List PsInput :=
  [.push [0x00, 0x00, 0x01, 0xBC, 0x00, 0x0E, 0x80, 0xFF, 0x00, 0x00, 0x00, 0x04,
      0x90, 0xC0, 0x00, 0x00, 0x00, 0x00, 0x00, 0x00],
    .push [0x00, 0x00, 0x01, 0xC1, 0x00, 0x0A, 0x80, 0x80, 0x05, 0x21, 0x00, 0x01, 0x0E, 0x11,
      0x07, 0x08]]

theorem madeOf_nil (h : MadeOf [] bytes) : bytes = [] ∨ bytes = annexbFromAccessUnit [] := by
  cases h with
  | piece hp => cases hp
  | joined hparts =>
    rw [List.sublist_nil.mp hparts]
    exact .inl rfl
  | rewritten hsets hparts =>
    rename_i sets parts
    rw [List.sublist_nil.mp hparts]
    cases sets with
    | nil => exact .inr rfl
    | cons set sets =>
      obtain ⟨pes, hpes, -⟩ := hsets set List.mem_cons_self
      cases hpes

theorem not_run_unmixed : ¬∀ (order : MapOrder) (config : PsDemuxerConfig) (inputs : List PsInput),
    AllUnmixed (takenOver order config inputs) (run order (new config) inputs).2 := by
  intro h
  have hframe : (psFrames (run .listed (new {}) strayPacket).2).map
      (fun f => (f.trackId, f.payload)) = [(0xC0, [0x07, 0x08])] := by decide +kernel
  have hown : (takenOver .listed {} strayPacket).own 0xC0 = [] := by decide +kernel
  obtain ⟨f, hf, heq⟩ := List.mem_map.mp (hframe ▸ List.mem_cons_self)
  obtain ⟨htrack, hpayload⟩ := Prod.mk.inj heq
  have hbytes := (h .listed {} strayPacket f hf).bytes
  rw [htrack, hown, hpayload] at hbytes
  rcases madeOf_nil hbytes with h | h
  · cases h
  · cases h

end PsDemuxer
end CheetahMedia.Codec
