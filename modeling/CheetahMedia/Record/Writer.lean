import CheetahMedia.Codec.Extradata
import CheetahMedia.Lib.Transition

namespace CheetahMedia.Record
open Lib Codec

inductive RecordDiagnostic
  | unsupportedCodec (codec : CodecId) (trackId : Nat)
  | unsupportedTrack (trackId : Nat) (reason : String)
  | malformedFrame (trackId : Nat) (reason : String)
  | dropTinyFile (sizeBytes thresholdBytes : Nat)

inductive RecordError
  | invalidTracks (reason : String)
  | notInitialized
  | finalized
  | internal (reason : String)

/-- What a writer gives out; what is written is left as what its bytes spell. -/
inductive RecordWriteEvent (β : Type)
  | bytes (content : β)
  | segment (pathHint : String) (content : β) (keyframe : Bool)
  | initSegment (pathHint : String) (content : β)
  | playlist (pathHint body : String)
  | diagnostic (diagnostic : RecordDiagnostic)

structure RecordContainerWriter (σ β : Type) where
  updateTracks : List TrackInfo → σ → Except RecordError σ
  pushFrame : AVFrame → σ → Except RecordError (List (RecordWriteEvent β)) × σ
  finalize : σ → Except RecordError (List (RecordWriteEvent β)) × σ

namespace RecordWriteEvent

def isDiagnostic : RecordWriteEvent β → Bool
  | .diagnostic _ => true
  | _ => false

/-- What is written of the events. -/
def content : RecordWriteEvent β → Option β
  | .bytes content => some content
  | .segment _ content _ => some content
  | .initSegment _ content => some content
  | .playlist _ _ => none
  | .diagnostic _ => none

def contents (events : List (RecordWriteEvent β)) : List β := events.filterMap content

@[simp] theorem contents_append (events more : List (RecordWriteEvent β)) :
    contents (events ++ more) = contents events ++ contents more := List.filterMap_append ..

end RecordWriteEvent

namespace Recording

/-- What a recording calls its writer for. -/
inductive Op
  | updateTracks (tracks : List TrackInfo)
  | pushFrame (frame : AVFrame)

/-- The calls that were made, with what they gave. -/
inductive Call (β : Type)
  | updated (tracks : List TrackInfo)
  | pushed (frame : AVFrame) (result : Except RecordError (List (RecordWriteEvent β)))

section
variable {σ β : Type}

/-- Updates of the tracks that fail are left out. -/
def step (w : RecordContainerWriter σ β) : Transition σ Op (Call β)
  | s, .updateTracks tracks =>
    match w.updateTracks tracks s with
    | .ok s => some (s, [.updated tracks])
    | .error _ => none
  | s, .pushFrame frame =>
    let (result, s) := w.pushFrame frame s
    some (s, [.pushed frame result])

/-- A frame that was taken without a diagnostic. -/
def Call.accepted : Call β → Option AVFrame
  | .pushed frame (.ok events) =>
    if events.any RecordWriteEvent.isDiagnostic then none else some frame
  | _ => none

def Call.events : Call β → List (RecordWriteEvent β)
  | .pushed _ (.ok events) => events
  | _ => []

def accepted (calls : List (Call β)) : List AVFrame := calls.filterMap Call.accepted

/-- The tracks of the last update, where `tracks` are those before the calls. -/
def tracksAfter (tracks : List TrackInfo) : List (Call β) → List TrackInfo
  | [] => tracks
  | .updated tracks :: rest => tracksAfter tracks rest
  | .pushed _ _ :: rest => tracksAfter tracks rest

def currentTracks (calls : List (Call β)) : List TrackInfo := tracksAfter [] calls

/-- The tracks of the last update before the first frame that gave no error. -/
def openingAfter (tracks : List TrackInfo) : List (Call β) → Option (List TrackInfo)
  | [] => none
  | .updated tracks :: rest => openingAfter tracks rest
  | .pushed _ (.ok _) :: _ => some tracks
  | .pushed _ (.error _) :: rest => openingAfter tracks rest

def openingTracks (calls : List (Call β)) : Option (List TrackInfo) := openingAfter [] calls

def written (calls : List (Call β)) : List β :=
  RecordWriteEvent.contents (calls.flatMap Call.events)

/-- Everything written, from the first call to the end of `finalize`. -/
def output (w : RecordContainerWriter σ β) (s : σ) (calls : List (Call β)) : List β :=
  written calls ++ RecordWriteEvent.contents ((w.finalize s).1.toOption.getD [])

/-- The decoder configuration of the track is known. -/
def configured (track : TrackInfo) : Bool :=
  match track.codec, track.extradata with
  | .h264, .h264 sps pps avcc => avcc.isSome || (!sps.isEmpty && !pps.isEmpty)
  | .h265, .h265 vps sps pps hvcc =>
    hvcc.isSome || (!vps.isEmpty && !sps.isEmpty && !pps.isEmpty)
  | .aac, .aac asc => !asc.isEmpty
  | _, _ => false

/-- A track as it is known, with its configuration, when its first frame is taken. -/
def KnownAtStart (calls : List (Call β)) (track : TrackInfo) : Prop :=
  ∃ before call after frame, calls = before ++ call :: after ∧ call.accepted = some frame ∧
    (∀ f ∈ accepted before, f.trackId ≠ frame.trackId) ∧
    track ∈ currentTracks before ∧ track.trackId = frame.trackId ∧ configured track

@[simp] theorem accepted_append (calls more : List (Call β)) :
    accepted (calls ++ more) = accepted calls ++ accepted more := List.filterMap_append ..

@[simp] theorem accepted_updated (tracks : List TrackInfo) :
    accepted [(.updated tracks : Call β)] = [] := rfl

@[simp] theorem accepted_refused (frame : AVFrame) (err : RecordError) :
    accepted [(.pushed frame (.error err) : Call β)] = [] := rfl

theorem accepted_pushed (frame : AVFrame) (events : List (RecordWriteEvent β)) :
    accepted [.pushed frame (.ok events)] =
      if events.any RecordWriteEvent.isDiagnostic then [] else [frame] := by
  rw [accepted, List.filterMap_cons, List.filterMap_nil, Call.accepted]
  cases events.any RecordWriteEvent.isDiagnostic <;> rfl

@[simp] theorem written_append (calls more : List (Call β)) :
    written (calls ++ more) = written calls ++ written more := by
  simp [written, RecordWriteEvent.contents]

@[simp] theorem written_updated (tracks : List TrackInfo) :
    written [(.updated tracks : Call β)] = [] := rfl

@[simp] theorem written_refused (frame : AVFrame) (err : RecordError) :
    written [(.pushed frame (.error err) : Call β)] = [] := rfl

@[simp] theorem written_pushed (frame : AVFrame) (events : List (RecordWriteEvent β)) :
    written [.pushed frame (.ok events)] = RecordWriteEvent.contents events := by
  simp [written, Call.events]

theorem tracksAfter_append (tracks : List TrackInfo) (calls more : List (Call β)) :
    tracksAfter tracks (calls ++ more) = tracksAfter (tracksAfter tracks calls) more := by
  induction calls generalizing tracks with
  | nil => rfl
  | cons call calls ih => cases call <;> exact ih _

theorem openingAfter_append (tracks : List TrackInfo) (calls more : List (Call β)) :
    openingAfter tracks (calls ++ more) =
      (openingAfter tracks calls).or (openingAfter (tracksAfter tracks calls) more) := by
  induction calls generalizing tracks with
  | nil => rfl
  | cons call calls ih =>
    rcases call with _ | ⟨_, _ | _⟩
    · exact ih _
    · exact ih _
    · rfl

@[simp] theorem currentTracks_updated (calls : List (Call β)) (tracks : List TrackInfo) :
    currentTracks (calls ++ [.updated tracks]) = tracks := tracksAfter_append ..

@[simp] theorem currentTracks_pushed (calls : List (Call β)) (frame : AVFrame) (result) :
    currentTracks (calls ++ [.pushed frame result]) = currentTracks calls := tracksAfter_append ..

@[simp] theorem openingTracks_updated (calls : List (Call β)) (tracks : List TrackInfo) :
    openingTracks (calls ++ [.updated tracks]) = openingTracks calls := by
  simp [openingTracks, openingAfter_append, openingAfter]

@[simp] theorem openingTracks_refused (calls : List (Call β)) (frame : AVFrame) (err) :
    openingTracks (calls ++ [.pushed frame (.error err)]) = openingTracks calls := by
  simp [openingTracks, openingAfter_append, openingAfter]

@[simp] theorem openingTracks_pushed (calls : List (Call β)) (frame : AVFrame) (events) :
    openingTracks (calls ++ [.pushed frame (.ok events)]) =
      some ((openingTracks calls).getD (currentTracks calls)) := by
  rw [openingTracks, openingAfter_append, ← openingTracks]
  cases openingTracks calls <;> rfl

/-- What is true of a new writer and stays true with each call is true after a recording. -/
theorem run_follows {w : RecordContainerWriter σ β} (Follows : List (Call β) → σ → Prop)
    (hnew : Follows [] s)
    (hupdated : ∀ calls s t tracks, Follows calls s → w.updateTracks tracks s = .ok t →
      Follows (calls ++ [.updated tracks]) t)
    (hpushed : ∀ calls s frame, Follows calls s →
      Follows (calls ++ [.pushed frame (w.pushFrame frame s).1]) (w.pushFrame frame s).2)
    (hrun : (step w).run s ops = some (u, calls)) : Follows calls u := by
  have halways : Transition.Along (step w) (fun _ _ => True) s ops := Transition.along_true
  refine Transition.run_traced Follows ?_ [] hnew halways hrun
  intro calls s op t made hfollows _ hstep
  cases op with
  | updateTracks tracks =>
    simp only [step] at hstep
    split at hstep
    · rename_i hok
      cases hstep
      exact hupdated calls s t tracks hfollows hok
    · cases hstep
  | pushFrame frame =>
    cases hstep
    exact hpushed calls s frame hfollows

end
end Recording
end CheetahMedia.Record
