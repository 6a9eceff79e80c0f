import CheetahMedia.Rtsp.Core

namespace CheetahMedia.Rtsp
open Lib Incremental

namespace RtspCore

/-- One round of the loop: a frame, a request, or a response that is passed over. -/
def parseNext (limits : RtspMessageLimits) : Parser RtspCoreError UInt8 (Option RtspEvent) :=
  fun buffer =>
    match buffer.head? with
    | none => (.ok none, buffer)
    | some first =>
      if first = 0x24 then
        Parser.andThen (tryParseFrame limits.maxInterleavedFrameSize)
          (fun frame => .ok (some (.interleavedFrame frame.channel frame.payload))) buffer
      else
        Parser.andThen (tryParseMessage limits) (fun
          | .request request => .ok (some (.request (intoRtspRequest request)))
          | .response _ => .ok none) buffer

/-- What a stream holds, whole: the requests and frames before its first malformed message,
and whether there is one. -/
def demux (limits : RtspMessageLimits) (stream : Bytes) :
    List RtspEvent × Halt Unit RtspCoreError UInt8 :=
  let r := run (ofParser (parseNext limits)) () stream
  (r.1.filterMap id, r.2)

/-- The input that is refused, as it does not fit with what is waiting or as a message in it
is malformed, loses nothing: no request or frame is whole, from what is waiting on, before
the first malformed message. -/
def NothingLost (limits : RtspMessageLimits) : Bytes → List Bytes → Prop
  | _, [] => True
  | waiting, input :: rest =>
    let reached := demux limits (waiting ++ input)
    if limits.maxBufferSize < waiting.length + input.length ∨ reached.2.error ≠ none then
      (demux limits (waiting ++ input ++ rest.flatten)).1 = []
    else NothingLost limits reached.2.rest rest

instance instDecidableNothingLost (limits : RtspMessageLimits) :
    ∀ waiting inputs, Decidable (NothingLost limits waiting inputs)
  | _, [] => inferInstanceAs (Decidable True)
  | waiting, input :: rest => by
    have := instDecidableNothingLost limits (demux limits (waiting ++ input)).2.rest rest
    unfold NothingLost
    infer_instance

theorem parseInterleavedFrame_eq (buffer : Bytes) :
    parseInterleavedFrame buffer = none ∨ ∃ channel high low rest,
      buffer = 0x24 :: channel :: high :: low :: rest := by
  unfold parseInterleavedFrame
  split
  · rename_i channel high low rest
    exact .inr ⟨channel, high, low, rest, rfl⟩
  · exact .inl rfl

theorem tryParseFrame_splits (maxFrameSize : Nat) : Splits (tryParseFrame maxFrameSize) where
  kept {buf _} h := by
    rcases parseInterleavedFrame_eq buf with hnone | ⟨channel, high, low, more, rfl⟩
    · simp_all [tryParseFrame]
    · simp only [tryParseFrame, parseInterleavedFrame] at h
      split at h
      · cases h
      · split at h <;> cases h
        rfl
  taken {buf _ _} h := by
    rcases parseInterleavedFrame_eq buf with hnone | ⟨channel, high, low, more, rfl⟩
    · simp [tryParseFrame, hnone] at h
    · simp only [tryParseFrame, parseInterleavedFrame] at h
      split at h
      · cases h
      · split at h
        · cases h
        · rename_i hlen
          exact ⟨4 + fromBigEndian [high, low], by omega, by omega, (congrArg Prod.snd h).symm⟩
  settled {buf} h q := by
    rcases parseInterleavedFrame_eq buf with hnone | ⟨channel, high, low, more, rfl⟩
    · simp [tryParseFrame, hnone] at h
    · simp only [tryParseFrame, parseInterleavedFrame, List.cons_append] at h ⊢
      split
      · rfl
      · rename_i hmax
        rw [if_neg hmax] at h
        by_cases hlen :
            (0x24 :: channel :: high :: low :: more).length < 4 + fromBigEndian [high, low]
        · rw [if_pos hlen] at h
          exact absurd rfl h
        · rw [if_neg hlen, if_neg (by simp only [List.length_cons, List.length_append] at *; omega)]
          simp only [← List.cons_append]
          rw [List.take_append_of_le_length (by omega), List.drop_append_of_le_length (by omega)]

theorem parseNext_splits (limits : RtspMessageLimits) : Splits (parseNext limits) where
  kept {buf _} h := by
    cases buf with
    | nil =>
      cases h
      rfl
    | cons first buf =>
      simp only [parseNext, List.head?_cons] at h
      split at h
      · exact ((tryParseFrame_splits _).andThen _).kept h
      · exact ((tryParseMessage_splits limits).andThen _).kept h
  taken {buf _ _} h := by
    cases buf with
    | nil => cases h
    | cons first buf =>
      simp only [parseNext, List.head?_cons] at h
      split at h
      · exact ((tryParseFrame_splits _).andThen _).taken h
      · exact ((tryParseMessage_splits limits).andThen _).taken h
  settled {buf} h q := by
    cases buf with
    | nil => exact absurd rfl h
    | cons first buf =>
      simp only [parseNext, List.head?_cons, List.cons_append] at h ⊢
      simp only [← List.cons_append]
      split
      · rename_i hdollar
        rw [if_pos hdollar] at h
        exact ((tryParseFrame_splits _).andThen _).settled h q
      · rename_i hdollar
        rw [if_neg hdollar] at h
        exact ((tryParseMessage_splits limits).andThen _).settled h q

theorem drainWithin_succ (limits : RtspMessageLimits) (fuel : Nat) (buffer : Bytes)
    (out : List CoreOutput) :
    drainWithin limits (fuel + 1) buffer out =
      match parseNext limits buffer with
      | (.error e, rest) => (.error e, rest)
      | (.ok none, rest) => (.ok out, rest)
      | (.ok (some found), rest) =>
        drainWithin limits fuel rest (out ++ (found.map CoreOutput.event).toList) := by
  cases buffer with
  | nil => rfl
  | cons first rest =>
    simp only [drainWithin, parseNext, List.head?_cons]
    split
    · rcases hframe : tryParseFrame limits.maxInterleavedFrameSize (first :: rest) with
        ⟨_ | _ | frame, left⟩ <;> simp [Parser.andThen, hframe, Except.map]
    · rcases hmessage : tryParseMessage limits (first :: rest) with
        ⟨_ | _ | _ | _, left⟩ <;> simp [Parser.andThen, hmessage, Except.map]

/-- What is found stands for the outputs of the loop. -/
def written (found : List (Option RtspEvent)) : List CoreOutput :=
  (found.filterMap id).map CoreOutput.event

theorem drainWithin_eq (limits : RtspMessageLimits) (fuel : Nat) (buffer : Bytes)
    (out : List CoreOutput) :
    (∀ e, (drain (ofParser (parseNext limits)) fuel () buffer).2 = .failed e →
      (drainWithin limits fuel buffer out).1 = .error e) ∧
    ∀ u rest, (drain (ofParser (parseNext limits)) fuel () buffer).2 = .waiting u rest →
      drainWithin limits fuel buffer out =
        (.ok (out ++ written (drain (ofParser (parseNext limits)) fuel () buffer).1), rest) := by
  induction fuel generalizing buffer out with
  | zero => simp [drain, drainWithin, written]
  | succ fuel ih =>
    rw [drainWithin_succ]
    rcases hparse : parseNext limits buffer with ⟨e | _ | found, rest⟩
    · simp [drain, ofParser, hparse]
    · have hkept := (parseNext_splits limits).kept hparse
      simp [drain, ofParser, hparse, written, hkept]
    · obtain ⟨n, hpos, hle, rfl, hdone⟩ := ofParser_done (parseNext_splits limits) hparse
      obtain ⟨hfailed, hwaiting⟩ := ih (buffer.drop n) (out ++ (found.map CoreOutput.event).toList)
      simp only [drain, hdone]
      refine ⟨hfailed, fun u rest h => ?_⟩
      rw [hwaiting u rest h]
      cases found <;> simp [written]

theorem drainMessages_failed {limits : RtspMessageLimits} {stream : Bytes}
    (h : (demux limits stream).2 = .failed e) : (drainMessages limits stream).1 = .error e :=
  (drainWithin_eq limits (stream.length + 1) stream []).1 e h

theorem drainMessages_waiting {limits : RtspMessageLimits} {stream : Bytes}
    (h : (demux limits stream).2 = .waiting u rest) :
    drainMessages limits stream = (.ok ((demux limits stream).1.map CoreOutput.event), rest) :=
  (drainWithin_eq limits (stream.length + 1) stream []).2 u rest h

/-- A stream that is malformed stays so, and what comes later adds to nothing before that. -/
theorem demux_failed {limits : RtspMessageLimits} {stream : Bytes}
    (h : (demux limits stream).2 = .failed e) (more : Bytes) :
    demux limits (stream ++ more) = demux limits stream := by
  have hf := ofParser_segmentable (parseNext_splits limits)
  have hfollows := run_follows hf stream () () (.of_related hf rfl stream)
  simp only [demux, hfollows.failed h more]

/-- What waits goes on with what comes later. -/
theorem demux_waiting {limits : RtspMessageLimits} {stream : Bytes}
    (h : (demux limits stream).2 = .waiting u rest) (more : Bytes) :
    (demux limits (stream ++ more)).1 =
      (demux limits stream).1 ++ (demux limits (rest ++ more)).1 := by
  have hf := ofParser_segmentable (parseNext_splits limits)
  have hfollows := run_follows hf stream () () (.of_related hf rfl stream)
  obtain ⟨-, s', -, hq⟩ := hfollows.waiting h
  simp only [demux, hq more, List.filterMap_append]

/-- What is left when a stream is drained is not drained any further. -/
theorem demux_rest {limits : RtspMessageLimits} {stream : Bytes}
    (h : (demux limits stream).2 = .waiting u rest) : (demux limits rest).1 = [] := by
  have hf := ofParser_segmentable (parseNext_splits limits)
  have hfollows := run_follows hf stream () () (.of_related hf rfl stream)
  obtain ⟨⟨t, ht⟩, -⟩ := hfollows.waiting h
  simp only [demux, run_more ht, List.filterMap_nil]

theorem filterMap_event (es : List RtspEvent) :
    (es.map CoreOutput.event).filterMap CoreOutput.event? = es := by
  rw [List.filterMap_map]
  exact List.filterMap_some

theorem handleInput_refused {limits : RtspMessageLimits} {waiting input : Bytes}
    (h : limits.maxBufferSize < waiting.length + input.length) :
    ∃ e, (handleInput { buffer := waiting, limits } (.bytes input)).1 = .error e := by
  simp only [handleInput, RtspMessageLimits.validateBufferGrowth]
  by_cases hoverflow : waiting.length + input.length > USIZE_MAX
  · exact ⟨_, by rw [if_pos hoverflow]; rfl⟩
  · exact ⟨_, by rw [if_neg hoverflow, if_pos h]; rfl⟩

theorem handleInput_taken {limits : RtspMessageLimits} {waiting input : Bytes}
    (h : ¬ limits.maxBufferSize < waiting.length + input.length) :
    handleInput { buffer := waiting, limits } (.bytes input) =
      ((drainMessages limits (waiting ++ input)).1,
        { buffer := (drainMessages limits (waiting ++ input)).2, limits }) := by
  have hle := limits.maxBufferSize_le
  simp only [handleInput, RtspMessageLimits.validateBufferGrowth]
  rw [if_neg Bool.false_ne_true, if_neg (by omega), if_neg (by omega)]

theorem events_refused {core : RtspCore} (h : (core.handleInput (.bytes input)).1 = .error e)
    (rest : List Bytes) : core.events (input :: rest) = ([], some e) := by
  rcases hinput : core.handleInput (.bytes input) with ⟨outputs, core'⟩
  rw [hinput] at h
  cases h
  simp only [events, hinput]

/-- The events are all that the stream holds if, and only if, nothing is lost. -/
theorem events_iff (limits : RtspMessageLimits) (inputs : List Bytes) (waiting : Bytes)
    (hidle : (demux limits waiting).1 = []) :
    (events { buffer := waiting, limits } inputs).1 =
        (demux limits (waiting ++ inputs.flatten)).1 ↔ NothingLost limits waiting inputs := by
  induction inputs generalizing waiting with
  | nil => simp [events, NothingLost, hidle]
  | cons input rest ih =>
    rw [List.flatten_cons, ← List.append_assoc, NothingLost]
    by_cases hfits : limits.maxBufferSize < waiting.length + input.length
    · obtain ⟨e, he⟩ := handleInput_refused hfits
      rw [events_refused he, if_pos (.inl hfits)]
      exact eq_comm
    · have htaken := handleInput_taken hfits
      cases hhalt : (demux limits (waiting ++ input)).2 with
      | failed e =>
        have he : (handleInput { buffer := waiting, limits } (.bytes input)).1 = .error e := by
          rw [htaken]
          exact drainMessages_failed hhalt
        rw [events_refused he, if_pos (.inr (by simp [Halt.error]))]
        exact eq_comm
      | waiting u left =>
        rw [if_neg (by simp [hfits, Halt.error]), events, htaken, drainMessages_waiting hhalt,
          demux_waiting hhalt]
        dsimp only
        rw [filterMap_event, List.append_cancel_left_eq]
        exact ih left (demux_rest hhalt)

/-- However a stream of requests, stray responses and frames is cut into inputs, the events up
to the first error are the same, and all that is whole before the first malformed message,
when neither cutting loses anything, and only then. -/
theorem demux_cut_iff (limits : RtspMessageLimits) (ps qs : List Bytes)
    (hsame : ps.flatten = qs.flatten) :
    ((events { limits } ps).1 = (events { limits } qs).1 ∧
        (events { limits } qs).1 = (demux limits qs.flatten).1) ↔
      NothingLost limits [] ps ∧ NothingLost limits [] qs := by
  have hps := events_iff limits ps [] rfl
  have hqs := events_iff limits qs [] rfl
  rw [List.nil_append] at hps hqs
  rw [hsame] at hps
  constructor
  · rintro ⟨hequal, hall⟩
    exact ⟨hps.mp (hequal.trans hall), hqs.mp hall⟩
  · rintro ⟨hp, hq⟩
    exact ⟨(hps.mpr hp).trans (hqs.mpr hq).symm, hqs.mpr hq⟩

/-- An interleaved frame without a payload. -/
def emptyFrame : Bytes := [0x24, 0x00, 0x00, 0x00]

/-- The header of a frame of 255 bytes. -/
def longFrame : Bytes := [0x24, 0x00, 0x00, 0xFF]

theorem demux_cut_iff_frames :
    let limits : RtspMessageLimits := { maxInterleavedFrameSize := 64 }
    let ps := [emptyFrame, longFrame]
    let qs := [emptyFrame.take 2, emptyFrame.drop 2, longFrame.take 1, longFrame.drop 1]
    (events { limits } ps).1 = (events { limits } qs).1 ∧
      (events { limits } qs).1 = (demux limits qs.flatten).1 := by
  intro limits ps qs
  exact (demux_cut_iff limits ps qs rfl).mpr ⟨by decide, by decide⟩

/-- A frame that is complete is dropped with the oversized one that comes in the same input. -/
theorem frame_lost_with_malformed :
    ¬ ∀ (limits : RtspMessageLimits) (ps qs : List Bytes), ps.flatten = qs.flatten →
      ps.flatten.length ≤ limits.maxBufferSize →
      (events { limits } ps).1 = (events { limits } qs).1 := by
  intro h
  have hequal := h { maxInterleavedFrameSize := 64 } [emptyFrame, longFrame]
    [emptyFrame ++ longFrame] rfl (by decide)
  exact absurd hequal (by decide)

end RtspCore
end CheetahMedia.Rtsp
