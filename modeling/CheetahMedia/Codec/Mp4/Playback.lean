import CheetahMedia.Codec.Mp4.Seek

namespace CheetahMedia.Codec.Mp4
open Lib Lib.Checked

namespace Mp4Reader
variable {r r' : Mp4Reader}

/-- The lists have an entry for every track, and the indices come from sample tables. -/
structure Loaded (r : Mp4Reader) : Prop where
  tracks : r.tracks.length = r.indices.length
  cursors : r.cursors.length = r.indices.length
  indices : ∀ index ∈ r.indices, index.FromZero

/-- No sample is shown before the list of the tracks, and that not before they are known. -/
structure Valid (r : Mp4Reader) : Prop extends Loaded r where
  quiet : r.state = .needHead ∨ (∃ offset remaining, r.state = .tailScan offset remaining) →
    r.tracksEmitted = false

theorem valid_new (config : Mp4ReaderConfig) : Valid { config } :=
  ⟨⟨rfl, rfl, nofun⟩, fun _ => rfl⟩

/-- What parsing leaves as it is. -/
structure Parses (r r' : Mp4Reader) : Prop where
  seekRequestUs : r'.seekRequestUs = r.seekRequestUs
  tracksEmitted : r'.tracksEmitted = r.tracksEmitted

theorem fromZero_of_finish {fields : TrakFields}
    (h : fields.finish trackIdDefault = .ok (.ok (track, index))) : index.FromZero := by
  unfold TrakFields.finish at h
  dsimp only at h
  cases htable : fields.sampleTable with
  | none =>
    rw [htable] at h
    cases h
  | some table =>
    rw [htable] at h
    obtain ⟨built, hbuilt, h⟩ := bind_eq_ok h
    cases built with
    | error e => cases h
    | ok built =>
      cases h
      have hzero := SampleIndex.fromZero_of_buildIndex hbuilt
      exact ⟨hzero.first, hzero.ascending⟩

theorem fromZero_of_parseTrak (h : parseTrak maxBoxSize trackIdDefault payload =
    .ok (.ok (track, index))) : index.FromZero := by
  unfold parseTrak at h
  split at h
  · cases h
  · exact fromZero_of_finish h

theorem Loaded.parseTracks (h : Loaded r)
    (hok : parseTracks maxBoxSize nextTrackId children r = .ok (stopped, r')) :
    Loaded r' ∧ Parses r r' := by
  induction children generalizing nextTrackId r with
  | nil =>
    obtain ⟨-, rfl⟩ := Prod.mk.inj (Except.ok.inj hok)
    exact ⟨h, rfl, rfl⟩
  | cons child children ih =>
    cases child with
    | error e =>
      obtain ⟨-, rfl⟩ := Prod.mk.inj (Except.ok.inj hok)
      exact ⟨h, rfl, rfl⟩
    | ok child =>
      unfold Mp4Reader.parseTracks at hok
      split at hok
      · obtain ⟨parsed, hparsed, hok⟩ := bind_eq_ok hok
        cases parsed with
        | error e =>
          obtain ⟨-, rfl⟩ := Prod.mk.inj (Except.ok.inj hok)
          exact ⟨h, rfl, rfl⟩
        | ok parsed =>
          obtain ⟨track, index⟩ := parsed
          have hindex := fromZero_of_parseTrak hparsed
          have hadded : Loaded { r with
              tracks := r.tracks ++ [track]
              indices := r.indices ++ [index]
              cursors := r.cursors ++ [0] } := by
            refine ⟨by simp [h.tracks], by simp [h.cursors], fun other hother => ?_⟩
            rcases List.mem_append.mp hother with hold | hnew
            · exact h.indices other hold
            · exact List.mem_singleton.mp hnew ▸ hindex
          obtain ⟨hloaded, hsame⟩ := ih hadded hok
          exact ⟨hloaded, hsame.1, hsame.2⟩
      · exact ih h hok

/-- The frames that are shown. -/
def frameOf : Mp4ReadEvent → Option AVFrame
  | .frame frame => some frame
  | _ => none

theorem queueRequest_spec (r : Mp4Reader) (request : Mp4ReadRequest) :
    frameOf (r.queueRequest request).1 = none ∧
      ∃ outstanding, (r.queueRequest request).2 = { r with outstanding } := by
  unfold queueRequest
  dsimp only
  split
  · exact ⟨rfl, r.outstanding, rfl⟩
  · exact ⟨rfl, _, rfl⟩

/-- What comes of an attempt to find the tracks. -/
structure Tried (r : Mp4Reader) (event : Option Mp4ReadEvent) (r' : Mp4Reader) : Prop where
  loaded : Loaded r'
  same : Parses r r'
  noFrame : event.bind frameOf = none
  goesOn : event = none →
    r'.state = .streaming ∨
      r.state = .needHead ∧ ∃ offset remaining, r'.state = .tailScan offset remaining

theorem Loaded.parseMoov (h : Loaded r) (hok : r.parseMoov payload = .ok (event, r')) :
    Tried r event r' := by
  obtain ⟨⟨stopped, r₁⟩, hparsed, hok⟩ := bind_eq_ok hok
  obtain ⟨hloaded, hsame⟩ := h.parseTracks hparsed
  cases stopped with
  | none =>
    cases hok
    exact ⟨⟨hloaded.1, hloaded.2, hloaded.3⟩, ⟨hsame.1, hsame.2⟩, rfl, fun _ => .inl rfl⟩
  | some e =>
    cases hok
    exact ⟨⟨hloaded.1, hloaded.2, hloaded.3⟩, ⟨hsame.1, hsame.2⟩, rfl, nofun⟩

theorem Loaded.queueRequest (h : Loaded r) (request : Mp4ReadRequest) :
    Tried r (some (r.queueRequest request).1) (r.queueRequest request).2 := by
  obtain ⟨hframe, outstanding, hr⟩ := r.queueRequest_spec request
  generalize r.queueRequest request = result at hframe hr ⊢
  obtain ⟨event, r'⟩ := result
  subst hr
  exact ⟨⟨h.1, h.2, h.3⟩, ⟨rfl, rfl⟩, hframe, nofun⟩

theorem Loaded.tryParseHead (h : Loaded r) (hstate : r.state = .needHead)
    (hok : r.tryParseHead = .ok (event, r')) : Tried r event r' := by
  obtain ⟨found, -, hok⟩ := bind_eq_ok hok
  cases found with
  | none =>
    obtain ⟨rfl, rfl⟩ := Prod.mk.inj (Except.ok.inj hok)
    exact h.queueRequest _
  | some slice =>
    dsimp only at hok
    split at hok
    · exact h.parseMoov hok
    · cases hok
      exact ⟨⟨h.1, h.2, h.3⟩, ⟨rfl, rfl⟩, rfl, fun _ => .inr ⟨hstate, _, _, rfl⟩⟩

theorem Loaded.tryParseTail (h : Loaded r)
    (hok : r.tryParseTail offset remaining = .ok (event, r')) : Tried r event r' := by
  obtain ⟨found, -, hok⟩ := bind_eq_ok hok
  cases found with
  | none =>
    obtain ⟨rfl, rfl⟩ := Prod.mk.inj (Except.ok.inj hok)
    exact h.queueRequest _
  | some slice =>
    dsimp only at hok
    split at hok
    · exact h.parseMoov hok
    · cases hok
      exact ⟨⟨h.1, h.2, h.3⟩, ⟨rfl, rfl⟩, rfl, nofun⟩

/-- A step that shows no frame and leaves a wish to seek. -/
structure Quiet (r : Mp4Reader) (event : Mp4ReadEvent) (r' : Mp4Reader) : Prop where
  valid : Valid r'
  seekRequestUs : r'.seekRequestUs = r.seekRequestUs
  noFrame : frameOf event = none

theorem Tried.quiet (h : Tried r (some event) r') (hemitted : r.tracksEmitted = false) :
    Quiet r event r' :=
  ⟨⟨h.loaded, fun _ => h.same.tracksEmitted.trans hemitted⟩, h.same.seekRequestUs,
    h.noFrame⟩

theorem Loaded.stepParsed (h : Loaded r) (hemitted : r.tracksEmitted = false)
    (hstate : r.state = .streaming) (hok : r.stepParsed = .ok (event, r')) : Quiet r event r' := by
  unfold Mp4Reader.stepParsed at hok
  rw [hstate, hemitted] at hok
  cases hok
  refine ⟨⟨⟨h.1, h.2, h.3⟩, ?_⟩, rfl, rfl⟩
  rintro (hnot | ⟨_, _, hnot⟩) <;> cases hnot

theorem Loaded.stepTail (h : Loaded r) (hemitted : r.tracksEmitted = false)
    (hstate : r.state = .streaming ∨ ∃ offset remaining, r.state = .tailScan offset remaining)
    (hok : r.stepTail = .ok (event, r')) : Quiet r event r' := by
  unfold Mp4Reader.stepTail at hok
  rcases hstate with hstate | ⟨offset, remaining, hstate⟩
  · rw [hstate] at hok
    exact h.stepParsed hemitted hstate hok
  · rw [hstate] at hok
    obtain ⟨⟨tried, r₁⟩, htried, hok⟩ := bind_eq_ok hok
    have hspec := h.tryParseTail htried
    cases tried with
    | some e =>
      cases hok
      exact hspec.quiet hemitted
    | none =>
      have hstreaming : r₁.state = .streaming := by
        rcases hspec.goesOn rfl with hon | ⟨hhead, -⟩
        · exact hon
        · rw [hstate] at hhead
          cases hhead
      obtain ⟨hvalid, hseek, hframe⟩ := hspec.loaded.stepParsed
        (hspec.same.tracksEmitted.trans hemitted) hstreaming hok
      exact ⟨hvalid, hseek.trans hspec.same.seekRequestUs, hframe⟩

theorem handleSeekRequest_of_ne (h : r.state ≠ .streaming) : r.handleSeekRequest = r := by
  unfold handleSeekRequest
  split
  · rfl
  · rw [if_pos h]

/-- Until the tracks are known no frame is shown. -/
theorem Valid.step_before (h : Valid r) (hstate : r.state ≠ .streaming)
    (hok : r.step = .ok (event, r')) : Quiet r event r' := by
  unfold Mp4Reader.step at hok
  rw [handleSeekRequest_of_ne hstate] at hok
  dsimp only at hok
  cases hcase : r.state with
  | needHead =>
    rw [hcase] at hok
    have hemitted := h.quiet (.inl hcase)
    obtain ⟨⟨tried, r₁⟩, htried, hok⟩ := bind_eq_ok hok
    have hspec := h.toLoaded.tryParseHead hcase htried
    cases tried with
    | some e =>
      cases hok
      exact hspec.quiet hemitted
    | none =>
      have hon := (hspec.goesOn rfl).imp_right And.right
      obtain ⟨hvalid, hseek, hframe⟩ := hspec.loaded.stepTail
        (hspec.same.tracksEmitted.trans hemitted) hon hok
      exact ⟨hvalid, hseek.trans hspec.same.seekRequestUs, hframe⟩
  | tailScan offset remaining =>
    rw [hcase] at hok
    have hon : ∃ offset remaining, r.state = .tailScan offset remaining := ⟨_, _, hcase⟩
    exact h.toLoaded.stepTail (h.quiet (.inr hon)) (.inr hon) hok
  | streaming => exact absurd hcase hstate
  | failed e =>
    rw [hcase] at hok
    dsimp only [Mp4Reader.stepTail, Mp4Reader.stepParsed] at hok
    rw [hcase] at hok
    cases hok
    exact ⟨h, rfl, rfl⟩

/-- The frame is that of a sample, given by its track and its number there. -/
def Shows (tracks : List TrackInfo) (indices : List SampleIndex) (frame : AVFrame)
    (pick : Nat × Nat) : Prop :=
  ∃ track index entry payload, tracks[pick.1]? = some track ∧ indices[pick.1]? = some index ∧
    index.samples[pick.2]? = some entry ∧ frame = sampleFrame track index.timescale entry payload

/-- A frame is the sample at the cursor of its track, which goes on by one. -/
theorem stepStreaming_cases (hok : r.stepStreaming = .ok (event, r')) :
    (frameOf event = none ∧ ∃ outstanding, r' = { r with outstanding }) ∨
      ∃ frame i k, event = .frame frame ∧ Shows r.tracks r.indices frame (i, k) ∧
        r.cursors[i]? = some k ∧ r' = { r with cursors := r.cursors.set i (k + 1) } := by
  unfold stepStreaming at hok
  split at hok
  · cases hok
    exact .inl ⟨rfl, r.outstanding, rfl⟩
  · rename_i i _ _
    obtain ⟨track, htrack, hok⟩ := bind_eq_ok hok
    obtain ⟨index, hindex, hok⟩ := bind_eq_ok hok
    obtain ⟨cursor, hcursor, hok⟩ := bind_eq_ok hok
    obtain ⟨entry, hentry, hok⟩ := bind_eq_ok hok
    obtain ⟨found, -, hok⟩ := bind_eq_ok hok
    cases found with
    | none =>
      obtain ⟨rfl, rfl⟩ := Prod.mk.inj (Except.ok.inj hok)
      obtain ⟨hframe, hr⟩ := r.queueRequest_spec ⟨entry.offset, entry.size.toNat⟩
      exact .inl ⟨hframe, hr⟩
    | some payload =>
      obtain ⟨rfl, rfl⟩ := Prod.mk.inj (Except.ok.inj hok)
      exact .inr ⟨_, i, cursor, rfl, ⟨track, index, entry, payload, byteAt_eq_ok htrack,
        byteAt_eq_ok hindex, byteAt_eq_ok hentry, rfl⟩, byteAt_eq_ok hcursor, rfl⟩

/-- Where a track goes on after a wish to seek. -/
def landing (target : Int) (index : SampleIndex) : Nat :=
  (index.seekToDts (usToTicks target index.timescale)).getD 0

theorem handleSeekRequest_eq (h : r.state = .streaming) : r.handleSeekRequest =
    { r with
      seekRequestUs := none
      cursors := match r.seekRequestUs with
        | none => r.cursors
        | some target => r.indices.map (landing target) } := by
  unfold handleSeekRequest
  cases hseek : r.seekRequestUs with
  | none =>
    obtain ⟨⟩ := r
    cases hseek
    rfl
  | some target =>
    dsimp only
    rw [if_neg (by simp [h])]
    rfl

/-- Once the tracks are known, a step serves a wish to seek and then shows a frame or none. -/
theorem step_cases (hstate : r.state = .streaming) (hok : r.step = .ok (event, r')) :
    (frameOf event = none ∧
      ∃ outstanding tracksEmitted, r' = { r.handleSeekRequest with outstanding, tracksEmitted }) ∨
    ∃ frame i k, event = .frame frame ∧ Shows r.tracks r.indices frame (i, k) ∧
      r.handleSeekRequest.cursors[i]? = some k ∧
      r' = { r.handleSeekRequest with cursors := r.handleSeekRequest.cursors.set i (k + 1) } := by
  have hserved := handleSeekRequest_eq hstate
  have hstreaming : r.handleSeekRequest.state = .streaming := by rw [hserved, hstate]
  have htracks : r.handleSeekRequest.tracks = r.tracks := by rw [hserved]
  have hindices : r.handleSeekRequest.indices = r.indices := by rw [hserved]
  rw [← htracks, ← hindices]
  have hparsed : r.step = r.handleSeekRequest.stepParsed := by
    simp only [Mp4Reader.step, Mp4Reader.stepTail, hstreaming]
  rw [hparsed] at hok
  simp only [Mp4Reader.stepParsed, hstreaming] at hok
  generalize r.handleSeekRequest = served at hok hstreaming ⊢
  split at hok
  · rcases stepStreaming_cases hok with ⟨hframe, outstanding, rfl⟩ | hframe
    · exact .inl ⟨hframe, outstanding, _, rfl⟩
    · exact .inr hframe
  · obtain ⟨rfl, rfl⟩ := Prod.mk.inj (Except.ok.inj hok)
    exact .inl ⟨rfl, served.outstanding, true, by rw [← hstreaming]⟩

/-- The numbers of the samples that were shown of a track. -/
def picksOf (i : Nat) (picks : List (Nat × Nat)) : List Nat :=
  (picks.filter fun pick => pick.1 = i).map (·.2)

/-- Every track has been shown from where it landed up to its cursor. -/
structure Resumed (target : Int) (r : Mp4Reader) (frames : List AVFrame)
    (picks : List (Nat × Nat)) : Prop where
  state : r.state = .streaming
  served : r.seekRequestUs = none
  shows : List.Forall₂ (Shows r.tracks r.indices) frames picks
  tracks : ∀ i index, r.indices[i]? = some index → ∃ n,
    picksOf i picks = List.range' (landing target index) n ∧
      r.cursors[i]? = some (landing target index + n)

/-- The wish is still open and nothing is shown, or it has been served. -/
def Resuming (target : Int) (frames : List AVFrame) (r : Mp4Reader) : Prop :=
  Valid r ∧ (r.seekRequestUs = some target ∧ frames = [] ∨ ∃ picks, Resumed target r frames picks)

/-- What a step can change besides the cursors. -/
theorem Resumed.same (h : Resumed target r frames picks) (hstate : r'.state = r.state)
    (hseek : r'.seekRequestUs = r.seekRequestUs) (htracks : r'.tracks = r.tracks)
    (hindices : r'.indices = r.indices) (hcursors : r'.cursors = r.cursors) :
    Resumed target r' frames picks := by
  refine ⟨hstate.trans h.state, hseek.trans h.served, ?_, ?_⟩
  · rw [htracks, hindices]
    exact h.shows
  · rw [hindices, hcursors]
    exact h.tracks

theorem Valid.same (h : Valid r) (hstate : r'.state = r.state) (htracks : r'.tracks = r.tracks)
    (hindices : r'.indices = r.indices) (hcursors : r'.cursors = r.cursors)
    (hemitted : r'.tracksEmitted = r.tracksEmitted) : Valid r' := by
  refine ⟨⟨?_, ?_, ?_⟩, ?_⟩
  · rw [htracks, hindices]
    exact h.tracks
  · rw [hcursors, hindices]
    exact h.cursors
  · rw [hindices]
    exact h.indices
  · rw [hstate, hemitted]
    exact h.quiet

theorem valid_of_streaming (h : Loaded r) (hstate : r.state = .streaming) : Valid r := by
  refine ⟨h, ?_⟩
  rw [hstate]
  rintro (hnot | ⟨_, _, hnot⟩) <;> cases hnot

theorem Loaded.handleSeekRequest (h : Loaded r) (hstate : r.state = .streaming) :
    Loaded r.handleSeekRequest := by
  rw [handleSeekRequest_eq hstate]
  refine ⟨h.tracks, ?_, h.indices⟩
  dsimp only
  split
  · exact h.cursors
  · simp

/-- The wish is served at the start of a step, once the tracks are known. -/
theorem Resuming.handleSeekRequest (h : Resuming target frames r) (hstate : r.state = .streaming) :
    ∃ picks, Resumed target r.handleSeekRequest frames picks := by
  rw [handleSeekRequest_eq hstate]
  rcases h.2 with ⟨hseek, rfl⟩ | ⟨picks, hresumed⟩
  · rw [hseek]
    refine ⟨[], hstate, rfl, .nil, fun i index hindex => ⟨0, rfl, ?_⟩⟩
    dsimp only at hindex ⊢
    rw [List.getElem?_map, hindex]
    rfl
  · rw [hresumed.served]
    exact ⟨picks, hresumed.same rfl hresumed.served.symm rfl rfl rfl⟩

theorem picksOf_append (i : Nat) (picks : List (Nat × Nat)) (pick : Nat × Nat) :
    picksOf i (picks ++ [pick]) = picksOf i picks ++ (if pick.1 = i then [pick.2] else []) := by
  unfold picksOf
  rw [List.filter_append, List.map_append]
  congr 1
  by_cases h : pick.1 = i <;> simp [h]

/-- The sample at the cursor is the one after those that were shown. -/
theorem Resumed.frame {frame : AVFrame} (h : Resumed target r frames picks)
    (hshows : Shows r.tracks r.indices frame (i, k)) (hcursor : r.cursors[i]? = some k) :
    Resumed target { r with cursors := r.cursors.set i (k + 1) } (frames ++ [frame])
      (picks ++ [(i, k)]) := by
  refine ⟨h.state, h.served, ?_, fun j index hindex => ?_⟩
  · exact List.rel_append h.shows (.cons hshows .nil)
  · obtain ⟨n, hpicks, hn⟩ := h.tracks j index hindex
    rw [picksOf_append, hpicks]
    dsimp only
    by_cases hij : i = j
    · subst hij
      rw [hcursor, Option.some.injEq] at hn
      rw [if_pos rfl, hn, ← List.range'_1_concat,
        List.getElem?_set_self (List.getElem?_eq_some_iff.mp hcursor).1]
      exact ⟨n + 1, rfl, rfl⟩
    · rw [if_neg hij, List.append_nil, List.getElem?_set_ne hij]
      exact ⟨n, rfl, hn⟩

theorem Valid.step (h : Valid r) (hok : r.step = .ok (event, r')) : Valid r' := by
  by_cases hstate : r.state = .streaming
  · have hloaded := h.toLoaded.handleSeekRequest hstate
    have hstreaming : r.handleSeekRequest.state = .streaming := by
      rw [handleSeekRequest_eq hstate, hstate]
    rcases step_cases hstate hok with ⟨-, outstanding, emitted, rfl⟩ | ⟨frame, i, k, -, -, -, rfl⟩
    · exact valid_of_streaming ⟨hloaded.1, hloaded.2, hloaded.3⟩ hstreaming
    · refine valid_of_streaming ⟨hloaded.1, ?_, hloaded.3⟩ hstreaming
      rw [List.length_set]
      exact hloaded.2
  · exact (h.step_before hstate hok).valid

theorem Resuming.step (h : Resuming target frames r) (hok : r.step = .ok (event, r')) :
    Resuming target (frames ++ (frameOf event).toList) r' := by
  refine ⟨h.1.step hok, ?_⟩
  by_cases hstate : r.state = .streaming
  · obtain ⟨picks, hresumed⟩ := h.handleSeekRequest hstate
    rcases step_cases hstate hok with ⟨hframe, outstanding, emitted, rfl⟩ |
      ⟨frame, i, k, rfl, hshows, hcursor, rfl⟩
    · rw [hframe, Option.toList_none, List.append_nil]
      exact .inr ⟨picks, hresumed.same rfl rfl rfl rfl rfl⟩
    · have htracks : r.handleSeekRequest.tracks = r.tracks := by rw [handleSeekRequest_eq hstate]
      have hindices : r.handleSeekRequest.indices = r.indices := by
        rw [handleSeekRequest_eq hstate]
      exact .inr ⟨picks ++ [(i, k)], hresumed.frame (htracks ▸ hindices ▸ hshows) hcursor⟩
  · have hquiet := h.1.step_before hstate hok
    rcases h.2 with ⟨hseek, rfl⟩ | ⟨picks, hresumed⟩
    · rw [hquiet.noFrame]
      exact .inl ⟨hquiet.seekRequestUs.trans hseek, rfl⟩
    · exact absurd hresumed.state hstate

/-- What the runtime does with a reader. -/
inductive ReaderOp
  | setFileSize (fileSize : Nat)
  | feedBytes (result : Mp4ReadResult)
  | seek (positionUs : Int)
  | step

/-- A panic stops the run. -/
def perform : Transition Mp4Reader ReaderOp Mp4ReadEvent
  | r, .setFileSize fileSize => some (r.setFileSize fileSize, [])
  | r, .feedBytes result => (r.feedBytes result).toOption.map fun r => (r, [])
  | r, .seek positionUs => some (r.seek positionUs, [])
  | r, .step => r.step.toOption.map fun (event, r) => (r, [event])

theorem evictOldPending_eq (r : Mp4Reader) :
    ∃ pendingReads, r.evictOldPending = { r with pendingReads } := by
  unfold evictOldPending
  split
  · exact ⟨r.pendingReads, rfl⟩
  · exact ⟨_, rfl⟩

theorem feedBytes_eq (hok : r.feedBytes result = .ok r') :
    ∃ pendingReads outstanding, r' = { r with pendingReads, outstanding } := by
  have hkept (outstanding : Option Mp4ReadRequest) (r₁ : Mp4Reader)
      (h₁ : r₁ = { r with pendingReads := r.pendingReads ++ [result], outstanding })
      (h : r' = if r₁.state = .streaming then r₁.evictOldPending else r₁) :
      ∃ pendingReads outstanding, r' = { r with pendingReads, outstanding } := by
    subst h₁ h
    split
    · obtain ⟨pendingReads, heq⟩ := evictOldPending_eq
        { r with pendingReads := r.pendingReads ++ [result], outstanding }
      exact ⟨pendingReads, outstanding, heq⟩
    · exact ⟨_, _, rfl⟩
  unfold feedBytes at hok
  dsimp only at hok
  split at hok
  · obtain ⟨found, -, hok⟩ := bind_eq_ok hok
    exact hkept _ _ rfl (Except.ok.inj hok).symm
  · exact hkept _ _ rfl (Except.ok.inj hok).symm

theorem valid_perform (h : Valid r) (hok : perform r op = some (r', events)) : Valid r' := by
  cases op with
  | setFileSize fileSize =>
    cases hok
    exact h.same rfl rfl rfl rfl rfl
  | feedBytes result =>
    obtain ⟨fed, hfed, heq⟩ := Option.map_eq_some_iff.mp hok
    cases heq
    obtain ⟨_, _, rfl⟩ := feedBytes_eq (toOption_eq_some hfed)
    exact h.same rfl rfl rfl rfl rfl
  | seek positionUs =>
    cases hok
    exact h.same rfl rfl rfl rfl rfl
  | step =>
    obtain ⟨⟨event, stepped⟩, hstepped, heq⟩ := Option.map_eq_some_iff.mp hok
    cases heq
    exact h.step (toOption_eq_some hstepped)

/-- What the runtime does besides steps does not touch the samples. -/
theorem Resuming.same (h : Resuming target frames r) (hstate : r'.state = r.state)
    (hseek : r'.seekRequestUs = r.seekRequestUs) (htracks : r'.tracks = r.tracks)
    (hindices : r'.indices = r.indices) (hcursors : r'.cursors = r.cursors)
    (hemitted : r'.tracksEmitted = r.tracksEmitted) : Resuming target frames r' := by
  refine ⟨h.1.same hstate htracks hindices hcursors hemitted, ?_⟩
  exact h.2.imp (fun h => ⟨hseek.trans h.1, h.2⟩)
    fun ⟨picks, h⟩ => ⟨picks, h.same hstate hseek htracks hindices hcursors⟩

theorem Resuming.perform (h : Resuming target frames r) (hop : ∀ us, op ≠ .seek us)
    (hok : perform r op = some (r', events)) :
    Resuming target (frames ++ events.filterMap frameOf) r' := by
  cases op with
  | setFileSize fileSize =>
    cases hok
    rw [List.filterMap_nil, List.append_nil]
    exact h.same rfl rfl rfl rfl rfl rfl
  | feedBytes result =>
    obtain ⟨fed, hfed, heq⟩ := Option.map_eq_some_iff.mp hok
    cases heq
    obtain ⟨_, _, rfl⟩ := feedBytes_eq (toOption_eq_some hfed)
    rw [List.filterMap_nil, List.append_nil]
    exact h.same rfl rfl rfl rfl rfl rfl
  | seek positionUs => exact absurd rfl (hop positionUs)
  | step =>
    obtain ⟨⟨event, stepped⟩, hstepped, heq⟩ := Option.map_eq_some_iff.mp hok
    cases heq
    have hevents : [event].filterMap frameOf = (frameOf event).toList := by
      cases hframe : frameOf event <;> simp [hframe]
    rw [hevents]
    exact h.step (toOption_eq_some hstepped)

theorem usToTicks_nonneg (h : 0 ≤ us) (timescale : Nat) : 0 ≤ usToTicks us timescale := by
  unfold usToTicks
  split
  · exact h
  · have hticks : 0 ≤ (us * timescale).tdiv 1000000 :=
      Int.tdiv_nonneg (Int.mul_nonneg h (Int.natCast_nonneg _)) (by decide)
    unfold saturateI64 I64_MIN I64_MAX
    omega

/-- A search ends at the last key frame that is not after the target, and whatever was done with a
reader before, after a wish to seek every track is shown from there, sample by sample. -/
theorem seek_lands_and_resumes :
    (∀ index : SampleIndex, index.samples.Pairwise (·.dts ≤ ·.dts) → index.samples ≠ [] →
      ∀ target, ∃ i, index.seekToDts target = some i ∧ index.LandsOn target i) ∧
    ∀ config before positionUs after r r' earlier events,
      Transition.run perform { config } before = some (r, earlier) →
      (∀ op ∈ after, ∀ us, op ≠ .seek us) →
      Transition.run perform (r.seek positionUs) after = some (r', events) →
      ∃ picks, List.Forall₂ (Shows r'.tracks r'.indices) (events.filterMap frameOf) picks ∧
        ∀ i index, r'.indices[i]? = some index → index.samples ≠ [] →
          ∃ key n entry, index.seekToDts (usToTicks (max positionUs 0) index.timescale) = some key ∧
            index.LandsOn (usToTicks (max positionUs 0) index.timescale) key ∧
            index.samples[key]? = some entry ∧
            entry.dts ≤ usToTicks (max positionUs 0) index.timescale ∧
            picksOf i picks = List.range' key n := by
  refine ⟨fun index h hne target => SampleIndex.seekToDts_lands h hne target, ?_⟩
  intro config before positionUs after r r' earlier events hbefore hafter hrun
  have halways : Transition.Along perform (fun _ _ => True) { config } before :=
    Transition.along_true
  have hvalid : Valid r := Transition.run_invariant Valid
    (fun _ _ _ _ h _ hok => valid_perform h hok) (valid_new config) halways hbefore
  have hwish : Resuming (max positionUs 0) [] (r.seek positionUs) :=
    ⟨hvalid.same rfl rfl rfl rfl rfl, .inl ⟨rfl, rfl⟩⟩
  obtain ⟨hvalid', hcase⟩ := Transition.run_traced
    (fun events r => Resuming (max positionUs 0) (events.filterMap frameOf) r)
    (fun es _ _ _ _ h hop hok => by
      rw [List.filterMap_append]
      exact h.perform hop hok)
    [] hwish (Transition.along_of_forall hafter) hrun
  rw [List.nil_append] at hcase
  have hlands (i : Nat) (index : SampleIndex) (hindex : r'.indices[i]? = some index)
      (hne : index.samples ≠ []) : ∃ entry,
        index.seekToDts (usToTicks (max positionUs 0) index.timescale) =
          some (landing (max positionUs 0) index) ∧
        index.LandsOn (usToTicks (max positionUs 0) index.timescale)
          (landing (max positionUs 0) index) ∧
        index.samples[landing (max positionUs 0) index]? = some entry ∧
        entry.dts ≤ usToTicks (max positionUs 0) index.timescale := by
    have hzero := hvalid'.indices index (List.mem_of_getElem? hindex)
    obtain ⟨key, hkey, hland⟩ := SampleIndex.seekToDts_lands hzero.ascending hne
      (usToTicks (max positionUs 0) index.timescale)
    have heq : landing (max positionUs 0) index = key := by
      rw [landing, hkey]
      rfl
    obtain ⟨entry, hentry⟩ := hland.inside hne
    have htarget := usToTicks_nonneg (Int.le_max_right positionUs 0) index.timescale
    exact heq ▸ ⟨entry, hkey, hland, hentry, hland.dts_le hzero htarget hentry⟩
  rcases hcase with ⟨-, hnone⟩ | ⟨picks, hresumed⟩
  · refine ⟨[], hnone ▸ .nil, fun i index hindex hne => ?_⟩
    obtain ⟨entry, hkey, hland, hentry, hdts⟩ := hlands i index hindex hne
    exact ⟨_, 0, entry, hkey, hland, hentry, hdts, rfl⟩
  · refine ⟨picks, hresumed.shows, fun i index hindex hne => ?_⟩
    obtain ⟨entry, hkey, hland, hentry, hdts⟩ := hlands i index hindex hne
    obtain ⟨n, hpicks, -⟩ := hresumed.tracks i index hindex
    exact ⟨_, n, entry, hkey, hland, hentry, hdts, hpicks⟩

end Mp4Reader
end CheetahMedia.Codec.Mp4
