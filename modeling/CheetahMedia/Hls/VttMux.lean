import Mathlib.Data.List.DropRight
import CheetahMedia.Lib.Padded
import CheetahMedia.Lib.Checked
import CheetahMedia.Lib.Tiling
import CheetahMedia.Lib.Transition

namespace CheetahMedia.Hls
open Lib Lib.Text

structure WebVttCue where
  id : Option Text
  startMs : Nat
  endMs : Nat
  payload : Text
  settings : Option Text
deriving DecidableEq

inductive HlsCoreError
  | invalidTimestamp

def MAX_PENDING_CUES : Nat := 256

structure VttSegment where
  name : Text
  sequence : Nat
  startMs : Nat
  endMs : Nat
  payload : Text
deriving DecidableEq

structure VttMuxConfig where
  segmentDurationMs : Nat
  maxSegments : Nat
deriving DecidableEq

def VttMuxConfig.default : VttMuxConfig := ⟨4000, 32⟩

structure VttMux where
  config : VttMuxConfig
  segments : List VttSegment
  pendingCues : List WebVttCue
  nextSequence : Nat
  nextSegmentStart : Option Nat
deriving DecidableEq

def formatVttTimestamp (ms : Nat) : Text :=
  let hh := ms / 3600000
  let rem := ms % 3600000
  let mm := rem / 60000
  let rem := rem % 60000
  let ss := rem / 1000
  let ttt := rem % 1000
  padded 2 hh ++ ':' :: (padded 2 mm ++ ':' :: (padded 2 ss ++ '.' :: padded 3 ttt))

/-- The text of a cue between two points in time. -/
def WebVttCue.written (cue : WebVttCue) (segmentStart segmentEnd : Nat) : Text :=
  formatVttTimestamp segmentStart ++ " --> ".toList ++ formatVttTimestamp segmentEnd ++
    (match cue.settings with
      | some settings => ' ' :: settings
      | none => []) ++ '\n' :: (cue.payload ++ "\n\n".toList)

namespace VttMux

def new (config : VttMuxConfig) : VttMux := ⟨config, [], [], 0, some 0⟩

def sortCues (cues : List WebVttCue) : List WebVttCue :=
  cues.mergeSort fun a b => a.startMs ≤ b.startMs

def pushCue (mux : VttMux) (cue : WebVttCue) : Except HlsCoreError Unit × VttMux :=
  if cue.endMs ≤ cue.startMs then (.error .invalidTimestamp, mux)
  else
    let pending :=
      if MAX_PENDING_CUES ≤ mux.pendingCues.length then mux.pendingCues.drop 1
      else mux.pendingCues
    (.ok (), { mux with pendingCues := sortCues (pending ++ [cue]) })

/-- One cue of the loop: what the payload and the retained cues become. -/
def closeCue (startMs endMs : Nat) (acc : Text × List WebVttCue) (cue : WebVttCue) :
    Text × List WebVttCue :=
  if cue.endMs ≤ startMs ∨ endMs ≤ cue.startMs then
    if endMs < cue.endMs ∨ endMs ≤ cue.startMs then (acc.1, acc.2 ++ [cue]) else acc
  else
    let segmentStart := max cue.startMs startMs
    let segmentEnd := min cue.endMs endMs
    let payload :=
      if segmentStart < segmentEnd then acc.1 ++ cue.written segmentStart segmentEnd else acc.1
    (payload, if endMs < cue.endMs then acc.2 ++ [cue] else acc.2)

def segmentStart (mux : VttMux) (endMs : Nat) : Nat :=
  mux.nextSegmentStart.getD (endMs - mux.config.segmentDurationMs)

def closeSegment (mux : VttMux) (endMs : Nat) : Except HlsCoreError Unit × VttMux :=
  let startMs := mux.segmentStart endMs
  if endMs ≤ startMs then (.error .invalidTimestamp, mux)
  else
    let (payload, retained) :=
      mux.pendingCues.foldl (closeCue startMs endMs) ("WEBVTT\n\n".toList, [])
    let segment : VttSegment :=
      ⟨"sub".toList ++ decimal mux.nextSequence, mux.nextSequence, startMs, endMs, payload⟩
    let segments :=
      if mux.config.maxSegments ≤ mux.segments.length then mux.segments.drop 1 else mux.segments
    (.ok (), { mux with
      pendingCues := sortCues retained
      nextSequence := mux.nextSequence + 1
      nextSegmentStart := some endMs
      segments := segments ++ [segment] })

/-- The sum for the end may overflow, also where an end is given. -/
def flush (mux : VttMux) (endMs : Option Nat) : Checked (Except HlsCoreError Unit × VttMux) := do
  let startMs := mux.nextSegmentStart.getD 0
  let target ← Checked.u64 (startMs + mux.config.segmentDurationMs)
  let fallback :=
    match (mux.pendingCues.map (·.endMs)).max? with
    | some last => max last target
    | none => target
  return mux.closeSegment (endMs.getD fallback)

end VttMux

inductive VttInput
  | push (cue : WebVttCue)
  | close (endMs : Nat)
  | flush (endMs : Option Nat)

/-- What an accepted call leaves behind. -/
inductive VttEvent
  | accepted (cue : WebVttCue)
  | closed (segment : VttSegment)
deriving DecidableEq

namespace VttMux

/-- A mux after a call that closes a segment, with the segment if it was accepted. -/
def closing (result : Except HlsCoreError Unit × VttMux) : VttMux × List VttEvent :=
  (result.2, match result.1 with
    | .ok _ => (result.2.segments.getLast?.map VttEvent.closed).toList
    | .error _ => [])

def step : Transition VttMux VttInput VttEvent
  | mux, .push cue =>
    let result := mux.pushCue cue
    some (result.2, match result.1 with
      | .ok _ => [.accepted cue]
      | .error _ => [])
  | mux, .close endMs => some (closing (mux.closeSegment endMs))
  | mux, .flush endMs =>
    match mux.flush endMs with
    | .ok result => some (closing result)
    | .error _ => none

/-- No cue that waits is dropped for the one that comes. -/
def HasRoom (mux : VttMux) : VttInput → Prop
  | .push cue => cue.startMs < cue.endMs → mux.pendingCues.length < MAX_PENDING_CUES
  | _ => True

instance (mux : VttMux) : ∀ input, Decidable (mux.HasRoom input)
  | .push _ => inferInstanceAs (Decidable (_ → _))
  | .close _ => inferInstanceAs (Decidable True)
  | .flush _ => inferInstanceAs (Decidable True)

end VttMux

section Pieces

def VttSegment.window (segment : VttSegment) : Nat × Nat := (segment.startMs, segment.endMs)

/-- The piece of a cue that belongs into a segment. -/
def WebVttCue.clip (startMs endMs : Nat) (cue : WebVttCue) : Option WebVttCue :=
  (Lib.clip cue.startMs cue.endMs (startMs, endMs)).map fun times =>
    { cue with startMs := times.1, endMs := times.2 }

def WebVttCue.times (cue : WebVttCue) : Nat × Nat := (cue.startMs, cue.endMs)

/-- The times of the pieces of a cue in segments. -/
def WebVttCue.pieces (cue : WebVttCue) (segments : List VttSegment) : List (Nat × Nat) :=
  segments.filterMap fun segment => (cue.clip segment.startMs segment.endMs).map (·.times)

def acceptedOf (es : List VttEvent) : List WebVttCue :=
  es.filterMap fun
    | .accepted cue => some cue
    | .closed _ => none

def closedOf (es : List VttEvent) : List VttSegment :=
  es.filterMap fun
    | .accepted _ => none
    | .closed segment => some segment

/-- Where the open segment starts. -/
def lastClose (es : List VttEvent) : Nat := ((closedOf es).getLast?.map (·.endMs)).getD 0

/-- The segment holds one piece of each of the cues that overlap it, and nothing else. -/
def VttSegment.Holds (segment : VttSegment) (cues : List WebVttCue) : Prop :=
  ∃ pieces : List WebVttCue,
    pieces.Perm (cues.filterMap (·.clip segment.startMs segment.endMs)) ∧
    segment.payload = "WEBVTT\n\n".toList ++
      pieces.flatMap fun piece => piece.written piece.startMs piece.endMs

@[simp] theorem acceptedOf_append : acceptedOf (es ++ fs) = acceptedOf es ++ acceptedOf fs :=
  List.filterMap_append

@[simp] theorem closedOf_append : closedOf (es ++ fs) = closedOf es ++ closedOf fs :=
  List.filterMap_append

@[simp] theorem acceptedOf_accepted :
    acceptedOf (.accepted cue :: es) = cue :: acceptedOf es := rfl

@[simp] theorem acceptedOf_closed : acceptedOf (.closed seg :: es) = acceptedOf es := rfl

@[simp] theorem closedOf_accepted : closedOf (.accepted cue :: es) = closedOf es := rfl

@[simp] theorem closedOf_closed : closedOf (.closed seg :: es) = seg :: closedOf es := rfl

@[simp] theorem acceptedOf_nil : acceptedOf [] = [] := rfl

@[simp] theorem closedOf_nil : closedOf [] = [] := rfl

@[simp] theorem lastClose_accepted : lastClose (es ++ [.accepted cue]) = lastClose es := by
  simp [lastClose]

@[simp] theorem lastClose_closed : lastClose (es ++ [.closed seg]) = seg.endMs := by
  simp [lastClose]

/-- What ends in the past has no piece any more. -/
theorem WebVttCue.clip_eq_none {cue : WebVttCue} (h : cue.endMs ≤ s) : cue.clip s e = none := by
  have : ¬max cue.startMs s < min cue.endMs e := by omega
  simp [WebVttCue.clip, Lib.clip, this]

end Pieces

/-- Whether a cue waits for the next segment. -/
def continues (endMs : Nat) (cue : WebVttCue) : Bool := endMs < cue.endMs

/-- The end of a list of events that splits at one of them. -/
theorem split_concat {before after : List VttEvent}
    (h : es ++ [x] = before ++ y :: after) :
    (es = before ∧ x = y ∧ after = []) ∨
      ∃ rest, es = before ++ y :: rest ∧ after = rest ++ [x] := by
  rcases List.eq_nil_or_concat after with rfl | ⟨rest, z, rfl⟩
  · obtain ⟨rfl, hlast⟩ := List.append_inj' h rfl
    exact .inl ⟨rfl, (List.cons.inj hlast).1, rfl⟩
  · rw [List.concat_eq_append, ← List.cons_append, ← List.append_assoc] at h
    obtain ⟨rfl, hlast⟩ := List.append_inj' h rfl
    exact .inr ⟨rest, rfl, by rw [List.concat_eq_append, (List.cons.inj hlast).1]⟩

namespace VttMux

/-- Of a cue that ends after it starts, the loop writes the piece and keeps what continues. -/
theorem closeCue_eq {cue : WebVttCue} (hcue : cue.startMs < cue.endMs) (hlt : s < e) :
    closeCue s e (payload, retained) cue =
      (payload ++ (cue.clip s e).toList.flatMap
        (fun piece => piece.written piece.startMs piece.endMs),
        retained ++ [cue].filter (continues e)) := by
  unfold closeCue continues WebVttCue.clip Lib.clip
  by_cases hout : cue.endMs ≤ s ∨ e ≤ cue.startMs
  · have hempty : ¬max cue.startMs s < min cue.endMs e := by omega
    have hstays : (e < cue.endMs ∨ e ≤ cue.startMs) ↔ e < cue.endMs := by omega
    simp only [if_pos hout, hstays, if_neg hempty]
    by_cases hlater : e < cue.endMs <;> simp [hlater]
  · have hpart : max cue.startMs s < min cue.endMs e := by omega
    simp only [if_neg hout, if_pos hpart]
    by_cases hlater : e < cue.endMs <;> simp [hlater, WebVttCue.written]

theorem closeLoop_eq {cues : List WebVttCue} (hcues : ∀ cue ∈ cues, cue.startMs < cue.endMs)
    (hlt : s < e) (payload : Text) (retained : List WebVttCue) :
    cues.foldl (closeCue s e) (payload, retained) =
      (payload ++ (cues.filterMap (·.clip s e)).flatMap
        (fun piece => piece.written piece.startMs piece.endMs),
        retained ++ cues.filter (continues e)) := by
  induction cues generalizing payload retained with
  | nil => simp
  | cons cue cues ih =>
    obtain ⟨hcue, hrest⟩ := List.forall_mem_cons.mp hcues
    rw [List.foldl_cons, closeCue_eq hcue hlt, ih hrest, List.filter_cons, List.filterMap_cons]
    cases cue.clip s e <;> cases hstays : continues e cue <;> simp [hstays]

theorem sortCues_perm (cues : List WebVttCue) : (sortCues cues).Perm cues :=
  List.mergeSort_perm ..

/-- A cue is rejected, or waits with the others. -/
theorem pushCue_cases (mux : VttMux) (cue : WebVttCue) (hroom : mux.HasRoom (.push cue)) :
    (cue.endMs ≤ cue.startMs ∧ mux.pushCue cue = (.error .invalidTimestamp, mux)) ∨
    (cue.startMs < cue.endMs ∧ mux.pushCue cue =
      (.ok (), { mux with pendingCues := sortCues (mux.pendingCues ++ [cue]) })) := by
  by_cases h : cue.endMs ≤ cue.startMs
  · exact .inl ⟨h, if_pos h⟩
  · have hlt := Nat.not_le.mp h
    refine .inr ⟨hlt, ?_⟩
    rw [pushCue, if_neg h, if_neg (Nat.not_le.mpr (hroom hlt))]

/-- The segment that a mux closes, with the pieces of these cues. -/
def nextSegment (mux : VttMux) (startMs endMs : Nat) : VttSegment where
  name := "sub".toList ++ decimal mux.nextSequence
  sequence := mux.nextSequence
  startMs := startMs
  endMs := endMs
  payload := "WEBVTT\n\n".toList ++ (mux.pendingCues.filterMap (·.clip startMs endMs)).flatMap
    fun piece => piece.written piece.startMs piece.endMs

/-- A close is rejected, or a segment from the last end on joins the ring. -/
theorem closeSegment_cases (mux : VttMux) (endMs : Nat) (hopen : mux.nextSegmentStart = some s)
    (hcues : ∀ cue ∈ mux.pendingCues, cue.startMs < cue.endMs) :
    (endMs ≤ s ∧ mux.closeSegment endMs = (.error .invalidTimestamp, mux)) ∨
    (s < endMs ∧ mux.closeSegment endMs = (.ok (), { mux with
      pendingCues := sortCues (mux.pendingCues.filter (continues endMs))
      nextSequence := mux.nextSequence + 1
      nextSegmentStart := some endMs
      segments := (if mux.config.maxSegments ≤ mux.segments.length then mux.segments.drop 1
        else mux.segments) ++ [mux.nextSegment s endMs] })) := by
  have hstart : mux.segmentStart endMs = s := by rw [segmentStart, hopen, Option.getD_some]
  by_cases h : endMs ≤ s
  · exact .inl ⟨h, by rw [closeSegment, hstart, if_pos h]⟩
  · have hlt := Nat.not_le.mp h
    exact .inr ⟨hlt, by rw [closeSegment, hstart, if_neg h, closeLoop_eq hcues hlt]; rfl⟩

/-- What holds of a mux and of what it has accepted and closed so far. -/
structure Sound (settings : VttMuxConfig) (es : List VttEvent) (mux : VttMux) : Prop where
  limit : mux.config = settings
  opened : mux.nextSegmentStart = some (lastClose es)
  contiguous : Contiguous 0 (lastClose es) ((closedOf es).map (·.window))
  sequence : mux.nextSequence = (closedOf es).length
  numbered : (closedOf es).map (·.sequence) = List.range (closedOf es).length
  kept : mux.segments = (closedOf es).drop ((closedOf es).length - settings.maxSegments)
  pending : ∀ cue ∈ mux.pendingCues, cue.startMs < cue.endMs
  accepted : ∀ cue ∈ acceptedOf es, cue.startMs < cue.endMs
  /-- In what lies ahead the waiting cues have the pieces of all accepted ones. -/
  ahead : ∀ s e, lastClose es ≤ s →
    (mux.pendingCues.filterMap (·.clip s e)).Perm ((acceptedOf es).filterMap (·.clip s e))
  holds : ∀ before segment after, es = before ++ .closed segment :: after →
    segment.Holds (acceptedOf before)

theorem Sound.push (h : Sound settings es mux) (hcue : cue.startMs < cue.endMs) :
    Sound settings (es ++ [.accepted cue])
      { mux with pendingCues := sortCues (mux.pendingCues ++ [cue]) } where
  limit := h.limit
  opened := by simpa using h.opened
  contiguous := by simpa using h.contiguous
  sequence := by simpa using h.sequence
  numbered := by simpa using h.numbered
  kept := by simpa using h.kept
  pending other hmem := by
    rcases List.mem_append.mp ((sortCues_perm _).mem_iff.mp hmem) with hold | hnew
    · exact h.pending other hold
    · rwa [List.mem_singleton.mp hnew]
  accepted other hmem := by
    rw [acceptedOf_append] at hmem
    rcases List.mem_append.mp hmem with hold | hnew
    · exact h.accepted other hold
    · rwa [List.mem_singleton.mp hnew]
  ahead s e hle := by
    rw [lastClose_accepted] at hle
    refine ((sortCues_perm _).filterMap _).trans ?_
    rw [acceptedOf_append, List.filterMap_append, List.filterMap_append]
    exact (h.ahead s e hle).append_right _
  holds before segment after hsplit := by
    rcases split_concat hsplit with ⟨-, heq, -⟩ | ⟨rest, hes, -⟩
    · cases heq
    · exact h.holds before segment rest hes

/-- The ring holds the last segments. -/
theorem kept_concat (l : List VttSegment) (segment : VttSegment) (hlimit : 1 ≤ limit) :
    (if limit ≤ (l.drop (l.length - limit)).length then (l.drop (l.length - limit)).drop 1
      else l.drop (l.length - limit)) ++ [segment] =
    (l ++ [segment]).drop ((l ++ [segment]).length - limit) := by
  rw [List.length_drop, List.length_append, List.length_singleton,
    List.drop_append_of_le_length (by omega)]
  split
  · rw [List.drop_drop, show l.length - limit + 1 = l.length + 1 - limit by omega]
  · rw [show l.length - limit = 0 by omega, show l.length + 1 - limit = 0 by omega]

theorem Sound.close (h : Sound settings es mux) (hlimit : 1 ≤ settings.maxSegments)
    (hlt : lastClose es < endMs) :
    Sound settings (es ++ [.closed (mux.nextSegment (lastClose es) endMs)])
      { mux with
        pendingCues := sortCues (mux.pendingCues.filter (continues endMs))
        nextSequence := mux.nextSequence + 1
        nextSegmentStart := some endMs
        segments := (if mux.config.maxSegments ≤ mux.segments.length then mux.segments.drop 1
          else mux.segments) ++ [mux.nextSegment (lastClose es) endMs] } where
  limit := h.limit
  opened := by rw [lastClose_closed]; rfl
  contiguous := by
    rw [lastClose_closed, closedOf_append, List.map_append]
    exact contiguous_append.mpr ⟨_, h.contiguous, rfl, hlt, rfl⟩
  sequence := by simpa using h.sequence
  numbered := by
    rw [closedOf_append, List.map_append, h.numbered, List.length_append]
    exact (congrArg (_ ++ [·]) h.sequence).trans List.range_succ.symm
  kept := by
    rw [closedOf_append, h.limit, h.kept]
    exact kept_concat _ _ hlimit
  pending cue hmem :=
    h.pending cue (List.mem_filter.mp ((sortCues_perm _).mem_iff.mp hmem)).1
  accepted cue hmem := by
    rw [acceptedOf_append, acceptedOf_closed, acceptedOf_nil, List.append_nil] at hmem
    exact h.accepted cue hmem
  ahead s e hle := by
    rw [lastClose_closed] at hle
    replace hle : endMs ≤ s := hle
    refine ((sortCues_perm _).filterMap _).trans ?_
    have hkeep : (mux.pendingCues.filter (continues endMs)).filterMap (·.clip s e) =
        mux.pendingCues.filterMap (·.clip s e) := by
      rw [List.filterMap_filter]
      refine List.filterMap_congr fun cue _ => ?_
      split
      · rfl
      · rename_i hends
        exact (WebVttCue.clip_eq_none (by simp [continues] at hends; omega)).symm
    rw [hkeep, acceptedOf_append, acceptedOf_closed, acceptedOf_nil, List.append_nil]
    exact h.ahead s e (by omega)
  holds before segment after hsplit := by
    rcases split_concat hsplit with ⟨rfl, heq, -⟩ | ⟨rest, hes, -⟩
    · cases heq
      exact ⟨_, h.ahead _ _ le_rfl, rfl⟩
    · exact h.holds before segment rest hes

theorem Sound.closing (h : Sound settings es mux) (hlimit : 1 ≤ settings.maxSegments) :
    Sound settings (es ++ (closing (mux.closeSegment endMs)).2)
      (closing (mux.closeSegment endMs)).1 := by
  rcases mux.closeSegment_cases endMs h.opened h.pending with ⟨-, heq⟩ | ⟨hlt, heq⟩
  · rw [heq]
    exact (List.append_nil es).symm ▸ h
  · rw [heq]
    have := h.close hlimit hlt
    simpa [VttMux.closing] using this

theorem flush_eq (h : flush mux endMs = .ok result) : ∃ last, result = mux.closeSegment last := by
  simp only [flush] at h
  cases htarget : Checked.u64 (mux.nextSegmentStart.getD 0 + mux.config.segmentDurationMs) with
  | error e => rw [htarget] at h; cases h
  | ok target =>
    rw [htarget] at h
    cases h
    exact ⟨_, rfl⟩

theorem Sound.step (h : Sound settings es mux) (hlimit : 1 ≤ settings.maxSegments)
    (hroom : mux.HasRoom input) (hstep : VttMux.step mux input = some (t, fs)) :
    Sound settings (es ++ fs) t := by
  cases input with
  | push cue =>
    rcases mux.pushCue_cases cue hroom with ⟨-, heq⟩ | ⟨hlt, heq⟩
    · simp only [VttMux.step, heq] at hstep
      cases hstep
      rwa [List.append_nil]
    · simp only [VttMux.step, heq] at hstep
      cases hstep
      exact h.push hlt
  | close endMs =>
    cases hstep
    exact h.closing hlimit
  | flush endMs =>
    simp only [VttMux.step] at hstep
    split at hstep
    · rename_i hflush
      obtain ⟨last, rfl⟩ := flush_eq hflush
      cases hstep
      exact h.closing hlimit
    · cases hstep

theorem new_sound (settings : VttMuxConfig) : Sound settings [] (new settings) where
  limit := rfl
  opened := rfl
  contiguous := rfl
  sequence := rfl
  numbered := rfl
  kept := List.drop_nil.symm
  pending := by simp [new]
  accepted := by simp
  ahead _ _ _ := .refl _
  holds before segment after hsplit := by simp at hsplit

end VttMux

end CheetahMedia.Hls
