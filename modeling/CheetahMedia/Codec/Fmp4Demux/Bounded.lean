import CheetahMedia.Codec.Fmp4Demux

namespace CheetahMedia.Codec
open Lib Lib.Checked

/-- What a stream holds from the first box on whose header declares the size zero. The boxes
before it lie one behind the other; one that declares less than its header is its header. -/
@[simp] def openEndedWithin : Nat → Bytes → Option Bytes
  | 0, _ => none
  | passes + 1, stream =>
    let (boxSize, headerSize) := readBoxHeader stream
    if headerSize = 0 then none
    else if boxSize = 0 then some stream
    else openEndedWithin passes (stream.drop (max boxSize headerSize))

def openEnded (stream : Bytes) : Option Bytes := openEndedWithin (stream.length + 1) stream

theorem readBoxHeader_short (h : (readBoxHeader buf).2 = 0) :
    (readBoxHeader buf).1 = 0 ∧ buf.length < 16 := by
  unfold readBoxHeader at *
  split at h
  · rename_i hlen
    rw [if_pos hlen]
    exact ⟨rfl, by omega⟩
  · rename_i hlen
    dsimp only at h
    split at h
    · rename_i hone
      split at h
      · rename_i hshort
        rw [if_neg hlen]
        dsimp only
        rw [if_pos hone, if_pos hshort]
        exact ⟨rfl, hshort⟩
      · cases h
    · cases h

theorem readBoxHeader_long (h : (readBoxHeader buf).2 ≠ 0) :
    8 ≤ (readBoxHeader buf).2 ∧ (readBoxHeader buf).2 ≤ buf.length := by
  unfold readBoxHeader at *
  split at h
  · exact absurd rfl h
  · rename_i hlen
    dsimp only at *
    rw [if_neg hlen]
    split at h
    · rename_i hone
      split at h
      · exact absurd rfl h
      · rename_i hlong
        rw [if_pos hone, if_neg hlong]
        dsimp only
        omega
    · rename_i hone
      rw [if_neg hone]
      dsimp only
      omega

/-- A header that is all there reads the same whatever comes behind it. -/
theorem readBoxHeader_append (h : (readBoxHeader buf).2 ≠ 0) (more : Bytes) :
    readBoxHeader (buf ++ more) = readBoxHeader buf := by
  unfold readBoxHeader at *
  split at h
  · exact absurd rfl h
  · rename_i hlen
    have htake : (buf ++ more).take 4 = buf.take 4 := List.take_append_of_le_length (by omega)
    rw [List.length_append, if_neg (by omega), htake, if_neg hlen]
    dsimp only at h ⊢
    split at h
    · rename_i hone
      split at h
      · exact absurd rfl h
      · rename_i hlong
        have hsize : ((buf ++ more).drop 8).take 8 = (buf.drop 8).take 8 := by
          rw [List.drop_append_of_le_length (by omega), List.take_append_of_le_length]
          rw [List.length_drop]
          omega
        rw [if_pos hone, if_pos hone, if_neg (by omega), if_neg hlong, hsize]
    · rename_i hone
      rw [if_neg hone, if_neg hone]

theorem openEndedWithin_eq (hn : stream.length < n) (hm : stream.length < m) :
    openEndedWithin n stream = openEndedWithin m stream := by
  induction n generalizing stream m with
  | zero => omega
  | succ n ih =>
    obtain ⟨m, rfl⟩ : ∃ m', m = m' + 1 := ⟨m - 1, by omega⟩
    rw [openEndedWithin, openEndedWithin]
    dsimp only
    split
    · rfl
    · rename_i hheader
      have hlong := readBoxHeader_long hheader
      have hdrop := List.length_drop (i := max (readBoxHeader stream).1 (readBoxHeader stream).2)
        (l := stream)
      rw [ih (m := m) (by omega) (by omega)]

/-- One box of the layout. -/
theorem openEnded_next (hheader : (readBoxHeader stream).2 ≠ 0)
    (hsize : (readBoxHeader stream).1 ≠ 0) :
    openEnded stream =
      openEnded (stream.drop (max (readBoxHeader stream).1 (readBoxHeader stream).2)) := by
  rw [openEnded, openEndedWithin]
  dsimp only
  rw [if_neg hheader, if_neg hsize]
  have hlong := readBoxHeader_long hheader
  have hdrop := List.length_drop (i := max (readBoxHeader stream).1 (readBoxHeader stream).2)
    (l := stream)
  exact openEndedWithin_eq (by omega) (by omega)

theorem openEnded_unsized (hheader : (readBoxHeader stream).2 ≠ 0)
    (hsize : (readBoxHeader stream).1 = 0) : openEnded stream = some stream := by
  rw [openEnded, openEndedWithin]
  dsimp only
  rw [if_neg hheader, if_pos hsize]

theorem openEnded_short (hheader : (readBoxHeader stream).2 = 0) : openEnded stream = none := by
  rw [openEnded, openEndedWithin]
  dsimp only
  rw [if_pos hheader]

theorem openEnded_length (h : openEnded stream = some rest) : rest.length ≤ stream.length := by
  suffices ∀ n stream, openEndedWithin n stream = some rest → rest.length ≤ stream.length from
    this _ stream h
  intro n
  induction n with
  | zero => nofun
  | succ n ih =>
    intro stream h
    rw [openEndedWithin] at h
    dsimp only at h
    split at h
    · cases h
    · split at h
      · cases h
        exact Nat.le_refl _
      · exact (ih _ h).trans (List.drop_sublist _ _).length_le

namespace Fmp4Demuxer

/-- What a demuxer holds back of a stream: the layout of what is to come is that of the stream. -/
def Holds (stream : Bytes) (d : Fmp4Demuxer) : Prop :=
  (0 < d.skipRemaining → d.buffer = []) ∧
    ∀ more, openEnded (stream ++ more) = openEnded ((d.buffer ++ more).drop d.skipRemaining)

/-- Nothing more is taken from the buffer. -/
def Waits (d : Fmp4Demuxer) : Prop :=
  d.buffer.length < max d.maxBoxBytes 16 ∨ openEnded d.buffer = some d.buffer

/-- Two states in which the buffer is cut alike. -/
structure Agrees (d u : Fmp4Demuxer) : Prop where
  buffer : u.buffer = d.buffer
  skipRemaining : u.skipRemaining = d.skipRemaining
  maxBoxBytes : u.maxBoxBytes = d.maxBoxBytes

theorem parseMoov_agrees {d : Fmp4Demuxer} (h : d.parseMoov content = .ok u) : d.Agrees u := by
  obtain ⟨children, -, h⟩ := bind_eq_ok h
  refine foldlM_keeps (P := d.Agrees) (fun s child t hs ht => ?_) ⟨rfl, rfl, rfl⟩ h
  split at ht
  · obtain ⟨track, -, ht⟩ := bind_eq_ok ht
    cases ht
    exact ⟨hs.buffer, hs.skipRemaining, hs.maxBoxBytes⟩
  · cases ht
    exact hs

/-- What is in the boxes changes nothing of how the buffer is cut. -/
theorem processTopLevelBox_agrees {d : Fmp4Demuxer}
    (h : d.processTopLevelBox boxType content = .ok (u, events)) : d.Agrees u := by
  unfold processTopLevelBox at h
  split at h
  · cases h
    exact ⟨rfl, rfl, rfl⟩
  · split at h
    · obtain ⟨parsed, hparsed, h⟩ := bind_eq_ok h
      cases h
      have hagrees := parseMoov_agrees hparsed
      refine ⟨hagrees.buffer.trans ?_, hagrees.skipRemaining.trans ?_,
        hagrees.maxBoxBytes.trans ?_⟩ <;> split <;> rfl
    · split at h
      · cases h
        exact ⟨rfl, rfl, rfl⟩
      · split at h
        · split at h
          · cases h
            exact ⟨rfl, rfl, rfl⟩
          · obtain ⟨frames, -, h⟩ := bind_eq_ok h
            cases h
            exact ⟨rfl, rfl, rfl⟩
        · cases h
          exact ⟨rfl, rfl, rfl⟩

theorem Holds.refl (h : d.skipRemaining = 0) : Holds d.buffer d := by
  refine ⟨fun hpos => absurd h (Nat.ne_of_gt hpos), fun more => ?_⟩
  rw [h, List.drop_zero]

/-- A box at the front of the buffer is taken off the stream. -/
theorem Holds.of_drop {d : Fmp4Demuxer} (h : d.Holds (buf.drop n)) (hn : n ≤ buf.length)
    (hheader : (readBoxHeader buf).2 ≠ 0) (hsize : (readBoxHeader buf).1 ≠ 0)
    (hbox : n = max (readBoxHeader buf).1 (readBoxHeader buf).2) : d.Holds buf := by
  refine ⟨h.1, fun more => ?_⟩
  have hsame := readBoxHeader_append hheader more
  rw [openEnded_next (by rw [hsame]; exact hheader) (by rw [hsame]; exact hsize), hsame, ← hbox,
    List.drop_append_of_le_length hn]
  exact h.2 more

/-- An oversized box that is not all there is skipped. -/
theorem Holds.of_skip {d : Fmp4Demuxer} (hbuffer : d.buffer = [])
    (hheader : (readBoxHeader buf).2 ≠ 0) (hsize : (readBoxHeader buf).1 ≠ 0)
    (hlong : (readBoxHeader buf).2 ≤ (readBoxHeader buf).1)
    (hskip : d.skipRemaining + buf.length = (readBoxHeader buf).1) : d.Holds buf := by
  refine ⟨fun _ => hbuffer, fun more => ?_⟩
  have hsame := readBoxHeader_append hheader more
  rw [openEnded_next (by rw [hsame]; exact hheader) (by rw [hsame]; exact hsize), hsame,
    Nat.max_eq_left hlong, hbuffer, List.nil_append, ← hskip, Nat.add_comm, ← List.drop_drop,
    List.drop_left]

theorem takeBoxes_holds {d : Fmp4Demuxer} (hskip : d.skipRemaining = 0)
    (hpasses : d.buffer.length < passes) (h : takeBoxes passes d = .ok (u, events)) :
    u.Holds d.buffer ∧ u.Waits ∧ u.maxBoxBytes = d.maxBoxBytes := by
  induction passes generalizing d u events with
  | zero => omega
  | succ passes ih =>
    rw [takeBoxes] at h
    dsimp only at h
    have hdrop (n : Nat) := List.length_drop (i := n) (l := d.buffer)
    split at h
    · cases h
      exact ⟨.refl hskip, .inl (by omega), rfl⟩
    by_cases hheader : (readBoxHeader d.buffer).2 = 0
    · obtain ⟨hsize, hshort⟩ := readBoxHeader_short hheader
      rw [if_pos (.inl hsize)] at h
      cases h
      exact ⟨.refl hskip, .inl (by omega), rfl⟩
    have hlong := readBoxHeader_long hheader
    split at h
    · cases h
      exact ⟨.refl hskip, .inr (openEnded_unsized hheader (by omega)), rfl⟩
    rename_i hsize
    rw [not_or] at hsize
    split at h
    · -- the header alone is taken
      obtain ⟨⟨u', events'⟩, hrest, h⟩ := bind_eq_ok h
      cases h
      have hlen := hdrop (readBoxHeader d.buffer).2
      obtain ⟨hholds, hwaits, hmax⟩ :=
        ih (d := { d with buffer := d.buffer.drop (readBoxHeader d.buffer).2 }) hskip
          (by dsimp only; omega) hrest
      exact ⟨hholds.of_drop hlong.2 hheader hsize.1 (by omega), hwaits, hmax⟩
    have hlen := hdrop (readBoxHeader d.buffer).1
    split at h
    · obtain ⟨⟨u', events'⟩, hrest, h⟩ := bind_eq_ok h
      cases h
      split at hrest
      · obtain ⟨hholds, hwaits, hmax⟩ :=
          ih (d := { d with buffer := d.buffer.drop (readBoxHeader d.buffer).1 }) hskip
            (by dsimp only; omega) hrest
        exact ⟨hholds.of_drop (by omega) hheader hsize.1 (by omega), hwaits, hmax⟩
      · obtain ⟨passes, rfl⟩ : ∃ passes', passes = passes' + 1 := ⟨passes - 1, by omega⟩
        cases hrest
        exact ⟨.of_skip rfl hheader hsize.1 (by omega) (by dsimp only; omega),
          .inl (by dsimp only [List.length_nil]; omega), rfl⟩
    split at h
    · cases h
      exact ⟨.refl hskip, .inl (by omega), rfl⟩
    · obtain ⟨⟨t, events₁⟩, hbox, h⟩ := bind_eq_ok h
      obtain ⟨⟨u', events₂⟩, hrest, h⟩ := bind_eq_ok h
      cases h
      have hagrees := processTopLevelBox_agrees hbox
      obtain ⟨hholds, hwaits, hmax⟩ := ih (d := t) (hagrees.skipRemaining.trans hskip)
        (by rw [hagrees.buffer]; dsimp only; omega) hrest
      rw [hagrees.buffer] at hholds
      exact ⟨hholds.of_drop (by omega) hheader hsize.1 (by omega), hwaits,
        hmax.trans hagrees.maxBoxBytes⟩

theorem Holds.trans (h : Holds stream d) (hskip : d.skipRemaining = 0) (hu : Holds d.buffer u) :
    u.Holds stream := by
  refine ⟨hu.1, fun more => ?_⟩
  rw [h.2 more, hskip, List.drop_zero]
  exact hu.2 more

/-- What comes in goes behind the buffer, and what is left to skip comes off. -/
theorem Holds.extend {d : Fmp4Demuxer} (h : d.Holds stream) (data : Bytes) :
    Holds (stream ++ data) { d with
      buffer := (d.buffer ++ data).drop (min d.skipRemaining (d.buffer ++ data).length)
      skipRemaining := d.skipRemaining - min d.skipRemaining (d.buffer ++ data).length } := by
  refine ⟨fun hpos => ?_, fun more => ?_⟩
  · dsimp only at *
    exact List.drop_eq_nil_of_le (by omega)
  · dsimp only
    rw [List.append_assoc, h.2 (data ++ more), ← List.append_assoc]
    rcases Nat.le_total d.skipRemaining (d.buffer ++ data).length with hle | hle
    · rw [Nat.min_eq_left hle, Nat.sub_self, List.drop_zero, List.drop_append_of_le_length hle]
    · rw [Nat.min_eq_right hle, List.drop_length, List.nil_append, List.drop_append,
        List.drop_eq_nil_of_le hle, List.nil_append]

theorem push_holds {d : Fmp4Demuxer} (hd : d.Holds stream) (h : d.push data = .ok (u, events)) :
    u.Holds (stream ++ data) ∧ u.Waits ∧ u.maxBoxBytes = d.maxBoxBytes := by
  have hextend := hd.extend data
  unfold push at h
  dsimp only at h
  split at h
  · rename_i hskip
    cases h
    refine ⟨hextend, .inl ?_, rfl⟩
    rw [hextend.1 hskip]
    dsimp only [List.length_nil]
    omega
  · rename_i hskip
    have hzero := Nat.eq_zero_of_not_pos hskip
    obtain ⟨hholds, hwaits, hmax⟩ := takeBoxes_holds (d := { d with buffer := _, skipRemaining := _ })
      hzero (Nat.lt_succ_self _) h
    exact ⟨hextend.trans hzero hholds, hwaits, hmax⟩

/-- A run of pushes that all return. -/
inductive Pushed (limit : Nat) : List Bytes → Fmp4Demuxer → Prop
  | new : Pushed limit [] { maxBoxBytes := limit }
  | push (h : Pushed limit pushes d) (hpush : d.push data = .ok (u, events)) :
    Pushed limit (pushes ++ [data]) u

theorem Pushed.holds (h : Pushed limit pushes d) :
    d.Holds pushes.flatten ∧ d.Waits ∧ d.maxBoxBytes = limit := by
  induction h with
  | new => exact ⟨⟨fun _ => rfl, fun _ => rfl⟩, .inl (by dsimp only [List.length_nil]; omega), rfl⟩
  | push _ hpush ih =>
    obtain ⟨hholds, hwaits, hmax⟩ := push_holds ih.1 hpush
    rw [List.flatten_append, List.flatten_singleton]
    exact ⟨hholds, hwaits, hmax.trans ih.2.2⟩

/-- After every push of a run the buffer holds less than the limit exactly if no more than that
has come of the stream from a box on that declares the size zero. -/
theorem buffer_bounded_iff (h : Pushed limit pushes d) : d.buffer.length < max limit 16 ↔
    ∀ rest, openEnded pushes.flatten = some rest → rest.length < max limit 16 := by
  obtain ⟨hholds, hwaits, rfl⟩ := h.holds
  have hopen := hholds.2 []
  rw [List.append_nil, List.append_nil] at hopen
  rcases Nat.eq_zero_or_pos d.skipRemaining with hskip | hskip
  · rw [hskip, List.drop_zero] at hopen
    rcases hwaits with hshort | hunsized
    · refine iff_of_true hshort fun rest hrest => ?_
      have := openEnded_length (hopen.symm.trans hrest)
      omega
    · rw [hopen, hunsized]
      exact ⟨fun hshort rest hrest => Option.some.inj hrest ▸ hshort, fun hall => hall _ rfl⟩
  · rw [hholds.1 hskip, List.drop_nil] at hopen
    rw [hopen, hholds.1 hskip]
    exact iff_of_true (by dsimp only [List.length_nil]; omega) nofun

/-- A box of the size zero, with eight bytes behind its header. -/
def unsizedBox : Bytes := [0, 0, 0, 0, 0x66, 0x72, 0x65, 0x65, 1, 2, 3, 4, 5, 6, 7, 8]

theorem push_unsizedBox : push { maxBoxBytes := 16 } unsizedBox =
    .ok ({ maxBoxBytes := 16, buffer := unsizedBox }, []) := by
  decide +kernel

/-- With boxes of sixteen bytes at most, sixteen bytes are held all the same. -/
theorem not_buffer_bounded : ¬ ∀ limit pushes d, Pushed limit pushes d →
    d.buffer.length < max limit 16 := by
  intro h
  exact absurd (h 16 [unsizedBox] _ (.push .new push_unsizedBox)) (by decide)

/-- With the size declared, the box is taken off the buffer. -/
def sizedBox : Bytes := [0, 0, 0, 16] ++ unsizedBox.drop 4

theorem push_sizedBox : push { maxBoxBytes := 16 } sizedBox = .ok ({ maxBoxBytes := 16 }, []) := by
  decide +kernel

theorem buffer_bounded_iff_sized : ([] : Bytes).length < max 16 16 ↔
    ∀ rest, openEnded [sizedBox].flatten = some rest → rest.length < max 16 16 :=
  buffer_bounded_iff (.push .new push_sizedBox)

end Fmp4Demuxer
end CheetahMedia.Codec
