import CheetahMedia.Lib.Padded
import CheetahMedia.Lib.PathBuf
import CheetahMedia.Record.Lifecycle

namespace CheetahMedia.Record
open Lib Lib.Text Lib.PathBuf

def RecordFormat.extension : RecordFormat → Text
  | .flv => "flv".toList
  | .hls => "m3u8".toList
  | .mp4 => "mp4".toList
  | .ps => "ps".toList

def sanitizeSegment (input : String) : Text :=
  input.toList.map fun c => if c = '/' ∨ c = '\\' ∨ c = '.' then '_' else c

/-- The date of a number of days since 1970-01-01. -/
def civilFromDays (z : Int) : Int × Int × Int :=
  let z := z + 719468
  let era := (if z ≥ 0 then z else z - 146096).tdiv 146097
  let doe := z - era * 146097
  let yoe := (doe - doe.tdiv 1460 + doe.tdiv 36524 - doe.tdiv 146096).tdiv 365
  let y := yoe + era * 400
  let doy := doe - (365 * yoe + yoe.tdiv 4 - yoe.tdiv 100)
  let mp := (5 * doy + 2).tdiv 153
  let d := doy - (153 * mp + 2).tdiv 5 + 1
  let m := if mp < 10 then mp + 3 else mp - 9
  (if m ≤ 2 then y + 1 else y, m, d)

example : civilFromDays 20596 = (2026, 5, 23) := by decide +kernel

def formatYmd (ms : Int) : Text :=
  let secs := max (ms.tdiv 1000) 0
  let days := secs.tdiv 86400
  let (y, m, d) := civilFromDays days
  paddedInt 4 y ++ '-' :: (paddedInt 2 m ++ '-' :: paddedInt 2 d)

def outputName (task : RecordTaskMetadata) (timestampMs : Int) : Text :=
  sanitizeSegment task.taskId ++ '-' ::
    (paddedInt 0 timestampMs ++ '.' :: task.format.extension)

/-- What `build_output_path` pushes onto the root path, in order. -/
def outputSegments (task : RecordTaskMetadata) (timestampMs : Int) : List PathBuf :=
  (if task.vhost ≠ defaultVhost then [sanitizeSegment task.vhost] else []) ++
    [task.app.toList, task.stream.toList, formatYmd timestampMs, outputName task timestampMs]

def buildOutputPath (rootPath : PathBuf) (task : RecordTaskMetadata) (timestampMs : Int) :
    PathBuf :=
  (outputSegments task timestampMs).foldl push rootPath

/-- The path is below the root after each push, and so is the one that is returned. -/
def Contained (rootPath : PathBuf) (task : RecordTaskMetadata) (timestampMs : Int) : Prop :=
  StaysBelow (place rootPath) rootPath (outputSegments task timestampMs) ∧
    (place (buildOutputPath rootPath task timestampMs)).Below (place rootPath)

/-- The directory of a virtual host below the root. -/
def vhostNames (vhost : String) : List Text :=
  if vhost ≠ defaultVhost then [sanitizeSegment vhost] else []

theorem mem_sanitizeSegment (h : c ∈ sanitizeSegment input) : c ≠ '/' ∧ c ≠ '.' := by
  obtain ⟨b, -, rfl⟩ := List.mem_map.mp h
  split_ifs with hb
  · decide
  · exact ⟨fun h => hb (.inl h), fun h => hb (.inr (.inr h))⟩

theorem sanitizeSegment_normal (h : input ≠ "") : Normal (sanitizeSegment input) := by
  obtain ⟨c, rest, hinput⟩ := List.exists_cons_of_ne_nil
    (fun hnil => h (String.toList_eq_nil_iff.mp hnil) : input.toList ≠ [])
  have hmem : (if c = '/' ∨ c = '\\' ∨ c = '.' then '_' else c) ∈ sanitizeSegment input :=
    List.mem_map.mpr ⟨c, by simp [hinput], rfl⟩
  exact .of_mem (fun h => (mem_sanitizeSegment h).1 rfl) hmem (mem_sanitizeSegment hmem).2

theorem formatYmd_normal (ms : Int) : Normal (formatYmd ms) := by
  refine .of_mem (c := '-') ?_ (by simp [formatYmd]) (by decide)
  simp [formatYmd, not_mem_paddedInt (c := '/') rfl (by decide)]

theorem not_mem_extension (format : RecordFormat) :
    '/' ∉ format.extension ∧ '.' ∉ format.extension := by
  cases format <;> decide

theorem outputName_normal (task : RecordTaskMetadata) (ts : Int) : Normal (outputName task ts) := by
  refine .of_mem (c := '-') ?_ (by simp [outputName]) (by decide)
  simp only [outputName, List.mem_append, List.mem_cons, not_or]
  exact ⟨fun h => (mem_sanitizeSegment h).1 rfl, by decide,
    not_mem_paddedInt rfl (by decide) ts, by decide, (not_mem_extension _).1⟩

/-- The date and the name of the file never lead out. -/
theorem staysBelow_iff (hpath : place path = root.descend base) (app stream : PathBuf)
    (ts : Int) (task : RecordTaskMetadata) :
    StaysBelow root path [app, stream, formatYmd ts, outputName task ts] ↔
      root.Reaches base app ∧ root.Reaches base (push app stream) := by
  rw [← below_push_iff hpath app, ← below_push_iff hpath (push app stream), ← place_push_push]
  constructor
  · rintro ⟨happ, hstream, -⟩
    exact ⟨happ, hstream⟩
  · rintro ⟨happ, hstream⟩
    have hdate := hstream.push_normal (formatYmd_normal ts)
    exact ⟨happ, hstream, hdate, hdate.push_normal (outputName_normal task ts), trivial⟩

/-- The file names of two tasks differ in what stands before the first dot. -/
theorem sanitizeSegment_of_outputName {task other : RecordTaskMetadata}
    (h : outputName task ts = outputName other ts) :
    sanitizeSegment task.taskId = sanitizeSegment other.taskId := by
  have hdot (task : RecordTaskMetadata) :
      '.' ∉ sanitizeSegment task.taskId ++ '-' :: paddedInt 0 ts := by
    simp only [List.mem_append, List.mem_cons, not_or]
    exact ⟨fun h => (mem_sanitizeSegment h).2 rfl, by decide, not_mem_paddedInt rfl (by decide) ts⟩
  have hname (task : RecordTaskMetadata) : outputName task ts =
      (sanitizeSegment task.taskId ++ '-' :: paddedInt 0 ts) ++ '.' :: task.format.extension := by
    rw [outputName, List.append_assoc, List.cons_append]
  rw [hname, hname] at h
  have hfront := ((List.append_cons_inj_of_notMem (hdot task) (not_mem_extension _).2).mp h).1
  exact List.append_cancel_right hfront

theorem place_buildOutputPath (rootPath : PathBuf) (task : RecordTaskMetadata) (ts : Int) :
    ∃ names, (place (buildOutputPath rootPath task ts)).names = names ++ [outputName task ts] := by
  rw [buildOutputPath, outputSegments, List.foldl_append]
  simp only [List.foldl_cons, List.foldl_nil]
  rw [place_push_normal (outputName_normal task ts)]
  exact ⟨_, rfl⟩

theorem vhostNames_reach (rootPath : PathBuf) (task : RecordTaskMetadata) (ts : Int) :
    StaysBelow (place rootPath) rootPath (outputSegments task ts) ↔ task.vhost ≠ "" ∧
      (place rootPath).Reaches (vhostNames task.vhost) task.app.toList ∧
      (place rootPath).Reaches (vhostNames task.vhost)
        (push task.app.toList task.stream.toList) := by
  unfold outputSegments vhostNames
  by_cases hdefault : task.vhost = defaultVhost
  · have hne : task.vhost ≠ "" := by rw [hdefault]; decide
    simp only [if_neg (not_not.mpr hdefault), List.nil_append]
    rw [staysBelow_iff (Place.descend_nil _).symm]
    exact (and_iff_right hne).symm
  simp only [if_pos hdefault, List.singleton_append]
  rw [staysBelow_cons]
  by_cases hempty : task.vhost = ""
  · -- An empty name leaves the path at the root.
    refine iff_of_false (fun h => ?_) (fun h => h.1 hempty)
    obtain ⟨-, -, rest, hrest, heq⟩ := h.1
    have hsame : place (push rootPath (sanitizeSegment task.vhost)) = place rootPath := by
      rw [hempty, place_push]
      rfl
    rw [hsame] at heq
    exact hrest (List.self_eq_append_right.mp heq)
  · have hnormal := sanitizeSegment_normal hempty
    have hplace := place_push_normal hnormal rootPath
    rw [staysBelow_iff hplace, hplace]
    exact and_congr_left fun _ =>
      iff_of_true (Place.below_descend (List.cons_ne_nil _ _)) hempty

/-- A recording that is started stays below the root if and only if the virtual host is not empty,
and the application, and the stream below it, lead from there to places below the root; tasks whose
sanitized ids differ never have the same path at the same time. -/
theorem buildOutputPath_contained_iff {req : StartRecordRequest} (hreq : req.metadata = .ok task)
    (rootPath : PathBuf) (ts : Int) :
    (Contained rootPath task ts ↔ req.vhost ≠ "" ∧
      (place rootPath).Reaches (vhostNames req.vhost) req.app.toList ∧
      (place rootPath).Reaches (vhostNames req.vhost)
        (push req.app.toList req.stream.toList)) ∧
    ∀ other, sanitizeSegment task.taskId ≠ sanitizeSegment other.taskId →
      place (buildOutputPath rootPath task ts) ≠ place (buildOutputPath rootPath other ts) := by
  obtain ⟨hvhost, happ, hstream⟩ :
      task.vhost = req.vhost ∧ task.app = req.app ∧ task.stream = req.stream := by
    unfold StartRecordRequest.metadata at hreq
    split at hreq
    · cases hreq
    · split at hreq
      · cases hreq
      · cases hreq
        exact ⟨rfl, rfl, rfl⟩
  rw [← hvhost, ← happ, ← hstream, ← vhostNames_reach rootPath task ts]
  refine ⟨⟨fun h => h.1, fun h => ⟨h, ?_⟩⟩, fun other hdiffer heq => hdiffer ?_⟩
  · have hsegments : outputSegments task ts = (vhostNames task.vhost ++
        [task.app.toList, task.stream.toList, formatYmd ts]) ++ [outputName task ts] := by
      rw [List.append_assoc]
      rfl
    unfold buildOutputPath
    rw [hsegments] at h ⊢
    exact h.last
  · obtain ⟨names, hnames⟩ := place_buildOutputPath rootPath task ts
    obtain ⟨names', hnames'⟩ := place_buildOutputPath rootPath other ts
    rw [heq, hnames'] at hnames
    exact sanitizeSegment_of_outputName (List.append_inj_right' hnames rfl |> List.cons.inj).1.symm

/-- A stream name of several components that goes up and comes back. -/
theorem buildOutputPath_contained_iff_back : ∃ task,
    StartRecordRequest.metadata { format := "Mp4", app := "live", stream := "cam/../1" } = .ok task ∧
      (place "/srv/rec".toList).Reaches [] "live/cam/../1".toList := by
  have hreq : StartRecordRequest.metadata
      { format := "Mp4", app := "live", stream := "cam/../1" } =
        .ok ⟨"Mp4-__defaultVhost__-live-cam/../1", .mp4, defaultVhost, "live", "cam/../1",
          "live/cam/../1", .pending, 0, 0, 0⟩ := by
    decide +kernel
  have hcontained := (buildOutputPath_contained_iff hreq "/srv/rec".toList 1779500000000).1
  exact ⟨_, hreq, (hcontained.mp ⟨by decide +kernel, by decide +kernel⟩).2.2⟩

/-- An application `..` is accepted, and the recording leaves the root. -/
theorem buildOutputPath_escapes :
    ((Transition.run Lifecycle.step { registry := { capacity := 8 } }
      [.start { format := "mp4", app := "..", stream := "cam", taskId := some "t" }, .advance 0,
        .advance 0, .advance 0, .advance 0]).map fun r => r.2) =
      some [.wrote (.call 0) "t" .pending, .wrote (.call 0) "t" .running, .recordStarted "t",
        .returned 0 (.started "t")] ∧
    ∃ task, StartRecordRequest.metadata
        { format := "mp4", app := "..", stream := "cam", taskId := some "t" } = .ok task ∧
      place (buildOutputPath "/srv/rec".toList task 1779500000000) =
        ⟨true, 0, ["srv".toList, "cam".toList, "2026-05-23".toList,
          "t-1779500000000.mp4".toList]⟩ ∧
      ¬Contained "/srv/rec".toList task 1779500000000 := by
  refine ⟨by decide +kernel, ⟨"t", .mp4, defaultVhost, "..", "cam", "../cam", .pending, 0, 0, 0⟩,
    by decide +kernel, by decide +kernel, fun h => ?_⟩
  exact absurd h.2 (by decide +kernel)

end CheetahMedia.Record
