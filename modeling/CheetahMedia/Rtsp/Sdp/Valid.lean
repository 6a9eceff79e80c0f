import CheetahMedia.Rtsp.Sdp

namespace CheetahMedia.Rtsp
open Lib Lib.Text

variable {F : Type} {rates : FrameRates F}

theorem sdp_bind {x : Except SdpError α} {f : α → Except SdpError β} (h : x >>= f = .ok b) :
    ∃ a, x = .ok a ∧ f a = .ok b := by
  cases x with
  | error e => cases h
  | ok a => exact ⟨a, rfl, h⟩

theorem sdp_map {x : Except SdpError α} {f : α → β} (h : x.map f = .ok b) :
    ∃ a, x = .ok a ∧ f a = b := by
  cases x with
  | error e => cases h
  | ok a => exact ⟨a, rfl, Except.ok.inj h⟩

/-- A text that stands at the end of a line. -/
structure Ending (t : Text) : Prop where
  line : '\n' ∉ t
  tail : TailSolid t

/-- A text that stands in a line, in front of a separator. -/
structure Before (c : Char) (t : Text) : Prop where
  line : '\n' ∉ t
  separator : c ∉ t

def valueNames : List Text :=
  ["rtpmap", "fmtp", "control", "range", "framerate", "tool", "type", "charset", "sdplang",
    "lang"].map String.toList

def flagNames : List Text := ["recvonly", "sendrecv", "sendonly", "inactive"].map String.toList

def SdpOrigin.words (o : SdpOrigin) : List Text :=
  [o.username, o.sessionId, o.sessionVersion, o.netType, o.addrType, o.address]

def SdpConnection.words (c : SdpConnection) : List Text := [c.netType, c.addrType, c.address]

/-- An attribute that a line can stand for. -/
def SdpAttribute.Valid (rates : FrameRates F) : SdpAttribute F → Prop
  | .rtpmap _ encoding _ encodingParams =>
    Before '/' encoding ∧ ∀ params ∈ encodingParams, Before '/' params
  | .fmtp _ parameters => Ending parameters ∧ parameters ≠ []
  | .control value | .range value | .tool value | .type value | .charset value
  | .sdplang value | .lang value => Ending value
  | .framerate fps => ∃ t, rates.parse t = some fps
  | .recvonly | .sendrecv | .sendonly | .inactive => True
  | .custom name none => Before ':' name ∧ TailSolid name ∧ name ∉ flagNames
  | .custom name (some value) => Before ':' name ∧ Ending value ∧ name ∉ valueNames

structure SdpMedia.Valid (rates : FrameRates F) (m : SdpMedia F) : Prop where
  mediaType : Word m.mediaType
  protocol : Word m.protocol
  formats : m.formats ≠ [] ∧ ∀ w ∈ m.formats, Word w
  title : ∀ t ∈ m.title, Ending t
  connection : ∀ c ∈ m.connection, ∀ w ∈ c.words, Word w
  bandwidth : ∀ b ∈ m.bandwidth, Before ':' b.bwtype
  attributes : ∀ a ∈ m.attributes, a.Valid rates

/-- Nothing in the description cuts a line, or the parts of a line, in another place. -/
structure Sdp.Valid (rates : FrameRates F) (s : Sdp F) : Prop where
  origin : ∀ w ∈ s.origin.words, Word w
  sessionName : Ending s.sessionName
  sessionInfo : ∀ t ∈ s.sessionInfo, Ending t
  uri : ∀ t ∈ s.uri, Ending t
  email : ∀ t ∈ s.email, Ending t
  phone : ∀ t ∈ s.phone, Ending t
  connection : ∀ c ∈ s.connection, ∀ w ∈ c.words, Word w
  bandwidth : ∀ b ∈ s.bandwidth, Before ':' b.bwtype
  attributes : ∀ a ∈ s.attributes, a.Valid rates
  media : ∀ m ∈ s.media, m.Valid rates

section Words

theorem decimal_word (n : Nat) : Word (decimal n) :=
  ⟨decimal_ne_nil, fun _ hc => not_isWhitespace_of_isDigit (isDigit_of_mem_decimal hc)⟩

theorem not_newline_of_word (h : Word w) : '\n' ∉ w := fun hmem => by
  have hspace : isWhitespace '\n' = true := by decide
  rw [h.solid _ hmem] at hspace
  cases hspace

theorem not_newline_unwords (h : ∀ w ∈ ws, Word w) : '\n' ∉ unwords ws := by
  induction ws with
  | nil => exact List.not_mem_nil
  | cons w ws ih =>
    obtain ⟨hw, hws⟩ := List.forall_mem_cons.mp h
    by_cases hlast : ws = []
    · rw [hlast, unwords_singleton]
      exact not_newline_of_word hw
    · rw [unwords_cons w hlast, List.mem_append, List.mem_cons]
      rintro (hmem | hmem | hmem)
      · exact not_newline_of_word hw hmem
      · cases hmem
      · exact ih hws hmem

theorem ending_unwords (h : ∀ w ∈ ws, Word w) : Ending (unwords ws) :=
  ⟨not_newline_unwords h, tailSolid_unwords h⟩

theorem Word.ending (h : Word w) : Ending w := ⟨not_newline_of_word h, tailSolid_of_solid h.solid⟩

theorem Ending.append (ha : Ending a) (hb : Ending b) : Ending (a ++ b) where
  line := by
    rw [List.mem_append, not_or]
    exact ⟨ha.line, hb.line⟩
  tail := ha.tail.append hb.tail

/-- Only what is in front of it has to be in the line. -/
theorem Ending.behind (ha : '\n' ∉ a) (hb : Ending b) (hne : b ≠ []) : Ending (a ++ b) where
  line := by
    rw [List.mem_append, not_or]
    exact ⟨ha, hb.line⟩
  tail := .behind a hb.tail hne

theorem Ending.of_append (h : Ending (a ++ b)) : Ending b where
  line hmem := h.line (List.mem_append_right a hmem)
  tail := tailSolid_of_append h.tail

end Words

namespace Sdp

section FieldParsers

/-- Whatever is read as an attribute can be written. -/
theorem parseRtpmapAttribute_valid {a : SdpAttribute F} (hv : Ending value)
    (h : parseRtpmapAttribute fullValue value = .ok a) : a.Valid rates := by
  unfold parseRtpmapAttribute at h
  split at h
  · rename_i payloadType encodingPart hsplit
    obtain ⟨_, -, h⟩ := sdp_bind h
    obtain ⟨rfl, -⟩ := of_splitOnce hsplit
    have hline : '\n' ∉ encodingPart := fun hmem => hv.line (by simp [hmem])
    split at h
    · rename_i encoding clockRate params hparts
      obtain ⟨_, -, h⟩ := sdp_bind h
      cases h
      have hbefore (part : Text) (hpart : part ∈ encodingPart.splitOn '/') : Before '/' part :=
        ⟨fun hmem => hline (mem_of_mem_splitOn hpart hmem), not_mem_of_mem_splitOn hpart⟩
      rw [hparts] at hbefore
      exact ⟨hbefore _ List.mem_cons_self, fun p hp => hbefore p (List.mem_cons_of_mem _
        (List.mem_cons_of_mem _ (List.mem_of_mem_head? hp)))⟩
    · cases h
  · cases h

theorem parseFmtpAttribute_valid {a : SdpAttribute F} (hv : Ending value)
    (h : parseFmtpAttribute fullValue value = .ok a) : a.Valid rates := by
  unfold parseFmtpAttribute at h
  split at h
  · rename_i payloadType parameters hsplit
    obtain ⟨_, -, h⟩ := sdp_bind h
    cases h
    obtain ⟨rfl, -⟩ := of_splitOnce hsplit
    refine ⟨(Ending.of_append (a := payloadType ++ [' ']) (by simpa using hv)), ?_⟩
    rintro rfl
    have hlast := tailSolid_of_append hv.tail
    exact absurd (hlast ' ' rfl) (by decide)
  · cases h

theorem parseValueAttribute_valid {a : SdpAttribute F} (hname : Before ':' name)
    (hv : Ending value) (h : parseValueAttribute rates fullValue name value = .ok a) :
    a.Valid rates := by
  unfold parseValueAttribute at h
  split at h
  · exact parseRtpmapAttribute_valid hv h
  split at h
  · exact parseFmtpAttribute_valid hv h
  split at h
  · cases h
    exact hv
  split at h
  · cases h
    exact hv
  split at h
  · obtain ⟨fps, hfps, rfl⟩ := sdp_map h
    unfold parseF64 at hfps
    split at hfps
    · rename_i hparse
      cases hfps
      exact ⟨value, hparse⟩
    · cases hfps
  iterate 5
    split at h
    · cases h
      exact hv
  cases h
  refine ⟨hname, hv, ?_⟩
  simp_all [valueNames]

theorem parseFlagAttribute_valid (hv : Ending value) (hcolon : ':' ∉ value) :
    (parseFlagAttribute value : SdpAttribute F).Valid rates := by
  unfold parseFlagAttribute
  iterate 4
    split
    · trivial
  refine ⟨⟨hv.line, hcolon⟩, hv.tail, ?_⟩
  simp_all [flagNames]

theorem parseAttribute_valid {a : SdpAttribute F} (hv : Ending value)
    (h : parseAttribute rates value = .ok a) : a.Valid rates := by
  unfold parseAttribute at h
  split at h
  · rename_i name attrValue hsplit
    obtain ⟨rfl, hcolon⟩ := of_splitOnce hsplit
    refine parseValueAttribute_valid ⟨fun hmem => hv.line (by simp [hmem]), hcolon⟩ ?_ h
    exact Ending.of_append (a := name ++ [':']) (by simpa using hv)
  · rename_i hsplit
    cases h
    exact parseFlagAttribute_valid hv (splitOnce_eq_none_iff.mp hsplit)

theorem parseBandwidth_valid (hv : Ending value) (h : parseBandwidth value = .ok b) :
    Before ':' b.bwtype := by
  unfold parseBandwidth at h
  split at h
  · rename_i bwtype bandwidth hsplit
    obtain ⟨_, -, h⟩ := sdp_bind h
    cases h
    obtain ⟨rfl, hcolon⟩ := of_splitOnce hsplit
    exact ⟨fun hmem => hv.line (by simp [hmem]), hcolon⟩
  · cases h

theorem parseOrigin_valid (h : parseOrigin value = .ok o) : ∀ w ∈ o.words, Word w := by
  unfold parseOrigin at h
  split at h
  · rename_i hsplit
    cases h
    intro w hw
    rw [SdpOrigin.words, ← hsplit] at hw
    exact word_of_mem_splitWhitespace hw
  · cases h

theorem parseConnection_valid (h : parseConnection value = .ok c) : ∀ w ∈ c.words, Word w := by
  unfold parseConnection at h
  split at h
  · rename_i hsplit
    cases h
    intro w hw
    rw [SdpConnection.words, ← hsplit] at hw
    exact word_of_mem_splitWhitespace hw
  · cases h

theorem parseMedia_valid {m : SdpMedia F} (h : parseMedia value = .ok m) : m.Valid rates := by
  unfold parseMedia at h
  split at h
  · rename_i mediaType ports protocol format formats hsplit
    obtain ⟨_, -, h⟩ := sdp_bind h
    cases h
    have hwords (w : Text) (hw : w ∈ mediaType :: ports :: protocol :: format :: formats) :
        Word w := word_of_mem_splitWhitespace (hsplit ▸ hw)
    exact {
      mediaType := hwords _ (by simp)
      protocol := hwords _ (by simp)
      formats := ⟨by simp, fun w hw => hwords w (by simp_all)⟩
      title := by simp
      connection := by simp
      bandwidth := by simp
      attributes := by simp }
  · cases h

end FieldParsers

namespace Reading

/-- Whatever is read can be written. -/
structure Valid (rates : FrameRates F) (r : Reading F) : Prop where
  origin : ∀ o ∈ r.origin, ∀ w ∈ o.words, Word w
  sessionName : ∀ t ∈ r.sessionName, Ending t
  sessionInfo : ∀ t ∈ r.sessionInfo, Ending t
  uri : ∀ t ∈ r.uri, Ending t
  email : ∀ t ∈ r.email, Ending t
  phone : ∀ t ∈ r.phone, Ending t
  connection : ∀ c ∈ r.connection, ∀ w ∈ c.words, Word w
  bandwidth : ∀ b ∈ r.bandwidth, Before ':' b.bwtype
  attributes : ∀ a ∈ r.attributes, a.Valid rates
  media : ∀ m ∈ r.media, m.Valid rates
  currentMedia : ∀ m ∈ r.currentMedia, m.Valid rates

theorem valid_nil : Valid rates {} := by
  constructor <;> simp

theorem setInfo_valid {r : Reading F} (hr : r.Valid rates) (hv : Ending info) :
    (r.setInfo info).Valid rates := by
  unfold setInfo
  split
  · rename_i media hmedia
    have hm : SdpMedia.Valid rates { media with title := some info } :=
      { hr.currentMedia media hmedia with title := by simpa using hv }
    exact { hr with currentMedia := by simpa using hm }
  · exact { hr with sessionInfo := by simpa using hv }

theorem setConnection_valid {r : Reading F} (hr : r.Valid rates) (hc : ∀ w ∈ c.words, Word w) :
    (r.setConnection c).Valid rates := by
  unfold setConnection
  split
  · rename_i media hmedia
    have hm : SdpMedia.Valid rates { media with connection := some c } :=
      { hr.currentMedia media hmedia with connection := by simpa using hc }
    exact { hr with currentMedia := by simpa using hm }
  · exact { hr with connection := by simpa using hc }

theorem addBandwidth_valid {r : Reading F} (hr : r.Valid rates) (hb : Before ':' b.bwtype) :
    (r.addBandwidth b).Valid rates := by
  unfold addBandwidth
  split
  · rename_i media hmedia
    have hm := hr.currentMedia media hmedia
    have hm' : SdpMedia.Valid rates { media with bandwidth := media.bandwidth ++ [b] } :=
      { hm with bandwidth := List.forall_mem_append.mpr ⟨hm.bandwidth, by simpa using hb⟩ }
    exact { hr with currentMedia := by simpa using hm' }
  · exact { hr with bandwidth := List.forall_mem_append.mpr ⟨hr.bandwidth, by simpa using hb⟩ }

theorem addAttribute_valid {r : Reading F} (hr : r.Valid rates) (ha : a.Valid rates) :
    (r.addAttribute a).Valid rates := by
  unfold addAttribute
  split
  · rename_i media hmedia
    have hm := hr.currentMedia media hmedia
    have hm' : SdpMedia.Valid rates { media with attributes := media.attributes ++ [a] } :=
      { hm with attributes := List.forall_mem_append.mpr ⟨hm.attributes, by simpa using ha⟩ }
    exact { hr with currentMedia := by simpa using hm' }
  · exact { hr with attributes := List.forall_mem_append.mpr ⟨hr.attributes, by simpa using ha⟩ }

theorem closeMedia_valid {r : Reading F} (hr : r.Valid rates) : r.closeMedia.Valid rates :=
  { hr with
    media := List.forall_mem_append.mpr ⟨hr.media, by simpa using hr.currentMedia⟩
    currentMedia := by simp [closeMedia] }

theorem beginMedia_valid {r : Reading F} (hr : r.Valid rates) (hm : m.Valid rates) :
    (r.beginMedia m).Valid rates :=
  { closeMedia_valid hr with currentMedia := by simpa [beginMedia] using hm }

theorem field_valid {r r' : Reading F} (hr : r.Valid rates) (hv : Ending value)
    (h : r.field rates value c = .ok r') : r'.Valid rates := by
  unfold field at h
  split at h
  · obtain ⟨_, -, rfl⟩ := sdp_map h
    exact { hr with }
  · obtain ⟨o, ho, rfl⟩ := sdp_map h
    exact { hr with origin := by simpa using parseOrigin_valid ho }
  · cases h
    exact { hr with sessionName := by simpa using hv }
  · cases h
    exact setInfo_valid hr hv
  · cases h
    exact { hr with uri := by simpa using hv }
  · cases h
    exact { hr with email := by simpa using hv }
  · cases h
    exact { hr with phone := by simpa using hv }
  · obtain ⟨_, hc, rfl⟩ := sdp_map h
    exact setConnection_valid hr (parseConnection_valid hc)
  · obtain ⟨_, hb, rfl⟩ := sdp_map h
    exact addBandwidth_valid hr (parseBandwidth_valid hv hb)
  · obtain ⟨_, -, rfl⟩ := sdp_map h
    exact { hr with }
  · obtain ⟨_, ha, rfl⟩ := sdp_map h
    exact addAttribute_valid hr (parseAttribute_valid hv ha)
  · obtain ⟨_, hm, rfl⟩ := sdp_map h
    exact beginMedia_valid hr (parseMedia_valid hm)
  · cases h
    exact hr

theorem line_valid {r r' : Reading F} (hr : r.Valid rates) (hline : '\n' ∉ rawLine)
    (h : r.line rates rawLine = .ok r') : r'.Valid rates := by
  unfold line at h
  split at h
  · rename_i fieldType value htrim
    have hv : Ending (fieldType :: '=' :: value) := by
      rw [← htrim]
      exact ⟨fun hmem => hline (mem_of_mem_trim hmem), (trim_solid rawLine).last⟩
    split at h
    · exact field_valid hr (hv.of_append (a := [fieldType, '='])) h
    · cases h
      exact hr
  · cases h
    exact hr

/-- What holds of the lines that are read holds of all that is read. -/
theorem lines_valid {ls : List Text} {r r' : Reading F} (hr : r.Valid rates)
    (hlines : ∀ l ∈ ls, '\n' ∉ l)
    (h : ls.foldlM (line rates) r = .ok r') : r'.Valid rates := by
  induction ls generalizing r with
  | nil =>
    cases h
    exact hr
  | cons l ls ih =>
    obtain ⟨hl, hls⟩ := List.forall_mem_cons.mp hlines
    rw [List.foldlM_cons] at h
    obtain ⟨next, hnext, h⟩ := sdp_bind h
    exact ih (line_valid hr hl hnext) hls h

theorem finish_valid {r : Reading F} (hr : r.Valid rates) (h : r.finish = .ok s) :
    s.Valid rates := by
  have hc := closeMedia_valid hr
  unfold finish at h
  dsimp only at h
  split at h
  · cases h
  · cases h
  · cases h
  · rename_i origin sessionName timing horigin hname htiming
    cases h
    exact { hc with
      origin := hc.origin origin horigin
      sessionName := hc.sessionName sessionName hname }

end Reading

/-- A description that was read can be written. -/
theorem parse_valid (h : parse rates t = .ok s) : s.Valid rates := by
  obtain ⟨r, hr, h⟩ := sdp_bind h
  exact Reading.finish_valid
    (Reading.lines_valid Reading.valid_nil (fun _ hl => not_newline_of_mem_lines hl) hr) h

end Sdp
end CheetahMedia.Rtsp
