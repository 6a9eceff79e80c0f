import CheetahMedia.Rtsp.Sdp.Valid

namespace CheetahMedia.Rtsp
open Lib Lib.Text

variable {F : Type} {rates : FrameRates F}

/-- What is left of an attribute when the end of its line is trimmed. -/
def SdpAttribute.tidy : SdpAttribute F → SdpAttribute F
  | .rtpmap payloadType encoding clockRate encodingParams =>
    .rtpmap payloadType encoding clockRate (encodingParams.map trimEnd)
  | a => a

def SdpMedia.tidy (m : SdpMedia F) : SdpMedia F :=
  { m with attributes := m.attributes.map SdpAttribute.tidy }

def Sdp.tidy (s : Sdp F) : Sdp F :=
  { s with
    attributes := s.attributes.map SdpAttribute.tidy
    media := s.media.map SdpMedia.tidy }

namespace Sdp

theorem parseNumber_decimal (h : n < 2 ^ width) :
    parseNumber width name (decimal n) = .ok n := by
  rw [parseNumber, parseUnsigned_decimal h]

theorem parseU8_decimal (n : UInt8) : parseU8 name (decimal n.toNat) = .ok n := by
  rw [parseU8, parseNumber_decimal n.toNat_lt]
  exact congrArg Except.ok UInt8.ofNat_toNat

theorem parseU16_decimal (n : UInt16) : parseU16 name (decimal n.toNat) = .ok n := by
  rw [parseU16, parseNumber_decimal n.toNat_lt]
  exact congrArg Except.ok UInt16.ofNat_toNat

theorem parseU32_decimal (n : UInt32) : parseU32 name (decimal n.toNat) = .ok n := by
  rw [parseU32, parseNumber_decimal n.toNat_lt]
  exact congrArg Except.ok UInt32.ofNat_toNat

theorem parseU64_decimal (n : UInt64) : parseU64 name (decimal n.toNat) = .ok n := by
  rw [parseU64, parseNumber_decimal n.toNat_lt]
  exact congrArg Except.ok UInt64.ofNat_toNat

theorem parseOrigin_fmt {o : SdpOrigin} (h : ∀ w ∈ o.words, Word w) :
    parseOrigin o.fmt = .ok o := by
  have hsplit := splitWhitespace_unwords h
  rw [SdpOrigin.words] at hsplit
  rw [parseOrigin, SdpOrigin.fmt, hsplit]

theorem parseConnection_fmt {c : SdpConnection} (h : ∀ w ∈ c.words, Word w) :
    parseConnection c.fmt = .ok c := by
  have hsplit := splitWhitespace_unwords h
  rw [SdpConnection.words] at hsplit
  rw [parseConnection, SdpConnection.fmt, hsplit]

theorem parseBandwidth_fmt {b : SdpBandwidth} (h : Before ':' b.bwtype) :
    parseBandwidth b.fmt = .ok b := by
  rw [parseBandwidth, SdpBandwidth.fmt, splitOnce_append h.separator]
  dsimp only
  rw [parseU64_decimal]
  rfl

theorem timing_words (t : SdpTiming) :
    ∀ w ∈ [decimal t.start.toNat, decimal t.stop.toNat], Word w := by
  simp [decimal_word]

theorem parseTiming_fmt (t : SdpTiming) : parseTiming t.fmt = .ok t := by
  rw [parseTiming, SdpTiming.fmt, splitWhitespace_unwords (timing_words t)]
  dsimp only
  rw [parseU64_decimal, parseU64_decimal]
  rfl

theorem parsePorts_fmt (port : UInt16) (numPorts : Option UInt16) :
    parsePorts (fmtPorts port numPorts) = .ok (port, numPorts) := by
  have hslash (n : Nat) : '/' ∉ decimal n := not_mem_decimal (by decide)
  unfold fmtPorts parsePorts
  cases numPorts with
  | none =>
    have hnone : splitOnce '/' (decimal port.toNat ++ []) = none := by
      rw [List.append_nil, splitOnce_eq_none_iff]
      exact hslash _
    dsimp only [Option.elim]
    rw [hnone, List.append_nil]
    dsimp only
    rw [parseU16_decimal]
    rfl
  | some n =>
    dsimp only [Option.elim]
    rw [splitOnce_append (hslash _)]
    dsimp only
    rw [parseU16_decimal, parseU16_decimal]
    rfl

theorem fmtPorts_word (port : UInt16) (numPorts : Option UInt16) :
    Word (fmtPorts port numPorts) where
  ne_nil := List.append_ne_nil_of_left_ne_nil decimal_ne_nil _
  solid c hc := by
    unfold fmtPorts at hc
    rcases List.mem_append.mp hc with hc | hc
    · exact (decimal_word _).solid c hc
    · cases numPorts with
      | none => cases hc
      | some n =>
        rcases List.mem_cons.mp hc with rfl | hc
        · decide
        · exact (decimal_word _).solid c hc

theorem media_words {m : SdpMedia F} (h : m.Valid rates) :
    ∀ w ∈ [m.mediaType, fmtPorts m.port m.numPorts, m.protocol] ++ m.formats, Word w := by
  intro w hw
  simp only [List.cons_append, List.nil_append, List.mem_cons] at hw
  rcases hw with rfl | rfl | rfl | hw
  · exact h.mediaType
  · exact fmtPorts_word ..
  · exact h.protocol
  · exact h.formats.2 w hw

/-- The line of a media section is read as a section with nothing in it yet. -/
theorem parseMedia_fmt {m : SdpMedia F} (h : m.Valid rates) :
    parseMedia m.fmt = .ok
      ({ m with title := none, connection := none, bandwidth := [], attributes := [] } :
        SdpMedia F) := by
  obtain ⟨format, formats, hformats⟩ := List.exists_cons_of_ne_nil h.formats.1
  have hsplit := splitWhitespace_unwords (media_words h)
  rw [parseMedia, SdpMedia.fmt, hsplit, hformats]
  dsimp only [List.cons_append, List.nil_append]
  rw [parsePorts_fmt]
  rfl

section Attributes

theorem parseAttribute_fmtValue (h : ':' ∉ name.toList) :
    parseAttribute rates (fmtValue name value) =
      parseValueAttribute rates (fmtValue name value) name.toList value := by
  rw [parseAttribute, fmtValue, splitOnce_append h]

theorem parseAttribute_flag (h : ':' ∉ value) :
    parseAttribute rates value = .ok (parseFlagAttribute value) := by
  rw [parseAttribute, splitOnce_eq_none_iff.mpr h]

theorem parseRtpmapAttribute_fmt {encoding : Text} {encodingParams : Option Text}
    (h : Before '/' encoding) (hparams : ∀ params ∈ encodingParams, Before '/' params) :
    parseRtpmapAttribute (F := F) fullValue (decimal payloadType.toNat ++ ' ' :: (encoding ++
        '/' :: (decimal clockRate.toNat ++ encodingParams.elim [] ('/' :: ·)))) =
      .ok (.rtpmap payloadType encoding clockRate encodingParams) := by
  have hslash (n : Nat) : '/' ∉ decimal n := not_mem_decimal (by decide)
  rw [parseRtpmapAttribute, splitOnce_append (not_mem_decimal (by decide))]
  dsimp only
  rw [parseU8_decimal, splitOn_append_cons h.separator]
  cases encodingParams with
  | none =>
    dsimp only [Option.elim]
    rw [List.append_nil, splitOn_of_not_mem (hslash _)]
    dsimp only [bind, Except.bind]
    rw [parseU32_decimal]
    rfl
  | some params =>
    dsimp only [Option.elim]
    rw [splitOn_append_cons (hslash _), splitOn_of_not_mem (hparams params rfl).separator]
    dsimp only [bind, Except.bind]
    rw [parseU32_decimal]
    rfl

theorem parseFmtpAttribute_fmt :
    parseFmtpAttribute (F := F) fullValue (decimal payloadType.toNat ++ ' ' :: parameters) =
      .ok (.fmtp payloadType parameters) := by
  rw [parseFmtpAttribute, splitOnce_append (not_mem_decimal (by decide))]
  dsimp only
  rw [parseU8_decimal]
  rfl

theorem parseFlagAttribute_custom (h : name ∉ flagNames) :
    parseFlagAttribute (F := F) name = .custom name none := by
  simp only [flagNames, List.map_cons, List.map_nil, List.mem_cons, List.not_mem_nil, or_false,
    not_or] at h
  obtain ⟨h1, h2, h3, h4⟩ := h
  rw [parseFlagAttribute, if_neg h1, if_neg h2, if_neg h3, if_neg h4]

theorem parseValueAttribute_custom (h : name ∉ valueNames) :
    parseValueAttribute rates fullValue name value = .ok (.custom name (some value)) := by
  simp only [valueNames, List.map_cons, List.map_nil, List.mem_cons, List.not_mem_nil, or_false,
    not_or] at h
  obtain ⟨h1, h2, h3, h4, h5, h6, h7, h8, h9, h10⟩ := h
  rw [parseValueAttribute, if_neg h1, if_neg h2, if_neg h3, if_neg h4, if_neg h5, if_neg h6,
    if_neg h7, if_neg h8, if_neg h9, if_neg h10]

/-- What is written for an attribute is read as the attribute. -/
theorem parseAttribute_fmt {a : SdpAttribute F} (h : a.Valid rates) :
    parseAttribute rates (fmtAttribute rates a) = .ok a := by
  unfold fmtAttribute
  cases a with
  | rtpmap payloadType encoding clockRate encodingParams =>
    dsimp only
    rw [parseAttribute_fmtValue (by decide)]
    exact parseRtpmapAttribute_fmt h.1 h.2
  | fmtp payloadType parameters =>
    dsimp only
    rw [parseAttribute_fmtValue (by decide)]
    exact parseFmtpAttribute_fmt
  | control _ | range _ | tool _ | type _ | charset _ | sdplang _ | lang _ =>
    dsimp only
    rw [parseAttribute_fmtValue (by decide)]
    rfl
  | framerate fps =>
    obtain ⟨t, ht⟩ := h
    have hparse : parseF64 rates "attribute.framerate" (rates.print fps) = .ok fps := by
      rw [parseF64, rates.parse_print t fps ht]
    dsimp only
    rw [parseAttribute_fmtValue (by decide)]
    show (parseF64 rates "attribute.framerate" (rates.print fps)).map SdpAttribute.framerate = _
    rw [hparse]
    rfl
  | recvonly =>
    dsimp only
    rw [parseAttribute_flag (by decide), parseFlagAttribute, if_pos rfl]
  | sendrecv =>
    dsimp only
    rw [parseAttribute_flag (by decide), parseFlagAttribute, if_neg (by decide),
      if_pos rfl]
  | sendonly =>
    dsimp only
    rw [parseAttribute_flag (by decide), parseFlagAttribute, if_neg (by decide),
      if_neg (by decide), if_pos rfl]
  | inactive =>
    dsimp only
    rw [parseAttribute_flag (by decide), parseFlagAttribute, if_neg (by decide),
      if_neg (by decide), if_neg (by decide), if_pos rfl]
  | custom name value =>
    cases value with
    | none =>
      show parseAttribute rates name = _
      rw [parseAttribute_flag h.1.separator, parseFlagAttribute_custom h.2.2]
    | some value =>
      show parseAttribute rates (name ++ ':' :: value) = _
      rw [parseAttribute, splitOnce_append h.1.separator]
      exact parseValueAttribute_custom h.2.2

end Attributes

section Attributes

theorem tidy_valid {a : SdpAttribute F} (h : a.Valid rates) : a.tidy.Valid rates := by
  cases a with
  | rtpmap payloadType encoding clockRate encodingParams =>
    refine ⟨h.1, fun params hparams => ?_⟩
    obtain ⟨p, hp, rfl⟩ := Option.map_eq_some_iff.mp hparams
    have hbefore := h.2 p hp
    exact ⟨fun hmem => hbefore.line (mem_of_mem_trimEnd hmem),
      fun hmem => hbefore.separator (mem_of_mem_trimEnd hmem)⟩
  | _ => exact h

theorem ending_decimal (n : Nat) : Ending (decimal n) := Word.ending (decimal_word n)

theorem ending_named (hname : '\n' ∉ name) (hv : Ending value) :
    Ending (name ++ ':' :: value) := by
  have hcolon : Ending [':'] := ⟨by decide, by decide⟩
  rw [List.append_cons]
  by_cases hne : value = []
  · rw [hne, List.append_nil]
    exact .behind hname hcolon (by simp)
  · refine .behind ?_ hv hne
    rw [List.mem_append, not_or]
    exact ⟨hname, hcolon.line⟩

theorem ending_flag : ∀ name ∈ flagNames, Ending name := by
  have hline : flagNames.all (fun name => !name.contains '\n') = true := by decide
  have htail : flagNames.all (fun name => decide (TailSolid name)) = true := by decide
  rw [List.all_eq_true] at hline htail
  exact fun name hname =>
    ⟨by simpa using hline name hname, of_decide_eq_true (htail name hname)⟩

/-- What is written of an attribute in front of its encoding parameters. -/
def rtpmapFront (payloadType : UInt8) (encoding : Text) (clockRate : UInt32) : Text :=
  fmtValue "rtpmap" (decimal payloadType.toNat ++ ' ' :: (encoding ++
    '/' :: decimal clockRate.toNat))

theorem ending_rtpmapFront (h : '\n' ∉ encoding) :
    Ending (rtpmapFront payloadType encoding clockRate) := by
  refine ending_named (by decide) ?_
  have hfront : '\n' ∉ decimal payloadType.toNat ++ ' ' :: (encoding ++ ['/']) := by
    simp [h, (ending_decimal payloadType.toNat).line]
  have := Ending.behind hfront (ending_decimal clockRate.toNat) decimal_ne_nil
  simpa using this

theorem fmtAttribute_rtpmap : fmtAttribute rates (.rtpmap payloadType encoding clockRate params) =
    rtpmapFront payloadType encoding clockRate ++ params.elim [] ('/' :: ·) := by
  unfold fmtAttribute
  simp [rtpmapFront, fmtValue]

/-- What an attribute's line says when it is trimmed. -/
theorem fmtAttribute_trimmed {a : SdpAttribute F} (h : a.Valid rates) :
    '\n' ∉ fmtAttribute rates a ∧
      trimEnd (fmtAttribute rates a) = fmtAttribute rates a.tidy := by
  have hending {t : Text} (ht : Ending t) : '\n' ∉ t ∧ trimEnd t = t :=
    ⟨ht.line, trimEnd_eq_self_iff.mpr ht.tail⟩
  cases a with
  | rtpmap payloadType encoding clockRate encodingParams =>
    have hfront : Ending (rtpmapFront payloadType encoding clockRate) :=
      ending_rtpmapFront h.1.line
    rw [SdpAttribute.tidy, fmtAttribute_rtpmap, fmtAttribute_rtpmap]
    cases encodingParams with
    | none => simpa using hending hfront
    | some params =>
      have hslash : TailSolid (rtpmapFront payloadType encoding clockRate ++ ['/']) :=
        .behind _ (by decide) (by simp)
      refine ⟨?_, ?_⟩
      · simp [hfront.line, (h.2 params rfl).line]
      · show trimEnd (_ ++ '/' :: params) = _ ++ '/' :: trimEnd params
        rw [List.append_cons, trimEnd_append hslash, ← List.append_cons]
  | fmtp payloadType parameters =>
    refine hending (ending_named (by decide) ?_)
    rw [List.append_cons]
    refine .behind ?_ h.1 h.2
    simp [(ending_decimal payloadType.toNat).line]
  | control _ | range _ | tool _ | type _ | charset _ | sdplang _ | lang _ =>
    exact hending (ending_named (by decide) h)
  | framerate fps => exact hending (ending_named (by decide) (Word.ending (rates.word fps)))
  | recvonly => exact hending (ending_flag "recvonly".toList (by decide))
  | sendrecv => exact hending (ending_flag "sendrecv".toList (by decide))
  | sendonly => exact hending (ending_flag "sendonly".toList (by decide))
  | inactive => exact hending (ending_flag "inactive".toList (by decide))
  | custom name value =>
    cases value with
    | none => exact hending ⟨h.1.line, h.2.1⟩
    | some value => exact hending (ending_named h.1.line h.2.1)

end Attributes

namespace Reading

theorem not_isWhitespace_of_isAlpha (h : c.isAlpha = true) : isWhitespace c = false := by
  have hrange : 65 ≤ c.toNat ∧ c.toNat ≤ 90 ∨ 97 ≤ c.toNat ∧ c.toNat ≤ 122 := by
    delta Char.isAlpha Char.isUpper Char.isLower at h
    simpa [UInt32.le_iff_toNat_le] using h
  simp only [isWhitespace]
  simp
  omega

theorem line_fmtField (r : Reading F) (hc : c.isAlpha = true) (v : Text) :
    r.line rates (fmtField c v) = r.field rates (trimEnd v) c := by
  have hsolid : Solid [c, '='] := by
    constructor
    · exact headSolid_cons.mpr (not_isWhitespace_of_isAlpha hc)
    · exact headSolid_cons.mpr (by decide)
  have htrim : trim (fmtField c v) = c :: '=' :: trimEnd v := trim_append (by simp) hsolid v
  rw [line, htrim]
  exact if_pos hc

theorem line_of_tailSolid (r : Reading F) (hc : c.isAlpha = true) (hv : TailSolid v) :
    r.line rates (fmtField c v) = r.field rates v c := by
  rw [line_fmtField r hc, trimEnd_eq_self_iff.mpr hv]

/-- Reading the lines does this to what was read before them. -/
def Effect (rates : FrameRates F) (ls : List Text) (f : Reading F → Reading F) : Prop :=
  ∀ r, ls.foldlM (line rates) r = .ok (f r)

theorem Effect.append (hf : Effect rates ls f) (hg : Effect rates ms g) :
    Effect rates (ls ++ ms) (g ∘ f) := by
  intro r
  rw [List.foldlM_append, hf r]
  exact hg (f r)

theorem effect_line (h : ∀ r, line rates r l = .ok (f r)) : Effect rates [l] f := by
  intro r
  rw [List.foldlM_cons, h r]
  rfl

theorem effect_map {xs : List α} (h : ∀ x ∈ xs, ∀ r, line rates r (g x) = .ok (f r x)) :
    Effect rates (xs.map g) (xs.foldl f ·) := by
  intro r
  induction xs generalizing r with
  | nil => rfl
  | cons x xs ih =>
    obtain ⟨hx, hxs⟩ := List.forall_mem_cons.mp h
    rw [List.map_cons, List.foldlM_cons, hx r]
    exact ih hxs (f r x)

theorem effect_option {x : Option α} {f : Reading F → α → Reading F}
    (h : ∀ y ∈ x, ∀ r, line rates r (g y) = .ok (f r y)) :
    Effect rates (x.toList.map g) (fun r => x.elim r (f r)) := by
  cases x with
  | none => exact fun _ => rfl
  | some y => exact effect_line (h y rfl)

theorem effect_info {title : Option Text} (h : ∀ t ∈ title, Ending t) :
    Effect rates (title.toList.map (fmtField 'i')) (fun r => title.elim r r.setInfo) :=
  effect_option fun t ht r => line_of_tailSolid (c := 'i') r (by decide) (h t ht).tail

theorem effect_connection {connection : Option SdpConnection}
    (h : ∀ c ∈ connection, ∀ w ∈ c.words, Word w) :
    Effect rates (connection.toList.map (fmtField 'c' ·.fmt))
      (fun r => connection.elim r r.setConnection) :=
  effect_option fun c hc r => by
    have htail : TailSolid c.fmt := tailSolid_unwords (h c hc)
    rw [line_of_tailSolid r (by decide) htail]
    show (parseConnection c.fmt).map r.setConnection = _
    rw [parseConnection_fmt (h c hc)]
    rfl

theorem effect_bandwidth {bandwidth : List SdpBandwidth}
    (h : ∀ b ∈ bandwidth, Before ':' b.bwtype) :
    Effect rates (bandwidth.map (fmtField 'b' ·.fmt)) (bandwidth.foldl addBandwidth ·) :=
  effect_map fun b hb r => by
    have htail : TailSolid b.fmt := (ending_named (h b hb).line (ending_decimal _)).tail
    rw [line_of_tailSolid r (by decide) htail]
    show (parseBandwidth b.fmt).map r.addBandwidth = _
    rw [parseBandwidth_fmt (h b hb)]
    rfl

theorem effect_attributes {attributes : List (SdpAttribute F)}
    (h : ∀ a ∈ attributes, a.Valid rates) :
    Effect rates (attributes.map (fmtField 'a' <| fmtAttribute rates ·))
      (attributes.foldl (fun r a => r.addAttribute a.tidy) ·) :=
  effect_map fun a ha r => by
    rw [line_fmtField r (by decide), (fmtAttribute_trimmed (h a ha)).2]
    show (parseAttribute rates (fmtAttribute rates a.tidy)).map r.addAttribute = _
    rw [parseAttribute_fmt (tidy_valid (h a ha))]
    rfl

/-- The reading of a media section that says so much. -/
def inMedia (r : Reading F) (m : SdpMedia F) : Reading F := { r with currentMedia := some m }

theorem inMedia_bandwidth (r : Reading F) (m : SdpMedia F) (bandwidth : List SdpBandwidth) :
    bandwidth.foldl addBandwidth (r.inMedia m) =
      r.inMedia { m with bandwidth := m.bandwidth ++ bandwidth } := by
  induction bandwidth generalizing m with
  | nil => simp
  | cons b bandwidth ih =>
    have hstep : (r.inMedia m).addBandwidth b =
        r.inMedia { m with bandwidth := m.bandwidth ++ [b] } := rfl
    rw [List.foldl_cons, hstep, ih]
    simp

theorem inMedia_attributes (r : Reading F) (m : SdpMedia F) (attributes : List (SdpAttribute F)) :
    attributes.foldl (fun r a => r.addAttribute a.tidy) (r.inMedia m) =
      r.inMedia { m with attributes := m.attributes ++ attributes.map SdpAttribute.tidy } := by
  induction attributes generalizing m with
  | nil => simp
  | cons a attributes ih =>
    have hstep : (r.inMedia m).addAttribute a.tidy =
        r.inMedia { m with attributes := m.attributes ++ [a.tidy] } := rfl
    rw [List.foldl_cons, hstep, ih]
    simp

theorem inMedia_info (r : Reading F) (m : SdpMedia F) (title : Option Text) :
    title.elim (r.inMedia { m with title := none }) (r.inMedia { m with title := none }).setInfo =
      r.inMedia { m with title := title } := by
  cases title <;> rfl

theorem inMedia_connection (r : Reading F) (m : SdpMedia F) (connection : Option SdpConnection) :
    connection.elim (r.inMedia { m with connection := none })
        (r.inMedia { m with connection := none }).setConnection =
      r.inMedia { m with connection := connection } := by
  cases connection <;> rfl

/-- What is written for a media section is read as the section. -/
theorem effect_media {m : SdpMedia F} (h : m.Valid rates) :
    Effect rates (m.fmtLines rates) (·.beginMedia m.tidy) := by
  let begun : SdpMedia F :=
    { m with title := none, connection := none, bandwidth := [], attributes := [] }
  have hbegin : Effect rates [fmtField 'm' m.fmt] (·.closeMedia.inMedia begun) :=
    effect_line fun r => by
      have htail : TailSolid m.fmt := tailSolid_unwords (media_words h)
      rw [line_of_tailSolid r (by decide) htail]
      show (parseMedia m.fmt).map r.beginMedia = _
      rw [parseMedia_fmt h]
      rfl
  intro r
  have hinfo := inMedia_info r.closeMedia begun m.title
  have hconnection := inMedia_connection r.closeMedia { begun with title := m.title } m.connection
  rw [SdpMedia.fmtLines, ((((hbegin.append (effect_info h.title)).append
    (effect_connection h.connection)).append (effect_bandwidth h.bandwidth)).append
    (effect_attributes h.attributes)) r]
  simp only [Function.comp_apply]
  rw [hinfo, hconnection, inMedia_bandwidth, inMedia_attributes]
  rfl

theorem effect_medias {ms : List (SdpMedia F)} (h : ∀ m ∈ ms, m.Valid rates) :
    Effect rates (ms.flatMap (·.fmtLines rates)) (ms.foldl (fun r m => r.beginMedia m.tidy) ·) := by
  induction ms with
  | nil => exact fun _ => rfl
  | cons m ms ih =>
    obtain ⟨hm, hms⟩ := List.forall_mem_cons.mp h
    exact (effect_media hm).append (ih hms)

theorem closeMedia_foldl (ms : List (SdpMedia F)) (r : Reading F) :
    (ms.foldl (fun r m => r.beginMedia m.tidy) r).closeMedia =
      { r.closeMedia with media := r.closeMedia.media ++ ms.map SdpMedia.tidy } := by
  induction ms generalizing r with
  | nil => simp [closeMedia]
  | cons m ms ih =>
    rw [List.foldl_cons, ih]
    simp [closeMedia, beginMedia]

section Session

theorem session_info {r : Reading F} (h : r.currentMedia = none) (info : Option Text) :
    info.elim r r.setInfo = { r with sessionInfo := info.or r.sessionInfo } := by
  cases info with
  | none => rfl
  | some t => simp [setInfo, h]

theorem session_connection {r : Reading F} (h : r.currentMedia = none)
    (connection : Option SdpConnection) :
    connection.elim r r.setConnection = { r with connection := connection.or r.connection } := by
  cases connection with
  | none => rfl
  | some c => simp [setConnection, h]

theorem session_bandwidth {r : Reading F} (h : r.currentMedia = none)
    (bandwidth : List SdpBandwidth) :
    bandwidth.foldl addBandwidth r = { r with bandwidth := r.bandwidth ++ bandwidth } := by
  induction bandwidth generalizing r with
  | nil => simp
  | cons b bandwidth ih =>
    have hstep : r.addBandwidth b = { r with bandwidth := r.bandwidth ++ [b] } := by
      simp [addBandwidth, h]
    rw [List.foldl_cons, hstep, @ih { r with bandwidth := r.bandwidth ++ [b] } h]
    simp

theorem session_attributes {r : Reading F} (h : r.currentMedia = none)
    (attributes : List (SdpAttribute F)) :
    attributes.foldl (fun r a => r.addAttribute a.tidy) r =
      { r with attributes := r.attributes ++ attributes.map SdpAttribute.tidy } := by
  induction attributes generalizing r with
  | nil => simp
  | cons a attributes ih =>
    have hstep : r.addAttribute a.tidy = { r with attributes := r.attributes ++ [a.tidy] } := by
      simp [addAttribute, h]
    rw [List.foldl_cons, hstep, @ih { r with attributes := r.attributes ++ [a.tidy] } h]
    simp

theorem effect_version (version : UInt8) :
    Effect rates [fmtField 'v' (decimal version.toNat)]
      ({ · with version := some version }) :=
  effect_line fun r => by
    rw [line_of_tailSolid r (by decide) (ending_decimal _).tail]
    show (parseU8 "version" _).map _ = _
    rw [parseU8_decimal]
    rfl

theorem effect_origin {origin : SdpOrigin} (h : ∀ w ∈ origin.words, Word w) :
    Effect rates [fmtField 'o' origin.fmt] ({ · with origin := some origin }) :=
  effect_line fun r => by
    have htail : TailSolid origin.fmt := tailSolid_unwords h
    rw [line_of_tailSolid r (by decide) htail]
    show (parseOrigin origin.fmt).map _ = _
    rw [parseOrigin_fmt h]
    rfl

theorem effect_timing (timing : SdpTiming) :
    Effect rates [fmtField 't' timing.fmt] ({ · with timing := some timing }) :=
  effect_line fun r => by
    have htail : TailSolid timing.fmt := tailSolid_unwords (timing_words timing)
    rw [line_of_tailSolid r (by decide) htail]
    show (parseTiming timing.fmt).map _ = _
    rw [parseTiming_fmt]
    rfl

theorem effect_sessionName (h : Ending name) :
    Effect rates [fmtField 's' name] ({ · with sessionName := some name }) :=
  effect_line fun r => line_of_tailSolid (c := 's') r (by decide) h.tail

theorem effect_uri {uri : Option Text} (h : ∀ t ∈ uri, Ending t) :
    Effect rates (uri.toList.map (fmtField 'u')) (fun r => { r with uri := uri.or r.uri }) := by
  cases uri with
  | none => exact fun _ => rfl
  | some t => exact effect_line fun r => line_of_tailSolid (c := 'u') r (by decide) (h t rfl).tail

theorem effect_email {email : Option Text} (h : ∀ t ∈ email, Ending t) :
    Effect rates (email.toList.map (fmtField 'e'))
      (fun r => { r with email := email.or r.email }) := by
  cases email with
  | none => exact fun _ => rfl
  | some t => exact effect_line fun r => line_of_tailSolid (c := 'e') r (by decide) (h t rfl).tail

theorem effect_phone {phone : Option Text} (h : ∀ t ∈ phone, Ending t) :
    Effect rates (phone.toList.map (fmtField 'p'))
      (fun r => { r with phone := phone.or r.phone }) := by
  cases phone with
  | none => exact fun _ => rfl
  | some t => exact effect_line fun r => line_of_tailSolid (c := 'p') r (by decide) (h t rfl).tail

/-- What is written above the media sections is read as the description without them. -/
theorem read_session {s : Sdp F} (h : s.Valid rates) :
    (s.fmtSession rates).foldlM (line rates) {} = .ok {
      version := some s.version
      origin := some s.origin
      sessionName := some s.sessionName
      sessionInfo := s.sessionInfo
      uri := s.uri
      email := s.email
      phone := s.phone
      connection := s.connection
      bandwidth := s.bandwidth
      timing := some s.timing
      attributes := s.attributes.map SdpAttribute.tidy } := by
  have hnames : Effect rates _ _ := ((effect_version s.version).append
    (effect_origin h.origin)).append (effect_sessionName h.sessionName)
  have htexts := (((hnames.append (effect_info h.sessionInfo)).append (effect_uri h.uri)).append
    (effect_email h.email)).append (effect_phone h.phone)
  have hall := (((htexts.append (effect_connection h.connection)).append
    (effect_bandwidth h.bandwidth)).append (effect_timing s.timing)).append
    (effect_attributes h.attributes)
  refine (hall {}).trans (congrArg Except.ok ?_)
  simp only [Function.comp_apply]
  rw [session_info rfl, session_connection rfl, session_bandwidth rfl, session_attributes rfl]
  simp

end Session

end Reading

section Lines

theorem not_newline_fmtField (hc : c ≠ '\n') (hv : '\n' ∉ v) : '\n' ∉ fmtField c v := by
  simp [fmtField, Ne.symm hc, hv]

theorem fmtLines_no_newline {m : SdpMedia F} (h : m.Valid rates) :
    ∀ l ∈ m.fmtLines rates, '\n' ∉ l := by
  intro l hl
  simp only [SdpMedia.fmtLines, List.mem_append, List.mem_map, List.mem_singleton,
    Option.mem_toList] at hl
  rcases hl with (((rfl | ⟨t, ht, rfl⟩) | ⟨c, hc, rfl⟩) | ⟨b, hb, rfl⟩) | ⟨a, ha, rfl⟩
  · exact not_newline_fmtField (by decide) (not_newline_unwords (media_words h))
  · exact not_newline_fmtField (by decide) (h.title t ht).line
  · exact not_newline_fmtField (by decide) (not_newline_unwords (h.connection c hc))
  · exact not_newline_fmtField (by decide)
      (ending_named (h.bandwidth b hb).line (ending_decimal _)).line
  · exact not_newline_fmtField (by decide) (fmtAttribute_trimmed (h.attributes a ha)).1

theorem fmtSession_no_newline {s : Sdp F} (h : s.Valid rates) :
    ∀ l ∈ s.fmtSession rates, '\n' ∉ l := by
  intro l hl
  simp only [fmtSession, List.mem_append, List.mem_map, List.mem_cons, List.not_mem_nil, or_false,
    Option.mem_toList] at hl
  rcases hl with ((((((((rfl | rfl | rfl) | ⟨t, ht, rfl⟩) | ⟨t, ht, rfl⟩) | ⟨t, ht, rfl⟩) |
    ⟨t, ht, rfl⟩) | ⟨c, hc, rfl⟩) | ⟨b, hb, rfl⟩) | rfl) | ⟨a, ha, rfl⟩
  · exact not_newline_fmtField (by decide) (ending_decimal _).line
  · exact not_newline_fmtField (by decide) (not_newline_unwords h.origin)
  · exact not_newline_fmtField (by decide) h.sessionName.line
  · exact not_newline_fmtField (by decide) (h.sessionInfo t ht).line
  · exact not_newline_fmtField (by decide) (h.uri t ht).line
  · exact not_newline_fmtField (by decide) (h.email t ht).line
  · exact not_newline_fmtField (by decide) (h.phone t ht).line
  · exact not_newline_fmtField (by decide) (not_newline_unwords (h.connection c hc))
  · exact not_newline_fmtField (by decide)
      (ending_named (h.bandwidth b hb).line (ending_decimal _)).line
  · exact not_newline_fmtField (by decide) (not_newline_unwords (timing_words _))
  · exact not_newline_fmtField (by decide) (fmtAttribute_trimmed (h.attributes a ha)).1

end Lines

/-- What is written is read as the same description with its lines trimmed. -/
theorem parse_fmt {s : Sdp F} (h : s.Valid rates) : parse rates (s.fmt rates) = .ok s.tidy := by
  have hlines : lines (s.fmt rates) = s.fmtSession rates ++ s.media.flatMap (·.fmtLines rates) := by
    refine lines_unlines (List.forall_mem_append.mpr ⟨fmtSession_no_newline h, fun l hl => ?_⟩)
    obtain ⟨m, hm, hl⟩ := List.mem_flatMap.mp hl
    exact fmtLines_no_newline (h.media m hm) l hl
  rw [parse, hlines, List.foldlM_append, Reading.read_session h]
  dsimp only [bind, Except.bind]
  rw [Reading.effect_medias h.media]
  dsimp only
  rw [Reading.finish, Reading.closeMedia_foldl]
  simp [Reading.closeMedia, tidy]

/-- The third part of what an `rtpmap` attribute says behind the payload type. -/
def rtpmapParams (value : Text) : Option Text :=
  match splitOnce ':' value with
  | some (name, attrValue) =>
    if name = "rtpmap".toList then
      (splitOnce ' ' attrValue).bind fun (_, encodingPart) => (encodingPart.splitOn '/')[2]?
    else none
  | none => none

/-- The encoding parameters of the line, if it is an `a=rtpmap:` line and has some. -/
def encodingParams (rawLine : Text) : Option Text :=
  match trim rawLine with
  | 'a' :: '=' :: value => rtpmapParams value
  | _ => none

/-- The encoding parameters of the line, if it has some, end with no whitespace. -/
def Tight (rawLine : Text) : Prop := ∀ params ∈ encodingParams rawLine, TailSolid params

instance (rawLine : Text) : Decidable (Tight rawLine) :=
  inferInstanceAs (Decidable (∀ params ∈ encodingParams rawLine, TailSolid params))

section Tidiness

theorem encodingParams_attribute (h : trim rawLine = 'a' :: '=' :: value) :
    encodingParams rawLine = rtpmapParams value := by
  rw [encodingParams, h]
  rfl

theorem encodingParams_other (h : ∀ value, trim rawLine ≠ 'a' :: '=' :: value) :
    encodingParams rawLine = none := by
  unfold encodingParams
  split
  · rename_i htrim
    exact absurd htrim (h _)
  · rfl

theorem tidy_rtpmap {params : Option Text} :
    (SdpAttribute.rtpmap payloadType encoding clockRate params : SdpAttribute F).tidy =
      .rtpmap payloadType encoding clockRate params ↔ ∀ p ∈ params, TailSolid p := by
  cases params with
  | none => simp [SdpAttribute.tidy]
  | some p => simp [SdpAttribute.tidy, trimEnd_eq_self_iff]

theorem parseRtpmapAttribute_tidy {a : SdpAttribute F}
    (h : parseRtpmapAttribute fullValue value = .ok a) :
    a.tidy = a ↔ ∀ p ∈ (splitOnce ' ' value).bind fun (_, encodingPart) =>
      (encodingPart.splitOn '/')[2]?, TailSolid p := by
  unfold parseRtpmapAttribute at h
  split at h
  · rename_i payloadType encodingPart hsplit
    obtain ⟨_, -, h⟩ := sdp_bind h
    split at h
    · rename_i encoding clockRate params hparts
      obtain ⟨_, -, h⟩ := sdp_bind h
      cases h
      rw [hsplit, tidy_rtpmap]
      simp [hparts, List.head?_eq_getElem?]
    · cases h
  · cases h

theorem parseValueAttribute_tidy {a : SdpAttribute F} (hname : name ≠ "rtpmap".toList)
    (h : parseValueAttribute rates fullValue name value = .ok a) : a.tidy = a := by
  rw [parseValueAttribute, if_neg hname] at h
  split at h
  · unfold parseFmtpAttribute at h
    split at h
    · obtain ⟨_, -, h⟩ := sdp_bind h
      cases h
      rfl
    · cases h
  iterate 2
    split at h
    · cases h
      rfl
  split at h
  · obtain ⟨_, -, rfl⟩ := sdp_map h
    rfl
  iterate 5
    split at h
    · cases h
      rfl
  cases h
  rfl

theorem parseFlagAttribute_tidy (value : Text) :
    (parseFlagAttribute value : SdpAttribute F).tidy = parseFlagAttribute value := by
  unfold parseFlagAttribute
  iterate 4
    split
    · rfl
  rfl

theorem parseAttribute_tidy {a : SdpAttribute F} (h : parseAttribute rates value = .ok a) :
    a.tidy = a ↔ ∀ p ∈ rtpmapParams value, TailSolid p := by
  unfold parseAttribute at h
  unfold rtpmapParams
  cases hsplit : splitOnce ':' value with
  | none =>
    rw [hsplit] at h
    cases h
    simp [parseFlagAttribute_tidy]
  | some pair =>
    obtain ⟨name, attrValue⟩ := pair
    rw [hsplit] at h
    dsimp only at h ⊢
    by_cases hname : name = "rtpmap".toList
    · rw [parseValueAttribute, if_pos hname] at h
      rw [if_pos hname]
      exact parseRtpmapAttribute_tidy h
    · rw [if_neg hname]
      simp [parseValueAttribute_tidy hname h]

namespace Reading

/-- The attributes read so far. -/
def said (r : Reading F) : List (SdpAttribute F) :=
  r.attributes ++ (r.media ++ r.currentMedia.toList).flatMap (·.attributes)

/-- No attribute read so far loses anything in the trim. -/
def Tidy (r : Reading F) : Prop := ∀ a ∈ r.said, a.tidy = a

theorem said_setInfo (r : Reading F) (info : Text) : (r.setInfo info).said = r.said := by
  unfold setInfo
  split
  · rename_i hmedia
    simp [said, hmedia]
  · rfl

theorem said_setConnection (r : Reading F) (connection : SdpConnection) :
    (r.setConnection connection).said = r.said := by
  unfold setConnection
  split
  · rename_i hmedia
    simp [said, hmedia]
  · rfl

theorem said_addBandwidth (r : Reading F) (bandwidth : SdpBandwidth) :
    (r.addBandwidth bandwidth).said = r.said := by
  unfold addBandwidth
  split
  · rename_i hmedia
    simp [said, hmedia]
  · rfl

theorem said_beginMedia (r : Reading F) {m : SdpMedia F} (h : parseMedia value = .ok m) :
    (r.beginMedia m).said = r.said := by
  have hnone : m.attributes = [] := by
    unfold parseMedia at h
    split at h
    · obtain ⟨_, -, h⟩ := sdp_bind h
      cases h
      rfl
    · cases h
  simp [said, beginMedia, closeMedia, hnone]

theorem mem_said_addAttribute (r : Reading F) (a b : SdpAttribute F) :
    b ∈ (r.addAttribute a).said ↔ b ∈ r.said ∨ b = a := by
  unfold addAttribute
  split
  · rename_i hmedia
    simp [said, hmedia, or_assoc]
  · simp [said, or_comm, or_left_comm]

theorem field_tidy {r r' : Reading F} (hc : c ≠ 'a') (h : r.field rates value c = .ok r') :
    r'.said = r.said := by
  unfold field at h
  split at h
  · obtain ⟨_, -, rfl⟩ := sdp_map h
    rfl
  · obtain ⟨_, -, rfl⟩ := sdp_map h
    rfl
  · cases h
    rfl
  · cases h
    exact said_setInfo r value
  iterate 3
    cases h
    rfl
  · obtain ⟨_, -, rfl⟩ := sdp_map h
    exact said_setConnection r _
  · obtain ⟨_, -, rfl⟩ := sdp_map h
    exact said_addBandwidth r _
  · obtain ⟨_, -, rfl⟩ := sdp_map h
    rfl
  · exact absurd rfl hc
  · obtain ⟨_, hm, rfl⟩ := sdp_map h
    exact said_beginMedia r hm
  · cases h
    rfl

theorem line_tidy {r r' : Reading F} (h : r.line rates rawLine = .ok r') :
    r'.Tidy ↔ r.Tidy ∧ Tight rawLine := by
  unfold line at h
  unfold Tight
  split at h
  · rename_i fieldType value htrim
    by_cases hc : fieldType = 'a'
    · obtain rfl := hc
      rw [if_pos (by decide)] at h
      rw [encodingParams_attribute htrim]
      obtain ⟨a, ha, rfl⟩ := sdp_map h
      show (∀ b ∈ (r.addAttribute a).said, b.tidy = b) ↔ _
      rw [← parseAttribute_tidy ha]
      simp only [mem_said_addAttribute]
      exact ⟨fun hall => ⟨fun b hb => hall b (.inl hb), hall a (.inr rfl)⟩,
        fun ⟨hr, ha⟩ b hb => hb.elim (hr b) fun heq => heq ▸ ha⟩
    · have hsaid : r'.said = r.said := by
        split at h
        · exact field_tidy hc h
        · cases h
          rfl
      rw [encodingParams_other fun _ hvalue => hc (List.cons.inj (htrim.symm.trans hvalue)).1]
      simp [Tidy, hsaid]
  · rename_i hfield
    cases h
    rw [encodingParams_other (hfield 'a')]
    simp

theorem lines_tidy {ls : List Text} {r r' : Reading F} (h : ls.foldlM (line rates) r = .ok r') :
    r'.Tidy ↔ r.Tidy ∧ ∀ l ∈ ls, Tight l := by
  induction ls generalizing r with
  | nil =>
    cases h
    simp
  | cons l ls ih =>
    rw [List.foldlM_cons] at h
    obtain ⟨next, hnext, h⟩ := sdp_bind h
    rw [ih h, line_tidy hnext, List.forall_mem_cons, and_assoc]

theorem map_eq_self_iff {xs : List α} {f : α → α} : xs.map f = xs ↔ ∀ x ∈ xs, f x = x := by
  simpa using List.map_inj_left (l := xs) (f := f) (g := fun x => x)

theorem media_tidy_iff (m : SdpMedia F) : m.tidy = m ↔ ∀ a ∈ m.attributes, a.tidy = a := by
  rw [← map_eq_self_iff]
  constructor
  · exact fun h => congrArg SdpMedia.attributes h
  · intro h
    rw [SdpMedia.tidy, h]

theorem finish_tidy {r : Reading F} (h : r.finish = .ok s) : s.tidy = s ↔ r.Tidy := by
  unfold finish at h
  dsimp only at h
  split at h
  · cases h
  · cases h
  · cases h
  · cases h
    simp only [tidy, Sdp.mk.injEq, map_eq_self_iff, media_tidy_iff, true_and, Tidy, said,
      closeMedia, List.mem_append, List.mem_flatMap]
    constructor
    · rintro ⟨hattributes, hmedia⟩ a (ha | ⟨m, hm, ha⟩)
      · exact hattributes a ha
      · exact hmedia m hm a ha
    · exact fun h => ⟨fun a ha => h a (.inl ha), fun m hm a ha => h a (.inr ⟨m, hm, ha⟩)⟩

end Reading

/-- A description loses nothing exactly if no line has encoding parameters with an open end. -/
theorem tidy_iff_tight (h : parse rates t = .ok s) : s.tidy = s ↔ ∀ l ∈ lines t, Tight l := by
  obtain ⟨r, hr, h⟩ := sdp_bind h
  rw [Reading.finish_tidy h, Reading.lines_tidy hr]
  simp [Reading.Tidy, Reading.said]

end Tidiness

/-- What is printed of an accepted text is read as the same description exactly if the encoding
parameters of its `rtpmap` lines end with no whitespace. -/
theorem parse_fmt_iff (h : parse rates t = .ok s) :
    parse rates (s.fmt rates) = .ok s ↔ ∀ l ∈ lines t, Tight l := by
  rw [parse_fmt (parse_valid h), ← tidy_iff_tight h]
  exact ⟨Except.ok.inj, congrArg Except.ok⟩

/-- Frame rates that are whole numbers. -/
def wholeRates : FrameRates Nat where
  parse := parseUnsigned 64
  print := decimal
  word := decimal_word
  parse_print _ _ h := parseUnsigned_decimal (parseUnsigned_lt h)

/-- A description with encoding parameters that `channels` ends. -/
def stereoText (channels : String) : Text :=
  ("o=- 1 1 IN IP4 a\r\ns=x\r\nt=0 0\r\nm=audio 0 RTP/AVP 97\r\n" ++
    "a=rtpmap:97 L16/44100/" ++ channels ++ "\r\n").toList

def stereo (encodingParams : String) : Sdp Nat where
  version := 0
  origin := {
    username := "-".toList
    sessionId := "1".toList
    sessionVersion := "1".toList
    netType := "IN".toList
    addrType := "IP4".toList
    address := "a".toList }
  sessionName := "x".toList
  sessionInfo := none
  uri := none
  email := none
  phone := none
  connection := none
  bandwidth := []
  timing := { start := 0, stop := 0 }
  attributes := []
  media := [{
    mediaType := "audio".toList
    port := 0
    numPorts := none
    protocol := "RTP/AVP".toList
    formats := ["97".toList]
    attributes := [.rtpmap 97 "L16".toList 44100 (some encodingParams.toList)] }]

theorem parse_fmt_iff_stereo : parse wholeRates (stereoText "2") = .ok (stereo "2") ∧
    (parse wholeRates ((stereo "2").fmt wholeRates) = .ok (stereo "2") ↔
      ∀ l ∈ lines (stereoText "2"), Tight l) :=
  have h : parse wholeRates (stereoText "2") = .ok (stereo "2") := by decide +kernel
  ⟨h, parse_fmt_iff h⟩

/-- What stands behind the encoding parameters is not read, and a space in front of it is trimmed
when the parameters are printed at the end of the line. -/
theorem parse_fmt_loses : ¬∀ (t : Text) (s : Sdp Nat), parse wholeRates t = .ok s →
    parse wholeRates (s.fmt wholeRates) = .ok s := by
  intro h
  have hread : parse wholeRates (stereoText "2 /x") = .ok (stereo "2 ") := by decide +kernel
  have hagain : parse wholeRates ((stereo "2 ").fmt wholeRates) = .ok (stereo "2") := by
    decide +kernel
  have heq := Except.ok.inj (hagain.symm.trans (h _ _ hread))
  exact absurd heq (by decide +kernel)

end Sdp

end CheetahMedia.Rtsp
