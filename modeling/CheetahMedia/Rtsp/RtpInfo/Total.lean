import CheetahMedia.Lib.Trim
import CheetahMedia.Rtsp.RtpInfo

namespace CheetahMedia.Rtsp.RtspRtpInfo
open Lib

/-- Whether the next entry starts behind a comma. The look ahead takes four bytes. -/
def lookahead (rest : Text) : Option Bool :=
  let remaining := Text.trimStart rest
  if 4 ≤ Text.utf8Len remaining then
    (Text.takeBytes remaining 4).map (Text.eqIgnoreAsciiCase · "url=".toList)
  else some false

/-- The key of the open entry is `url`. -/
def isUrlKey (key : Text) : Bool := Text.eqIgnoreAsciiCase (Text.trim key) "url".toList

/-- The entries of a value whose current entry has been read up to here: the tokenizer without
offsets. -/
def tokens (cur : Text) (inUrl : Bool) : Text → Option (List Text)
  | [] => some (if cur = [] then [] else [cur])
  | ch :: rest =>
    if ch = '=' ∧ ¬inUrl then tokens (cur ++ [ch]) (isUrlKey cur) rest
    else if ch = ';' ∧ inUrl then tokens (cur ++ [ch]) false rest
    else if ch = ',' ∧ inUrl then do
      if ← lookahead rest then (tokens [] false rest).map (cur :: ·)
      else tokens (cur ++ [ch]) inUrl rest
    else if ch = ',' ∧ ¬inUrl then (tokens [] false rest).map (cur :: ·)
    else tokens (cur ++ [ch]) inUrl rest

/-- The rest of the run of the tokenizer over a value that is read up to an offset. -/
def finish (value : Text) (s : Option Scan) : Option (List Text) := do
  let s ← s
  if s.start < Text.utf8Len value then
    let stream ← Text.dropBytes value s.start
    some (s.streams ++ [stream])
  else some s.streams

/-- One character, when the offsets are those of the current entry. -/
theorem scanChar_append (streams : List Text) (done cur rest : Text) (inUrl : Bool) (ch : Char) :
    scanChar (done ++ cur ++ ch :: rest) { streams, start := Text.utf8Len done, inUrlValue := inUrl }
        (Text.utf8Len (done ++ cur), ch) =
      if ch = '=' ∧ ¬inUrl then
        some { streams, start := Text.utf8Len done, inUrlValue := isUrlKey cur }
      else if ch = ';' ∧ inUrl then
        some { streams, start := Text.utf8Len done, inUrlValue := false }
      else if ch = ',' ∧ inUrl then
        (lookahead rest).map fun next =>
          if next then
            { streams := streams ++ [cur], start := Text.utf8Len (done ++ cur ++ [ch])
              inUrlValue := false }
          else { streams, start := Text.utf8Len done, inUrlValue := inUrl }
      else if ch = ',' ∧ ¬inUrl then
        some { streams := streams ++ [cur], start := Text.utf8Len (done ++ cur ++ [ch])
               inUrlValue := false }
      else some { streams, start := Text.utf8Len done, inUrlValue := inUrl } := by
  have hslice := Text.slice_append done cur (ch :: rest)
  have hdrop : Text.dropBytes (done ++ cur ++ ch :: rest)
      (Text.utf8Len (done ++ cur) + ch.utf8Size) = some rest := by
    have := Text.dropBytes_append (done ++ cur ++ [ch]) rest
    rwa [List.append_assoc, List.singleton_append, Text.utf8Len_append, Text.utf8Len_cons,
      Text.utf8Len_nil, Nat.add_zero] at this
  unfold scanChar
  dsimp only
  rw [hslice, hdrop]
  split
  · rename_i h
    dsimp only [bind, Option.bind]
    unfold isUrlKey
    split
    · rename_i hkey
      rw [hkey]
    · rename_i hkey
      have hinUrl : inUrl = false := by simpa using h.2
      rw [Bool.not_eq_true] at hkey
      rw [hkey, hinUrl]
  split
  · rfl
  split
  · rename_i h
    have hsize : Text.utf8Len (done ++ cur ++ [ch]) = Text.utf8Len (done ++ cur) + 1 := by
      rw [h.1, Text.utf8Len_append (done ++ cur)]
      rfl
    rw [hsize]
    unfold lookahead
    dsimp only [bind, Option.bind]
    split
    · cases Text.takeBytes (Text.trimStart rest) 4 with
      | none => rfl
      | some head =>
        dsimp only [Option.map_some]
        split <;> rfl
    · rfl
  split
  · rename_i h
    have hsize : Text.utf8Len (done ++ cur ++ [ch]) = Text.utf8Len (done ++ cur) + 1 := by
      rw [h.1, Text.utf8Len_append (done ++ cur)]
      rfl
    have hinUrl : inUrl = false := by simpa using h.2
    rw [hsize, hinUrl]
    rfl
  · rfl

/-- The tokenizer over offsets runs as the one without: every slice it takes of the value is
at a character's end. -/
theorem scan_eq_tokens (streams : List Text) (done cur : Text) (inUrl : Bool) (rest : Text) :
    finish (done ++ cur ++ rest)
        ((Text.charIndices (Text.utf8Len (done ++ cur)) rest).foldlM
          (scanChar (done ++ cur ++ rest))
          { streams, start := Text.utf8Len done, inUrlValue := inUrl }) =
      (tokens cur inUrl rest).map (streams ++ ·) := by
  induction rest generalizing streams done cur inUrl with
  | nil =>
    rw [List.append_nil]
    unfold tokens Text.charIndices finish
    dsimp only [List.foldlM, bind, Option.bind, pure, Option.map_some]
    rw [Text.dropBytes_append]
    by_cases hcur : cur = []
    · rw [hcur, List.append_nil, if_neg (Nat.lt_irrefl _), if_pos rfl, List.append_nil]
    · have hpos : 0 < Text.utf8Len cur := Text.utf8Len_pos hcur
      rw [if_pos (by rw [Text.utf8Len_append]; omega), if_neg hcur]
  | cons ch rest ih =>
    have hnext (cur' : Text) : done ++ cur' ++ ch :: rest = done ++ (cur' ++ [ch]) ++ rest := by
      simp
    have hsplit : finish (done ++ cur ++ ch :: rest)
        ((Text.charIndices (Text.utf8Len (done ++ cur) + ch.utf8Size) rest).foldlM
          (scanChar (done ++ cur ++ ch :: rest))
          { streams := streams ++ [cur], start := Text.utf8Len (done ++ cur ++ [ch])
            inUrlValue := false }) =
        ((tokens [] false rest).map (cur :: ·)).map (streams ++ ·) := by
      have h := ih (streams ++ [cur]) (done ++ cur ++ [ch]) [] false
      rw [List.append_nil, List.append_assoc (done ++ cur), List.singleton_append] at h
      have hlen : Text.utf8Len (done ++ cur ++ [ch]) =
          Text.utf8Len (done ++ cur) + ch.utf8Size := by
        rw [Text.utf8Len_append (done ++ cur)]
        rfl
      rw [hlen] at h
      rw [hlen, h, Option.map_map]
      congr 1
      funext more
      simp
    have hindex :
        Text.utf8Len (done ++ cur) + ch.utf8Size = Text.utf8Len (done ++ (cur ++ [ch])) := by
      simp [Nat.add_assoc]
    unfold tokens Text.charIndices
    rw [List.foldlM_cons, scanChar_append]
    split
    · rw [hindex, hnext]
      exact ih streams done (cur ++ [ch]) (isUrlKey cur)
    split
    · rw [hindex, hnext]
      exact ih streams done (cur ++ [ch]) false
    split
    · cases lookahead rest with
      | none => rfl
      | some next =>
        cases next with
        | true => exact hsplit
        | false =>
          rw [hindex, hnext]
          exact ih streams done (cur ++ [ch]) inUrl
    split
    · exact hsplit
    · rw [hindex, hnext]
      exact ih streams done (cur ++ [ch]) inUrl

theorem splitRtpInfoStreams_eq (value : Text) :
    splitRtpInfoStreams value = tokens [] false value := by
  have h := scan_eq_tokens [] [] [] false value
  rw [List.nil_append, List.nil_append] at h
  have hid : (tokens [] false value).map (([] : List Text) ++ ·) = tokens [] false value := by
    simp
  exact h.trans hid

/-- An entry starts at the start of the value or behind a comma. -/
def Start (before : Text) : Prop := before = [] ∨ ∃ a, before = a ++ [',']

/-- A `url` value is open at the end of the text: no semicolon stands behind a `url=` that
starts an entry. -/
def UrlOpen (pre : Text) : Prop :=
  ∃ a key v, pre = a ++ key ++ '=' :: v ∧ Start a ∧ isUrlKey key ∧ ';' ∉ v

/-- A comma in a `url` value has a character across the fourth byte behind it, whitespace
aside. -/
def Cuts (pre rest : Text) : Prop :=
  ∃ x y, rest = x ++ ',' :: y ∧ UrlOpen (pre ++ x) ∧ lookahead y = none

theorem isUrlKey_not_mem (h : isUrlKey key) (hc : Text.isWhitespace c = false)
    (hlower : c.toLower ∉ "url".toList) : c ∉ key := by
  intro hmem
  rcases Text.mem_trim_or hmem with hspace | hmem
  · rw [hc] at hspace
    cases hspace
  · have heq : (Text.trim key).map Char.toLower = "url".toList.map Char.toLower := by
      simpa [isUrlKey, Text.eqIgnoreAsciiCase] using h
    have hin : c.toLower ∈ "url".toList.map Char.toLower := heq ▸ List.mem_map_of_mem hmem
    have hsame : "url".toList.map Char.toLower = "url".toList := by decide
    rw [hsame] at hin
    exact hlower hin

theorem isUrlKey_no_comma (h : isUrlKey key) : ',' ∉ key :=
  isUrlKey_not_mem h (by decide) (by decide)

theorem isUrlKey_no_semicolon (h : isUrlKey key) : ';' ∉ key :=
  isUrlKey_not_mem h (by decide) (by decide)

theorem isUrlKey_no_equals (h : isUrlKey key) : '=' ∉ key :=
  isUrlKey_not_mem h (by decide) (by decide)

theorem UrlOpen.append (h : UrlOpen pre) (hmore : ';' ∉ more) : UrlOpen (pre ++ more) := by
  obtain ⟨a, key, v, rfl, hstart, hkey, hv⟩ := h
  refine ⟨a, key, v ++ more, by simp, hstart, hkey, ?_⟩
  rw [List.mem_append]
  exact not_or.mpr ⟨hv, hmore⟩

/-- What the last character says about an open value. -/
theorem urlOpen_snoc : UrlOpen (pre ++ [ch]) ↔
    (ch ≠ ';' ∧ UrlOpen pre) ∨
      (ch = '=' ∧ ∃ a key, pre = a ++ key ∧ Start a ∧ isUrlKey key) := by
  constructor
  · rintro ⟨a, key, v, heq, hstart, hkey, hv⟩
    rcases List.eq_nil_or_concat v with rfl | ⟨v', last, rfl⟩
    · obtain ⟨hpre, hch⟩ := List.append_inj' heq rfl
      cases hch
      exact .inr ⟨rfl, a, key, hpre, hstart, hkey⟩
    · rw [List.concat_eq_append, ← List.cons_append, ← List.append_assoc] at heq
      obtain ⟨hpre, hch⟩ := List.append_inj' heq rfl
      cases hch
      rw [List.concat_eq_append, List.mem_append, not_or, List.mem_singleton] at hv
      exact .inl ⟨fun h => hv.2 h.symm, a, key, v', hpre, hstart, hkey, hv.1⟩
  · rintro (⟨hne, hopen⟩ | ⟨rfl, a, key, rfl, hstart, hkey⟩)
    · exact hopen.append (by simpa using Ne.symm hne)
    · exact ⟨a, key, [], rfl, hstart, hkey, List.not_mem_nil⟩

/-- The tokenizer's flag tells whether a `url` value is open, and the commas it left in the
current entry are in such values. -/
structure Reached (done cur : Text) (inUrl : Bool) : Prop where
  start : Start done
  flag : inUrl = true ↔ UrlOpen (done ++ cur)
  commas : ∀ x y, cur = x ++ ',' :: y → UrlOpen (done ++ x)

theorem Reached.nil : Reached [] [] false := by
  refine ⟨.inl rfl, ?_, ?_⟩
  · constructor
    · intro h
      cases h
    · rintro ⟨a, key, v, heq, _⟩
      simp at heq
  · intro x y heq
    simp at heq

/-- Where no value is open, an equals sign opens one just if the current entry is the key. -/
theorem Reached.key (h : Reached done cur false) :
    isUrlKey cur ↔ ∃ a key, done ++ cur = a ++ key ∧ Start a ∧ isUrlKey key := by
  constructor
  · intro hkey
    exact ⟨done, cur, rfl, h.start, hkey⟩
  · rintro ⟨a, key, heq, hstart, hkey⟩
    rcases List.append_eq_append_iff.mp heq with ⟨d, rfl, hcur⟩ | ⟨d, hdone, hkey'⟩
    · -- the entry would start inside the current one, behind a comma of an open value
      rcases hstart with hnil | ⟨a', ha'⟩
      · obtain ⟨rfl, rfl⟩ := List.append_eq_nil_iff.mp hnil
        rwa [hcur, List.nil_append]
      · rcases List.eq_nil_or_concat d with rfl | ⟨d', last, rfl⟩
        · rwa [hcur, List.nil_append]
        · rw [List.concat_eq_append, ← List.append_assoc] at ha'
          obtain ⟨_, hlast⟩ := List.append_inj' ha' rfl
          cases hlast
          rw [List.concat_eq_append, List.append_assoc] at hcur
          have hno : ';' ∉ ',' :: key := by simpa using isUrlKey_no_semicolon hkey
          have hopen := (h.commas d' key hcur).append hno
          rw [List.append_assoc, ← List.singleton_append, ← hcur] at hopen
          exact absurd (h.flag.mpr hopen) (by simp)
    · rcases h.start with rfl | ⟨done', hdone'⟩
      · obtain ⟨rfl, rfl⟩ := List.append_eq_nil_iff.mp hdone.symm
        rwa [← List.nil_append cur, ← hkey']
      · rcases List.eq_nil_or_concat d with rfl | ⟨d', last, rfl⟩
        · rwa [← List.nil_append cur, ← hkey']
        · rw [hdone', List.concat_eq_append, ← List.append_assoc] at hdone
          obtain ⟨_, hlast⟩ := List.append_inj' hdone rfl
          cases hlast
          refine absurd ?_ (isUrlKey_no_comma hkey)
          rw [hkey', List.concat_eq_append]
          simp

theorem cuts_cons : Cuts pre (ch :: rest) ↔
    (ch = ',' ∧ UrlOpen pre ∧ lookahead rest = none) ∨ Cuts (pre ++ [ch]) rest := by
  constructor
  · rintro ⟨x, y, heq, hopen, hcut⟩
    cases x with
    | nil =>
      cases heq
      rw [List.append_nil] at hopen
      exact .inl ⟨rfl, hopen, hcut⟩
    | cons c x =>
      cases heq
      exact .inr ⟨x, y, rfl, by simpa using hopen, hcut⟩
  · rintro (⟨rfl, hopen, hcut⟩ | ⟨x, y, rfl, hopen, hcut⟩)
    · exact ⟨[], rest, rfl, by simpa using hopen, hcut⟩
    · exact ⟨ch :: x, y, rfl, by simpa using hopen, hcut⟩

theorem cuts_append (h : ',' ∉ w) : Cuts pre (w ++ rest) ↔ Cuts (pre ++ w) rest := by
  induction w generalizing pre with
  | nil => rw [List.nil_append, List.append_nil]
  | cons c w ih =>
    rw [List.mem_cons, not_or] at h
    rw [List.cons_append, cuts_cons, ih h.2, List.append_assoc, List.singleton_append]
    exact or_iff_right fun hc => h.1 hc.1.symm

/-- A key is passed as any other text outside the values. -/
theorem tokens_key (hkey : isUrlKey key) (rest : Text) :
    tokens [] false (key ++ '=' :: rest) = tokens (key ++ ['=']) true rest := by
  have hpass (cur w : Text) (hequals : '=' ∉ w) (hcomma : ',' ∉ w) (more : Text) :
      tokens cur false (w ++ more) = tokens (cur ++ w) false more := by
    induction w generalizing cur with
    | nil => rw [List.nil_append, List.append_nil]
    | cons c w ih =>
      rw [List.mem_cons, not_or] at hequals hcomma
      rw [List.cons_append, tokens, if_neg fun h => hequals.1 h.1.symm, if_neg (by simp),
        if_neg fun h => hcomma.1 h.1.symm, if_neg fun h => hcomma.1 h.1.symm,
        ih (cur ++ [c]) hequals.2 hcomma.2, List.append_assoc, List.singleton_append]
  rw [hpass [] key (isUrlKey_no_equals hkey) (isUrlKey_no_comma hkey), List.nil_append, tokens,
    if_pos ⟨rfl, by simp⟩, hkey]

/-- Only a capital letter has another lower case. -/
theorem toLower_eq {c : Char} (h : ¬(65 ≤ c.toNat ∧ c.toNat ≤ 90)) : c.toLower = c := by
  unfold Char.toLower
  rw [dif_neg]
  intro hc
  rw [ge_iff_le, UInt32.le_iff_toNat_le, UInt32.le_iff_toNat_le] at hc
  exact h hc

theorem toLower_whitespace (h : Text.isWhitespace c = true) : c.toLower = c := by
  refine toLower_eq fun hc => ?_
  simp only [Text.isWhitespace] at h
  simp at h
  omega

theorem of_toLower {c : Char} (h : c.toLower = d) (hd : ¬(97 ≤ d.toNat ∧ d.toNat ≤ 122)) :
    c = d := by
  unfold Char.toLower at h
  split at h
  · rename_i hc
    rw [ge_iff_le, UInt32.le_iff_toNat_le, UInt32.le_iff_toNat_le] at hc
    have hvalue : d.toNat = c.val.toNat + 32 := by
      rw [← h]
      show (c.val + ('a'.val - 'A'.val)).toNat = _
      rw [UInt32.toNat_add]
      have := hc.2
      simp at this ⊢
      omega
    have hlow : 65 ≤ c.val.toNat := hc.1
    have hhigh : c.val.toNat ≤ 90 := hc.2
    omega
  · exact h

/-- The next entry starts with its key. -/
theorem lookahead_true (h : lookahead rest = some true) :
    ∃ key more, rest = key ++ '=' :: more ∧ isUrlKey key := by
  unfold lookahead at h
  dsimp only at h
  split at h
  · obtain ⟨head, hhead, heq⟩ := Option.map_eq_some_iff.mp h
    obtain ⟨more, hmore, _⟩ := Text.of_takeBytes hhead
    obtain ⟨a, hrest, ha⟩ := Text.trimStart_split rest
    have hlower : head.map Char.toLower = ['u', 'r', 'l', '='] := by
      have hsame : "url=".toList.map Char.toLower = ['u', 'r', 'l', '='] := by decide
      simpa [Text.eqIgnoreAsciiCase, hsame] using heq
    obtain ⟨u, _, rfl, hu, hlower⟩ := List.map_eq_cons_iff.mp hlower
    obtain ⟨r, _, rfl, hr, hlower⟩ := List.map_eq_cons_iff.mp hlower
    obtain ⟨l, _, rfl, hl, hlower⟩ := List.map_eq_cons_iff.mp hlower
    obtain ⟨e, _, rfl, he, hlower⟩ := List.map_eq_cons_iff.mp hlower
    rw [List.map_eq_nil_iff.mp hlower] at hmore
    have he' : e = '=' := of_toLower he (by decide)
    have hsolid : Text.Solid [u, r, l] := by
      constructor
      · rw [Text.headSolid_cons]
        by_contra hspace
        rw [Bool.not_eq_false] at hspace
        rw [toLower_whitespace hspace] at hu
        rw [hu] at hspace
        cases hspace
      · show Text.HeadSolid (l :: [r, u])
        rw [Text.headSolid_cons]
        by_contra hspace
        rw [Bool.not_eq_false] at hspace
        rw [toLower_whitespace hspace] at hl
        rw [hl] at hspace
        cases hspace
    refine ⟨a ++ [u, r, l], more, ?_, ?_⟩
    · rw [hrest, hmore, he']
      simp
    · have htrim := Text.trim_blanks ha (b := []) (fun c hc => nomatch hc) hsolid
      rw [List.append_nil] at htrim
      unfold isUrlKey Text.eqIgnoreAsciiCase
      rw [htrim]
      simp [hu, hr, hl]
  · cases h

/-- What a character added to the current entry leaves to show. -/
theorem Reached.snoc {next : Bool} (h : Reached done cur inUrl)
    (hcomma : ch = ',' → UrlOpen (done ++ cur))
    (hflag : next = true ↔ UrlOpen (done ++ cur ++ [ch])) :
    Reached done (cur ++ [ch]) next := by
  refine ⟨h.start, by rwa [← List.append_assoc], ?_⟩
  intro x y heq
  rcases List.eq_nil_or_concat y with rfl | ⟨y', last, rfl⟩
  · obtain ⟨rfl, hch⟩ := List.append_inj' heq rfl
    cases hch
    exact hcomma rfl
  · rw [List.concat_eq_append, ← List.cons_append, ← List.append_assoc] at heq
    obtain ⟨hcur, _⟩ := List.append_inj' heq rfl
    exact h.commas x y' hcur

theorem Reached.next (h : Reached done cur false) : Reached (done ++ cur ++ [',']) [] false := by
  refine ⟨.inr ⟨done ++ cur, rfl⟩, ?_, ?_⟩
  · rw [List.append_nil, urlOpen_snoc, ← h.flag]
    simp
  · intro x y heq
    simp at heq

theorem Reached.nextKey {key : Text} (hkey : isUrlKey key) (before : Text) :
    Reached (before ++ [',']) (key ++ ['=']) true := by
  refine ⟨.inr ⟨before, rfl⟩, ?_, ?_⟩
  · rw [iff_true_left rfl]
    exact ⟨before ++ [','], key, [], by simp, .inr ⟨before, rfl⟩, hkey, List.not_mem_nil⟩
  · intro x y heq
    have hmem : ',' ∈ key ++ ['='] := by rw [heq]; simp
    rw [List.mem_append] at hmem
    rcases hmem with hmem | hmem
    · exact absurd hmem (isUrlKey_no_comma hkey)
    · simp at hmem

/-- The tokenizer panics just on a value that cuts a character. -/
theorem tokens_none_iff (h : Reached done cur inUrl) :
    tokens cur inUrl rest = none ↔ Cuts (done ++ cur) rest := by
  match rest with
  | [] =>
    constructor
    · intro hnone
      cases hnone
    · rintro ⟨x, y, heq, _⟩
      simp at heq
  | ch :: rest =>
    -- a character that stays in the entry and is no comma
    have hstays (flag : Bool) (hne : ch ≠ ',')
        (hflag : flag = true ↔ UrlOpen (done ++ cur ++ [ch])) :
        tokens (cur ++ [ch]) flag rest = none ↔ Cuts (done ++ cur) (ch :: rest) := by
      rw [tokens_none_iff (h.snoc (fun hc => absurd hc hne) hflag), ← List.append_assoc, cuts_cons]
      exact (or_iff_right fun hc => hne hc.1).symm
    unfold tokens
    split
    · rename_i hc
      obtain ⟨rfl, hinUrl⟩ := hc
      rw [Bool.not_eq_true] at hinUrl
      subst hinUrl
      refine hstays _ (by decide) ?_
      rw [urlOpen_snoc, ← h.flag, h.key]
      simp
    split
    · rename_i hc
      obtain ⟨rfl, rfl⟩ := hc
      refine hstays _ (by decide) ?_
      rw [urlOpen_snoc]
      simp
    split
    · rename_i hc
      obtain ⟨rfl, rfl⟩ := hc
      have hopen := h.flag.mp rfl
      rw [cuts_cons]
      cases hlook : lookahead rest with
      | none => simp [hopen]
      | some next =>
        rw [or_iff_right (by simp)]
        cases next with
        | true =>
          obtain ⟨key, more, rfl, hkey⟩ := lookahead_true hlook
          have hshorter : more.length < (',' :: (key ++ '=' :: more)).length := by
            simp
            omega
          have hrest : key ++ '=' :: more = (key ++ ['=']) ++ more := by simp
          have hno : ',' ∉ key ++ ['='] := by
            rw [List.mem_append, not_or]
            exact ⟨isUrlKey_no_comma hkey, by simp⟩
          dsimp only [bind, Option.bind]
          rw [if_pos rfl, Option.map_eq_none_iff, tokens_key hkey,
            tokens_none_iff (Reached.nextKey hkey (done ++ cur)), hrest, cuts_append hno]
        | false =>
          dsimp only [bind, Option.bind]
          have hflag : true = true ↔ UrlOpen (done ++ cur ++ [',']) := by
            rw [urlOpen_snoc]
            simp [hopen]
          rw [if_neg (by simp), tokens_none_iff (h.snoc (fun _ => hopen) hflag),
            List.append_assoc]
    split
    · rename_i hc
      obtain ⟨rfl, hinUrl⟩ := hc
      rw [Bool.not_eq_true] at hinUrl
      subst hinUrl
      have hclosed : ¬UrlOpen (done ++ cur) := fun hopen => by
        have := h.flag.mpr hopen
        cases this
      rw [Option.map_eq_none_iff, tokens_none_iff h.next, List.append_nil, cuts_cons,
        or_iff_right fun hc => hclosed hc.2.1]
    · rename_i hequals hsemicolon hopenComma hcomma
      have hne : ch ≠ ',' := by
        rintro rfl
        cases inUrl
        · exact hcomma ⟨rfl, by simp⟩
        · exact hopenComma ⟨rfl, rfl⟩
      refine hstays _ hne ?_
      rw [urlOpen_snoc, ← h.flag]
      by_cases hs : ch = ';'
      · subst hs
        simpa using hsemicolon
      · by_cases he : ch = '='
        · subst he
          have : inUrl = true := by simpa using hequals
          simp [this]
        · simp [hs, he]
termination_by rest.length

/-- The look ahead cuts a character. -/
theorem lookahead_none_iff : lookahead rest = none ↔
    4 ≤ Text.utf8Len (Text.trimStart rest) ∧
      ∀ p q, Text.trimStart rest = p ++ q → Text.utf8Len p ≠ 4 := by
  unfold lookahead
  dsimp only
  split
  · rename_i hlong
    rw [Option.map_eq_none_iff, Text.takeBytes_eq_none]
    exact (and_iff_right hlong).symm
  · rename_i hshort
    simp [hshort]

theorem splitRtpInfoStreams_none_iff (value : Text) :
    splitRtpInfoStreams value = none ↔ Cuts [] value := by
  rw [splitRtpInfoStreams_eq, tokens_none_iff Reached.nil]
  rfl

end CheetahMedia.Rtsp.RtspRtpInfo
