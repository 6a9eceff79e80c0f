import CheetahMedia.Lib.Words
import CheetahMedia.Rtsp.RtpInfo.Total

namespace CheetahMedia.Rtsp.RtspRtpInfo
open Lib

/-- What may follow a `url` value in what is printed. -/
inductive Tail : Text → Prop
  | nil : Tail []
  | cons (c b d e : Char) (more : Text) (hc : c = ';' ∨ c = ',') (hb : b.utf8Size = 1)
      (hd : d.utf8Size = 1) (he : e.utf8Size = 1) : Tail (c :: b :: d :: e :: more)

theorem takeBytes_append_of_le (h : n ≤ Text.utf8Len y) (z : Text) :
    Text.takeBytes (y ++ z) n = Text.takeBytes y n := by
  fun_induction Text.takeBytes y n with
  | case1 t => rw [Text.takeBytes]
  | case2 n => simp at h
  | case3 c rest n hfits ih =>
    rw [Text.utf8Len_cons] at h
    rw [List.cons_append, Text.takeBytes, if_pos hfits, ih (by omega)]
  | case4 c rest n hlong => rw [List.cons_append, Text.takeBytes, if_neg hlong]

theorem takeBytes_append_add (y z : Text) (k : Nat) :
    Text.takeBytes (y ++ z) (Text.utf8Len y + k) = (Text.takeBytes z k).map (y ++ ·) := by
  induction y with
  | nil => simp
  | cons c y ih =>
    have hpos := c.utf8Size_pos
    obtain ⟨n, hn⟩ : ∃ n, Text.utf8Len (c :: y) + k = n + 1 :=
      ⟨c.utf8Size + Text.utf8Len y + k - 1, by simp; omega⟩
    have hrest : n + 1 - c.utf8Size = Text.utf8Len y + k := by
      rw [Text.utf8Len_cons] at hn
      omega
    rw [Text.utf8Len_cons] at hn
    rw [Text.utf8Len_cons, hn, List.cons_append, Text.takeBytes, if_pos (by omega), hrest, ih,
      Option.map_map]
    rfl

theorem Tail.takeBytes (h : Tail t) (hne : t ≠ []) (hk : k ≤ 4) (hpos : 0 < k) :
    ∃ c more, (c = ';' ∨ c = ',') ∧ Text.takeBytes t k = some (c :: more) := by
  cases h with
  | nil => exact absurd rfl hne
  | cons c b d e more hc hb hd he =>
    have hsize : c.utf8Size = 1 := by rcases hc with rfl | rfl <;> rfl
    have hfour : Text.takeBytes (c :: b :: d :: e :: more) 4 = some [c, b, d, e] := by
      simp [Text.takeBytes, hsize, hb, hd, he]
    have hcases : k = 1 ∨ k = 2 ∨ k = 3 ∨ k = 4 := by omega
    rcases hcases with rfl | rfl | rfl | rfl
    · exact ⟨c, [], hc, by simp [Text.takeBytes, hsize]⟩
    · exact ⟨c, [b], hc, by simp [Text.takeBytes, hsize, hb]⟩
    · exact ⟨c, [b, d], hc, by simp [Text.takeBytes, hsize, hb, hd]⟩
    · exact ⟨c, [b, d, e], hc, hfour⟩

/-- A separator is no part of `url=`. -/
theorem not_url_of_separator (hc : c = ';' ∨ c = ',') (hmem : c ∈ head) :
    Text.eqIgnoreAsciiCase head "url=".toList = false := by
  unfold Text.eqIgnoreAsciiCase
  rw [decide_eq_false_iff_not]
  intro heq
  have hin : c.toLower ∈ "url=".toList.map Char.toLower := heq ▸ List.mem_map_of_mem hmem
  rcases hc with rfl | rfl <;> exact absurd hin (by decide)

theorem Tail.headSolid (h : Tail t) : Text.HeadSolid t := by
  cases h with
  | nil =>
    intro c hc
    cases hc
  | cons c b d e more hc hb hd he =>
    rw [Text.headSolid_cons]
    rcases hc with rfl | rfl <;> rfl

/-- Behind a text that does not end with whitespace, the front trim stays inside that text. -/
theorem trimStart_append_of_last (hy : Text.HeadSolid y.reverse) (hne : y ≠ []) (w : Text) :
    Text.trimStart (y ++ w) = Text.trimStart y ++ w ∧ Text.trimStart y ≠ [] := by
  obtain ⟨a, hsplit, ha⟩ := Text.trimStart_split y
  have hrest : Text.trimStart y ≠ [] := by
    intro hnil
    rw [hnil, List.append_nil] at hsplit
    obtain ⟨y', last, rfl⟩ := List.eq_nil_or_concat y |>.resolve_left hne
    rw [List.concat_eq_append, List.reverse_append] at hy
    have hlast := Text.headSolid_cons.mp hy
    rw [ha last (by rw [← hsplit]; simp)] at hlast
    cases hlast
  refine ⟨?_, hrest⟩
  have hmove : y ++ w = a ++ (Text.trimStart y ++ w) := by rw [← List.append_assoc, ← hsplit]
  rw [hmove, Text.trimStart_blank ha,
    Text.trimStart_of_solid ((Text.trimStart_solid y).append hrest w)]

/-- Where the look ahead finds no entry behind a comma, it finds none when another text that may
be printed follows the value. -/
theorem lookahead_tail (h : lookahead (y ++ z) = some false) (hy : Text.HeadSolid y.reverse)
    (ht : Tail t) : lookahead (y ++ t) = some false := by
  by_cases hy' : y = []
  · rw [hy', List.nil_append]
    unfold lookahead
    dsimp only
    split
    · rename_i hlong
      rw [Text.trimStart_of_solid ht.headSolid] at hlong ⊢
      have hne : t ≠ [] := by
        rintro rfl
        simp at hlong
      obtain ⟨c, more, hc, htake⟩ := ht.takeBytes hne (Nat.le_refl 4) (by decide)
      rw [htake, Option.map_some, not_url_of_separator hc List.mem_cons_self]
    · rfl
  · obtain ⟨hz, hne⟩ := trimStart_append_of_last hy hy' z
    obtain ⟨ht', _⟩ := trimStart_append_of_last hy hy' t
    unfold lookahead at h ⊢
    dsimp only at h ⊢
    rw [hz] at h
    rw [ht']
    by_cases hlong : 4 ≤ Text.utf8Len (Text.trimStart y)
    · rw [if_pos (by rw [Text.utf8Len_append]; omega), takeBytes_append_of_le hlong] at h ⊢
      exact h
    · split
      · rename_i hfour
        rw [Text.utf8Len_append] at hfour
        have hnil : t ≠ [] := by
          rintro rfl
          simp at hfour
          omega
        obtain ⟨c, more, hc, htake⟩ := ht.takeBytes hnil
          (show 4 - Text.utf8Len (Text.trimStart y) ≤ 4 by omega) (by omega)
        have hsum : Text.utf8Len (Text.trimStart y) + (4 - Text.utf8Len (Text.trimStart y)) = 4 := by
          omega
        have happend := takeBytes_append_add (Text.trimStart y) t
          (4 - Text.utf8Len (Text.trimStart y))
        rw [hsum, htake] at happend
        rw [happend, Option.map_some, Option.map_some, not_url_of_separator hc (by simp)]
      · rfl

/-- The commas that the tokenizer leaves in an entry have no entry behind them. -/
theorem tokens_commas (h : tokens cur inUrl rest = some entries)
    (hcur : ∀ x y, cur = x ++ ',' :: y → lookahead (y ++ rest) = some false) :
    ∀ e ∈ entries, ∀ x y, e = x ++ ',' :: y → ∃ z, lookahead (y ++ z) = some false := by
  induction rest generalizing cur inUrl entries with
  | nil =>
    cases h
    intro e he x y heq
    split at he
    · cases he
    · rw [List.mem_singleton.mp he] at heq
      exact ⟨[], hcur x y heq⟩
  | cons ch rest ih =>
    -- the entry grows by a character that is no comma, or by one with no entry behind it
    have hgrown (hcomma : ch = ',' → lookahead rest = some false) :
        ∀ x y, cur ++ [ch] = x ++ ',' :: y → lookahead (y ++ rest) = some false := by
      intro x y heq
      rcases List.eq_nil_or_concat y with rfl | ⟨y', last, rfl⟩
      · obtain ⟨_, hch⟩ := List.append_inj' heq rfl
        cases hch
        exact hcomma rfl
      · rw [List.concat_eq_append, ← List.cons_append, ← List.append_assoc] at heq
        obtain ⟨hxy, hlast⟩ := List.append_inj' heq rfl
        cases hlast
        rw [List.concat_eq_append, List.append_assoc]
        exact hcur x y' hxy
    have hsplit (more : List Text) (hmore : tokens [] false rest = some more) :
        ∀ e ∈ cur :: more, ∀ x y, e = x ++ ',' :: y → ∃ z, lookahead (y ++ z) = some false := by
      intro e he x y heq
      rcases List.mem_cons.mp he with rfl | he
      · exact ⟨ch :: rest, hcur x y heq⟩
      · exact ih hmore (fun x y heq => by simp at heq) e he x y heq
    unfold tokens at h
    split at h
    · rename_i hc
      exact ih h (hgrown fun h' => by rw [hc.1] at h'; cases h')
    split at h
    · rename_i hc
      exact ih h (hgrown fun h' => by rw [hc.1] at h'; cases h')
    split at h
    · cases hlook : lookahead rest with
      | none =>
        rw [hlook] at h
        cases h
      | some next =>
        rw [hlook] at h
        dsimp only [bind, Option.bind] at h
        split at h
        · obtain ⟨more, hmore, rfl⟩ := Option.map_eq_some_iff.mp h
          exact hsplit more hmore
        · rename_i hnext
          rw [Bool.not_eq_true] at hnext
          exact ih h (hgrown fun _ => by rw [hlook, hnext])
    split at h
    · obtain ⟨more, hmore, rfl⟩ := Option.map_eq_some_iff.mp h
      exact hsplit more hmore
    · rename_i hopen hclosed
      refine ih h (hgrown fun h' => ?_)
      cases inUrl
      · exact absurd ⟨h', by simp⟩ hclosed
      · exact absurd ⟨h', rfl⟩ hopen

/-- A `url` value that the parser can return. -/
structure GoodUrl (url : Text) : Prop where
  nonempty : url ≠ []
  solid : Text.Solid url
  noSemicolon : ';' ∉ url
  commas : ∀ x y, url = x ++ ',' :: y → ∃ z, lookahead (y ++ z) = some false

structure GoodFields (fields : Fields) : Prop where
  url : ∀ u ∈ fields.url, GoodUrl u
  seq : ∀ n ∈ fields.seq, n < 2 ^ 16
  rtptime : ∀ n ∈ fields.rtptime, n < 2 ^ 32

structure GoodStream (s : RtspRtpInfoStream) : Prop where
  url : GoodUrl s.url
  seq : ∀ n ∈ s.seq, n < 2 ^ 16
  rtptime : ∀ n ∈ s.rtptime, n < 2 ^ 32

theorem parseNumber_lt (h : parseNumber parameter width value = .ok n) : n < 2 ^ width := by
  unfold parseNumber at h
  split at h
  · rename_i hn
    cases h
    exact Text.parseUnsigned_lt hn
  · cases h

/-- A part of an entry with the commas of the entry. -/
structure GoodPart (part : Text) : Prop where
  noSemicolon : ';' ∉ part
  commas : ∀ x y, part = x ++ ',' :: y → ∃ z, lookahead (y ++ z) = some false

/-- What surrounds a text counts as what follows its commas. -/
theorem commas_within
    (h : ∀ x y, a ++ t ++ b = x ++ ',' :: y → ∃ z, lookahead (y ++ z) = some false) :
    ∀ x y, t = x ++ ',' :: y → ∃ z, lookahead (y ++ z) = some false := by
  intro x y heq
  obtain ⟨z, hz⟩ := h (a ++ x) (y ++ b) (by rw [heq]; simp)
  exact ⟨b ++ z, by rwa [← List.append_assoc]⟩

theorem parsePart_good (hpart : GoodPart part) (hfields : GoodFields fields)
    (h : parsePart fields part = .ok after) : GoodFields after := by
  unfold parsePart at h
  dsimp only at h
  split at h
  · cases h
    exact hfields
  split at h
  · cases h
    exact hfields
  rename_i key rawValue hsplit
  obtain ⟨htrim, _⟩ := Text.of_splitOnce hsplit
  split at h
  · split at h
    · cases h
    · rename_i hne
      cases h
      refine ⟨?_, hfields.seq, hfields.rtptime⟩
      intro u hu
      cases hu
      obtain ⟨a, b, hp, _, _⟩ := Text.trim_split part
      obtain ⟨c, d, hr, _, _⟩ := Text.trim_split rawValue
      have hwhole : part = (a ++ key ++ '=' :: c) ++ Text.trim rawValue ++ (d ++ b) := by
        calc part = a ++ (key ++ '=' :: rawValue) ++ b := by rw [← htrim]; exact hp
          _ = a ++ (key ++ '=' :: (c ++ Text.trim rawValue ++ d)) ++ b := by rw [← hr]
          _ = _ := by simp
      refine ⟨hne, Text.trim_solid _, ?_, ?_⟩
      · intro hmem
        apply hpart.noSemicolon
        rw [hwhole]
        simp [hmem]
      · exact commas_within (hwhole ▸ hpart.commas)
  split at h
  · cases hn : parseNumber "seq" 16 (Text.trim rawValue) with
    | error e =>
      rw [hn] at h
      cases h
    | ok n =>
      rw [hn] at h
      cases h
      refine ⟨hfields.url, ?_, hfields.rtptime⟩
      intro m hm
      cases hm
      exact parseNumber_lt hn
  split at h
  · cases hn : parseNumber "rtptime" 32 (Text.trim rawValue) with
    | error e =>
      rw [hn] at h
      cases h
    | ok n =>
      rw [hn] at h
      cases h
      refine ⟨hfields.url, hfields.seq, ?_⟩
      intro m hm
      cases hm
      exact parseNumber_lt hn
  · cases h
    exact hfields

theorem foldlM_parsePart_good {parts : List Text} (hparts : ∀ part ∈ parts, GoodPart part)
    (hfields : GoodFields fields) (h : parts.foldlM parsePart fields = .ok after) :
    GoodFields after := by
  induction parts generalizing fields with
  | nil =>
    cases h
    exact hfields
  | cons part rest ih =>
    rw [List.foldlM_cons] at h
    cases hfirst : parsePart fields part with
    | error e =>
      rw [hfirst] at h
      cases h
    | ok next =>
      rw [hfirst] at h
      exact ih (fun p hp => hparts p (List.mem_cons_of_mem _ hp))
        (parsePart_good (hparts part List.mem_cons_self) hfields hfirst) h

theorem parseStream_good
    (hcommas : ∀ x y, value = x ++ ',' :: y → ∃ z, lookahead (y ++ z) = some false)
    (h : parseStream value = .ok s) : GoodStream s := by
  unfold parseStream at h
  cases hfold : (value.splitOn ';').foldlM parsePart
      { url := none, seq := none, rtptime := none } with
  | error e =>
    rw [hfold] at h
    cases h
  | ok fields =>
    rw [hfold] at h
    have hstart : GoodFields { url := none, seq := none, rtptime := none } := by
      constructor <;> intro x hx <;> cases hx
    have hgood := foldlM_parsePart_good (fun part hpart => ⟨Text.not_mem_of_mem_splitOn hpart, by
      obtain ⟨a, b, hab⟩ := Text.infix_of_mem_intercalate [';'] hpart
      rw [List.intercalate_splitOn] at hab
      exact commas_within (hab ▸ hcommas)⟩) hstart hfold
    dsimp only [bind, Except.bind] at h
    split at h
    · cases h
    · rename_i url hurl
      cases h
      exact ⟨hgood.url url hurl, hgood.seq, hgood.rtptime⟩

theorem parseEntry_good
    (hcommas : ∀ x y, entry = x ++ ',' :: y → ∃ z, lookahead (y ++ z) = some false)
    (h : parseEntry entry = .ok s) : GoodStream s := by
  unfold parseEntry at h
  dsimp only at h
  split at h
  · cases h
  · obtain ⟨a, b, ht, _, _⟩ := Text.trim_split entry
    exact parseStream_good (commas_within (ht ▸ hcommas)) h

theorem mapM_parseEntry_good {entries : List Text} {streams : List RtspRtpInfoStream}
    (hcommas : ∀ e ∈ entries, ∀ x y, e = x ++ ',' :: y → ∃ z, lookahead (y ++ z) = some false)
    (h : entries.mapM parseEntry = .ok streams) : ∀ s ∈ streams, GoodStream s := by
  induction entries generalizing streams with
  | nil =>
    cases h
    intro s hs
    cases hs
  | cons entry rest ih =>
    rw [List.mapM_cons] at h
    cases hfirst : parseEntry entry with
    | error e =>
      rw [hfirst] at h
      cases h
    | ok first =>
      cases hrest : rest.mapM parseEntry with
      | error e =>
        rw [hfirst, hrest] at h
        cases h
      | ok more =>
        rw [hfirst, hrest] at h
        cases h
        intro s hs
        rcases List.mem_cons.mp hs with rfl | hs
        · exact parseEntry_good (hcommas entry List.mem_cons_self) hfirst
        · exact ih (fun e he => hcommas e (List.mem_cons_of_mem _ he)) hrest s hs

/-- What the parser returns has entries, and every one can be printed. -/
theorem parse_good (h : parse header = some (.ok info)) :
    info.streams ≠ [] ∧ ∀ s ∈ info.streams, GoodStream s := by
  unfold parse at h
  dsimp only at h
  split at h
  · cases h
  · cases hentries : splitRtpInfoStreams (Text.trim header) with
    | none =>
      rw [hentries] at h
      cases h
    | some entries =>
      rw [hentries] at h
      rw [splitRtpInfoStreams_eq] at hentries
      have hcommas := tokens_commas hentries fun x y heq => by simp at heq
      dsimp only [bind, Option.bind] at h
      have h := Option.some.inj h
      cases hstreams : entries.mapM parseEntry with
      | error e =>
        rw [hstreams] at h
        cases h
      | ok streams =>
        rw [hstreams] at h
        dsimp only [Except.bind] at h
        split at h
        · cases h
        · rename_i hne
          cases h
          exact ⟨hne, mapM_parseEntry_good hcommas hstreams⟩

/-- The fields behind the `url` value. -/
def parameters (s : RtspRtpInfoStream) : List Text :=
  (s.seq.elim [] fun seq => ["seq=".toList ++ Text.decimal seq]) ++
    (s.rtptime.elim [] fun rtptime => ["rtptime=".toList ++ Text.decimal rtptime])

theorem displayStream_eq (s : RtspRtpInfoStream) :
    displayStream s = "url=".toList ++ s.url ++ (parameters s).flatMap (';' :: ·) := by
  unfold displayStream parameters
  cases s.seq <;> cases s.rtptime <;> simp

theorem parameters_no_comma (h : p ∈ parameters s) : ',' ∉ p ∧ ';' ∉ p := by
  have hcomma (n : Nat) : ',' ∉ Text.decimal n := Text.not_mem_decimal (by decide)
  have hsemicolon (n : Nat) : ';' ∉ Text.decimal n := Text.not_mem_decimal (by decide)
  unfold parameters at h
  rcases List.mem_append.mp h with h | h
  · cases hs : s.seq with
    | none =>
      rw [hs] at h
      cases h
    | some seq =>
      rw [hs] at h
      rw [List.mem_singleton.mp h]
      simp [hcomma, hsemicolon]
  · cases hs : s.rtptime with
    | none =>
      rw [hs] at h
      cases h
    | some rtptime =>
      rw [hs] at h
      rw [List.mem_singleton.mp h]
      simp [hcomma, hsemicolon]

theorem tail_parameters (s : RtspRtpInfoStream) (ht : Tail t) :
    Tail ((parameters s).flatMap (';' :: ·) ++ t) := by
  unfold parameters
  cases s.seq with
  | none =>
    cases s.rtptime with
    | none => exact ht
    | some rtptime => exact .cons ';' 'r' 't' 'p' _ (.inl rfl) rfl rfl rfl
  | some seq => exact .cons ';' 's' 'e' 'q' _ (.inl rfl) rfl rfl rfl

/-- A `url` value is passed up to its end. -/
theorem tokens_url (hsemicolon : ';' ∉ w)
    (hcommas : ∀ x y, w = x ++ ',' :: y → lookahead (y ++ more) = some false) :
    tokens cur true (w ++ more) = tokens (cur ++ w) true more := by
  induction w generalizing cur with
  | nil => rw [List.nil_append, List.append_nil]
  | cons c w ih =>
    rw [List.mem_cons, not_or] at hsemicolon
    have hrest : tokens (cur ++ [c]) true (w ++ more) = tokens (cur ++ [c] ++ w) true more :=
      ih hsemicolon.2 fun x y heq => hcommas (c :: x) y (by rw [heq]; rfl)
    rw [List.append_assoc, List.singleton_append] at hrest
    rw [List.cons_append, tokens, if_neg (by simp), if_neg fun h => hsemicolon.1 h.1.symm]
    split
    · rename_i hc
      rw [hcommas [] w (by rw [hc.1]; rfl)]
      exact hrest
    · rename_i hc
      rw [if_neg (by simp)]
      exact hrest

/-- Outside the values, what holds no comma is passed. -/
theorem tokens_closed (hkey : ∀ key, ¬isUrlKey (cur ++ key)) (hcomma : ',' ∉ w) :
    tokens cur false (w ++ more) = tokens (cur ++ w) false more := by
  induction w generalizing cur with
  | nil => rw [List.nil_append, List.append_nil]
  | cons c w ih =>
    rw [List.mem_cons, not_or] at hcomma
    have hrest : tokens (cur ++ [c]) false (w ++ more) = tokens (cur ++ [c] ++ w) false more :=
      ih (fun key => by rw [List.append_assoc]; exact hkey _) hcomma.2
    rw [List.append_assoc, List.singleton_append] at hrest
    have hclosed : isUrlKey cur = false := by
      have := hkey []
      rwa [List.append_nil, Bool.not_eq_true] at this
    rw [List.cons_append, tokens, hclosed]
    split
    · exact hrest
    · rw [if_neg (by simp), if_neg (by simp), if_neg fun h => hcomma.1 h.1.symm]
      exact hrest

/-- An entry that is printed is passed up to its end. -/
theorem tokens_displayStream (h : GoodStream s) (ht : Tail t) :
    ∃ flag, tokens [] false (displayStream s ++ t) = tokens (displayStream s) flag t := by
  have hkey : isUrlKey "url".toList := by decide
  have hurl : tokens "url=".toList true (s.url ++ ((parameters s).flatMap (';' :: ·) ++ t)) =
      tokens ("url=".toList ++ s.url) true ((parameters s).flatMap (';' :: ·) ++ t) := by
    refine tokens_url h.url.noSemicolon fun x y heq => ?_
    obtain ⟨z, hz⟩ := h.url.commas x y heq
    refine lookahead_tail hz ?_ (tail_parameters s ht)
    have hlast := h.url.solid.last
    rw [heq, List.reverse_append, List.reverse_cons, List.append_assoc] at hlast
    by_cases hy : y.reverse = []
    · rw [hy]
      intro c hc
      cases hc
    · exact Text.headSolid_of_append hlast hy
  have hstart : tokens [] false (displayStream s ++ t) =
      tokens ("url=".toList ++ s.url) true ((parameters s).flatMap (';' :: ·) ++ t) := by
    have := tokens_key hkey (s.url ++ ((parameters s).flatMap (';' :: ·) ++ t))
    rw [displayStream_eq, ← hurl, ← show "url".toList ++ ['='] = "url=".toList from rfl, ← this]
    simp
  rw [hstart, displayStream_eq]
  cases hp : parameters s with
  | nil => exact ⟨true, by simp⟩
  | cons first rest =>
    refine ⟨false, ?_⟩
    have hcomma : ',' ∉ first ++ rest.flatMap (';' :: ·) := by
      rw [List.mem_append, not_or]
      refine ⟨(parameters_no_comma (s := s) (by rw [hp]; simp)).1, ?_⟩
      intro hmem
      obtain ⟨p, hmem, hin⟩ := List.mem_flatMap.mp hmem
      rcases List.mem_cons.mp hin with heq | hin
      · cases heq
      · exact (parameters_no_comma (s := s) (by rw [hp]; exact List.mem_cons_of_mem _ hmem)).1 hin
    rw [List.flatMap_cons, List.cons_append, List.cons_append, tokens, if_neg (by simp),
      if_pos ⟨rfl, rfl⟩, tokens_closed ?_ hcomma]
    · simp
    · intro key hopen
      refine absurd ?_ (isUrlKey_no_semicolon hopen)
      simp

theorem solid_decimal (n : Nat) : Text.Solid (Text.decimal n) := by
  have hdigit (c : Char) (hc : c ∈ Text.decimal n) : Text.isWhitespace c = false :=
    Text.not_isWhitespace_of_isDigit (Text.isDigit_of_mem_decimal hc)
  constructor
  · exact fun c hc => hdigit c (List.mem_of_head? hc)
  · exact fun c hc => hdigit c (List.mem_reverse.mp (List.mem_of_head? hc))

/-- A key and a value with a solid start and a solid end. -/
theorem solid_part (key : Text) {value : Text} (hhead : Text.HeadSolid key) (hkey : key ≠ [])
    (hvalue : Text.Solid value) (hne : value ≠ []) : Text.Solid (key ++ value) := by
  refine ⟨hhead.append hkey value, ?_⟩
  rw [List.reverse_append]
  exact hvalue.last.append (by simpa using hne) _

theorem parsePart_url (h : GoodUrl url) (fields : Fields) :
    parsePart fields ("url=".toList ++ url) = .ok { fields with url := some url } := by
  have hsolid :=
    solid_part "url=".toList (Text.headSolid_cons.mpr rfl) (by decide) h.solid h.nonempty
  have hsplit : Text.splitOnce '=' ("url=".toList ++ url) = some ("url".toList, url) :=
    Text.splitOnce_append (a := "url".toList) (by decide) url
  have hkey : Text.trim "url".toList = "url".toList := by decide
  unfold parsePart
  dsimp only
  rw [Text.trim_of_solid hsolid, if_neg (by simp), hsplit]
  dsimp only
  rw [hkey, Text.trim_of_solid h.solid, if_pos (by decide), if_neg h.nonempty]

theorem parsePart_seq (h : n < 2 ^ 16) (fields : Fields) :
    parsePart fields ("seq=".toList ++ Text.decimal n) = .ok { fields with seq := some n } := by
  have hsolid := solid_part "seq=".toList (Text.headSolid_cons.mpr rfl) (by decide) (solid_decimal n)
    Text.decimal_ne_nil
  have hsplit : Text.splitOnce '=' ("seq=".toList ++ Text.decimal n) =
      some ("seq".toList, Text.decimal n) :=
    Text.splitOnce_append (a := "seq".toList) (by decide) _
  have hkey : Text.trim "seq".toList = "seq".toList := by decide
  unfold parsePart
  dsimp only
  rw [Text.trim_of_solid hsolid, if_neg (by simp), hsplit]
  dsimp only
  rw [hkey, Text.trim_of_solid (solid_decimal n), if_neg (by decide), if_pos (by decide),
    parseNumber, Text.parseUnsigned_decimal h]
  rfl

theorem parsePart_rtptime (h : n < 2 ^ 32) (fields : Fields) :
    parsePart fields ("rtptime=".toList ++ Text.decimal n) =
      .ok { fields with rtptime := some n } := by
  have hsolid := solid_part "rtptime=".toList (Text.headSolid_cons.mpr rfl) (by decide)
    (solid_decimal n) Text.decimal_ne_nil
  have hsplit : Text.splitOnce '=' ("rtptime=".toList ++ Text.decimal n) =
      some ("rtptime".toList, Text.decimal n) :=
    Text.splitOnce_append (a := "rtptime".toList) (by decide) _
  have hkey : Text.trim "rtptime".toList = "rtptime".toList := by decide
  unfold parsePart
  dsimp only
  rw [Text.trim_of_solid hsolid, if_neg (by simp), hsplit]
  dsimp only
  rw [hkey, Text.trim_of_solid (solid_decimal n), if_neg (by decide), if_neg (by decide),
    if_pos (by decide), parseNumber, Text.parseUnsigned_decimal h]
  rfl

theorem intercalate_cons (c : Char) (first : Text) (rest : List Text) :
    List.intercalate [c] (first :: rest) = first ++ rest.flatMap (c :: ·) := by
  induction rest generalizing first with
  | nil => simp
  | cons second rest ih =>
    rw [List.intercalate_cons_cons, ih]
    simp

theorem solid_displayStream (h : GoodStream s) : Text.Solid (displayStream s) := by
  have hurl := solid_part "url=".toList (Text.headSolid_cons.mpr rfl) (by decide) h.url.solid
    h.url.nonempty
  unfold displayStream
  cases s.seq with
  | none =>
    cases s.rtptime with
    | none => simpa using hurl
    | some rtptime =>
      have := solid_part ("url=".toList ++ s.url ++ ";rtptime=".toList)
        ((hurl.head).append (by simp) _) (by simp) (solid_decimal rtptime) Text.decimal_ne_nil
      simpa using this
  | some seq =>
    cases s.rtptime with
    | none =>
      have := solid_part ("url=".toList ++ s.url ++ ";seq=".toList)
        ((hurl.head).append (by simp) _) (by simp) (solid_decimal seq) Text.decimal_ne_nil
      simpa using this
    | some rtptime =>
      have := solid_part
        ("url=".toList ++ s.url ++ (";seq=".toList ++ Text.decimal seq) ++ ";rtptime=".toList)
        (((hurl.head).append (by simp) _).append (by simp) _) (by simp) (solid_decimal rtptime)
        Text.decimal_ne_nil
      simpa using this

theorem displayStream_ne_nil (s : RtspRtpInfoStream) : displayStream s ≠ [] := by
  rw [displayStream_eq]
  simp

theorem parseStream_displayStream (h : GoodStream s) : parseStream (displayStream s) = .ok s := by
  have hsplit : (displayStream s).splitOn ';' = ("url=".toList ++ s.url) :: parameters s := by
    rw [displayStream_eq, ← intercalate_cons]
    refine List.splitOn_intercalate ';' ?_ (by simp)
    intro p hp
    rcases List.mem_cons.mp hp with rfl | hp
    · have := h.url.noSemicolon
      simp [this]
    · exact (parameters_no_comma hp).2
  unfold parseStream
  rw [hsplit, List.foldlM_cons, parsePart_url h.url]
  unfold parameters
  obtain ⟨url, seq, rtptime⟩ := s
  cases seq with
  | none =>
    cases rtptime with
    | none => rfl
    | some rtptime =>
      have hn := parsePart_rtptime (h.rtptime rtptime rfl)
        { url := some url, seq := none, rtptime := none }
      simp only [Option.elim, List.nil_append, bind, Except.bind, List.foldlM_cons, hn]
      rfl
  | some seq =>
    have hseq := parsePart_seq (h.seq seq rfl) { url := some url, seq := none, rtptime := none }
    cases rtptime with
    | none =>
      simp only [Option.elim, List.append_nil, bind, Except.bind, List.foldlM_cons, hseq]
      rfl
    | some rtptime =>
      have hn := parsePart_rtptime (h.rtptime rtptime rfl)
        { url := some url, seq := some seq, rtptime := none }
      simp only [Option.elim, List.singleton_append, bind, Except.bind, List.foldlM_cons, hseq, hn]
      rfl

theorem parseEntry_displayStream (h : GoodStream s) : parseEntry (displayStream s) = .ok s := by
  unfold parseEntry
  rw [Text.trim_of_solid (solid_displayStream h)]
  dsimp only
  rw [if_neg (displayStream_ne_nil s), parseStream_displayStream h]

/-- The printed entries come apart again. -/
theorem tokens_display {streams : List RtspRtpInfoStream} (hne : streams ≠ [])
    (h : ∀ s ∈ streams, GoodStream s) :
    tokens [] false (List.intercalate [','] (streams.map displayStream)) =
      some (streams.map displayStream) := by
  induction streams with
  | nil => exact absurd rfl hne
  | cons s rest ih =>
    have hs := h s List.mem_cons_self
    cases rest with
    | nil =>
      obtain ⟨flag, htokens⟩ := tokens_displayStream hs .nil
      rw [List.append_nil] at htokens
      rw [List.map_cons, List.map_nil, List.intercalate_singleton, htokens, tokens,
        if_neg (displayStream_ne_nil s)]
    | cons next rest =>
      have hrest := ih (by simp) fun s hs => h s (List.mem_cons_of_mem _ hs)
      have hmore : ∃ more, List.intercalate [','] ((next :: rest).map displayStream) =
          "url=".toList ++ more := by
        rw [List.map_cons, intercalate_cons, displayStream_eq]
        exact ⟨_, by rw [List.append_assoc, List.append_assoc]⟩
      obtain ⟨more, hmore⟩ := hmore
      have htail : Tail (',' :: ("url=".toList ++ more)) :=
        .cons ',' 'u' 'r' 'l' _ (.inr rfl) rfl rfl rfl
      obtain ⟨flag, htokens⟩ := tokens_displayStream hs htail
      rw [List.map_cons, List.map_cons, List.intercalate_cons_cons,
        ← List.map_cons (f := displayStream), List.append_assoc, List.singleton_append, hmore, htokens]
      rw [hmore] at hrest
      have hlook : lookahead ("url=".toList ++ more) = some true := by
        unfold lookahead
        have hsolid : Text.HeadSolid ("url=".toList ++ more) := Text.headSolid_cons.mpr rfl
        have htake : Text.takeBytes ("url=".toList ++ more) 4 = some "url=".toList :=
          Text.takeBytes_append "url=".toList more
        have hlong : 4 ≤ Text.utf8Len ("url=".toList ++ more) := by
          rw [Text.utf8Len_append]
          exact Nat.le_add_right 4 _
        dsimp only
        rw [Text.trimStart_of_solid hsolid, if_pos hlong, htake]
        rfl
      rw [tokens, if_neg (by simp), if_neg (by simp), hlook, hrest]
      cases flag <;> rfl

theorem mapM_parseEntry_display {streams : List RtspRtpInfoStream}
    (h : ∀ s ∈ streams, GoodStream s) :
    (streams.map displayStream).mapM parseEntry = .ok streams := by
  induction streams with
  | nil => rfl
  | cons s rest ih =>
    rw [List.map_cons, List.mapM_cons, parseEntry_displayStream (h s List.mem_cons_self),
      ih fun s hs => h s (List.mem_cons_of_mem _ hs)]
    rfl

theorem solid_display {streams : List RtspRtpInfoStream} (hne : streams ≠ [])
    (h : ∀ s ∈ streams, GoodStream s) :
    Text.Solid (List.intercalate [','] (streams.map displayStream)) := by
  induction streams with
  | nil => exact absurd rfl hne
  | cons s rest ih =>
    have hs := solid_displayStream (h s List.mem_cons_self)
    cases rest with
    | nil => simpa using hs
    | cons next rest =>
      have hrest := ih (by simp) fun s hs => h s (List.mem_cons_of_mem _ hs)
      rw [List.map_cons, List.map_cons, List.intercalate_cons_cons,
        ← List.map_cons (f := displayStream)]
      refine solid_part _ (hs.head.append (displayStream_ne_nil s) _) (by simp) hrest ?_
      rw [List.map_cons, intercalate_cons]
      exact List.append_ne_nil_of_left_ne_nil (displayStream_ne_nil next) _

/-- What can be printed is read back. -/
theorem parse_display (hne : info.streams ≠ []) (h : ∀ s ∈ info.streams, GoodStream s) :
    parse (display info) = some (.ok info) := by
  have hsolid := solid_display hne h
  have hnil : List.intercalate [','] (info.streams.map displayStream) ≠ [] := by
    intro hnil
    have := tokens_display hne h
    rw [hnil] at this
    cases hs : info.streams with
    | nil => exact hne hs
    | cons s rest =>
      rw [hs] at this
      cases this
  unfold parse display
  dsimp only
  rw [Text.trim_of_solid hsolid, if_neg hnil, splitRtpInfoStreams_eq, tokens_display hne h]
  dsimp only [bind, Option.bind]
  rw [mapM_parseEntry_display h]
  dsimp only [Except.bind]
  rw [if_neg hne]

/-- A comma in a `url` value of the header has a character across the fourth byte behind it,
whitespace aside. -/
def CutsCharacter (header : Text) : Prop :=
  ∃ x y, Text.trim header = x ++ ',' :: y ∧ UrlOpen x ∧ 4 ≤ Text.utf8Len (Text.trimStart y) ∧
    ∀ p q, Text.trimStart y = p ++ q → Text.utf8Len p ≠ 4

theorem parse_none_iff (header : Text) : parse header = none ↔ CutsCharacter header := by
  have hcuts : Cuts [] (Text.trim header) ↔ CutsCharacter header := by
    unfold Cuts CutsCharacter
    simp only [lookahead_none_iff, List.nil_append]
  unfold parse
  dsimp only
  split
  · rename_i hempty
    rw [← hcuts, hempty]
    constructor
    · intro h
      cases h
    · rintro ⟨x, y, heq, _⟩
      simp at heq
  · rw [← hcuts, ← splitRtpInfoStreams_none_iff]
    cases splitRtpInfoStreams (Text.trim header) with
    | none => exact iff_of_true rfl rfl
    | some entries => exact iff_of_false (by simp) (by simp)

/-- The parser is total, and reads back what it returned as it was, on just the headers whose
commas in `url` values cut no character. -/
theorem parse_total_iff (header : Text) :
    (parse header ≠ none ∧
      ∀ info, parse header = some (.ok info) → parse (display info) = some (.ok info)) ↔
      ¬CutsCharacter header := by
  rw [← parse_none_iff]
  refine ⟨fun h => h.1, fun h => ⟨h, fun info hinfo => ?_⟩⟩
  obtain ⟨hne, hgood⟩ := parse_good hinfo
  exact parse_display hne hgood

/-- The fourth byte behind the comma is in the middle of a letter. -/
theorem parse_panics : ¬∀ header : Text, parse header ≠ none ∧
    ∀ info, parse header = some (.ok info) → parse (display info) = some (.ok info) := by
  intro h
  exact (h "url=a,bcdé".toList).1 (by decide +kernel)

end CheetahMedia.Rtsp.RtspRtpInfo
