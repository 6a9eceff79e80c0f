import CheetahMedia.Rtsp.Message

namespace CheetahMedia.Rtsp
open Lib

/-- There is no part of a line end in it. -/
def Clean (t : Text) : Prop := '\r' ∉ t ∧ '\n' ∉ t

instance (t : Text) : Decidable (Clean t) := inferInstanceAs (Decidable (_ ∧ _))

def joinLines : Text → List Text → Text
  | l, [] => l
  | l, next :: ls => l ++ (CRLF ++ joinLines next ls)

/-- Every line ends, and the block with an empty one. -/
def headerBlock (l : Text) (ls : List Text) : Text := joinLines l ls ++ (CRLF ++ CRLF)

theorem splitCrlf_joinLines (hl : '\r' ∉ l) (hls : ∀ x ∈ ls, '\r' ∉ x) :
    Text.splitCrlf (joinLines l ls) = l :: ls := by
  induction ls generalizing l with
  | nil => exact Text.splitCrlf_line hl
  | cons x xs ih =>
    rw [joinLines, CRLF, List.cons_append, List.cons_append, List.nil_append,
      Text.splitCrlf_append hl, ih (hls x List.mem_cons_self)
        fun y hy => hls y (List.mem_cons_of_mem _ hy)]

theorem splitCrlf_headerBlock (hl : '\r' ∉ l) (hls : ∀ x ∈ ls, '\r' ∉ x) :
    Text.splitCrlf (headerBlock l ls) = l :: ls ++ [[], []] := by
  induction ls generalizing l with
  | nil =>
    rw [headerBlock, joinLines, CRLF]
    exact Text.splitCrlf_append hl _
  | cons x xs ih =>
    have hrest := ih (hls x List.mem_cons_self) fun y hy => hls y (List.mem_cons_of_mem _ hy)
    rw [headerBlock, joinLines, List.append_assoc, List.append_assoc, ← headerBlock, CRLF]
    rw [List.cons_append, List.cons_append, List.nil_append, Text.splitCrlf_append hl, hrest]
    rfl

theorem findHeaderEnd_skip (h : 0x0D ∉ bytes) (rest : Bytes) :
    findHeaderEnd (bytes ++ rest) = (findHeaderEnd rest).map (bytes.length + ·) := by
  induction bytes with
  | nil => simp
  | cons b bytes ih =>
    rw [List.mem_cons, not_or] at h
    have hne : ((b :: bytes) ++ rest).take 4 ≠ [0x0D, 0x0A, 0x0D, 0x0A] := by
      rw [List.cons_append, List.take_succ_cons]
      intro heq
      exact h.1 (List.cons.inj heq).1.symm
    rw [List.cons_append] at hne ⊢
    rw [findHeaderEnd, if_neg hne, ih h.2, Option.map_map]
    congr 1
    funext n
    simp only [Function.comp_apply, List.length_cons]
    omega

theorem findHeaderEnd_next (h : b ≠ 0x0D) (rest : Bytes) :
    findHeaderEnd (0x0D :: 0x0A :: b :: rest) = (findHeaderEnd (b :: rest)).map (2 + ·) := by
  have hfirst : (0x0D :: 0x0A :: b :: rest).take 4 ≠ [0x0D, 0x0A, 0x0D, 0x0A] := by
    rw [List.take_succ_cons, List.take_succ_cons, List.take_succ_cons]
    intro heq
    exact h (List.cons.inj (List.cons.inj (List.cons.inj heq).2).2).1
  have hsecond : (0x0A :: b :: rest).take 4 ≠ [0x0D, 0x0A, 0x0D, 0x0A] := by
    rw [List.take_succ_cons]
    intro heq
    exact absurd (List.cons.inj heq).1 (by decide)
  rw [findHeaderEnd, if_neg hfirst, findHeaderEnd, if_neg hsecond, Option.map_map]
  congr 1
  funext n
  simp only [Function.comp_apply]
  omega

theorem Clean.bytes (h : Clean t) : 0x0D ∉ Text.toBytes t :=
  Text.not_mem_toBytes (by decide) h.1

theorem crlf_bytes : Text.toBytes CRLF = [0x0D, 0x0A] := by decide

/-- A line that is not empty starts with a byte that starts no line end. -/
theorem headerBlock_bytes (hx : Clean x) (hne : x ≠ []) (xs : List Text) (rest : Bytes) :
    ∃ b tail, b ≠ 0x0D ∧ Text.toBytes (headerBlock x xs) ++ rest = b :: tail := by
  obtain ⟨more, hmore⟩ : ∃ more, headerBlock x xs = x ++ more := by
    cases xs with
    | nil => exact ⟨_, rfl⟩
    | cons y ys => exact ⟨_, by rw [headerBlock, joinLines, List.append_assoc]⟩
  obtain ⟨b, tail, hb⟩ := List.exists_cons_of_ne_nil (Text.toBytes_ne_nil hne)
  refine ⟨b, tail ++ Text.toBytes more ++ rest, fun heq => ?_, ?_⟩
  · have hbytes := hx.bytes
    rw [hb, heq] at hbytes
    exact hbytes List.mem_cons_self
  · rw [hmore, Text.toBytes_append, hb]
    rfl

theorem findHeaderEnd_headerBlock (hclean : ∀ x ∈ l :: ls, Clean x) (hne : ∀ x ∈ ls, x ≠ [])
    (rest : Bytes) :
    findHeaderEnd (Text.toBytes (headerBlock l ls) ++ rest) =
      some (Text.toBytes (joinLines l ls)).length := by
  induction ls generalizing l with
  | nil =>
    rw [headerBlock, joinLines, Text.toBytes_append, List.append_assoc,
      findHeaderEnd_skip (hclean l List.mem_cons_self).bytes, Text.toBytes_append, crlf_bytes]
    rfl
  | cons x xs ih =>
    have hx := hclean x (by simp)
    have hrest := ih (fun y hy => hclean y (List.mem_cons_of_mem _ hy))
      fun y hy => hne y (List.mem_cons_of_mem _ hy)
    rw [headerBlock, joinLines, List.append_assoc, List.append_assoc, ← headerBlock,
      Text.toBytes_append, List.append_assoc,
      findHeaderEnd_skip (hclean l List.mem_cons_self).bytes, Text.toBytes_append, crlf_bytes]
    obtain ⟨b, tail, hb, htail⟩ := headerBlock_bytes hx (hne x List.mem_cons_self) xs rest
    rw [htail] at hrest
    rw [List.append_assoc, htail, List.cons_append, List.cons_append, List.nil_append,
      findHeaderEnd_next hb, hrest, Option.map_some, Option.map_some]
    simp only [Text.toBytes_append, crlf_bytes, List.length_append, List.length_cons,
      List.length_nil]

theorem contentLengthOf_append_empty (lines : List Text) :
    contentLengthOf (lines ++ [[], []]) = contentLengthOf lines := by
  induction lines with
  | nil => rfl
  | cons line rest ih =>
    rw [List.cons_append, contentLengthOf, contentLengthOf, ih]

/-- What the lines of a header block come to, with what follows it. -/
theorem tryParseMessage_headerBlock (limits : RtspMessageLimits)
    (hclean : ∀ x ∈ l :: ls, Clean x) (hne : ∀ x ∈ ls, x ≠ []) (rest : Bytes) :
    tryParseMessage limits (Text.toBytes (headerBlock l ls) ++ rest) =
      match contentLengthOf (l :: ls) with
      | .error e => (.error e, Text.toBytes (headerBlock l ls) ++ rest)
      | .ok n =>
        if n > limits.maxBodySize then (.error (.bodySizeLimitExceeded limits.maxBodySize n),
          Text.toBytes (headerBlock l ls) ++ rest)
        else if (Text.toBytes (headerBlock l ls)).length + n > USIZE_MAX then
          (.error (.bufferSizeLimitExceeded limits.maxBufferSize USIZE_MAX),
            Text.toBytes (headerBlock l ls) ++ rest)
        else if rest.length < n then (.ok none, Text.toBytes (headerBlock l ls) ++ rest)
        else ((parseLines limits l ls (rest.take n)).map some, rest.drop n) := by
  have hcr : ∀ x ∈ ls, '\r' ∉ x := fun x hx => (hclean x (List.mem_cons_of_mem _ hx)).1
  have hl : '\r' ∉ l := (hclean l List.mem_cons_self).1
  have hlen : (Text.toBytes (joinLines l ls)).length + 4 =
      (Text.toBytes (headerBlock l ls)).length := by
    rw [headerBlock, Text.toBytes_append, Text.toBytes_append, crlf_bytes]
    simp
  have hlength : parseContentLength (Text.toBytes (headerBlock l ls)) =
      contentLengthOf (l :: ls) := by
    rw [parseContentLength, Text.fromUtf8_toBytes]
    dsimp only
    rw [splitCrlf_headerBlock hl hcr, contentLengthOf_append_empty]
  have hparse : ∀ n ≤ rest.length, parseRtspMessage limits
      ((Text.toBytes (headerBlock l ls) ++ rest).take ((Text.toBytes (headerBlock l ls)).length + n)) =
        parseLines limits l ls (rest.take n) := by
    intro n hn
    rw [List.take_length_add_append, parseRtspMessage, findHeaderEnd_headerBlock hclean hne]
    dsimp only
    rw [hlen, List.drop_left]
    have htake : (Text.toBytes (headerBlock l ls) ++ rest.take n).take
        (Text.toBytes (joinLines l ls)).length = Text.toBytes (joinLines l ls) := by
      rw [headerBlock, Text.toBytes_append, List.append_assoc, List.take_left]
    rw [htake, Text.fromUtf8_toBytes]
    dsimp only
    rw [splitCrlf_joinLines hl hcr]
  unfold tryParseMessage
  rw [findHeaderEnd_headerBlock hclean hne]
  dsimp only
  rw [hlen, List.take_left, hlength]
  cases contentLengthOf (l :: ls) with
  | error e => rfl
  | ok n =>
    dsimp only
    split
    · rfl
    · split
      · rfl
      · by_cases hshort : rest.length < n
        · rw [if_pos hshort, if_pos (by rw [List.length_append]; omega)]
        · rw [if_neg hshort, if_neg (by rw [List.length_append]; omega), hparse n (by omega),
            List.drop_length_add_append]

/-- What the encoder takes for a header. -/
structure RtspHeader.Valid (h : RtspHeader) : Prop where
  nonempty : h.name ≠ []
  name : Clean h.name
  colon : ':' ∉ h.name
  value : Clean h.value

/-- What the decoder makes of a header. -/
def RtspHeader.trimmed (h : RtspHeader) : RtspHeader :=
  { name := Text.trim h.name, value := Text.trim h.value }

def headerLines (headers : List RtspHeader) : List Text := headers.map RtspHeader.line

theorem Clean.append (ha : Clean a) (hb : Clean b) : Clean (a ++ b) := by
  simp_all [Clean]

namespace RtspHeader.Valid
variable {h : RtspHeader}

theorem line_clean (hv : h.Valid) : Clean h.line :=
  (hv.name.append (by decide)).append hv.value

theorem line_ne_nil : h.line ≠ [] := by
  simp [RtspHeader.line]

theorem split (hv : h.Valid) :
    splitHeaderLine h.line = some (h.trimmed.name, h.trimmed.value) := by
  have hline : h.line = h.name ++ ':' :: (' ' :: h.value) := by
    simp [RtspHeader.line]
  rw [splitHeaderLine, hline, Text.splitOnce_append hv.colon]
  rfl

end RtspHeader.Valid

theorem clean_decimal : Clean (Text.decimal n) :=
  ⟨Text.not_mem_decimal (by decide), Text.not_mem_decimal (by decide)⟩

theorem contentLengthHeader_valid (body : Bytes) : (contentLengthHeader body).Valid where
  nonempty := show "Content-Length".toList ≠ [] by decide
  name := show Clean "Content-Length".toList by decide
  colon := show ':' ∉ "Content-Length".toList by decide
  value := clean_decimal

/-- Within the limits on headers, they are read back as they are trimmed. -/
theorem parseHeaders_lines {limits : RtspMessageLimits} {headers : List RtspHeader}
    (hvalid : ∀ h ∈ headers, h.Valid) (hcount : count + headers.length ≤ limits.maxHeadersCount)
    (hsize : ∀ h ∈ headers, (Text.toBytes h.line).length ≤ limits.maxHeaderLineSize) :
    parseHeaders limits count (headerLines headers) = .ok (headers.map RtspHeader.trimmed) := by
  induction headers generalizing count with
  | nil => rfl
  | cons h rest ih =>
    rw [List.length_cons] at hcount
    have hh := hvalid h List.mem_cons_self
    have hlong := hsize h List.mem_cons_self
    rw [headerLines, List.map_cons, parseHeaders, if_neg RtspHeader.Valid.line_ne_nil,
      if_neg (by omega), if_neg (by omega), hh.split]
    dsimp only
    rw [← headerLines, ih (fun x hx => hvalid x (List.mem_cons_of_mem _ hx)) (by omega)
      fun x hx => hsize x (List.mem_cons_of_mem _ hx)]
    rfl

theorem joinLines_crlf (l : Text) (ls : List Text) :
    joinLines l ls ++ CRLF = l ++ CRLF ++ ls.flatMap (· ++ CRLF) := by
  induction ls generalizing l with
  | nil => simp [joinLines]
  | cons x xs ih => rw [joinLines, List.append_assoc, List.append_assoc, ih, List.flatMap_cons,
      List.append_assoc, List.append_assoc]

theorem exists_of_bind {x : Except RtspCoreError α} {f : α → Except RtspCoreError β}
    (h : x >>= f = .ok b) : ∃ a, x = .ok a ∧ f a = .ok b := by
  cases x with
  | error e => cases h
  | ok a => exact ⟨a, rfl, h⟩

theorem validateStartLineField_ok (h : validateStartLineField value field = .ok u) :
    value ≠ [] ∧ Clean value := by
  unfold validateStartLineField at h
  split at h
  · cases h
  · rename_i hvalid
    obtain ⟨hne, hclean⟩ := not_or.mp hvalid
    exact ⟨hne, not_or.mp hclean⟩

theorem validateReasonPhrase_ok (h : validateReasonPhrase value = .ok u) : Clean value := by
  unfold validateReasonPhrase at h
  split at h
  · cases h
  · rename_i hvalid
    exact not_or.mp hvalid

theorem validate_header {h : RtspHeader} (hname : validateHeaderName h.name = .ok u)
    (hvalue : validateHeaderValue h.value = .ok v) : h.Valid := by
  unfold validateHeaderName at hname
  unfold validateHeaderValue at hvalue
  split at hname
  · cases hname
  · rename_i hn
    split at hvalue
    · cases hvalue
    · rename_i hv
      obtain ⟨hne, hn⟩ := not_or.mp hn
      obtain ⟨hcr, hn⟩ := not_or.mp hn
      obtain ⟨hlf, hcolon⟩ := not_or.mp hn
      exact ⟨hne, ⟨hcr, hlf⟩, hcolon, not_or.mp hv⟩

theorem encodeHeaders_ok (h : encodeHeaders headers = .ok text) :
    (∀ x ∈ headers, x.Valid) ∧ text = (headerLines headers).flatMap (· ++ CRLF) := by
  induction headers generalizing text with
  | nil =>
    cases h
    exact ⟨by simp, rfl⟩
  | cons x rest ih =>
    obtain ⟨_, hname, h⟩ := exists_of_bind h
    obtain ⟨_, hvalue, h⟩ := exists_of_bind h
    obtain ⟨more, hrest, h⟩ := exists_of_bind h
    cases h
    obtain ⟨hvalid, rfl⟩ := ih hrest
    refine ⟨fun y hy => ?_, by simp [headerLines]⟩
    rcases List.mem_cons.mp hy with rfl | hy
    · exact validate_header hname hvalue
    · exact hvalid y hy

end CheetahMedia.Rtsp
