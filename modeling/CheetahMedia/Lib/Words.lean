import Mathlib.Data.List.Basic
import CheetahMedia.Lib.Trim

namespace CheetahMedia.Lib.Text

/-- The lines of a text; a line end is a line feed, with a carriage return before it or not. -/
def lines : Text → List Text
  | [] => []
  | '\n' :: rest => [] :: lines rest
  | '\r' :: '\n' :: rest => [] :: lines rest
  | c :: rest =>
    match lines rest with
    | [] => [[c]]
    | line :: more => (c :: line) :: more

/-- Every line with its end. -/
def unlines (ls : List Text) : Text := ls.flatMap (· ++ ['\r', '\n'])

/-- A line with a line feed at its end. -/
def newline (l : Text) : Text := l ++ ['\n']

/-- Words with a space between them. -/
def unwords (ws : List Text) : Text := [' '].intercalate ws

def trimEnd (t : Text) : Text := (trimStart t.reverse).reverse

/-- The text ends with no whitespace. -/
def TailSolid (t : Text) : Prop := HeadSolid t.reverse

instance (t : Text) : Decidable (TailSolid t) :=
  Option.decidableForallMem (p := fun c => isWhitespace c = false) t.reverse.head?

/-- A part of a text that is set off by whitespace. -/
structure Word (w : Text) : Prop where
  ne_nil : w ≠ []
  solid : ∀ c ∈ w, isWhitespace c = false

theorem lines_cons (hc : c ≠ '\n') (hr : c = '\r' → ∀ more, rest ≠ '\n' :: more) :
    lines (c :: rest) = match lines rest with
      | [] => [[c]]
      | line :: more => (c :: line) :: more := by
  rw [lines]
  · exact hc
  · rintro more rfl rfl
    exact hr rfl more rfl

theorem lines_append (hl : '\n' ∉ l) (rest : Text) :
    lines (l ++ '\r' :: '\n' :: rest) = l :: lines rest := by
  induction l with
  | nil => rw [List.nil_append, lines]
  | cons c l ih =>
    rw [List.mem_cons, not_or] at hl
    rw [List.cons_append, lines_cons (Ne.symm hl.1), ih hl.2]
    rintro - more heq
    cases l with
    | nil => cases heq
    | cons d l =>
      rw [List.cons_append] at heq
      exact hl.2 (by rw [(List.cons.inj heq).1]; exact List.mem_cons_self)

/-- What is written line by line is read line by line. -/
theorem lines_unlines (h : ∀ l ∈ ls, '\n' ∉ l) : lines (unlines ls) = ls := by
  induction ls with
  | nil => rfl
  | cons l ls ih =>
    obtain ⟨hl, hls⟩ := List.forall_mem_cons.mp h
    have hcons : unlines (l :: ls) = l ++ '\r' :: '\n' :: unlines ls := by simp [unlines]
    rw [hcons, lines_append hl, ih hls]

theorem lines_newline (hl : '\n' ∉ l) (hr : '\r' ∉ l) (rest : Text) :
    lines (newline l ++ rest) = l :: lines rest := by
  rw [newline, List.append_assoc, List.singleton_append]
  induction l with
  | nil => rw [List.nil_append, lines]
  | cons c l ih =>
    rw [List.mem_cons, not_or] at hl hr
    rw [List.cons_append, lines_cons (Ne.symm hl.1) fun heq => absurd heq.symm hr.1, ih hl.2 hr.2]

/-- Lines that end with a line feed each. -/
theorem lines_newlines (h : ∀ l ∈ ls, '\n' ∉ l ∧ '\r' ∉ l) : lines (ls.flatMap newline) = ls := by
  induction ls with
  | nil => rfl
  | cons l ls ih =>
    obtain ⟨hl, hls⟩ := List.forall_mem_cons.mp h
    rw [List.flatMap_cons, lines_newline hl.1 hl.2, ih hls]

theorem not_newline_of_mem_lines (h : l ∈ lines t) : '\n' ∉ l := by
  induction t using lines.induct generalizing l with
  | case1 => cases h
  | case2 rest ih =>
    rw [lines] at h
    rcases List.mem_cons.mp h with rfl | h
    · exact List.not_mem_nil
    · exact ih h
  | case3 rest ih =>
    rw [lines] at h
    rcases List.mem_cons.mp h with rfl | h
    · exact List.not_mem_nil
    · exact ih h
  | case4 c rest hc hr hnil ih =>
    rw [lines_cons hc fun heq more hmore => hr more heq hmore, hnil] at h
    rw [List.mem_singleton.mp h]
    simpa using Ne.symm hc
  | case5 c rest hc hr line more hlines ih =>
    rw [lines_cons hc fun heq more hmore => hr more heq hmore, hlines] at h
    rw [hlines] at ih
    rcases List.mem_cons.mp h with rfl | h
    · rw [List.mem_cons, not_or]
      exact ⟨Ne.symm hc, ih List.mem_cons_self⟩
    · exact ih (List.mem_cons_of_mem _ h)

theorem word_of_mem_splitWhitespace (h : w ∈ splitWhitespace t) : Word w := by
  obtain ⟨hmem, hne⟩ := List.mem_filter.mp h
  refine ⟨fun hnil => ?_, not_sep_of_mem_splitOnP hmem⟩
  rw [hnil] at hne
  cases hne

theorem unwords_cons (w : Text) (hws : ws ≠ []) : unwords (w :: ws) = w ++ ' ' :: unwords ws := by
  obtain ⟨v, ws, rfl⟩ := List.exists_cons_of_ne_nil hws
  simp [unwords, List.intercalate]

@[simp] theorem unwords_singleton (w : Text) : unwords [w] = w := by
  simp [unwords, List.intercalate]

/-- Words stay apart. -/
theorem splitWhitespace_unwords (h : ∀ w ∈ ws, Word w) : splitWhitespace (unwords ws) = ws := by
  have hspace : isWhitespace ' ' = true := by decide
  induction ws with
  | nil => rfl
  | cons w ws ih =>
    obtain ⟨hw, hws⟩ := List.forall_mem_cons.mp h
    by_cases hlast : ws = []
    · rw [hlast, unwords_singleton, splitWhitespace, List.splitOnP_eq_singleton hw.solid]
      simp [hw.ne_nil]
    · have hrest := ih hws
      rw [splitWhitespace] at hrest
      rw [unwords_cons w hlast, splitWhitespace,
        List.splitOnP_append_cons_of_forall_mem hw.solid ' ' hspace, List.filter_cons, hrest]
      simp [hw.ne_nil]

theorem not_mem_of_mem_splitOn {t part : Text} (h : part ∈ t.splitOn c) : c ∉ part := by
  rw [List.splitOn_eq_splitOnP] at h
  intro hmem
  have := not_sep_of_mem_splitOnP h c hmem
  simp at this

theorem infix_of_mem_intercalate (sep : Text) (h : part ∈ parts) :
    ∃ a b, sep.intercalate parts = a ++ part ++ b := by
  induction parts with
  | nil => cases h
  | cons first rest ih =>
    cases rest with
    | nil =>
      rw [List.mem_singleton.mp h]
      exact ⟨[], [], by simp⟩
    | cons second rest =>
      rw [List.intercalate_cons_cons]
      rcases List.mem_cons.mp h with rfl | h
      · exact ⟨[], sep ++ sep.intercalate (second :: rest), by simp⟩
      · obtain ⟨a, b, hab⟩ := ih h
        exact ⟨first ++ sep ++ a, b, by rw [hab]; simp⟩

theorem mem_of_mem_splitOn {t part : Text} (hpart : part ∈ t.splitOn c) (h : x ∈ part) : x ∈ t := by
  obtain ⟨a, b, hab⟩ := infix_of_mem_intercalate [c] hpart
  rw [List.intercalate_splitOn] at hab
  rw [hab]
  simp [h]

theorem splitOn_of_not_mem {t : Text} (h : c ∉ t) : t.splitOn c = [t] := by
  rw [List.splitOn_eq_splitOnP]
  refine List.splitOnP_eq_singleton fun x hx => ?_
  rw [beq_eq_false_iff_ne]
  rintro rfl
  exact h hx

theorem splitOn_append_cons {a : Text} (h : c ∉ a) (b : Text) :
    (a ++ c :: b).splitOn c = a :: b.splitOn c := by
  rw [List.splitOn_eq_splitOnP, List.splitOn_eq_splitOnP]
  refine List.splitOnP_append_cons_of_forall_mem (fun x hx => ?_) c (by simp) b
  rw [beq_eq_false_iff_ne]
  rintro rfl
  exact h hx

theorem splitOnce_eq_none_iff : splitOnce c t = none ↔ c ∉ t := by
  refine ⟨fun h hmem => ?_, fun h => ?_⟩
  · obtain ⟨a, b, ht, ha⟩ := List.eq_append_cons_of_mem hmem
    rw [ht, splitOnce_append ha] at h
    cases h
  · cases hs : splitOnce c t with
    | none => rfl
    | some parts =>
      obtain ⟨ht, -⟩ := of_splitOnce (a := parts.1) (b := parts.2) hs
      exact absurd (by rw [ht]; simp) h

theorem tailSolid_nil : TailSolid [] := fun c hc => by cases hc

theorem TailSolid.append (ha : TailSolid a) (hb : TailSolid b) : TailSolid (a ++ b) := by
  unfold TailSolid
  rw [List.reverse_append]
  by_cases hne : b = []
  · rw [hne]
    exact ha
  · exact HeadSolid.append hb (by simpa using hne) _

/-- What is behind decides. -/
theorem TailSolid.behind (a : Text) (hb : TailSolid b) (hne : b ≠ []) : TailSolid (a ++ b) := by
  unfold TailSolid
  rw [List.reverse_append]
  exact HeadSolid.append hb (by simpa using hne) _

theorem tailSolid_of_solid (h : ∀ c ∈ t, isWhitespace c = false) : TailSolid t :=
  fun c hc => h c (List.mem_reverse.mp (List.mem_of_mem_head? hc))

theorem tailSolid_of_append (h : TailSolid (a ++ b)) : TailSolid b := by
  by_cases hne : b = []
  · rw [hne]
    exact tailSolid_nil
  · unfold TailSolid at h
    rw [List.reverse_append] at h
    exact headSolid_of_append h (by simpa using hne)

theorem tailSolid_unwords (h : ∀ w ∈ ws, Word w) : TailSolid (unwords ws) := by
  induction ws with
  | nil => exact tailSolid_nil
  | cons w ws ih =>
    obtain ⟨hw, hws⟩ := List.forall_mem_cons.mp h
    by_cases hlast : ws = []
    · rw [hlast, unwords_singleton]
      exact tailSolid_of_solid hw.solid
    · obtain ⟨v, ws, rfl⟩ := List.exists_cons_of_ne_nil hlast
      have hne : unwords (v :: ws) ≠ [] := fun hnil => by
        have hsplit := splitWhitespace_unwords hws
        rw [hnil] at hsplit
        cases hsplit
      rw [unwords_cons w hlast, List.append_cons]
      exact .behind _ (ih hws) hne

theorem trimEnd_eq_self_iff : trimEnd t = t ↔ TailSolid t := by
  refine ⟨fun h => ?_, fun h => ?_⟩
  · unfold TailSolid
    rw [← h, trimEnd, List.reverse_reverse]
    exact trimStart_solid _
  · rw [trimEnd, trimStart_of_solid h, List.reverse_reverse]

theorem trimEnd_tailSolid (t : Text) : TailSolid (trimEnd t) := by
  unfold TailSolid
  rw [trimEnd, List.reverse_reverse]
  exact trimStart_solid _

theorem mem_of_mem_trimEnd (h : c ∈ trimEnd t) : c ∈ t := by
  rw [trimEnd, List.mem_reverse] at h
  exact List.mem_reverse.mp ((List.dropWhile_sublist _).mem h)

theorem trimEnd_append (ha : TailSolid a) (t : Text) : trimEnd (a ++ t) = a ++ trimEnd t := by
  obtain ⟨b, hb, hblank⟩ := trimStart_split t.reverse
  rw [trimEnd, trimEnd, List.reverse_append]
  by_cases hnil : trimStart t.reverse = []
  · rw [hnil, List.append_nil] at hb
    rw [hnil, hb, trimStart_blank hblank, trimStart_of_solid ha, List.reverse_reverse,
      List.reverse_nil, List.append_nil]
  · have hhead : HeadSolid (trimStart t.reverse ++ a.reverse) := (trimStart_solid _).append hnil _
    rw [show t.reverse ++ a.reverse = b ++ (trimStart t.reverse ++ a.reverse) by
      rw [← List.append_assoc, ← hb], trimStart_blank hblank, trimStart_of_solid hhead,
      List.reverse_append, List.reverse_reverse]

/-- Of a text behind a solid one only the end is trimmed. -/
theorem trim_append (hne : a ≠ []) (ha : Solid a) (t : Text) : trim (a ++ t) = a ++ trimEnd t := by
  have hstart : trimStart (a ++ t) = a ++ t := trimStart_of_solid (ha.head.append hne t)
  rw [trim, hstart]
  exact trimEnd_append ha.last t

theorem trim_of_tailSolid (ha : HeadSolid t) (h : TailSolid t) : trim t = t :=
  trim_of_solid ⟨ha, h⟩

end CheetahMedia.Lib.Text

namespace CheetahMedia.Lib.Text

/-- Every occurrence of a pattern that is not empty, from the left, with characters of an
occurrence still to skip. -/
def replaceFrom (pat new : Text) : Nat → Text → Text
  | _, [] => []
  | skip + 1, _ :: rest => replaceFrom pat new skip rest
  | 0, c :: rest =>
    if pat <+: c :: rest then new ++ replaceFrom pat new (pat.length - 1) rest
    else c :: replaceFrom pat new 0 rest

def replaceText (pat new t : Text) : Text := replaceFrom pat new 0 t

/-- The first occurrence alone. -/
def replaceFirst (pat new : Text) : Text → Text
  | [] => []
  | c :: rest =>
    if pat <+: c :: rest then new ++ (c :: rest).drop pat.length else c :: replaceFirst pat new rest

/-- Where a pattern occurs first. -/
def findText (pat : Text) : Text → Option Nat
  | [] => if pat = [] then some 0 else none
  | c :: rest => if pat <+: c :: rest then some 0 else (findText pat rest).map (· + 1)

def containsText (t pat : Text) : Bool := (findText pat t).isSome

end CheetahMedia.Lib.Text
