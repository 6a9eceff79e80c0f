import CheetahMedia.Lib.Text

namespace CheetahMedia.Lib.Text

/-- Nothing but whitespace. -/
def Blank (t : Text) : Prop := ∀ c ∈ t, isWhitespace c = true

theorem Blank.append (ha : Blank a) (hb : Blank b) : Blank (a ++ b) := by
  intro c hc
  rcases List.mem_append.mp hc with hc | hc
  · exact ha c hc
  · exact hb c hc

theorem Blank.reverse (h : Blank t) : Blank t.reverse := fun c hc => h c (List.mem_reverse.mp hc)

/-- The text starts with no whitespace. -/
def HeadSolid (t : Text) : Prop := ∀ c ∈ t.head?, isWhitespace c = false

/-- The text neither starts nor ends with whitespace. -/
structure Solid (t : Text) : Prop where
  head : HeadSolid t
  last : HeadSolid t.reverse

theorem headSolid_cons : HeadSolid (c :: t) ↔ isWhitespace c = false := by
  simp [HeadSolid]

theorem trimStart_blank (h : Blank a) (t : Text) : trimStart (a ++ t) = trimStart t := by
  unfold trimStart
  rw [List.dropWhile_append_of_pos h]

theorem trimStart_of_solid (h : HeadSolid t) : trimStart t = t := by
  cases t with
  | nil => rfl
  | cons c t => rw [trimStart, List.dropWhile_cons_of_neg (by simp [headSolid_cons.mp h])]

theorem trimStart_solid (t : Text) : HeadSolid (trimStart t) := by
  intro c hc
  obtain ⟨rest, hrest⟩ : ∃ rest, trimStart t = c :: rest := by
    cases ht : trimStart t with
    | nil => rw [ht] at hc; cases hc
    | cons x rest =>
      rw [ht] at hc
      cases hc
      exact ⟨rest, rfl⟩
  have hne : t.dropWhile isWhitespace ≠ [] := by
    rw [show t.dropWhile isWhitespace = c :: rest from hrest]
    simp
  have hhead := List.head_dropWhile_not isWhitespace hne
  have hc' : (t.dropWhile isWhitespace).head hne = c := by
    simp only [show t.dropWhile isWhitespace = c :: rest from hrest, List.head_cons]
  rwa [hc'] at hhead

/-- What the front trim takes away is blank. -/
theorem trimStart_split (t : Text) : ∃ a, t = a ++ trimStart t ∧ Blank a :=
  ⟨t.takeWhile isWhitespace, List.takeWhile_append_dropWhile.symm,
    List.all_eq_true.mp List.all_takeWhile⟩

/-- What the trim takes away is blank. -/
theorem trim_split (t : Text) : ∃ a b, t = a ++ trim t ++ b ∧ Blank a ∧ Blank b := by
  obtain ⟨a, ht, ha⟩ := trimStart_split t
  obtain ⟨b, hr, hb⟩ := trimStart_split (trimStart t).reverse
  refine ⟨a, b.reverse, ?_, ha, hb.reverse⟩
  have hmiddle : trimStart t = trim t ++ b.reverse := by
    rw [trim, ← List.reverse_append, ← hr, List.reverse_reverse]
  rw [List.append_assoc, ← hmiddle, ← ht]

theorem trim_of_solid (h : Solid t) : trim t = t := by
  rw [trim, trimStart_of_solid h.head, trimStart_of_solid h.last, List.reverse_reverse]

theorem headSolid_of_append (h : HeadSolid (a ++ b)) (hne : a ≠ []) : HeadSolid a := by
  obtain ⟨c, a, rfl⟩ := List.exists_cons_of_ne_nil hne
  exact headSolid_cons.mpr (headSolid_cons.mp h)

theorem HeadSolid.append (h : HeadSolid a) (hne : a ≠ []) (b : Text) : HeadSolid (a ++ b) := by
  obtain ⟨c, a, rfl⟩ := List.exists_cons_of_ne_nil hne
  exact headSolid_cons.mpr (headSolid_cons.mp h)

theorem trim_solid (t : Text) : Solid (trim t) := by
  constructor
  · obtain ⟨b, hr, _⟩ := trimStart_split (trimStart t).reverse
    have hmiddle : trimStart t = trim t ++ b.reverse := by
      rw [trim, ← List.reverse_append, ← hr, List.reverse_reverse]
    by_cases hne : trim t = []
    · rw [hne]
      intro c hc
      cases hc
    · exact headSolid_of_append (hmiddle ▸ trimStart_solid t) hne
  · rw [trim, List.reverse_reverse]
    exact trimStart_solid _

theorem trim_eq_self_iff : trim t = t ↔ Solid t :=
  ⟨fun h => h ▸ trim_solid t, trim_of_solid⟩

@[simp] theorem trim_trim (t : Text) : trim (trim t) = trim t := trim_of_solid (trim_solid t)

/-- Blanks around a solid text are trimmed away. -/
theorem trim_blanks (ha : Blank a) (hb : Blank b) (h : Solid t) : trim (a ++ t ++ b) = t := by
  unfold trim
  rw [List.append_assoc, trimStart_blank ha]
  cases ht : t with
  | nil =>
    have : trimStart b = [] := by
      have := trimStart_blank hb []
      rwa [List.append_nil] at this
    rw [List.nil_append, this]
    rfl
  | cons c rest =>
    have hne : t ≠ [] := by rw [ht]; simp
    rw [← ht, trimStart_of_solid (h.head.append hne b), List.reverse_append,
      trimStart_blank hb.reverse, trimStart_of_solid h.last, List.reverse_reverse]

theorem trim_unique (ha : Blank a) (hb : Blank b) (h : Solid u) (ht : t = a ++ u ++ b) :
    trim t = u := by
  rw [ht, trim_blanks ha hb h]

theorem mem_trim_or (h : c ∈ t) : isWhitespace c = true ∨ c ∈ trim t := by
  obtain ⟨a, b, ht, ha, hb⟩ := trim_split t
  rw [ht, List.mem_append, List.mem_append] at h
  rcases h with (h | h) | h
  · exact .inl (ha c h)
  · exact .inr h
  · exact .inl (hb c h)

theorem mem_of_mem_trim (h : c ∈ trim t) : c ∈ t := by
  obtain ⟨a, b, ht, _, _⟩ := trim_split t
  rw [ht, List.mem_append, List.mem_append]
  exact .inl (.inr h)

end CheetahMedia.Lib.Text
