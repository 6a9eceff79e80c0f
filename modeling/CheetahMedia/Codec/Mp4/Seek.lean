import CheetahMedia.Codec.Mp4.Reader
import CheetahMedia.Lib.Transition

namespace CheetahMedia.Codec
open Lib Lib.Checked

namespace SampleTable
variable {t : SampleTable} {P : Walk → Prop}

/-- What a sample that is pushed keeps, a whole chunk keeps. -/
theorem walkChunk_keeps (hpush : ∀ w chunkOff offset w', P w →
      w.pushSample t chunkOff offset = .ok w' → P w')
    (hw : P w) (hok : t.walkChunk total chunkOff m offset w = .ok w') : P w' := by
  induction m generalizing offset w with
  | zero =>
    cases hok
    exact hw
  | succ m ih =>
    unfold walkChunk at hok
    split at hok
    · cases hok
      exact hw
    · obtain ⟨w₁, hw₁, hok⟩ := bind_eq_ok hok
      obtain ⟨offset', -, hok⟩ := bind_eq_ok hok
      exact ih (hpush _ _ _ _ hw hw₁) hok

theorem walkChunks_keeps (hpush : ∀ w chunkOff offset w', P w →
      w.pushSample t chunkOff offset = .ok w' → P w')
    (hw : P w) (hok : t.walkChunks total chunks w = .ok w') : P w' := by
  induction chunks generalizing w with
  | nil =>
    cases hok
    exact hw
  | cons c chunks ih =>
    obtain ⟨w₁, hw₁, hok⟩ := bind_eq_ok hok
    have hkept := walkChunk_keeps hpush hw hw₁
    split at hok
    · cases hok
      exact hkept
    · exact ih hkept hok

/-- The times of the samples so far, up to the one that comes next. -/
structure Walk.Timed (w : Walk) : Prop where
  start : w.samples = [] → w.currentDts = 0
  first : ∀ entry, w.samples[0]? = some entry → entry.dts = 0
  ascending : w.samples.Pairwise (·.dts ≤ ·.dts)
  last : ∀ entry ∈ w.samples, entry.dts ≤ w.currentDts
  word : w.currentDts ≤ I64_MAX

theorem timed_start (t : SampleTable) : t.start.Timed where
  start _ := rfl
  first _ h := by cases h
  ascending := .nil
  last _ h := by cases h
  word := by
    show (0 : Int) ≤ I64_MAX
    decide

theorem Walk.Timed.pushSample {w : Walk} (h : w.Timed)
    (hok : w.pushSample t chunkOff offset = .ok w') : w'.Timed := by
  obtain ⟨offset', -, hok⟩ := bind_eq_ok hok
  cases hok
  have hgrows : w.currentDts ≤ saturateI64 (w.currentDts + (w.stts.next sttsSpent).1.toNat) := by
    have hword := h.word
    unfold saturateI64
    omega
  refine ⟨fun h => absurd h (by simp), fun entry hentry => ?_, ?_, fun entry hentry => ?_, ?_⟩
  · cases hsamples : w.samples with
    | nil =>
      rw [hsamples] at hentry
      cases hentry
      exact h.start hsamples
    | cons first rest =>
      refine h.first entry ?_
      rw [hsamples] at hentry ⊢
      exact hentry
  · refine List.pairwise_append.mpr ⟨h.ascending, List.pairwise_singleton _ _, fun a ha b hb => ?_⟩
    rw [List.mem_singleton.mp hb]
    exact h.last a ha
  · rcases List.mem_append.mp hentry with hold | hnew
    · exact (h.last entry hold).trans hgrows
    · rw [List.mem_singleton.mp hnew]
      exact hgrows
  · show saturateI64 _ ≤ I64_MAX
    unfold saturateI64 I64_MIN I64_MAX
    omega

end SampleTable

namespace SampleIndex
variable {index : SampleIndex} {target : Int}

/-- The decode times start at zero and never go back. -/
structure FromZero (index : SampleIndex) : Prop where
  first : ∀ entry, index.samples[0]? = some entry → entry.dts = 0
  ascending : index.samples.Pairwise (·.dts ≤ ·.dts)

/-- Whatever the tables say. -/
theorem fromZero_of_buildIndex {t : SampleTable} {ts : Nat}
    (h : t.buildIndex ts = .ok (.ok index)) : index.FromZero := by
  unfold SampleTable.buildIndex at h
  split at h
  · cases h
  obtain ⟨w, hw, h⟩ := bind_eq_ok h
  cases h
  have htimed := SampleTable.walkChunks_keeps (fun _ _ _ _ h => h.pushSample) t.timed_start hw
  exact ⟨htimed.first, htimed.ascending⟩

def SyncAt (index : SampleIndex) (i : Nat) : Prop :=
  ∃ entry, index.samples[i]? = some entry ∧ entry.isSync = true

theorem syncAt_iff (index : SampleIndex) (i : Nat) :
    index.SyncAt i ↔ (index.samples[i]?.map (·.isSync)).getD false = true := by
  unfold SyncAt
  cases index.samples[i]? <;> simp

/-- The walk back finds the nearest sync sample. -/
theorem lastSync_spec (index : SampleIndex) (pos : Nat) :
    match index.lastSync pos with
    | some i => i ≤ pos ∧ index.SyncAt i ∧ ∀ j, index.SyncAt j → j ≤ pos → j ≤ i
    | none => ∀ j ≤ pos, ¬index.SyncAt j := by
  induction pos with
  | zero =>
    unfold lastSync
    by_cases hcond : (index.samples[0]?.map (·.isSync)).getD false = true
    · rw [if_pos hcond]
      exact ⟨Nat.le_refl 0, (index.syncAt_iff 0).mpr hcond, fun j _ hj => hj⟩
    · rw [if_neg hcond]
      intro j hj
      rw [Nat.le_zero.mp hj, syncAt_iff]
      exact hcond
  | succ pos ih =>
    unfold lastSync
    by_cases hcond : (index.samples[pos + 1]?.map (·.isSync)).getD false = true
    · rw [if_pos hcond]
      exact ⟨Nat.le_refl _, (index.syncAt_iff _).mpr hcond, fun j _ hj => hj⟩
    · rw [if_neg hcond]
      have hnot : ¬index.SyncAt (pos + 1) := mt (index.syncAt_iff _).mp hcond
      cases hlast : index.lastSync pos with
      | some i =>
        rw [hlast] at ih
        refine ⟨by omega, ih.2.1, fun j hj hle => ?_⟩
        have hne : j ≠ pos + 1 := fun h => hnot (h ▸ hj)
        exact ih.2.2 j hj (by omega)
      | none =>
        rw [hlast] at ih
        intro j hle hj
        have hne : j ≠ pos + 1 := fun h => hnot (h ▸ hj)
        exact ih j (by omega) hj

/-- A sync sample that is not after the last sample with a time of at most `target`. -/
def KeyBefore (index : SampleIndex) (target : Int) (i : Nat) : Prop :=
  index.SyncAt i ∧ ∃ p entry, i ≤ p ∧ index.samples[p]? = some entry ∧ entry.dts ≤ target

/-- The last of these, or the first sample when there is none. -/
def LandsOn (index : SampleIndex) (target : Int) (i : Nat) : Prop :=
  (index.KeyBefore target i ∧ ∀ j, index.KeyBefore target j → j ≤ i) ∨
    i = 0 ∧ ∀ j, ¬index.KeyBefore target j

theorem LandsOn.inside (h : LandsOn index target i) (hne : index.samples ≠ []) :
    ∃ entry, index.samples[i]? = some entry := by
  rcases h with ⟨⟨⟨entry, hentry, -⟩, -⟩, -⟩ | ⟨rfl, -⟩
  · exact ⟨entry, hentry⟩
  · exact ⟨_, List.getElem?_eq_getElem (List.length_pos_of_ne_nil hne)⟩

theorem LandsOn.dts_le (h : LandsOn index target i) (hzero : index.FromZero) (htarget : 0 ≤ target)
    (hentry : index.samples[i]? = some entry) : entry.dts ≤ target := by
  rcases h with ⟨⟨-, p, later, hle, hlater, hdts⟩, -⟩ | ⟨rfl, -⟩
  · rcases Nat.lt_or_eq_of_le hle with hlt | rfl
    · obtain ⟨hi, rfl⟩ := List.getElem?_eq_some_iff.mp hentry
      obtain ⟨hp, rfl⟩ := List.getElem?_eq_some_iff.mp hlater
      exact (List.pairwise_iff_getElem.mp hzero.ascending i p hi hp hlt).trans hdts
    · rw [hentry] at hlater
      cases hlater
      exact hdts
  · rwa [hzero.first entry hentry]

/-- Where the search ends there are no later samples with a time of at most `target`, and it ends
at such a sample unless there is none. -/
theorem search_ends (h : index.samples.Pairwise (·.dts ≤ ·.dts)) (hne : index.samples ≠ [])
    (target : Int) :
    ∃ pos, index.seekToDts target = some ((index.lastSync pos).getD 0) ∧
      (∀ p entry, index.samples[p]? = some entry → entry.dts ≤ target → p ≤ pos) ∧
      (pos = 0 ∨ ∃ entry, index.samples[pos]? = some entry ∧ entry.dts ≤ target) := by
  have hasc : BinarySearch.Ascending (fun s : SampleIndexEntry => compare s.dts target)
      index.samples := by
    refine h.imp fun {a b} hab hgt => ?_
    rw [compare_gt_iff_gt] at hgt ⊢
    exact lt_of_lt_of_le hgt hab
  have hspec := BinarySearch.binarySearchBy_spec hasc
  have hgt (entry : SampleIndexEntry) (h : entry.dts ≤ target) :
      ¬compare entry.dts target = .gt := by
    rw [compare_gt_iff_gt]
    exact not_lt.mpr h
  unfold seekToDts
  rw [if_neg (by simpa using hne)]
  refine ⟨_, rfl, ?_⟩
  cases hsearch : BinarySearch.binarySearchBy (fun s : SampleIndexEntry => compare s.dts target)
      index.samples with
  | ok i =>
    rw [hsearch] at hspec
    obtain ⟨⟨found, hfound, heq⟩, hafter⟩ := hspec
    refine ⟨fun p entry hentry hle => ?_, .inr ⟨found, hfound, (compare_eq_iff_eq.mp heq).le⟩⟩
    show p ≤ i
    by_contra hlt
    exact hgt entry hle (hafter p entry (by omega) hentry)
  | error i =>
    rw [hsearch] at hspec
    obtain ⟨hlen, hbefore, hafter⟩ := hspec
    refine ⟨fun p entry hentry hle => ?_, ?_⟩
    · show p ≤ i - 1
      by_contra hlt
      exact hgt entry hle (hafter p entry (by omega) hentry)
    · show i - 1 = 0 ∨ _
      rcases Nat.lt_or_ge i 2 with hsmall | hlarge
      · exact .inl (by omega)
      · have hlt : i - 1 < index.samples.length := by omega
        have hget := List.getElem?_eq_getElem hlt
        refine .inr ⟨_, hget, ?_⟩
        have hnot := hbefore (i - 1) _ (by omega) hget
        rw [ne_eq, compare_gt_iff_gt] at hnot
        exact not_lt.mp hnot

theorem seekToDts_lands (h : index.samples.Pairwise (·.dts ≤ ·.dts)) (hne : index.samples ≠ [])
    (target : Int) : ∃ i, index.seekToDts target = some i ∧ index.LandsOn target i := by
  obtain ⟨pos, hseek, hlast, hpos⟩ := search_ends h hne target
  refine ⟨_, hseek, ?_⟩
  have hkey (j : Nat) : index.KeyBefore target j → j ≤ pos := fun ⟨_, p, entry, hle, hp, hdts⟩ =>
    hle.trans (hlast p entry hp hdts)
  have hspec := index.lastSync_spec pos
  cases hback : index.lastSync pos with
  | some i =>
    rw [hback] at hspec
    obtain ⟨hle, hsync, hnearest⟩ := hspec
    rcases hpos with rfl | ⟨entry, hentry, hdts⟩
    · -- the first sample, whatever its time
      obtain rfl : i = 0 := Nat.le_zero.mp hle
      by_cases hzero : index.KeyBefore target 0
      · exact .inl ⟨hzero, hkey⟩
      · refine .inr ⟨rfl, fun j hj => hzero ?_⟩
        rwa [Nat.le_zero.mp (hkey j hj)] at hj
    · exact .inl ⟨⟨hsync, pos, entry, hle, hentry, hdts⟩, fun j hj => hnearest j hj.1 (hkey j hj)⟩
  | none =>
    rw [hback] at hspec
    exact .inr ⟨rfl, fun j hj => hspec j (hkey j hj) hj.1⟩

end SampleIndex
end CheetahMedia.Codec
