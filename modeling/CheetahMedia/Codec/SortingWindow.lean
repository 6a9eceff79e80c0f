import Mathlib.Data.Int.Interval
import Mathlib.Data.List.Forall2

namespace CheetahMedia.Codec

/-- Generates DTS from PTS: some frames are buffered, and the least PTS among them is put out. -/
structure SortingWindowDtsGenerator where
  window : List Int := []
  windowSize : Nat
  lastOutputDts : Int := 0
  initialized : Bool := false

namespace SortingWindowDtsGenerator

def new (windowSize : Nat) : SortingWindowDtsGenerator := { windowSize := max windowSize 1 }

/-- The minimum goes out, but not before the output that follows the last one. No output is after
the PTS of its rank (`Emits.le_rank`), so that the sum stays within the 64 bits of a PTS. -/
def emit (g : SortingWindowDtsGenerator) (minPts : Int) : Int × SortingWindowDtsGenerator :=
  let dts := if g.initialized then max minPts (g.lastOutputDts + 1) else minPts
  (dts, { g with lastOutputDts := dts, initialized := true })

def push (g : SortingWindowDtsGenerator) (pts : Int) : Option Int × SortingWindowDtsGenerator :=
  let g := { g with window := g.window ++ [pts] }
  if g.window.length < g.windowSize then (none, g)
  else
    match g.window.min? with
    | none => (none, g)
    | some minPts =>
      let (dts, g) := g.emit minPts
      (some dts, { g with window := g.window.tail })

/-- Each pass removes a frame, so the number of frames bounds the passes. -/
def flushWithin : Nat → SortingWindowDtsGenerator → List Int × SortingWindowDtsGenerator
  | 0, g => ([], g)
  | passes + 1, g =>
    match g.window.min? with
    | none => ([], g)
    | some minPts =>
      let (dts, g) := g.emit minPts
      let (out, g) := flushWithin passes { g with window := g.window.erase minPts }
      (dts :: out, g)

def flush (g : SortingWindowDtsGenerator) : List Int × SortingWindowDtsGenerator :=
  flushWithin g.window.length g

def reset (g : SortingWindowDtsGenerator) : SortingWindowDtsGenerator :=
  { g with window := [], lastOutputDts := 0, initialized := false }

/-- What is put out when the frames are pushed one after the other and then flushed. -/
def outputs (g : SortingWindowDtsGenerator) : List Int → List Int
  | [] => g.flush.1
  | pts :: rest => (g.push pts).1.toList ++ (g.push pts).2.outputs rest

end SortingWindowDtsGenerator

/-- The first output is the minimum, a later one is behind the one before it. -/
def repaired : Option Int → Int → Int
  | none, m => m
  | some last, m => max m (last + 1)

/-- The outputs for these frames, of which the first ones are in the window. -/
inductive Emits (w : Nat) : Option Int → List Int → List Int → Prop
  | nil : Emits w last [] []
  | slide (hfull : w ≤ (p :: ps).length) (hmin : ((p :: ps).take w).min? = some m)
      (h : Emits w (some (repaired last m)) ps ds) :
      Emits w last (p :: ps) (repaired last m :: ds)
  | drain (hfew : pts.length < w) (hmin : pts.min? = some m)
      (h : Emits w (some (repaired last m)) (pts.erase m) ds) :
      Emits w last pts (repaired last m :: ds)

namespace SortingWindowDtsGenerator

def last (g : SortingWindowDtsGenerator) : Option Int :=
  if g.initialized then some g.lastOutputDts else none

theorem emit_eq (g : SortingWindowDtsGenerator) (m : Int) : g.emit m =
    (repaired g.last m, { g with lastOutputDts := repaired g.last m, initialized := true }) := by
  unfold emit last
  cases g.initialized <;> rfl

theorem flushWithin_emits {g : SortingWindowDtsGenerator} (hpasses : g.window.length = passes)
    (hfew : g.window.length < w) : Emits w g.last g.window (flushWithin passes g).1 := by
  induction passes generalizing g with
  | zero =>
    rw [List.length_eq_zero_iff.mp hpasses]
    exact .nil
  | succ passes ih =>
    rw [flushWithin]
    cases hmin : g.window.min? with
    | none =>
      rw [List.min?_eq_none_iff.mp hmin] at hpasses
      cases hpasses
    | some m =>
      have hmem := (List.min?_eq_some_iff.mp hmin).1
      have hlength := List.length_erase_of_mem hmem
      dsimp only
      rw [emit_eq]
      have hrest := ih (g := { g with
        window := g.window.erase m
        lastOutputDts := repaired g.last m
        initialized := true }) (by dsimp only; omega) (by dsimp only; omega)
      exact .drain hfew hmin hrest

/-- What is put out depends on the frames and the size of the window only. -/
theorem outputs_emits {g : SortingWindowDtsGenerator} (h : g.window.length < g.windowSize)
    (pts : List Int) : Emits g.windowSize g.last (g.window ++ pts) (g.outputs pts) := by
  induction pts generalizing g with
  | nil =>
    rw [List.append_nil]
    exact flushWithin_emits rfl h
  | cons p rest ih =>
    rw [outputs]
    unfold push
    dsimp only
    rw [List.append_cons]
    split
    · rename_i hfew
      exact ih (g := { g with window := g.window ++ [p] }) hfew
    · rename_i hfull
      have hlength : (g.window ++ [p]).length = g.windowSize := by
        rw [List.length_append, List.length_singleton] at hfull ⊢
        omega
      have htake : (g.window ++ [p] ++ rest).take g.windowSize = g.window ++ [p] := by
        rw [← hlength, List.take_left]
      obtain ⟨q, window, hwindow⟩ : ∃ q window, g.window ++ [p] = q :: window :=
        List.exists_cons_of_ne_nil (by simp)
      cases hmin : (g.window ++ [p]).min? with
      | none => simp at hmin
      | some m =>
        dsimp only
        rw [emit_eq]
        dsimp only [Option.toList]
        rw [hwindow, List.cons_append] at htake
        rw [hwindow] at hmin hlength
        rw [hwindow, List.cons_append]
        rw [List.length_cons] at hlength
        have hrest := ih (g := { g with
          window := window
          lastOutputDts := repaired g.last m
          initialized := true }) (by dsimp only; omega)
        refine .slide ?_ (by rw [htake, hmin]) hrest
        rw [List.length_cons, List.length_append]
        omega

end SortingWindowDtsGenerator

theorem le_repaired (last : Option Int) (m : Int) : m ≤ repaired last m := by
  cases last with
  | none => exact Int.le_refl m
  | some l => exact Int.le_max_left m (l + 1)

/-- No frame has this many frames with a larger PTS before it. -/
def Displaced (w : Nat) (pts : List Int) : Prop :=
  ∀ pre p post, pts = pre ++ p :: post → pre.countP (p < ·) < w

theorem displaced_iff : Displaced w pts ↔
    ∀ n < pts.length, ∀ p ∈ pts[n]?, (pts.take n).countP (p < ·) < w := by
  constructor
  · intro h n hn p hp
    obtain ⟨hlt, rfl⟩ := List.getElem?_eq_some_iff.mp hp
    exact h (pts.take n) pts[n] (pts.drop (n + 1)) (by
      rw [List.getElem_cons_drop, List.take_append_drop])
  · rintro h pre p post rfl
    have := h pre.length (by simp) p (by simp)
    rwa [List.take_left] at this

instance (w : Nat) (pts : List Int) : Decidable (Displaced w pts) :=
  decidable_of_iff _ displaced_iff.symm

theorem Displaced.sublist (h : Displaced w pts) (hsub : sub.Sublist pts) : Displaced w sub := by
  rintro pre p post rfl
  obtain ⟨a, b, rfl, ha, hb⟩ := List.append_sublist_iff.mp hsub
  obtain ⟨c, d, rfl, hp, -⟩ := List.cons_sublist_iff.mp hb
  obtain ⟨s, t, rfl⟩ := List.append_of_mem hp
  refine Nat.lt_of_le_of_lt ?_ (h (a ++ s) p (t ++ d) (by simp))
  exact (ha.trans (List.sublist_append_left a s)).countP_le

/-- What is in the window is not larger than what comes after it. -/
theorem Displaced.window_le (h : Displaced w pts) (hfull : w ≤ pts.length)
    (hmin : (pts.take w).min? = some m) : ∀ q ∈ pts, m ≤ q := by
  obtain ⟨-, hle⟩ := List.min?_eq_some_iff.mp hmin
  intro q hq
  rw [← List.take_append_drop w pts, List.mem_append] at hq
  rcases hq with hq | hq
  · exact hle q hq
  · by_contra hlt
    obtain ⟨s, t, hdrop⟩ := List.append_of_mem hq
    have hcount := h (pts.take w ++ s) q t (by
      rw [List.append_assoc, ← hdrop, List.take_append_drop])
    have hall : (pts.take w).countP (q < ·) = w := by
      rw [List.countP_eq_length.mpr fun x hx => decide_eq_true (Int.lt_of_lt_of_le
        (Int.not_le.mp hlt) (hle x hx)), List.length_take, Nat.min_eq_left hfull]
    rw [List.countP_append, hall] at hcount
    omega

/-- So many different numbers from one on reach beyond it. -/
theorem countP_le_of_nodup {pts : List Int} (hnodup : pts.Nodup) (hle : ∀ q ∈ pts, m ≤ q)
    (hn : n < pts.countP (· ≤ x)) : m + n ≤ x := by
  have hsub : (pts.filter (· ≤ x)).toFinset ⊆ Finset.Icc m x := by
    intro q hq
    rw [List.mem_toFinset, List.mem_filter] at hq
    exact Finset.mem_Icc.mpr ⟨hle q hq.1, of_decide_eq_true hq.2⟩
  have hcard := Finset.card_le_card hsub
  rw [List.toFinset_card_of_nodup (hnodup.filter _), ← List.countP_eq_length_filter,
    Int.card_Icc] at hcard
  omega

theorem exists_of_mem_forall₂ {R : α → β → Prop} (h : List.Forall₂ R as bs) (hb : b ∈ bs) :
    ∃ a ∈ as, R a b := by
  induction h with
  | nil => cases hb
  | @cons a' b' as bs hab _ ih =>
    rcases List.mem_cons.mp hb with rfl | hb
    · exact ⟨a', List.mem_cons_self, hab⟩
    · obtain ⟨a, ha, hab⟩ := ih hb
      exact ⟨a, List.mem_cons_of_mem _ ha, hab⟩

namespace Emits

theorem length_eq (h : Emits w last pts ds) : ds.length = pts.length := by
  induction h with
  | nil => rfl
  | slide _ _ _ ih => rw [List.length_cons, List.length_cons, ih]
  | drain _ hmin _ ih =>
    have hmem := (List.min?_eq_some_iff.mp hmin).1
    have hpos := List.length_pos_of_mem hmem
    rw [List.length_cons, ih, List.length_erase_of_mem hmem]
    omega

theorem increasing (h : Emits w last pts ds) :
    ds.Pairwise (· < ·) ∧ ∀ l ∈ last, ∀ d ∈ ds, l < d := by
  have hstep {last : Option Int} {m : Int} {ds : List Int} (hds : ds.Pairwise (· < ·))
      (hlast : ∀ l ∈ some (repaired last m), ∀ d ∈ ds, l < d) :
      (repaired last m :: ds).Pairwise (· < ·) ∧
        ∀ l ∈ last, ∀ d ∈ repaired last m :: ds, l < d := by
    have hbehind := hlast _ rfl
    refine ⟨List.pairwise_cons.mpr ⟨hbehind, hds⟩, ?_⟩
    rintro l rfl d hd
    have hl : l < repaired (some l) m := Int.lt_of_lt_of_le (Int.lt_succ l) (Int.le_max_right ..)
    rcases List.mem_cons.mp hd with rfl | hd
    · exact hl
    · exact hl.trans (hbehind d hd)
  induction h with
  | nil => exact ⟨.nil, by simp⟩
  | slide _ _ _ ih => exact hstep ih.1 ih.2
  | drain _ _ _ ih => exact hstep ih.1 ih.2

/-- Frames in order go out as they are. -/
theorem eq_of_increasing (h : Emits w last pts ds) (hw : 0 < w) (hpts : pts.Pairwise (· < ·))
    (hlast : ∀ l ∈ last, ∀ p ∈ pts, l < p) : ds = pts := by
  have hfirst {last : Option Int} {p m : Int} {ps : List Int} (hmin : (p :: ps).min? = some m)
      (hpts : (p :: ps).Pairwise (· < ·)) (hlast : ∀ l ∈ last, ∀ q ∈ p :: ps, l < q) :
      m = p ∧ repaired last m = p := by
    obtain ⟨hmem, hle⟩ := List.min?_eq_some_iff.mp hmin
    have hm : m = p := by
      rcases List.mem_cons.mp hmem with heq | hmem
      · exact heq
      · have := (List.pairwise_cons.mp hpts).1 m hmem
        have := hle p List.mem_cons_self
        omega
    refine ⟨hm, ?_⟩
    rw [hm]
    cases last with
    | none => rfl
    | some l => exact Int.max_eq_left (hlast l rfl p List.mem_cons_self)
  induction h with
  | nil => rfl
  | @slide p ps m last ds hfull hmin _ ih =>
    obtain ⟨hp, hps⟩ := List.pairwise_cons.mp hpts
    obtain ⟨w, rfl⟩ := Nat.exists_eq_add_of_lt hw
    rw [Nat.zero_add, List.take_succ_cons] at hmin
    have hsub : (p :: ps.take w).Sublist (p :: ps) := (List.take_sublist w ps).cons_cons p
    obtain ⟨-, hrepaired⟩ := hfirst hmin (hpts.sublist hsub) fun l hl q hq =>
      hlast l hl q (hsub.subset hq)
    rw [hrepaired, ih hps]
    intro l hl q hq
    rw [← Option.mem_some_iff.mp hl, hrepaired]
    exact hp q hq
  | @drain m last ds pts hfew hmin _ ih =>
    obtain ⟨p, ps, rfl⟩ : ∃ p ps, pts = p :: ps := List.exists_cons_of_ne_nil (by
      rintro rfl
      cases hmin)
    obtain ⟨hp, hps⟩ := List.pairwise_cons.mp hpts
    obtain ⟨rfl, hrepaired⟩ := hfirst hmin hpts hlast
    rw [List.erase_cons_head] at ih
    rw [hrepaired, ih hps]
    intro l hl q hq
    rw [← Option.mem_some_iff.mp hl, hrepaired]
    exact hp q hq

/-- Where no DTS is after the PTS of its frame, the frames were in order. -/
theorem increasing_of_le (h : Emits w last pts ds) (hle : List.Forall₂ (· ≤ ·) ds pts) :
    pts.Pairwise (· < ·) := by
  -- the outputs behind the first one are above the least frame, and so are their frames
  have hfirst {last : Option Int} {m : Int} {ps ds : List Int}
      (hincreasing : (repaired last m :: ds).Pairwise (· < ·))
      (hle : List.Forall₂ (· ≤ ·) ds ps) : ∀ q ∈ ps, m < q := by
    intro q hq
    obtain ⟨d, hd, hdq⟩ := exists_of_mem_forall₂ hle hq
    have := (List.pairwise_cons.mp hincreasing).1 d hd
    have := le_repaired last m
    omega
  have hhead {p m : Int} {ps : List Int} (hmem : m ∈ p :: ps) (hbehind : ∀ q ∈ ps, m < q) :
      m = p := by
    rcases List.mem_cons.mp hmem with heq | hmem
    · exact heq
    · exact absurd (hbehind m hmem) (Int.lt_irrefl m)
  have hincreasing := h.increasing.1
  induction h with
  | nil => exact .nil
  | @slide p ps m last ds hfull hmin hrest ih =>
    obtain ⟨-, hrestle⟩ := List.forall₂_cons.mp hle
    have hbehind := hfirst hincreasing hrestle
    have hmem := (List.take_sublist w _).subset (List.min?_eq_some_iff.mp hmin).1
    obtain rfl := hhead hmem hbehind
    exact List.pairwise_cons.mpr ⟨hbehind, ih hrestle (List.pairwise_cons.mp hincreasing).2⟩
  | @drain m last ds pts hfew hmin hrest ih =>
    cases hle with
    | @cons _ p _ ps hp hle =>
      have hbehind := hfirst hincreasing hle
      obtain rfl := hhead (List.min?_eq_some_iff.mp hmin).1 hbehind
      rw [List.erase_cons_head] at ih
      exact List.pairwise_cons.mpr ⟨hbehind, ih hle (List.pairwise_cons.mp hincreasing).2⟩

theorem rank_first {pts : List Int} (hle : ∀ q ∈ pts, m ≤ q) (hn : 0 < pts.countP (· ≤ x)) :
    repaired last m ≤ x ∨ ∃ l ∈ last, repaired last m ≤ l + 1 + (0 : Nat) := by
  obtain ⟨q, hq, hqx⟩ := List.countP_pos_iff.mp hn
  have hmx : m ≤ x := (hle q hq).trans (of_decide_eq_true hqx)
  cases last with
  | none => exact .inl hmx
  | some l =>
    rcases Int.le_total m (l + 1) with hml | hml
    · right
      exact ⟨l, rfl, by rw [repaired, Int.max_eq_right hml]; omega⟩
    · left
      rw [repaired, Int.max_eq_left hml]
      exact hmx

theorem rank_step {pts : List Int} (hnodup : pts.Nodup) (hle : ∀ q ∈ pts, m ≤ q)
    (hn : n + 1 < pts.countP (· ≤ x))
    (h : d ≤ x ∨ ∃ l ∈ some (repaired last m), d ≤ l + 1 + n) :
    d ≤ x ∨ ∃ l ∈ last, d ≤ l + 1 + (n + 1 : Nat) := by
  rcases h with h | ⟨l, hl, h⟩
  · exact .inl h
  obtain rfl := Option.mem_some_iff.mp hl
  have hx := countP_le_of_nodup hnodup hle hn
  cases last with
  | none =>
    rw [repaired] at h
    left
    omega
  | some l =>
    rw [repaired] at h
    rcases Int.le_total m (l + 1) with hml | hml
    · rw [Int.max_eq_right hml] at h
      exact .inr ⟨l, rfl, by omega⟩
    · rw [Int.max_eq_left hml] at h
      left
      omega

/-- A DTS is not after the PTS of its rank. -/
theorem le_rank (h : Emits w last pts ds) (hnodup : pts.Nodup) (hdisplaced : Displaced w pts)
    (hn : n < pts.countP (· ≤ x)) (hd : d ∈ ds[n]?) : d ≤ x ∨ ∃ l ∈ last, d ≤ l + 1 + n := by
  induction h generalizing n with
  | nil => cases hd
  | @slide p ps m last ds hfull hmin hrest ih =>
    have hle := hdisplaced.window_le hfull hmin
    cases n with
    | zero =>
      cases hd
      exact rank_first hle hn
    | succ n =>
      have hcount : n < ps.countP (· ≤ x) := by
        rw [List.countP_cons] at hn
        split at hn <;> omega
      exact rank_step hnodup hle hn (ih (List.nodup_cons.mp hnodup).2
        (hdisplaced.sublist (List.sublist_cons_self p ps)) hcount hd)
  | @drain m last ds pts hfew hmin hrest ih =>
    obtain ⟨hmem, hle⟩ := List.min?_eq_some_iff.mp hmin
    cases n with
    | zero =>
      cases hd
      exact rank_first hle hn
    | succ n =>
      have hcount : n < (pts.erase m).countP (· ≤ x) := by
        rw [(List.perm_cons_erase hmem).countP_eq, List.countP_cons] at hn
        split at hn <;> omega
      exact rank_step hnodup hle hn (ih (hnodup.sublist List.erase_sublist)
        (hdisplaced.sublist List.erase_sublist) hcount hd)

end Emits

namespace SortingWindowDtsGenerator

theorem new_emits (w : Nat) (hw : 1 ≤ w) (pts : List Int) :
    Emits w none pts ((new w).outputs pts) := by
  have hsize : (new w).windowSize = w := Nat.max_eq_left hw
  have h := outputs_emits (g := new w) (by rw [hsize]; exact hw) pts
  rw [hsize] at h
  exact h

/-- Each frame gets a DTS, the DTS increase, and each is not after the latest of the PTS that were
pushed up to its frame. It is not after the PTS of its own frame for all frames exactly if the
frames are pushed in the order of their PTS. -/
theorem outputs_dts (hw : 1 ≤ w) (hnodup : pts.Nodup) (hdisplaced : Displaced w pts) :
    ((new w).outputs pts).length = pts.length ∧ ((new w).outputs pts).Pairwise (· < ·) ∧
      (∀ n, ∀ d ∈ ((new w).outputs pts)[n]?, ∃ p ∈ pts.take (n + 1), d ≤ p) ∧
      (List.Forall₂ (· ≤ ·) ((new w).outputs pts) pts ↔ pts.Pairwise (· < ·)) := by
  have h := new_emits w hw pts
  refine ⟨h.length_eq, h.increasing.1, fun n d hd => ?_, h.increasing_of_le, fun hpts => ?_⟩
  · have hn : n < pts.length := by
      rw [← h.length_eq]
      exact (List.getElem?_eq_some_iff.mp hd).1
    have hlength : (pts.take (n + 1)).length = n + 1 := by
      rw [List.length_take]
      omega
    obtain ⟨x, hx⟩ : ∃ x, (pts.take (n + 1)).max? = some x := by
      rw [← Option.isSome_iff_exists, List.isSome_max?_iff]
      intro hnil
      rw [hnil] at hlength
      cases hlength
    obtain ⟨hmem, hle⟩ := List.max?_eq_some_iff.mp hx
    have hcount : n < pts.countP (· ≤ x) := by
      have hall : (pts.take (n + 1)).countP (· ≤ x) = n + 1 := by
        rw [List.countP_eq_length.mpr fun p hp => decide_eq_true (hle p hp), hlength]
      have := (List.take_sublist (n + 1) pts).countP_le (p := (· ≤ x))
      omega
    rcases h.le_rank hnodup hdisplaced hcount hd with hdx | ⟨l, hl, -⟩
    · exact ⟨x, hmem, hdx⟩
    · cases hl
  · rw [h.eq_of_increasing hw hpts (by simp)]
    exact List.forall₂_same.mpr fun p _ => Int.le_refl p

theorem outputs_dts_ibbp : [(0 : Int), 3000, 1000, 2000, 6000].Nodup ∧
    Displaced 3 [0, 3000, 1000, 2000, 6000] ∧
      ((new 3).outputs [0, 3000, 1000, 2000, 6000]).length = 5 :=
  have hnodup : [(0 : Int), 3000, 1000, 2000, 6000].Nodup := by decide
  have hdisplaced : Displaced 3 [0, 3000, 1000, 2000, 6000] := by decide
  ⟨hnodup, hdisplaced, (outputs_dts (by decide) hnodup hdisplaced).1⟩

/-- The second of two frames in the wrong order goes out behind its PTS. -/
theorem outputs_late : ¬∀ (w : Nat) (pts : List Int), 1 ≤ w → pts.Nodup → Displaced w pts →
    ((new w).outputs pts).length = pts.length ∧ ((new w).outputs pts).Pairwise (· < ·) ∧
      List.Forall₂ (· ≤ ·) ((new w).outputs pts) pts := by
  intro h
  obtain ⟨-, -, hle⟩ := h 2 [2, 1] (by decide) (by decide) (by decide)
  have hout : (new 2).outputs [2, 1] = [1, 2] := by decide
  rw [hout] at hle
  exact absurd hle (by decide)

end SortingWindowDtsGenerator

end CheetahMedia.Codec
