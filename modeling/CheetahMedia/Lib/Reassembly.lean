import CheetahMedia.Lib.Transition
import Mathlib.Logic.Function.Basic

namespace CheetahMedia.Lib

/-- The pieces of a list, all of one size but the last. -/
def chunksWithin (size : Nat) : Nat → List α → List (List α)
  | 0, _ => []
  | fuel + 1, l => if l.isEmpty then [] else l.take size :: chunksWithin size fuel (l.drop size)

def chunks (size : Nat) (l : List α) : List (List α) := chunksWithin size l.length l

theorem chunksWithin_flatten (hsize : 0 < size) (fuel : Nat) (l : List α) (hfuel : l.length ≤ fuel) :
    (chunksWithin size fuel l).flatten = l := by
  induction fuel generalizing l with
  | zero => simp [chunksWithin, List.length_eq_zero_iff.mp (Nat.le_zero.mp hfuel)]
  | succ fuel ih =>
    rw [chunksWithin]
    split
    next hnil => simp [List.isEmpty_iff.mp hnil]
    next hne =>
      have hlength : 0 < l.length := List.length_pos_iff.mpr (mt List.isEmpty_iff.mpr hne)
      rw [List.flatten_cons, ih (l.drop size) (by rw [List.length_drop]; omega),
        List.take_append_drop]

theorem chunks_flatten (hsize : 0 < size) (l : List α) : (chunks size l).flatten = l :=
  chunksWithin_flatten hsize l.length l (Nat.le_refl _)

theorem chunks_ne_nil (h : l ≠ []) : chunks size l ≠ [] := by
  cases l with
  | nil => exact absurd rfl h
  | cons x xs => simp [chunks, chunksWithin]

theorem chunks_single (hne : l ≠ []) (hsize : l.length ≤ size) : chunks size l = [l] := by
  cases l with
  | nil => exact absurd rfl hne
  | cons x xs =>
    rw [chunks, List.length_cons, chunksWithin, List.take_of_length_le hsize,
      List.drop_eq_nil_of_le hsize]
    cases xs <;> simp [chunksWithin]

theorem length_le_of_mem_chunks (h : piece ∈ chunks size l) : piece.length ≤ size := by
  suffices hall : ∀ fuel l, ∀ piece ∈ chunksWithin size fuel l, piece.length ≤ size from
    hall _ _ piece h
  intro fuel
  induction fuel with
  | zero => simp [chunksWithin]
  | succ fuel ih =>
    intro l piece hpiece
    rw [chunksWithin] at hpiece
    split at hpiece
    · cases hpiece
    · rcases List.mem_cons.mp hpiece with rfl | hrest
      · exact List.length_take_le _ _
      · exact ih _ piece hrest

theorem length_le_of_mem_flatten {l : List α} {pieces : List (List α)} (h : l ∈ pieces) :
    l.length ≤ pieces.flatten.length :=
  (List.sublist_flatten_of_mem h).length_le

/-- Machines of one kind, one for every key. -/
def keyed {κ σ ι ο : Type} [DecidableEq κ] (step : σ → ι → σ × List ο) (s : κ → σ) (x : κ × ι) :
    (κ → σ) × List (κ × ο) :=
  let r := step (s x.1) x.2
  (Function.update s x.1 r.1, r.2.map (x.1, ·))

/-- Takes the inputs in order and keeps what comes out. -/
def feedAll {σ ι ο : Type} (step : σ → ι → σ × List ο) : σ → List ι → σ × List ο
  | s, [] => (s, [])
  | s, x :: xs =>
    let r := step s x
    let rest := feedAll step r.1 xs
    (rest.1, r.2 ++ rest.2)

theorem feedAll_append {σ ι ο : Type} (step : σ → ι → σ × List ο) (s : σ) (xs ys : List ι) :
    feedAll step s (xs ++ ys) =
      let r := feedAll step s xs
      let rest := feedAll step r.1 ys
      (rest.1, r.2 ++ rest.2) := by
  induction xs generalizing s with
  | nil => simp [feedAll]
  | cons x xs ih => simp [feedAll, ih]

/-- What comes out under one key is what its machine makes of its own inputs. -/
theorem feedAll_keyed {κ σ ι ο : Type} [DecidableEq κ] (step : σ → ι → σ × List ο) (s : κ → σ)
    (xs : List (κ × ι)) (k : κ) :
    ((feedAll (keyed step) s xs).1 k,
        ((feedAll (keyed step) s xs).2.filter (·.1 = k)).map (·.2)) =
      feedAll step (s k) ((xs.filter (·.1 = k)).map (·.2)) := by
  induction xs generalizing s with
  | nil => rfl
  | cons x xs ih =>
    have ih := ih (keyed step s x).1
    rw [Prod.mk.injEq] at ih
    by_cases hk : x.1 = k
    · subst hk
      have hself : (keyed step s x).1 x.1 = (step (s x.1) x.2).1 := Function.update_self ..
      rw [hself] at ih
      have hout : ((keyed step s x).2.filter (·.1 = x.1)).map (·.2) = (step (s x.1) x.2).2 := by
        simp [keyed, Function.comp_def, List.filter_eq_self.mpr]
      simp only [feedAll, List.filter_append, List.map_append, hout, ih.1, ih.2]
      simp [feedAll]
    · have hother : (keyed step s x).1 k = s k := Function.update_of_ne (Ne.symm hk) ..
      rw [hother] at ih
      have hout : ((keyed step s x).2.filter (·.1 = k)) = [] := by
        simp [keyed, hk]
      simp only [feedAll, List.filter_append, List.map_append, hout, ih.1, ih.2]
      simp [hk]

/-- A machine that reads its inputs as those of another, and does on them what that one
does, agrees with it over whole runs; what it cannot read it passes over. -/
theorem feedAll_simulates {σ τ ι κ ο π : Type} {step : σ → ι → σ × List ο}
    {step' : τ → κ → τ × List π} (inv : σ → Prop) (view : σ → τ) (read : ι → Option κ)
    (render : ο → π) (hinv : ∀ s x, inv s → inv (step s x).1)
    (hskip : ∀ s x, read x = none → view (step s x).1 = view s ∧ (step s x).2 = [])
    (hstep : ∀ s x y, inv s → read x = some y →
      step' (view s) y = (view (step s x).1, (step s x).2.map render))
    (s : σ) (hs : inv s) (xs : List ι) :
    feedAll step' (view s) (xs.filterMap read) =
      (view (feedAll step s xs).1, (feedAll step s xs).2.map render) := by
  induction xs generalizing s with
  | nil => rfl
  | cons x xs ih =>
    have ih := ih _ (hinv s x hs)
    cases hx : read x with
    | none =>
      obtain ⟨hview, hout⟩ := hskip s x hx
      rw [List.filterMap_cons_none hx, ← hview, ih]
      simp [feedAll, hout]
    | some y =>
      rw [List.filterMap_cons_some hx]
      simp [feedAll, hstep s x y hs hx, ih]

/-- Where a piece stands in its frame. -/
inductive Mark
  | atomic | first | last | middle
deriving DecidableEq

/-- A piece of a frame: its mark, its number, what it says of the frame, its bytes. -/
structure Fragment (ν μ α : Type) where
  mark : Mark
  number : ν
  info : μ
  body : List α

/-- The marks of the pieces after the first. -/
def cutRest : List (List α) → List (Mark × List α)
  | [] => []
  | [piece] => [(.last, piece)]
  | piece :: pieces => (.middle, piece) :: cutRest pieces

def cut : List (List α) → List (Mark × List α)
  | [] => []
  | [piece] => [(.atomic, piece)]
  | piece :: pieces => (.first, piece) :: cutRest pieces

namespace Reassembly
variable {ν μ α : Type}

/-- A frame of which the first pieces are there. -/
structure Partial (ν μ α : Type) where
  info : μ
  number : ν
  body : List α

/-- A piece that does not follow on the one before it drops the frame, and so does one
that makes it longer than `limit`. -/
def step [DecidableEq ν] (next : ν → ν) (limit : Nat) (s : Option (Partial ν μ α))
    (x : Fragment ν μ α) :
    Option (Partial ν μ α) × List (μ × List α) :=
  match x.mark, s with
  | .atomic, s => (s, [(x.info, x.body)])
  | .first, _ => (some ⟨x.info, x.number, x.body⟩, [])
  | _, none => (none, [])
  | mark, some b =>
    if x.number ≠ next b.number then (none, [])
    else if limit < b.body.length + x.body.length then (none, [])
    else if mark = .last then (none, [(b.info, b.body ++ x.body)])
    else (some ⟨b.info, x.number, b.body ++ x.body⟩, [])

/-- The pieces of a frame under the numbers from position `n` on. -/
def numbered (number : Nat → ν) (info : μ) : Nat → List (Mark × List α) → List (Fragment ν μ α)
  | _, [] => []
  | n, (mark, body) :: rest => ⟨mark, number n, info, body⟩ :: numbered number info (n + 1) rest

/-- The pieces of frames that are sent one after another. -/
def fragments (number : Nat → ν) : Nat → List (μ × List (List α)) → List (Fragment ν μ α)
  | _, [] => []
  | n, f :: fs => numbered number f.1 n (cut f.2) ++ fragments number (n + f.2.length) fs

/-- The frame that the pieces are of. -/
def whole (f : μ × List (List α)) : μ × List α := (f.1, f.2.flatten)

end Reassembly

theorem cutRest_bodies (pieces : List (List α)) : (cutRest pieces).map (·.2) = pieces := by
  induction pieces using cutRest.induct with
  | case1 => rfl
  | case2 piece => rfl
  | case3 piece pieces hne ih => rw [cutRest, List.map_cons, ih]; exact hne

theorem cut_bodies (pieces : List (List α)) : (cut pieces).map (·.2) = pieces := by
  match pieces with
  | [] => rfl
  | [piece] => rfl
  | piece :: next :: rest => rw [cut, List.map_cons, cutRest_bodies]; simp

theorem cut_length (pieces : List (List α)) : (cut pieces).length = pieces.length := by
  rw [← List.length_map (·.2), cut_bodies]

theorem cutRest_mark (h : cutRest pieces = done ++ (mark, piece) :: rest) :
    mark = if rest.isEmpty then .last else .middle := by
  induction pieces using cutRest.induct generalizing done with
  | case1 => simp [cutRest] at h
  | case2 only =>
    cases done with
    | nil => simp_all [cutRest]
    | cons d done => simp [cutRest] at h
  | case3 first pieces hne ih =>
    rw [cutRest] at h
    · cases done with
      | nil =>
        simp only [List.nil_append, List.cons.injEq, Prod.mk.injEq] at h
        obtain ⟨⟨rfl, rfl⟩, rfl⟩ := h
        have hrest : cutRest pieces ≠ [] := by
          intro hnil
          have hpieces := cutRest_bodies pieces
          rw [hnil] at hpieces
          exact hne hpieces.symm
        simp [hrest]
      | cons d done => exact ih (List.cons.inj h).2
    · exact hne

/-- A mark tells what stands before a piece and after it. -/
theorem cut_mark (h : cut pieces = done ++ (mark, piece) :: rest) :
    mark = if done.isEmpty then (if rest.isEmpty then .atomic else .first)
      else if rest.isEmpty then .last else .middle := by
  match pieces with
  | [] => simp [cut] at h
  | [only] =>
    cases done with
    | nil => simp_all [cut]
    | cons d done => simp [cut] at h
  | first :: next :: pieces =>
    rw [cut] at h
    · cases done with
      | nil =>
        simp only [List.nil_append, List.cons.injEq, Prod.mk.injEq] at h
        obtain ⟨⟨rfl, rfl⟩, rfl⟩ := h
        have hrest : cutRest (next :: pieces) ≠ [] := by
          intro hnil
          have hpieces := cutRest_bodies (next :: pieces)
          rw [hnil] at hpieces
          cases hpieces
        simp [hrest]
      | cons d done => simpa using cutRest_mark (List.cons.inj h).2
    · simp

namespace Reassembly
section
variable {ν μ α : Type} {number : Nat → ν} {next : ν → ν} {limit : Nat}
  {frames : List (μ × List (List α))} {b : Partial ν μ α} {s : Option (Partial ν μ α)}

/-- A frame that comes in one piece is passed on; of any other the limit is minded. -/
def Fits (limit : Nat) (f : μ × List (List α)) : Prop :=
  f.2 ≠ [] ∧ (f.2.length = 1 ∨ f.2.flatten.length ≤ limit)

theorem step_follows [DecidableEq ν] (info : μ) (hlimit : b.body.length + body.length ≤ limit)
    (hmark : mark = .last ∨ mark = .middle) :
    step next limit (some b) ⟨mark, next b.number, info, body⟩ =
      if mark = .last then (none, [(b.info, b.body ++ body)])
      else (some ⟨b.info, next b.number, b.body ++ body⟩, []) := by
  rcases hmark with rfl | rfl <;> simp [step, Nat.not_lt.mpr hlimit]

theorem feedAll_rest [DecidableEq ν] (hsucc : ∀ n, number (n + 1) = next (number n))
    (pieces : List (List α))
    (hpieces : pieces ≠ []) (info : μ) (body : List α) (n : Nat)
    (hlimit : body.length + pieces.flatten.length ≤ limit) :
    feedAll (step next limit) (some ⟨info, number n, body⟩)
        (numbered number info (n + 1) (cutRest pieces)) =
      (none, [(info, body ++ pieces.flatten)]) := by
  induction pieces using cutRest.induct generalizing body n with
  | case1 => exact absurd rfl hpieces
  | case2 piece =>
    simp only [List.flatten_cons, List.flatten_nil, List.append_nil] at hlimit ⊢
    rw [cutRest, numbered, numbered, feedAll, hsucc, step_follows info hlimit (.inl rfl)]
    rfl
  | case3 piece pieces hne ih =>
    rw [List.flatten_cons, List.length_append] at hlimit
    have hrest := ih hne (body ++ piece) (n + 1) (by rw [List.length_append]; omega)
    rw [hsucc] at hrest
    rw [cutRest, numbered, feedAll, hsucc, step_follows info (by dsimp only; omega) (.inr rfl)]
    · simp [hrest]
    · exact hne

/-- The pieces of a frame, in order and alone, give the frame. -/
theorem feedAll_frame [DecidableEq ν] (hsucc : ∀ n, number (n + 1) = next (number n))
    (hfits : Fits limit f)
    (n : Nat) :
    feedAll (step next limit) none (numbered number f.1 n (cut f.2)) = (none, [whole f]) := by
  obtain ⟨info, pieces⟩ := f
  obtain ⟨hne, hlimit⟩ := hfits
  match pieces with
  | [] => exact absurd rfl hne
  | [piece] => simp [cut, numbered, feedAll, step, whole]
  | piece :: following :: rest =>
    have hlimit := hlimit.resolve_left (by simp)
    rw [List.flatten_cons, List.length_append] at hlimit
    rw [cut, numbered, feedAll]
    · have hrest := feedAll_rest hsucc (following :: rest) (by simp) info piece n hlimit
      simp only [step, hrest]
      simp [whole]
    · simp

theorem feedAll_fragments [DecidableEq ν] (hsucc : ∀ n, number (n + 1) = next (number n))
    (hfits : ∀ f ∈ frames, Fits limit f) (n : Nat) :
    feedAll (step next limit) none (fragments number n frames) = (none, frames.map whole) := by
  induction frames generalizing n with
  | nil => rfl
  | cons f frames ih =>
    obtain ⟨hf, hframes⟩ := List.forall_mem_cons.mp hfits
    rw [fragments, feedAll_append]
    simp [feedAll_frame hsucc hf, ih hframes]

theorem numbered_length (info : μ) (n : Nat) (xs : List (Mark × List α)) :
    (numbered number info n xs).length = xs.length := by
  induction xs generalizing n with
  | nil => rfl
  | cons x xs ih => simp [numbered, ih]

theorem numbered_drop (info : μ) (n i : Nat) (xs : List (Mark × List α)) :
    (numbered number info n xs).drop i = numbered number info (n + i) (xs.drop i) := by
  induction xs generalizing n i with
  | nil => simp [numbered]
  | cons x xs ih =>
    cases i with
    | zero => rfl
    | succ i =>
      rw [numbered, List.drop_succ_cons, ih, List.drop_succ_cons, Nat.add_assoc, Nat.add_comm 1]

/-- What stands at a position is the rest of a frame, and then more. -/
theorem drop_fragments (n : Nat) (hi : i < (fragments number n frames).length) :
    ∃ f ∈ frames, ∃ done rest more, cut f.2 = done ++ rest ∧ rest ≠ [] ∧
      (fragments number n frames).drop i = numbered number f.1 (n + i) rest ++ more := by
  induction frames generalizing n i with
  | nil => simp [fragments] at hi
  | cons f frames ih =>
    rw [fragments, List.length_append, numbered_length] at hi
    by_cases hin : i < (cut f.2).length
    · refine ⟨f, List.mem_cons_self, (cut f.2).take i, (cut f.2).drop i,
        fragments number (n + f.2.length) frames, (List.take_append_drop ..).symm, ?_, ?_⟩
      · exact List.drop_eq_nil_iff.not.mpr (Nat.not_le.mpr hin)
      · rw [fragments, List.drop_append_of_le_length (by rw [numbered_length]; omega), numbered_drop]
    · obtain ⟨g, hg, done, rest, more, hcut, hne, hdrop⟩ :=
        ih (n + f.2.length) (i := i - (cut f.2).length) (by omega)
      refine ⟨g, List.mem_cons_of_mem f hg, done, rest, more, hcut, hne, ?_⟩
      have hlength := cut_length f.2
      rw [fragments, List.drop_append, List.drop_eq_nil_of_le (by rw [numbered_length]; omega),
        List.nil_append, numbered_length, hdrop]
      congr 2
      omega

/-- At position `n` the pieces `rest` of a frame are to come. -/
def At (number : Nat → ν) (frames : List (μ × List (List α))) (n : Nat) (f : μ × List (List α))
    (done rest : List (Mark × List α)) : Prop :=
  f ∈ frames ∧ cut f.2 = done ++ rest ∧
    ∃ more, (fragments number 0 frames).drop n = numbered number f.1 n rest ++ more

theorem At.head (h : At number frames n f done ((mark, piece) :: rest)) :
    (fragments number 0 frames)[n]? = some ⟨mark, number n, f.1, piece⟩ ∧
      At number frames (n + 1) f (done ++ [(mark, piece)]) rest := by
  obtain ⟨hf, hcut, more, hdrop⟩ := h
  rw [numbered, List.cons_append] at hdrop
  refine ⟨by rw [← List.head?_drop, hdrop, List.head?_cons], hf, by simpa using hcut, more, ?_⟩
  rw [← List.tail_drop, hdrop, List.tail_cons]

theorem At.of_getElem? (hx : (fragments number 0 frames)[n]? = some x) :
    ∃ f done rest, At number frames n f done ((x.mark, x.body) :: rest) ∧
      x = ⟨x.mark, number n, f.1, x.body⟩ := by
  obtain ⟨hn, -⟩ := List.getElem?_eq_some_iff.mp hx
  obtain ⟨f, hf, done, rest, more, hcut, hne, hdrop⟩ := drop_fragments 0 hn
  obtain ⟨⟨mark, piece⟩, rest, rfl⟩ := List.exists_cons_of_ne_nil hne
  rw [Nat.zero_add] at hdrop
  have hat : At number frames n f done ((mark, piece) :: rest) := ⟨hf, hcut, more, hdrop⟩
  have hself := hat.head.1
  rw [hx, Option.some.injEq] at hself
  subst hself
  exact ⟨f, done, rest, hat, rfl⟩

/-- The pieces so far and those to come are the frame. -/
theorem At.flatten (h : At number frames n f done rest) :
    (done.map (·.2)).flatten ++ (rest.map (·.2)).flatten = f.2.flatten := by
  rw [← List.flatten_append, ← List.map_append, ← h.2.1, cut_bodies]

/-- The first pieces of a frame are there, up to the one at position `n`. -/
def Holds (number : Nat → ν) (frames : List (μ × List (List α))) (n : Nat) (b : Partial ν μ α) :
    Prop :=
  ∃ f done rest, At number frames (n + 1) f done rest ∧ done ≠ [] ∧ rest ≠ [] ∧
    b.info = f.1 ∧ b.number = number n ∧ b.body = (done.map (·.2)).flatten

/-- A piece that follows on those that are there completes their frame or is kept with them. -/
theorem Holds.step (h : Holds number frames n b)
    (hx : (fragments number 0 frames)[n + 1]? = some x)
    (hmark : x.mark = .last ∨ x.mark = .middle) :
    (x.mark = .last → ∃ f ∈ frames, (b.info, b.body ++ x.body) = whole f) ∧
      (x.mark = .middle → Holds number frames (n + 1) ⟨b.info, x.number, b.body ++ x.body⟩) := by
  obtain ⟨f, done, rest, hat, hdone, hrest, hinfo, -, hbody⟩ := h
  obtain ⟨⟨mark, piece⟩, rest, rfl⟩ := List.exists_cons_of_ne_nil hrest
  obtain ⟨hself, hnext⟩ := hat.head
  rw [hx, Option.some.injEq] at hself
  subst hself
  have hmarks := cut_mark hat.2.1
  rw [if_neg (by simpa using hdone)] at hmarks
  constructor
  · intro hlast
    cases rest with
    | cons y ys => simp [hmarks] at hlast
    | nil =>
      refine ⟨f, hat.1, ?_⟩
      rw [whole, ← hat.flatten, hinfo, hbody]
      simp
  · intro hmiddle
    refine ⟨f, done ++ [(mark, piece)], rest, hnext, by simp, ?_, hinfo, rfl, by simp [hbody]⟩
    rintro rfl
    simp [hmarks] at hmiddle

/-- Whatever piece comes, what is given out is a whole frame, and what is kept are the
first pieces of one. -/
theorem step_lossy [DecidableEq ν] (hx : (fragments number 0 frames)[n]? = some x)
    (hs : ∀ b, s = some b → ∃ m, newest = some m ∧ Holds number frames m b)
    (hnear : ∀ m, newest = some m → x.mark ≠ .atomic → number n = next (number m) → n = m + 1) :
    (∀ out ∈ (step next limit s x).2, ∃ f ∈ frames, out = whole f) ∧
      ∀ b, (step next limit s x).1 = some b →
        ∃ m, (if x.mark = .atomic then newest else some n) = some m ∧ Holds number frames m b := by
  obtain ⟨f, done, rest, hat, heq⟩ := At.of_getElem? hx
  have hmarks := cut_mark hat.2.1
  have hnumber : x.number = number n := by rw [heq]
  -- a piece that goes on with what is kept, if it is not dropped
  have hrest : x.mark = .last ∨ x.mark = .middle →
      (∀ out ∈ (step next limit s x).2, ∃ f ∈ frames, out = whole f) ∧
      ∀ b, (step next limit s x).1 = some b → ∃ m, some n = some m ∧ Holds number frames m b := by
    intro hmark
    cases s with
    | none => rcases hmark with hmark | hmark <;> simp [step, hmark]
    | some b =>
      obtain ⟨m, hnewest, hholds⟩ := hs b rfl
      by_cases hfollows : x.number = next b.number
      · have hb : b.number = number m := by
          obtain ⟨-, -, -, -, -, -, -, hb, -⟩ := hholds
          exact hb
        have hsucc : n = m + 1 := hnear m hnewest (by rcases hmark with h | h <;> simp [h])
          (hnumber ▸ hb ▸ hfollows)
        subst hsucc
        obtain ⟨hlast, hmiddle⟩ := hholds.step hx hmark
        by_cases hlimit : limit < b.body.length + x.body.length
        · rcases hmark with hmark | hmark <;> simp [step, hmark, hfollows, hlimit]
        · rcases hmark with hmark | hmark
          · simpa [step, hmark, hfollows, hlimit] using hlast hmark
          · have hkept := hmiddle hmark
            simp only [step, hmark, hfollows, ne_eq, not_true_eq_false, if_false, if_neg hlimit,
              reduceCtorEq, List.not_mem_nil, false_implies, implies_true, true_and]
            rintro c hc
            cases hc
            exact ⟨m + 1, rfl, hfollows ▸ hkept⟩
      · rcases hmark with hmark | hmark <;> simp [step, hmark, hfollows]
  cases hmark : x.mark with
  | atomic =>
    simp only [step, hmark, List.mem_singleton, forall_eq, if_true]
    refine ⟨⟨f, hat.1, ?_⟩, hs⟩
    have hall := hat.flatten
    have hdone : done = [] ∧ rest = [] := by grind [List.isEmpty_iff]
    rw [heq, whole, ← hall]
    simp [hdone]
  | first =>
    simp only [step, hmark, List.not_mem_nil, false_implies, implies_true, true_and]
    rintro c hc
    cases hc
    have hdone : done = [] ∧ rest ≠ [] := by grind [List.isEmpty_iff]
    refine ⟨n, by simp, f, _, _, hat.head.2, by simp, hdone.2, by rw [heq], by rw [heq], ?_⟩
    simp [hdone.1]
  | last => simpa [hmark] using hrest (.inl hmark)
  | middle => simpa [hmark] using hrest (.inr hmark)

/-- In any order and with any losses, only whole frames are given out, if two pieces that
come one after the other under successive numbers are successive. -/
theorem feedAll_lossy [DecidableEq ν] (positions : List Nat) (newest : Option Nat)
    (hs : ∀ b, s = some b → ∃ m, newest = some m ∧ Holds number frames m b)
    (hnear : (newest.toList ++ positions.filter fun n =>
        (fragments number 0 frames)[n]?.any (·.mark ≠ .atomic)).IsChain
      fun m n => number n = next (number m) → n = m + 1) :
    ∀ out ∈ (feedAll (step next limit) s
      (positions.filterMap ((fragments number 0 frames)[·]?))).2, ∃ f ∈ frames, out = whole f := by
  induction positions generalizing s newest with
  | nil => simp [feedAll]
  | cons n positions ih =>
    cases hx : (fragments number 0 frames)[n]? with
    | none =>
      rw [List.filterMap_cons_none hx]
      refine ih newest hs ?_
      simpa [hx] using hnear
    | some x =>
      have hsplit : (∀ m, newest = some m → x.mark ≠ .atomic → number n = next (number m) →
          n = m + 1) ∧ ((if x.mark = .atomic then newest else some n).toList ++
            positions.filter fun n => (fragments number 0 frames)[n]?.any (·.mark ≠ .atomic)).IsChain
              fun m n => number n = next (number m) → n = m + 1 := by
        by_cases hmark : x.mark = .atomic
        · simpa [hx, hmark] using hnear
        · cases newest with
          | none => simpa [hx, hmark] using hnear
          | some m => simpa [hx, hmark] using hnear
      obtain ⟨hout, hkept⟩ : (∀ out ∈ (step next limit s _).2, ∃ f ∈ frames, out = whole f) ∧ _ :=
        step_lossy hx hs hsplit.1
      rw [List.filterMap_cons_some hx, feedAll]
      intro out hmem
      rcases List.mem_append.mp hmem with hfirst | hlater
      · exact hout out hfirst
      · exact ih _ hkept hsplit.2 out hlater

end
end Reassembly
end CheetahMedia.Lib
