import Mathlib.Data.Finset.Card
import Mathlib.Data.List.AList
import Mathlib.Data.List.Basic

namespace CheetahMedia.Lib

section Latest
variable {α β : Type} {n : Nat} {l : List α} {x : α}

/-- The last ones of a list. -/
def latest (n : Nat) (l : List α) : List α := l.drop (l.length - n)

theorem latest_suffix (n : Nat) (l : List α) : latest n l <:+ l := List.drop_suffix _ l

theorem mem_of_mem_latest (h : x ∈ latest n l) : x ∈ l := List.mem_of_mem_drop h

theorem length_latest (n : Nat) (l : List α) : (latest n l).length = min n l.length := by
  rw [latest, List.length_drop]
  omega

theorem map_latest (f : α → β) (n : Nat) (l : List α) : (latest n l).map f = latest n (l.map f) := by
  rw [latest, latest, List.map_drop, List.length_map]

/-- One more is added, and the first one goes if there are too many then. -/
theorem latest_concat (n : Nat) (l : List α) (x : α) :
    (if n < (latest n l ++ [x]).length then (latest n l ++ [x]).drop 1 else latest n l ++ [x]) =
      latest n (l ++ [x]) := by
  rw [List.length_append, length_latest, List.length_singleton, latest, latest,
    List.length_append, List.length_singleton]
  split
  · rw [← List.drop_append_of_le_length (by omega), List.drop_drop]
    congr 1
    omega
  · rw [show l.length - n = 0 by omega, show l.length + 1 - n = 0 by omega]
    rfl

/-- The first one goes if there is no room, and one more is added. -/
theorem latest_make_room (hn : 1 ≤ n) (l : List α) (x : α) :
    (if n ≤ (latest n l).length then (latest n l).drop 1 else latest n l) ++ [x] =
      latest n (l ++ [x]) := by
  rw [length_latest, latest, latest, List.length_append, List.length_singleton,
    List.drop_append_of_le_length (by omega)]
  split
  · rw [List.drop_drop, show l.length - n + 1 = l.length + 1 - n by omega]
  · rw [show l.length - n = 0 by omega, show l.length + 1 - n = 0 by omega]

theorem mem_latest_concat (hn : 1 ≤ n) (l : List α) (x : α) : x ∈ latest n (l ++ [x]) := by
  rw [← latest_make_room hn]
  exact List.mem_append_right _ List.mem_cons_self

end Latest

section Recent
variable {α : Type} [DecidableEq α]

/-- The distinct elements of a list, the one used last first. -/
def recent (xs : List α) : List α := xs.foldl (fun seen x => x :: seen.erase x) []

theorem recent_snoc (xs : List α) (x : α) : recent (xs ++ [x]) = x :: (recent xs).erase x := by
  simp [recent]

theorem mem_recent {xs : List α} : x ∈ recent xs ↔ x ∈ xs := by
  induction xs using List.reverseRecOn with
  | nil => simp [recent]
  | append_singleton xs y ih =>
    rw [recent_snoc]
    by_cases h : x = y
    · simp [h]
    · simp [h, List.mem_erase_of_ne h, ih]

theorem nodup_recent (xs : List α) : (recent xs).Nodup := by
  induction xs using List.reverseRecOn with
  | nil => simp [recent]
  | append_singleton xs x ih =>
    rw [recent_snoc]
    exact List.nodup_cons.mpr ⟨ih.not_mem_erase, ih.erase x⟩

/-- What was used since `x` stands before `x`. -/
theorem recent_split (before : List α) (h : x ∉ between) : ∃ front rest,
    recent (before ++ x :: between) = front ++ x :: rest ∧ ∀ y, y ∈ front ↔ y ∈ between := by
  induction between using List.reverseRecOn with
  | nil => exact ⟨[], (recent before).erase x, recent_snoc before x, by simp⟩
  | append_singleton between z ih =>
    obtain ⟨hbetween, hz⟩ := not_or.mp (List.mem_append.not.mp h)
    have hne : x ≠ z := fun heq => hz (List.mem_singleton.mpr heq)
    obtain ⟨front, rest, hrecent, hfront⟩ := ih hbetween
    have hsnoc : recent (before ++ x :: (between ++ [z])) = z :: (front ++ x :: rest).erase z := by
      rw [← hrecent, ← recent_snoc]
      simp
    by_cases hmem : z ∈ front
    · rw [List.erase_append_left _ hmem] at hsnoc
      refine ⟨z :: front.erase z, rest, hsnoc, fun y => ?_⟩
      by_cases hy : y = z
      · simp [hy]
      · simp [hy, List.mem_erase_of_ne hy, hfront]
    · rw [List.erase_append_right _ hmem, List.erase_cons_tail (by simpa using hne)] at hsnoc
      refine ⟨z :: front, rest.erase z, hsnoc, fun y => ?_⟩
      simp [hfront, or_comm]

/-- An element is among the last `n` used for as long as fewer others were used since. -/
theorem mem_take_recent (before : List α) (h : x ∉ between) (n : Nat) :
    x ∈ (recent (before ++ x :: between)).take n ↔ between.toFinset.card < n := by
  obtain ⟨front, rest, hrecent, hfront⟩ := recent_split before h
  have hnodup := nodup_recent (before ++ x :: between)
  rw [hrecent] at hnodup ⊢
  obtain ⟨hfrontNodup, -, hdisjoint⟩ := List.nodup_append.mp hnodup
  have hx : x ∉ front := fun hmem => hdisjoint x hmem x (List.mem_cons_self ..) rfl
  have hcard : between.toFinset.card = front.length := by
    rw [← List.toFinset_card_of_nodup hfrontNodup]
    congr 1
    ext y
    simp [hfront]
  rw [hcard, List.take_append]
  constructor
  · intro hmem
    by_contra hge
    rw [Nat.sub_eq_zero_of_le (by omega), List.take_zero, List.append_nil] at hmem
    exact hx (List.mem_of_mem_take hmem)
  · intro hlt
    obtain ⟨m, hm⟩ : ∃ m, n - front.length = m + 1 := ⟨n - front.length - 1, by omega⟩
    rw [hm, List.take_succ_cons]
    exact List.mem_append_right _ (List.mem_cons_self ..)

section Keep
variable {seen : List α}

/-- Using one of the first `n` again moves it to the front. -/
theorem take_used (hx : x ∈ seen.take n) :
    (x :: seen.erase x).take n = x :: (seen.take n).erase x := by
  induction seen generalizing n with
  | nil => simp at hx
  | cons y seen ih =>
    cases n with
    | zero => simp at hx
    | succ n =>
      by_cases hxy : y = x
      · subst hxy
        simp
      · rw [List.take_succ_cons] at hx
        have hrest := ih ((List.mem_cons.mp hx).resolve_left (Ne.symm hxy))
        have hpos : 0 < n := by
          rcases n with - | n
          · simp [Ne.symm hxy] at hx
          · omega
        obtain ⟨m, rfl⟩ : ∃ m, n = m + 1 := ⟨n - 1, by omega⟩
        rw [List.take_succ_cons] at hrest
        have hne : ¬(y == x) = true := by simpa using hxy
        simp only [List.take_succ_cons, List.erase_cons_tail hne, List.cons.injEq, true_and]
          at hrest ⊢
        exact hrest

/-- With room left the new one comes to what is there. -/
theorem take_new_room (hx : x ∉ seen.take n) (hroom : (seen.take n).length < n) :
    (x :: seen.erase x).take n = x :: seen.take n := by
  have hlen : seen.length < n := by
    rw [List.length_take] at hroom
    omega
  rw [List.take_of_length_le (Nat.le_of_lt hlen)] at hx ⊢
  rw [List.erase_of_not_mem hx, List.take_of_length_le (by rw [List.length_cons]; omega)]

/-- With none left the one used longest ago makes way for it. -/
theorem take_new_full (hx : x ∉ seen.take n) (hfull : n ≤ (seen.take n).length) (hn : 0 < n) :
    (x :: seen.erase x).take n = x :: (seen.take n).dropLast := by
  obtain ⟨m, rfl⟩ : ∃ m, n = m + 1 := ⟨n - 1, by omega⟩
  have hlen : (seen.take (m + 1)).length = m + 1 := by
    have hle := List.length_take_le (m + 1) seen
    omega
  have hsplit : seen.erase x = seen.take (m + 1) ++ (seen.drop (m + 1)).erase x := by
    conv_lhs => rw [← List.take_append_drop (m + 1) seen]
    exact List.erase_append_right _ hx
  rw [List.take_succ_cons, hsplit, List.take_append_of_le_length (by omega),
    List.dropLast_eq_take, hlen, Nat.add_sub_cancel]

end Keep

end Recent
end CheetahMedia.Lib
