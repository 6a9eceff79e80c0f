import CheetahMedia.Lib.Transition
import Mathlib.Data.Fintype.EquivFin
import Mathlib.Data.List.Nodup
import Mathlib.Data.List.Perm.Subperm
import Mathlib.Logic.Relation
import Mathlib.Order.WellFounded

namespace CheetahMedia.Lib.Kahn
variable {α : Type} [DecidableEq α]

/-- The vertices that wait with no edge into them left, the number of edges left into each,
and what was taken so far. -/
structure State (α : Type) where
  queue : List α
  degree : α → Nat
  order : List α

/-- One edge into `next` goes. -/
def relax (s : State α) (next : α) : State α :=
  let degree := fun v => if v = next then s.degree v - 1 else s.degree v
  { s with degree, queue := if degree next = 0 then s.queue ++ [next] else s.queue }

def successors (edges : List (α × α)) (v : α) : List α :=
  (edges.filter (·.1 = v)).map (·.2)

def indegree (edges : List (α × α)) (v : α) : Nat := edges.countP (·.2 = v)

def loop (edges : List (α × α)) : Nat → State α → List α
  | 0, s => s.order
  | fuel + 1, s =>
    match s.queue with
    | [] => s.order
    | v :: rest =>
      loop edges fuel
        ((successors edges v).foldl relax { s with queue := rest, order := s.order ++ [v] })

/-- Takes vertices with no edge into them, one after the other, with their edges. Each is taken
once at most, so their number bounds the turns. -/
def sort (edges : List (α × α)) (keys : List α) : List α :=
  loop edges keys.length
    { queue := keys.filter (indegree edges · = 0), degree := indegree edges, order := [] }

/-- What the edges of one vertex do, when as many are left as are taken. -/
theorem foldl_relax (l : List α) (s : State α) (hcount : ∀ v, l.count v ≤ s.degree v) :
    (∀ v, (l.foldl relax s).degree v = s.degree v - l.count v) ∧
      (l.foldl relax s).order = s.order ∧
      ∃ added, (l.foldl relax s).queue = s.queue ++ added ∧ added.Nodup ∧
        ∀ v, v ∈ added ↔ v ∈ l ∧ s.degree v = l.count v := by
  induction l generalizing s with
  | nil => exact ⟨fun _ => rfl, rfl, [], (List.append_nil _).symm, List.nodup_nil, by simp⟩
  | cons next l ih =>
    have hnext := hcount next
    rw [List.count_cons_self] at hnext
    have hdegree : ∀ v, (relax s next).degree v + (if v = next then 1 else 0) = s.degree v := by
      intro v
      unfold relax
      dsimp only
      split
      · rename_i heq
        subst heq
        omega
      · rfl
    have hcons : ∀ v, (next :: l).count v = l.count v + if v = next then 1 else 0 := by
      intro v
      by_cases heq : v = next
      · subst heq
        rw [List.count_cons_self, if_pos rfl]
      · rw [List.count_cons_of_ne (Ne.symm heq), if_neg heq]
        rfl
    obtain ⟨hfinal, horder, added, hqueue, hnodup, hadded⟩ := ih (relax s next) fun v => by
      have := hcount v
      rw [hcons v, ← hdegree v] at this
      omega
    refine ⟨fun v => ?_, horder, ?_⟩
    · rw [List.foldl_cons, hfinal, hcons v, ← hdegree v]
      omega
    · by_cases hzero : (relax s next).degree next = 0
      · have hqueue' : (relax s next).queue = s.queue ++ [next] := by
          unfold relax at hzero ⊢
          dsimp only at hzero ⊢
          rw [if_pos hzero]
        have hout : next ∉ l := fun h => by
          have hpos := List.count_pos_iff.mpr h
          have hleft := hcount next
          rw [hcons next, ← hdegree next] at hleft
          omega
        refine ⟨next :: added, ?_, ?_, fun v => ?_⟩
        · rw [List.foldl_cons, hqueue, hqueue', List.append_assoc]
          rfl
        · exact List.nodup_cons.mpr ⟨fun h => hout ((hadded next).mp h).1, hnodup⟩
        · rw [List.mem_cons, List.mem_cons, hadded, hcons v, ← hdegree v]
          by_cases heq : v = next
          · subst heq
            have := List.count_eq_zero.mpr hout
            simp only [true_or, if_true, true_and, true_iff]
            omega
          · simp [heq]
      · have hqueue' : (relax s next).queue = s.queue := by
          unfold relax at hzero ⊢
          dsimp only at hzero ⊢
          rw [if_neg hzero]
        refine ⟨added, ?_, hnodup, fun v => ?_⟩
        · rw [List.foldl_cons, hqueue, hqueue']
        · rw [hadded, List.mem_cons, hcons v, ← hdegree v]
          by_cases heq : v = next
          · subst heq
            simp only [true_or, if_true, true_and, Nat.add_right_cancel_iff, and_iff_right_iff_imp]
            intro hsame
            refine List.count_pos_iff.mp ?_
            omega
          · simp [heq]

/-- Every vertex comes after the sources of its edges. -/
def Sorted (edges : List (α × α)) (order : List α) : Prop :=
  AtEach (fun before v => ∀ d, (d, v) ∈ edges → d ∈ before) order

structure Inv (edges : List (α × α)) (keys : List α) (s : State α) : Prop where
  nodup : (s.order ++ s.queue).Nodup
  among : ∀ v ∈ s.order ++ s.queue, v ∈ keys
  degree : ∀ v, s.degree v = edges.countP fun e => e.2 = v ∧ e.1 ∉ s.order
  ready : ∀ v ∈ keys, v ∈ s.order ++ s.queue ↔ s.degree v = 0
  sorted : Sorted edges s.order

variable {edges : List (α × α)} {keys : List α}

theorem inv_init (edges : List (α × α)) (hkeys : keys.Nodup) : Inv edges keys
    { queue := keys.filter (indegree edges · = 0), degree := indegree edges, order := [] } where
  nodup := hkeys.filter _
  among v hv := (List.mem_filter.mp hv).1
  degree v := by simp [indegree]
  ready v hv := by simp [hv]
  sorted := atEach_nil

theorem count_successors (v w : α) :
    (successors edges v).count w = edges.countP fun e => e.2 = w ∧ e.1 = v := by
  unfold successors
  rw [List.count, List.countP_map, List.countP_filter]
  congr 1
  funext e
  simp [Bool.beq_eq_decide_eq]

/-- An edge left into `w` comes from `v` or from a vertex that is left after `v`. -/
theorem countP_split (edges : List (α × α)) (order : List α) (hv : v ∉ order) (w : α) :
    (edges.countP fun e => e.2 = w ∧ e.1 ∉ order) =
      (edges.countP fun e => e.2 = w ∧ e.1 ∉ order ++ [v]) + (successors edges v).count w := by
  rw [count_successors]
  induction edges with
  | nil => rfl
  | cons e edges ih =>
    simp only [List.countP_cons, ih, List.mem_append, List.mem_singleton, not_or,
      decide_eq_true_eq]
    by_cases hw : e.2 = w
    · by_cases hfrom : e.1 = v
      · simp [hw, hfrom, hv]
        omega
      · simp [hw, hfrom]
        omega
    · simp [hw]

theorem Inv.step (h : Inv edges keys s) (hedges : ∀ e ∈ edges, e.2 ∈ keys)
    (hqueue : s.queue = v :: rest) : Inv edges keys
      ((successors edges v).foldl relax { s with queue := rest, order := s.order ++ [v] }) := by
  have hnodup := h.nodup
  rw [hqueue] at hnodup
  have hout : v ∉ s.order := fun hv =>
    (List.nodup_append.mp hnodup).2.2 v hv v List.mem_cons_self rfl
  have hsplit := countP_split edges s.order hout
  have hmem : ∀ w, w ∈ s.order ++ s.queue ↔ w ∈ (s.order ++ [v]) ++ rest := by simp [hqueue]
  obtain ⟨hdegree, horder, added, hadded, hadded_nodup, hadded_mem⟩ :=
    foldl_relax (successors edges v) { s with queue := rest, order := s.order ++ [v] } fun w => by
      rw [h.degree w, hsplit w]
      exact Nat.le_add_left ..
  have hkey : ∀ w ∈ added, w ∈ keys := fun w hw => by
    obtain ⟨e, he, rfl⟩ := List.mem_map.mp ((hadded_mem w).mp hw).1
    exact hedges e (List.mem_filter.mp he).1
  have hfresh : ∀ w ∈ added, w ∉ s.order ++ s.queue := fun w hw hold => by
    obtain ⟨hsucc, hcount⟩ := (hadded_mem w).mp hw
    have hzero : s.degree w = 0 := (h.ready w (h.among w hold)).mp hold
    have hpos := List.count_pos_iff.mpr hsucc
    dsimp only at hcount
    omega
  exact {
    nodup := by
      rw [horder, hadded, ← List.append_assoc]
      refine List.nodup_append.mpr ⟨by simpa using hnodup, hadded_nodup, fun x hx y hy heq => ?_⟩
      exact hfresh y hy ((hmem y).mpr (heq ▸ hx))
    among := fun w hw => by
      rw [horder, hadded, ← List.append_assoc] at hw
      rcases List.mem_append.mp hw with hw | hw
      · exact h.among w ((hmem w).mpr hw)
      · exact hkey w hw
    degree := fun w => by
      rw [hdegree, horder]
      dsimp only
      rw [h.degree w, hsplit w]
      exact Nat.add_sub_cancel ..
    ready := fun w hw => by
      have hready := h.ready w hw
      have hle : (successors edges v).count w ≤ s.degree w := by
        rw [h.degree w, hsplit w]
        exact Nat.le_add_left ..
      rw [hdegree, horder, hadded, ← List.append_assoc, List.mem_append, ← hmem, hready, hadded_mem]
      dsimp only
      constructor
      · rintro (hzero | ⟨-, hcount⟩) <;> omega
      · intro hzero
        by_cases hdone : s.degree w = 0
        · exact .inl hdone
        · exact .inr ⟨List.count_pos_iff.mp (by omega), by omega⟩
    sorted := by
      rw [horder]
      refine h.sorted.snoc fun d hd => ?_
      have hzero := (h.ready v (h.among v (by simp [hqueue]))).mp (by simp [hqueue])
      rw [h.degree v, List.countP_eq_zero] at hzero
      by_contra hleft
      exact hzero (d, v) hd (by simp [hleft]) }

/-- The turns are enough: at the end nothing waits. -/
theorem loop_spec (hedges : ∀ e ∈ edges, e.2 ∈ keys) (h : Inv edges keys s)
    (hfuel : fuel + s.order.length = keys.length) :
    ∃ t, Inv edges keys t ∧ t.queue = [] ∧ loop edges fuel s = t.order := by
  induction fuel generalizing s with
  | zero =>
    refine ⟨s, h, ?_, rfl⟩
    have hle := (List.subperm_of_subset h.nodup h.among).length_le
    rw [List.length_append] at hle
    exact List.eq_nil_of_length_eq_zero (by omega)
  | succ fuel ih =>
    rw [loop]
    split
    · rename_i hqueue
      exact ⟨s, h, hqueue, rfl⟩
    · rename_i v rest hqueue
      have hout : v ∉ s.order := fun hv => by
        have hnodup := h.nodup
        rw [hqueue] at hnodup
        exact (List.nodup_append.mp hnodup).2.2 v hv v List.mem_cons_self rfl
      obtain ⟨-, horder, -⟩ := foldl_relax (successors edges v)
        { s with queue := rest, order := s.order ++ [v] } fun w => by
          rw [h.degree w, countP_split edges s.order hout w]
          exact Nat.le_add_left ..
      refine ih (h.step hedges hqueue) ?_
      rw [horder, List.length_append, List.length_singleton]
      omega

/-- What is sorted, and why anything is left out: it has an edge from something left out. -/
theorem sort_spec (hedges : ∀ e ∈ edges, e.2 ∈ keys) (hkeys : keys.Nodup) :
    (sort edges keys).Nodup ∧ (∀ v ∈ sort edges keys, v ∈ keys) ∧ Sorted edges (sort edges keys) ∧
      ∀ v ∈ keys, v ∉ sort edges keys → ∃ d, (d, v) ∈ edges ∧ d ∉ sort edges keys := by
  obtain ⟨t, ht, hqueue, hsort⟩ := loop_spec hedges (inv_init edges hkeys)
    (Nat.add_zero keys.length)
  have hsort : sort edges keys = t.order := hsort
  have hnodup := ht.nodup
  have hall := ht.among
  have hready := ht.ready
  rw [hqueue, List.append_nil] at hnodup hall hready
  rw [hsort]
  refine ⟨hnodup, hall, ht.sorted, fun v hv hleft => ?_⟩
  have hdegree : t.degree v ≠ 0 := fun hzero => hleft ((hready v hv).mpr hzero)
  rw [ht.degree v] at hdegree
  obtain ⟨e, he, hinto⟩ := List.countP_pos_iff.mp (Nat.pos_of_ne_zero hdegree)
  obtain ⟨hinto, hfrom⟩ := of_decide_eq_true hinto
  exact ⟨e.1, hinto ▸ he, hfrom⟩

omit [DecidableEq α] in
theorem Sorted.split (h : Sorted edges order) (hv : v ∈ order) :
    ∃ before after, order = before ++ v :: after ∧ ∀ d, (d, v) ∈ edges → d ∈ before := by
  obtain ⟨before, after, heq⟩ := List.append_of_mem hv
  exact ⟨before, after, heq, h before v after heq⟩

theorem Sorted.idxOf_lt (h : Sorted edges order) (hnodup : order.Nodup) (hv : v ∈ order)
    (hedge : (d, v) ∈ edges) : order.idxOf d < order.idxOf v := by
  obtain ⟨before, after, rfl, hbefore⟩ := h.split hv
  have hd := hbefore d hedge
  have hout : v ∉ before := fun hv' =>
    (List.nodup_append.mp hnodup).2.2 v hv' v List.mem_cons_self rfl
  rw [List.idxOf_append_of_mem hd, List.idxOf_append_of_notMem hout]
  have := List.idxOf_lt_length_of_mem hd
  omega

/-- Everything is sorted exactly when no vertex can be reached from itself. -/
theorem sort_length_iff (hedges : ∀ e ∈ edges, e.1 ∈ keys ∧ e.2 ∈ keys) (hkeys : keys.Nodup) :
    (sort edges keys).length = keys.length ↔
      ∀ v, ¬Relation.TransGen (fun a b => (a, b) ∈ edges) v v := by
  obtain ⟨hnodup, hall, hsorted, hleft⟩ := sort_spec (fun e he => (hedges e he).2) hkeys
  constructor
  · intro hlength v hcycle
    have hperm : (sort edges keys).Perm keys :=
      (List.subperm_of_subset hnodup hall).perm_of_length_le (Nat.le_of_eq hlength.symm)
    have hlt : ∀ a b, Relation.TransGen (fun a b => (a, b) ∈ edges) a b →
        (sort edges keys).idxOf a < (sort edges keys).idxOf b := by
      intro a b hab
      induction hab with
      | single hedge => exact hsorted.idxOf_lt hnodup (hperm.mem_iff.mpr (hedges _ hedge).2) hedge
      | tail _ hedge ih =>
        exact ih.trans (hsorted.idxOf_lt hnodup (hperm.mem_iff.mpr (hedges _ hedge).2) hedge)
    exact Nat.lt_irrefl _ (hlt v v hcycle)
  · intro hacyclic
    have hwf : WellFounded fun a b : {v // v ∈ keys} =>
        Relation.TransGen (fun a b => (a, b) ∈ edges) a.1 b.1 := by
      have : IsTrans {v // v ∈ keys} fun a b =>
          Relation.TransGen (fun a b => (a, b) ∈ edges) a.1 b.1 := ⟨fun _ _ _ h h' => h.trans h'⟩
      have : Std.Irrefl fun a b : {v // v ∈ keys} =>
          Relation.TransGen (fun a b => (a, b) ∈ edges) a.1 b.1 := ⟨fun a => hacyclic a.1⟩
      exact Finite.wellFounded_of_trans_of_irrefl _
    have hevery : ∀ v : {v // v ∈ keys}, v.1 ∈ sort edges keys := by
      intro v
      induction v using hwf.induction with
      | h v ih =>
        by_contra hout
        obtain ⟨d, hd, hout⟩ := hleft v.1 v.2 hout
        exact hout (ih ⟨d, (hedges _ hd).1⟩ (.single hd))
    refine Nat.le_antisymm (List.subperm_of_subset hnodup hall).length_le ?_
    exact (List.subperm_of_subset hkeys fun v hv => hevery ⟨v, hv⟩).length_le

end CheetahMedia.Lib.Kahn
