import Mathlib.Data.List.Induction
import Mathlib.Data.List.Infix
import Mathlib.Logic.Function.Iterate
import CheetahMedia.Lib.Text

namespace CheetahMedia.Lib

/-- A path as the standard library keeps it, a text with slashes. -/
abbrev PathBuf := Text

namespace PathBuf

def isAbsolute (path : PathBuf) : Bool := path.head? = some '/'

/-- An absolute path takes the place of the one it is pushed onto. -/
def push (path s : PathBuf) : PathBuf :=
  if isAbsolute s then s
  else if path = [] ∨ path.getLast? = some '/' then path ++ s
  else path ++ '/' :: s

def components (path : PathBuf) : List Text := path.splitOn '/'

/-- Where a path leads: from the root or from the working directory, so many directories up and
then down these names. -/
structure Place where
  absolute : Bool
  up : Nat
  names : List Text
deriving DecidableEq

namespace Place

def here : Place := ⟨false, 0, []⟩

/-- The root is its own parent. -/
def parent (p : Place) : Place :=
  if p.names = [] then
    if p.absolute then p else { p with up := p.up + 1 }
  else { p with names := p.names.dropLast }

def descend (p : Place) (names : List Text) : Place := { p with names := p.names ++ names }

def climb (p : Place) (n : Nat) : Place := parent^[n] p

/-- What one component does. -/
def enter (p : Place) (component : Text) : Place :=
  if component = [] ∨ component = ['.'] then p
  else if component = ['.', '.'] then p.parent
  else p.descend [component]

def walk (p : Place) (cs : List Text) : Place := cs.foldl enter p

/-- The names go on where the others end. -/
def Extends (names base : List Text) : Prop := ∃ rest, rest ≠ [] ∧ names = base ++ rest

instance (names base : List Text) : Decidable (Extends names base) :=
  decidable_of_iff (base <+: names ∧ names ≠ base) <| by
    constructor
    · rintro ⟨⟨rest, rfl⟩, hne⟩
      exact ⟨rest, fun h => hne (by rw [h, List.append_nil]), rfl⟩
    · rintro ⟨rest, hrest, rfl⟩
      exact ⟨List.prefix_append .., fun h => hrest (List.append_right_eq_self.mp h)⟩

/-- Strictly below a directory. -/
def Below (p root : Place) : Prop :=
  p.absolute = root.absolute ∧ p.up = root.up ∧ Extends p.names root.names

instance (p root : Place) : Decidable (p.Below root) := inferInstanceAs (Decidable (_ ∧ _ ∧ _))

end Place

/-- The place of a path, without a look at what is there. -/
def place (path : PathBuf) : Place := Place.walk ⟨isAbsolute path, 0, []⟩ (components path)

/-- Every push leads to a place below the directory. -/
def StaysBelow (root : Place) : PathBuf → List PathBuf → Prop
  | _, [] => True
  | path, s :: rest => (place (push path s)).Below root ∧ StaysBelow root (push path s) rest

instance decidableStaysBelow (root : Place) :
    ∀ path ss, Decidable (StaysBelow root path ss)
  | _, [] => inferInstanceAs (Decidable True)
  | path, s :: rest =>
    have := decidableStaysBelow root (push path s) rest
    inferInstanceAs (Decidable (_ ∧ _))

/-- A name that stands for one directory or file. -/
structure Normal (name : Text) : Prop where
  solid : '/' ∉ name
  ne_nil : name ≠ []
  ne_dot : name ≠ ['.']
  ne_dots : name ≠ ['.', '.']

namespace Place
variable {p root : Place}

@[simp] theorem descend_nil (p : Place) : p.descend [] = p := by
  rw [descend, List.append_nil]

theorem descend_append (p : Place) (a b : List Text) :
    p.descend (a ++ b) = (p.descend a).descend b := by
  simp only [descend, List.append_assoc]

theorem walk_append (p : Place) (cs ds : List Text) : p.walk (cs ++ ds) = (p.walk cs).walk ds :=
  List.foldl_append

theorem walk_skip (p : Place) : p.walk [[]] = p := rfl

theorem enter_normal (h : Normal name) (p : Place) : p.enter name = p.descend [name] := by
  rw [enter, if_neg (not_or.mpr ⟨h.ne_nil, h.ne_dot⟩), if_neg h.ne_dots]

theorem parent_descend (p : Place) (names : List Text) (name : Text) :
    (p.descend (names ++ [name])).parent = p.descend names := by
  simp [parent, descend, ← List.append_assoc]

theorem enter_absolute (p : Place) (c : Text) : (p.enter c).absolute = p.absolute := by
  unfold enter parent descend
  split_ifs <;> rfl

theorem walk_absolute (p : Place) (cs : List Text) : (p.walk cs).absolute = p.absolute := by
  induction cs generalizing p with
  | nil => rfl
  | cons c cs ih => exact (ih _).trans (enter_absolute p c)

/-- Every walk goes some directories up, and then down some names. -/
theorem walk_eq (p : Place) (cs : List Text) :
    p.walk cs = (p.climb (here.walk cs).up).descend (here.walk cs).names := by
  induction cs using List.reverseRecOn with
  | nil => exact (descend_nil p).symm
  | append_singleton cs c ih =>
    rw [walk_append, walk_append, ih]
    obtain ⟨up, names, hq⟩ : ∃ up names, here.walk cs = ⟨false, up, names⟩ :=
      ⟨_, _, congrArg (Place.mk · _ _) (walk_absolute here cs)⟩
    rw [hq]
    show (_ : Place).enter c = (p.climb (Place.enter _ c).up).descend (Place.enter _ c).names
    unfold enter
    split_ifs
    · rfl
    · -- A `..` takes the last name back, or goes up once more.
      rcases List.eq_nil_or_concat names with rfl | ⟨names, name, rfl⟩
      · simp [parent, climb, Function.iterate_succ_apply']
      · rw [List.concat_eq_append, parent_descend]
        simp [parent]
    · exact (descend_append _ _ _).symm

theorem dropLast_take_sub (l : List Text) (n : Nat) :
    (l.take (l.length - n)).dropLast = l.take (l.length - (n + 1)) := by
  rw [List.dropLast_eq_take, List.length_take, List.take_take]
  congr 1
  omega

/-- As long as the names last, going up takes them back. -/
theorem climb_descend (p : Place) {l : List Text} (h : n ≤ l.length) :
    (p.descend l).climb n = p.descend (l.take (l.length - n)) := by
  induction n with
  | zero => rw [Nat.sub_zero, List.take_length]; rfl
  | succ n ih =>
    rw [climb, Function.iterate_succ_apply', ← climb, ih (by omega), ← dropLast_take_sub]
    rcases List.eq_nil_or_concat (l.take (l.length - n)) with hnil | ⟨front, name, hfront⟩
    · have := List.take_eq_nil_iff.mp hnil
      rcases this with hzero | rfl
      · omega
      · cases h
    · rw [hfront, List.concat_eq_append, parent_descend, List.dropLast_concat]

theorem climb_add (p : Place) (m n : Nat) : p.climb (m + n) = (p.climb n).climb m :=
  Function.iterate_add_apply ..

/-- From a directory so many levels up the names lead back, and below where it started. -/
def Returns (root : Place) (n : Nat) (names : List Text) : Prop :=
  (root.absolute ∨ n ≤ root.names.length) ∧
    Extends names (root.names.drop (root.names.length - n))

theorem climb_names (root : Place) (n : Nat) :
    root.climb n = ⟨root.absolute,
      if root.absolute then root.up else root.up + (n - root.names.length),
      root.names.take (root.names.length - n)⟩ := by
  induction n with
  | zero => simp [climb]
  | succ n ih =>
    rw [climb, Function.iterate_succ_apply', ← climb, ih, parent]
    by_cases hle : n < root.names.length
    · have hnames : root.names.take (root.names.length - n) ≠ [] := by
        rw [Ne, List.take_eq_nil_iff, not_or]
        exact ⟨by omega, List.ne_nil_of_length_pos (by omega)⟩
      rw [if_neg hnames]
      simp only [Nat.sub_eq_zero_of_le hle.le, Nat.sub_eq_zero_of_le (Nat.succ_le_of_lt hle),
        dropLast_take_sub]
    · rw [if_pos (by simp; omega), Nat.sub_eq_zero_of_le (Nat.not_lt.mp hle),
        Nat.sub_eq_zero_of_le (by omega : root.names.length ≤ n + 1)]
      cases root.absolute
      · simp; omega
      · rfl

theorem below_climb_iff (root : Place) (n : Nat) (names : List Text) :
    ((root.climb n).descend names).Below root ↔ root.Returns n names := by
  have hsplit := List.take_append_drop (root.names.length - n) root.names
  rw [climb_names]
  unfold Below Returns descend
  dsimp only
  constructor
  · rintro ⟨-, hup, rest, hrest, heq⟩
    refine ⟨?_, rest, hrest, ?_⟩
    · by_cases habs : root.absolute
      · exact .inl habs
      · rw [if_neg habs] at hup
        omega
    · rw [← hsplit, List.append_assoc, List.take_append_drop] at heq
      exact List.append_cancel_left heq
  · rintro ⟨hroot, rest, hrest, rfl⟩
    refine ⟨rfl, ?_, rest, hrest, by rw [← List.append_assoc, hsplit]⟩
    split_ifs with habs
    · rfl
    · have := hroot.resolve_left habs
      omega

/-- A path that is pushed below a directory, at `base`, leads below that directory: it goes up
less far than `base` goes down, or up to the directory or further and back below it; an absolute
path names a place below it. -/
def Reaches (root : Place) (base : List Text) (s : PathBuf) : Prop :=
  if isAbsolute s then (place s).Below root
  else (place s).up < base.length ∨
    base.length ≤ (place s).up ∧ root.Returns ((place s).up - base.length) (place s).names

theorem below_descend (h : l ≠ []) : (root.descend l).Below root := ⟨rfl, rfl, l, h, rfl⟩

end Place

section Push

theorem components_append (a b : PathBuf) :
    components (a ++ '/' :: b) = components a ++ components b :=
  List.splitOn_append_cons_self a b

theorem isAbsolute_append (h : a ≠ []) (b : PathBuf) : isAbsolute (a ++ b) = isAbsolute a := by
  obtain ⟨c, rest, rfl⟩ := List.exists_cons_of_ne_nil h
  rfl

theorem isAbsolute_push (hs : isAbsolute s = false) (path : PathBuf) :
    isAbsolute (push path s) = isAbsolute path := by
  by_cases hnil : path = []
  · rw [push, hs, if_neg Bool.false_ne_true, if_pos (.inl hnil), hnil]
    exact hs
  · rw [push, hs, if_neg Bool.false_ne_true]
    split_ifs
    · exact isAbsolute_append hnil _
    · exact isAbsolute_append hnil _

/-- Walking a path with a relative one pushed onto it. -/
theorem walk_push (hs : isAbsolute s = false) (p : Place) (path : PathBuf) :
    p.walk (components (push path s)) = (p.walk (components path)).walk (components s) := by
  rw [push, hs, if_neg Bool.false_ne_true]
  split_ifs with hpath
  · rcases hpath with rfl | hlast
    · rfl
    · obtain ⟨front, rfl⟩ := List.getLast?_eq_some_iff.mp hlast
      rw [List.append_assoc, List.singleton_append, components_append, components_append,
        Place.walk_append, Place.walk_append]
      rfl
  · rw [components_append, Place.walk_append]

theorem place_push (path s : PathBuf) :
    place (push path s) = if isAbsolute s then place s else (place path).walk (components s) := by
  split_ifs with hs
  · rw [push, if_pos hs]
  · rw [Bool.not_eq_true] at hs
    rw [place, isAbsolute_push hs, walk_push hs]
    rfl

/-- Two paths pushed one after the other are one path. -/
theorem place_push_push (path s t : PathBuf) :
    place (push (push path s) t) = place (push path (push s t)) := by
  by_cases ht : isAbsolute t
  · have hst : push s t = t := if_pos ht
    rw [hst, place_push (push path s) t, place_push path t, if_pos ht, if_pos ht]
  · rw [place_push, if_neg ht, place_push path, place_push path]
    rw [Bool.not_eq_true] at ht
    rw [isAbsolute_push ht]
    split_ifs with hs
    · rw [place, place, isAbsolute_push ht, walk_push ht]
    · rw [walk_push ht]

theorem Normal.of_mem (hsolid : '/' ∉ name) (hmem : c ∈ name) (hc : c ≠ '.') : Normal name where
  solid := hsolid
  ne_nil := List.ne_nil_of_mem hmem
  ne_dot h := hc (by simpa [h] using hmem)
  ne_dots h := hc (by simpa [h] using hmem)

theorem components_normal (h : Normal name) : components name = [name] :=
  List.splitOn_eq_singleton h.solid

theorem Normal.isAbsolute (h : Normal name) : isAbsolute name = false := by
  rw [PathBuf.isAbsolute, decide_eq_false_iff_not]
  exact fun hhead => h.solid (List.mem_of_mem_head? hhead)

theorem place_push_normal (h : Normal name) (path : PathBuf) :
    place (push path name) = (place path).descend [name] := by
  rw [place_push, h.isAbsolute, if_neg Bool.false_ne_true, components_normal h]
  exact Place.enter_normal h _

theorem Place.Below.push_normal (h : (place path).Below root) (hname : Normal name) :
    (place (push path name)).Below root := by
  obtain ⟨habs, hup, rest, hrest, heq⟩ := h
  rw [place_push_normal hname]
  exact ⟨habs, hup, rest ++ [name], by simp, by rw [descend, heq, List.append_assoc]⟩

/-- When a path that is pushed leads below a directory. -/
theorem below_push_iff (hpath : place path = root.descend base) (s : PathBuf) :
    (place (push path s)).Below root ↔ root.Reaches base s := by
  rw [place_push, Place.Reaches]
  split_ifs with hs
  · rfl
  rw [Bool.not_eq_true] at hs
  have hplace : place s = Place.here.walk (components s) := by rw [place, hs]; rfl
  rw [hpath, Place.walk_eq, hplace]
  generalize Place.here.walk (components s) = q
  rcases Nat.lt_or_ge q.up base.length with hlt | hle
  · have hbase : base.take (base.length - q.up) ≠ [] := by
      rw [Ne, List.take_eq_nil_iff, not_or]
      exact ⟨by omega, List.ne_nil_of_length_pos (by omega)⟩
    rw [Place.climb_descend _ hlt.le, ← Place.descend_append]
    exact iff_of_true (Place.below_descend (List.append_ne_nil_of_left_ne_nil hbase _)) (.inl hlt)
  · have hclimb : (root.descend base).climb q.up = root.climb (q.up - base.length) := by
      conv_lhs => rw [← Nat.sub_add_cancel hle]
      rw [Place.climb_add, Place.climb_descend _ le_rfl, Nat.sub_self, List.take_zero,
        Place.descend_nil]
    rw [hclimb, Place.below_climb_iff]
    constructor
    · exact fun h => .inr ⟨hle, h⟩
    · rintro (hlt | ⟨-, h⟩)
      · omega
      · exact h

theorem staysBelow_cons : StaysBelow root path (s :: rest) ↔
    (place (push path s)).Below root ∧ StaysBelow root (push path s) rest := .rfl

theorem StaysBelow.last (h : StaysBelow root path (ss ++ [s])) :
    (place ((ss ++ [s]).foldl push path)).Below root := by
  induction ss generalizing path with
  | nil => exact h.1
  | cons t ss ih => exact ih h.2

end Push

end PathBuf

end CheetahMedia.Lib
