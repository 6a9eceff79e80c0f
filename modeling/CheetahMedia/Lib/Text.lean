import Mathlib.Algebra.Ring.Nat

namespace CheetahMedia.Lib

abbrev Text := List Char

namespace Text

def toBytes (t : Text) : List UInt8 := t.flatMap String.utf8EncodeChar

def fromUtf8 (bytes : List UInt8) : Option Text :=
  (ByteArray.utf8Decode? bytes.toByteArray).map (·.toList)

/-- Unicode `White_Space`. -/
def isWhitespace (c : Char) : Bool :=
  let n := c.toNat
  (0x09 ≤ n && n ≤ 0x0D) || n = 0x20 || n = 0x85 || n = 0xA0 || n = 0x1680 ||
    (0x2000 ≤ n && n ≤ 0x200A) || n = 0x2028 || n = 0x2029 || n = 0x202F || n = 0x205F ||
    n = 0x3000

def trimStart (t : Text) : Text := t.dropWhile isWhitespace

def trim (t : Text) : Text := (trimStart (trimStart t).reverse).reverse

def splitWhitespace (t : Text) : List Text := (t.splitOnP isWhitespace).filter (!·.isEmpty)

/-- The two sides of the first `c`. -/
def splitOnce (c : Char) : Text → Option (Text × Text)
  | [] => none
  | x :: rest =>
    if x = c then some ([], rest) else (splitOnce c rest).map fun (a, b) => (x :: a, b)

/-- What stands between the line ends. -/
def splitCrlf : Text → List Text
  | [] => [[]]
  | '\r' :: '\n' :: rest => [] :: splitCrlf rest
  | c :: rest => (splitCrlf rest).modifyHead (c :: ·)

def eqIgnoreAsciiCase (a b : Text) : Bool := a.map Char.toLower = b.map Char.toLower

/-- A number without a sign, or with a `+`, that fits the width. -/
def parseUnsigned (width : Nat) (t : Text) : Option Nat :=
  let digits := if t.head? = some '+' then t.tail else t
  if digits ≠ [] ∧ digits.all Char.isDigit ∧ Nat.ofDigitChars 10 digits 0 < 2 ^ width then
    some (Nat.ofDigitChars 10 digits 0)
  else none

def decimal (n : Nat) : Text := Nat.toDigits 10 n

@[simp] theorem toBytes_nil : toBytes [] = [] := rfl

@[simp] theorem toBytes_append (a b : Text) : toBytes (a ++ b) = toBytes a ++ toBytes b :=
  List.flatMap_append

theorem toBytes_ne_nil (h : t ≠ []) : toBytes t ≠ [] := by
  obtain ⟨c, rest, rfl⟩ := List.exists_cons_of_ne_nil h
  exact List.append_ne_nil_of_left_ne_nil String.utf8EncodeChar_ne_nil _

theorem fromUtf8_toBytes (t : Text) : fromUtf8 (toBytes t) = some t := by
  have h : (toBytes t).toByteArray = t.utf8Encode := rfl
  simp [fromUtf8, h, List.utf8Decode?_utf8Encode]

/-- A byte below 128 comes from the character of that number only. -/
theorem mem_utf8EncodeChar (hb : b < 0x80) (h : b ∈ String.utf8EncodeChar c) :
    c.toNat = b.toNat := by
  have hlt : b.toNat < 128 := hb
  -- the bytes of a longer encoding are all above
  have hhigh : ∀ n, 128 ≤ n → n < 256 → b ≠ UInt8.ofNat n := by
    rintro n hlow hn rfl
    rw [UInt8.toNat_ofNat'] at hlt
    omega
  unfold String.utf8EncodeChar at h
  dsimp only at h
  split at h
  · rw [List.mem_singleton.mp h, UInt8.toNat_ofNat']
    have hc : c.toNat = c.val.toNat := rfl
    omega
  · exfalso
    split at h
    · simp only [List.mem_cons, List.not_mem_nil, or_false] at h
      rcases h with h | h <;> exact hhigh _ (by omega) (by omega) h
    · split at h <;> simp only [List.mem_cons, List.not_mem_nil, or_false] at h
      · rcases h with h | h | h <;> exact hhigh _ (by omega) (by omega) h
      · rcases h with h | h | h | h <;> exact hhigh _ (by omega) (by omega) h

theorem not_mem_toBytes (hb : b < 0x80) (h : Char.ofNat b.toNat ∉ t) : b ∉ toBytes t := by
  intro hmem
  obtain ⟨c, hc, hbyte⟩ := List.mem_flatMap.mp hmem
  have hnum := mem_utf8EncodeChar hb hbyte
  rw [← hnum, Char.ofNat_toNat] at h
  exact h hc

theorem splitCrlf_line (h : '\r' ∉ l) : splitCrlf l = [l] := by
  induction l with
  | nil => rfl
  | cons c l ih =>
    rw [List.mem_cons, not_or] at h
    rw [splitCrlf, ih h.2, List.modifyHead_cons]
    rintro rest rfl
    exact absurd rfl h.1

theorem splitCrlf_append (h : '\r' ∉ l) (rest : Text) :
    splitCrlf (l ++ '\r' :: '\n' :: rest) = l :: splitCrlf rest := by
  induction l with
  | nil => rw [List.nil_append, splitCrlf]
  | cons c l ih =>
    rw [List.mem_cons, not_or] at h
    rw [List.cons_append, splitCrlf, ih h.2, List.modifyHead_cons]
    rintro more rfl
    exact absurd rfl h.1

theorem splitOnce_append (h : c ∉ a) (b : Text) : splitOnce c (a ++ c :: b) = some (a, b) := by
  induction a with
  | nil => simp [splitOnce]
  | cons x a ih =>
    rw [List.mem_cons, not_or] at h
    rw [List.cons_append, splitOnce, if_neg (Ne.symm h.1), ih h.2]
    rfl

theorem of_splitOnce (h : splitOnce c t = some (a, b)) : t = a ++ c :: b ∧ c ∉ a := by
  induction t generalizing a with
  | nil => cases h
  | cons x t ih =>
    rw [splitOnce] at h
    split at h
    · cases h
      rename_i heq
      exact ⟨by rw [heq]; rfl, List.not_mem_nil⟩
    · rename_i hne
      obtain ⟨⟨a', b'⟩, hrest, hab⟩ := Option.map_eq_some_iff.mp h
      cases hab
      obtain ⟨ht, hc⟩ := ih hrest
      exact ⟨by rw [ht]; rfl, by simp [hc, Ne.symm hne]⟩

theorem not_sep_of_mem_splitOnP {p : Char → Bool} {t : Text} (hw : w ∈ t.splitOnP p) :
    ∀ c ∈ w, p c = false := by
  induction t generalizing w with
  | nil => simp_all
  | cons x t ih =>
    rw [List.splitOnP_cons_eq_if_modifyHead] at hw
    split at hw
    · rcases List.mem_cons.mp hw with rfl | hw
      · simp
      · exact ih hw
    · rename_i hx
      cases hparts : t.splitOnP p with
      | nil => simp [hparts] at hw
      | cons first more =>
        rw [hparts, List.modifyHead_cons] at hw
        rw [hparts] at ih
        rcases List.mem_cons.mp hw with rfl | hw
        · intro c hc
          rcases List.mem_cons.mp hc with rfl | hc
          · simpa using hx
          · exact ih List.mem_cons_self c hc
        · exact ih (List.mem_cons_of_mem _ hw)

/-- Three words apart stay three words when there is no whitespace inside them. -/
theorem splitWhitespace_three (hm : m ≠ []) (hu : u ≠ []) (hv : v ≠ []) :
    splitWhitespace (m ++ ' ' :: u ++ ' ' :: v) = [m, u, v] ↔
      ∀ c ∈ m ++ u ++ v, isWhitespace c = false := by
  have hspace : isWhitespace ' ' = true := by decide
  constructor
  · intro heq c hc
    have hword : ∀ w ∈ [m, u, v], c ∈ w → isWhitespace c = false := fun w hw hcw => by
      rw [← heq] at hw
      exact not_sep_of_mem_splitOnP (List.mem_filter.mp hw).1 c hcw
    rw [List.mem_append, List.mem_append] at hc
    rcases hc with (hc | hc) | hc
    · exact hword m (by simp) hc
    · exact hword u (by simp) hc
    · exact hword v (by simp) hc
  · intro hnone
    have hm' : ∀ c ∈ m, isWhitespace c = false := fun c hc => hnone c (by simp [hc])
    have hu' : ∀ c ∈ u, isWhitespace c = false := fun c hc => hnone c (by simp [hc])
    have hv' : ∀ c ∈ v, isWhitespace c = false := fun c hc => hnone c (by simp [hc])
    rw [splitWhitespace, List.append_assoc, List.cons_append,
      List.splitOnP_append_cons_of_forall_mem hm' ' ' hspace,
      List.splitOnP_append_cons_of_forall_mem hu' ' ' hspace, List.splitOnP_eq_singleton hv']
    simp [hm, hu, hv]

theorem trimStart_append {t : Text} (h : ∀ c ∈ t, isWhitespace c = false) (hne : t ≠ [])
    (rest : Text) : trimStart (t ++ rest) = t ++ rest := by
  obtain ⟨c, t, rfl⟩ := List.exists_cons_of_ne_nil hne
  rw [trimStart, List.cons_append, List.dropWhile_cons_of_neg (by simp [h c List.mem_cons_self])]

theorem trimStart_word {t : Text} (h : ∀ c ∈ t, isWhitespace c = false) : trimStart t = t := by
  cases t with
  | nil => rfl
  | cons c t => simpa using trimStart_append h (by simp) []

theorem noWhitespace_of_all {t : Text} (h : t.all (!isWhitespace ·) = true) :
    ∀ c ∈ t, isWhitespace c = false := fun c hc => by
  simpa using List.all_eq_true.mp h c hc

theorem trim_word {t : Text} (h : ∀ c ∈ t, isWhitespace c = false) : trim t = t := by
  have hreverse : ∀ c ∈ t.reverse, isWhitespace c = false := fun c hc => h c (List.mem_reverse.mp hc)
  rw [trim, trimStart_word h, trimStart_word hreverse, List.reverse_reverse]

theorem not_isWhitespace_of_isDigit (h : c.isDigit) : isWhitespace c = false := by
  have hrange : 48 ≤ c.toNat ∧ c.toNat ≤ 57 := by
    simpa [Char.isDigit, UInt32.le_iff_toNat_le] using h
  simp only [isWhitespace]
  simp
  omega

theorem isPrefixOf_word {p : Text} (hp : ' ' ∉ p) (m rest : Text) :
    p.isPrefixOf (m ++ ' ' :: rest) = p.isPrefixOf m := by
  induction p generalizing m with
  | nil => simp
  | cons c p ih =>
    rw [List.mem_cons, not_or] at hp
    cases m with
    | nil => simp [List.isPrefixOf, Ne.symm hp.1]
    | cons x m => simp only [List.cons_append, List.isPrefixOf, ih hp.2]

theorem decimal_ne_nil : decimal n ≠ [] := Nat.toDigits_ne_nil

theorem isDigit_of_mem_decimal (h : c ∈ decimal n) : c.isDigit :=
  Nat.isDigit_of_mem_toDigits (by decide) (by decide) h

theorem not_mem_decimal (h : c.isDigit = false) : c ∉ decimal n := fun hmem => by
  rw [isDigit_of_mem_decimal hmem] at h
  cases h

theorem parseUnsigned_lt (h : parseUnsigned width value = some n) : n < 2 ^ width := by
  unfold parseUnsigned at h
  generalize (if value.head? = some '+' then value.tail else value) = digits at h
  dsimp only at h
  split at h
  · rename_i hfits
    cases h
    exact hfits.2.2
  · cases h

theorem parseUnsigned_decimal (h : n < 2 ^ width) : parseUnsigned width (decimal n) = some n := by
  have hplus : (decimal n).head? ≠ some '+' := fun hhead =>
    not_mem_decimal (by decide) (List.mem_of_head? hhead)
  have hvalue : Nat.ofDigitChars 10 (decimal n) 0 = n := Nat.ofDigitChars_ten_toDigits
  rw [parseUnsigned, if_neg hplus, hvalue,
    if_pos ⟨decimal_ne_nil, List.all_eq_true.mpr fun _ => isDigit_of_mem_decimal, h⟩]

end Text
end CheetahMedia.Lib
