import CheetahMedia.Lib.Text

namespace CheetahMedia.Lib.Text

/-- The length of a text in bytes. -/
def utf8Len (t : Text) : Nat := (t.map Char.utf8Size).sum

@[simp] theorem utf8Len_nil : utf8Len [] = 0 := rfl

@[simp] theorem utf8Len_cons (c : Char) (t : Text) : utf8Len (c :: t) = c.utf8Size + utf8Len t :=
  List.sum_cons

@[simp] theorem utf8Len_append (a b : Text) : utf8Len (a ++ b) = utf8Len a + utf8Len b := by
  rw [utf8Len, List.map_append, List.sum_append]
  rfl

theorem utf8Len_pos (h : t ≠ []) : 0 < utf8Len t := by
  obtain ⟨c, rest, rfl⟩ := List.exists_cons_of_ne_nil h
  have := c.utf8Size_pos
  rw [utf8Len_cons]
  omega

/-- The characters with the offsets of their first bytes. -/
def charIndices (offset : Nat) : Text → List (Nat × Char)
  | [] => []
  | c :: rest => (offset, c) :: charIndices (offset + c.utf8Size) rest

/-- The first `n` bytes, if they end at a character's end. -/
def takeBytes : Text → Nat → Option Text
  | _, 0 => some []
  | [], _ + 1 => none
  | c :: rest, n + 1 =>
    if c.utf8Size ≤ n + 1 then (takeBytes rest (n + 1 - c.utf8Size)).map (c :: ·) else none

/-- What follows the first `n` bytes, if they end at a character's end. -/
def dropBytes : Text → Nat → Option Text
  | t, 0 => some t
  | [], _ + 1 => none
  | c :: rest, n + 1 =>
    if c.utf8Size ≤ n + 1 then dropBytes rest (n + 1 - c.utf8Size) else none

/-- The bytes from the first offset up to the second. -/
def slice (t : Text) (start stop : Nat) : Option Text :=
  if start ≤ stop then (dropBytes t start).bind (takeBytes · (stop - start)) else none

theorem takeBytes_append (a b : Text) : takeBytes (a ++ b) (utf8Len a) = some a := by
  induction a with
  | nil => cases b <;> rfl
  | cons c a ih =>
    have hpos := c.utf8Size_pos
    obtain ⟨n, hn⟩ : ∃ n, utf8Len (c :: a) = n + 1 := ⟨c.utf8Size + utf8Len a - 1, by simp; omega⟩
    have hrest : n + 1 - c.utf8Size = utf8Len a := by
      rw [utf8Len_cons] at hn
      omega
    rw [utf8Len_cons] at hn
    rw [List.cons_append, utf8Len_cons, hn, takeBytes, if_pos (by omega), hrest, ih]
    rfl

theorem dropBytes_append (a b : Text) : dropBytes (a ++ b) (utf8Len a) = some b := by
  induction a with
  | nil => cases b <;> rfl
  | cons c a ih =>
    have hpos := c.utf8Size_pos
    obtain ⟨n, hn⟩ : ∃ n, utf8Len (c :: a) = n + 1 := ⟨c.utf8Size + utf8Len a - 1, by simp; omega⟩
    have hrest : n + 1 - c.utf8Size = utf8Len a := by
      rw [utf8Len_cons] at hn
      omega
    rw [utf8Len_cons] at hn
    rw [List.cons_append, utf8Len_cons, hn, dropBytes, if_pos (by omega), hrest, ih]

theorem slice_append (a b c : Text) :
    slice (a ++ b ++ c) (utf8Len a) (utf8Len (a ++ b)) = some b := by
  rw [slice, if_pos (by rw [utf8Len_append]; omega), List.append_assoc, dropBytes_append,
    Option.bind_some, utf8Len_append, Nat.add_sub_cancel_left, takeBytes_append]

/-- Bytes that end at a character's end are an initial part of the text. -/
theorem of_takeBytes (h : takeBytes t n = some p) : ∃ q, t = p ++ q ∧ utf8Len p = n := by
  fun_induction takeBytes t n generalizing p with
  | case1 t =>
    cases h
    exact ⟨t, rfl, rfl⟩
  | case2 n => cases h
  | case3 c rest n hfits ih =>
    obtain ⟨p', hp', rfl⟩ := Option.map_eq_some_iff.mp h
    obtain ⟨q, hq, hlen⟩ := ih hp'
    refine ⟨q, by rw [hq]; rfl, ?_⟩
    rw [utf8Len_cons, hlen]
    omega
  | case4 c rest n hlong => cases h

theorem takeBytes_iff : takeBytes t n = some p ↔ ∃ q, t = p ++ q ∧ utf8Len p = n := by
  constructor
  · exact of_takeBytes
  · rintro ⟨q, rfl, rfl⟩
    exact takeBytes_append p q

/-- A cut inside a character is at no character's end. -/
theorem takeBytes_eq_none : takeBytes t n = none ↔ ∀ p q, t = p ++ q → utf8Len p ≠ n := by
  constructor
  · rintro h p q rfl rfl
    rw [takeBytes_append] at h
    cases h
  · intro h
    cases hp : takeBytes t n with
    | none => rfl
    | some p =>
      obtain ⟨q, hq, hlen⟩ := of_takeBytes hp
      exact absurd hlen (h p q hq)

/-- A second byte with which a character of three or four bytes can go on. -/
def secondByte (b0 b1 : UInt8) : Bool :=
  (b0 = 0xE0 && 0xA0 ≤ b1 && b1 ≤ 0xBF) || (0xE1 ≤ b0 && b0 ≤ 0xEC && 0x80 ≤ b1 && b1 ≤ 0xBF) ||
    (b0 = 0xED && 0x80 ≤ b1 && b1 ≤ 0x9F) || (0xEE ≤ b0 && b0 ≤ 0xEF && 0x80 ≤ b1 && b1 ≤ 0xBF) ||
    (b0 = 0xF0 && 0x90 ≤ b1 && b1 ≤ 0xBF) || (0xF1 ≤ b0 && b0 ≤ 0xF3 && 0x80 ≤ b1 && b1 ≤ 0xBF) ||
    (b0 = 0xF4 && 0x80 ≤ b1 && b1 ≤ 0x8F)

/-- How many bytes in front, where no character stands, could have begun one. -/
def brokenLen : List UInt8 → Nat
  | b0 :: b1 :: rest =>
    if secondByte b0 b1 then
      if 0xF0 ≤ b0 ∧ rest.head?.any (fun b2 => 0x80 ≤ b2 && b2 ≤ 0xBF) then 3 else 2
    else 1
  | _ => 1

def lossy : Nat → List UInt8 → Text
  | 0, _ => []
  | _ + 1, [] => []
  | fuel + 1, b :: bytes =>
    match (b :: bytes).toByteArray.utf8DecodeChar? 0 with
    | some c => c :: lossy fuel ((b :: bytes).drop c.utf8Size)
    | none => '\uFFFD' :: lossy fuel ((b :: bytes).drop (brokenLen (b :: bytes)))

/-- Every sequence that is no character becomes the replacement character. -/
def fromUtf8Lossy (bytes : List UInt8) : Text := lossy bytes.length bytes

theorem lossy_toBytes (h : (toBytes t).length ≤ fuel) : lossy fuel (toBytes t) = t := by
  induction t generalizing fuel with
  | nil => cases fuel <;> rfl
  | cons c t ih =>
    have hlen : (String.utf8EncodeChar c).length = c.utf8Size := String.length_utf8EncodeChar c
    have hcons : toBytes (c :: t) = String.utf8EncodeChar c ++ toBytes t := rfl
    have hpos := c.utf8Size_pos
    rw [hcons, List.length_append, hlen] at h
    obtain ⟨fuel, rfl⟩ : ∃ n, fuel = n + 1 := ⟨fuel - 1, by omega⟩
    obtain ⟨b, bytes, hbytes⟩ : ∃ b bytes, toBytes (c :: t) = b :: bytes :=
      List.exists_cons_of_ne_nil (toBytes_ne_nil (List.cons_ne_nil c t))
    have hfront : (toBytes (c :: t)).toByteArray.utf8DecodeChar? 0 = some c :=
      List.utf8DecodeChar?_utf8Encode_cons
    rw [hbytes, lossy, ← hbytes, hfront]
    simp only
    rw [hcons, ← hlen, List.drop_left, ih (by omega)]

/-- What is a text already is kept. -/
theorem fromUtf8Lossy_toBytes (t : Text) : fromUtf8Lossy (toBytes t) = t :=
  lossy_toBytes le_rfl

example : fromUtf8Lossy [0x61, 0xE2, 0x82, 0xFF, 0xC3, 0xA9] = ['a', '\uFFFD', '\uFFFD', 'é'] := by
  decide +kernel

end CheetahMedia.Lib.Text
