import Mathlib.Data.List.Basic

/-!
# UTF-8, with errors replaced

`encode` writes characters as bytes. `lossy` reads any bytes: where they are no
UTF-8 it reads U+FFFD for the longest start of a character there, or for one byte,
and goes on behind it. `Encoded` has the shape of one character's bytes, from which
the rest follows: where characters begin (`isContinuation_head`), and that `lossy`
reads what was encoded (`lossy_encode`).
-/

namespace Utf8

/-- A byte that begins no character. -/
def isContinuation (b : UInt8) : Bool := 0x80 ≤ b.toNat && b.toNat ≤ 0xBF

def encode (cs : List Char) : List UInt8 := cs.flatMap String.utf8EncodeChar

/-- How many bytes a character with this first byte has; none begins with the others. -/
def width (a : UInt8) : Nat :=
  let n := a.toNat
  if n < 0x80 then 1
  else if 0xC2 ≤ n ∧ n ≤ 0xDF then 2
  else if 0xE0 ≤ n ∧ n ≤ 0xEF then 3
  else if 0xF0 ≤ n ∧ n ≤ 0xF4 then 4
  else 0

/-- The second byte is not free after some first ones: they would encode a smaller
character at length, a surrogate, or no character at all. -/
def follows (a b : UInt8) : Bool :=
  let n := b.toNat
  match a.toNat with
  | 0xE0 => 0xA0 ≤ n && n ≤ 0xBF
  | 0xED => 0x80 ≤ n && n ≤ 0x9F
  | 0xF0 => 0x90 ≤ n && n ≤ 0xBF
  | 0xF4 => 0x80 ≤ n && n ≤ 0x8F
  | _ => isContinuation b

/-- The six bits of a continuation. -/
def low (b : UInt8) : Nat := b.toNat - 0x80

def pair (a b : UInt8) : Nat := (a.toNat - 0xC0) * 64 + low b

def triple (a b c : UInt8) : Nat := (a.toNat - 0xE0) * 4096 + low b * 64 + low c

def quadruple (a b c d : UInt8) : Nat :=
  (a.toNat - 0xF0) * 262144 + low b * 4096 + low c * 64 + low d

/-- U+FFFD. -/
def replacement : Char := '\uFFFD'

/-- What is read at a byte, and how many more bytes are read with it. -/
def next (a : UInt8) (rest : List UInt8) : Char × Nat :=
  match width a, rest with
  | 1, _ => (Char.ofNat a.toNat, 0)
  | 2, b :: _ => if follows a b then (Char.ofNat (pair a b), 1) else (replacement, 0)
  | 3, b :: rest =>
    if follows a b then
      match rest with
      | c :: _ => if isContinuation c then (Char.ofNat (triple a b c), 2) else (replacement, 1)
      | [] => (replacement, 1)
    else (replacement, 0)
  | 4, b :: rest =>
    if follows a b then
      match rest with
      | c :: rest =>
        if isContinuation c then
          match rest with
          | d :: _ =>
            if isContinuation d then (Char.ofNat (quadruple a b c d), 3) else (replacement, 2)
          | [] => (replacement, 2)
        else (replacement, 1)
      | [] => (replacement, 1)
    else (replacement, 0)
  | _, _ => (replacement, 0)

/-- Some bytes belong to what was read before. -/
def lossyFrom : Nat → List UInt8 → List Char
  | _, [] => []
  | skip + 1, _ :: rest => lossyFrom skip rest
  | 0, a :: rest => (next a rest).1 :: lossyFrom (next a rest).2 rest

/-- Read the bytes as characters, with what is no character replaced. -/
def lossy (bytes : List UInt8) : List Char := lossyFrom 0 bytes

example : lossy [0x61, 0xE2, 0x82, 0x62, 0xFF, 0xED, 0xA0, 0xC3, 0xA9]
    = ['a', replacement, 'b', replacement, replacement, replacement, 'é'] := by decide

/-! ## One character -/

/-- The bytes of a character. -/
inductive Encoded (ch : Char) : List UInt8 → Prop
  | one (a : UInt8) (hwidth : width a = 1) (hchar : ch.toNat = a.toNat) : Encoded ch [a]
  | two (a b : UInt8) (hwidth : width a = 2) (hsecond : follows a b = true)
      (hchar : ch.toNat = pair a b) : Encoded ch [a, b]
  | three (a b c : UInt8) (hwidth : width a = 3) (hsecond : follows a b = true)
      (hthird : isContinuation c = true) (hchar : ch.toNat = triple a b c) : Encoded ch [a, b, c]
  | four (a b c d : UInt8) (hwidth : width a = 4) (hsecond : follows a b = true)
      (hthird : isContinuation c = true) (hfourth : isContinuation d = true)
      (hchar : ch.toNat = quadruple a b c d) : Encoded ch [a, b, c, d]

theorem toNat_ofNat_lt {n : Nat} (h : n < 256) : (UInt8.ofNat n).toNat = n := by
  rw [UInt8.toNat_ofNat']
  exact Nat.mod_eq_of_lt h

theorem isContinuation_ofNat {n : Nat} (h : n < 64) :
    isContinuation (UInt8.ofNat (n + 0x80)) = true := by
  unfold isContinuation
  rw [toNat_ofNat_lt (by omega), Bool.and_eq_true, decide_eq_true_eq, decide_eq_true_eq]
  omega

theorem low_ofNat {n : Nat} (h : n < 64) : low (UInt8.ofNat (n + 0x80)) = n := by
  unfold low
  rw [toNat_ofNat_lt (by omega)]
  omega

theorem follows_ofNat {a n : Nat} (ha : a < 256) (hn : n < 64) (h224 : a = 0xE0 → 0x20 ≤ n)
    (h237 : a = 0xED → n < 0x20) (h240 : a = 0xF0 → 0x10 ≤ n) (h244 : a = 0xF4 → n < 0x10) :
    follows (UInt8.ofNat a) (UInt8.ofNat (n + 0x80)) = true := by
  unfold follows
  rw [toNat_ofNat_lt ha, toNat_ofNat_lt (by omega)]
  split
  all_goals simp only [Bool.and_eq_true, decide_eq_true_eq]
  next => exact ⟨by have := h224 rfl; omega, by omega⟩
  next => exact ⟨by omega, by have := h237 rfl; omega⟩
  next => exact ⟨by have := h240 rfl; omega, by omega⟩
  next => exact ⟨by omega, by have := h244 rfl; omega⟩
  next => exact isContinuation_ofNat hn

theorem width_ofNat {n : Nat} (h : n < 256) :
    width (UInt8.ofNat n) =
      if n < 0x80 then 1
      else if 0xC2 ≤ n ∧ n ≤ 0xDF then 2
      else if 0xE0 ≤ n ∧ n ≤ 0xEF then 3
      else if 0xF0 ≤ n ∧ n ≤ 0xF4 then 4
      else 0 := by
  unfold width
  rw [toNat_ofNat_lt h]

theorem encoded (ch : Char) : Encoded ch (String.utf8EncodeChar ch) := by
  have hvalid : ch.val.toNat < 0xD800 ∨ 0xDFFF < ch.val.toNat ∧ ch.val.toNat < 0x110000 := ch.valid
  have hchar : ch.toNat = ch.val.toNat := rfl
  unfold String.utf8EncodeChar
  generalize ch.val.toNat = n at hvalid hchar ⊢
  dsimp only
  -- the number of bytes is decided by the size of the code point
  split
  next hone =>
    refine .one _ ?_ ?_
    · rw [width_ofNat (by omega), if_pos (by omega)]
    · rw [toNat_ofNat_lt (by omega)]
      exact hchar
  next hone =>
    split
    next htwo =>
      refine .two _ _ ?_ ?_ ?_
      · rw [width_ofNat (by omega), if_neg (by omega), if_pos (by omega)]
      · exact follows_ofNat (by omega) (by omega) (by omega) (by omega) (by omega) (by omega)
      · unfold pair
        rw [low_ofNat (by omega), toNat_ofNat_lt (by omega)]
        omega
    next htwo =>
      split
      next hthree =>
        refine .three _ _ _ ?_ ?_ (isContinuation_ofNat (by omega)) ?_
        · rw [width_ofNat (by omega), if_neg (by omega), if_neg (by omega), if_pos (by omega)]
        · exact follows_ofNat (by omega) (by omega) (by omega) (by omega) (by omega) (by omega)
        · unfold triple
          rw [low_ofNat (by omega), low_ofNat (by omega), toNat_ofNat_lt (by omega)]
          omega
      next hthree =>
        refine .four _ _ _ _ ?_ ?_ (isContinuation_ofNat (by omega))
          (isContinuation_ofNat (by omega)) ?_
        · rw [width_ofNat (by omega), if_neg (by omega), if_neg (by omega), if_neg (by omega),
            if_pos (by omega)]
        · exact follows_ofNat (by omega) (by omega) (by omega) (by omega) (by omega) (by omega)
        · unfold quadruple
          rw [low_ofNat (by omega), low_ofNat (by omega), low_ofNat (by omega),
            toNat_ofNat_lt (by omega)]
          omega

/-! ## Reading what was encoded -/

theorem ofNat_of_toNat {ch : Char} {n : Nat} (h : ch.toNat = n) : Char.ofNat n = ch := by
  rw [← h]
  exact Char.ofNat_toNat ch

/-- A character is read from its bytes, whatever follows. -/
theorem lossy_encoded {ch : Char} {bytes : List UInt8} (h : Encoded ch bytes)
    (rest : List UInt8) : lossy (bytes ++ rest) = ch :: lossy rest := by
  unfold lossy
  cases h with
  | one a hwidth hchar =>
    simp only [List.cons_append, List.nil_append, lossyFrom, next, hwidth]
    rw [ofNat_of_toNat hchar]
  | two a b hwidth hsecond hchar =>
    simp only [List.cons_append, List.nil_append, lossyFrom, next, hwidth, if_pos hsecond]
    rw [ofNat_of_toNat hchar]
  | three a b c hwidth hsecond hthird hchar =>
    simp only [List.cons_append, List.nil_append, lossyFrom, next, hwidth, if_pos hsecond,
      if_pos hthird]
    rw [ofNat_of_toNat hchar]
  | four a b c d hwidth hsecond hthird hfourth hchar =>
    simp only [List.cons_append, List.nil_append, lossyFrom, next, hwidth, if_pos hsecond,
      if_pos hthird, if_pos hfourth]
    rw [ofNat_of_toNat hchar]

theorem encode_append (cs ds : List Char) : encode (cs ++ ds) = encode cs ++ encode ds :=
  List.flatMap_append

/-- What follows an encoding is read after it. -/
theorem lossy_append (cs : List Char) (rest : List UInt8) :
    lossy (encode cs ++ rest) = cs ++ lossy rest := by
  induction cs with
  | nil => rfl
  | cons ch cs ih =>
    unfold encode at ih ⊢
    rw [List.flatMap_cons, List.append_assoc, lossy_encoded (encoded ch), ih]
    rfl

/-- **Nothing is lost** of what is UTF-8. -/
theorem lossy_encode (cs : List Char) : lossy (encode cs) = cs := by
  have happend := lossy_append cs []
  rw [List.append_nil] at happend
  rw [happend]
  exact List.append_nil cs

/-- One encoding begins with another where the text does. -/
theorem encode_prefix_encode {cs ds : List Char} : encode cs <+: encode ds ↔ cs <+: ds := by
  constructor
  · intro ⟨rest, hrest⟩
    have hread := congrArg lossy hrest
    rw [lossy_append, lossy_encode] at hread
    exact ⟨lossy rest, hread⟩
  · intro ⟨rest, hrest⟩
    rw [← hrest, encode_append]
    exact List.prefix_append _ _

/-! ## Where characters begin -/

theorem encode_cons (ch : Char) (cs : List Char) :
    encode (ch :: cs) = String.utf8EncodeChar ch ++ encode cs :=
  List.flatMap_cons

theorem isContinuation_eq_false {b : UInt8} (h : b.toNat < 0x80 ∨ 0xC2 ≤ b.toNat) :
    isContinuation b = false := by
  unfold isContinuation
  rw [Bool.and_eq_false_iff, decide_eq_false_iff_not, decide_eq_false_iff_not]
  omega

theorem isContinuation_le {b : UInt8} (h : isContinuation b = true) : 0x80 ≤ b.toNat := by
  unfold isContinuation at h
  rw [Bool.and_eq_true, decide_eq_true_eq] at h
  exact h.1

theorem isContinuation_of_follows {a b : UInt8} (h : follows a b = true) :
    isContinuation b = true := by
  unfold follows at h
  dsimp only at h
  split at h
  case h_5 => exact h
  all_goals
    unfold isContinuation
    rw [Bool.and_eq_true, decide_eq_true_eq, decide_eq_true_eq] at h ⊢
    omega

theorem width_one {a : UInt8} (h : width a = 1) : a.toNat < 0x80 := by
  unfold width at h
  dsimp only at h
  split_ifs at h <;> omega

theorem width_many {a : UInt8} (h : 2 ≤ width a) : 0xC2 ≤ a.toNat := by
  unfold width at h
  dsimp only at h
  split_ifs at h <;> omega

/-- The bytes of a character, as far as one tells where it begins. -/
inductive Shape (ch : Char) : List UInt8 → Prop
  | short (a : UInt8) (hascii : a.toNat < 0x80) (hchar : ch.toNat = a.toNat) : Shape ch [a]
  | long (a b : UInt8) (rest : List UInt8) (hlead : 0xC2 ≤ a.toNat)
      (hsecond : isContinuation b = true) (hrest : ∀ c ∈ rest, isContinuation c = true) :
      Shape ch (a :: b :: rest)

theorem shape (ch : Char) : Shape ch (String.utf8EncodeChar ch) := by
  have henc := encoded ch
  generalize String.utf8EncodeChar ch = bytes at henc
  cases henc with
  | one a hwidth hchar => exact .short a (width_one hwidth) hchar
  | two a b hwidth hsecond =>
    refine .long a b [] (width_many (by omega)) (isContinuation_of_follows hsecond) ?_
    simp
  | three a b c hwidth hsecond hthird =>
    refine .long a b [c] (width_many (by omega)) (isContinuation_of_follows hsecond) ?_
    simpa using hthird
  | four a b c d hwidth hsecond hthird hfourth =>
    refine .long a b [c, d] (width_many (by omega)) (isContinuation_of_follows hsecond) ?_
    simpa using ⟨hthird, hfourth⟩

/-- A byte of a longer character is not ASCII. -/
theorem Shape.ascii {ch : Char} {bytes : List UInt8} (h : Shape ch bytes) {b : UInt8}
    (hb : b ∈ bytes) (hlow : b.toNat < 0x80) : ch.toNat = b.toNat := by
  cases h with
  | short a hascii hchar =>
    rw [List.mem_singleton] at hb
    rw [hb]
    exact hchar
  | long a b' rest hlead hsecond hrest =>
    have hcont : ∀ c, isContinuation c = true → 0x80 ≤ c.toNat := fun c => isContinuation_le
    rcases List.mem_cons.mp hb with rfl | hb
    · omega
    · rcases List.mem_cons.mp hb with rfl | hb
      · exact absurd (hcont b hsecond) (by omega)
      · exact absurd (hcont b (hrest b hb)) (by omega)

/-- An encoding begins with a character. -/
theorem encode_head (cs : List Char) : (encode cs).head?.any isContinuation = false := by
  cases cs with
  | nil => rfl
  | cons ch cs =>
    rw [encode_cons]
    have hshape := shape ch
    generalize String.utf8EncodeChar ch = bytes at hshape
    cases hshape with
    | short a hascii => exact isContinuation_eq_false (Or.inl hascii)
    | long a b rest hlead => exact isContinuation_eq_false (Or.inr hlead)

end Utf8
