import Hocuspocus.Server.Query

/-!
# Form encoding

What `application/x-www-form-urlencoded` writes for a list of pairs: `FormEncodes` is
about the bytes of one key or value, `Serialises` about the list. Serialisers differ in
which ASCII characters they escape and in the case of their digits, so these are
relations. Whatever a serialiser writes, `form_urlencoded_parse` reads as that list
(`formUrlencodedParse_serialised`): the plus signs become spaces before the escapes are
read, and an encoding has no separator in it.
-/

namespace Hocuspocus

open Utf8

/-- A hexadecimal digit of either case. -/
def IsHexDigit (c : Char) (n : Nat) : Prop :=
  n < 10 ∧ c.toNat = 0x30 + n ∨
    10 ≤ n ∧ n < 16 ∧ (c.toNat = 0x41 + (n - 10) ∨ c.toNat = 0x61 + (n - 10))

instance (c : Char) (n : Nat) : Decidable (IsHexDigit c n) :=
  inferInstanceAs (Decidable (_ ∨ _))

/-- What may stand for itself: an ASCII character with no other meaning. Serialisers
escape some of these too. -/
def Plain (c : Char) : Prop := c.toNat < 0x80 ∧ c ≠ '%' ∧ c ≠ '&' ∧ c ≠ '=' ∧ c ≠ '+'

instance (c : Char) : Decidable (Plain c) := inferInstanceAs (Decidable (_ ∧ _))

/-- The text of some bytes. -/
inductive FormEncodes : List UInt8 → List Char → Prop
  | nil : FormEncodes [] []
  | plain (c : Char) {bs : List UInt8} {cs : List Char} (hplain : Plain c) (h : FormEncodes bs cs) :
      FormEncodes (UInt8.ofNat c.toNat :: bs) (c :: cs)
  | plus {bs : List UInt8} {cs : List Char} (h : FormEncodes bs cs) :
      FormEncodes (0x20 :: bs) ('+' :: cs)
  | escape (b : UInt8) (hi lo : Char) {bs : List UInt8} {cs : List Char}
      (hhi : IsHexDigit hi (b.toNat / 16)) (hlo : IsHexDigit lo (b.toNat % 16))
      (h : FormEncodes bs cs) : FormEncodes (b :: bs) ('%' :: hi :: lo :: cs)

def EncodesPair (pair : String × String) (part : List Char) : Prop :=
  ∃ k v, FormEncodes (encode pair.1.toList) k ∧ FormEncodes (encode pair.2.toList) v ∧
    part = k ++ '=' :: v

def Serialises (pairs : List (String × String)) (q : String) : Prop :=
  ∃ parts, List.Forall₂ EncodesPair pairs parts ∧ q.toList = ['&'].intercalate parts

/-! ## One escape -/

theorem encode_ascii {c : Char} (h : c.toNat < 0x80) (cs : List Char) :
    encode (c :: cs) = UInt8.ofNat c.toNat :: encode cs := by
  have hone : String.utf8EncodeChar c = [UInt8.ofNat c.toNat] := if_pos (Nat.le_of_lt_succ h)
  rw [encode_cons, hone]
  rfl

theorem IsHexDigit.lt {c : Char} {n : Nat} (h : IsHexDigit c n) : c.toNat < 0x80 := by
  unfold IsHexDigit at h
  omega

theorem IsHexDigit.ne {c d : Char} {n : Nat} (h : IsHexDigit c n)
    (hd : d.toNat < 0x30 ∨ 0x39 < d.toNat ∧ d.toNat < 0x41) : c ≠ d := by
  intro heq
  rw [heq] at h
  unfold IsHexDigit at h
  omega

theorem hexDigit_of {c : Char} {n : Nat} (h : IsHexDigit c n) :
    hexDigit (UInt8.ofNat c.toNat) = some n := by
  have hlow := h.lt
  unfold hexDigit
  dsimp only
  rw [toNat_ofNat_lt (by omega)]
  rcases h with ⟨hn, hc⟩ | ⟨hten, hn, hc | hc⟩
  · rw [if_pos (by omega), hc, Nat.add_sub_cancel_left]
  · rw [if_neg (by omega), if_pos (by omega)]
    exact congrArg some (by omega)
  · rw [if_neg (by omega), if_neg (by omega), if_pos (by omega)]
    exact congrArg some (by omega)

theorem fromStrRadix_digits {b : UInt8} {hi lo : Char} (hhi : IsHexDigit hi (b.toNat / 16))
    (hlo : IsHexDigit lo (b.toNat % 16)) :
    fromStrRadix [UInt8.ofNat hi.toNat, UInt8.ofNat lo.toNat] = some b := by
  have hsign : UInt8.ofNat hi.toNat ≠ 0x2B := by
    intro heq
    have hdigit := hexDigit_of hhi
    rw [heq] at hdigit
    cases hdigit
  have hb := UInt8.toNat_lt b
  unfold fromStrRadix
  dsimp only
  split
  next digits heq => exact absurd (List.cons.inj heq).1 hsign
  next =>
    rw [if_neg (List.cons_ne_nil _ _)]
    simp only [List.foldl_cons, List.foldl_nil, pushDigit, Option.bind_some, hexDigit_of hhi,
      hexDigit_of hlo]
    rw [if_pos (by omega), Option.bind_some, if_pos (by omega)]
    rw [Option.map_some, Option.some.injEq, ← UInt8.toNat_inj, toNat_ofNat_lt (by omega)]
    omega

/-! ## A key or a value -/

/-- **The bytes are read back.** -/
theorem unescape_encodes {bs : List UInt8} {cs : List Char} (h : FormEncodes bs cs) :
    unescape (encode (replacePlus cs)) = .ok bs := by
  induction h with
  | nil => rw [replacePlus, List.map_nil, encode, List.flatMap_nil, unescape]
  | @plain c bs cs hplain _ ih =>
    obtain ⟨hlow, hpercent, _, _, hplus⟩ := hplain
    rw [replacePlus_cons, if_neg hplus, encode_ascii hlow, unescape_cons, ih]
    · rfl
    · intro hesc
      refine hpercent (Char.toNat_inj.mp ?_)
      have hnat := congrArg UInt8.toNat hesc.1
      rw [toNat_ofNat_lt (by omega)] at hnat
      exact hnat
  | @plus bs cs _ ih =>
    -- the plus sign is a space before the escapes are read
    rw [replacePlus_cons, if_pos rfl, encode_ascii (by decide), unescape_cons, ih]
    · rfl
    · intro hesc
      exact absurd hesc.1 (by decide)
  | @escape b hi lo bs cs hhi hlo _ ih =>
    have hfirst : isContinuation (UInt8.ofNat hi.toNat) = false := by
      refine isContinuation_eq_false (Or.inl ?_)
      rw [toNat_ofNat_lt (Nat.lt_trans hhi.lt (by decide))]
      exact hhi.lt
    rw [replacePlus_cons, replacePlus_cons, replacePlus_cons, if_neg (by decide),
      if_neg (hhi.ne (by decide)), if_neg (hlo.ne (by decide)), encode_ascii (by decide),
      encode_ascii hhi.lt, encode_ascii hlo.lt]
    show unescape (0x25 :: _) = _
    rw [unescape, hfirst, encode_head, Bool.false_or, if_neg Bool.false_ne_true,
      fromStrRadix_digits hhi hlo]
    dsimp only
    rw [ih]
    rfl

theorem percentDecode_encodes {cs text : List Char} (h : FormEncodes (encode cs) text) :
    percentDecode text = .ok cs := by
  rw [percentDecode_eq, unescape_encodes h]
  exact congrArg Except.ok (lossy_encode cs)

/-- There is no separator in an encoding. -/
theorem FormEncodes.not_mem {bs : List UInt8} {cs : List Char} (h : FormEncodes bs cs) {sep : Char}
    (hsep : sep = '&' ∨ sep = '=') : sep ∉ cs := by
  induction h with
  | nil => exact List.not_mem_nil
  | @plain c bs cs hplain _ ih =>
    rw [List.mem_cons, not_or]
    refine ⟨?_, ih⟩
    rcases hsep with rfl | rfl
    · exact Ne.symm hplain.2.2.1
    · exact Ne.symm hplain.2.2.2.1
  | @plus bs cs _ ih =>
    rw [List.mem_cons, not_or]
    refine ⟨?_, ih⟩
    rcases hsep with rfl | rfl <;> decide
  | @escape b hi lo bs cs hhi hlo _ ih =>
    have hrange : sep.toNat < 0x30 ∨ 0x39 < sep.toNat ∧ sep.toNat < 0x41 := by
      rcases hsep with rfl | rfl <;> decide
    have hpercent : sep ≠ '%' := by
      rcases hsep with rfl | rfl <;> decide
    simp only [List.mem_cons, not_or]
    exact ⟨hpercent, Ne.symm (hhi.ne hrange), Ne.symm (hlo.ne hrange), ih⟩

/-! ## The list -/

theorem decodePair_encodes {pair : String × String} {part : List Char}
    (h : EncodesPair pair part) : decodePair part = .ok pair := by
  obtain ⟨k, v, hk, hv, rfl⟩ := h
  have hbefore : ∀ c ∈ k, decide (c ≠ '=') = true := by
    intro c hc
    refine decide_eq_true fun heq => hk.not_mem (Or.inr rfl) ?_
    rw [← heq]
    exact hc
  have hkey : key (k ++ '=' :: v) = k := by
    unfold key
    rw [List.takeWhile_append_of_pos hbefore, List.takeWhile_cons_of_neg (by decide),
      List.append_nil]
  have hvalue : value (k ++ '=' :: v) = v := by
    unfold value
    rw [List.dropWhile_append_of_pos hbefore, List.dropWhile_cons_of_neg (by decide)]
    rfl
  unfold decodePair
  rw [hkey, hvalue, percentDecode_encodes hk, percentDecode_encodes hv]
  show Except.ok (String.ofList pair.1.toList, String.ofList pair.2.toList) = _
  rw [String.ofList_toList, String.ofList_toList]

/-- A pair is one piece, and not an empty one. -/
theorem EncodesPair.separated {pair : String × String} {part : List Char}
    (h : EncodesPair pair part) : '&' ∉ part ∧ (!part.isEmpty) = true := by
  obtain ⟨k, v, hk, hv, rfl⟩ := h
  constructor
  · rw [List.mem_append, List.mem_cons, not_or, not_or]
    exact ⟨hk.not_mem (Or.inl rfl), by decide, hv.not_mem (Or.inl rfl)⟩
  · cases k <;> rfl

theorem pieces_serialised {pairs : List (String × String)} {parts : List (List Char)} {q : String}
    (hparts : List.Forall₂ EncodesPair pairs parts) (hq : q.toList = ['&'].intercalate parts) :
    pieces q = parts := by
  have hpart : ∀ part ∈ parts, '&' ∉ part ∧ (!part.isEmpty) = true := by
    clear hq
    induction hparts with
    | nil => simp
    | cons hpair _ ih => exact List.forall_mem_cons.mpr ⟨hpair.separated, ih⟩
  unfold pieces
  rw [hq]
  -- no pair at all: the one piece of an empty query is empty, and is filtered out
  cases parts with
  | nil => rfl
  | cons part parts =>
    rw [List.splitOn_intercalate '&' (fun l hl => (hpart l hl).1) (List.cons_ne_nil _ _)]
    exact List.filter_eq_self.mpr fun l hl => (hpart l hl).2

/-- **Query parsing undoes form encoding.** -/
theorem formUrlencodedParse_serialised {pairs : List (String × String)} {q : String}
    (h : Serialises pairs q) : formUrlencodedParse q = .ok pairs := by
  obtain ⟨parts, hparts, hq⟩ := h
  unfold formUrlencodedParse
  rw [pieces_serialised hparts hq]
  clear hq
  induction hparts with
  | nil => rfl
  | cons hpair _ ih =>
    rw [List.mapM_cons, decodePair_encodes hpair, ih]
    rfl

/-- Two pairs, with a space and two separators, a character of two bytes and digits of both
cases; the second key is empty. -/
theorem formUrlencodedParse_serialised_pairs :
    formUrlencodedParse "a+b=%c3%A9&=%26%3d" = .ok [("a b", "é"), ("", "&=")] := by
  refine formUrlencodedParse_serialised
    ⟨[['a', '+', 'b', '=', '%', 'c', '3', '%', 'A', '9'], ['=', '%', '2', '6', '%', '3', 'd']],
      .cons ⟨['a', '+', 'b'], ['%', 'c', '3', '%', 'A', '9'], ?_, ?_, rfl⟩
        (.cons ⟨[], ['%', '2', '6', '%', '3', 'd'], .nil, ?_, rfl⟩ .nil), by decide⟩
  · exact .plain 'a' (by decide) (.plus (.plain 'b' (by decide) .nil))
  · exact .escape 0xC3 'c' '3' (by decide) (by decide)
      (.escape 0xA9 'A' '9' (by decide) (by decide) .nil)
  · exact .escape 0x26 '2' '6' (by decide) (by decide)
      (.escape 0x3D '3' 'd' (by decide) (by decide) .nil)

end Hocuspocus
