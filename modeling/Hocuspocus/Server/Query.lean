import Mathlib.Data.List.SplitBy
import Mathlib.Data.List.Infix
import Hocuspocus.Lib.Utf8

/-!
# Query parsing (`server.rs`)

`form_urlencoded_parse` splits the query and decodes the pieces with
`percent_decode`, which goes through the bytes of a string with an index and takes
the two bytes behind a percent sign as a slice of that string. A slice has to begin and
end where a character does, or the call panics; so does the request. `unescape` is the
loop without the index (`decodeLoop_eq`).

A `str` is its bytes where it is sliced, and its characters where it is split.
-/

namespace Hocuspocus

open Utf8

/-- Why a call does not return; `fuel` counts the iterations of its loop. -/
inductive Stop
  | panic
  | fuel
  deriving DecidableEq, Repr

/-! ## The code -/

/-- `str::is_char_boundary`. -/
def isCharBoundary (s : List UInt8) (i : Nat) : Bool :=
  i = 0 || match s[i]? with
    | some b => !isContinuation b
    | none => i = s.length

/-- `&s[a..b]`; `none` is the panic of a slice that is not on boundaries. -/
def slice (s : List UInt8) (a b : Nat) : Option (List UInt8) :=
  if a ≤ b ∧ isCharBoundary s a = true ∧ isCharBoundary s b = true then
    some ((s.drop a).take (b - a))
  else none

/-- `char::to_digit(16)`. -/
def hexDigit (b : UInt8) : Option Nat :=
  let n := b.toNat
  if 0x30 ≤ n ∧ n ≤ 0x39 then some (n - 0x30)
  else if 0x41 ≤ n ∧ n ≤ 0x46 then some (n - 0x41 + 10)
  else if 0x61 ≤ n ∧ n ≤ 0x66 then some (n - 0x61 + 10)
  else none

/-- One more digit of a number that has to stay a byte. -/
def pushDigit (acc : Option Nat) (b : UInt8) : Option Nat :=
  acc.bind fun n => (hexDigit b).bind fun d => if n * 16 + d < 256 then some (n * 16 + d) else none

/-- `u8::from_str_radix(src, 16)`: a sign may stand before the digits. -/
def fromStrRadix (src : List UInt8) : Option UInt8 :=
  let digits := match src with
    | 0x2B :: digits => digits
    | digits => digits
  if digits = [] then none else (digits.foldl pushDigit (some 0)).map UInt8.ofNat

/-- The loop of `percent_decode`. -/
def decodeLoop (raw : List UInt8) : Nat → Nat → List UInt8 → Except Stop (List UInt8)
  | 0, i, out => if i < raw.length then .error .fuel else .ok out
  | fuel + 1, i, out =>
    match raw[i]? with
    | none => .ok out
    | some byte =>
      if byte = 0x25 ∧ i + 2 < raw.length then
        match slice raw (i + 1) (i + 3) with
        | none => .error .panic
        | some digits =>
          match fromStrRadix digits with
          | some b => decodeLoop raw fuel (i + 3) (out ++ [b])
          | none => decodeLoop raw fuel (i + 1) (out ++ [byte])
      else decodeLoop raw fuel (i + 1) (out ++ [byte])

/-- `s.replace('+', " ")`. -/
def replacePlus (s : List Char) : List Char := s.map fun c => if c = '+' then ' ' else c

/-- The loop is given one iteration for each byte. -/
def percentDecode (s : List Char) : Except Stop (List Char) :=
  let raw := encode (replacePlus s)
  (decodeLoop raw raw.length 0 []).map lossy

/-- `splitn(2, '=')`. -/
def key (pair : List Char) : List Char := pair.takeWhile fun c => c ≠ '='

def value (pair : List Char) : List Char := (pair.dropWhile fun c => c ≠ '=').drop 1

def decodePair (pair : List Char) : Except Stop (String × String) := do
  let k ← percentDecode (key pair)
  let v ← percentDecode (value pair)
  return (String.ofList k, String.ofList v)

/-- The pieces between the `&`. -/
def pieces (q : String) : List (List Char) := (q.toList.splitOn '&').filter fun p => !p.isEmpty

def formUrlencodedParse (q : String) : Except Stop (List (String × String)) :=
  (pieces q).mapM decodePair

example : formUrlencodedParse "token=a%2bb+c&&x&room=%C3%A9%4&=%zz"
    = .ok [("token", "a+b c"), ("x", ""), ("room", "é%4"), ("", "%zz")] := by decide

/-! ## The loop -/

/-- What is read of the bytes from some place on. -/
def unescape : List UInt8 → Except Stop (List UInt8)
  | [] => .ok []
  | 0x25 :: a :: b :: rest =>
    if isContinuation a || rest.head?.any isContinuation then .error .panic
    else
      match fromStrRadix [a, b] with
      | some x => (unescape rest).map (x :: ·)
      | none => (unescape (a :: b :: rest)).map ((0x25 : UInt8) :: ·)
  | c :: rest => (unescape rest).map (c :: ·)
  termination_by bs => bs.length

theorem slice_drop {raw rest : List UInt8} {i : Nat} {c a b : UInt8}
    (h : raw.drop i = c :: a :: b :: rest) :
    slice raw (i + 1) (i + 3)
      = if isContinuation a || rest.head?.any isContinuation then none else some [a, b] := by
  have hafter : raw.drop (i + 1) = a :: b :: rest := by
    rw [← List.drop_drop, h]
    rfl
  have hend : raw.drop (i + 3) = rest := by
    rw [← List.drop_drop, h]
    rfl
  have hfirst : raw[i + 1]? = some a := by
    rw [← List.head?_drop, hafter]
    rfl
  have hlast : raw[i + 3]? = rest.head? := by
    rw [← List.head?_drop, hend]
  have hlength : raw.length = i + 3 + rest.length := by
    have hlen := congrArg List.length h
    rw [List.length_drop] at hlen
    simp only [List.length_cons] at hlen
    omega
  have hfrom : isCharBoundary raw (i + 1) = !isContinuation a := by
    unfold isCharBoundary
    rw [hfirst]
    simp
  have hto : isCharBoundary raw (i + 3) = !rest.head?.any isContinuation := by
    unfold isCharBoundary
    rw [hlast]
    cases rest with
    | nil => simp [hlength]
    | cons d rest => simp
  unfold slice
  rw [hfrom, hto, hafter]
  cases isContinuation a <;> cases rest.head?.any isContinuation <;> simp

/-- A byte that begins no escape. -/
theorem unescape_cons {c : UInt8} {rest : List UInt8} (h : ¬ (c = 0x25 ∧ 2 ≤ rest.length)) :
    unescape (c :: rest) = (unescape rest).map (c :: ·) := by
  have hnot : ∀ a b rest', c = 0x25 → rest = a :: b :: rest' → False := by
    intro a b rest' hc hrest
    exact h ⟨hc, by simp [hrest]⟩
  rw [unescape]
  exact hnot

theorem exceptMap_map {ε α β γ : Type} (x : Except ε α) (f : α → β) (g : β → γ) :
    (x.map f).map g = x.map (g ∘ f) := by
  cases x <;> rfl

/-- **The loop** reads what is left, whatever it has read, and ends within as many
iterations as bytes are left. -/
theorem decodeLoop_eq (raw : List UInt8) :
    ∀ (fuel i : Nat) (out : List UInt8), raw.length ≤ i + fuel →
      decodeLoop raw fuel i out = (unescape (raw.drop i)).map (out ++ ·) := by
  intro fuel
  induction fuel with
  | zero =>
    intro i out hfuel
    rw [decodeLoop, if_neg (by omega), List.drop_eq_nil_of_le (by omega), unescape]
    simp [Except.map]
  | succ fuel ih =>
    intro i out hfuel
    have hget := List.head?_drop (l := raw) (i := i)
    have hlength := List.length_drop (l := raw) (i := i)
    unfold decodeLoop
    cases hdrop : raw.drop i with
    | nil =>
      rw [hdrop] at hget
      rw [← hget, unescape]
      simp [Except.map]
    | cons c rest =>
      rw [hdrop] at hget hlength
      rw [List.length_cons] at hlength
      have hnext : raw.drop (i + 1) = rest := by
        rw [← List.drop_drop, hdrop]
        rfl
      -- the byte is taken as it is
      have hplain : ∀ tail : Except Stop (List UInt8), tail = (unescape rest).map (c :: ·) →
          decodeLoop raw fuel (i + 1) (out ++ [c]) = tail.map (out ++ ·) := by
        intro tail htail
        rw [htail, ih _ _ (by omega), hnext, exceptMap_map]
        refine congrArg (fun f => (unescape rest).map f) (funext fun bs => ?_)
        simp
      rw [← hget, List.head?_cons]
      dsimp only
      split
      next hesc =>
        -- two bytes stand behind the percent sign
        match rest, hlength, hnext, hplain, hdrop with
        | [], hlength, _, _, _ => simp at hlength; omega
        | [a], hlength, _, _, _ => simp at hlength; omega
        | a :: b :: rest, hlength, hnext, hplain, hdrop =>
          rw [slice_drop hdrop]
          cases hbad : (isContinuation a || rest.head?.any isContinuation) with
          | true =>
            rw [hesc.1, unescape, hbad]
            rfl
          | false =>
            have hbehind : raw.drop (i + 3) = rest := by
              rw [← List.drop_drop, hdrop]
              rfl
            rw [if_neg Bool.false_ne_true]
            dsimp only
            cases hradix : fromStrRadix [a, b] with
            | none =>
              -- no number: the percent sign stands for itself
              refine hplain _ ?_
              rw [hesc.1, unescape, hbad, if_neg Bool.false_ne_true, hradix]
            | some x =>
              have htail : unescape (c :: a :: b :: rest) = (unescape rest).map (x :: ·) := by
                rw [hesc.1, unescape, hbad, if_neg Bool.false_ne_true, hradix]
              dsimp only
              rw [htail, ih _ _ (by simp at hlength; omega), hbehind, exceptMap_map]
              refine congrArg (fun f => (unescape rest).map f) (funext fun bs => ?_)
              simp
      next hno =>
        exact hplain _ (unescape_cons fun h => hno ⟨h.1, by omega⟩)

/-! ## Where it panics -/

/-- The two bytes behind a percent sign are whole characters, or there are no two. -/
def Aligned : List Char → Prop
  | [] => True
  | [c] => c.utf8Size ≤ 2
  | c :: d :: _ => c.utf8Size = 2 ∨ c.utf8Size = 1 ∧ d.utf8Size = 1

/-- Behind every percent sign. -/
def EscapesAligned (cs : List Char) : Prop := ∀ rest, ('%' :: rest) <:+ cs → Aligned rest

theorem escapesAligned_cons {c : Char} {cs : List Char} :
    EscapesAligned (c :: cs) ↔ (c = '%' → Aligned cs) ∧ EscapesAligned cs := by
  constructor
  · intro h
    refine ⟨fun hc => h cs ?_, fun rest hrest => h rest (hrest.trans (List.suffix_cons c cs))⟩
    rw [hc]
  · intro ⟨hhead, htail⟩ rest hrest
    rcases List.suffix_cons_iff.mp hrest with heq | hsuffix
    · cases heq
      exact hhead rfl
    · exact htail rest hsuffix

/-- The call comes to an end. -/
def Returns {α : Type} (x : Except Stop α) : Prop := ∃ r, x = .ok r

theorem returns_map {α β : Type} {x : Except Stop α} {f : α → β} :
    Returns (x.map f) ↔ Returns x := by
  cases x with
  | error e =>
    constructor
    · intro ⟨r, hr⟩
      cases hr
    · intro ⟨r, hr⟩
      cases hr
  | ok a => exact ⟨fun _ => ⟨a, rfl⟩, fun _ => ⟨f a, rfl⟩⟩

theorem returns_unescape_append {bs rest : List UInt8} (h : ∀ b ∈ bs, b ≠ 0x25) :
    Returns (unescape (bs ++ rest)) ↔ Returns (unescape rest) := by
  induction bs with
  | nil => exact Iff.rfl
  | cons b bs ih =>
    have hb : b ≠ 0x25 := h b (List.mem_cons_self ..)
    rw [List.cons_append, unescape_cons (fun hesc => hb hesc.1), returns_map]
    exact ih fun b' hb' => h b' (List.mem_cons_of_mem _ hb')

/-- A character other than the percent sign is passed over. -/
theorem returns_other {c : Char} (hc : c ≠ '%') (cs : List Char) :
    Returns (unescape (encode (c :: cs))) ↔ Returns (unescape (encode cs)) := by
  rw [encode_cons]
  refine returns_unescape_append fun b hb heq => hc ?_
  have hlow : b.toNat < 0x80 := by
    rw [heq]
    decide
  have hchar := (shape c).ascii hb hlow
  rw [heq] at hchar
  exact Char.toNat_inj.mp hchar

/-! ### An escape -/

theorem hexDigit_ascii {b : UInt8} (h : (hexDigit b).isSome = true) :
    b.toNat < 0x80 ∧ b ≠ 0x25 := by
  unfold hexDigit at h
  dsimp only at h
  constructor
  · split_ifs at h
    all_goals first
      | omega
      | cases h
  · intro hb
    rw [hb] at h
    cases h

theorem foldl_pushDigit {digits : List UInt8} {acc : Option Nat}
    (h : (digits.foldl pushDigit acc).isSome = true) :
    acc.isSome = true ∧ ∀ b ∈ digits, (hexDigit b).isSome = true := by
  induction digits generalizing acc with
  | nil => exact ⟨h, fun b hb => by cases hb⟩
  | cons c digits ih =>
    obtain ⟨hpushed, hothers⟩ := ih h
    cases acc with
    | none => cases hpushed
    | some n =>
      refine ⟨rfl, fun b hb => ?_⟩
      rcases List.mem_cons.mp hb with heq | hmem
      · rw [heq]
        cases hdigit : hexDigit c with
        | none =>
          rw [pushDigit, Option.bind_some, hdigit] at hpushed
          cases hpushed
        | some d => rfl
      · exact hothers b hmem

/-- What is read as a number has no percent sign in it. -/
theorem fromStrRadix_ascii {src : List UInt8} (h : (fromStrRadix src).isSome = true) :
    ∀ b ∈ src, b.toNat < 0x80 ∧ b ≠ 0x25 := by
  have hdigits : ∀ digits : List UInt8,
      (if digits = [] then none else (digits.foldl pushDigit (some 0)).map UInt8.ofNat).isSome
        = true → ∀ b ∈ digits, b.toNat < 0x80 ∧ b ≠ 0x25 := by
    intro digits hsome b hb
    split at hsome
    next hnil => cases hsome
    next =>
      rw [Option.isSome_map] at hsome
      exact hexDigit_ascii ((foldl_pushDigit hsome).2 b hb)
  unfold fromStrRadix at h
  dsimp only at h
  split at h
  next digits =>
    intro b hb
    rcases List.mem_cons.mp hb with hsign | hmem
    · rw [hsign]
      decide
    · exact hdigits digits h b hmem
  next => exact hdigits src h

theorem returns_escape {a b : UInt8} {rest : List UInt8} :
    Returns (unescape (0x25 :: a :: b :: rest)) ↔
      (isContinuation a || rest.head?.any isContinuation) = false ∧
        Returns (if (fromStrRadix [a, b]).isSome then unescape rest
          else unescape (a :: b :: rest)) := by
  rw [unescape]
  cases isContinuation a || rest.head?.any isContinuation with
  | true =>
    constructor
    · intro ⟨r, hr⟩
      cases hr
    · intro ⟨hbad, _⟩
      cases hbad
  | false =>
    rw [if_neg Bool.false_ne_true, and_iff_right rfl]
    cases fromStrRadix [a, b] with
    | none => exact returns_map
    | some x => exact returns_map

/-- With whole characters behind it, a percent sign is passed over. -/
theorem returns_whole {a b : UInt8} {rest : List UInt8}
    (h : (isContinuation a || rest.head?.any isContinuation) = false) :
    Returns (unescape (0x25 :: a :: b :: rest)) ↔ Returns (unescape (a :: b :: rest)) := by
  rw [returns_escape, and_iff_right h]
  split
  next hsome =>
    have hdigits := fromStrRadix_ascii hsome
    have hpassed : Returns (unescape ([a, b] ++ rest)) ↔ Returns (unescape rest) :=
      returns_unescape_append fun c hc => (hdigits c hc).2
    exact hpassed.symm
  next => exact Iff.rfl

theorem not_returns_cut {a b c : UInt8} {rest : List UInt8} (hc : isContinuation c = true) :
    ¬ Returns (unescape (0x25 :: a :: b :: c :: rest)) := by
  rw [returns_escape, List.head?_cons, Option.any_some, hc, Bool.or_true]
  intro ⟨hbad, _⟩
  cases hbad

/-- **An escape** decodes where the two bytes behind it are whole characters. -/
theorem returns_percent (cs : List Char) :
    Returns (unescape (0x25 :: encode cs)) ↔ Aligned cs ∧ Returns (unescape (encode cs)) := by
  cases cs with
  | nil =>
    rw [encode, List.flatMap_nil, unescape_cons (by simp), returns_map]
    exact (and_iff_right trivial).symm
  | cons d ds =>
    have hsize := String.length_utf8EncodeChar d
    have hd := shape d
    rw [encode_cons]
    generalize String.utf8EncodeChar d = bytes at hd hsize ⊢
    cases hd with
    | short a hascii =>
      have ha : isContinuation a = false := isContinuation_eq_false (Or.inl hascii)
      have hone : d.utf8Size = 1 := hsize.symm
      cases ds with
      | nil =>
        rw [encode, List.flatMap_nil, unescape_cons (by simp), returns_map]
        exact (and_iff_right (by rw [Aligned, hone]; decide)).symm
      | cons e es =>
        -- the second character has to be one byte too
        have hsize' := String.length_utf8EncodeChar e
        have he := shape e
        rw [encode_cons]
        generalize String.utf8EncodeChar e = bytes' at he hsize' ⊢
        cases he with
        | short b hascii' =>
          have haligned : Aligned (d :: e :: es) := Or.inr ⟨hone, hsize'.symm⟩
          rw [and_iff_right haligned]
          refine returns_whole ?_
          rw [ha, Bool.false_or]
          exact encode_head es
        | long b c rest hlead hsecond =>
          have hcut : ¬ Aligned (d :: e :: es) := by
            simp only [List.length_cons] at hsize'
            unfold Aligned
            omega
          exact iff_of_false (not_returns_cut hsecond) fun h => hcut h.1
    | long a b rest hlead hsecond hrest =>
      -- two bytes are the whole character, and of more the slice would cut it
      have ha : isContinuation a = false := isContinuation_eq_false (Or.inr hlead)
      simp only [List.length_cons] at hsize
      cases rest with
      | nil =>
        have htwo : d.utf8Size = 2 := hsize.symm
        have haligned : Aligned (d :: ds) := by
          cases ds with
          | nil => exact Nat.le_of_eq htwo
          | cons e es => exact Or.inl htwo
        rw [and_iff_right haligned]
        refine returns_whole ?_
        rw [ha, Bool.false_or]
        exact encode_head ds
      | cons c rest =>
        simp only [List.length_cons] at hsize
        have hcut : ¬ Aligned (d :: ds) := by
          cases ds with
          | nil =>
            unfold Aligned
            omega
          | cons e es =>
            unfold Aligned
            omega
        refine iff_of_false (not_returns_cut (hrest c (List.mem_cons_self ..))) fun h => ?_
        exact hcut h.1

/-- **Where decoding panics**: at a percent sign with no two whole characters behind it. -/
theorem returns_unescape (cs : List Char) :
    Returns (unescape (encode cs)) ↔ EscapesAligned cs := by
  induction cs with
  | nil =>
    refine ⟨fun _ rest hrest => ?_, fun _ => ⟨[], by rw [encode, List.flatMap_nil, unescape]⟩⟩
    exact absurd (List.suffix_nil.mp hrest) (List.cons_ne_nil _ _)
  | cons c cs ih =>
    rw [escapesAligned_cons, ← ih]
    by_cases hc : c = '%'
    · have hpercent : encode ('%' :: cs) = 0x25 :: encode cs := encode_cons _ _
      rw [hc, hpercent, returns_percent]
      exact ⟨fun h => ⟨fun _ => h.1, h.2⟩, fun h => ⟨h.1 rfl, h.2⟩⟩
    · rw [returns_other hc]
      exact ⟨fun h => ⟨fun heq => absurd heq hc, h⟩, fun h => h.2⟩

/-! ### A query -/

theorem replacePlus_cons (c : Char) (cs : List Char) :
    replacePlus (c :: cs) = (if c = '+' then ' ' else c) :: replacePlus cs := rfl

/-- A space is as long as a plus sign. -/
theorem utf8Size_replaced (c : Char) : (if c = '+' then ' ' else c).utf8Size = c.utf8Size := by
  split
  next h =>
    rw [h]
    rfl
  next => rfl

theorem aligned_replacePlus (cs : List Char) : Aligned (replacePlus cs) ↔ Aligned cs := by
  match cs with
  | [] => exact Iff.rfl
  | [c] =>
    rw [replacePlus_cons, replacePlus, List.map_nil, Aligned, Aligned, utf8Size_replaced]
  | c :: d :: rest =>
    rw [replacePlus_cons, replacePlus_cons, Aligned, Aligned, utf8Size_replaced, utf8Size_replaced]

theorem escapesAligned_replacePlus (cs : List Char) :
    EscapesAligned (replacePlus cs) ↔ EscapesAligned cs := by
  induction cs with
  | nil => exact Iff.rfl
  | cons c cs ih =>
    have hpercent : (if c = '+' then ' ' else c) = '%' ↔ c = '%' := by
      split
      next h =>
        rw [h]
        decide
      next => exact Iff.rfl
    rw [replacePlus_cons, escapesAligned_cons, escapesAligned_cons, ih, hpercent,
      aligned_replacePlus]

theorem percentDecode_eq (s : List Char) :
    percentDecode s = (unescape (encode (replacePlus s))).map lossy := by
  unfold percentDecode
  dsimp only
  rw [decodeLoop_eq _ _ _ _ (by omega), List.drop_zero, exceptMap_map]
  rfl

theorem returns_percentDecode (s : List Char) : Returns (percentDecode s) ↔ EscapesAligned s := by
  rw [percentDecode_eq, returns_map, returns_unescape, escapesAligned_replacePlus]

theorem returns_bind {α β : Type} {x : Except Stop α} {f : α → Except Stop β} :
    Returns (x >>= f) ↔ ∃ a, x = .ok a ∧ Returns (f a) := by
  cases x with
  | error e =>
    constructor
    · intro ⟨r, hr⟩
      cases hr
    · intro ⟨a, ha, _⟩
      cases ha
  | ok a =>
    constructor
    · intro h
      exact ⟨a, rfl, h⟩
    · intro ⟨a', ha, h⟩
      cases ha
      exact h

theorem returns_decodePair (pair : List Char) :
    Returns (decodePair pair) ↔ EscapesAligned (key pair) ∧ EscapesAligned (value pair) := by
  rw [← returns_percentDecode, ← returns_percentDecode]
  unfold decodePair
  rw [returns_bind]
  constructor
  · intro ⟨k, hk, hrest⟩
    obtain ⟨v, hv, _⟩ := returns_bind.mp hrest
    exact ⟨⟨k, hk⟩, ⟨v, hv⟩⟩
  · intro ⟨⟨k, hk⟩, ⟨v, hv⟩⟩
    exact ⟨k, hk, returns_bind.mpr ⟨v, hv, ⟨_, rfl⟩⟩⟩

theorem returns_mapM {α β : Type} {f : α → Except Stop β} {l : List α} :
    Returns (l.mapM f) ↔ ∀ a ∈ l, Returns (f a) := by
  induction l with
  | nil =>
    refine ⟨fun _ a ha => ?_, fun _ => ⟨[], rfl⟩⟩
    cases ha
  | cons a l ih =>
    rw [List.mapM_cons, List.forall_mem_cons, ← ih, returns_bind]
    constructor
    · intro ⟨b, hb, hrest⟩
      obtain ⟨bs, hbs, _⟩ := returns_bind.mp hrest
      exact ⟨⟨b, hb⟩, ⟨bs, hbs⟩⟩
    · intro ⟨⟨b, hb⟩, ⟨bs, hbs⟩⟩
      exact ⟨b, hb, returns_bind.mpr ⟨bs, hbs, ⟨_, rfl⟩⟩⟩

/-! ### The loop ends -/

/-- Nothing but a slice stops the reading. -/
theorem unescape_error {bs : List UInt8} {e : Stop} (h : unescape bs = .error e) : e = .panic := by
  have hmap : ∀ {x : Except Stop (List UInt8)} {f : List UInt8 → List UInt8},
      x.map f = .error e → x = .error e := by
    intro x f hx
    cases x with
    | error e' =>
      cases hx
      rfl
    | ok a => cases hx
  fun_induction unescape bs
  case case1 => cases h
  case case2 =>
    cases h
    rfl
  case case3 ih => exact ih (hmap h)
  case case4 ih => exact ih (hmap h)
  case case5 ih => exact ih (hmap h)

/-- The call never runs out of iterations. -/
def Ends {α : Type} (x : Except Stop α) : Prop := x ≠ .error .fuel

theorem ends_bind {α β : Type} {x : Except Stop α} {f : α → Except Stop β} (hx : Ends x)
    (hf : ∀ a, Ends (f a)) : Ends (x >>= f) := by
  cases x with
  | error e =>
    intro h
    cases h
    exact hx rfl
  | ok a => exact hf a

theorem ends_mapM {α β : Type} {f : α → Except Stop β} (hf : ∀ a, Ends (f a)) (l : List α) :
    Ends (l.mapM f) := by
  induction l with
  | nil => exact fun h => by cases h
  | cons a l ih =>
    rw [List.mapM_cons]
    refine ends_bind (hf a) fun b => ends_bind ih fun bs => ?_
    exact fun h => by cases h

theorem ends_percentDecode (s : List Char) : Ends (percentDecode s) := by
  intro h
  rw [percentDecode_eq] at h
  cases hread : unescape (encode (replacePlus s)) with
  | error e =>
    rw [hread, unescape_error hread] at h
    cases h
  | ok out =>
    rw [hread] at h
    cases h

theorem ends_decodePair (pair : List Char) : Ends (decodePair pair) := by
  refine ends_bind (ends_percentDecode _) fun k => ends_bind (ends_percentDecode _) fun v => ?_
  exact fun h => by cases h

/-- **When query parsing returns**: its loops come to an end within as many iterations
as there are bytes, and it panics unless the two bytes behind each percent sign of a key or
a value, if there are two, are whole characters. -/
theorem formUrlencodedParse_returns (q : String) :
    formUrlencodedParse q ≠ .error .fuel ∧
      (Returns (formUrlencodedParse q) ↔
        ∀ pair ∈ pieces q, EscapesAligned (key pair) ∧ EscapesAligned (value pair)) := by
  refine ⟨ends_mapM ends_decodePair _, returns_mapM.trans ?_⟩
  exact forall₂_congr fun pair _ => returns_decodePair pair

/-- A percent sign before a character of three bytes. -/
theorem formUrlencodedParse_panics : ¬ ∀ q : String, Returns (formUrlencodedParse q) := by
  intro h
  obtain ⟨r, hr⟩ := h "%€"
  have hpanic : formUrlencodedParse "%€" = .error .panic := by decide
  rw [hpanic] at hr
  cases hr

end Hocuspocus
