import Mathlib.Data.List.Infix

/-!
# Glob patterns on bytes

The patterns of Redis: `*` is any bytes, `?` is one byte, `[...]` is one byte of
a class, in which `a-b` is a range and a first `^` takes the other bytes, and a backslash
takes the special meaning from the byte behind it. A class that is not closed ends with
the pattern. A pattern is read into tokens once, and the tokens are matched. What
the users of a pattern rely on is `glob_literal`: without special bytes in the stem, a
final `*` is a test for a first part.
-/

namespace Glob

inductive Token
  | star
  | one
  | byte (b : UInt8)
  | oneOf (negated : Bool) (ranges : List (UInt8 × UInt8))
  deriving DecidableEq, Repr

/-- The ranges of a class, and what stands behind it. -/
def readClass : List UInt8 → List (UInt8 × UInt8) × List UInt8
  | [] => ([], [])
  | 0x5C :: c :: rest => ((c, c) :: (readClass rest).1, (readClass rest).2)
  | 0x5D :: rest => ([], rest)
  | a :: 0x2D :: b :: rest => ((min a b, max a b) :: (readClass rest).1, (readClass rest).2)
  | a :: rest => ((a, a) :: (readClass rest).1, (readClass rest).2)

/-- Every token takes a byte at least. -/
def readFuel : Nat → List UInt8 → List Token
  | 0, _ => []
  | _, [] => []
  | fuel + 1, 0x2A :: rest => .star :: readFuel fuel rest
  | fuel + 1, 0x3F :: rest => .one :: readFuel fuel rest
  | fuel + 1, 0x5B :: 0x5E :: rest =>
    .oneOf true (readClass rest).1 :: readFuel fuel (readClass rest).2
  | fuel + 1, 0x5B :: rest => .oneOf false (readClass rest).1 :: readFuel fuel (readClass rest).2
  | fuel + 1, 0x5C :: b :: rest => .byte b :: readFuel fuel rest
  | fuel + 1, b :: rest => .byte b :: readFuel fuel rest

def read (pattern : List UInt8) : List Token := readFuel pattern.length pattern

/-- A token that is one byte. -/
def Token.accepts (b : UInt8) : Token → Bool
  | .star => false
  | .one => true
  | .byte b' => b = b'
  | .oneOf negated ranges => (ranges.any fun r => r.1 ≤ b && b ≤ r.2) != negated

def run : List Token → List UInt8 → Bool
  | [], text => text.isEmpty
  | .star :: ts, text => text.tails.any fun rest => run ts rest
  | t :: ts, b :: text => t.accepts b && run ts text
  | _ :: _, [] => false

/-- Whether the pattern matches. -/
def glob (pattern text : List UInt8) : Bool := run (read pattern) text

/-- A byte that stands for itself in a pattern. -/
def Ordinary (b : UInt8) : Prop := b ≠ 0x2A ∧ b ≠ 0x3F ∧ b ≠ 0x5B ∧ b ≠ 0x5C

theorem readFuel_ordinary {b : UInt8} (hb : Ordinary b) (fuel : Nat) (rest : List UInt8) :
    readFuel (fuel + 1) (b :: rest) = .byte b :: readFuel fuel rest := by
  obtain ⟨hstar, hone, hclass, hescape⟩ := hb
  rw [readFuel]
  all_goals
    intros
    first
      | exact hstar ‹_›
      | exact hone ‹_›
      | exact hclass ‹_›
      | exact hescape ‹_›

theorem read_literal {stem : List UInt8} (h : ∀ b ∈ stem, Ordinary b) :
    read (stem ++ [0x2A]) = stem.map Token.byte ++ [.star] := by
  unfold read
  induction stem with
  | nil => rfl
  | cons b stem ih =>
    rw [List.cons_append, List.length_cons, readFuel_ordinary (h b (List.mem_cons_self ..)),
      ih fun b' hb' => h b' (List.mem_cons_of_mem _ hb')]
    rfl

theorem run_literal (stem text : List UInt8) :
    run (stem.map Token.byte ++ [.star]) text = true ↔ stem <+: text := by
  induction stem generalizing text with
  | nil =>
    rw [List.map_nil, List.nil_append, run, List.any_eq_true]
    exact iff_of_true ⟨[], by simp, rfl⟩ List.nil_prefix
  | cons b stem ih =>
    cases text with
    | nil =>
      rw [List.map_cons, List.cons_append, run]
      · exact iff_of_false Bool.false_ne_true (by simp)
      · exact Token.noConfusion
    | cons c text =>
      rw [List.map_cons, List.cons_append, run]
      · rw [Bool.and_eq_true, ih, List.cons_prefix_cons, Token.accepts, decide_eq_true_eq]
        exact and_congr_left' eq_comm
      · exact Token.noConfusion

/-- **A stem with a final star** matches what begins with the stem. -/
theorem glob_literal {stem : List UInt8} (h : ∀ b ∈ stem, Ordinary b) (text : List UInt8) :
    glob (stem ++ [0x2A]) text = true ↔ stem <+: text := by
  unfold glob
  rw [read_literal h, run_literal]

/-- `h[^e]l*o` and `h[a-b\]]?`. -/
example : glob [104, 91, 94, 101, 93, 108, 42, 111] [104, 97, 108, 108, 111] = true ∧
    glob [104, 91, 97, 45, 98, 92, 93, 93, 63] [104, 93, 104] = true ∧
    glob [104, 91, 97, 45, 98, 92, 93, 93, 63] [104, 99, 104] = false := by
  decide

end Glob
