import Mathlib.Data.List.Basic

/-!
# Self-delimiting byte codes

A reader consumes a prefix of the bytes it is given and returns its value
with what is left. `Reads read write` is the law of a code: whatever follows
what was written, the reader takes exactly the written part. Base-128
varuints, length-prefixed buffers, counted lists and strings of code points
are the codes the collaborative-editing formats are made of.
-/

namespace Codec

abbrev Read (α : Type) := List UInt8 → Option α × List UInt8

def Reads {α : Type} (read : Read α) (write : α → List UInt8) : Prop :=
  ∀ a rest, read (write a ++ rest) = (some a, rest)

variable {α β : Type}

/-- Read, then go on with the value. -/
def Read.bind (r : Read α) (f : α → Read β) : Read β := fun bs =>
  match r bs with
  | (some a, rest) => f a rest
  | (none, rest) => (none, rest)

def Read.pure (a : α) : Read α := fun bs => (some a, bs)

def Read.fail : Read α := fun bs => (none, bs)

theorem Read.bind_of_eq {r : Read α} {f : α → Read β} {bs rest : List UInt8} {a : α}
    (h : r bs = (some a, rest)) : r.bind f bs = f a rest := by
  rw [Read.bind, h]

/-- The value is sent through `f`. -/
theorem Reads.map {read : Read α} {write : α → List UInt8} (h : Reads read write) {f : α → β}
    {g : β → α} (hfg : ∀ b, f (g b) = b) :
    Reads (read.bind fun a => .pure (f a)) (fun b => write (g b)) := by
  intro b rest
  rw [Read.bind_of_eq (h (g b) rest), hfg]
  rfl

/-! ## Varuints -/

/-- Seven bits a byte, low bits first; the high bit says that more follow.
Every byte takes one off `fuel`. -/
def writeVarFuel : Nat → Nat → List UInt8
  | 0, _ => []
  | fuel + 1, n =>
    if n < 128 then [UInt8.ofNat n]
    else UInt8.ofNat (n % 128 + 128) :: writeVarFuel fuel (n / 128)

def writeVar (n : Nat) : List UInt8 := writeVarFuel (n + 1) n

def readVar : Read Nat
  | [] => (none, [])
  | b :: rest =>
    if b.toNat < 128 then (some b.toNat, rest)
    else
      match readVar rest with
      | (some n, rest') => (some (b.toNat - 128 + 128 * n), rest')
      | (none, rest') => (none, rest')

theorem readVar_writeVarFuel : ∀ (fuel n : Nat) (rest : List UInt8), n < fuel →
    readVar (writeVarFuel fuel n ++ rest) = (some n, rest) := by
  intro fuel
  induction fuel with
  | zero => intro n rest h; omega
  | succ fuel ih =>
    intro n rest h
    rw [writeVarFuel]
    split
    next hlt =>
      have hbyte : (UInt8.ofNat n).toNat = n := by
        rw [UInt8.toNat_ofNat']
        omega
      rw [List.cons_append, List.nil_append, readVar, if_pos (by rw [hbyte]; exact hlt), hbyte]
    next hge =>
      have hbyte : (UInt8.ofNat (n % 128 + 128)).toNat = n % 128 + 128 := by
        rw [UInt8.toNat_ofNat']
        omega
      have hrest := ih (n / 128) rest (by omega)
      rw [List.cons_append, readVar, if_neg (by rw [hbyte]; omega), hrest, hbyte]
      dsimp only
      have hn : n % 128 + 128 - 128 + 128 * (n / 128) = n := by omega
      rw [hn]

theorem reads_var : Reads readVar writeVar := fun n rest =>
  readVar_writeVarFuel (n + 1) n rest (Nat.lt_succ_self n)

/-- A varuint with a fixed value. -/
def expect (n : Nat) : Read Unit :=
  readVar.bind fun m => if m = n then .pure () else .fail

theorem expect_write (n : Nat) (rest : List UInt8) :
    expect n (writeVar n ++ rest) = (some (), rest) := by
  rw [expect, Read.bind_of_eq (reads_var n rest), if_pos rfl]
  rfl

/-! ## Buffers, lists, strings -/

def readBytes (n : Nat) : Read (List UInt8) := fun bs =>
  if n ≤ bs.length then (some (bs.take n), bs.drop n) else (none, bs)

def readBuf : Read (List UInt8) := readVar.bind readBytes

def writeBuf (b : List UInt8) : List UInt8 := writeVar b.length ++ b

theorem reads_buf : Reads readBuf writeBuf := by
  intro b rest
  rw [readBuf, writeBuf, List.append_assoc, Read.bind_of_eq (reads_var b.length (b ++ rest)),
    readBytes, if_pos (by simp)]
  simp

/-- `n` items, one after the other. -/
def readN (read : Read α) : Nat → Read (List α)
  | 0 => .pure []
  | n + 1 => read.bind fun a => (readN read n).bind fun as => .pure (a :: as)

theorem readN_write {read : Read α} {write : α → List UInt8} (h : Reads read write) (l : List α)
    (rest : List UInt8) : readN read l.length (l.flatMap write ++ rest) = (some l, rest) := by
  induction l with
  | nil => rfl
  | cons a l ih =>
    rw [List.flatMap_cons, List.append_assoc, List.length_cons, readN,
      Read.bind_of_eq (h a _), Read.bind_of_eq ih]
    rfl

def readList (read : Read α) : Read (List α) := readVar.bind (readN read)

def writeList (write : α → List UInt8) (l : List α) : List UInt8 :=
  writeVar l.length ++ l.flatMap write

theorem Reads.list {read : Read α} {write : α → List UInt8} (h : Reads read write) :
    Reads (readList read) (writeList write) := by
  intro l rest
  rw [readList, writeList, List.append_assoc,
    Read.bind_of_eq (reads_var l.length (l.flatMap write ++ rest))]
  exact readN_write h l rest

/-- A code point; below 128 it is one byte, as in UTF-8. -/
def readChar : Read Char := readVar.bind fun n => .pure (Char.ofNat n)

def writeChar (c : Char) : List UInt8 := writeVar c.toNat

theorem reads_char : Reads readChar writeChar := reads_var.map Char.ofNat_toNat

def readString : Read String := (readList readChar).bind fun cs => .pure (String.ofList cs)

def writeString (s : String) : List UInt8 := writeList writeChar s.toList

theorem reads_string : Reads readString writeString :=
  reads_char.list.map fun _ => String.ofList_toList

theorem writeVar_ne_nil (n : Nat) : writeVar n ≠ [] := by
  unfold writeVar writeVarFuel
  split
  · exact List.cons_ne_nil _ _
  · exact List.cons_ne_nil _ _

end Codec
