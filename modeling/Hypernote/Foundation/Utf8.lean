import Mathlib.Data.Nat.Basic
/-!
# UTF-8

`str.encode()`, `bytes.decode()`, and `bytes.decode("utf-8", "replace")`, which puts U+FFFD in place
of each longest piece that begins like a character and is none.
-/

namespace Hypernote.Foundation

/-- `str.encode()`. -/
def utf8Encode (cs : List Char) : List UInt8 := cs.flatMap String.utf8EncodeChar

/-- `bytes.decode()`, `none` where it raises. -/
def utf8Decode? (bytes : List UInt8) : Option (List Char) :=
  (ByteArray.mk bytes.toArray).utf8Decode?.map Array.toList

theorem utf8Decode?_utf8Encode (cs : List Char) : utf8Decode? (utf8Encode cs) = some cs := by
  have hbytes : ByteArray.mk (utf8Encode cs).toArray = cs.utf8Encode := by
    rw [List.utf8Encode, ← List.data_toByteArray]
    rfl
  rw [utf8Decode?, hbytes, List.utf8Decode?_utf8Encode]
  rfl

theorem utf8Encode_injective : Function.Injective utf8Encode := by
  intro cs cs' h
  have hdecoded := congrArg utf8Decode? h
  rw [utf8Decode?_utf8Encode, utf8Decode?_utf8Encode] at hdecoded
  exact Option.some.inj hdecoded

theorem utf8EncodeChar_ascii {c : Char} (h : c.toNat < 128) :
    String.utf8EncodeChar c = [UInt8.ofNat c.toNat] := by
  have hle : c.val.toNat ≤ 0x7f := Nat.le_of_lt_succ h
  simp only [String.utf8EncodeChar]
  rw [if_pos hle]
  rfl

/-! ## Decoding with replacement -/

namespace Utf8

def replacement : Char := Char.ofNat 0xFFFD

/-- A character that has begun: how many bytes it still needs, the bits so far, and the bounds of
its next byte. -/
structure Pending where
  need : Nat
  bits : Nat
  lo : Nat
  hi : Nat

/-- A byte where a character begins: the characters put out, and what has begun. -/
def start (n : Nat) : List Char × Option Pending :=
  if n < 0x80 then ([Char.ofNat n], none)
  else if 0xC2 ≤ n ∧ n ≤ 0xDF then ([], some ⟨1, n - 0xC0, 0x80, 0xBF⟩)
  else if 0xE0 ≤ n ∧ n ≤ 0xEF then
    ([], some ⟨2, n - 0xE0, if n = 0xE0 then 0xA0 else 0x80, if n = 0xED then 0x9F else 0xBF⟩)
  else if 0xF0 ≤ n ∧ n ≤ 0xF4 then
    ([], some ⟨3, n - 0xF0, if n = 0xF0 then 0x90 else 0x80, if n = 0xF4 then 0x8F else 0xBF⟩)
  else ([replacement], none)

/-- The next byte: it continues what has begun, or breaks it off and begins anew. -/
def next : Option Pending → Nat → List Char × Option Pending
  | none, n => start n
  | some p, n =>
      if p.lo ≤ n ∧ n ≤ p.hi then
        let bits := p.bits * 64 + (n - 0x80)
        if p.need ≤ 1 then ([Char.ofNat bits], none) else ([], some ⟨p.need - 1, bits, 0x80, 0xBF⟩)
      else (replacement :: (start n).1, (start n).2)

def decodeFrom : Option Pending → List UInt8 → List Char
  | none, [] => []
  | some _, [] => [replacement]
  | pending, b :: bs => (next pending b.toNat).1 ++ decodeFrom (next pending b.toNat).2 bs

end Utf8

/-- `bytes.decode("utf-8", "replace")`. -/
def utf8DecodeReplace (bytes : List UInt8) : List Char := Utf8.decodeFrom none bytes

namespace Utf8

/-- One where a character has begun. -/
def begun : Option Pending → Nat
  | none => 0
  | some _ => 1

theorem start_length (n : Nat) : (start n).1.length + begun (start n).2 = 1 := by
  unfold start
  split_ifs <;> rfl

theorem next_length (pending : Option Pending) (n : Nat) :
    (next pending n).1.length + begun (next pending n).2 ≤ 1 + begun pending := by
  cases pending with
  | none => exact Nat.le_of_eq (start_length n)
  | some p =>
      have hstart := start_length n
      simp only [next]
      split_ifs
      · exact Nat.le_succ 1
      · exact Nat.le_succ 1
      · calc
          (replacement :: (start n).1).length + begun (start n).2
              = (start n).1.length + begun (start n).2 + 1 := by rw [List.length_cons]; omega
          _ ≤ 1 + begun (some p) := by rw [hstart]; rfl

/-- Every character stands for at least one byte. -/
theorem decodeFrom_length_le (pending : Option Pending) (bytes : List UInt8) :
    (decodeFrom pending bytes).length ≤ bytes.length + begun pending := by
  induction bytes generalizing pending with
  | nil => cases pending <;> exact le_refl _
  | cons b bs ih =>
      have hnext := next_length pending b.toNat
      have hrest := ih (next pending b.toNat).2
      have hcons : decodeFrom pending (b :: bs) =
          (next pending b.toNat).1 ++ decodeFrom (next pending b.toNat).2 bs := by
        cases pending <;> rfl
      rw [hcons, List.length_append, List.length_cons]
      omega

end Utf8

theorem utf8DecodeReplace_length_le (bytes : List UInt8) :
    (utf8DecodeReplace bytes).length ≤ bytes.length :=
  Utf8.decodeFrom_length_le none bytes

/-- ASCII bytes are decoded one by one. -/
theorem utf8DecodeReplace_ascii {cs : List Char} (h : ∀ c ∈ cs, c.toNat < 128) :
    utf8DecodeReplace (utf8Encode cs) = cs := by
  induction cs with
  | nil => rfl
  | cons c cs ih =>
      have hc := h c List.mem_cons_self
      have hbyte : (UInt8.ofNat c.toNat).toNat = c.toNat := by
        rw [UInt8.toNat_ofNat']
        exact Nat.mod_eq_of_lt (by omega)
      have hencode : utf8Encode (c :: cs) = UInt8.ofNat c.toNat :: utf8Encode cs := by
        rw [utf8Encode, List.flatMap_cons, utf8EncodeChar_ascii hc]
        rfl
      rw [hencode]
      simp only [utf8DecodeReplace, Utf8.decodeFrom, Utf8.next, Utf8.start, hbyte, if_pos hc,
        Char.ofNat_toNat, List.cons_append, List.nil_append]
      exact congrArg (c :: ·) (ih fun d hd => h d (List.mem_cons_of_mem _ hd))

example : utf8DecodeReplace [0xE2, 0x82, 0x41, 0xC3, 0xA9, 0xF0] = ['�', 'A', 'é', '�'] := by
  decide

end Hypernote.Foundation
