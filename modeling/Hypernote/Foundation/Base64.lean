import Mathlib.Data.Nat.Basic
/-!
# Base64

`base64.urlsafe_b64encode` and `urlsafe_b64decode`, and that the second undoes the first; and
`b64decode`, the texts that it takes, and those among them that are well-formed.
-/

namespace Hypernote.Foundation

namespace Base64

/-- The character of six bits. -/
def sextetChar (n : Nat) : Char :=
  if n < 26 then Char.ofNat (65 + n)
  else if n < 52 then Char.ofNat (71 + n)
  else if n < 62 then Char.ofNat (n - 4)
  else if n = 62 then '-'
  else '_'

/-- The six bits of a character, also of the standard alphabet's `+` and `/`. -/
def sextet? (c : Char) : Option Nat :=
  let n := c.toNat
  if 65 ≤ n ∧ n ≤ 90 then some (n - 65)
  else if 97 ≤ n ∧ n ≤ 122 then some (n - 71)
  else if 48 ≤ n ∧ n ≤ 57 then some (n + 4)
  else if c = '-' ∨ c = '+' then some 62
  else if c = '_' ∨ c = '/' then some 63
  else none

/-- `urlsafe_b64encode`. -/
def encode : List UInt8 → List Char
  | a :: b :: c :: rest =>
      sextetChar (a.toNat / 4) :: sextetChar (a.toNat % 4 * 16 + b.toNat / 16) ::
        sextetChar (b.toNat % 16 * 4 + c.toNat / 64) :: sextetChar (c.toNat % 64) :: encode rest
  | [a, b] =>
      [sextetChar (a.toNat / 4), sextetChar (a.toNat % 4 * 16 + b.toNat / 16),
        sextetChar (b.toNat % 16 * 4), '=']
  | [a] => [sextetChar (a.toNat / 4), sextetChar (a.toNat % 4 * 16), '=', '=']
  | [] => []

/-- `urlsafe_b64decode` from the given place in a group of four, with the bits left over and the
padding seen.  Other characters are skipped; padding that completes a group ends the text. -/
def decodeFrom : Nat → Nat → Nat → List Char → Option (List UInt8)
  | quad, _, _, [] => if quad = 0 then some [] else none
  | quad, left, pads, c :: cs =>
      if c = '=' then
        if 2 ≤ quad then
          if 4 ≤ quad + (pads + 1) then some [] else decodeFrom quad left (pads + 1) cs
        else decodeFrom quad left pads cs
      else
        match sextet? c with
        | none => decodeFrom quad left pads cs
        | some v =>
            match quad with
            | 0 => decodeFrom 1 v 0 cs
            | 1 => (decodeFrom 2 (v % 16) 0 cs).map (UInt8.ofNat (left * 4 + v / 16) :: ·)
            | 2 => (decodeFrom 3 (v % 4) 0 cs).map (UInt8.ofNat (left * 16 + v / 4) :: ·)
            | _ => (decodeFrom 0 0 0 cs).map (UInt8.ofNat (left * 64 + v) :: ·)

def decode (cs : List Char) : Option (List UInt8) := decodeFrom 0 0 0 cs

theorem sextet?_sextetChar : ∀ {n : Nat}, n < 64 → sextet? (sextetChar n) = some n := by
  decide

theorem ne_pad_of_sextet? {c : Char} {v : Nat} (h : sextet? c = some v) : c ≠ '=' := by
  rintro rfl
  cases h

section

variable {left pads v : Nat} {c : Char} (cs : List Char)

theorem decodeFrom_first (hc : sextet? c = some v) :
    decodeFrom 0 left pads (c :: cs) = decodeFrom 1 v 0 cs := by
  rw [decodeFrom, if_neg (ne_pad_of_sextet? hc), hc]
  rfl

theorem decodeFrom_second (hc : sextet? c = some v) :
    decodeFrom 1 left pads (c :: cs) =
      (decodeFrom 2 (v % 16) 0 cs).map (UInt8.ofNat (left * 4 + v / 16) :: ·) := by
  rw [decodeFrom, if_neg (ne_pad_of_sextet? hc), hc]
  rfl

theorem decodeFrom_third (hc : sextet? c = some v) :
    decodeFrom 2 left pads (c :: cs) =
      (decodeFrom 3 (v % 4) 0 cs).map (UInt8.ofNat (left * 16 + v / 4) :: ·) := by
  rw [decodeFrom, if_neg (ne_pad_of_sextet? hc), hc]
  rfl

theorem decodeFrom_fourth (hc : sextet? c = some v) :
    decodeFrom 3 left pads (c :: cs) =
      (decodeFrom 0 0 0 cs).map (UInt8.ofNat (left * 64 + v) :: ·) := by
  rw [decodeFrom, if_neg (ne_pad_of_sextet? hc), hc]
  rfl

end

theorem ofNat_eq {n : Nat} {b : UInt8} (h : n = b.toNat) : UInt8.ofNat n = b := by
  rw [h, UInt8.ofNat_toNat]

theorem decode_encode (bytes : List UInt8) : decode (encode bytes) = some bytes := by
  rw [decode]
  induction bytes using encode.induct with
  | case1 a b c rest ih =>
      have ha := a.toNat_lt
      have hb := b.toNat_lt
      have hc := c.toNat_lt
      rw [encode, decodeFrom_first _ (sextet?_sextetChar (by omega)),
        decodeFrom_second _ (sextet?_sextetChar (by omega)),
        decodeFrom_third _ (sextet?_sextetChar (by omega)),
        decodeFrom_fourth _ (sextet?_sextetChar (by omega)), ih]
      rw [ofNat_eq (b := a) (by omega), ofNat_eq (b := b) (by omega), ofNat_eq (b := c) (by omega)]
      rfl
  | case2 a b =>
      have ha := a.toNat_lt
      have hb := b.toNat_lt
      rw [encode, decodeFrom_first _ (sextet?_sextetChar (by omega)),
        decodeFrom_second _ (sextet?_sextetChar (by omega)),
        decodeFrom_third _ (sextet?_sextetChar (by omega)), ofNat_eq (b := a) (by omega),
        ofNat_eq (b := b) (by omega)]
      rfl
  | case3 a =>
      have ha := a.toNat_lt
      rw [encode, decodeFrom_first _ (sextet?_sextetChar (by omega)),
        decodeFrom_second _ (sextet?_sextetChar (by omega)), ofNat_eq (b := a) (by omega)]
      rfl
  | case4 => rfl

/-! ## The standard alphabet -/

/-- The six bits of a character of the standard alphabet. -/
def standardSextet? (c : Char) : Option Nat := if c = '-' ∨ c = '_' then none else sextet? c

def isAlphabet (c : Char) : Bool := (standardSextet? c).isSome

/-- What `b64decode` does not discard. -/
def alphabetOnly (cs : List Char) : List Char := cs.filter fun c => c = '=' || isAlphabet c

/-- `b64decode`, `none` where it raises: of a text that is not ASCII, and where the padding is
wrong after everything outside the alphabet has been discarded. -/
def b64decode (cs : List Char) : Option (List UInt8) :=
  if cs.all fun c => c.toNat < 128 then decode (alphabetOnly cs) else none

/-- Well-formed base64, with the bytes that it stands for. -/
inductive Encodes : List Char → List UInt8 → Prop
  | nil : Encodes [] []
  | group {a b c d : Char} {w x y z : Nat} {rest : List Char} {bytes : List UInt8}
      (ha : standardSextet? a = some w) (hb : standardSextet? b = some x)
      (hc : standardSextet? c = some y) (hd : standardSextet? d = some z)
      (hrest : Encodes rest bytes) :
      Encodes (a :: b :: c :: d :: rest)
        (UInt8.ofNat (w * 4 + x / 16) :: UInt8.ofNat (x % 16 * 16 + y / 4) ::
          UInt8.ofNat (y % 4 * 64 + z) :: bytes)
  | onePad {a b c : Char} {w x y : Nat} (ha : standardSextet? a = some w)
      (hb : standardSextet? b = some x) (hc : standardSextet? c = some y) :
      Encodes [a, b, c, '='] [UInt8.ofNat (w * 4 + x / 16), UInt8.ofNat (x % 16 * 16 + y / 4)]
  | twoPads {a b : Char} {w x : Nat} (ha : standardSextet? a = some w)
      (hb : standardSextet? b = some x) : Encodes [a, b, '=', '='] [UInt8.ofNat (w * 4 + x / 16)]

/-- The number of characters that are not padding. -/
def dataCount (cs : List Char) : Nat := cs.countP (· ≠ '=')

/-- At some place the padding completes a group of four. -/
def Padded (cs : List Char) : Prop :=
  ∃ before after, cs = before ++ '=' :: after ∧
    (dataCount before % 4 = 3 ∨ dataCount before % 4 = 2 ∧ before.getLast? = some '=')

theorem sextet?_of_standard {c : Char} {v : Nat} (h : standardSextet? c = some v) :
    sextet? c = some v :=
  (Option.ite_none_left_eq_some.mp h).2

theorem isAlphabet_of_standard {c : Char} {v : Nat} (h : standardSextet? c = some v) :
    isAlphabet c = true := by
  rw [isAlphabet, h]
  rfl

theorem ascii_of_isAlphabet {c : Char} (h : isAlphabet c = true) : c.toNat < 128 := by
  obtain ⟨v, hv⟩ := Option.isSome_iff_exists.mp h
  have hsextet := sextet?_of_standard hv
  unfold sextet? at hsextet
  dsimp only at hsextet
  split at hsextet
  · omega
  · split at hsextet
    · omega
    · split at hsextet
      · omega
      · split at hsextet
        · rename_i hc
          rcases hc with rfl | rfl <;> decide
        · split at hsextet
          · rename_i hc
            rcases hc with rfl | rfl <;> decide
          · cases hsextet

/-- Well-formed texts hold the alphabet and padding only, and are decoded to what they stand for. -/
theorem Encodes.decode_eq {cs : List Char} {bytes : List UInt8} (h : Encodes cs bytes) :
    (∀ c ∈ cs, c = '=' ∨ isAlphabet c = true) ∧ decode cs = some bytes := by
  rw [decode]
  induction h with
  | nil => exact ⟨List.forall_mem_nil _, rfl⟩
  | group ha hb hc hd hrest ih =>
      refine ⟨?_, ?_⟩
      · simp only [List.forall_mem_cons]
        exact ⟨.inr (isAlphabet_of_standard ha), .inr (isAlphabet_of_standard hb),
          .inr (isAlphabet_of_standard hc), .inr (isAlphabet_of_standard hd), ih.1⟩
      · rw [decodeFrom_first _ (sextet?_of_standard ha), decodeFrom_second _ (sextet?_of_standard hb),
          decodeFrom_third _ (sextet?_of_standard hc), decodeFrom_fourth _ (sextet?_of_standard hd),
          ih.2]
        rfl
  | onePad ha hb hc =>
      refine ⟨?_, ?_⟩
      · simp only [List.forall_mem_cons]
        exact ⟨.inr (isAlphabet_of_standard ha), .inr (isAlphabet_of_standard hb),
          .inr (isAlphabet_of_standard hc), .inl trivial, List.forall_mem_nil _⟩
      · rw [decodeFrom_first _ (sextet?_of_standard ha), decodeFrom_second _ (sextet?_of_standard hb),
          decodeFrom_third _ (sextet?_of_standard hc)]
        rfl
  | twoPads ha hb =>
      refine ⟨?_, ?_⟩
      · simp only [List.forall_mem_cons]
        exact ⟨.inr (isAlphabet_of_standard ha), .inr (isAlphabet_of_standard hb), .inl trivial,
          .inl trivial, List.forall_mem_nil _⟩
      · rw [decodeFrom_first _ (sextet?_of_standard ha), decodeFrom_second _ (sextet?_of_standard hb)]
        rfl

theorem Encodes.b64decode_eq {cs : List Char} {bytes : List UInt8} (h : Encodes cs bytes) :
    b64decode cs = some bytes := by
  obtain ⟨hcs, hdecode⟩ := h.decode_eq
  have hascii : cs.all (fun c => decide (c.toNat < 128)) = true := by
    rw [List.all_eq_true]
    intro c hc
    rcases hcs c hc with rfl | halphabet
    · decide
    · exact decide_eq_true (ascii_of_isAlphabet halphabet)
  have hkept : alphabetOnly cs = cs := by
    rw [alphabetOnly, List.filter_eq_self]
    intro c hc
    rw [Bool.or_eq_true, decide_eq_true_eq]
    exact hcs c hc
  rw [b64decode, if_pos hascii, hkept, hdecode]

/-! ## What `b64decode` takes -/

theorem dataCount_pad (cs : List Char) : dataCount ('=' :: cs) = dataCount cs := rfl

theorem dataCount_data {c : Char} (hc : c ≠ '=') (cs : List Char) :
    dataCount (c :: cs) = dataCount cs + 1 := by
  simp [dataCount, hc]

/-- `Padded` from the given place in a group, a padding character just seen or not. -/
def PaddedFrom (quad : Nat) (seen : Bool) (cs : List Char) : Prop :=
  ∃ before after, cs = before ++ '=' :: after ∧
    ((quad + dataCount before) % 4 = 3 ∨
      (quad + dataCount before) % 4 = 2 ∧
        (before.getLast? = some '=' ∨ before = [] ∧ seen = true))

theorem not_paddedFrom_nil {quad : Nat} {seen : Bool} : ¬ PaddedFrom quad seen [] := by
  rintro ⟨before, after, heq, -⟩
  cases before <;> cases heq

theorem paddedFrom_pad {quad : Nat} {seen : Bool} {cs : List Char} :
    PaddedFrom quad seen ('=' :: cs) ↔
      quad % 4 = 3 ∨ quad % 4 = 2 ∧ seen = true ∨ PaddedFrom quad true cs := by
  constructor
  · rintro ⟨before, after, heq, hplace⟩
    cases before with
    | nil =>
        simp only [dataCount, List.countP_nil, Nat.add_zero, List.getLast?_nil] at hplace
        rcases hplace with h | ⟨h, h' | ⟨-, h'⟩⟩
        · exact .inl h
        · cases h'
        · exact .inr (.inl ⟨h, h'⟩)
    | cons _ before =>
        cases heq
        refine .inr (.inr ⟨before, after, rfl, ?_⟩)
        rw [dataCount_pad, List.getLast?_cons] at hplace
        rcases hplace with h | ⟨h, h' | ⟨h', -⟩⟩
        · exact .inl h
        · refine .inr ⟨h, ?_⟩
          cases before with
          | nil => exact .inr ⟨rfl, rfl⟩
          | cons c before =>
              rw [List.getLast?_cons] at h' ⊢
              exact .inl h'
        · cases h'
  · rintro (h | ⟨h, h'⟩ | ⟨before, after, rfl, hplace⟩)
    · exact ⟨[], cs, rfl, .inl h⟩
    · exact ⟨[], cs, rfl, .inr ⟨h, .inr ⟨rfl, h'⟩⟩⟩
    · refine ⟨'=' :: before, after, rfl, ?_⟩
      rw [dataCount_pad, List.getLast?_cons]
      rcases hplace with h | ⟨h, h' | ⟨rfl, -⟩⟩
      · exact .inl h
      · exact .inr ⟨h, .inl (by rw [h']; rfl)⟩
      · exact .inr ⟨h, .inl rfl⟩

theorem paddedFrom_data {quad : Nat} {seen : Bool} {c : Char} {cs : List Char} (hc : c ≠ '=') :
    PaddedFrom quad seen (c :: cs) ↔ PaddedFrom (quad + 1) false cs := by
  have hcount : ∀ before, quad + dataCount (c :: before) = quad + 1 + dataCount before := by
    intro before
    rw [dataCount_data hc]
    omega
  have hlast : ∀ before : List Char,
      (c :: before).getLast? = some '=' ↔ before.getLast? = some '=' := by
    intro before
    rw [List.getLast?_cons]
    cases before.getLast? <;> simp [hc]
  constructor
  · rintro ⟨before, after, heq, hplace⟩
    cases before with
    | nil =>
        cases heq
        exact absurd rfl hc
    | cons _ before =>
        cases heq
        rw [hcount, hlast] at hplace
        refine ⟨before, after, rfl, hplace.imp_right fun h => ⟨h.1, .inl ?_⟩⟩
        exact h.2.resolve_right fun h' => by cases h'.1
  · rintro ⟨before, after, rfl, hplace⟩
    refine ⟨c :: before, after, rfl, ?_⟩
    rw [hcount, hlast]
    exact hplace.imp_right fun h => ⟨h.1, .inl (h.2.resolve_right fun h' => by cases h'.2)⟩

theorem PaddedFrom.congr {quad quad' : Nat} {seen seen' : Bool} {cs : List Char}
    (hquad : quad % 4 = quad' % 4) (hseen : quad % 4 = 2 → seen = seen') :
    PaddedFrom quad seen cs ↔ PaddedFrom quad' seen' cs := by
  refine exists_congr fun before => exists_congr fun after => and_congr_right fun _ => ?_
  rw [Nat.add_mod, Nat.add_mod quad', hquad]
  refine or_congr_right (and_congr_right fun h => or_congr_right (and_congr_right fun hempty => ?_))
  rw [hempty] at h
  have hplace : quad % 4 = 2 := by
    rw [hquad]
    simpa [dataCount] using h
  rw [hseen hplace]

/-- A character that is not padding goes to the next place in the group. -/
theorem isSome_decodeFrom_data {quad v : Nat} {c : Char} (left pads : Nat) (cs : List Char)
    (hquad : quad < 4) (hc : sextet? c = some v) :
    ∃ left', (decodeFrom quad left pads (c :: cs)).isSome =
      (decodeFrom ((quad + 1) % 4) left' 0 cs).isSome := by
  obtain rfl | rfl | rfl | rfl : quad = 0 ∨ quad = 1 ∨ quad = 2 ∨ quad = 3 := by omega
  · exact ⟨v, by rw [decodeFrom_first _ hc]⟩
  · exact ⟨v % 16, by rw [decodeFrom_second _ hc, Option.isSome_map]⟩
  · exact ⟨v % 4, by rw [decodeFrom_third _ hc, Option.isSome_map]⟩
  · exact ⟨0, by rw [decodeFrom_fourth _ hc, Option.isSome_map]⟩

/-- From inside a group: some padding completes it, or the characters come in groups of four. -/
theorem isSome_decodeFrom {cs : List Char} (hcs : ∀ c ∈ cs, c = '=' ∨ isAlphabet c = true)
    {quad left : Nat} {seen : Bool} (hquad : quad < 4) (hseen : seen = true → quad = 2) :
    (decodeFrom quad left seen.toNat cs).isSome = true ↔
      PaddedFrom quad seen cs ∨ (quad + dataCount cs) % 4 = 0 := by
  induction cs generalizing quad left seen with
  | nil =>
      rw [decodeFrom, or_iff_right not_paddedFrom_nil]
      by_cases hzero : quad = 0
      · rw [if_pos hzero, hzero]
        exact iff_of_true rfl rfl
      · rw [if_neg hzero]
        refine iff_of_false (fun h => by cases h) fun h => hzero ?_
        simpa [dataCount, Nat.mod_eq_of_lt hquad] using h
  | cons c cs ih =>
      obtain ⟨hc, hrest⟩ := List.forall_mem_cons.mp hcs
      by_cases hpad : c = '='
      · subst hpad
        rw [paddedFrom_pad, dataCount_pad, decodeFrom, if_pos rfl, Nat.mod_eq_of_lt hquad]
        cases seen with
        | true =>
            obtain rfl := hseen rfl
            exact iff_of_true rfl (.inl (.inr (.inl ⟨rfl, rfl⟩)))
        | false =>
            obtain hlt | rfl | rfl : quad < 2 ∨ quad = 2 ∨ quad = 3 := by omega
            · have hsame : PaddedFrom quad true cs ↔ PaddedFrom quad false cs :=
                PaddedFrom.congr rfl fun h => by omega
              rw [if_neg (Nat.not_le_of_lt hlt), ih hrest hquad hseen, hsame]
              apply or_congr_left
              constructor
              · exact fun h => .inr (.inr h)
              · rintro (h | ⟨h, -⟩ | h)
                · omega
                · omega
                · exact h
            · have hnext := @ih hrest 2 left true hquad fun _ => rfl
              exact hnext.trans (or_congr_left (by simp))
            · exact iff_of_true rfl (.inl (.inl rfl))
      · obtain ⟨v, hv⟩ := Option.isSome_iff_exists.mp (hc.resolve_left hpad)
        obtain ⟨left', hstep⟩ :=
          isSome_decodeFrom_data left seen.toNat cs hquad (sextet?_of_standard hv)
        have hnext := @ih hrest ((quad + 1) % 4) left' false (Nat.mod_lt _ (by decide))
          fun h => by cases h
        have hplace : PaddedFrom ((quad + 1) % 4) false cs ↔ PaddedFrom (quad + 1) false cs :=
          PaddedFrom.congr (Nat.mod_mod _ _) fun _ => rfl
        rw [hstep, paddedFrom_data hpad, dataCount_data hpad, ← hplace]
        refine hnext.trans (or_congr_right ?_)
        omega

/-- `b64decode` takes an ASCII text if, of what it does not discard, some padding completes a group
or the other characters come in groups of four. -/
theorem isSome_b64decode (cs : List Char) :
    (b64decode cs).isSome = true ↔
      (∀ c ∈ cs, c.toNat < 128) ∧
        (Padded (alphabetOnly cs) ∨ dataCount (alphabetOnly cs) % 4 = 0) := by
  have hkept : ∀ c ∈ alphabetOnly cs, c = '=' ∨ isAlphabet c = true := by
    intro c hc
    simpa using (List.mem_filter.mp hc).2
  have hpadded : PaddedFrom 0 false (alphabetOnly cs) ↔ Padded (alphabetOnly cs) := by
    simp [PaddedFrom, Padded]
  have hdecode := @isSome_decodeFrom _ hkept 0 0 false (by decide) fun h => by cases h
  rw [hpadded, Nat.zero_add] at hdecode
  rw [b64decode]
  split
  · rename_i hascii
    rw [decode]
    refine hdecode.trans (and_iff_right ?_).symm
    simpa using hascii
  · rename_i hascii
    refine iff_of_false (fun h => by cases h) fun h => hascii ?_
    simpa using h.1

end Base64

end Hypernote.Foundation
