import LineConsole.Text.Utf8
import Mathlib.Algebra.Group.Nat.Defs
import Mathlib.Data.List.Infix

/-! # One character in UTF-8

The bytes behind the first of a character hold six bits of its number each, so a decoder inside a
character has read the number's first bits and comes to the numbers that begin with them. What the
range of the second byte leaves out are the numbers with a shorter form, the surrogates and what is
too large. A decoder therefore reads a character from its encoding and from no other bytes.
-/

namespace LineConsole.Text

/-! ## The first byte -/

/-- The first byte of a character of more bytes, and where a decoder stands behind it. -/
inductive Lead : UInt8 → Utf8Partial → Prop where
  | two {byte : UInt8} {bits : Nat} (same : byte.toNat = 0xc0 + bits) (long : 2 ≤ bits)
      (small : bits < 32) : Lead byte ⟨bits, 0, 0x80, 0xbf⟩
  | three {byte : UInt8} {bits : Nat} (same : byte.toNat = 0xe0 + bits) (small : bits < 16) :
      Lead byte ⟨bits, 1, if bits = 0 then 0xa0 else 0x80, if bits = 13 then 0x9f else 0xbf⟩
  | four {byte : UInt8} {bits : Nat} (same : byte.toNat = 0xf0 + bits) (small : bits ≤ 4) :
      Lead byte ⟨bits, 2, if bits = 0 then 0x90 else 0x80, if bits = 4 then 0x8f else 0xbf⟩

theorem Lead.first {byte : UInt8} {state : Utf8Partial} (lead : Lead byte state) :
    utf8First byte = .inside state := by
  cases lead with
  | two same long small =>
    simp only [utf8First, same]
    grind
  | three same small =>
    simp only [utf8First, same]
    grind
  | four same small =>
    simp only [utf8First, same]
    grind

theorem lead_of_first {byte : UInt8} {state : Utf8Partial} (read : utf8First byte = .inside state) :
    Lead byte state := by
  have same (low : Nat) (above : low ≤ byte.toNat) : byte.toNat = low + (byte.toNat - low) := by omega
  by_cases two : byte.toNat < 0xe0
  · by_cases long : 0xc2 ≤ byte.toNat
    · have lead := Lead.two (same 0xc0 (by omega)) (by omega) (by omega)
      obtain rfl := Utf8Step.inside.inj (lead.first.symm.trans read)
      exact lead
    · simp only [utf8First] at read
      grind
  by_cases three : byte.toNat < 0xf0
  · have lead := Lead.three (same 0xe0 (by omega)) (by omega)
    obtain rfl := Utf8Step.inside.inj (lead.first.symm.trans read)
    exact lead
  by_cases four : byte.toNat ≤ 0xf4
  · have lead := Lead.four (same 0xf0 (by omega)) (by omega)
    obtain rfl := Utf8Step.inside.inj (lead.first.symm.trans read)
    exact lead
  · simp only [utf8First] at read
    grind

theorem utf8First_eq_char_iff {byte : UInt8} {c : Char} :
    utf8First byte = .char c ↔ byte.toNat < 0x80 ∧ c = Char.ofNat byte.toNat := by
  simp only [utf8First]
  grind

/-! ## The bytes behind it -/

namespace Utf8Partial

theorem next_eq_char_iff {state : Utf8Partial} {byte : UInt8} {c : Char} :
    state.next byte = .char c ↔ state.low ≤ byte.toNat ∧ byte.toNat ≤ state.high ∧ state.after = 0 ∧
      c = Char.ofNat (state.value * 64 + (byte.toNat - 0x80)) := by
  simp only [next]
  grind

theorem next_eq_inside_iff {state state' : Utf8Partial} {byte : UInt8} :
    state.next byte = .inside state' ↔ state.low ≤ byte.toNat ∧ byte.toNat ≤ state.high ∧
      ∃ after, state.after = after + 1 ∧
        state' = ⟨state.value * 64 + (byte.toNat - 0x80), after, 0x80, 0xbf⟩ := by
  simp only [next]
  grind

/-- Some byte can come next, and any that can holds six bits. -/
structure Continues (state : Utf8Partial) : Prop where
  low : 0x80 ≤ state.low
  some : state.low ≤ state.high
  high : state.high ≤ 0xbf

theorem Continues.any {value after : Nat} : Continues ⟨value, after, 0x80, 0xbf⟩ :=
  ⟨Nat.le_refl 0x80, show 0x80 ≤ 0xbf by decide, Nat.le_refl 0xbf⟩

/-- The numbers that the bits read so far begin and the next byte can go on with. -/
structure Admits (state : Utf8Partial) (n : Nat) : Prop where
  value : n / 64 ^ (state.after + 1) = state.value
  low : state.low ≤ n / 64 ^ state.after % 64 + 0x80
  high : n / 64 ^ state.after % 64 + 0x80 ≤ state.high

end Utf8Partial

open Utf8Partial

theorem Lead.continues {byte : UInt8} {state : Utf8Partial} (lead : Lead byte state) :
    state.Continues := by
  cases lead <;> constructor <;> grind

/-- From `state` on, the bytes are the rest of one character, and the decoder says so at the last of
them. -/
inductive Spells : Option Utf8Partial → List UInt8 → Char → Prop where
  | last {state : Option Utf8Partial} {byte : UInt8} {c : Char} (read : utf8Step state byte = .char c) :
      Spells state [byte] c
  | more {state : Option Utf8Partial} {next : Utf8Partial} {byte : UInt8} {bytes : List UInt8} {c : Char}
      (read : utf8Step state byte = .inside next) (later : Spells (some next) bytes c) :
      Spells state (byte :: bytes) c

/-- The last `count` bytes of the character with the number `n`. -/
def continuation (n : Nat) : Nat → List UInt8
  | 0 => []
  | count + 1 => UInt8.ofNat (n / 64 ^ count % 64 + 0x80) :: continuation n count

private theorem toNat_continuation (n : Nat) : (UInt8.ofNat (n % 64 + 0x80)).toNat = n % 64 + 0x80 :=
  UInt8.toNat_ofNat_of_lt' (show n % 64 + 0x80 < 256 by omega)

private theorem div_pow_succ (n count : Nat) : n / 64 ^ (count + 1) = n / 64 ^ count / 64 := by
  rw [Nat.pow_succ, Nat.div_div_eq_div_mul]

theorem le_of_mem_continuation {byte : UInt8} {n count : Nat} (within : byte ∈ continuation n count) :
    0x80 ≤ byte.toNat := by
  induction count with
  | zero => cases within
  | succ count ih =>
    rcases List.mem_cons.mp within with rfl | within
    · rw [toNat_continuation]
      exact Nat.le_add_left 0x80 _
    · exact ih within

/-- By induction on the bytes still to come: each takes six bits over into the number. -/
theorem spells_of_admits {state : Utf8Partial} {n : Nat} (admits : state.Admits n) :
    Spells (some state) (continuation n (state.after + 1)) (Char.ofNat n) := by
  obtain ⟨value, after, low, high⟩ := state
  obtain ⟨same, above, below⟩ := admits
  induction after generalizing value low high with
  | zero =>
    have byte := toNat_continuation n
    simp only [Nat.zero_add, Nat.pow_one, Nat.pow_zero, Nat.div_one] at same above below
    simp only [continuation, Nat.pow_zero, Nat.div_one]
    refine .last (next_eq_char_iff.mpr ⟨?_, ?_, rfl, congrArg Char.ofNat ?_⟩)
    · rw [byte]
      exact above
    · rw [byte]
      exact below
    · simp only [byte]
      omega
  | succ after ih =>
    have byte := toNat_continuation (n / 64 ^ (after + 1))
    rw [div_pow_succ] at same
    refine .more (next_eq_inside_iff.mpr ⟨?_, ?_, after, rfl, rfl⟩) ?_
    · rw [byte]
      exact above
    · rw [byte]
      exact below
    · simp only at same
      simp only [byte]
      refine ih _ _ _ ?_ ?_ ?_ <;> simp only <;> omega

theorem exists_admits_of_spells {state : Utf8Partial} {bytes : List UInt8} {c : Char}
    (spells : Spells (some state) bytes c) (continues : state.Continues) :
    ∃ n, c = Char.ofNat n ∧ state.Admits n ∧ bytes = continuation n (state.after + 1) := by
  generalize start : some state = s at spells
  induction spells generalizing state with
  | @last _ byte c read =>
    obtain rfl := start
    obtain ⟨above, below, finished, whole⟩ := next_eq_char_iff.mp read
    have low := continues.low
    have high := continues.high
    have same : (state.value * 64 + (byte.toNat - 0x80)) % 64 + 0x80 = byte.toNat := by omega
    refine ⟨_, whole, ⟨?_, ?_, ?_⟩, ?_⟩ <;>
      simp only [finished, continuation, Nat.zero_add, Nat.pow_one, Nat.pow_zero, Nat.div_one, same]
    · omega
    · exact above
    · exact below
    · rw [UInt8.ofNat_toNat]
  | @more _ next byte bytes c read later ih =>
    obtain rfl := start
    obtain ⟨above, below, after, more, rfl⟩ := next_eq_inside_iff.mp read
    obtain ⟨n, rfl, admits, rfl⟩ := ih .any rfl
    have low := continues.low
    have high := continues.high
    have value : n / 64 ^ (after + 1) = state.value * 64 + (byte.toNat - 0x80) := admits.value
    have here : n / 64 ^ (after + 1) % 64 + 0x80 = byte.toNat := by omega
    refine ⟨n, rfl, ⟨?_, ?_, ?_⟩, ?_⟩
    · rw [more, div_pow_succ]
      omega
    · rw [more, here]
      exact above
    · rw [more, here]
      exact below
    · rw [more, continuation.eq_2 n (after + 1), here, UInt8.ofNat_toNat]

/-! ## Encodings -/

theorem toNat_ofNat_of_isValidChar {n : Nat} (valid : n.isValidChar) : (Char.ofNat n).toNat = n := by
  rw [Char.ofNat, dif_pos valid]
  rfl

theorem isValidChar_toNat (c : Char) : c.toNat.isValidChar := c.valid

theorem utf8EncodeChar_eq (c : Char) :
    String.utf8EncodeChar c =
      if c.toNat < 0x80 then [UInt8.ofNat c.toNat]
      else if c.toNat < 0x800 then UInt8.ofNat (0xc0 + c.toNat / 64) :: continuation c.toNat 1
      else if c.toNat < 0x10000 then UInt8.ofNat (0xe0 + c.toNat / 4096) :: continuation c.toNat 2
      else UInt8.ofNat (0xf0 + c.toNat / 262144) :: continuation c.toNat 3 := by
  have valid := isValidChar_toNat c
  have same : c.val.toNat = c.toNat := rfl
  rw [Nat.isValidChar] at valid
  simp only [String.utf8EncodeChar, same, continuation, Nat.reducePow, Nat.div_one]
  generalize c.toNat = n at valid
  by_cases one : n < 0x80
  · rw [if_pos one, if_pos (Nat.le_of_lt_succ one)]
  rw [if_neg one, if_neg (by omega)]
  by_cases two : n < 0x800
  · have first : n / 64 % 32 + 192 = 0xc0 + n / 64 := by omega
    rw [if_pos two, if_pos (Nat.le_of_lt_succ two), first]
  rw [if_neg two, if_neg (by omega)]
  by_cases three : n < 0x10000
  · have first : n / 4096 % 16 + 224 = 0xe0 + n / 4096 := by omega
    rw [if_pos three, if_pos (Nat.le_of_lt_succ three), first]
  · have first : n / 262144 % 8 + 240 = 0xf0 + n / 262144 := by omega
    rw [if_neg three, if_neg (by omega), first]

/-- The range of the second byte holds what the number of bytes and the surrogates ask for. -/
theorem spells_utf8EncodeChar (c : Char) : Spells none (String.utf8EncodeChar c) c := by
  have valid := isValidChar_toNat c
  have whole := Char.ofNat_toNat c
  have byte {n : Nat} (small : n < 256) : (UInt8.ofNat n).toNat = n := UInt8.toNat_ofNat_of_lt' small
  rw [Nat.isValidChar] at valid
  rw [utf8EncodeChar_eq]
  generalize c.toNat = n at valid whole
  subst whole
  by_cases one : n < 0x80
  · have same := byte (n := n) (by omega)
    rw [if_pos one]
    refine .last (utf8First_eq_char_iff.mpr ?_)
    rw [same]
    exact ⟨one, rfl⟩
  rw [if_neg one]
  by_cases two : n < 0x800
  · rw [if_pos two]
    refine .more (Lead.first (.two (byte (by omega)) (by omega) (by omega)))
      (spells_of_admits ⟨?_, ?_, ?_⟩)
    · exact congrArg (n / ·) (Nat.pow_one 64)
    · exact Nat.le_add_left 0x80 _
    · exact show _ + 0x80 ≤ 63 + 0x80 by omega
  rw [if_neg two]
  by_cases three : n < 0x10000
  · rw [if_pos three]
    refine .more (Lead.first (.three (byte (by omega)) (by omega))) (spells_of_admits ⟨rfl, ?_, ?_⟩)
    · simp only [Nat.pow_one]
      split <;> omega
    · simp only [Nat.pow_one]
      split <;> omega
  · rw [if_neg three]
    refine .more (Lead.first (.four (byte (by omega)) (by omega))) (spells_of_admits ⟨rfl, ?_, ?_⟩)
    · simp only [Nat.reducePow]
      split <;> omega
    · simp only [Nat.reducePow]
      split <;> omega

private theorem eq_ofNat {byte : UInt8} {n : Nat} (same : byte.toNat = n) : byte = UInt8.ofNat n := by
  rw [← same, UInt8.ofNat_toNat]

theorem eq_utf8EncodeChar_of_spells {bytes : List UInt8} {c : Char} (spells : Spells none bytes c) :
    bytes = String.utf8EncodeChar c := by
  cases spells with
  | @last _ byte _ read =>
    obtain ⟨small, rfl⟩ := utf8First_eq_char_iff.mp read
    have valid : byte.toNat.isValidChar := .inl (by omega)
    rw [utf8EncodeChar_eq, toNat_ofNat_of_isValidChar valid, if_pos small, UInt8.ofNat_toNat]
  | more read later =>
    have lead := lead_of_first read
    obtain ⟨n, rfl, ⟨value, above, below⟩, rfl⟩ := exists_admits_of_spells later lead.continues
    cases lead with
    | two same long small =>
      simp only [Nat.zero_add, Nat.pow_one] at value
      have valid : n.isValidChar := .inl (by omega)
      rw [utf8EncodeChar_eq, toNat_ofNat_of_isValidChar valid, if_neg (by omega), if_pos (by omega),
        value, eq_ofNat same]
    | three same small =>
      simp only [Nat.reduceAdd, Nat.reducePow, Nat.pow_one] at value above below
      change _ :: continuation n 2 = _
      have long : 0x800 ≤ n := by split at above <;> omega
      have valid : n.isValidChar := by
        rw [Nat.isValidChar]
        split at below <;> omega
      rw [utf8EncodeChar_eq, toNat_ofNat_of_isValidChar valid, if_neg (by omega),
        if_neg (by omega), if_pos (by omega), value, eq_ofNat same]
    | four same small =>
      simp only [Nat.reduceAdd, Nat.reducePow] at value above below
      change _ :: continuation n 3 = _
      have long : 0x10000 ≤ n := by split at above <;> omega
      have valid : n.isValidChar := by
        rw [Nat.isValidChar]
        split at below <;> omega
      rw [utf8EncodeChar_eq, toNat_ofNat_of_isValidChar valid, if_neg (by omega),
        if_neg (by omega), if_neg (by omega), value, eq_ofNat same]

/-- A decoder reads a character from its encoding and from nothing else. -/
theorem spells_iff {bytes : List UInt8} {c : Char} :
    Spells none bytes c ↔ bytes = String.utf8EncodeChar c := by
  constructor
  · exact eq_utf8EncodeChar_of_spells
  · rintro rfl
    exact spells_utf8EncodeChar c

/-- A byte below 128 is a character by itself and part of no other. -/
theorem utf8EncodeChar_of_mem {byte : UInt8} {c : Char} (within : byte ∈ String.utf8EncodeChar c)
    (small : byte.toNat < 0x80) : String.utf8EncodeChar c = [byte] ∧ c = Char.ofNat byte.toNat := by
  have valid := isValidChar_toNat c
  have long {lead n count : Nat} (above : 0x80 ≤ lead) (fits : lead < 256) :
      byte ∉ UInt8.ofNat lead :: continuation n count := by
    intro within
    rcases List.mem_cons.mp within with rfl | within
    · rw [UInt8.toNat_ofNat_of_lt' fits] at small
      omega
    · exact absurd (le_of_mem_continuation within) (Nat.not_le_of_lt small)
  rw [Nat.isValidChar] at valid
  rw [utf8EncodeChar_eq] at within ⊢
  split at within
  · rename_i one
    obtain rfl := List.mem_singleton.mp within
    rw [if_pos one, UInt8.toNat_ofNat_of_lt' (show c.toNat < 256 by omega), Char.ofNat_toNat]
    exact ⟨rfl, rfl⟩
  · split at within
    · exact absurd within (long (by omega) (by omega))
    · split at within
      · exact absurd within (long (by omega) (by omega))
      · exact absurd within (long (by omega) (by omega))

/-- Whatever a decoder has read of a character, some character begins so. -/
theorem exists_spells {state : Utf8Partial} (continues : state.Continues) :
    ∃ bytes c, Spells (some state) bytes c := by
  obtain ⟨low, some, high⟩ := continues
  have here : (state.value * 64 + (state.low - 0x80)) * 64 ^ state.after / 64 ^ state.after =
      state.value * 64 + (state.low - 0x80) :=
    Nat.mul_div_cancel _ (Nat.pow_pos (by decide))
  refine ⟨_, _, spells_of_admits
    (n := (state.value * 64 + (state.low - 0x80)) * 64 ^ state.after) ⟨?_, ?_, ?_⟩⟩
  · rw [div_pow_succ, here]
    omega
  · rw [here]
    omega
  · rw [here]
    omega

end LineConsole.Text
