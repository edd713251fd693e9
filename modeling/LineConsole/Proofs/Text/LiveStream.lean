import LineConsole.Proofs.Text.Utf8

/-! # Decoding a live stream

Bytes that arrive one by one fall into pieces: a character in its encoding, or the beginning of one,
which may be nothing, with the byte that no character goes on with. The first comes to its character
and the second to one replacement character, at the last byte of the piece. Behind the last piece may
stand the beginning of a character, which comes to nothing yet. Every stream falls into pieces in one
way.
-/

namespace LineConsole.Text

theorem replacingFrom_append (state : Option Utf8Partial) (front back : List UInt8) :
    replacingFrom state (front ++ back) =
      ((replacingFrom (replacingFrom state front).1 back).1,
        (replacingFrom state front).2 ++ (replacingFrom (replacingFrom state front).1 back).2) := by
  induction front generalizing state with
  | nil => rfl
  | cons byte front ih => simp only [List.cons_append, replacingFrom, ih, List.append_assoc]

theorem replacingStep_of_char {state : Option Utf8Partial} {byte : UInt8} {c : Char}
    (read : utf8Step state byte = .char c) : replacingStep state byte = (none, [c]) := by
  rw [replacingStep, read]

theorem replacingStep_of_inside {state : Option Utf8Partial} {next : Utf8Partial} {byte : UInt8}
    (read : utf8Step state byte = .inside next) : replacingStep state byte = (some next, []) := by
  rw [replacingStep, read]

theorem replacingStep_of_invalid {state : Option Utf8Partial} {byte : UInt8}
    (read : utf8Step state byte = .invalid) : replacingStep state byte = (none, ['\ufffd']) := by
  rw [replacingStep, read]

theorem replacingFrom_of_step {state next : Option Utf8Partial} {byte : UInt8} {out : List Char}
    (step : replacingStep state byte = (next, out)) (bytes : List UInt8) :
    replacingFrom state (byte :: bytes) =
      ((replacingFrom next bytes).1, out ++ (replacingFrom next bytes).2) := by
  rw [replacingFrom, step]

namespace Spells

variable {state : Option Utf8Partial} {bytes : List UInt8} {c : Char}

theorem replacingFrom_eq (spells : Spells state bytes c) : replacingFrom state bytes = (none, [c]) := by
  induction spells with
  | last read => exact replacingFrom_of_step (replacingStep_of_char read) []
  | more read _ ih => rw [replacingFrom_of_step (replacingStep_of_inside read), ih, List.nil_append]

theorem bytes_ne (spells : Spells state bytes c) : bytes ≠ [] := by
  cases spells <;> exact List.cons_ne_nil _ _

/-- Before its last byte a character comes to nothing. -/
theorem split {front back : List UInt8} (spells : Spells state (front ++ back) c) (some : back ≠ []) :
    (replacingFrom state front).2 = [] ∧ Spells (replacingFrom state front).1 back c := by
  induction front generalizing state with
  | nil => exact ⟨rfl, spells⟩
  | cons byte front ih =>
    rw [List.cons_append] at spells
    generalize whole : front ++ back = bytes at spells
    cases spells with
    | last read => exact absurd (List.append_eq_nil_iff.mp whole).2 some
    | more read later =>
      rw [replacingFrom_of_step (replacingStep_of_inside read)]
      exact ih (whole ▸ later)

end Spells

/-- A stream that has come to nothing goes on with the rest of a character. -/
theorem spells_append {state : Option Utf8Partial} {front back : List UInt8} {c : Char}
    (silent : (replacingFrom state front).2 = [])
    (spells : Spells (replacingFrom state front).1 back c) : Spells state (front ++ back) c := by
  induction front generalizing state with
  | nil => exact spells
  | cons byte front ih =>
    cases read : utf8Step state byte with
    | char d =>
      rw [replacingFrom_of_step (replacingStep_of_char read)] at silent
      cases silent
    | invalid =>
      rw [replacingFrom_of_step (replacingStep_of_invalid read)] at silent
      cases silent
    | inside next =>
      rw [replacingFrom_of_step (replacingStep_of_inside read)] at silent spells
      exact .more read (ih silent spells)

/-- Inside a character, some byte can come next. -/
theorem continues_of_replacingFrom {state : Option Utf8Partial} (start : ∀ s ∈ state, s.Continues)
    (bytes : List UInt8) : ∀ s ∈ (replacingFrom state bytes).1, s.Continues := by
  induction bytes generalizing state with
  | nil => exact start
  | cons byte bytes ih =>
    cases read : utf8Step state byte with
    | char d =>
      rw [replacingFrom_of_step (replacingStep_of_char read)]
      exact ih nofun
    | invalid =>
      rw [replacingFrom_of_step (replacingStep_of_invalid read)]
      exact ih nofun
    | inside next =>
      rw [replacingFrom_of_step (replacingStep_of_inside read)]
      refine ih ?_
      rintro _ ⟨⟩
      cases state with
      | none => exact (lead_of_first read).continues
      | some state =>
        obtain ⟨-, -, after, -, rfl⟩ := Utf8Partial.next_eq_inside_iff.mp read
        exact .any

/-! ## Beginnings -/

/-- The bytes are the beginning of a character, and not all of it; no bytes are. -/
def Begun (bytes : List UInt8) : Prop :=
  ∃ c : Char, bytes <+: String.utf8EncodeChar c ∧ bytes ≠ String.utf8EncodeChar c

/-- The bytes of a character that has begun and no more are those that come to nothing. -/
theorem begun_iff {bytes : List UInt8} : Begun bytes ↔ (replacingFrom none bytes).2 = [] := by
  constructor
  · rintro ⟨c, ⟨back, whole⟩, proper⟩
    have some : back ≠ [] := by
      rintro rfl
      exact proper (by rw [← whole, List.append_nil])
    have spells := spells_utf8EncodeChar c
    rw [← whole] at spells
    exact (spells.split some).1
  · intro silent
    have goesOn : ∃ back c, Spells (replacingFrom none bytes).1 back c := by
      cases state : (replacingFrom none bytes).1 with
      | none => exact ⟨_, 'a', spells_utf8EncodeChar 'a'⟩
      | some s => exact exists_spells (continues_of_replacingFrom (by nofun) bytes s state)
    obtain ⟨back, c, spells⟩ := goesOn
    have whole := spells_iff.mp (spells_append silent spells)
    refine ⟨c, ⟨back, whole⟩, ?_⟩
    intro same
    rw [← same] at whole
    exact spells.bytes_ne (List.self_eq_append_right.mp whole.symm)

namespace Begun

variable {bytes : List UInt8}

theorem nil : Begun [] := begun_iff.mpr rfl

theorem of_prefix {front : List UInt8} (begun : Begun bytes) (start : front <+: bytes) : Begun front := by
  obtain ⟨c, there, proper⟩ := begun
  refine ⟨c, start.trans there, ?_⟩
  rintro rfl
  exact proper (there.eq_of_length_le start.length_le)

/-- Between two characters a decoder stands only behind nothing. -/
theorem state_eq_none_iff (begun : Begun bytes) : (replacingFrom none bytes).1 = none ↔ bytes = [] := by
  constructor
  · intro between
    -- an encoding that follows would be one with the bytes in front of it as well
    have spells := spells_utf8EncodeChar 'a'
    rw [← between] at spells
    have whole := spells_iff.mp (spells_append (begun_iff.mp begun) spells)
    exact List.self_eq_append_left.mp whole.symm
  · rintro rfl
    rfl

end Begun

/-! ## Pieces -/

/-- Bytes of a live stream that come to one character. -/
inductive Utf8Piece where
  | char (c : Char)
  /-- A byte with which no character goes on, behind the beginning of one. -/
  | broken (front : List UInt8) (byte : UInt8) (begun : Begun front)
      (breaks : ∀ c, ¬ front ++ [byte] <+: String.utf8EncodeChar c)

namespace Utf8Piece

def bytes : Utf8Piece → List UInt8
  | .char c => String.utf8EncodeChar c
  | .broken front byte _ _ => front ++ [byte]

/-- What a piece comes to. -/
def shown : Utf8Piece → Char
  | .char c => c
  | .broken .. => '\ufffd'

private theorem ne_of_breaks {bytes : List UInt8} {c : Char}
    (breaks : ¬ bytes <+: String.utf8EncodeChar c) : bytes ≠ String.utf8EncodeChar c := by
  rintro rfl
  exact breaks List.prefix_rfl

theorem replacingFrom_eq (piece : Utf8Piece) : replacingFrom none piece.bytes = (none, [piece.shown]) := by
  cases piece with
  | char c => exact (spells_utf8EncodeChar c).replacingFrom_eq
  | broken front byte begun breaks =>
    have silent := begun_iff.mp begun
    have last : utf8Step (replacingFrom none front).1 byte = .invalid := by
      cases read : utf8Step (replacingFrom none front).1 byte with
      | invalid => rfl
      | char c =>
        exact absurd (spells_iff.mp (spells_append silent (.last read))) (ne_of_breaks (breaks c))
      | inside next =>
        have begun : Begun (front ++ [byte]) := by
          rw [begun_iff, replacingFrom_append, silent,
            replacingFrom_of_step (replacingStep_of_inside read)]
          rfl
        obtain ⟨c, there, -⟩ := begun
        exact absurd there (breaks c)
    rw [bytes, replacingFrom_append, silent, replacingFrom_of_step (replacingStep_of_invalid last)]
    rfl

theorem begun_of_proper {piece : Utf8Piece} {front : List UInt8} (start : front <+: piece.bytes)
    (proper : front ≠ piece.bytes) : Begun front := by
  cases piece with
  | char c => exact ⟨c, start, proper⟩
  | broken whole byte begun breaks =>
    rcases List.prefix_concat_iff.mp start with same | shorter
    · exact absurd same proper
    · exact begun.of_prefix shorter

theorem eq_of_bytes_eq {piece piece' : Utf8Piece} (same : piece.bytes = piece'.bytes) : piece = piece' := by
  have shown := piece.replacingFrom_eq
  rw [same, piece'.replacingFrom_eq] at shown
  cases piece with
  | char c =>
    cases piece' with
    | char c' =>
      have : c' = c := by simpa [Utf8Piece.shown] using shown
      rw [this]
    | broken front byte begun breaks => exact absurd same.symm (ne_of_breaks (breaks c))
  | broken front byte begun breaks =>
    cases piece' with
    | char c => exact absurd same (ne_of_breaks (breaks c))
    | broken front' byte' _ _ =>
      obtain ⟨rfl, last⟩ := List.append_inj' same rfl
      cases last
      rfl

theorem not_begun_append (piece : Utf8Piece) (back : List UInt8) : ¬ Begun (piece.bytes ++ back) := by
  rw [begun_iff, replacingFrom_append, piece.replacingFrom_eq]
  exact List.cons_ne_nil _ _

/-- In front of others, pieces can be told apart: before its last byte each comes to nothing. -/
theorem bytes_append_inj {piece piece' : Utf8Piece} {back back' : List UInt8}
    (same : piece.bytes ++ back = piece'.bytes ++ back') : piece = piece' ∧ back = back' := by
  have shown (p : Utf8Piece) : ¬ Begun p.bytes := List.append_nil p.bytes ▸ p.not_begun_append []
  have bytes : piece.bytes = piece'.bytes := by
    rcases List.append_eq_append_iff.mp same with ⟨more, longer, -⟩ | ⟨more, longer, -⟩
    · by_contra other
      exact shown piece (begun_of_proper (longer ▸ List.prefix_append _ _) other)
    · by_contra other
      exact shown piece' (begun_of_proper (longer ▸ List.prefix_append _ _) (Ne.symm other))
  rw [bytes] at same
  exact ⟨eq_of_bytes_eq bytes, List.append_cancel_left same⟩

end Utf8Piece

/-- The bytes are these pieces, one behind the other, and then the beginning of a character or
nothing. -/
structure MadeOf (bytes : List UInt8) (pieces : List Utf8Piece) (rest : List UInt8) : Prop where
  joined : bytes = pieces.flatMap Utf8Piece.bytes ++ rest
  begun : Begun rest

namespace MadeOf

variable {bytes rest rest' : List UInt8} {pieces pieces' : List Utf8Piece}

theorem snoc (madeOf : MadeOf bytes pieces rest) {byte : UInt8} (piece : Utf8Piece)
    (same : piece.bytes = rest ++ [byte]) : MadeOf (bytes ++ [byte]) (pieces ++ [piece]) [] :=
  ⟨by simp [madeOf.joined, same], .nil⟩

/-- By induction on the bytes, the last of them apart: it goes on with a character, ends it or breaks
it off. -/
theorem exists_pieces (bytes : List UInt8) : ∃ pieces rest, MadeOf bytes pieces rest := by
  induction bytes using List.reverseRecOn with
  | nil => exact ⟨[], [], rfl, .nil⟩
  | append_singleton bytes byte ih =>
    obtain ⟨pieces, rest, madeOf⟩ := ih
    by_cases goesOn : ∃ c, rest ++ [byte] <+: String.utf8EncodeChar c
    · obtain ⟨c, there⟩ := goesOn
      by_cases ends : rest ++ [byte] = String.utf8EncodeChar c
      · exact ⟨_, _, madeOf.snoc (.char c) ends.symm⟩
      · exact ⟨pieces, rest ++ [byte], by rw [madeOf.joined, List.append_assoc], c, there, ends⟩
    · exact ⟨_, _, madeOf.snoc (.broken rest byte madeOf.begun (not_exists.mp goesOn)) rfl⟩

theorem replacingFrom_eq (madeOf : MadeOf bytes pieces rest) :
    replacingFrom none bytes = ((replacingFrom none rest).1, pieces.map Utf8Piece.shown) := by
  rw [madeOf.joined]
  induction pieces generalizing bytes with
  | nil => exact Prod.ext rfl (begun_iff.mp madeOf.begun)
  | cons piece pieces ih =>
    rw [List.flatMap_cons, List.append_assoc, replacingFrom_append, piece.replacingFrom_eq,
      ih ⟨rfl, madeOf.begun⟩]
    rfl

/-- A stream is made of pieces in one way only. -/
theorem unique (madeOf : MadeOf bytes pieces rest) (madeOf' : MadeOf bytes pieces' rest') :
    pieces' = pieces ∧ rest' = rest := by
  have same := madeOf.joined.symm.trans madeOf'.joined
  have begun := madeOf.begun
  have begun' := madeOf'.begun
  clear madeOf madeOf'
  induction pieces generalizing pieces' with
  | nil =>
    cases pieces' with
    | nil => exact ⟨rfl, same.symm⟩
    | cons piece' pieces' =>
      rw [List.flatMap_nil, List.nil_append, List.flatMap_cons, List.append_assoc] at same
      exact absurd (same ▸ begun) (piece'.not_begun_append _)
  | cons piece pieces ih =>
    rw [List.flatMap_cons, List.append_assoc] at same
    cases pieces' with
    | nil =>
      rw [List.flatMap_nil, List.nil_append] at same
      exact absurd (same ▸ begun') (piece.not_begun_append _)
    | cons piece' pieces' =>
      rw [List.flatMap_cons, List.append_assoc] at same
      obtain ⟨rfl, behind⟩ := Utf8Piece.bytes_append_inj same
      obtain ⟨rfl, rfl⟩ := ih behind
      exact ⟨rfl, rfl⟩

end MadeOf

end LineConsole.Text
