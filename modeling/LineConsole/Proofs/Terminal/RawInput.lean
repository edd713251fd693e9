import LineConsole.Proofs.Text.LiveStream
import LineConsole.Terminal

/-! # Raw input

The events of a stream are the characters of its pieces. A text that is sent in UTF-8 arrives as it
is, and the input is between two characters again behind it. An ASCII byte begins a piece of its own,
and arrives, unless the stream ends inside a character where it comes: then it breaks off that
character and goes with it.
-/

namespace LineConsole.Terminal

open Text

theorem rawEvents_of_madeOf {bytes rest : List UInt8} {pieces : List Utf8Piece}
    (madeOf : MadeOf bytes pieces rest) : rawEvents bytes = pieces.map (KeyEvent.ofChar ·.shown) := by
  rw [rawEvents, madeOf.replacingFrom_eq, List.map_map]
  rfl

/-- Between two characters the events begin anew. -/
theorem rawEvents_append {front : List UInt8} (between : (replacingFrom none front).1 = none)
    (back : List UInt8) : rawEvents (front ++ back) = rawEvents front ++ rawEvents back := by
  simp only [rawEvents, replacingFrom_append, between, List.map_append]

/-! ## Texts -/

theorem encodeUtf8_eq_toUTF8 (s : String) : encodeUtf8 s = s.toUTF8.data.toList := by
  rw [String.toUTF8, ← String.utf8Encode_toList]
  simp [List.utf8Encode, encodeUtf8]

theorem madeOf_encodeUtf8 (s : String) : MadeOf (encodeUtf8 s) (s.toList.map .char) [] := by
  refine ⟨?_, .nil⟩
  rw [encodeUtf8, List.flatMap_map, List.append_nil]
  rfl

/-- A text that is sent in UTF-8 arrives character by character, whatever follows it, and nothing is
pending behind it. -/
theorem rawEvents_encodeUtf8 (s : String) :
    encodeUtf8 s = s.toUTF8.data.toList ∧
      replacingFrom none (encodeUtf8 s) = (none, s.toList) ∧
      ∀ after, rawEvents (encodeUtf8 s ++ after) = s.toList.map KeyEvent.ofChar ++ rawEvents after := by
  have read : replacingFrom none (encodeUtf8 s) = (none, s.toList) := by
    rw [(madeOf_encodeUtf8 s).replacingFrom_eq, List.map_map]
    exact Prod.ext rfl (List.map_id _)
  refine ⟨encodeUtf8_eq_toUTF8 s, read, fun after => ?_⟩
  rw [rawEvents_append (by rw [read]), rawEvents, read]

/-! ## ASCII bytes -/

/-- Behind the pieces of the stream stands the beginning of a character. -/
def EndsInside (bytes : List UInt8) : Prop := ∃ pieces rest, MadeOf bytes pieces rest ∧ rest ≠ []

theorem endsInside_iff {bytes : List UInt8} :
    EndsInside bytes ↔ (replacingFrom none bytes).1 ≠ none := by
  obtain ⟨pieces, rest, madeOf⟩ := MadeOf.exists_pieces bytes
  rw [madeOf.replacingFrom_eq, ne_eq, madeOf.begun.state_eq_none_iff]
  constructor
  · rintro ⟨pieces', rest', madeOf', inside⟩
    exact (madeOf.unique madeOf').2 ▸ inside
  · exact fun inside => ⟨pieces, rest, madeOf, inside⟩

theorem utf8Step_of_ascii {byte : UInt8} (ascii : byte < 0x80) :
    utf8Step none byte = .char (Char.ofNat byte.toNat) :=
  utf8First_eq_char_iff.mpr ⟨ascii, rfl⟩

/-- No character goes on with an ASCII byte. -/
theorem next_of_ascii {state : Utf8Partial} (continues : state.Continues) {byte : UInt8}
    (ascii : byte < 0x80) : state.next byte = .invalid := by
  have small : byte.toNat < 0x80 := ascii
  have low := continues.low
  rw [Utf8Partial.next, if_neg (by omega)]

theorem rawEvents_ascii {byte : UInt8} (ascii : byte < 0x80) (after : List UInt8) :
    rawEvents (byte :: after) = .ofChar (Char.ofNat byte.toNat) :: rawEvents after := by
  rw [rawEvents, replacingFrom_of_step (replacingStep_of_char (utf8Step_of_ascii ascii))]
  rfl

/-- No ASCII byte is taken for the replacement character. -/
theorem ofChar_ascii_ne {byte : UInt8} (ascii : byte < 0x80) :
    KeyEvent.ofChar (Char.ofNat byte.toNat) ≠ .ofChar '\ufffd' := by
  have small : byte.toNat < 0x80 := ascii
  intro same
  have number : (Char.ofNat byte.toNat).toNat = 0xfffd :=
    congrArg Char.toNat (Option.some.inj (congrArg KeyEvent.ch same))
  rw [toNat_ofNat_of_isValidChar (.inl (by omega))] at number
  omega

theorem rawEvents_of_between {before : List UInt8} (after : List UInt8) {byte : UInt8}
    (ascii : byte < 0x80) (between : ¬ EndsInside before) :
    rawEvents (before ++ byte :: after) =
      rawEvents before ++ .ofChar (Char.ofNat byte.toNat) :: rawEvents after := by
  have start : (replacingFrom none before).1 = none := by
    by_contra inside
    exact between (endsInside_iff.mpr inside)
  rw [rawEvents_append start, rawEvents_ascii ascii]

theorem rawEvents_of_endsInside {before : List UInt8} (after : List UInt8) {byte : UInt8}
    (ascii : byte < 0x80) (inside : EndsInside before) :
    rawEvents (before ++ byte :: after) =
      rawEvents before ++ .ofChar '\ufffd' :: rawEvents after := by
  obtain ⟨state, there⟩ := Option.ne_none_iff_exists'.mp (endsInside_iff.mp inside)
  have continues := continues_of_replacingFrom (by nofun) before state there
  have lost : utf8Step (some state) byte = .invalid := next_of_ascii continues ascii
  rw [rawEvents, replacingFrom_append, there,
    replacingFrom_of_step (replacingStep_of_invalid lost), List.map_append]
  rfl

/-- Every stream falls into pieces in one way, and its events are what they come to. An ASCII byte is
the event with its code exactly where the stream in front of it ends between two characters; where it
ends inside one, the byte is lost, and one replacement character stands for it and for what had
begun. -/
theorem ascii_delivered_unless_inside (before after : List UInt8) {byte : UInt8} (ascii : byte < 0x80) :
    (∃ pieces rest, MadeOf before pieces rest ∧
      (∀ pieces' rest', MadeOf before pieces' rest' → pieces' = pieces ∧ rest' = rest) ∧
      rawEvents before = pieces.map (KeyEvent.ofChar ·.shown)) ∧
    (rawEvents (before ++ byte :: after) =
        rawEvents before ++ .ofChar (Char.ofNat byte.toNat) :: rawEvents after ↔
      ¬ EndsInside before) ∧
    (EndsInside before →
      rawEvents (before ++ byte :: after) =
        rawEvents before ++ .ofChar '\ufffd' :: rawEvents after) := by
  refine ⟨?_, ⟨fun delivered inside => ?_, rawEvents_of_between after ascii⟩,
    rawEvents_of_endsInside after ascii⟩
  · obtain ⟨pieces, rest, madeOf⟩ := MadeOf.exists_pieces before
    exact ⟨pieces, rest, madeOf, fun _ _ => madeOf.unique, rawEvents_of_madeOf madeOf⟩
  · rw [rawEvents_of_endsInside after ascii inside] at delivered
    have same := (List.cons.inj (List.append_cancel_left delivered)).1
    exact ofChar_ascii_ne ascii same.symm

/-- Behind two bytes of three, the interrupt character is lost; behind all three it is not. -/
theorem ascii_delivered_behind_euro :
    (0x03 : UInt8) < 0x80 ∧ EndsInside [0x61, 0xe2, 0x82] ∧ ¬ EndsInside [0x61, 0xe2, 0x82, 0xac] ∧
      rawEvents [0x61, 0xe2, 0x82, 0x03, 0x0d] = [.ofChar 'a', .ofChar '\ufffd', .ofChar '\r'] ∧
      rawEvents [0x61, 0xe2, 0x82, 0xac, 0x03, 0x0d] =
        [.ofChar 'a', .ofChar '€', .ofChar '\x03', .ofChar '\r'] := by
  have small : (0x03 : UInt8) < 0x80 := by decide
  have inside : EndsInside [0x61, 0xe2, 0x82] := endsInside_iff.mpr (by decide)
  have outside : ¬ EndsInside [0x61, 0xe2, 0x82, 0xac] := mt endsInside_iff.mp (by decide)
  refine ⟨small, inside, outside, ?_, ?_⟩
  · exact (ascii_delivered_unless_inside [0x61, 0xe2, 0x82] [0x0d] small).2.2 inside
  · exact (ascii_delivered_unless_inside [0x61, 0xe2, 0x82, 0xac] [0x0d] small).2.1.mpr outside

/-- The first byte of a character of two swallows the interrupt character. -/
theorem interrupt_swallowed :
    rawEvents [0xc3, 0x03] = [.ofChar '\ufffd'] ∧ .ofChar '\x03' ∉ rawEvents [0xc3, 0x03] := by
  decide

end LineConsole.Terminal
