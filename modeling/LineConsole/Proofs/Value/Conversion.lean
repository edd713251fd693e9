import LineConsole.Proofs.Decimal.Numeral
import LineConsole.Value.Converter

/-! # Values and their texts

A token has a value of its own type at a type that is built in. Each of these values but a number with
a fraction is found again from its text, so that to convert the text of a value that a token has gives
that value, although blanks, case, signs and leading zeros of the token are not in it. A token is an
integer just where it writes one that sixty-four bits hold.
-/

namespace LineConsole

/-- The values of the types that are built in. -/
inductive Value.OfType : Value → ParamType → Prop where
  | str (s : String) : OfType (.str s) .string
  | int (i : Int64) : OfType (.int i) .int
  | float (x : Decimal.Binary64) : OfType (.float x) .float
  | bool (b : Bool) : OfType (.bool b) .bool
  | char (c : Char) : OfType (.char c) .char
  | path (p : String) : OfType (.path p) .path

theorem Value.OfType.isSupplied {value : Value} {type : ParamType} (typed : value.OfType type) :
    value.isSupplied = true := by
  cases typed <;> rfl

def ParamType.IsBuiltin : ParamType → Prop
  | .custom _ => False
  | _ => True

/-- A token has a value of its own type at a type that is built in. -/
theorem Converters.ofType_of_value? {table : Converters} {raw : String} {type : ParamType}
    {value : Value} (builtin : type.IsBuiltin) (converted : table.value? raw type = some value) :
    value.OfType type := by
  cases type with
  | string =>
    cases converted
    exact .str raw
  | int =>
    obtain ⟨i, -, rfl⟩ := Option.map_eq_some_iff.mp converted
    exact .int i
  | float =>
    obtain ⟨x, -, rfl⟩ := Option.map_eq_some_iff.mp converted
    exact .float x
  | bool =>
    obtain ⟨b, -, rfl⟩ := Option.map_eq_some_iff.mp converted
    exact .bool b
  | char =>
    rw [value?] at converted
    split at converted
    · cases converted
      exact .char _
    · cases converted
  | path =>
    rw [value?] at converted
    split at converted
    · cases converted
    · cases converted
      exact .path raw
  | custom name => exact builtin.elim

namespace Converters

variable {table : Converters} {raw : String} {type : ParamType} {value : Value}

theorem convert_eq_ok_iff : table.convert raw type = .ok value ↔ table.value? raw type = some value := by
  unfold convert
  cases table.value? raw type with
  | none => exact iff_of_false nofun nofun
  | some v => rw [Except.ok.injEq, Option.some_inj]

/-! ## Integers -/

theorem value?_int_eq_some_iff :
    table.value? raw .int = some value ↔
      ∃ n : Int64, value = .int n ∧ Decimal.Writes raw n.toInt := by
  simp only [value?, Option.map_eq_some_iff, Option.bind_eq_some_iff,
    Decimal.readInt?_trim_eq_some_iff, Decimal.int64?_eq_some_iff]
  constructor
  · rintro ⟨n, ⟨_, written, rfl⟩, rfl⟩
    exact ⟨n, rfl, written⟩
  · rintro ⟨n, rfl, written⟩
    exact ⟨n, ⟨n.toInt, written, rfl⟩, rfl⟩

theorem exists_value?_int_iff :
    (∃ value, table.value? raw .int = some value) ↔
      ∃ i, Decimal.Writes raw i ∧ -2 ^ 63 ≤ i ∧ i ≤ 2 ^ 63 - 1 := by
  constructor
  · rintro ⟨value, converted⟩
    obtain ⟨n, -, written⟩ := value?_int_eq_some_iff.mp converted
    exact ⟨n.toInt, written, Decimal.exists_int64_iff.mp ⟨n, rfl⟩⟩
  · rintro ⟨i, written, bounds⟩
    obtain ⟨n, rfl⟩ := Decimal.exists_int64_iff.mpr bounds
    exact ⟨.int n, value?_int_eq_some_iff.mpr ⟨n, rfl, written⟩⟩

/-! ## Texts of values -/

/-- An integer is the value of its text. -/
theorem convert_text_int (table : Converters) (i : Int64) :
    table.convert (Value.int i).text .int = .ok (.int i) :=
  convert_eq_ok_iff.mpr (value?_int_eq_some_iff.mpr ⟨i, rfl, Decimal.writes_intText i.toInt⟩)

/-- No path is empty. -/
theorem ne_emptyPath_of_value? (builtin : type.IsBuiltin)
    (converted : table.value? raw type = some value) : value ≠ .path "" := by
  rintro rfl
  cases ofType_of_value? builtin converted
  obtain ⟨some, same⟩ := Option.ite_none_left_eq_some.mp converted
  cases same
  exact some rfl

/-- A value that is no number with a fraction and no empty path is the value of its text. -/
theorem convert_text (typed : value.OfType type) (whole : type ≠ .float) (full : value ≠ .path "") :
    table.convert value.text type = .ok value := by
  cases typed with
  | str s => rfl
  | int i => exact convert_text_int table i
  | float x => exact absurd rfl whole
  | bool b => cases b <;> rfl
  | char c =>
    have one : (Value.char c).text.toList = [c] := String.toList_singleton c
    rw [convert_eq_ok_iff, value?, one]
  | path p =>
    have some : p ≠ "" := fun empty => full (congrArg Value.path empty)
    rw [convert_eq_ok_iff, Value.text, value?, if_neg (mt String.isEmpty_iff.mp some)]

/-! ## Conversion -/

/-- To convert the text of a value that a token has gives that value, at every type that is built in
but that of numbers with a fraction. Every integer of sixty-four bits is the value of its text. A token
is an integer if and only if it writes one that fits into them, and then it is the one that it
writes. -/
theorem exact_and_stable (table : Converters) :
    (∀ raw type value, type ∈ [ParamType.string, .int, .bool, .char, .path] →
      table.convert raw type = .ok value → table.convert value.text type = .ok value) ∧
    (∀ i : Int64, table.convert (Value.int i).text .int = .ok (.int i)) ∧
    ∀ raw,
      ((∃ value, table.convert raw .int = .ok value) ↔
        ∃ i, Decimal.Writes raw i ∧ -2 ^ 63 ≤ i ∧ i ≤ 2 ^ 63 - 1) ∧
      ∀ value, table.convert raw .int = .ok value ↔
        ∃ n : Int64, value = .int n ∧ Decimal.Writes raw n.toInt := by
  refine ⟨fun raw type value listed converted => ?_, convert_text_int table, fun raw => ⟨?_, ?_⟩⟩
  · have kind : type.IsBuiltin ∧ type ≠ .float := by
      simp only [List.mem_cons, List.not_mem_nil, or_false] at listed
      rcases listed with rfl | rfl | rfl | rfl | rfl <;> exact ⟨trivial, nofun⟩
    rw [convert_eq_ok_iff] at converted
    exact convert_text (ofType_of_value? kind.1 converted) kind.2
      (ne_emptyPath_of_value? kind.1 converted)
  · simp only [convert_eq_ok_iff]
    exact exists_value?_int_iff
  · intro value
    rw [convert_eq_ok_iff]
    exact value?_int_eq_some_iff

/-- The lowest integer, with a zero in front and between blanks that are not ASCII and that are. -/
theorem lowest_read_back :
    convert [] "\u3000-09223372036854775808\n" .int = .ok (.int Int64.minValue) ∧
      convert [] "-9223372036854775808" .int = .ok (.int Int64.minValue) := by
  have converted : convert [] "\u3000-09223372036854775808\n" .int = .ok (.int Int64.minValue) := by
    decide
  exact ⟨converted, (exact_and_stable []).1 _ .int _ (by decide) converted⟩

end Converters

end LineConsole
