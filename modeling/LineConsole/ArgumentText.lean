import LineConsole.Environment
import LineConsole.Fault
import LineConsole.Text.Blank

/-! # Argument texts

The text behind a command's name is read twice. First every `$name` of a variable is replaced by its
value, in one pass over the text as written. Then the text falls into arguments at its blanks; quotes
and backslashes keep characters together, and a `#` begins a comment.
-/

namespace LineConsole.ArgumentText

/-- The text that stands for `$name`. -/
def expansion (env : Environment) (name : List Char) : List Char :=
  match if name = [] then none else env.get? (String.ofList name) with
  | some value => value.toList
  | none => '$' :: name

/-- Replaces variables from left to right. A backslash takes the next character with it; only in
front of a `$` is it dropped. -/
def expand (env : Environment) : List Char → List Char
  | [] => []
  | ['\\'] => ['\\']
  | '\\' :: '$' :: rest => '$' :: expand env rest
  | '\\' :: c :: rest => '\\' :: c :: expand env rest
  | '$' :: rest =>
    expansion env (rest.takeWhile Text.isAlphanumeric) ++
      expand env (rest.dropWhile Text.isAlphanumeric)
  | c :: rest => c :: expand env rest
termination_by cs => cs.length
decreasing_by
  all_goals simp only [List.length_cons]
  all_goals first
    | omega
    | exact Nat.lt_succ_of_le (List.dropWhile_sublist _).length_le

def substitute (env : Environment) (text : String) : String :=
  String.ofList (expand env text.toList)

/-- The argument up to a closing quote, without its backslashes, and what follows the quote. -/
def quotedArgument (quote : Char) : List Char → Option (List Char × List Char)
  | [] => none
  | ['\\'] => none
  | '\\' :: c :: rest => (quotedArgument quote rest).map fun (arg, left) => (c :: arg, left)
  | c :: rest =>
    if c = quote then some ([], rest)
    else (quotedArgument quote rest).map fun (arg, left) => (c :: arg, left)

/-- A character that ends an argument without quotes. -/
def isStop (c : Char) : Bool := Text.isBlank c || c == '#'

/-- The argument up to a blank or a comment, without its backslashes, and what follows it. -/
def bareArgument : List Char → List Char × List Char
  | [] => ([], [])
  | ['\\'] => (['\\'], [])
  | '\\' :: c :: rest =>
    let (arg, left) := bareArgument rest
    (c :: arg, left)
  | c :: rest =>
    if isStop c then ([], c :: rest)
    else
      let (arg, left) := bareArgument rest
      (c :: arg, left)

theorem quotedArgument_length {quote : Char} {cs arg left : List Char}
    (found : quotedArgument quote cs = some (arg, left)) : left.length < cs.length := by
  fun_induction quotedArgument quote cs generalizing arg with
  | case1 => simp at found
  | case2 => simp at found
  | case3 c rest ih =>
    obtain ⟨⟨inner, last⟩, there, same⟩ := Option.map_eq_some_iff.mp found
    obtain rfl := (Prod.mk.inj same).2
    have := ih there
    simp only [List.length_cons]; omega
  | case4 => simp_all
  | case5 c rest _ _ _ ih =>
    obtain ⟨⟨inner, last⟩, there, same⟩ := Option.map_eq_some_iff.mp found
    obtain rfl := (Prod.mk.inj same).2
    have := ih there
    simp only [List.length_cons]; omega

theorem bareArgument_length (cs : List Char) : (bareArgument cs).2.length ≤ cs.length := by
  fun_induction bareArgument cs <;> simp_all <;> omega

/-- Something is taken unless the text is empty or begins with what ends an argument. -/
theorem bareArgument_length_lt {cs : List Char} (inside : ∃ c, cs.head? = some c ∧ !isStop c) :
    (bareArgument cs).2.length < cs.length := by
  fun_cases bareArgument cs with
  | case1 => simp at inside
  | case2 => simp
  | case3 c rest arg left same =>
    have := bareArgument_length rest
    simp only [same] at this
    simp only [List.length_cons]
    omega
  | case4 c rest _ _ stops => simp_all
  | case5 c rest _ _ _ arg left same =>
    have := bareArgument_length rest
    simp only [same] at this
    simp only [List.length_cons]
    omega

def isQuote (c : Char) : Bool := c == '"' || c == '\''

theorem ne_backslash_of_isQuote {c : Char} (quote : isQuote c = true) : c ≠ '\\' := by
  rintro rfl
  exact absurd quote (by decide)

theorem quotedArgument_of_quote {quote : Char} (opens : isQuote quote = true) (rest : List Char) :
    quotedArgument quote (quote :: rest) = some ([], rest) := by
  rw [quotedArgument, if_pos rfl]
  · exact fun same _ => ne_backslash_of_isQuote opens same
  · exact fun _ _ same _ => ne_backslash_of_isQuote opens same

section Bare

variable {c : Char}

theorem bareArgument_eq_ite (slash : c ≠ '\\') (rest : List Char) :
    bareArgument (c :: rest) =
      if isStop c then ([], c :: rest)
      else (c :: (bareArgument rest).1, (bareArgument rest).2) := by
  conv => lhs; unfold bareArgument
  split
  · rename_i none
    cases none
  · rename_i same
    exact absurd (List.cons.inj same).1 slash
  · rename_i same
    exact absurd (List.cons.inj same).1 slash
  · rename_i same
    obtain ⟨rfl, rfl⟩ := List.cons.inj same
    rfl

theorem bareArgument_cons (slash : c ≠ '\\') (inside : isStop c = false) (rest : List Char) :
    bareArgument (c :: rest) = (c :: (bareArgument rest).1, (bareArgument rest).2) := by
  rw [bareArgument_eq_ite slash, if_neg (Bool.eq_false_iff.mp inside)]

theorem ne_backslash_of_isStop (stops : isStop c = true) : c ≠ '\\' := by
  rintro rfl
  exact absurd stops (by decide)

theorem bareArgument_of_isStop (stops : isStop c = true) (rest : List Char) :
    bareArgument (c :: rest) = ([], c :: rest) := by
  rw [bareArgument_eq_ite (ne_backslash_of_isStop stops), if_pos stops]

end Bare

/-- The arguments of a text. An open quote is the only thing that can be wrong. -/
def split (cs : List Char) : Except Fault (List (List Char)) :=
  match _start : cs.dropWhile Text.isBlank with
  | [] => .ok []
  | c :: rest =>
    if c = '#' then .ok []
    else if isQuote c then
      match _closed : quotedArgument c rest with
      | none => .error (.malformed "missing closing delimiter")
      | some (arg, left) => (split left).map (arg :: ·)
    else
      (split (bareArgument (c :: rest)).2).map ((bareArgument (c :: rest)).1 :: ·)
termination_by cs.length
decreasing_by
  · have shorter := quotedArgument_length _closed
    have := (List.dropWhile_sublist Text.isBlank (l := cs)).length_le
    rw [_start, List.length_cons] at this
    omega
  · have blank : Text.isBlank c = false := by
      have := List.head?_dropWhile_not Text.isBlank cs
      simpa [_start] using this
    have inside : ∃ d, (c :: rest).head? = some d ∧ !isStop d := ⟨c, rfl, by simp_all [isStop]⟩
    have shorter := bareArgument_length_lt inside
    have := (List.dropWhile_sublist Text.isBlank (l := cs)).length_le
    rw [_start] at this
    omega

section Split

variable {cs rest : List Char} {c : Char}

theorem split_of_blank (blank : cs.dropWhile Text.isBlank = []) : split cs = .ok [] := by
  rw [split]
  split
  · rfl
  · rename_i some
    cases blank.symm.trans some

theorem split_of_comment (start : cs.dropWhile Text.isBlank = '#' :: rest) : split cs = .ok [] := by
  rw [split]
  split
  · rfl
  · rename_i same
    obtain ⟨rfl, rfl⟩ := List.cons.inj (start.symm.trans same)
    rfl

theorem split_of_quote (start : cs.dropWhile Text.isBlank = c :: rest) (quote : isQuote c = true) :
    split cs = match quotedArgument c rest with
      | none => .error (.malformed "missing closing delimiter")
      | some (arg, left) => (split left).map (arg :: ·) := by
  have mark : c ≠ '#' := by
    rintro rfl
    exact absurd quote (by decide)
  rw [split]
  split
  · rename_i none
    cases start.symm.trans none
  · rename_i same
    obtain ⟨rfl, rfl⟩ := List.cons.inj (start.symm.trans same)
    rw [if_neg mark, if_pos quote]
    split <;> rename_i found <;> rw [found]

theorem split_of_bare (start : cs.dropWhile Text.isBlank = c :: rest) (mark : c ≠ '#')
    (unquoted : isQuote c = false) :
    split cs = (split (bareArgument (c :: rest)).2).map ((bareArgument (c :: rest)).1 :: ·) := by
  rw [split]
  split
  · rename_i none
    cases start.symm.trans none
  · rename_i same
    obtain ⟨rfl, rfl⟩ := List.cons.inj (start.symm.trans same)
    rw [if_neg mark, if_neg (Bool.eq_false_iff.mp unquoted)]

end Split

def tokens (text : String) : Except Fault (List String) :=
  (split text.toList).map (·.map String.ofList)

end LineConsole.ArgumentText
