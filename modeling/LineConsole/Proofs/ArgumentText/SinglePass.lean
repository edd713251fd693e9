import LineConsole.Proofs.ArgumentText.Expanding
import LineConsole.Proofs.ArgumentText.Plain

/-! # Variables are replaced in a single pass

A text mentions the letters and digits that stand behind a dollar sign which no backslash takes along,
as many of them as there are. What is put in the place of such a name comes from the environment as it
is: the parts of the text around it are replaced by themselves, and the value is not read again. Only
the names that a text mentions matter.
-/

namespace LineConsole.ArgumentText

open Text (EndsPaired isAlphanumeric)

/-- The names behind the dollar signs of a text. -/
inductive Mentions (name : List Char) : List Char → Prop where
  | intro {front rest : List Char} (free : EndsPaired front) (some : name ≠ [])
      (letters : ∀ c ∈ name, isAlphanumeric c = true)
      (stops : ∀ c ∈ rest.head?, isAlphanumeric c = false) :
      Mentions name (front ++ '$' :: (name ++ rest))

variable {env env' : Environment} {name cs rest : List Char}

/-- The name behind a dollar sign goes on as long as there are letters and digits. -/
theorem mentions_takeWhile {front : List Char} (free : EndsPaired front)
    (some : rest.takeWhile isAlphanumeric ≠ []) :
    Mentions (rest.takeWhile isAlphanumeric) (front ++ '$' :: rest) := by
  have whole := List.takeWhile_append_dropWhile (p := isAlphanumeric) (l := rest)
  have mentions : Mentions (rest.takeWhile isAlphanumeric)
      (front ++ '$' :: (rest.takeWhile isAlphanumeric ++ rest.dropWhile isAlphanumeric)) :=
    .intro free some (fun c there => List.mem_takeWhile_imp there) Text.head_dropWhile
  rwa [whole] at mentions

theorem mentions_iff : Mentions name cs ↔ name ≠ [] ∧ ∃ n < cs.length, EndsPaired (cs.take n) ∧
    cs[n]? = some '$' ∧ (cs.drop (n + 1)).takeWhile isAlphanumeric = name := by
  constructor
  · rintro @⟨front, rest, free, some, letters, stops⟩
    have behind : (front ++ '$' :: (name ++ rest)).drop (front.length + 1) = name ++ rest := by simp
    refine ⟨some, front.length, by simp, ?_, by simp, ?_⟩
    · rwa [List.take_left]
    · rw [behind, (Text.takeWhile_append_of_stops letters stops).1]
  · rintro ⟨some, n, within, free, sign, rfl⟩
    have whole : cs.take n ++ '$' :: cs.drop (n + 1) = cs := by
      obtain ⟨_, there⟩ := List.getElem?_eq_some_iff.mp sign
      rw [← there, List.getElem_cons_drop, List.take_append_drop]
    have mentions := mentions_takeWhile free some
    rwa [whole] at mentions

instance (name cs : List Char) : Decidable (Mentions name cs) := decidable_of_iff _ mentions_iff.symm

theorem Mentions.pair (mentions : Mentions name cs) (c : Char) :
    Mentions name ('\\' :: c :: cs) := by
  obtain ⟨free, some, letters, stops⟩ := mentions
  exact .intro (Text.endsPaired_pair.mpr free) some letters stops

theorem Mentions.behind {word : List Char} (mentions : Mentions name cs)
    (plain : ∀ c ∈ word, c ≠ '\\') : Mentions name (word ++ cs) := by
  obtain ⟨free, some, letters, stops⟩ := mentions
  rw [← List.append_assoc]
  exact .intro ((Text.endsPaired_append plain).mpr free) some letters stops

theorem expansion_congr
    (agree : name ≠ [] → env.get? (String.ofList name) = env'.get? (String.ofList name)) :
    expansion env name = expansion env' name := by
  unfold expansion
  by_cases none : name = []
  · rw [if_pos none, if_pos none]
  · rw [if_neg none, if_neg none, agree none]

/-- By induction along the pass: each name that is looked up is one that the text mentions. -/
theorem expand_congr
    (agree : ∀ name, Mentions name cs →
      env.get? (String.ofList name) = env'.get? (String.ofList name)) :
    expand env cs = expand env' cs := by
  fun_induction expand env cs with
  | case1 => rw [expand]
  | case2 => rw [expand]
  | case3 cs ih => rw [expand, ih fun name mentions => agree name (mentions.pair '$')]
  | case4 c cs other ih =>
    rw [expand, ih fun name mentions => agree name (mentions.pair c)]
    exact other
  | case5 cs ih =>
    have behind {name : List Char} (mentions : Mentions name (cs.dropWhile isAlphanumeric)) :
        Mentions name ('$' :: cs) := by
      have plain : ∀ c ∈ '$' :: cs.takeWhile isAlphanumeric, c ≠ '\\' :=
        List.forall_mem_cons.mpr ⟨by decide, ne_of_mem_takeWhile⟩
      simpa using mentions.behind plain
    rw [expand, ih fun name mentions => agree name (behind mentions),
      expansion_congr fun some => agree _ (mentions_takeWhile Text.endsPaired_nil some)]
  | case6 c cs lone _ pair sign ih =>
    have plain : c ≠ '\\' := Text.ne_slash lone pair
    have behind {name : List Char} (mentions : Mentions name cs) : Mentions name (c :: cs) :=
      mentions.behind (List.forall_mem_singleton.mpr plain)
    rw [expand_cons plain sign, ih fun name mentions => agree name (behind mentions)]

/-- In front of what ends it a name is read to its end. -/
theorem expand_name (letters : ∀ c ∈ name, isAlphanumeric c = true)
    (stops : ∀ c ∈ rest.head?, isAlphanumeric c = false) :
    expand env ('$' :: (name ++ rest)) = expansion env name ++ expand env rest := by
  obtain ⟨run, left⟩ := Text.takeWhile_append_of_stops letters stops
  rw [expand, run, left]

/-- The value of a variable stands in the place of its name, between what the two sides come to. What
a text comes to hangs on the variables that it mentions, and without a dollar sign on none. -/
theorem substitute_single_pass (env : Environment) :
    (∀ name value front rest : String, isIdentifier name = true → env.get? name = some value →
      EndsPaired front.toList → (∀ c ∈ rest.toList.head?, isAlphanumeric c = false) →
      substitute env (front ++ "$" ++ name ++ rest) =
        substitute env front ++ value ++ substitute env rest) ∧
    (∀ (env' : Environment) (text : String),
      (∀ name, Mentions name text.toList →
        env.get? (String.ofList name) = env'.get? (String.ofList name)) →
      substitute env text = substitute env' text) ∧
    ∀ text : String, '$' ∉ text.toList → substitute env text = text := by
  refine ⟨fun name value front rest identifier defined free stops => ?_, fun env' text agree => ?_,
    fun text none => ?_⟩
  · obtain ⟨some, letters⟩ : name.toList ≠ [] ∧ ∀ c ∈ name.toList, isAlphanumeric c = true := by
      simpa [isIdentifier] using identifier
    have value' : expansion env name.toList = value.toList := by
      rw [expansion, if_neg some, String.ofList_toList, defined]
    have sign : "$".toList = ['$'] := rfl
    simp only [substitute, String.toList_append, sign, List.append_assoc, List.cons_append,
      List.nil_append]
    rw [expand_append_cons (by decide) (.inl free), expand_name letters stops, value',
      String.ofList_append, String.ofList_append, String.ofList_toList, String.append_assoc]
  · rw [substitute, substitute, expand_congr agree]
  · rw [substitute, expand_of_not_mem none, String.ofList_toList]

/-- A value that looks like a variable and ends in a backslash is not read again, and a dollar sign
behind a backslash mentions nothing. -/
theorem substitute_signed_value :
    let env : Environment := ⟨[("x", "$y\\"), ("y", "7")]⟩
    isIdentifier "x" = true ∧ env.get? "x" = some "$y\\" ∧ EndsPaired "\\$y \\\\".toList ∧
      (∀ c ∈ "-$y".toList.head?, isAlphanumeric c = false) ∧
      substitute env ("\\$y \\\\" ++ "$" ++ "x" ++ "-$y") =
        substitute env "\\$y \\\\" ++ "$y\\" ++ substitute env "-$y" ∧
      ¬ Mentions ['y'] "\\$y $x".toList ∧
      substitute env "\\$y $x" = substitute (env.set "y" "8") "\\$y $x" ∧
      '$' ∉ "x\\ y".toList ∧ substitute env "x\\ y" = "x\\ y" := by
  intro env
  obtain ⟨between, alike, same⟩ := substitute_single_pass env
  have identifier : isIdentifier "x" = true := by decide
  have defined : env.get? "x" = some "$y\\" := by decide
  have free : EndsPaired "\\$y \\\\".toList := by decide
  have stops : ∀ c ∈ "-$y".toList.head?, isAlphanumeric c = false := by
    rintro _ ⟨⟩
    decide
  have silent : ¬ Mentions ['y'] "\\$y $x".toList := by decide
  have none : '$' ∉ "x\\ y".toList := by decide
  refine ⟨identifier, defined, free, stops, between _ _ _ _ identifier defined free stops, silent,
    alike _ _ fun name mentions => ?_, none, same _ none⟩
  have other : String.ofList name ≠ "y" := by
    intro y
    obtain rfl : name = ['y'] := by simpa using congrArg String.toList y
    exact silent mentions
  rw [Environment.get?_set, if_neg other]

end LineConsole.ArgumentText
