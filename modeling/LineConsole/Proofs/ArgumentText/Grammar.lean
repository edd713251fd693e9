import LineConsole.ArgumentText
import Mathlib.Data.Set.Subsingleton

/-! # The grammar of argument texts

An argument text is laid out as items between gaps of blanks, perhaps with a comment at its end. An
item stands in quotes, or it is bare and then goes on up to a blank, a comment or the end. Every text
has at most one layout. The texts that fall into arguments are those that have a layout, and the
arguments are its items without quotes and backslashes; in every other text a quote is left open.
-/

namespace LineConsole.ArgumentText

/-! ## Letters -/

/-- A character of an argument as it is written: by itself if it neither is a backslash nor ends the
argument, or behind a backslash. -/
inductive Letter (ends : Char → Bool) where
  | plain (c : Char) (slash : c ≠ '\\') (inside : ends c = false)
  | escaped (c : Char)

namespace Letter

variable {ends : Char → Bool}

def char : Letter ends → Char
  | .plain c _ _ => c
  | .escaped c => c

def written : Letter ends → List Char
  | .plain c _ _ => [c]
  | .escaped c => ['\\', c]

theorem written_append_inj {l l' : Letter ends} {cs cs' : List Char}
    (same : l.written ++ cs = l'.written ++ cs') : l = l' ∧ cs = cs' := by
  cases l with
  | plain c slash inside =>
    cases l' with
    | plain c' _ _ =>
      obtain ⟨rfl, rfl⟩ := List.cons.inj same
      exact ⟨rfl, rfl⟩
    | escaped c' => exact absurd (List.cons.inj same).1 slash
  | escaped c =>
    cases l' with
    | plain c' slash' _ => exact absurd (List.cons.inj same).1.symm slash'
    | escaped c' =>
      obtain ⟨rfl, rfl⟩ := List.cons.inj (List.cons.inj same).2
      exact ⟨rfl, rfl⟩

end Letter

/-- Letters one after the other. -/
abbrev Letters (ends : Char → Bool) := List (Letter ends)

namespace Letters

variable {ends : Char → Bool}

def chars (letters : Letters ends) : List Char := letters.map Letter.char

def text (letters : Letters ends) : List Char := letters.flatMap Letter.written

/-- A text that no letter begins: nothing, a backslash alone, or what ends the argument in front. -/
inductive Rest (ends : Char → Bool) : List Char → Prop where
  | nothing : Rest ends []
  | slash : Rest ends ['\\']
  | stop {c : Char} {cs : List Char} (slash : c ≠ '\\') (stops : ends c = true) : Rest ends (c :: cs)

theorem not_rest_written_append (l : Letter ends) (cs : List Char) :
    ¬ Rest ends (l.written ++ cs) := by
  intro behind
  cases l with
  | plain c slash inside =>
    cases behind with
    | slash => exact slash rfl
    | stop _ stops => exact absurd stops (Bool.eq_false_iff.mp inside)
  | escaped c =>
    cases behind with
    | stop slash _ => exact slash rfl

/-- Every text begins with letters, up to where no letter begins. -/
theorem exists_text_append (ends : Char → Bool) (cs : List Char) :
    ∃ (letters : Letters ends) (rest : List Char), text letters ++ rest = cs ∧ Rest ends rest := by
  match cs with
  | [] => exact ⟨[], [], rfl, .nothing⟩
  | c :: cs =>
    by_cases slash : c = '\\'
    · subst slash
      match cs with
      | [] => exact ⟨[], ['\\'], rfl, .slash⟩
      | c :: cs =>
        obtain ⟨letters, rest, same, behind⟩ := exists_text_append ends cs
        exact ⟨.escaped c :: letters, rest, congrArg ('\\' :: c :: ·) same, behind⟩
    · cases stops : ends c with
      | true => exact ⟨[], c :: cs, rfl, .stop slash stops⟩
      | false =>
        obtain ⟨letters, rest, same, behind⟩ := exists_text_append ends cs
        exact ⟨.plain c slash stops :: letters, rest, congrArg (c :: ·) same, behind⟩

/-- There is one way to do so. -/
theorem text_append_inj {letters letters' : Letters ends} {rest rest' : List Char}
    (behind : Rest ends rest) (behind' : Rest ends rest')
    (same : text letters ++ rest = text letters' ++ rest') : letters = letters' ∧ rest = rest' := by
  induction letters generalizing letters' with
  | nil =>
    cases letters' with
    | nil => exact ⟨rfl, same⟩
    | cons l' letters' =>
      rw [text, List.flatMap_nil, List.nil_append, text, List.flatMap_cons, List.append_assoc] at same
      exact absurd (same ▸ behind) (not_rest_written_append l' _)
  | cons l letters ih =>
    cases letters' with
    | nil =>
      rw [text, List.flatMap_cons, List.append_assoc, text, List.flatMap_nil, List.nil_append] at same
      exact absurd (same ▸ behind') (not_rest_written_append l _)
    | cons l' letters' =>
      simp only [text, List.flatMap_cons, List.append_assoc] at same
      obtain ⟨rfl, others⟩ := Letter.written_append_inj same
      obtain ⟨rfl, rfl⟩ := ih others
      exact ⟨rfl, rfl⟩

/-! Both kinds of argument read letters one by one. -/

theorem quotedArgument_text_append {quote : Char} (letters : Letters (· == quote))
    (rest : List Char) :
    quotedArgument quote (text letters ++ rest) =
      (quotedArgument quote rest).map fun (arg, left) => (chars letters ++ arg, left) := by
  induction letters with
  | nil => exact Option.map_id'.symm
  | cons l letters ih =>
    rw [text, List.flatMap_cons, List.append_assoc, ← text]
    cases l with
    | plain c slash inside =>
      have other : ¬ c = quote := beq_eq_false_iff_ne.mp inside
      rw [Letter.written, List.singleton_append, quotedArgument, if_neg other, ih, Option.map_map]
      · rfl
      · exact fun same _ => slash same
      · exact fun _ _ same _ => slash same
    | escaped c =>
      simp only [Letter.written, List.cons_append, List.nil_append, quotedArgument, ih, Option.map_map]
      rfl

theorem bareArgument_text_append (letters : Letters isStop) (rest : List Char) :
    bareArgument (text letters ++ rest) =
      (chars letters ++ (bareArgument rest).1, (bareArgument rest).2) := by
  induction letters with
  | nil => rfl
  | cons l letters ih =>
    rw [text, List.flatMap_cons, List.append_assoc, ← text]
    cases l with
    | plain c slash inside =>
      rw [Letter.written, List.singleton_append, bareArgument_cons slash inside, ih]
      rfl
    | escaped c =>
      have read : bareArgument ('\\' :: c :: (text letters ++ rest)) =
          (c :: (bareArgument (text letters ++ rest)).1, (bareArgument (text letters ++ rest)).2) := rfl
      rw [Letter.written, List.cons_append, List.singleton_append, read, ih]
      rfl

theorem exists_of_quotedArgument {quote : Char} {cs arg left : List Char}
    (opens : isQuote quote = true) (closed : quotedArgument quote cs = some (arg, left)) :
    ∃ letters : Letters (· == quote), letters.text ++ quote :: left = cs := by
  obtain ⟨letters, rest, rfl, behind⟩ := exists_text_append (· == quote) cs
  rw [quotedArgument_text_append] at closed
  cases behind with
  | nothing => cases closed
  | slash => cases closed
  | stop slash stops =>
    obtain rfl := beq_iff_eq.mp stops
    rw [quotedArgument_of_quote opens] at closed
    cases closed
    exact ⟨letters, rfl⟩

end Letters

/-! ## Items -/

/-- A backslash that has nothing to escape, or nothing. -/
def lone (slash : Bool) : List Char := if slash then ['\\'] else []

/-- Where a bare item ends: in front of a blank, a comment or nothing, and with a backslash of its
own only in front of nothing. -/
def EndsAt (slash : Bool) (rest : List Char) : Prop :=
  if slash then rest = [] else ∀ c ∈ rest.head?, isStop c = true

namespace EndsAt

variable {slash slash' : Bool} {rest rest' : List Char}

theorem lone_append_rest (ends : EndsAt slash rest) : Letters.Rest isStop (lone slash ++ rest) := by
  cases slash with
  | true =>
    obtain rfl : rest = [] := ends
    exact .slash
  | false =>
    cases rest with
    | nil => exact .nothing
    | cons c rest => exact .stop (ne_backslash_of_isStop (ends c rfl)) (ends c rfl)

theorem lone_append_inj (ends : EndsAt slash rest) (ends' : EndsAt slash' rest')
    (same : lone slash ++ rest = lone slash' ++ rest') : slash = slash' ∧ rest = rest' := by
  have other {rest : List Char} (ends : EndsAt false rest) : rest ≠ ['\\'] := by
    rintro rfl
    exact absurd (ends '\\' rfl) (by decide)
  cases slash with
  | true =>
    obtain rfl : rest = [] := ends
    cases slash' with
    | true => exact ⟨rfl, (List.cons.inj same).2⟩
    | false => exact absurd same.symm (other ends')
  | false =>
    cases slash' with
    | true =>
      obtain rfl : rest' = [] := ends'
      exact absurd same (other ends)
    | false => exact ⟨rfl, same⟩

theorem bareArgument_lone_append (ends : EndsAt slash rest) :
    bareArgument (lone slash ++ rest) = (lone slash, rest) := by
  cases slash with
  | true =>
    obtain rfl : rest = [] := ends
    rfl
  | false =>
    cases rest with
    | nil => rfl
    | cons c rest => exact bareArgument_of_isStop (ends c rfl) rest

end EndsAt

theorem Letters.exists_of_bareArgument (cs : List Char) :
    ∃ (letters : Letters isStop) (slash : Bool),
      letters.text ++ lone slash ++ (bareArgument cs).2 = cs ∧
        EndsAt slash (bareArgument cs).2 := by
  obtain ⟨letters, rest, rfl, behind⟩ := exists_text_append isStop cs
  simp only [bareArgument_text_append, List.append_assoc]
  cases behind with
  | nothing => exact ⟨letters, false, rfl, by rintro _ ⟨⟩⟩
  | slash => exact ⟨letters, true, rfl, rfl⟩
  | stop slash stops =>
    rw [bareArgument_of_isStop stops]
    refine ⟨letters, false, rfl, ?_⟩
    rintro _ ⟨⟩
    exact stops

/-- An argument as it is written: letters in quotes, or letters alone. -/
inductive Item where
  | quoted (quote : Char) (opens : isQuote quote = true) (letters : Letters (· == quote))
  /-- It may have a backslash at its end that has nothing to escape. -/
  | bare (letters : Letters isStop) (slash : Bool)
      (begins : ∃ c, (letters.text ++ lone slash).head? = some c ∧ isQuote c = false)

theorem isStop_of_isQuote {c : Char} (quote : isQuote c = true) : isStop c = false := by
  simp only [isQuote, Bool.or_eq_true, beq_iff_eq] at quote
  rcases quote with rfl | rfl <;> decide

namespace Item

def text : Item → List Char
  | .quoted quote _ letters => quote :: letters.text ++ [quote]
  | .bare letters slash _ => letters.text ++ lone slash

/-- The characters without quotes and without the backslashes that escape them. -/
def argument : Item → List Char
  | .quoted _ _ letters => letters.chars
  | .bare letters slash _ => letters.chars ++ lone slash

/-- Whether the item can stand in front of a text. -/
def Before : Item → List Char → Prop
  | .quoted .., _ => True
  | .bare _ slash _, rest => EndsAt slash rest

theorem exists_text_eq_cons (item : Item) : ∃ c cs, item.text = c :: cs ∧ isStop c = false := by
  cases item with
  | quoted quote opens letters => exact ⟨quote, _, rfl, isStop_of_isQuote opens⟩
  | bare letters slash begins =>
    cases letters with
    | nil =>
      cases slash with
      | false =>
        obtain ⟨c, none, -⟩ := begins
        cases none
      | true => exact ⟨'\\', [], rfl, by decide⟩
    | cons l letters =>
      cases l with
      | plain c _ inside => exact ⟨c, _, rfl, inside⟩
      | escaped c => exact ⟨'\\', _, rfl, by decide⟩

/-- An item can be told from the text that it stands in front of. -/
theorem text_append_inj {item item' : Item} {rest rest' : List Char} (before : item.Before rest)
    (before' : item'.Before rest') (same : item.text ++ rest = item'.text ++ rest') :
    item = item' ∧ rest = rest' := by
  have first := congrArg List.head? same
  cases item with
  | quoted quote opens letters =>
    cases item' with
    | quoted quote' opens' letters' =>
      simp only [text, List.cons_append, List.append_assoc, List.nil_append, List.cons.injEq] at same
      obtain ⟨rfl, same⟩ := same
      have closes (cs : List Char) : Letters.Rest (· == quote) (quote :: cs) :=
        .stop (ne_backslash_of_isQuote opens) (beq_self_eq_true quote)
      obtain ⟨rfl, tail⟩ := Letters.text_append_inj (closes rest) (closes rest') same
      exact ⟨rfl, (List.cons.inj tail).2⟩
    | bare letters' slash' begins' =>
      obtain ⟨c, begins', unquoted⟩ := begins'
      have begins' : (letters'.text ++ lone slash' ++ rest').head? = some c := by
        rw [List.head?_append, begins']
        rfl
      obtain rfl : quote = c := Option.some.inj (first.trans begins')
      cases opens.symm.trans unquoted
  | bare letters slash begins =>
    cases item' with
    | quoted quote' opens' letters' =>
      obtain ⟨c, begins, unquoted⟩ := begins
      have begins : (letters.text ++ lone slash ++ rest).head? = some c := by
        rw [List.head?_append, begins]
        rfl
      obtain rfl : c = quote' := Option.some.inj (begins.symm.trans first)
      cases opens'.symm.trans unquoted
    | bare letters' slash' begins' =>
      simp only [text, List.append_assoc] at same
      obtain ⟨rfl, tail⟩ := Letters.text_append_inj (EndsAt.lone_append_rest before)
        (EndsAt.lone_append_rest before') same
      obtain ⟨rfl, rfl⟩ := EndsAt.lone_append_inj before before' tail
      exact ⟨rfl, rfl⟩

end Item

/-! ## Layouts -/

/-- Blanks between items. -/
@[ext]
structure Gap where
  chars : List Char
  blank : ∀ c ∈ chars, Text.isBlank c = true

/-- How a text is laid out: items with a gap in front of each, a last gap, and perhaps a comment. -/
inductive Layout where
  | last (gap : Gap) (comment : Option (List Char))
  | cons (gap : Gap) (item : Item) (rest : Layout)

namespace Layout

/-- The gap in front. -/
def gap : Layout → Gap
  | .last gap _ => gap
  | .cons gap _ _ => gap

/-- The text behind that gap. -/
def body : Layout → List Char
  | .last _ none => []
  | .last _ (some comment) => '#' :: comment
  | .cons _ item rest => item.text ++ (rest.gap.chars ++ rest.body)

def text (l : Layout) : List Char := l.gap.chars ++ l.body

def arguments : Layout → List (List Char)
  | .last _ _ => []
  | .cons _ item rest => item.argument :: rest.arguments

/-- Every item can stand in front of what follows it. -/
def WellFormed : Layout → Prop
  | .last _ _ => True
  | .cons _ item rest => item.Before rest.text ∧ rest.WellFormed

/-- The layout is one of the text. -/
def Spells (l : Layout) (cs : List Char) : Prop := l.WellFormed ∧ l.text = cs

section Front

variable (l : Layout)

theorem body_inked : ∀ c ∈ l.body.head?, Text.isBlank c = false := by
  intro c first
  cases l with
  | last gap comment =>
    cases comment with
    | none => cases first
    | some comment =>
      cases first
      decide
  | cons gap item rest =>
    obtain ⟨d, cs, same, inside⟩ := item.exists_text_eq_cons
    rw [body, same] at first
    cases first
    simp only [isStop, Bool.or_eq_false_iff] at inside
    exact inside.1

theorem dropWhile_text : l.text.dropWhile Text.isBlank = l.body := by
  rw [text, List.dropWhile_append_of_pos l.gap.blank]
  cases same : l.body with
  | nil => rfl
  | cons c cs =>
    have inked := l.body_inked c (by rw [same]; rfl)
    exact List.dropWhile_cons_of_neg (Bool.eq_false_iff.mp inked)

end Front

/-- A text that has a layout falls into the arguments of that layout. -/
theorem split_text {l : Layout} (formed : l.WellFormed) : split l.text = .ok l.arguments := by
  have start := l.dropWhile_text
  induction l with
  | last gap comment =>
    cases comment with
    | none => exact split_of_blank start
    | some comment => exact split_of_comment start
  | cons gap item rest ih =>
    obtain ⟨before, formed⟩ := formed
    have others := ih formed rest.dropWhile_text
    cases item with
    | quoted quote opens letters =>
      have begins : (Layout.cons gap (.quoted quote opens letters) rest).text.dropWhile Text.isBlank =
          quote :: (letters.text ++ quote :: rest.text) := by
        rw [start, body, Item.text]
        simp [text]
      rw [split_of_quote begins opens, Letters.quotedArgument_text_append,
        quotedArgument_of_quote opens, Option.map_some]
      dsimp only
      rw [others, List.append_nil]
      rfl
    | bare letters slash begins =>
      obtain ⟨c, cs, same, inside⟩ := (Item.bare letters slash begins).exists_text_eq_cons
      obtain ⟨d, begins, unquoted⟩ := begins
      obtain rfl : c = d := Option.some.inj ((congrArg List.head? same).symm.trans begins)
      have mark : c ≠ '#' := by
        rintro rfl
        exact absurd inside (by decide)
      have whole : letters.text ++ (lone slash ++ rest.text) = c :: (cs ++ rest.text) := by
        rw [← List.append_assoc]
        exact congrArg (· ++ rest.text) same
      have read : bareArgument (c :: (cs ++ rest.text)) = (letters.chars ++ lone slash, rest.text) := by
        rw [← whole, Letters.bareArgument_text_append, EndsAt.bareArgument_lone_append before]
      have begins : (Layout.cons gap (.bare letters slash ⟨c, begins, unquoted⟩) rest).text.dropWhile
          Text.isBlank = c :: (cs ++ rest.text) := by
        rw [start, ← whole, body, Item.text, List.append_assoc]
        rfl
      rw [split_of_bare begins mark unquoted, read, others]
      rfl

/-! Reading a text from its front finds a layout, or a quote that is left open. -/

/-- The gap in front of a text. -/
private def gapOf (cs : List Char) : Gap :=
  ⟨cs.takeWhile Text.isBlank, fun _ there => List.all_eq_true.mp List.all_takeWhile _ there⟩

private theorem spells_last {cs : List Char} {comment : Option (List Char)}
    (start : cs.dropWhile Text.isBlank = (last (gapOf cs) comment).body) :
    (last (gapOf cs) comment).Spells cs := by
  refine ⟨trivial, ?_⟩
  rw [text, ← start]
  exact List.takeWhile_append_dropWhile

private theorem spells_cons {cs left : List Char} {item : Item} {l : Layout}
    (start : cs.dropWhile Text.isBlank = item.text ++ left) (before : item.Before left)
    (rest : l.Spells left) : (cons (gapOf cs) item l).Spells cs := by
  obtain ⟨formed, rfl⟩ := rest
  refine ⟨⟨before, formed⟩, ?_⟩
  have body : (cons (gapOf cs) item l).body = cs.dropWhile Text.isBlank := start.symm
  rw [text, body]
  exact List.takeWhile_append_dropWhile

/-- Where an argument without quotes is read, a bare item stands. -/
private theorem exists_bare {c : Char} (inside : isStop c = false) (unquoted : isQuote c = false)
    (cs : List Char) :
    ∃ letters slash begins,
      c :: cs = (Item.bare letters slash begins).text ++ (bareArgument (c :: cs)).2 ∧
        EndsAt slash (bareArgument (c :: cs)).2 := by
  obtain ⟨letters, slash, same, ends⟩ := Letters.exists_of_bareArgument (c :: cs)
  have begins : ∃ d, (letters.text ++ lone slash).head? = some d ∧ isQuote d = false := by
    refine ⟨c, ?_, unquoted⟩
    cases written : letters.text ++ lone slash with
    | nil =>
      -- The item would be empty and end in front of a character that ends none.
      have left : (bareArgument (c :: cs)).2 = c :: cs := by
        rw [written] at same
        exact same
      cases slash with
      | true => exact absurd (List.append_eq_nil_iff.mp written).2 (List.cons_ne_nil _ _)
      | false =>
        rw [left] at ends
        exact absurd (ends c rfl) (Bool.eq_false_iff.mp inside)
    | cons d ds =>
      rw [written] at same
      exact congrArg some (List.cons.inj same).1
  exact ⟨letters, slash, begins, same.symm, ends⟩

theorem exists_spells (cs : List Char) :
    (∃ l : Layout, l.Spells cs) ∨ split cs = .error (.malformed "missing closing delimiter") := by
  fun_induction split cs with
  | case1 cs blank => exact .inl ⟨.last (gapOf cs) none, spells_last blank⟩
  | case2 cs comment start => exact .inl ⟨.last (gapOf cs) (some comment), spells_last start⟩
  | case3 => exact .inr rfl
  | case4 cs c rest start mark opens arg left closed ih =>
    rcases ih with ⟨l, spells⟩ | unclosed
    · obtain ⟨letters, same⟩ := Letters.exists_of_quotedArgument opens closed
      have item : c :: rest = (Item.quoted c opens letters).text ++ left := by
        simp [Item.text, ← same]
      exact .inl ⟨_, spells_cons (start.trans item) trivial spells⟩
    · rw [unclosed]
      exact .inr rfl
  | case5 cs c rest start mark unquoted ih =>
    rcases ih with ⟨l, spells⟩ | unclosed
    · have inked : Text.isBlank c = false := by
        have := List.head?_dropWhile_not Text.isBlank cs
        simpa [start] using this
      have inside : isStop c = false := by simp [isStop, inked, mark]
      obtain ⟨letters, slash, begins, item, ends⟩ :=
        exists_bare inside (Bool.eq_false_iff.mpr unquoted) rest
      exact .inl ⟨_, spells_cons (start.trans item) ends spells⟩
    · rw [unclosed]
      exact .inr rfl

/-! Gap by gap and item by item, two layouts of one text are the same. -/

private theorem gap_body_of_text {l l' : Layout} (same : l.text = l'.text) :
    l.gap = l'.gap ∧ l.body = l'.body := by
  have bodies := congrArg (List.dropWhile Text.isBlank) same
  rw [dropWhile_text, dropWhile_text] at bodies
  rw [text, text, bodies] at same
  exact ⟨Gap.ext (List.append_cancel_right same), bodies⟩

private theorem last_body_ne {gap gap' : Gap} {comment : Option (List Char)} {item : Item}
    {rest : Layout} : (last gap comment).body ≠ (cons gap' item rest).body := by
  intro same
  obtain ⟨c, cs, written, inside⟩ := item.exists_text_eq_cons
  rw [body.eq_def (cons gap' item rest)] at same
  dsimp only at same
  rw [written] at same
  cases comment with
  | none => cases same
  | some comment =>
    cases same
    exact absurd inside (by decide)

theorem text_inj {l l' : Layout} (formed : l.WellFormed) (formed' : l'.WellFormed)
    (same : l.text = l'.text) : l = l' := by
  obtain ⟨gaps, bodies⟩ := gap_body_of_text same
  induction l generalizing l' with
  | last gap comment =>
    cases l' with
    | last gap' comment' =>
      obtain rfl : gap = gap' := gaps
      cases comment <;> cases comment' <;> cases bodies <;> rfl
    | cons gap' item' rest' => exact absurd bodies last_body_ne
  | cons gap item rest ih =>
    cases l' with
    | last gap' comment' => exact absurd bodies.symm last_body_ne
    | cons gap' item' rest' =>
      obtain rfl : gap = gap' := gaps
      obtain ⟨rfl, others⟩ := Item.text_append_inj formed.1 formed'.1 bodies
      obtain ⟨gaps, bodies⟩ := gap_body_of_text others
      obtain rfl := ih formed.2 formed'.2 others gaps bodies
      rfl

end Layout

/-- The texts that fall into arguments are those that have a layout. It is the only one they have, and
its items are the arguments. In every other text a quote is left open. -/
theorem tokens_iff_layout (text : String) :
    (∀ strings, tokens text = .ok strings ↔
      ∃ l : Layout, l.Spells text.toList ∧ l.arguments.map String.ofList = strings) ∧
    {l : Layout | l.Spells text.toList}.Subsingleton ∧
    (tokens text = .error (.malformed "missing closing delimiter") ↔
      ¬ ∃ l : Layout, l.Spells text.toList) := by
  have read {l : Layout} (spells : l.Spells text.toList) :
      tokens text = .ok (l.arguments.map String.ofList) := by
    rw [tokens, ← spells.2, Layout.split_text spells.1]
    rfl
  have unread (none : ¬ ∃ l : Layout, l.Spells text.toList) :
      tokens text = .error (.malformed "missing closing delimiter") := by
    rw [tokens, (Layout.exists_spells text.toList).resolve_left none]
    rfl
  refine ⟨fun strings => ⟨fun accepted => ?_, ?_⟩, ?_, fun refused => ?_, unread⟩
  · by_cases laidOut : ∃ l : Layout, l.Spells text.toList
    · obtain ⟨l, spells⟩ := laidOut
      exact ⟨l, spells, Except.ok.inj ((read spells).symm.trans accepted)⟩
    · cases (unread laidOut).symm.trans accepted
  · rintro ⟨l, spells, rfl⟩
    exact read spells
  · rintro l ⟨formed, same⟩ l' ⟨formed', same'⟩
    exact Layout.text_inj formed formed' (same.trans same'.symm)
  · rintro ⟨l, spells⟩
    cases (read spells).symm.trans refused

end LineConsole.ArgumentText
