import LineConsole.Text.Lines
import Mathlib.Data.List.Basic

/-! # Line feeds with their carriage returns

A terminal in raw mode needs a carriage return in front of every line feed. The pass that writes them
carries the byte in front of the next one, and so do the facts about it. Bytes that have them all are
left alone. Of any other bytes nothing is lost, and once each pair is a line feed again, nothing shows
that the pass was there.
-/

namespace LineConsole.Text

/-- Each line feed has a carriage return right in front of it, `previous` being the byte before the
first. -/
def FeedsReturned (previous : Option UInt8) (bytes : List UInt8) : Prop :=
  ∀ front rest, bytes = front ++ 10 :: rest → (previous.toList ++ front).getLast? = some 13

/-- The bytes with every carriage return and line feed pair as a single line feed, in one pass. -/
def unifyFeeds : List UInt8 → List UInt8
  | 13 :: 10 :: rest => 10 :: unifyFeeds rest
  | b :: rest => b :: unifyFeeds rest
  | [] => []

variable {previous : Option UInt8} {b : UInt8} {bytes rest : List UInt8}

/-! ## The form that the pass gives -/

theorem feedsReturned_nil : FeedsReturned previous [] := by
  intro front rest same
  exact absurd same (by simp)

theorem feedsReturned_cons :
    FeedsReturned previous (b :: rest) ↔
      (b = 10 → previous = some 13) ∧ FeedsReturned (some b) rest := by
  constructor
  · intro returned
    refine ⟨?_, ?_⟩
    · rintro rfl
      have last := returned [] rest rfl
      rw [List.append_nil] at last
      cases previous with
      | none => cases last
      | some c => exact last
    · rintro front back rfl
      have last := returned (b :: front) back rfl
      rwa [List.getLast?_append_of_ne_nil _ (List.cons_ne_nil b front)] at last
  · rintro ⟨here, later⟩ front back same
    cases front with
    | nil =>
      obtain ⟨rfl, -⟩ := List.cons.inj same
      rw [here rfl]
      rfl
    | cons c front =>
      obtain ⟨rfl, rest_eq⟩ := List.cons.inj same
      rw [List.getLast?_append_of_ne_nil _ (List.cons_ne_nil b front)]
      exact later front back rest_eq

theorem feedsReturned_returnBeforeFeed (previous : Option UInt8) (bytes : List UInt8) :
    FeedsReturned previous (returnBeforeFeed previous bytes) := by
  fun_induction returnBeforeFeed previous bytes with
  | case1 => exact feedsReturned_nil
  | case2 previous b rest alone ih =>
    obtain ⟨rfl, -⟩ := alone
    exact feedsReturned_cons.mpr ⟨fun feed => absurd feed (by decide),
      feedsReturned_cons.mpr ⟨fun _ => rfl, ih⟩⟩
  | case3 previous b rest other ih =>
    exact feedsReturned_cons.mpr ⟨fun feed => not_not.mp fun bare => other ⟨feed, bare⟩, ih⟩

/-- What has its carriage returns already is passed as it is. -/
theorem returnBeforeFeed_eq_self_iff :
    returnBeforeFeed previous bytes = bytes ↔ FeedsReturned previous bytes := by
  refine ⟨fun same => same ▸ feedsReturned_returnBeforeFeed previous bytes, fun returned => ?_⟩
  fun_induction returnBeforeFeed previous bytes with
  | case1 => rfl
  | case2 previous b rest alone ih => exact absurd ((feedsReturned_cons.mp returned).1 alone.1) alone.2
  | case3 previous b rest other ih => rw [ih (feedsReturned_cons.mp returned).2]

/-! ## What the pass keeps -/

/-- The bytes that came in stand there in their order. -/
theorem sublist_returnBeforeFeed (previous : Option UInt8) (bytes : List UInt8) :
    bytes.Sublist (returnBeforeFeed previous bytes) := by
  fun_induction returnBeforeFeed previous bytes with
  | case1 => exact List.Sublist.slnil
  | case2 previous b rest alone ih =>
    obtain ⟨rfl, -⟩ := alone
    exact (ih.cons_cons 10).cons 13
  | case3 previous b rest other ih => exact ih.cons_cons b

/-- Carriage returns apart, nothing comes in. -/
theorem filter_returnBeforeFeed (previous : Option UInt8) (bytes : List UInt8) :
    (returnBeforeFeed previous bytes).filter (· ≠ 13) = bytes.filter (· ≠ 13) := by
  fun_induction returnBeforeFeed previous bytes with
  | case1 => rfl
  | case2 previous b rest alone ih =>
    obtain ⟨rfl, -⟩ := alone
    simp only [List.filter_cons, ih]
    rfl
  | case3 previous b rest other ih => simp only [List.filter_cons, ih]

theorem unifyFeeds_cons (alone : b = 13 → rest.head? ≠ some 10) :
    unifyFeeds (b :: rest) = b :: unifyFeeds rest := by
  rw [unifyFeeds]
  rintro back rfl rfl
  exact alone rfl rfl

/-- A first byte that is a line feed was one before. -/
theorem head_of_head_returnBeforeFeed
    (feed : (returnBeforeFeed previous bytes).head? = some 10) : bytes.head? = some 10 := by
  cases bytes with
  | nil => exact feed
  | cons b rest =>
    rw [returnBeforeFeed] at feed
    split at feed
    · cases feed
    · exact feed

/-- Joining the pairs again takes away what the pass added. -/
theorem unifyFeeds_returnBeforeFeed (previous : Option UInt8) (bytes : List UInt8) :
    unifyFeeds (returnBeforeFeed previous bytes) = unifyFeeds bytes := by
  -- The induction is on the joining of what comes in, which reads two bytes at a pair; so a pair that
  -- comes in goes out as a pair in one step, whatever stands in front of it.
  fun_induction unifyFeeds bytes generalizing previous with
  | case1 rest ih =>
    have pair : returnBeforeFeed previous (13 :: 10 :: rest) =
        13 :: 10 :: returnBeforeFeed (some 10) rest := by
      simp [returnBeforeFeed]
    rw [pair, unifyFeeds, ih]
  | case2 b rest alone ih =>
    have apart : b = 13 → (returnBeforeFeed (some b) rest).head? ≠ some 10 := by
      intro back feed
      obtain ⟨rest', same⟩ := List.head?_eq_some_iff.mp (head_of_head_returnBeforeFeed feed)
      exact alone rest' back same
    rw [returnBeforeFeed]
    split
    · rename_i bare
      obtain ⟨rfl, -⟩ := bare
      rw [unifyFeeds, ih]
    · rw [unifyFeeds_cons apart, ih]
  | case3 => rfl

/-! ## Line ends for a terminal in raw mode -/

/-- Every line feed that goes out follows a carriage return directly. Joining the pairs again makes
what goes out and what came in the same: only missing carriage returns are added, and nothing is
dropped or moved. A second pass changes nothing. -/
theorem crlf_returns_feeds (bytes : List UInt8) :
    (∀ front rest, crlf bytes = front ++ 10 :: rest → front.getLast? = some 13) ∧
      unifyFeeds (crlf bytes) = unifyFeeds bytes ∧
      bytes.Sublist (crlf bytes) ∧
      (crlf bytes).filter (· ≠ 13) = bytes.filter (· ≠ 13) ∧
      crlf (crlf bytes) = crlf bytes :=
  have returned : FeedsReturned none (crlf bytes) := feedsReturned_returnBeforeFeed none bytes
  ⟨returned, unifyFeeds_returnBeforeFeed none bytes, sublist_returnBeforeFeed none bytes,
    filter_returnBeforeFeed none bytes, returnBeforeFeed_eq_self_iff.mpr returned⟩

/-- Carriage returns in a row, and a line feed behind one that has its carriage return. -/
example : crlf [13, 13, 10, 10] = [13, 13, 10, 13, 10] := by decide

end LineConsole.Text
