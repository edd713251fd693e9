import LineConsole.Proofs.Console.Coherence
import Mathlib.Data.Finset.Card

/-! # Courteous clients

A client holds the worker from the moment its pause is received until its resume is. If every client
resumes only after its own pause, the depth that the worker counts is the number of those who hold
it; so no one does once every pause was followed by its resume.
-/

namespace LineConsole

/-- What one client asks for in the course of the messages. -/
def requestsOf (received : List ClientMessage) (client : Nat) : List Message :=
  (received.filter (·.client = client)).map (·.message)

/-- Those who hold the worker after one more message. -/
def holdersAfter (clients : Finset Nat) (m : ClientMessage) : Finset Nat :=
  match m.message with
  | .pause => insert m.client clients
  | .resume => clients.erase m.client

/-- Those who hold the worker once the messages were received. -/
def holders (received : List ClientMessage) : Finset Nat := received.foldl holdersAfter ∅

theorem holders_concat (received : List ClientMessage) (m : ClientMessage) :
    holders (received ++ [m]) = holdersAfter (holders received) m :=
  List.foldl_concat _ _ _ _

/-- The next message of a client depends on whether it paused last. -/
theorem alternates_of_concat {requests : List Message} {next : Message}
    (alternate : alternates (requests ++ [next])) :
    alternates requests ∧ (next = .pause ↔ requests.getLast? ≠ some .pause) := by
  fun_induction alternates requests with
  | case1 => cases next <;> simp_all [alternates]
  | case2 => cases next <;> simp_all [alternates]
  | case3 rest ih =>
    obtain ⟨before, turn⟩ := ih alternate
    refine ⟨before, turn.trans (not_congr ?_)⟩
    cases rest <;> simp
  | case4 requests notNone notPause notBoth =>
    exfalso
    match requests with
    | [] => exact notNone rfl
    | [.pause] => exact notPause rfl
    | .pause :: .resume :: rest => exact notBoth rest rfl
    | .pause :: .pause :: _ => cases alternate
    | .resume :: _ => cases alternate

/-- A client whose requests alternate has paused once more than resumed, or as often. -/
theorem count_pause_of_alternates {requests : List Message} (alternate : alternates requests) :
    requests.count .pause =
      requests.count .resume + if requests.getLast? = some .pause then 1 else 0 := by
  fun_induction alternates requests with
  | case1 => rfl
  | case2 => rfl
  | case3 rest ih =>
    have last : (Message.pause :: .resume :: rest).getLast? = some .pause ↔
        rest.getLast? = some .pause := by
      cases rest <;> simp
    have pauses : (Message.pause :: .resume :: rest).count .pause = rest.count .pause + 1 := by
      simp
    have resumes : (Message.pause :: .resume :: rest).count .resume = rest.count .resume + 1 := by
      simp
    rw [pauses, resumes, ih alternate]
    simp only [last]
    omega
  | case4 => cases alternate

theorem requestsOf_concat (received : List ClientMessage) (m : ClientMessage) (client : Nat) :
    requestsOf (received ++ [m]) client =
      requestsOf received client ++ if m.client = client then [m.message] else [] := by
  unfold requestsOf
  rw [List.filter_append, List.map_append]
  by_cases same : m.client = client <;> simp [same]

/-- A client holds the worker while its pause is the last that it asked for. -/
theorem mem_holders_iff (received : List ClientMessage) (client : Nat) :
    client ∈ holders received ↔ (requestsOf received client).getLast? = some .pause := by
  induction received using List.reverseRecOn with
  | nil => simp [holders, requestsOf]
  | append_singleton received m ih =>
    rw [requestsOf_concat, holders_concat, holdersAfter]
    by_cases same : m.client = client
    · cases m.message <;> simp [same]
    · cases m.message <;> simp [same, Ne.symm same, ih]

/-- A client that does not hold the worker pauses, and one that does resumes. -/
theorem turn_of_concat {received : List ClientMessage} {m : ClientMessage}
    (courteous : ∀ client, alternates (requestsOf (received ++ [m]) client)) :
    (∀ client, alternates (requestsOf received client)) ∧
      (m.message = .pause ∧ m.client ∉ holders received ∨
        m.message = .resume ∧ m.client ∈ holders received) := by
  constructor
  · intro client
    have all := courteous client
    rw [requestsOf_concat] at all
    split at all
    · exact (alternates_of_concat all).1
    · rwa [List.append_nil] at all
  · have own := courteous m.client
    rw [requestsOf_concat, if_pos rfl] at own
    have turn := (alternates_of_concat own).2
    rw [ne_eq, ← mem_holders_iff] at turn
    cases asked : m.message with
    | pause => exact .inl ⟨rfl, turn.mp asked⟩
    | resume =>
      refine .inr ⟨rfl, Classical.byContradiction fun free => ?_⟩
      exact absurd (turn.mpr free) (by simp [asked])

/-- If every client resumes only after its own pause, the worker counts those who hold it. -/
theorem foldl_depthAfter_eq_card (received : List ClientMessage)
    (courteous : ∀ client, alternates (requestsOf received client)) :
    (received.map (·.message)).foldl Worker.depthAfter 0 = (holders received).card := by
  induction received using List.reverseRecOn with
  | nil => rfl
  | append_singleton received m ih =>
    obtain ⟨earlier, turn⟩ := turn_of_concat courteous
    rw [List.map_append, List.foldl_append, ih earlier, holders_concat, holdersAfter]
    change Worker.depthAfter _ m.message = _
    rcases turn with ⟨asked, free⟩ | ⟨asked, holds⟩
    · rw [asked]
      exact (Finset.card_insert_of_notMem free).symm
    · rw [asked]
      exact (Finset.card_erase_of_mem holds).symm

/-- Then each of them has one pause that was not resumed yet, and no one else has any. -/
theorem count_pause_eq_add_card (received : List ClientMessage)
    (courteous : ∀ client, alternates (requestsOf received client)) :
    (received.map (·.message)).count .pause =
      (received.map (·.message)).count .resume + (holders received).card := by
  induction received using List.reverseRecOn with
  | nil => rfl
  | append_singleton received m ih =>
    obtain ⟨earlier, turn⟩ := turn_of_concat courteous
    rw [List.map_append, List.count_append, List.count_append, ih earlier, holders_concat,
      holdersAfter]
    rcases turn with ⟨asked, free⟩ | ⟨asked, holds⟩
    · simp [asked, Finset.card_insert_of_notMem free, Nat.add_assoc]
    · have counted := Finset.card_erase_add_one holds
      simp [asked, Nat.add_assoc, Nat.add_comm 1, counted]

/-- Each client has resumed as often as it has paused. -/
def Released (turns : List Turn) : Prop :=
  ∀ client, (messagesOf turns client).count .pause = (messagesOf turns client).count .resume

/-- No one holds the worker once every pause was followed by its resume. -/
theorem Courteous.depth_eq_zero {turns : List Turn} (courteous : Courteous turns)
    (released : Released turns) :
    (turns.flatMap Turn.messages).foldl Worker.depthAfter 0 = 0 := by
  have messages : turns.flatMap Turn.messages = (turns.flatMap (·.received)).map (·.message) :=
    List.map_flatMap.symm
  rw [messages, foldl_depthAfter_eq_card _ courteous, Finset.card_eq_zero,
    Finset.eq_empty_iff_forall_notMem]
  intro client holds
  have last : (messagesOf turns client).getLast? = some .pause :=
    (mem_holders_iff _ client).mp holds
  have counted := count_pause_of_alternates (courteous client)
  rw [released client, if_pos last] at counted
  omega

end LineConsole
