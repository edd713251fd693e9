import LineConsole.Screen

/-! # What actions lead to

`Ensures` says of an action and a state what holds after the action, with one condition for its
success and one for its failure. It commutes with the ways actions are put together, so a long
action is followed step by step. A failure condition that is always true asks only about success,
and one that is never true says that the action succeeds. `Keeps` says that a view of the state is
the same after the action, whether it succeeds or fails, and `Maintains` that an invariant holds
after it in either case.
-/

namespace LineConsole

variable {ε σ α β γ : Type}

/-- After the action, `ok` holds if it succeeded and `failed` holds if it did not. -/
def Ensures (action : EStateM ε σ α) (ok : α → σ → Prop) (failed : ε → σ → Prop) (s : σ) : Prop :=
  match action s with
  | .ok a s' => ok a s'
  | .error fault s' => failed fault s'

/-- What succeeds as a whole succeeds step by step. -/
theorem bind_eq_ok {action : EStateM ε σ α} {next : α → EStateM ε σ β} {b : β} {s s' : σ}
    (ran : (action >>= next) s = .ok b s') :
    ∃ a middle, action s = .ok a middle ∧ next a middle = .ok b s' := by
  simp only [bind, EStateM.bind] at ran
  split at ran
  · exact ⟨_, _, ‹_›, ran⟩
  · cases ran

/-- The failure condition of someone who only asks about success. -/
def Whatever (_ : ε) (_ : σ) : Prop := True

/-- The failure condition that rules failure out. -/
def Impossible (_ : ε) (_ : σ) : Prop := False

/-- Where the invariant holds, the action succeeds, and the invariant holds again. -/
def Succeeds (invariant : σ → Prop) (action : EStateM ε σ α) : Prop :=
  ∀ s, invariant s → Ensures action (fun _ s' => invariant s') Impossible s

section Rules

variable {ok : α → σ → Prop} {failed : ε → σ → Prop} {s : σ}

@[simp] theorem ensures_pure (a : α) : Ensures (pure a) ok failed s ↔ ok a s := Iff.rfl

@[simp] theorem ensures_bind {action : EStateM ε σ β} {next : β → EStateM ε σ α} :
    Ensures (action >>= next) ok failed s ↔
      Ensures action (fun b s' => Ensures (next b) ok failed s') failed s := by
  simp only [Ensures, bind, EStateM.bind]
  cases action s <;> rfl

@[simp] theorem ensures_get {ok : σ → σ → Prop} :
    Ensures (get : EStateM ε σ σ) ok failed s ↔ ok s s := Iff.rfl

@[simp] theorem ensures_modify {ok : Unit → σ → Prop} {change : σ → σ} :
    Ensures (modify change : EStateM ε σ Unit) ok failed s ↔ ok () (change s) := Iff.rfl

@[simp] theorem ensures_throw {fault : ε} :
    Ensures (throw fault : EStateM ε σ α) ok failed s ↔ failed fault s := Iff.rfl

@[simp] theorem ensures_ite {c : Prop} [Decidable c] {yes no : EStateM ε σ α} :
    Ensures (if c then yes else no) ok failed s ↔
      if c then Ensures yes ok failed s else Ensures no ok failed s := by
  split <;> rfl

theorem Ensures.imp {action : EStateM ε σ α} {ok' : α → σ → Prop} {failed' : ε → σ → Prop}
    (ensured : Ensures action ok failed s) (success : ∀ a s', ok a s' → ok' a s')
    (failure : ∀ fault s', failed fault s' → failed' fault s') : Ensures action ok' failed' s := by
  unfold Ensures at ensured ⊢
  cases ran : action s with
  | ok a s' => rw [ran] at ensured; exact success a s' ensured
  | error fault s' => rw [ran] at ensured; exact failure fault s' ensured

/-- Less may be asked of success while failure is left as it is. -/
theorem Ensures.imp_ok {action : EStateM ε σ α} {ok' : α → σ → Prop}
    (ensured : Ensures action ok failed s) (success : ∀ a s', ok a s' → ok' a s') :
    Ensures action ok' failed s :=
  ensured.imp success fun _ _ same => same

/-- What is known of success on its own goes along with what is known otherwise. -/
theorem Ensures.and {action : EStateM ε σ α} {ok' : α → σ → Prop}
    (ensured : Ensures action ok failed s) (success : Ensures action ok' Whatever s) :
    Ensures action (fun a s' => ok a s' ∧ ok' a s') failed s := by
  unfold Ensures at ensured success ⊢
  cases ran : action s with
  | ok a s' =>
    rw [ran] at ensured success
    exact ⟨ensured, success⟩
  | error fault s' => rw [ran] at ensured; exact ensured

theorem Ensures.of_eq_ok {action : EStateM ε σ α} {a : α} {s' : σ}
    (ensured : Ensures action ok failed s) (ran : action s = .ok a s') : ok a s' := by
  unfold Ensures at ensured
  rwa [ran] at ensured

theorem Ensures.of_eq_error {action : EStateM ε σ α} {fault : ε} {s' : σ}
    (ensured : Ensures action ok failed s) (ran : action s = .error fault s') : failed fault s' := by
  unfold Ensures at ensured
  rwa [ran] at ensured

theorem ensures_of_eq_ok {action : EStateM ε σ α} {a : α} {s' : σ} (ran : action s = .ok a s') :
    Ensures action ok failed s ↔ ok a s' := by
  unfold Ensures
  rw [ran]

theorem ensures_of_eq_error {action : EStateM ε σ α} {fault : ε} {s' : σ}
    (ran : action s = .error fault s') : Ensures action ok failed s ↔ failed fault s' := by
  unfold Ensures
  rw [ran]

/-- Nothing but the outcome counts. -/
theorem ensures_congr {action action' : EStateM ε σ α} {s s' : σ} (same : action s = action' s') :
    Ensures action ok failed s ↔ Ensures action' ok failed s' := by
  unfold Ensures
  rw [same]

/-- The outcome itself may be used along with what is known of it. -/
theorem Ensures.with_eq {action : EStateM ε σ α} (ensured : Ensures action ok failed s) :
    Ensures action (fun a s' => action s = .ok a s' ∧ ok a s') failed s := by
  unfold Ensures at ensured ⊢
  cases ran : action s with
  | ok a s' => rw [ran] at ensured; exact ⟨rfl, ensured⟩
  | error fault s' => rw [ran] at ensured; exact ensured

theorem ensures_whatever_iff {action : EStateM ε σ α} :
    Ensures action ok Whatever s ↔ ∀ a s', action s = .ok a s' → ok a s' := by
  refine ⟨fun ensured a s' ran => ensured.of_eq_ok ran, fun success => ?_⟩
  unfold Ensures
  cases ran : action s with
  | ok a s' => exact success a s' ran
  | error fault s' => trivial

theorem ensures_impossible_iff {action : EStateM ε σ α} :
    Ensures action ok Impossible s ↔ ∃ a s', action s = .ok a s' ∧ ok a s' := by
  unfold Ensures
  cases ran : action s with
  | ok a s' =>
    refine ⟨fun holds => ⟨a, s', rfl, holds⟩, ?_⟩
    rintro ⟨_, _, same, holds⟩
    cases same
    exact holds
  | error fault s' => simp [Impossible]

end Rules

section Success

variable {invariant : σ → Prop}

theorem Succeeds.ensures {action : EStateM ε σ α} {ok : α → σ → Prop} {s : σ}
    (succeeds : Succeeds invariant action) (holds : invariant s)
    (success : Ensures action ok Whatever s) : Ensures action ok Impossible s :=
  ((succeeds s holds).and success).imp_ok fun _ _ both => both.2

theorem succeeds_pure (a : α) : Succeeds invariant (pure a : EStateM ε σ α) := fun _ holds => holds

theorem succeeds_get : Succeeds invariant (get : EStateM ε σ σ) := fun _ holds => holds

theorem succeeds_modify {change : σ → σ} (kept : ∀ s, invariant s → invariant (change s)) :
    Succeeds invariant (modify change : EStateM ε σ Unit) := kept

theorem succeeds_bind {action : EStateM ε σ β} {next : β → EStateM ε σ α}
    (first : Succeeds invariant action) (second : ∀ b, Succeeds invariant (next b)) :
    Succeeds invariant (action >>= next) := by
  intro s holds
  rw [ensures_bind]
  exact (first s holds).imp_ok second

theorem succeeds_ite {c : Prop} [Decidable c] {yes no : EStateM ε σ α}
    (whenYes : Succeeds invariant yes) (whenNo : Succeeds invariant no) :
    Succeeds invariant (if c then yes else no) := by
  split
  · exact whenYes
  · exact whenNo

end Success

/-- Whether an action succeeds in a state of some kind is found out by running it. -/
instance decidableExistsOk {action : EStateM ε σ Unit} {ok : σ → Prop} [DecidablePred ok] {s : σ} :
    Decidable (∃ s', action s = .ok () s' ∧ ok s') :=
  match ran : action s with
  | .ok () s' => decidable_of_iff (ok s') (by simp)
  | .error _ _ => isFalse (by simp)

/-- However the action ends, the view of the state is the one from before. -/
def Keeps (view : σ → γ) (action : EStateM ε σ α) : Prop :=
  ∀ s, Ensures action (fun _ s' => view s' = view s) (fun _ s' => view s' = view s) s

section Kept

variable {view : σ → γ}

theorem keeps_pure (a : α) : Keeps view (pure a : EStateM ε σ α) := fun _ => rfl

theorem keeps_get : Keeps view (get : EStateM ε σ σ) := fun _ => rfl

theorem keeps_modify {change : σ → σ} (same : ∀ s, view (change s) = view s) :
    Keeps view (modify change : EStateM ε σ Unit) := same

theorem keeps_bind {action : EStateM ε σ β} {next : β → EStateM ε σ α} (first : Keeps view action)
    (second : ∀ b, Keeps view (next b)) : Keeps view (action >>= next) := by
  intro s
  rw [ensures_bind]
  refine (first s).imp (fun b s' same => ?_) (fun _ _ same => same)
  rw [← same]
  exact second b s'

theorem keeps_ite {c : Prop} [Decidable c] {yes no : EStateM ε σ α} (whenYes : Keeps view yes)
    (whenNo : Keeps view no) : Keeps view (if c then yes else no) := by
  split
  · exact whenYes
  · exact whenNo

/-- What is kept may be used for what an action ensures. -/
theorem Keeps.ensures {action : EStateM ε σ α} {ok : α → σ → Prop} {failed : ε → σ → Prop} {s : σ}
    (keeps : Keeps view action) (success : ∀ a s', view s' = view s → ok a s')
    (failure : ∀ fault s', view s' = view s → failed fault s') : Ensures action ok failed s :=
  (keeps s).imp success failure

end Kept

/-- However the action ends, the invariant holds after it if it held before. -/
def Maintains (invariant : σ → Prop) (action : EStateM ε σ α) : Prop :=
  ∀ s, invariant s → Ensures action (fun _ => invariant) (fun _ => invariant) s

section Maintained

variable {invariant : σ → Prop}

theorem maintains_get : Maintains invariant (get : EStateM ε σ σ) := fun _ holds => holds

theorem maintains_modify {change : σ → σ} (kept : ∀ s, invariant s → invariant (change s)) :
    Maintains invariant (modify change : EStateM ε σ Unit) := kept

theorem maintains_bind {action : EStateM ε σ β} {next : β → EStateM ε σ α}
    (first : Maintains invariant action) (second : ∀ b, Maintains invariant (next b)) :
    Maintains invariant (action >>= next) := by
  intro s holds
  rw [ensures_bind]
  exact (first s holds).imp_ok second

theorem maintains_ite {c : Prop} [Decidable c] {yes no : EStateM ε σ α}
    (whenYes : Maintains invariant yes) (whenNo : Maintains invariant no) :
    Maintains invariant (if c then yes else no) := by
  split
  · exact whenYes
  · exact whenNo

/-- What can be seen in a view that is kept is maintained. -/
theorem Keeps.maintains {view : σ → γ} {action : EStateM ε σ α} (keeps : Keeps view action)
    (seen : γ → Prop) : Maintains (fun s => seen (view s)) action := by
  intro s holds
  exact keeps.ensures (fun _ _ same => same ▸ holds) fun _ _ same => same ▸ holds

end Maintained

/-- The state that an action leaves behind, whether it succeeds or fails. -/
def leftBy (action : EStateM ε σ α) (s : σ) : σ :=
  match action s with
  | .ok _ s' | .error _ s' => s'

theorem leftBy_of_ensures {action : EStateM ε σ α} {post : σ → Prop} {s : σ}
    (ensured : Ensures action (fun _ => post) (fun _ => post) s) : post (leftBy action s) := by
  unfold Ensures at ensured
  unfold leftBy
  cases ran : action s with
  | ok a s' => rwa [ran] at ensured
  | error fault s' => rwa [ran] at ensured

end LineConsole
