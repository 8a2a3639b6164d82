import DemandTransport.Action

/-!
# How actions end

`action.Ends s post fail` says that an action started in `s` ends with a result and a state as
`post` tells, or fails with a cause and a state as `fail` tells. For each way to build an action
there is one rule, which turns the statement about the whole into statements about the parts.
-/

namespace DemandTransport.Action

variable {ε ε' σ τ α β : Type}

/-- An action started in a state ends as `post` tells or fails as `fail` tells. -/
def Ends (action : Action ε σ α) (s : σ) (post : α → σ → Prop) (fail : ε → σ → Prop) : Prop :=
  match action s with
  | .ok a t => post a t
  | .error e t => fail e t

variable {s : σ} {post post' : α → σ → Prop} {fail fail' : ε → σ → Prop}

/-- The state that an action leaves, if it does not fail. -/
def after? (action : Action ε σ α) (s : σ) : Option σ :=
  match action s with
  | .ok _ t => some t
  | .error _ _ => none

theorem after?_eq_some {action : Action ε σ α} {s t : σ} :
    action.after? s = some t ↔ ∃ a, action s = .ok a t := by
  unfold after?
  cases action s <;> simp

theorem toOption_eq_some {result : Except ε α} {a : α} :
    result.toOption = some a ↔ result = .ok a := by
  cases result <;> simp [Except.toOption]

/-- What is weaker than a true statement about the end is true as well. -/
theorem Ends.mono {action : Action ε σ α} (h : action.Ends s post fail)
    (hpost : ∀ a t, post a t → post' a t) (hfail : ∀ e t, fail e t → fail' e t) :
    action.Ends s post' fail' := by
  unfold Ends at *
  cases hrun : action s with
  | ok a t => rw [hrun] at h; exact hpost a t h
  | error e t => rw [hrun] at h; exact hfail e t h

/-- Of an action that does not fail, anything may be said where it fails. -/
theorem Ends.of_no_failure {action : Action ε σ α} (h : action.Ends s post fun _ _ => False) :
    action.Ends s post fail :=
  h.mono (fun _ _ hpost => hpost) fun _ _ hfail => hfail.elim

/-- What is true of all states is true of the end. -/
theorem Ends.of_forall {action : Action ε σ α} (hpost : ∀ a t, post a t)
    (hfail : ∀ e t, fail e t) : action.Ends s post fail := by
  unfold Ends
  cases action s with
  | ok a t => exact hpost a t
  | error e t => exact hfail e t

/-- Two true statements about the end hold together. -/
theorem Ends.and {action : Action ε σ α} (h : action.Ends s post fail)
    (h' : action.Ends s post' fail') :
    action.Ends s (fun a t => post a t ∧ post' a t) (fun e t => fail e t ∧ fail' e t) := by
  unfold Ends at *
  cases hrun : action s with
  | ok a t => rw [hrun] at h h'; exact ⟨h, h'⟩
  | error e t => rw [hrun] at h h'; exact ⟨h, h'⟩

/-- A result that is described is the one that the action gives. -/
theorem Ends.with_run {action : Action ε σ α} (h : action.Ends s post fail) :
    action.Ends s (fun a t => post a t ∧ action s = .ok a t) fail := by
  unfold Ends at *
  cases hrun : action s with
  | ok a t => rw [hrun] at h; exact ⟨h, rfl⟩
  | error e t => rw [hrun] at h; exact h

/-- An action that cannot fail gives a result. -/
theorem Ends.exists_ok {action : Action ε σ α} (h : action.Ends s post fun _ _ => False) :
    ∃ a t, action s = .ok a t ∧ post a t := by
  unfold Ends at h
  cases hrun : action s with
  | ok a t => rw [hrun] at h; exact ⟨a, t, rfl, h⟩
  | error e t => rw [hrun] at h; exact h.elim

/-- What holds of every end holds of the state that is left. -/
theorem Ends.outcome {action : Action ε σ α} {P : σ → Prop}
    (h : action.Ends s (fun _ t => P t) fun _ t => P t) : P (action.outcome s).2 := by
  unfold Ends at h
  unfold Action.outcome
  cases hrun : action s with
  | ok a t => rw [hrun] at h; exact h
  | error e t => rw [hrun] at h; exact h

theorem Ends.of_ok {action : Action ε σ α} (h : action.Ends s post fail) {a : α} {t : σ}
    (hrun : action s = .ok a t) : post a t := by
  rw [Ends, hrun] at h
  exact h

/-- An action that has given a result ends as told of that. -/
theorem ends_of_run {action : Action ε σ α} {a : α} {t : σ} (hrun : action s = .ok a t)
    (h : post a t) : action.Ends s post fail := by
  rw [Ends, hrun]
  exact h

/-- What holds of every failure holds of one that has occurred. -/
theorem Ends.of_error {action : Action ε σ α} (h : action.Ends s post fail) {e : ε} {t : σ}
    (hrun : action.outcome s = (.error e, t)) : fail e t := by
  unfold Ends at h
  unfold Action.outcome at hrun
  cases hresult : action s with
  | ok a t => simp [hresult] at hrun
  | error e t =>
    rw [hresult] at h hrun
    cases hrun
    exact h

/-- Two actions in a row have given a result if both have. -/
theorem exists_of_bind_ok {action : Action ε σ β} {next : β → Action ε σ α} {a : α} {t : σ}
    (h : (action >>= next) s = .ok a t) : ∃ b m, action s = .ok b m ∧ next b m = .ok a t := by
  change EStateM.bind action next s = .ok a t at h
  unfold EStateM.bind at h
  cases hrun : action s with
  | ok b m => exact ⟨b, m, rfl, by simpa [hrun] using h⟩
  | error e m => simp [hrun] at h

/-- After an action that gives a result, the next one is made with it. -/
theorem bind_of_ok {action : Action ε σ β} {b : β} {m : σ} (h : action s = .ok b m)
    (next : β → Action ε σ α) : (action >>= next) s = next b m := by
  change EStateM.bind action next s = next b m
  simp [EStateM.bind, h]

/-- After an action that fails, the next one is not made. -/
theorem bind_of_error {action : Action ε σ β} {e : ε} {m : σ} (h : action s = .error e m)
    (next : β → Action ε σ α) : (action >>= next) s = .error e m := by
  change EStateM.bind action next s = .error e m
  simp [EStateM.bind, h]

/-- Actions that come to the same may be followed by ones that come to the same after them. -/
theorem bind_congr {action action' : Action ε σ β} {next next' : β → Action ε σ α}
    (h : action s = action' s) (hnext : ∀ b m, action' s = .ok b m → next b m = next' b m) :
    (action >>= next) s = (action' >>= next') s := by
  cases hrun : action' s with
  | ok b m => rw [bind_of_ok (h.trans hrun), bind_of_ok hrun, hnext b m hrun]
  | error e m => rw [bind_of_error (h.trans hrun), bind_of_error hrun]

/-! ## One step after the other -/

@[simp] theorem run_pure (a : α) : (pure a : Action ε σ α) s = .ok a s := rfl

@[simp] theorem run_throw (e : ε) : (throw e : Action ε σ α) s = .error e s := rfl

@[simp] theorem run_get_bind (next : σ → Action ε σ α) :
    ((getThe σ : Action ε σ σ) >>= next) s = next s s := rfl

@[simp] theorem run_modify (f : σ → σ) : (modify f : Action ε σ PUnit) s = .ok ⟨⟩ (f s) := rfl

@[simp] theorem run_modify_bind (f : σ → σ) (next : PUnit → Action ε σ α) :
    ((modify f : Action ε σ PUnit) >>= next) s = next ⟨⟩ (f s) := rfl

/-- A question comes before what is made of its answer. -/
@[simp] theorem run_ask_bind (question : σ → Except ε β) (next : β → Action ε σ α) :
    (ask question >>= next) s =
      match question s with
      | .ok b => next b s
      | .error e => .error e s := by
  change EStateM.bind (ask question) next s = _
  unfold EStateM.bind ask
  cases question s <;> rfl

/-- A program that asks, refuses what it should and then writes changes the state entirely or not at
all. -/
theorem guarded_eq_change {question : σ → Except ε β} {refused : β → Prop}
    [DecidablePred refused] {fault : β → ε} {writes : β → Action ε σ Unit} {result : σ → β → σ}
    (h : ∀ s b, question s = .ok b → writes b s = .ok () (result s b)) :
    (do
      let b ← ask question
      if refused b then throw (fault b) else writes b) =
      change fun s => do
        let b ← question s
        if refused b then .error (fault b) else return result s b := by
  funext s
  rw [run_ask_bind]
  simp only [change, bind, Except.bind]
  cases hasked : question s with
  | error e => rfl
  | ok b =>
    dsimp only
    by_cases hrefused : refused b
    · rw [if_pos hrefused, if_pos hrefused]
      rfl
    · rw [if_neg hrefused, if_neg hrefused, h s b hasked]
      rfl

/-! ## One rule for each way to build an action -/

@[simp] theorem ends_pure (a : α) : (pure a : Action ε σ α).Ends s post fail ↔ post a s :=
  Iff.rfl

@[simp] theorem ends_bind (action : Action ε σ β) (next : β → Action ε σ α) :
    (action >>= next).Ends s post fail ↔
      action.Ends s (fun b t => (next b).Ends t post fail) fail := by
  change (match EStateM.bind action next s with | .ok a t => post a t | .error e t => fail e t) ↔
    (match action s with | .ok b t => (next b).Ends t post fail | .error e t => fail e t)
  unfold EStateM.bind
  cases action s <;> rfl

@[simp] theorem ends_map (action : Action ε σ β) (f : β → α) :
    (f <$> action).Ends s post fail ↔ action.Ends s (fun b t => post (f b) t) fail := by
  change (match EStateM.map f action s with | .ok a t => post a t | .error e t => fail e t) ↔
    (match action s with | .ok b t => post (f b) t | .error e t => fail e t)
  unfold EStateM.map
  cases action s <;> rfl

@[simp] theorem ends_get {post : σ → σ → Prop} :
    (get : Action ε σ σ).Ends s post fail ↔ post s s :=
  Iff.rfl

@[simp] theorem ends_set {post : PUnit → σ → Prop} (t : σ) :
    (set t : Action ε σ PUnit).Ends s post fail ↔ post ⟨⟩ t :=
  Iff.rfl

@[simp] theorem ends_modify {post : PUnit → σ → Prop} (f : σ → σ) :
    (modify f : Action ε σ PUnit).Ends s post fail ↔ post ⟨⟩ (f s) :=
  Iff.rfl

@[simp] theorem ends_throw (e : ε) : (throw e : Action ε σ α).Ends s post fail ↔ fail e s :=
  Iff.rfl

/-- A question leaves the state as it is. -/
@[simp] theorem ends_ask (question : σ → Except ε α) :
    (ask question).Ends s post fail ↔
      match question s with
      | .ok a => post a s
      | .error e => fail e s := by
  unfold Ends ask
  cases question s <;> rfl

/-- A change that does not happen leaves the state as it is. -/
@[simp] theorem ends_entirely (change : σ → Except ε (α × σ)) :
    (entirely change).Ends s post fail ↔
      match change s with
      | .ok (a, t) => post a t
      | .error e => fail e s := by
  unfold Ends entirely
  cases change s <;> rfl

@[simp] theorem ends_change {post : Unit → σ → Prop} (change : σ → Except ε σ) :
    (Action.change change).Ends s post fail ↔
      match change s with
      | .ok t => post () t
      | .error e => fail e s := by
  unfold Ends Action.change
  cases change s <;> rfl

/-- A change that is known to happen gives its state. -/
theorem ends_change_of_ok {post : Unit → σ → Prop} {change : σ → Except ε σ} {t : σ}
    (h : change s = .ok t) : (Action.change change).Ends s post fail ↔ post () t := by
  rw [ends_change, h]

@[simp] theorem ends_mapError {fail : ε' → σ → Prop} (wrap : ε → ε') (action : Action ε σ α) :
    (action.mapError wrap).Ends s post fail ↔ action.Ends s post fun e t => fail (wrap e) t := by
  unfold Ends mapError
  cases action s <;> rfl

@[simp] theorem ends_within (part : σ → τ) (replace : τ → σ → σ) (action : Action ε τ α) :
    (action.within part replace).Ends s post fail ↔
      action.Ends (part s) (fun a t => post a (replace t s)) fun e t => fail e (replace t s) := by
  unfold Ends within
  cases action (part s) <;> rfl

end DemandTransport.Action
