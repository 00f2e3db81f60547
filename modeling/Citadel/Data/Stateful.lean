import Citadel.Data.Outcome

/-!
# Methods that change their object and can fail

An early return leaves whatever was assigned before it, so a failing method has a result and
a state. The rules play a method statement by statement. A method whose failures all come
before its first assignment is the same as a function from one state to the next.
-/

namespace Citadel

/-- A method on a state, with errors. -/
abbrev Method (σ ε α : Type) := ExceptT ε (StateM σ) α

section Rules

variable {σ ε α β : Type}

/-- The result of a method and the state that it leaves. -/
def Method.play (method : Method σ ε α) (state : σ) : Except ε α × σ := method.run.run state

namespace Method

-- `(rfl)` and not `rfl`: `simp` then leaves a proof step for each of these rules, and the kernel
-- does not play the whole method again to check them.
@[simp] theorem play_pure (value : α) (state : σ) :
    Method.play (pure value : Method σ ε α) state = (.ok value, state) := (rfl)

@[simp] theorem play_throw (error : ε) (state : σ) :
    Method.play (throw error : Method σ ε α) state = (.error error, state) := (rfl)

/-- A failure is not followed by anything. -/
@[simp] theorem play_throw_bind (error : ε) (rest : α → Method σ ε β) (state : σ) :
    Method.play ((throw error : Method σ ε α) >>= rest) state = (.error error, state) := (rfl)

@[simp] theorem play_get_bind (rest : σ → Method σ ε β) (state : σ) :
    Method.play ((get : Method σ ε σ) >>= rest) state = Method.play (rest state) state := (rfl)

@[simp] theorem play_modify_bind (update : σ → σ) (rest : PUnit → Method σ ε β) (state : σ) :
    Method.play ((modify update : Method σ ε PUnit) >>= rest) state =
      Method.play (rest ⟨⟩) (update state) := (rfl)

/-- A statement and what follows it. -/
theorem play_bind (method : Method σ ε α) (rest : α → Method σ ε β) (state : σ) :
    Method.play (method >>= rest) state =
      match method.play state with
      | (.ok value, later) => Method.play (rest value) later
      | (.error error, later) => (.error error, later) := by
  unfold Method.play
  rw [ExceptT.run_bind, StateT.run_bind]
  cases method.run.run state with
  | mk result later =>
      cases result with
      | ok value => rfl
      | error error => rfl

/-- After a success the rest goes on from the state it left. -/
theorem play_bind_of_ok {method : Method σ ε α} {state later : σ} {value : α}
    (played : method.play state = (.ok value, later)) (rest : α → Method σ ε β) :
    Method.play (method >>= rest) state = Method.play (rest value) later := by
  rw [play_bind, played]

/-- A method succeeds when its first statement does and then the rest. -/
theorem play_bind_eq_ok {method : Method σ ε α} {rest : α → Method σ ε β} {state last : σ}
    {value : β} : Method.play (method >>= rest) state = (.ok value, last) ↔
      ∃ first later, method.play state = (.ok first, later) ∧
        Method.play (rest first) later = (.ok value, last) := by
  rw [play_bind]
  constructor
  · intro played
    split at played
    · rename_i first later ran
      exact ⟨first, later, ran, played⟩
    · cases played
  · rintro ⟨first, later, ran, played⟩
    rw [ran]
    exact played

/-- The method with its errors translated (`map_err`). -/
def mapErr {ε' : Type} (translate : ε → ε') (method : Method σ ε α) : Method σ ε' α :=
  ExceptT.adapt translate method

theorem play_mapErr {ε' : Type} (translate : ε → ε') (method : Method σ ε α) (state : σ) :
    (method.mapErr translate).play state =
      ((method.play state).1.mapError translate, (method.play state).2) := by
  unfold Method.play mapErr ExceptT.adapt
  change (Except.mapError translate <$> method.run).run state = _
  rw [StateT.run_map]
  rfl

theorem play_mapErr_of_ok {ε' : Type} {translate : ε → ε'} {method : Method σ ε α}
    {state later : σ} {value : α} (played : method.play state = (.ok value, later)) :
    (method.mapErr translate).play state = (.ok value, later) := by
  rw [play_mapErr, played]
  rfl

/-- A method succeeds exactly when it does with its errors renamed. -/
theorem play_mapErr_eq_ok {ε' : Type} {translate : ε → ε'} {method : Method σ ε α}
    {state later : σ} {value : α} :
    (method.mapErr translate).play state = (.ok value, later) ↔
      method.play state = (.ok value, later) := by
  rw [play_mapErr]
  cases method.play state with
  | mk result last => cases result <;> simp [Except.mapError_ok, Except.mapError_error]

/-- A lifted result succeeds when it is no error, and changes nothing. -/
theorem play_ofExcept_eq_ok {result : Except ε α} {state later : σ} {value : α} :
    (ofExcept result : Method σ ε α).play state = (.ok value, later) ↔
      result = .ok value ∧ later = state := by
  cases result with
  | error error =>
      constructor
      · intro played
        cases played
      · rintro ⟨wrong, -⟩
        cases wrong
  | ok other =>
      constructor
      · intro played
        cases played
        exact ⟨rfl, rfl⟩
      · rintro ⟨same, rfl⟩
        cases same
        rfl

/-- A failing method keeps a property when the statements before the last one keep it anyway. -/
theorem play_bind_error_keeps {holds : σ → Prop} {method : Method σ ε α}
    {rest : α → Method σ ε β} (first : ∀ state, holds state → holds (method.play state).2)
    (later : ∀ value state, holds state → ∀ error, ((rest value).play state).1 = .error error →
      holds ((rest value).play state).2)
    (state : σ) (start : holds state) (error : ε)
    (failed : (Method.play (method >>= rest) state).1 = .error error) :
    holds (Method.play (method >>= rest) state).2 := by
  have kept := first state start
  rw [play_bind] at failed ⊢
  split
  · rename_i value after ran
    rw [ran] at failed kept
    exact later value after kept error failed
  · rename_i after ran
    rw [ran] at kept
    exact kept

@[simp] theorem play_ofExcept_ok_bind (value : α) (rest : α → Method σ ε β) (state : σ) :
    Method.play ((ofExcept (.ok value : Except ε α) : Method σ ε α) >>= rest) state =
      Method.play (rest value) state := (rfl)

@[simp] theorem play_ofExcept_error_bind (error : ε) (rest : α → Method σ ε β) (state : σ) :
    Method.play ((ofExcept (.error error : Except ε α) : Method σ ε α) >>= rest) state =
      (.error error, state) := (rfl)

end Method

/-- A step that succeeded is followed by the rest. -/
theorem ok_bind (value : α) (rest : α → Except ε β) :
    ((Except.ok value : Except ε α) >>= rest) = rest value := rfl

/-- The method of a function that returns the new state only when it succeeds. -/
def onState (call : σ → Except ε (α × σ)) (state : σ) : Except ε α × σ :=
  match call state with
  | .error error => (.error error, state)
  | .ok (value, after) => (.ok value, after)

/-- It leaves the state when it fails. -/
theorem onState_of_error {call : σ → Except ε (α × σ)} {state : σ} {error : ε}
    (failed : (onState call state).1 = .error error) : (onState call state).2 = state := by
  unfold onState at failed ⊢
  split
  · rfl
  · rename_i found
    rw [found] at failed
    cases failed

end Rules

end Citadel
