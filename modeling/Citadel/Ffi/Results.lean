import Citadel.Ffi.Ownership

/-!
# What callers are handed

A call leaves in the output pointers of its caller what is documented for its status, and
every buffer it hands over is registered and holds exactly what was computed.
-/

namespace Citadel.Ffi

open Program

section Handing

variable {ι : Type} [DecidableEq ι] {arena : Arena} {mayFree : Memory → Address → Prop}
  {memory : Memory} {calls : ι → Call} {trace : CallTrace ι} {pool : Callers ι}

/-- What is in the output pointers of a caller. -/
def outputsOf (trace : CallTrace ι) (caller : ι) : Outputs :=
  trace.foldl (fun outputs entry =>
    match entry.event with
    | .performed other op _ => if other = caller then outputs.apply op else outputs
    | _ => outputs) .untouched

theorem outputsOf_snoc (trace : CallTrace ι) (entry : Entry Memory ι Op Op.Ret Empty Status)
    (caller : ι) : outputsOf (trace ++ [entry]) caller =
      match entry.event with
      | .performed other op _ =>
          if other = caller then (outputsOf trace caller).apply op else outputsOf trace caller
      | _ => outputsOf trace caller := by
  rw [outputsOf, List.foldl_append, ← outputsOf]
  rfl

/-- The contract of a call follows its output pointers. -/
theorem progressOf_outputs (calls : ι → Call) (trace : CallTrace ι) (caller : ι) :
    (progressOf calls trace caller).outputs = outputsOf trace caller := by
  induction trace using List.reverseRecOn with
  | nil => rfl
  | append_singleton trace entry ih =>
      obtain ⟨before, event⟩ := entry
      rw [outputsOf_snoc, ← ih]
      cases event with
      | performed other op answer =>
          by_cases same : other = caller
          · subst same
            rw [progressOf, Contract.ghostOf_performed_self]
            exact (if_pos rfl).symm
          · rw [progressOf, Contract.ghostOf_performed_other same]
            exact (if_neg same).symm
      | returned other outcome => rw [progressOf, Contract.ghostOf_returned]; rfl
      | drifted => rw [progressOf, Contract.ghostOf_drifted]; rfl

/-- The caller was handed a registered buffer that holds these bytes. -/
def HandedOver (trace : CallTrace ι) (caller : ι) (slot : Slot) (data : Bytes) : Prop :=
  data ≠ [] ∧ ∃ before ptr answer,
    (⟨before, .performed caller (.setOutput slot ptr data.length) answer⟩ :
      Entry Memory ι Op Op.Ret Empty Status) ∈ trace ∧
    before.allocations ptr = some data.length ∧ before.blocks ptr = some ⟨data, true⟩

/-- What is in an output pointer was put there. -/
theorem mem_of_outputsOf {caller : ι} {slot : Slot} {ptr : Address} {len : Nat}
    (found : outputsOf trace caller slot = some (ptr, len)) :
    ∃ before answer, (⟨before, .performed caller (.setOutput slot ptr len) answer⟩ :
      Entry Memory ι Op Op.Ret Empty Status) ∈ trace := by
  induction trace using List.reverseRecOn with
  | nil => cases found
  | append_singleton trace entry ih =>
      have earlier : outputsOf trace caller slot = some (ptr, len) →
          ∃ before answer, (⟨before, .performed caller (.setOutput slot ptr len) answer⟩ :
            Entry Memory ι Op Op.Ret Empty Status) ∈ trace ++ [entry] := by
        intro before
        obtain ⟨state, answer, member⟩ := ih before
        exact ⟨state, answer, List.mem_append_left _ member⟩
      obtain ⟨before, event⟩ := entry
      rw [outputsOf_snoc] at found
      cases event with
      | performed other op answer =>
          by_cases same : other = caller
          · subst same
            simp only [if_true] at found
            cases op with
            | setOutput place address count =>
                by_cases here : slot = place
                · subst here
                  rw [Outputs.apply, Function.update_self] at found
                  cases found
                  exact ⟨before, answer, List.mem_append_right _ (List.mem_singleton_self _)⟩
                · rw [Outputs.apply, Function.update_of_ne here] at found
                  exact earlier found
            | _ => exact earlier found
          · simp only [if_neg same] at found
            exact earlier found
      | returned other outcome => exact earlier found
      | drifted => exact earlier found

/-- Every buffer that is handed over is a registered one that holds a result of its call. -/
theorem hands_over (initial : memory.Initial)
    (runs : Pool.Runs (heap arena (ownerFrees arena)) (callers memory calls) trace pool) :
    ∀ before caller slot ptr len answer,
      (⟨before, .performed caller (.setOutput slot ptr len) answer⟩ :
        Entry Memory ι Op Op.Ret Empty Status) ∈ trace → 0 < len →
      ∃ data, (slot, data) ∈ (calls caller).results ∧ len = data.length ∧
        before.allocations ptr = some len ∧ before.blocks ptr = some ⟨data, true⟩ := by
  refine Pool.Runs.invariant (fun (trace : CallTrace ι) (_ : Callers ι) =>
    ∀ before caller slot ptr len answer,
    (⟨before, .performed caller (.setOutput slot ptr len) answer⟩ :
      Entry Memory ι Op Op.Ret Empty Status) ∈ trace → 0 < len →
    ∃ data, (slot, data) ∈ (calls caller).results ∧ len = data.length ∧
      before.allocations ptr = some len ∧ before.blocks ptr = some ⟨data, true⟩) ?_ ?_ runs
  · intro before caller slot ptr len answer member
    cases member
  · intro trace pool event next prior earlier transition before caller slot ptr len answer member
      positive
    rcases List.mem_append.mp member with past | last
    · exact earlier before caller slot ptr len answer past positive
    · cases List.mem_singleton.mp last
      obtain ⟨-, meets⟩ := sound_of_runs initial prior
      cases transition with
      | @perform _ _ following _ after running answers =>
          have allowed := meets caller
          rw [running] at allowed
          rcases Hold.allows_setOutput allowed.1 with ⟨-, rfl, -⟩ | ⟨data, filled, rfl, -, result⟩
          · cases positive
          · have fits := (accounted_of_runs initial prior).fits caller
            have holding : holdsOf calls trace caller = .filled ptr data := filled
            rw [holding] at fits
            exact ⟨data, result, rfl, fits.1, fits.2⟩

/-- Callers get what is documented: when a call has returned, its status and what it left
in the output pointers are what its computation gives, up to memory running out (a refused
call leaves null, and leaves the pointers alone if one of them was null; after the public
key of a new pair, memory may run out for the secret key); and every buffer left there is
a registered one that held exactly the result. -/
theorem callers_get_what_is_documented (initial : memory.Initial)
    (runs : Pool.Runs (heap arena (ownerFrees arena)) (callers memory calls) trace pool)
    {caller : ι} {outcome : Outcome Empty Status} (returned : Returned trace caller outcome) :
    (∃ status, outcome = .ok status ∧
      Documented (calls caller).computes (outputsOf trace caller) status) ∧
    ∀ slot ptr len, outputsOf trace caller slot = some (ptr, len) → 0 < len →
      ∃ data, (slot, data) ∈ (calls caller).results ∧ len = data.length ∧
        HandedOver trace caller slot data := by
  obtain ⟨-, status, rfl, documented⟩ := holds_of_returned initial runs returned
  rw [progressOf_outputs] at documented
  refine ⟨⟨status, rfl, documented⟩, fun slot ptr len found positive => ?_⟩
  obtain ⟨before, answer, member⟩ := mem_of_outputsOf found
  obtain ⟨data, result, rfl, registered, block⟩ :=
    hands_over initial runs before caller slot ptr len answer member positive
  exact ⟨data, result, rfl, List.ne_nil_of_length_pos positive, before, ptr, answer, member,
    registered, block⟩

/-- What a caller was handed is a result of its call. -/
theorem HandedOver.result (initial : memory.Initial)
    (runs : Pool.Runs (heap arena (ownerFrees arena)) (callers memory calls) trace pool)
    {caller : ι} {slot : Slot} {data : Bytes} (handed : HandedOver trace caller slot data) :
    (slot, data) ∈ (calls caller).results := by
  obtain ⟨some, before, ptr, answer, member, -, block⟩ := handed
  obtain ⟨computed, result, -, -, found⟩ := hands_over initial runs before caller slot ptr
    data.length answer member (List.length_pos_of_ne_nil some)
  rw [block] at found
  cases found
  exact result

end Handing

/-- While its public key is freed by another caller, the first caller gets its pair. -/
theorem keygenThenFrees_documented : ∃ (trace : CallTrace (Fin 3)) (pool : Callers (Fin 3)),
    Pool.Runs (heap manyAddresses (ownerFrees manyAddresses))
      (callers emptyMemory (keygenThenFrees 5)) trace pool ∧ ∃ status, status = Status.ok ∧
        Documented (keygenThenFrees 5 0).computes (outputsOf trace 0) status := by
  obtain ⟨trace, pool, runs, returned, -, -⟩ :=
    keygenThenFrees_runs (ownerFrees manyAddresses) 5 (by decide) (fun _ owned => .inl owned)
      fun _ => .inr (by decide : ¬ 16 ≤ 5)
  obtain ⟨⟨status, same, documented⟩, -⟩ :=
    callers_get_what_is_documented emptyMemory_initial runs (returned 0)
  cases same
  exact ⟨trace, pool, runs, _, rfl, documented⟩

end Citadel.Ffi
