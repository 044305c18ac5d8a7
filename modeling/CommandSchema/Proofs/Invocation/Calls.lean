import CommandSchema.Invocation.Calls
import CommandSchema.Proofs.Except

/-!
# Runs of calls

The handler runs once for every call that can be bound, in the order of the calls, and for no other
call. A call that is refused and a handler that fails do not stop the calls after them.

* `Handler.recorded`: the handler with a list of what it has been run on.
* `Schema.bound`: the invocations that calls are bound to.
* `Schema.ServesCall`: how one call is answered, and which state it leaves.
* `Schema.callAll_serves`: every call of a run is served in the state that those before it leave.
-/

namespace CommandSchema

variable {σ ρ : Type}

/-! ## Statement -/

namespace Handler

/-- The handler; its state also holds the invocations that it has been run on, in their order. -/
def recorded (handler : Handler σ ρ) : Handler (σ × List Invocation) ρ :=
  fun invocation (state, runs) =>
    let (answer, next) := handler invocation state
    (answer, next, runs ++ [invocation])

/-- The state that the handler goes to when it is run on an invocation. -/
def next (handler : Handler σ ρ) (state : σ) (invocation : Invocation) : σ :=
  (handler invocation state).2

end Handler

namespace Schema

/-- The invocations that calls are bound to. Calls that cannot be bound have none. -/
def bound (s : Schema) (calls : List (String × Json)) : List Invocation :=
  calls.filterMap fun call => (s.bind call.1 call.2).toOption

/-- A call that finds the handler in a state is given an answer and leaves the handler in the state
`next`. -/
structure ServesCall (s : Schema) (handler : Handler σ ρ) (exportName : String) (v : Json)
    (state : σ) (answer : Except CallError ρ) (next : σ) : Prop where
  refused : ∀ e, s.bind exportName v = .error e → answer = .error e ∧ next = state
  answered : ∀ i response after, s.bind exportName v = .ok i →
    handler i state = (.ok response, after) → answer = .ok response ∧ next = after
  failed : ∀ i message after, s.bind exportName v = .ok i →
    handler i state = (.error message, after) → answer = .error (.handler message) ∧ next = after
  unknownExport : ∀ name,
    answer = .error (.unknownExport name) ↔ name = exportName ∧ exportName ∉ s.exports

variable {s : Schema} {handler : Handler σ ρ}

/-! ## One call -/

theorem call_of_error {exportName : String} {v : Json} {e : CallError}
    (h : s.bind exportName v = .error e) (state : σ) :
    s.call handler exportName v state = (.error e, state) := by
  rw [call, h]

theorem call_of_ok {exportName : String} {v : Json} {i : Invocation}
    (h : s.bind exportName v = .ok i) (state : σ) :
    s.call handler exportName v state =
      ((handler i state).1.mapError .handler, handler.next state i) := by
  rw [call, h]
  rfl

/-- A call that is not bound has an export or an error of the command that it stands for. -/
theorem bind_eq_unknownExport_iff {exportName name : String} {v : Json} :
    s.bind exportName v = .error (.unknownExport name) ↔
      name = exportName ∧ exportName ∉ s.exports := by
  unfold bind
  cases hc : s.commandByExport? exportName with
  | none =>
    have hnone : exportName ∉ s.exports := by
      simpa [commandByExport?, exports] using hc
    simp [hnone, eq_comm]
  | some c =>
    have hmem : exportName ∈ s.exports := by
      have hname : c.exportName = exportName := by simpa using List.find?_some hc
      exact hname ▸ List.mem_map_of_mem (List.mem_of_find?_eq_some hc)
    cases hv : c.bind v <;> simp [hv, hmem]

theorem servesCall_call (exportName : String) (v : Json) (state : σ) :
    s.ServesCall handler exportName v state (s.call handler exportName v state).1
      (s.call handler exportName v state).2 := by
  cases hb : s.bind exportName v with
  | error e =>
    rw [call_of_error hb]
    refine ⟨fun e' he => ?_, by simp [hb], by simp [hb], fun name => ?_⟩
    · obtain rfl : e = e' := by simpa [hb] using he
      exact ⟨rfl, rfl⟩
    · rw [← bind_eq_unknownExport_iff (v := v), hb]
      simp
  | ok i =>
    rw [call_of_ok hb]
    refine ⟨by simp [hb], fun i' response after hi h => ?_, fun i' message after hi h => ?_,
      fun name => ?_⟩
    · obtain rfl : i = i' := by simpa [hb] using hi
      rw [Handler.next, h]
      exact ⟨rfl, rfl⟩
    · obtain rfl : i = i' := by simpa [hb] using hi
      rw [Handler.next, h]
      exact ⟨rfl, rfl⟩
    · rw [← bind_eq_unknownExport_iff (v := v), hb]
      cases (handler i state).1 <;> simp [mapError_ok, mapError_error]

/-- A call is recorded exactly if it is bound. -/
theorem call_recorded (exportName : String) (v : Json) (state : σ) (runs : List Invocation) :
    s.call handler.recorded exportName v (state, runs) =
      ((s.call handler exportName v state).1, (s.call handler exportName v state).2,
        runs ++ (s.bind exportName v).toOption.toList) := by
  cases hb : s.bind exportName v with
  | error e => simp [call_of_error hb, Except.toOption]
  | ok i => simp [call_of_ok hb, Handler.next, Handler.recorded, Except.toOption]

/-- A call changes the state as the handler does that is run on what is bound. -/
theorem call_state (exportName : String) (v : Json) (state : σ) :
    (s.call handler exportName v state).2 =
      (s.bind exportName v).toOption.toList.foldl handler.next state := by
  cases hb : s.bind exportName v with
  | error e => rw [call_of_error hb]; rfl
  | ok i => rw [call_of_ok hb]; rfl

/-! ## All calls -/

theorem bound_cons (exportName : String) (v : Json) (calls : List (String × Json)) :
    s.bound ((exportName, v) :: calls) =
      (s.bind exportName v).toOption.toList ++ s.bound calls := by
  rw [bound, List.filterMap_cons]
  cases (s.bind exportName v).toOption <;> rfl

theorem callAll_cons (exportName : String) (v : Json) (calls : List (String × Json)) (state : σ) :
    s.callAll handler state ((exportName, v) :: calls) =
      let next := (s.call handler exportName v state).2
      ((s.call handler exportName v state).1 :: (s.callAll handler next calls).1,
        (s.callAll handler next calls).2) := rfl

theorem callAll_append (before after : List (String × Json)) (state : σ) :
    s.callAll handler state (before ++ after) =
      let reached := (s.callAll handler state before).2
      ((s.callAll handler state before).1 ++ (s.callAll handler reached after).1,
        (s.callAll handler reached after).2) := by
  induction before generalizing state with
  | nil => rfl
  | cons call before ih =>
    obtain ⟨exportName, v⟩ := call
    simp only [List.cons_append, callAll_cons, ih]

theorem length_callAll (calls : List (String × Json)) (state : σ) :
    (s.callAll handler state calls).1.length = calls.length := by
  induction calls generalizing state with
  | nil => rfl
  | cons call calls ih => rw [callAll_cons, List.length_cons, List.length_cons, ih]

/-- Recording changes neither the answers nor the state, and what is recorded is what calls are
bound to. -/
theorem callAll_recorded (calls : List (String × Json)) (state : σ) (runs : List Invocation) :
    s.callAll handler.recorded (state, runs) calls =
      ((s.callAll handler state calls).1, (s.callAll handler state calls).2,
        runs ++ s.bound calls) := by
  induction calls generalizing state runs with
  | nil => simp [callAll, bound]
  | cons call calls ih =>
    obtain ⟨exportName, v⟩ := call
    simp only [callAll_cons, call_recorded, ih, bound_cons, List.append_assoc]

theorem callAll_state (calls : List (String × Json)) (state : σ) :
    (s.callAll handler state calls).2 = (s.bound calls).foldl handler.next state := by
  induction calls generalizing state with
  | nil => rfl
  | cons call calls ih =>
    obtain ⟨exportName, v⟩ := call
    rw [callAll_cons, bound_cons, List.foldl_append, ← call_state]
    exact ih _

/-- A run of calls, for every handler. The handler is run on the invocations that calls are bound
to, once for each and in their order, and on nothing else; its last state is what these runs leave.
Every call has one answer: it is served in the state that the calls before it leave, and the calls
after it go on from the state that it leaves itself. -/
theorem callAll_serves (s : Schema) (handler : Handler σ ρ) (state : σ)
    (calls : List (String × Json)) :
    s.callAll handler.recorded (state, []) calls =
        ((s.callAll handler state calls).1, (s.callAll handler state calls).2, s.bound calls) ∧
      (s.callAll handler state calls).2 = (s.bound calls).foldl handler.next state ∧
      (s.callAll handler state calls).1.length = calls.length ∧
      ∀ before exportName v after, calls = before ++ (exportName, v) :: after →
        ∃ answer next,
          s.ServesCall handler exportName v (s.callAll handler state before).2 answer next ∧
          s.callAll handler state calls =
            ((s.callAll handler state before).1 ++ answer :: (s.callAll handler next after).1,
              (s.callAll handler next after).2) := by
  refine ⟨callAll_recorded calls state [], callAll_state calls state, length_callAll calls state,
    ?_⟩
  rintro before exportName v after rfl
  exact ⟨_, _, servesCall_call exportName v _,
    callAll_append before ((exportName, v) :: after) state⟩

end Schema

end CommandSchema
