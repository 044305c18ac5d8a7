import CommandSchema.Proofs.Generated.Reading

/-!
# What code does

Structured code is run on a machine that knows what its instructions, tests and heads do. A block
is run by its head, which is given what its body does; of a chain, the first arm whose test holds
is run.

* `Flow`: how a piece of code ends.
* `Machine`, `Code.exec`: what instructions, tests and heads do, and what code does.
* `Code.exec_map`: code with other instructions does what the code does on a machine that reads its
  instructions as those.
-/

namespace CommandSchema.Generated

variable {I H T σ ρ : Type}

/-- How a piece of code ends. -/
inductive Flow (σ ρ : Type) where
  /-- The code after it goes on in a state. -/
  | next (state : σ)
  /-- The function ends with a result. -/
  | returned (result : ρ)
  /-- The code means nothing here. -/
  | stuck
  deriving DecidableEq, Repr

namespace Flow

/-- Goes on with other code. -/
def andThen : Flow σ ρ → (σ → Flow σ ρ) → Flow σ ρ
  | .next s, k => k s
  | .returned r, _ => .returned r
  | .stuck, _ => .stuck

@[simp] theorem next_andThen (s : σ) (k : σ → Flow σ ρ) : (next s).andThen k = k s := rfl

@[simp] theorem returned_andThen (r : ρ) (k : σ → Flow σ ρ) :
    (returned r).andThen k = returned r := rfl

@[simp] theorem stuck_andThen (k : σ → Flow σ ρ) : (stuck : Flow σ ρ).andThen k = stuck := rfl

@[simp] theorem andThen_next (flow : Flow σ ρ) : flow.andThen .next = flow := by
  cases flow <;> rfl

/-- Goes on in a state if there is one. -/
def ofOption : Option σ → Flow σ ρ
  | some s => .next s
  | none => .stuck

end Flow

/-- What instructions, tests and heads do. A test may change the state. -/
structure Machine (I H T σ ρ : Type) where
  step : I → σ → Flow σ ρ
  test : T → σ → Option (σ × Bool)
  block : H → (σ → Flow σ ρ) → σ → Flow σ ρ

variable (m : Machine I H T σ ρ)

mutual

/-- What code does. -/
def Code.exec : Code I H T → σ → Flow σ ρ
  | .done, s => .next s
  | .run i next, s => (m.step i s).andThen fun s => next.exec s
  | .block h body next, s => (m.block h (fun s => body.exec s) s).andThen fun s => next.exec s
  | .choose arms next, s => (arms.exec s).andThen fun s => next.exec s

/-- What a chain does: the first arm whose test holds is run. -/
def Arms.exec : Arms I H T → σ → Flow σ ρ
  | .otherwise body, s => body.exec s
  | .arm test body rest, s =>
    match m.test test s with
    | none => .stuck
    | some (s, true) => body.exec s
    | some (s, false) => rest.exec s

end

section Steps

variable {m} {s s' : σ}

theorem Code.exec_run {i : I} (h : m.step i s = .next s') (next : Code I H T) :
    (Code.run i next).exec m s = next.exec m s' := by
  show (m.step i s).andThen _ = _
  rw [h]
  rfl

theorem Code.exec_run_returned {i : I} {r : ρ} (h : m.step i s = .returned r) (next : Code I H T) :
    (Code.run i next).exec m s = .returned r := by
  show (m.step i s).andThen _ = _
  rw [h]
  rfl

theorem Code.exec_block {h : H} {body : Code I H T}
    (hb : m.block h (fun s => body.exec m s) s = .next s') (next : Code I H T) :
    (Code.block h body next).exec m s = next.exec m s' := by
  show (m.block h _ s).andThen _ = _
  rw [hb]
  rfl

theorem Code.exec_block_returned {h : H} {body : Code I H T} {r : ρ}
    (hb : m.block h (fun s => body.exec m s) s = .returned r) (next : Code I H T) :
    (Code.block h body next).exec m s = .returned r := by
  show (m.block h _ s).andThen _ = _
  rw [hb]
  rfl

end Steps

/-- The machine that reads instructions as others. -/
def Machine.withStep (g : I → I) : Machine I H T σ ρ := { m with step := fun i => m.step (g i) }

mutual

theorem Code.exec_map (g : I → I) :
    (c : Code I H T) → (s : σ) → (c.map g).exec m s = c.exec (m.withStep g) s
  | .done, _ => rfl
  | .run i next, s => congrArg ((m.step (g i) s).andThen ·) (funext (next.exec_map g))
  | .block h body next, s => by
    have hb := funext (body.exec_map g)
    have hn := funext (next.exec_map g)
    exact congrArg₂ (fun b n => (m.block h b s).andThen n) hb hn
  | .choose arms next, s => by
    have ha := arms.exec_map g s
    have hn := funext (next.exec_map g)
    exact congrArg₂ Flow.andThen ha hn

theorem Arms.exec_map (g : I → I) :
    (arms : Arms I H T) → (s : σ) → (arms.map g).exec m s = arms.exec (m.withStep g) s
  | .otherwise body, s => body.exec_map g s
  | .arm test body rest, s => by
    simp only [Arms.map, Arms.exec, Machine.withStep]
    cases m.test test s with
    | none => rfl
    | some p =>
      obtain ⟨s, holds⟩ := p
      cases holds with
      | true => exact body.exec_map g s
      | false => exact rest.exec_map g s

end

/-! ## Code with one shape -/

section Shapes

variable {m}

/-- Of a chain whose tests compare one thing with keys, the arm of the first equal key is run. -/
theorem Arms.exec_ofList {α : Type} (key : α → T) (body : α → Code I H T) (holds : α → Bool)
    {l : List α} {o : Code I H T} {s : σ}
    (h : ∀ a ∈ l, m.test (key a) s = some (s, holds a)) :
    (Arms.ofList (l.map fun a => (key a, body a)) o).exec m s =
      match l.find? holds with
      | some a => (body a).exec m s
      | none => o.exec m s := by
  induction l with
  | nil => rfl
  | cons a l ih =>
    have ih := ih fun b hb => h b (List.mem_cons_of_mem _ hb)
    show (match m.test (key a) s with
      | none => Flow.stuck
      | some (s, true) => (body a).exec m s
      | some (s, false) => (Arms.ofList (l.map fun a => (key a, body a)) o).exec m s) = _
    rw [h a List.mem_cons_self]
    cases ha : holds a with
    | true => rw [List.find?_cons_of_pos ha]
    | false => rw [List.find?_cons_of_neg (by simp [ha])]; exact ih

end Shapes

end CommandSchema.Generated
