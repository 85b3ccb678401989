import Mathlib.Data.List.Basic

/-!
# Pools of tasks

A task goes on in steps, between which others may change the state that all of them share
(`Resumption`). In a pool a number of tasks are under way at once. Which of them makes the next step
is left open, and so is whether a task that waits is started as soon as there is room; but results
are collected in the order of the tasks, and the first error to be collected ends the run
(`Pool.Step`).

If every task gives one result whatever the others do, the order of the steps does not show
(`Pool.inevitable`): each run of a pool that has room for one task at least comes to an end, and its
result is that of the tasks one after another.
-/

namespace SchemaInstaller

/-! ## Tasks -/

/-- A computation on a shared state: each step changes the state and goes on by what it was. -/
inductive Resumption (σ α : Type) : Type
  | done (a : α)
  | step (move : σ → σ) (next : σ → Resumption σ α)

namespace Resumption

variable {σ α β : Type}

/-- A computation and then another. -/
def bind : Resumption σ α → (α → Resumption σ β) → Resumption σ β
  | done a, f => f a
  | step move next, f => step move fun s => (next s).bind f

instance : Monad (Resumption σ) where
  pure := done
  bind := bind

/-- One step. -/
def ofState (x : StateM σ α) : Resumption σ α :=
  step (fun s => (x.run s).2) fun s => done (x.run s).1

/-- The computation with nothing in between its steps. -/
def alone : Resumption σ α → StateM σ α
  | done a => pure a
  | step move next => fun s => (next s).alone (move s)

/-- The computation gives `a` after at most `n` steps and never leaves the states of which `I`
holds, as long as nothing else does. -/
inductive Gives (I : σ → Prop) : Nat → Resumption σ α → α → Prop
  | done (n : Nat) (a : α) : Gives I n (done a) a
  | step {n : Nat} {move : σ → σ} {next : σ → Resumption σ α} {a : α}
      (hmove : ∀ s, I s → I (move s)) (hnext : ∀ s, I s → Gives I n (next s) a) :
      Gives I (n + 1) (step move next) a

variable {I : σ → Prop} {n k : Nat} {x : Resumption σ α} {a : α} {b : β}

theorem Gives.mono (h : Gives I n x a) (hk : n ≤ k) : Gives I k x a := by
  induction h generalizing k with
  | done n a => exact .done k a
  | step hmove _ ih =>
    obtain ⟨k, rfl⟩ := Nat.exists_eq_add_of_lt hk
    exact .step hmove fun s hs => ih s hs (by omega)

theorem Gives.bind {f : α → Resumption σ β} (hx : Gives I n x a) (hf : Gives I k (f a) b) :
    Gives I (n + k) (x >>= f) b := by
  induction hx with
  | done n a => exact hf.mono (Nat.le_add_left k n)
  | @step n move next a hmove _ ih =>
    rw [Nat.add_right_comm]
    exact .step hmove fun s hs => ih s hs hf

/-- What a computation gives among others it gives alone. -/
theorem Gives.alone {s : σ} (h : Gives I n x a) (hs : I s) :
    ∃ s', I s' ∧ x.alone.run s = (a, s') := by
  induction h generalizing s with
  | done n a => exact ⟨s, hs, rfl⟩
  | step hmove _ ih => exact ih s hs (hmove s hs)

theorem gives_ofState {x : StateM σ α} (hmove : ∀ s, I s → I (x.run s).2)
    (hresult : ∀ s, I s → (x.run s).1 = a) : Gives I 1 (ofState x) a := by
  refine .step hmove fun s hs => ?_
  rw [hresult s hs]
  exact .done 0 a

end Resumption

open Resumption

/-! ## What comes in the end -/

/-- Whatever steps are taken from a place, they come to one where `goal` holds: on the way there is
always a step to take, and the way is finite. -/
inductive Inevitable (step : α → α → Prop) (goal : α → Prop) : α → Prop
  | now {a : α} (h : goal a) : Inevitable step goal a
  | later {a : α} (hstep : ∃ b, step a b) (h : ∀ b, step a b → Inevitable step goal b) :
      Inevitable step goal a

/-! ## Pools -/

/-- Tasks that wait and tasks under way, both in their order, with the results that have been
collected before; or what the pool has returned. -/
inductive Pool (σ ε β : Type) : Type
  | active (state : σ) (waiting running : List (Resumption σ (Except ε β))) (collected : List β)
  | returned (state : σ) (result : Except ε (List β))

namespace Pool

variable {σ ε β : Type}

/-- What the pool has returned. -/
def result? : Pool σ ε β → Option (Except ε (List β))
  | active _ _ _ _ => none
  | returned _ result => some result

/-- A step of a pool with room for `width` tasks. -/
inductive Step (width : Nat) : Pool σ ε β → Pool σ ε β → Prop
  /-- The next task is started if there is room for it. -/
  | start {s : σ} {x : Resumption σ (Except ε β)} {waiting running : List _} {collected : List β}
      (h : running.length < width) :
      Step width (active s (x :: waiting) running collected)
        (active s waiting (running ++ [x]) collected)
  /-- Any task under way makes a step. -/
  | advance {s : σ} {move : σ → σ} {next : σ → Resumption σ (Except ε β)}
      {waiting before after : List _} {collected : List β} :
      Step width (active s waiting (before ++ step move next :: after) collected)
        (active (move s) waiting (before ++ next s :: after) collected)
  /-- The first task under way is done, and its result is collected. -/
  | collect {s : σ} {b : β} {waiting running : List _} {collected : List β} :
      Step width (active s waiting (done (.ok b) :: running) collected)
        (active s waiting running (collected ++ [b]))
  /-- The first task under way has failed, and all others are given up. -/
  | fail {s : σ} {e : ε} {waiting running : List _} {collected : List β} :
      Step width (active s waiting (done (.error e) :: running) collected) (returned s (.error e))
  /-- No task is left. -/
  | finish {s : σ} {collected : List β} :
      Step width (active s [] [] collected) (returned s (.ok collected))

/-- Tasks with the results that they give, in at most `n` steps if each takes `toll` steps besides
its own. -/
inductive Owes (I : σ → Prop) (toll : Nat) :
    Nat → List (Resumption σ (Except ε β)) → List (Except ε β) → Prop
  | nil : Owes I toll 0 [] []
  | cons {k n : Nat} {x : Resumption σ (Except ε β)} {a : Except ε β} {tasks : List _}
      {results : List _} (hx : Gives I k x a) (h : Owes I toll n tasks results) :
      Owes I toll (k + toll + n) (x :: tasks) (a :: results)

/-- A pool on its way to collecting the results, at most `n` steps before the end. -/
structure Pending (I : σ → Prop) (results : List (Except ε β)) (n : Nat) (s : σ)
    (waiting running : List (Resumption σ (Except ε β))) (collected : List β) : Prop where
  inside : I s
  owes : ∃ k l first rest, Owes I 1 k running first ∧ Owes I 2 l waiting rest ∧
    results = collected.map .ok ++ (first ++ rest) ∧ n = k + l + 1

variable {I : σ → Prop} {toll n k : Nat} {results : List (Except ε β)}
  {tasks before after : List (Resumption σ (Except ε β))} {x y : Resumption σ (Except ε β)}

theorem Owes.concat {a : Except ε β} (h : Owes I toll n tasks results) (hx : Gives I k x a) :
    Owes I toll (n + (k + toll)) (tasks ++ [x]) (results ++ [a]) := by
  induction h with
  | nil =>
    have hone : Owes I toll (k + toll + 0) [x] [a] := .cons hx .nil
    rw [Nat.zero_add]
    exact hone
  | cons hy _ ih =>
    have hcons := Owes.cons hy ih
    rw [← Nat.add_assoc] at hcons
    exact hcons

/-- A step of a task among others brings its pool one step nearer to the end. -/
theorem Owes.advance {move : σ → σ} {next : σ → Resumption σ (Except ε β)} {s : σ} (hs : I s)
    (h : Owes I toll n (before ++ .step move next :: after) results) :
    I (move s) ∧ ∃ m < n, Owes I toll m (before ++ next s :: after) results := by
  induction before generalizing n results with
  | nil =>
    cases h with
    | cons hx h =>
      cases hx with
      | step hmove hnext => exact ⟨hmove s hs, _, by omega, .cons (hnext s hs) h⟩
  | cons y before ih =>
    cases h with
    | cons hy h =>
      obtain ⟨hmove, m, hm, howes⟩ := ih h
      exact ⟨hmove, _, by omega, .cons hy howes⟩

/-! ## Results one after another -/

theorem mapM_ok (collected : List β) :
    (collected.map Except.ok).mapM id = (Except.ok collected : Except ε (List β)) := by
  induction collected with
  | nil => rfl
  | cons b collected ih =>
    rw [List.map_cons, List.mapM_cons, ih]
    rfl

theorem mapM_error (collected : List β) (e : ε) (rest : List (Except ε β)) :
    (collected.map Except.ok ++ Except.error e :: rest).mapM id
      = (Except.error e : Except ε (List β)) := by
  induction collected with
  | nil =>
    rw [List.map_nil, List.nil_append, List.mapM_cons]
    rfl
  | cons b collected ih =>
    rw [List.map_cons, List.cons_append, List.mapM_cons, ih]
    rfl

/-! ## Runs -/

variable {width : Nat} {s : σ} {waiting running : List (Resumption σ (Except ε β))}
  {collected : List β} {u : Pool σ ε β}

/-- What one step does to a pool on its way: it brings it nearer to the end, or the pool returns
the result of the tasks one after another. -/
theorem Pending.step (h : Pending I results n s waiting running collected)
    (hstep : Step width (active s waiting running collected) u) :
    u.result? = some (results.mapM id) ∨
      ∃ m < n, ∃ s waiting running collected, u = active s waiting running collected ∧
        Pending I results m s waiting running collected := by
  obtain ⟨hs, k, l, first, rest, hrunning, hwaiting, rfl, rfl⟩ := h
  cases hstep with
  | start hroom =>
    cases hwaiting with
    | @cons k' l' _ a _ rest hx hwaiting =>
      refine .inr ⟨_, ?_, _, _, _, _, rfl, hs, _, _, _, _, hrunning.concat hx, hwaiting, ?_, rfl⟩
      · omega
      · simp only [List.append_assoc, List.singleton_append]
  | advance =>
    obtain ⟨hmove, m, hm, howes⟩ := hrunning.advance hs
    exact .inr ⟨_, by omega, _, _, _, _, rfl, hmove, _, _, _, _, howes, hwaiting, rfl, rfl⟩
  | collect =>
    cases hrunning with
    | cons hx hrunning =>
      cases hx
      refine .inr ⟨_, ?_, _, _, _, _, rfl, hs, _, _, _, _, hrunning, hwaiting, ?_, rfl⟩
      · omega
      · simp only [List.map_append, List.map_cons, List.map_nil, List.append_assoc,
          List.cons_append, List.nil_append]
  | fail =>
    cases hrunning with
    | cons hx hrunning =>
      cases hx
      left
      rw [List.cons_append, mapM_error]
      rfl
  | finish =>
    cases hrunning
    cases hwaiting
    left
    rw [List.append_nil, List.append_nil, mapM_ok]
    rfl

/-- A pool with room for a task can always go on until it returns. -/
theorem exists_step (hwidth : 0 < width) (s : σ)
    (waiting running : List (Resumption σ (Except ε β))) (collected : List β) :
    ∃ u, Step width (active s waiting running collected) u := by
  cases running with
  | nil =>
    cases waiting with
    | nil => exact ⟨_, .finish⟩
    | cons x waiting => exact ⟨_, .start hwidth⟩
  | cons x running =>
    cases x with
    | done r =>
      cases r with
      | ok b => exact ⟨_, .collect⟩
      | error e => exact ⟨_, .fail⟩
    | step move next =>
      have hstep : Step width (active s waiting ([] ++ .step move next :: running) collected)
          (active (move s) waiting ([] ++ next s :: running) collected) := .advance
      exact ⟨_, hstep⟩

theorem Pending.inevitable (hwidth : 0 < width)
    (h : Pending I results n s waiting running collected) :
    Inevitable (Step width) (fun u => u.result? = some (results.mapM id))
      (active s waiting running collected) := by
  induction n using Nat.strongRecOn generalizing s waiting running collected with
  | ind n ih =>
    refine .later (exists_step hwidth s waiting running collected) fun u hstep => ?_
    rcases h.step hstep with hresult | ⟨m, hm, s, waiting, running, collected, rfl, hpending⟩
    · exact .now hresult
    · exact ih m hm hpending

theorem exists_owes {α : Type} {items : List α} {task : α → Resumption σ (Except ε β)}
    {result : α → Except ε β} (h : ∀ a ∈ items, ∃ n, Gives I n (task a) (result a)) :
    ∃ n, Owes I 2 n (items.map task) (items.map result) := by
  induction items with
  | nil => exact ⟨0, .nil⟩
  | cons a items ih =>
    obtain ⟨k, hk⟩ := h a List.mem_cons_self
    obtain ⟨n, hn⟩ := ih fun b hb => h b (List.mem_cons_of_mem a hb)
    exact ⟨_, .cons hk hn⟩

/-- Whatever the order of its steps, a pool whose tasks give their results among each other returns
what they give one after another: all results in the order of the tasks, or the first error. -/
theorem inevitable {α : Type} (hwidth : 0 < width) {items : List α}
    {task : α → Resumption σ (Except ε β)} {result : α → Except ε β}
    (h : ∀ a ∈ items, ∃ n, Gives I n (task a) (result a)) (hs : I s) :
    Inevitable (Step width) (fun u => u.result? = some (items.mapM result))
      (active s (items.map task) [] []) := by
  obtain ⟨n, hn⟩ := exists_owes h
  have hpending : Pending I (items.map result) (0 + n + 1) s (items.map task) [] [] :=
    ⟨hs, 0, n, [], items.map result, .nil, hn, rfl, rfl⟩
  have hresults : (items.map result).mapM id = items.mapM result := by
    rw [List.mapM_map]
    rfl
  have hinevitable := hpending.inevitable hwidth
  rw [hresults] at hinevitable
  exact hinevitable

end Pool

end SchemaInstaller
