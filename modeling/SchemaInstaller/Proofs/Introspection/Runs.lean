import SchemaInstaller.Introspection.Introspector

/-!
# Runs over a state

A run of an introspector whose catalog has a state is described by what holds before it, what holds
after it when it gives a value, and what holds after it when an error ends it (`Run.Meets`). There
is one rule for each way in which runs are put together. An error of a part ends the whole, so a run
and its parts share what holds after an error.
-/

namespace SchemaInstaller.Run

variable {σ α β : Type}

/-- A condition on the name of the database, as far as it is known, and on the state of the catalog.
-/
abbrev Condition (σ : Type) := Option String → σ → Prop

/-- If `before` holds, the run ends so that `after` holds of its value or `failed` of its error. -/
def Meets (before : Condition σ) (x : Run (StateM σ) α) (after : α → Condition σ)
    (failed : Error → Condition σ) : Prop :=
  ∀ db s, before db s → match (x.run.run db).run s with
    | ((.ok a, db'), s') => after a db' s'
    | ((.error e, db'), s') => failed e db' s'

variable {before : Condition σ} {failed : Error → Condition σ}

theorem Meets.imp {x : Run (StateM σ) α} {after after' : α → Condition σ}
    (hx : Meets before x after failed) (h : ∀ a db s, after a db s → after' a db s) :
    Meets before x after' failed := by
  intro db s hs
  have hx := hx db s hs
  rcases hr : (x.run.run db).run s with ⟨⟨_ | a, db'⟩, s'⟩
  · rw [hr] at hx
    exact hx
  · rw [hr] at hx
    exact h a db' s' hx

theorem Meets.imp_failed {x : Run (StateM σ) α} {after : α → Condition σ}
    {failed' : Error → Condition σ} (hx : Meets before x after failed)
    (h : ∀ e db s, failed e db s → failed' e db s) : Meets before x after failed' := by
  intro db s hs
  have hx := hx db s hs
  rcases hr : (x.run.run db).run s with ⟨⟨e | _, db'⟩, s'⟩
  · rw [hr] at hx
    exact h e db' s' hx
  · rw [hr] at hx
    exact hx

/-- A condition that does not change may be assumed. -/
theorem meets_of_imp {x : Run (StateM σ) α} {after : α → Condition σ} {p : Prop}
    (h : p → Meets before x after failed) :
    Meets (fun db s => before db s ∧ p) x after failed :=
  fun db s hs => h hs.2 db s hs.1

theorem meets_pure {after : α → Condition σ} {a : α}
    (h : ∀ db s, before db s → after a db s) : Meets before (pure a) after failed :=
  fun db s hs => h db s hs

/-- Reading the name of the database tells what is known of it. -/
theorem meets_get : Meets before get (fun known db s => known = db ∧ before db s) failed :=
  fun _ _ hs => ⟨rfl, hs⟩

theorem meets_set {known : Option String} {after : Condition σ}
    (h : ∀ db s, before db s → after known s) :
    Meets before (set known) (fun _ => after) failed :=
  fun db s hs => h db s hs

theorem Meets.bind {x : Run (StateM σ) α} {f : α → Run (StateM σ) β} {between : α → Condition σ}
    {after : β → Condition σ} (hx : Meets before x between failed)
    (hf : ∀ a, Meets (between a) (f a) after failed) : Meets before (x >>= f) after failed := by
  intro db s hs
  have hx := hx db s hs
  rw [ExceptT.run_bind, StateT.run_bind, StateT.run_bind]
  rcases h : (x.run.run db).run s with ⟨⟨_ | a, db'⟩, s'⟩
  · rw [h] at hx
    exact hx
  · rw [h] at hx
    exact hf a db' s' hx

theorem Meets.map {x : Run (StateM σ) α} {after : β → Condition σ} {f : α → β}
    (hx : Meets before x (fun a => after (f a)) failed) : Meets before (f <$> x) after failed := by
  rw [map_eq_pure_bind]
  exact hx.bind fun _ => meets_pure fun _ _ hs => hs

/-- What the state does besides answering calls. -/
theorem meets_lift {x : StateM σ α} {after : α → Condition σ}
    (h : ∀ db s, before db s → after (x.run s).1 db (x.run s).2) :
    Meets before (liftM x) after failed :=
  fun db s hs => h db s hs

/-- A run over a list keeps what each of its steps keeps, and gives values like theirs. -/
theorem meets_mapM_forall {P : β → Prop} {f : α → Run (StateM σ) β} (l : List α)
    (h : ∀ a, Meets before (f a) (fun b db s => before db s ∧ P b) failed) :
    Meets before (l.mapM f) (fun bs db s => before db s ∧ ∀ b ∈ bs, P b) failed := by
  induction l with
  | nil => exact meets_pure fun _ _ hs => ⟨hs, nofun⟩
  | cons a l ih =>
    rw [List.mapM_cons]
    refine (h a).bind fun b => meets_of_imp fun hb => ih.bind fun bs => meets_pure fun _ _ hs => ?_
    exact ⟨hs.1, List.forall_mem_cons.2 ⟨hb, hs.2⟩⟩

theorem meets_mapM {f : α → Run (StateM σ) β} (l : List α)
    (h : ∀ a, Meets before (f a) (fun _ => before) failed) :
    Meets before (l.mapM f) (fun _ => before) failed :=
  (meets_mapM_forall (P := fun _ => True) l fun a => (h a).imp fun _ _ _ hs => ⟨hs, trivial⟩).imp
    fun _ _ _ hs => hs.1

variable {i : Introspector (StateM σ)}

/-- A call ends as the catalog answers it. -/
theorem meets_ask {call : CatalogCall α} {after : α → Condition σ}
    (h : ∀ db s, before db s → match (i.catalog.answer call).run s with
      | (.ok a, s') => after a db s'
      | (.error e, s') => failed e db s') :
    Meets before (i.ask call) after failed := by
  intro db s hs
  have hrun : ((i.ask call).run.run db).run s =
      ((((i.catalog.answer call).run s).1, db), ((i.catalog.answer call).run s).2) := rfl
  have h := h db s hs
  rw [hrun]
  rcases hr : (i.catalog.answer call).run s with ⟨_ | a, s'⟩ <;> rw [hr] at h <;> exact h

/-- A run passes a checkpoint unless it is to stop. -/
theorem meets_checkpoint {after : Condition σ}
    (h : ∀ db s, before db s → match i.isCancelled.run s with
      | (true, s') => failed .cancelled db s'
      | (false, s') => after db s') :
    Meets before i.checkpoint (fun _ => after) failed := by
  intro db s hs
  have h := h db s hs
  unfold Introspector.checkpoint
  rw [ExceptT.run_bind, StateT.run_bind, StateT.run_bind]
  have hrun : ((ExceptT.run (liftM i.isCancelled : Run (StateM σ) Bool)).run db).run s =
      ((.ok (i.isCancelled.run s).1, db), (i.isCancelled.run s).2) := rfl
  rw [hrun]
  rcases hr : i.isCancelled.run s with ⟨_ | _, s'⟩ <;> rw [hr] at h <;> exact h

end SchemaInstaller.Run
