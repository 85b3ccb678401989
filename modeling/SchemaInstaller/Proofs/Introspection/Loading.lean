import SchemaInstaller.Proofs.Introspection.Pool
import SchemaInstaller.Proofs.Introspection.Runs

/-!
# Loading several tables at a time

Tables may be loaded at the same time: while the catalog works on a call for one of them, calls for
others go on (`Introspector.tablesPool`). If each call has an answer of its own, whatever is asked
for before and meanwhile (`Introspector.Steady`), that is not seen in the result: in whatever order
the loads proceed and end, the tables are those that are loaded one after another, in the order of
the catalog, or the error is the one that would stop those loads first
(`Introspector.tables_in_any_order`).
-/

namespace SchemaInstaller

open Resumption

namespace Introspector

variable {σ : Type}

/-- The introspector for a catalog that does nothing else between a call and its answer. -/
def atomic (i : Introspector (Resumption σ)) : Introspector (StateM σ) where
  catalog := ⟨fun call => (i.catalog.answer call).alone⟩
  options := i.options
  isCancelled := i.isCancelled.alone
  now := i.now.alone

/-- Every call has an answer of its own and comes to it whatever else is asked for, and nothing
cancels the run, as long as the catalog is in a state of which `I` holds. -/
structure Steady (i : Introspector (Resumption σ)) (I : σ → Prop) : Prop where
  answers : ∀ {α : Type} (call : CatalogCall α), ∃ n a, Gives I n (i.catalog.answer call) a
  uncancelled : ∃ n, Gives I n i.isCancelled false

/-! ## Loading -/

variable {m : Type → Type} [Monad m]

/-- What is read before any table is: the name of the database, and the relations to load. -/
def listing (i : Introspector m) (tablePrefix : String) : Run m (String × List RelationRow) := do
  i.checkpoint
  let database ← i.database
  let relations ← i.ask (.listRelations .baseTable)
  return (database, relations.filter fun r => startsWith tablePrefix r.name)

theorem tables_eq [LawfulMonad m] (i : Introspector m) (tablePrefix : String) :
    i.tables tablePrefix =
      i.listing tablePrefix >>= fun l => l.2.mapM (i.loadTable tablePrefix l.1) := by
  unfold tables listing
  simp only [bind_assoc, pure_bind]

/-- The task of loading one table. -/
def loadTask (i : Introspector (Resumption σ)) (tablePrefix database : String)
    (relation : RelationRow) : Resumption σ (Except Error Table) := do
  return (← (i.loadTable tablePrefix database relation).run.run (some database)).1

/-- The pool of all loads, once the relations are known. -/
def tablesPool (i : Introspector (Resumption σ)) (tablePrefix : String) (db : Option String)
    (s : σ) : Pool σ Error Table :=
  match ((i.atomic.listing tablePrefix).run.run db).run s with
  | ((.ok (database, relations), _), s) =>
    .active s (relations.map (i.loadTask tablePrefix database)) [] []
  | ((.error e, _), s) => .returned s (.error e)

end Introspector

/-! ## Loading alone and among others -/

namespace Run

variable {σ α β : Type} {I : σ → Prop}

theorem run_bind_ok {x : Run (StateM σ) α} {f : α → Run (StateM σ) β} {a : α}
    {db db' : Option String} {s s' : σ} (h : (x.run.run db).run s = ((.ok a, db'), s')) :
    ((x >>= f).run.run db).run s = ((f a).run.run db').run s' := by
  rw [ExceptT.run_bind, StateT.run_bind, StateT.run_bind, h]
  rfl

theorem run_bind_error {x : Run (StateM σ) α} {f : α → Run (StateM σ) β} {e : Error}
    {db db' : Option String} {s s' : σ} (h : (x.run.run db).run s = ((.error e, db'), s')) :
    ((x >>= f).run.run db).run s = ((.error e, db'), s') := by
  rw [ExceptT.run_bind, StateT.run_bind, StateT.run_bind, h]
  rfl

/-- A run alone and a run among others give `r`, whatever state they find, and change what is known
of the database in no way. -/
structure Agree (I : σ → Prop) (x : Run (StateM σ) α) (y : Run (Resumption σ) α)
    (r : Except Error α) : Prop where
  alone : ∀ db s, I s → ∃ s', I s' ∧ (x.run.run db).run s = ((r, db), s')
  among : ∀ db, ∃ n, Gives I n (y.run.run db) (r, db)

/-- The two runs give the same. -/
def Agreed (I : σ → Prop) (x : Run (StateM σ) α) (y : Run (Resumption σ) α) : Prop :=
  ∃ r, Agree I x y r

/-- Nothing but a value or an error. -/
theorem agreed_result (r : Except Error α) :
    Agreed I (ExceptT.mk (pure r)) (ExceptT.mk (pure r)) :=
  ⟨r, fun _ s hs => ⟨s, hs, rfl⟩, fun db => ⟨0, .done 0 (r, db)⟩⟩

/-- What a run does besides asking. -/
theorem agreed_lift {n : Nat} {x : Resumption σ α} {a : α} (h : Gives I n x a) :
    Agreed I (liftM x.alone) (liftM x) := by
  refine ⟨.ok a, fun db s hs => ?_, fun db => ?_⟩
  · obtain ⟨s', hs', hrun⟩ := h.alone hs
    have hlift : ((ExceptT.run (liftM x.alone : Run (StateM σ) α)).run db).run s =
      ((.ok (x.alone.run s).1, db), (x.alone.run s).2) := rfl
    refine ⟨s', hs', ?_⟩
    rw [hlift, hrun]
  · exact ⟨n + 0 + 0, (h.bind (.done 0 (a, db))).bind (.done 0 (Except.ok a, db))⟩

theorem Agreed.bind {x : Run (StateM σ) α} {y : Run (Resumption σ) α} {f : α → Run (StateM σ) β}
    {g : α → Run (Resumption σ) β} (hx : Agreed I x y) (h : ∀ a, Agreed I (f a) (g a)) :
    Agreed I (x >>= f) (y >>= g) := by
  obtain ⟨e | a, hx⟩ := hx
  · refine ⟨.error e, fun db s hs => ?_, fun db => ?_⟩
    · obtain ⟨s', hs', hrun⟩ := hx.alone db s hs
      exact ⟨s', hs', run_bind_error hrun⟩
    · obtain ⟨n, hn⟩ := hx.among db
      exact ⟨n + 0, hn.bind (.done 0 (Except.error e, db))⟩
  · obtain ⟨r, hr⟩ := h a
    refine ⟨r, fun db s hs => ?_, fun db => ?_⟩
    · obtain ⟨s', hs', hrun⟩ := hx.alone db s hs
      obtain ⟨t, ht, hrest⟩ := hr.alone db s' hs'
      exact ⟨t, ht, (run_bind_ok hrun).trans hrest⟩
    · obtain ⟨n, hn⟩ := hx.among db
      obtain ⟨k, hk⟩ := hr.among db
      exact ⟨n + k, hn.bind hk⟩

/-- Whatever comes of it, the run leaves the catalog in a state of which `I` holds. -/
def Within (I : σ → Prop) (x : Run (StateM σ) α) : Prop :=
  Meets (fun _ s => I s) x (fun _ _ s => I s) fun _ _ s => I s

theorem Agreed.within {x : Run (StateM σ) α} {y : Run (Resumption σ) α} (h : Agreed I x y) :
    Within I x := by
  obtain ⟨r, hr⟩ := h
  intro db s hs
  obtain ⟨s', hs', hrun⟩ := hr.alone db s hs
  rw [hrun]
  cases r <;> exact hs'

/-- Runs over a list give what their items give, in the order of the items. -/
theorem exists_run_mapM {f : α → Run (StateM σ) β} {result : α → Except Error β}
    (h : ∀ a db s, I s → ∃ s', I s' ∧ ((f a).run.run db).run s = ((result a, db), s'))
    (l : List α) (db : Option String) {s : σ} (hs : I s) :
    ∃ s', ((l.mapM f).run.run db).run s = ((l.mapM result, db), s') := by
  induction l generalizing s with
  | nil => exact ⟨s, rfl⟩
  | cons a l ih =>
    obtain ⟨s', hs', hrun⟩ := h a db s hs
    rw [List.mapM_cons, List.mapM_cons]
    cases hresult : result a with
    | error e =>
      rw [hresult] at hrun
      exact ⟨s', run_bind_error hrun⟩
    | ok b =>
      rw [hresult] at hrun
      obtain ⟨t, ht⟩ := ih hs'
      refine ⟨t, (run_bind_ok hrun).trans ?_⟩
      cases htail : l.mapM result with
      | error e =>
        rw [htail] at ht
        exact run_bind_error ht
      | ok bs =>
        rw [htail] at ht
        exact run_bind_ok ht

end Run

namespace Introspector

open Run

variable {σ : Type} {i : Introspector (Resumption σ)} {I : σ → Prop}

theorem Steady.ask (hi : i.Steady I) {α : Type} (call : CatalogCall α) :
    Agreed I (i.atomic.ask call) (i.ask call) := by
  obtain ⟨n, r, hn⟩ := hi.answers call
  refine ⟨r, fun db s hs => ?_, fun db => ?_⟩
  · obtain ⟨s', hs', hrun⟩ := hn.alone hs
    have hask : ((i.atomic.ask call).run.run db).run s =
      ((((i.catalog.answer call).alone.run s).1, db),
        ((i.catalog.answer call).alone.run s).2) := rfl
    refine ⟨s', hs', ?_⟩
    rw [hask, hrun]
  · exact ⟨n + 0, hn.bind (.done 0 (r, db))⟩

theorem Steady.checkpoint (hi : i.Steady I) : Agreed I i.atomic.checkpoint i.checkpoint := by
  obtain ⟨n, hn⟩ := hi.uncancelled
  refine (agreed_lift hn).bind fun cancelled => ?_
  cases cancelled with
  | true => exact agreed_result (.error .cancelled)
  | false => exact agreed_result (.ok ())

theorem Steady.seedData (hi : i.Steady I) (table : String) :
    Agreed I (i.atomic.seedData table) (i.seedData table) := by
  unfold Introspector.seedData Introspector.seedRows
  have hoptions : i.atomic.options = i.options := rfl
  rw [hoptions]
  cases i.options.includeSeedData with
  | false => exact agreed_result (.ok ([], 0))
  | true =>
    refine (hi.checkpoint.bind fun _ => hi.ask _).bind fun rows => ?_
    split
    · exact agreed_result (.ok (rows, i.options.defaultRowLimit))
    · exact agreed_result (.ok _)

theorem Steady.loadTable (hi : i.Steady I) (tablePrefix database : String)
    (relation : RelationRow) :
    Agreed I (i.atomic.loadTable tablePrefix database relation)
      (i.loadTable tablePrefix database relation) := by
  have hpart : ∀ {α β : Type} (call : CatalogCall α) (f : α → β),
      Agreed I (do return f (← i.atomic.ask call)) (do return f (← i.ask call)) :=
    fun call f => (hi.ask call).bind fun a => agreed_result (.ok (f a))
  refine hi.checkpoint.bind fun _ => (hpart _ _).bind fun columns => ?_
  refine (hpart _ _).bind fun indexes => (hpart _ _).bind fun constraints => ?_
  refine (hpart _ _).bind fun foreignKeys => (hi.seedData _).bind fun seed => ?_
  exact agreed_result (.ok _)

/-- Reading what there is to load leaves the catalog in a state of which `I` holds. -/
theorem Steady.within_listing (hi : i.Steady I) (tablePrefix : String) :
    Within I (i.atomic.listing tablePrefix) := by
  have hdatabase : Within I i.atomic.database := by
    refine meets_get.bind fun known => ?_
    cases known with
    | some name => exact meets_pure fun _ _ hs => hs.2
    | none =>
      refine Meets.bind (fun db s hs => (hi.ask .databaseName).within db s hs.2) fun name => ?_
      have hset : Within I (set (some name) : Run (StateM σ) PUnit) := meets_set fun _ _ hs => hs
      exact hset.bind fun _ => meets_pure fun _ _ hs => hs
  refine hi.checkpoint.within.bind fun _ => hdatabase.bind fun database => ?_
  exact (hi.ask _).within.bind fun relations => meets_pure fun _ _ hs => hs

/-! ## Loading in any order -/

/-- However the loads of several tables take turns, and whichever of them end or fail first, they
come to an end, and to that of loading the tables one after another: with all tables in the order
of the catalog, or with the error of the first of them that fails. -/
theorem tables_in_any_order (hi : i.Steady I) {s : σ} (hs : I s) (tablePrefix : String)
    (db : Option String) :
    Inevitable (Pool.Step (max i.options.parallelTables 1))
      (fun u => u.result? = some (((i.atomic.tables tablePrefix).run.run db).run s).1.1)
      (i.tablesPool tablePrefix db s) := by
  have hlisting := hi.within_listing tablePrefix db s hs
  rw [tables_eq]
  unfold tablesPool
  rcases hrun : ((i.atomic.listing tablePrefix).run.run db).run s with ⟨⟨e | ⟨d, rs⟩, db'⟩, s'⟩
  · rw [run_bind_error hrun]
    exact .now rfl
  · rw [hrun] at hlisting
    choose result hresult using hi.loadTable tablePrefix d
    obtain ⟨t, ht⟩ := exists_run_mapM (fun r => (hresult r).alone) rs db' hlisting
    rw [run_bind_ok hrun, ht]
    refine Pool.inevitable (by omega) (fun r _ => ?_) hlisting
    obtain ⟨n, hn⟩ := (hresult r).among (some d)
    exact ⟨n + 0, hn.bind (.done 0 (result r))⟩

/-- What a catalog of a quarry says: the sand has no foreign keys to be seen, and the clay, which
comes later, has not even columns. -/
def quarryAnswer : {α : Type} → CatalogCall α → Except Error α
  | _, .databaseName => .ok "quarry"
  | _, .listRelations .baseTable =>
    .ok [⟨"wp_stone", none⟩, ⟨"log", none⟩, ⟨"wp_sand", none⟩, ⟨"wp_clay", none⟩]
  | _, .listRelations .view => .ok []
  | _, .showColumns table =>
    if table = "wp_clay" then .error (.introspection table "table is locked") else .ok []
  | _, .showIndex _ => .ok []
  | _, .tableConstraints _ => .ok []
  | _, .foreignKeys table =>
    if table = "wp_sand" then .error (.introspection table "no permission") else .ok []
  | _, .selectRows _ _ => .ok []
  | _, .showCreateView _ => .ok ""
  | _, .listProcedures => .ok []
  | _, .showCreateProcedure _ => .ok ""
  | _, .showTriggers => .ok []

/-- The catalog of the quarry; its state is the number of calls under way, each of which begins in
one step and is answered in another. -/
def quarryIntrospector : Introspector (Resumption Nat) where
  catalog := ⟨fun call => do
    ofState (modify (· + 1))
    ofState (modify (· - 1))
    return quarryAnswer call⟩
  options := { IntrospectionOptions.standard with parallelTables := 3 }
  isCancelled := pure false
  now := pure .epoch

theorem quarryIntrospector_steady : quarryIntrospector.Steady fun _ => True where
  answers call := by
    have hmove : ∀ x : StateM Nat PUnit, Gives (fun _ => True) 1 (ofState x) PUnit.unit :=
      fun x => gives_ofState (fun _ _ => trivial) fun _ _ => rfl
    exact ⟨1 + (1 + 0), _, (hmove _).bind ((hmove _).bind (.done 0 (quarryAnswer call)))⟩
  uncancelled := ⟨0, .done 0 false⟩

/-- The loads of all three tables are under way at the same time, and that of the clay fails
earlier, but it is always the sand that is complained of. -/
theorem quarryIntrospector_fails :
    Inevitable (Pool.Step 3)
      (fun u => u.result? = some (.error (.introspection "wp_sand" "no permission")))
      (quarryIntrospector.tablesPool "wp_" none 0) := by
  have hsand : (((quarryIntrospector.atomic.tables "wp_").run.run none).run 0).1.1 =
      .error (.introspection "wp_sand" "no permission") := rfl
  have hinevitable := tables_in_any_order quarryIntrospector_steady (s := 0) trivial "wp_" none
  rw [hsand] at hinevitable
  exact hinevitable

end Introspector

end SchemaInstaller
