import SchemaInstaller.Proofs.Introspection.Runs

/-!
# The name of the database

An introspector may be asked for one thing after another. What its catalog answers when it is asked
for the name of the database is remembered (`Asked`), which changes nothing about what comes out
(`remembered_perform`). As long as the name is not known every operation that needs it asks for it,
once (`meets_perform`); as soon as it is known it is not asked for again, and every full name is made
of it (`knowing_perform`). A sequence of operations thus asks until it is answered and no longer, one
operation at a time (`exists_asking`), and its results have one name at most (`database_kept`).
-/

namespace SchemaInstaller

open Run

/-! ## Operations -/

/-- What an introspector can be asked for: everything under its own prefix, or all objects of one
kind under another. -/
inductive Operation
  | introspect
  | tables (tablePrefix : String)
  | views (tablePrefix : String)
  | procedures (tablePrefix : String)
  | triggers (tablePrefix : String)
  deriving Repr, DecidableEq

/-- Whether an operation looks first of all whether it is to stop. Listings of tables and of
triggers do; the others ask for the name of the database before. -/
def Operation.looksFirst : Operation → Bool
  | tables _ | triggers _ => true
  | introspect | views _ | procedures _ => false

/-- What an operation gives. -/
inductive Findings
  | manifest (m : Manifest)
  | tables (ts : List Table)
  | views (vs : List View)
  | procedures (rs : List Procedure)
  | triggers (gs : List Trigger)
  deriving Repr, DecidableEq

/-- Every full name is the name of a database, a point and the name that the source has. -/
def Findings.QualifiedBy (database : String) : Findings → Prop
  | manifest m =>
    (∀ t ∈ m.tables, t.fullName = database ++ "." ++ t.sourceName)
      ∧ (∀ v ∈ m.views, v.fullName = database ++ "." ++ v.sourceName)
      ∧ (∀ r ∈ m.storedProcedures, r.fullName = database ++ "." ++ r.sourceName)
      ∧ ∀ g ∈ m.triggers, g.fullName = database ++ "." ++ g.sourceName
  | tables ts => ∀ t ∈ ts, t.fullName = database ++ "." ++ t.sourceName
  | views vs => ∀ v ∈ vs, v.fullName = database ++ "." ++ v.sourceName
  | procedures rs => ∀ r ∈ rs, r.fullName = database ++ "." ++ r.sourceName
  | triggers gs => ∀ g ∈ gs, g.fullName = database ++ "." ++ g.sourceName

namespace Introspector

section Perform

variable {m : Type → Type} [Monad m]

/-- One operation. -/
def perform (i : Introspector m) : Operation → Run m Findings
  | .introspect => .manifest <$> i.introspect
  | .tables p => .tables <$> i.tables p
  | .views p => .views <$> i.views p
  | .procedures p => .procedures <$> i.procedures p
  | .triggers p => .triggers <$> i.triggers p

/-- Operations one after another. An error ends its own operation and not those behind it. -/
def performAll (i : Introspector m) (ops : List Operation) :
    StateT (Option String) m (List (Except Error Findings)) :=
  ops.mapM fun op => (i.perform op).run

end Perform

end Introspector

/-! ## What has been asked -/

/-- The state of a catalog, and what it has answered so far to the question for the name of the
database. -/
structure Asked (σ : Type) where
  state : σ
  answers : List (Except Error String)

/-- The answer to that question, if a call is that question. -/
def CatalogCall.nameAnswer : {α : Type} → CatalogCall α → Except Error α → List (Except Error String)
  | _, .databaseName, answer => [answer]
  | _, _, _ => []

/-- A catalog whose answers to that question are remembered. -/
def Catalog.asked (c : Catalog (StateM σ)) : Catalog (StateM (Asked σ)) where
  answer call := fun w =>
    let (result, s) := (c.answer call).run w.state
    (result, ⟨s, w.answers ++ call.nameAnswer result⟩)

namespace Introspector

/-- An introspector of such a catalog. -/
def asking (i : Introspector (StateM σ)) : Introspector (StateM (Asked σ)) where
  catalog := i.catalog.asked
  options := i.options
  isCancelled := fun w => let (b, s) := i.isCancelled.run w.state; (b, ⟨s, w.answers⟩)
  now := fun w => let (t, s) := i.now.run w.state; (t, ⟨s, w.answers⟩)

theorem asking_isCancelled (i : Introspector (StateM σ)) (w : Asked σ) :
    i.asking.isCancelled.run w =
      ((i.isCancelled.run w.state).1, ⟨(i.isCancelled.run w.state).2, w.answers⟩) := rfl

/-- An operation ends at a checkpoint in front of everything else. -/
def EndsAtOnce (i : Introspector (StateM σ)) (s : σ) (op : Operation) : Prop :=
  op.looksFirst = true ∧ (i.isCancelled.run s).1 = true

end Introspector

/-! ### Remembering changes nothing -/

/-- The same run with answers remembered: the same value or error, the same name, the same state of
the catalog. -/
def Run.Remembered (x : Run (StateM σ) α) (y : Run (StateM (Asked σ)) α) : Prop :=
  ∀ db w, (x.run.run db).run w.state =
    (let r := (y.run.run db).run w; (r.1, r.2.state))

namespace Run

variable {σ α β : Type}

theorem remembered_pure (a : α) : Remembered (pure a : Run (StateM σ) α) (pure a) := fun _ _ => rfl

theorem Remembered.bind {x : Run (StateM σ) α} {y : Run (StateM (Asked σ)) α}
    {f : α → Run (StateM σ) β} {g : α → Run (StateM (Asked σ)) β} (hx : Remembered x y)
    (hf : ∀ a, Remembered (f a) (g a)) : Remembered (x >>= f) (y >>= g) := by
  intro db w
  have hx := hx db w
  rw [ExceptT.run_bind, StateT.run_bind, StateT.run_bind, ExceptT.run_bind, StateT.run_bind,
    StateT.run_bind, hx]
  rcases (y.run.run db).run w with ⟨⟨_ | a, db'⟩, w'⟩
  · rfl
  · exact hf a db' w'

theorem Remembered.map {x : Run (StateM σ) α} {y : Run (StateM (Asked σ)) α} (f : α → β)
    (hx : Remembered x y) : Remembered (f <$> x) (f <$> y) := by
  rw [map_eq_pure_bind, map_eq_pure_bind]
  exact hx.bind fun a => remembered_pure (f a)

theorem remembered_mapM {f : α → Run (StateM σ) β} {g : α → Run (StateM (Asked σ)) β}
    (h : ∀ a, Remembered (f a) (g a)) (l : List α) : Remembered (l.mapM f) (l.mapM g) := by
  induction l with
  | nil => exact remembered_pure []
  | cons a l ih =>
    rw [List.mapM_cons, List.mapM_cons]
    exact (h a).bind fun b => ih.bind fun bs => remembered_pure (b :: bs)

end Run

namespace Introspector

variable {σ α : Type} (i : Introspector (StateM σ))

theorem remembered_ask (call : CatalogCall α) : Remembered (i.ask call) (i.asking.ask call) :=
  fun _ _ => rfl

theorem remembered_checkpoint : Remembered i.checkpoint i.asking.checkpoint := by
  have hlook : Remembered (liftM i.isCancelled : Run (StateM σ) Bool)
      (liftM i.asking.isCancelled) := fun _ _ => rfl
  refine hlook.bind fun stop => ?_
  cases stop <;> exact fun _ _ => rfl

theorem remembered_database : Remembered i.database i.asking.database := by
  have hget : Remembered (get : Run (StateM σ) (Option String)) get := fun _ _ => rfl
  refine hget.bind fun known => ?_
  cases known with
  | some name => exact remembered_pure name
  | none => exact (i.remembered_ask _).bind fun name => fun _ _ => rfl

theorem remembered_seedData (table : String) :
    Remembered (i.seedData table) (i.asking.seedData table) := by
  have hrows : Remembered (i.seedRows table i.options.defaultRowLimit)
      (i.asking.seedRows table i.options.defaultRowLimit) :=
    i.remembered_checkpoint.bind fun _ => i.remembered_ask _
  have hoptions : i.asking.options = i.options := rfl
  unfold seedData
  rw [hoptions]
  split
  · refine hrows.bind fun rows => ?_
    split <;> exact remembered_pure _
  · exact remembered_pure _

theorem remembered_loadTable (p database : String) (relation : RelationRow) :
    Remembered (i.loadTable p database relation) (i.asking.loadTable p database relation) := by
  have hcolumns := (i.remembered_ask (.showColumns relation.name)).bind fun rows =>
    remembered_pure (rows.map Introspection.column)
  have hindexes := (i.remembered_ask (.showIndex relation.name)).bind fun rows =>
    remembered_pure (Introspection.indexes rows)
  have hconstraints := (i.remembered_ask (.tableConstraints relation.name)).bind fun rows =>
    remembered_pure (Introspection.constraints rows)
  have hforeignKeys := (i.remembered_ask (.foreignKeys relation.name)).bind fun rows =>
    remembered_pure (Introspection.foreignKeys p rows)
  refine i.remembered_checkpoint.bind fun _ => hcolumns.bind fun columns => ?_
  refine hindexes.bind fun indexes => hconstraints.bind fun constraints => ?_
  refine hforeignKeys.bind fun foreignKeys => (i.remembered_seedData _).bind fun seeds => ?_
  exact remembered_pure _

theorem remembered_tables (p : String) : Remembered (i.tables p) (i.asking.tables p) :=
  i.remembered_checkpoint.bind fun _ => i.remembered_database.bind fun database =>
    (i.remembered_ask _).bind fun _ => remembered_mapM (i.remembered_loadTable p database) _

theorem remembered_views (p : String) : Remembered (i.views p) (i.asking.views p) :=
  i.remembered_database.bind fun _ => (i.remembered_ask _).bind fun _ =>
    remembered_mapM (fun _ => i.remembered_checkpoint.bind fun _ =>
      (i.remembered_ask _).bind fun _ => remembered_pure _) _

theorem remembered_procedures (p : String) :
    Remembered (i.procedures p) (i.asking.procedures p) :=
  i.remembered_database.bind fun _ => (i.remembered_ask _).bind fun _ =>
    remembered_mapM (fun _ => i.remembered_checkpoint.bind fun _ =>
      (i.remembered_ask _).bind fun _ => remembered_pure _) _

theorem remembered_triggers (p : String) : Remembered (i.triggers p) (i.asking.triggers p) :=
  i.remembered_checkpoint.bind fun _ => i.remembered_database.bind fun _ =>
    (i.remembered_ask _).bind fun _ => remembered_pure _

theorem remembered_introspect : Remembered i.introspect i.asking.introspect := by
  have hnow : Remembered (liftM i.now : Run (StateM σ) Instant) (liftM i.asking.now) :=
    fun _ _ => rfl
  refine i.remembered_database.bind fun _ => (i.remembered_tables _).bind fun _ => ?_
  refine (i.remembered_views _).bind fun _ => (i.remembered_procedures _).bind fun _ => ?_
  exact (i.remembered_triggers _).bind fun _ => hnow.bind fun _ => remembered_pure _

/-- An operation comes out the same when answers are remembered. -/
theorem remembered_perform (op : Operation) : Remembered (i.perform op) (i.asking.perform op) := by
  cases op with
  | introspect => exact i.remembered_introspect.map _
  | tables p => exact (i.remembered_tables p).map _
  | views p => exact (i.remembered_views p).map _
  | procedures p => exact (i.remembered_procedures p).map _
  | triggers p => exact (i.remembered_triggers p).map _

end Introspector

/-! ## The name is known -/

/-- The name of the database is known, and these are the answers there were. -/
def Knows (name : String) (answers : List (Except Error String)) : Condition (Asked σ) :=
  fun db w => db = some name ∧ w.answers = answers

/-- A run that does not ask for a known name, and gives values of which `P` holds. -/
def Run.Knowing (name : String) (x : Run (StateM (Asked σ)) α) (P : α → Prop) : Prop :=
  ∀ answers, Meets (Knows name answers) x (fun a db w => Knows name answers db w ∧ P a)
    fun _ => Knows name answers

namespace Run

variable {σ α β : Type} {name : String}

theorem knowing_pure {P : α → Prop} {a : α} (h : P a) :
    Knowing name (pure a : Run (StateM (Asked σ)) α) P :=
  fun _ => meets_pure fun _ _ hw => ⟨hw, h⟩

theorem Knowing.bind {x : Run (StateM (Asked σ)) α} {f : α → Run (StateM (Asked σ)) β}
    {P : α → Prop} {Q : β → Prop} (hx : Knowing name x P) (hf : ∀ a, P a → Knowing name (f a) Q) :
    Knowing name (x >>= f) Q :=
  fun answers => (hx answers).bind fun a => meets_of_imp fun ha => hf a ha answers

/-- A run of whose value nothing is said. -/
theorem Knowing.next {x : Run (StateM (Asked σ)) α} {f : α → Run (StateM (Asked σ)) β}
    {Q : β → Prop} (hx : Knowing name x fun _ => True) (hf : ∀ a, Knowing name (f a) Q) :
    Knowing name (x >>= f) Q :=
  hx.bind fun a _ => hf a

theorem Knowing.map {x : Run (StateM (Asked σ)) α} {f : α → β} {P : α → Prop} {Q : β → Prop}
    (hx : Knowing name x P) (h : ∀ a, P a → Q (f a)) : Knowing name (f <$> x) Q :=
  fun answers => Meets.map ((hx answers).imp fun a _ _ hw => ⟨hw.1, h a hw.2⟩)

theorem knowing_mapM {P : β → Prop} {f : α → Run (StateM (Asked σ)) β}
    (h : ∀ a, Knowing name (f a) P) (l : List α) :
    Knowing name (l.mapM f) fun bs => ∀ b ∈ bs, P b :=
  fun answers => meets_mapM_forall l fun a => h a answers

end Run

namespace Introspector

variable {σ α β : Type} {i : Introspector (StateM σ)} {name : String}

/-- A call other than the question for the name. -/
theorem knowing_ask {call : CatalogCall α} (h : ∀ answer, call.nameAnswer answer = []) :
    Knowing name (i.asking.ask call) fun _ => True := by
  refine fun answers => meets_ask fun db w hw => ?_
  have hrun : (i.asking.catalog.answer call).run w = (((i.catalog.answer call).run w.state).1,
      ⟨((i.catalog.answer call).run w.state).2,
        w.answers ++ call.nameAnswer ((i.catalog.answer call).run w.state).1⟩) := rfl
  rw [hrun, h, List.append_nil]
  rcases (i.catalog.answer call).run w.state with ⟨_ | a, s⟩
  · exact hw
  · exact ⟨hw, trivial⟩

theorem knowing_checkpoint : Knowing name i.asking.checkpoint fun _ => True := by
  refine fun answers => (meets_checkpoint fun db w hw => ?_).imp fun _ _ _ hw => ⟨hw, trivial⟩
  rw [asking_isCancelled]
  rcases i.isCancelled.run w.state with ⟨_ | _, s⟩ <;> exact hw

theorem knowing_now :
    Knowing name (liftM i.asking.now : Run (StateM (Asked σ)) Instant) fun _ => True :=
  fun _ => meets_lift fun _ _ hw => ⟨hw, trivial⟩

theorem knowing_database : Knowing name i.asking.database (· = name) := by
  refine fun answers => meets_get.bind fun known => ?_
  cases known with
  | none =>
    rintro db w ⟨rfl, hdb, -⟩
    cases hdb
  | some known =>
    refine meets_pure fun db w hw => ⟨hw.2, ?_⟩
    exact Option.some.inj (hw.1.trans hw.2.1)

theorem knowing_seedData (table : String) :
    Knowing name (i.asking.seedData table) fun _ => True := by
  unfold seedData
  split
  · refine Knowing.next (knowing_checkpoint.next fun _ => knowing_ask fun _ => rfl) fun rows => ?_
    split <;> exact knowing_pure trivial
  · exact knowing_pure trivial

/-! ### Objects -/

theorem knowing_loadTable (p database : String) (relation : RelationRow) :
    Knowing name (i.asking.loadTable p database relation) fun t =>
      t.fullName = database ++ "." ++ t.sourceName := by
  have hcolumns : Knowing name (i.asking.columns relation.name) fun _ => True :=
    (knowing_ask fun _ => rfl).next fun _ => knowing_pure trivial
  have hindexes : Knowing name (i.asking.indexes relation.name) fun _ => True :=
    (knowing_ask fun _ => rfl).next fun _ => knowing_pure trivial
  have hconstraints : Knowing name (i.asking.constraints relation.name) fun _ => True :=
    (knowing_ask fun _ => rfl).next fun _ => knowing_pure trivial
  have hforeignKeys : Knowing name (i.asking.foreignKeys relation.name p) fun _ => True :=
    (knowing_ask fun _ => rfl).next fun _ => knowing_pure trivial
  refine knowing_checkpoint.next fun _ => hcolumns.next fun columns => ?_
  refine hindexes.next fun indexes => hconstraints.next fun constraints => ?_
  refine hforeignKeys.next fun foreignKeys => (knowing_seedData _).next fun seeds => ?_
  exact knowing_pure rfl

theorem knowing_loadView (p database : String) (relation : RelationRow) :
    Knowing name (i.asking.loadView p database relation) fun v =>
      v.fullName = database ++ "." ++ v.sourceName :=
  knowing_checkpoint.next fun _ => (knowing_ask fun _ => rfl).next fun _ => knowing_pure rfl

theorem knowing_loadProcedure (p database procedure : String) :
    Knowing name (i.asking.loadProcedure p database procedure) fun r =>
      r.fullName = database ++ "." ++ r.sourceName :=
  knowing_checkpoint.next fun _ => (knowing_ask fun _ => rfl).next fun _ => knowing_pure rfl

/-! ## Operations and the name -/

/-- A run that asks for the name of the database first, if it is not known. -/
def Asks (i : Introspector (StateM σ)) (x : Run (StateM (Asked σ)) α) (Q : String → α → Prop) :
    Prop :=
  ∃ f, x = i.asking.database >>= f ∧ ∀ name, Knowing name (f name) (Q name)

variable {x : Run (StateM (Asked σ)) α} {Q : String → α → Prop}

theorem Asks.knowing (hx : i.Asks x Q) : Knowing name x (Q name) := by
  obtain ⟨f, rfl, hf⟩ := hx
  refine knowing_database.bind ?_
  rintro _ rfl
  exact hf _

theorem Asks.map {f : α → β} {P : String → β → Prop} (hx : i.Asks x Q)
    (h : ∀ name a, Q name a → P name (f a)) : i.Asks (f <$> x) P := by
  obtain ⟨g, rfl, hg⟩ := hx
  exact ⟨fun name => f <$> g name, map_bind _ _ _, fun name => (hg name).map (h name)⟩

/-- The name is not known, and these are the answers there were. -/
def Lacks (answers : List (Except Error String)) : Condition (Asked σ) :=
  fun db w => db = none ∧ w.answers = answers

/-- The name has been asked for once more: it is known now, or the answer was the error `e`. -/
def Refused (answers : List (Except Error String)) (e : Error) : Condition (Asked σ) := fun db w =>
  Lacks (answers ++ [.error e]) db w ∨ ∃ name, Knows name (answers ++ [.ok name]) db w

theorem meets_database (answers : List (Except Error String)) :
    Meets (Lacks answers) i.asking.database (fun name => Knows name (answers ++ [.ok name]))
      (Refused answers) := by
  refine meets_get.bind fun known => ?_
  cases known with
  | some known =>
    rintro db w ⟨rfl, hdb, -⟩
    cases hdb
  | none =>
    have hask : Meets (fun db w => none = db ∧ Lacks answers db w)
        (i.asking.ask .databaseName) (fun name => Lacks (answers ++ [.ok name]))
        (Refused answers) := by
      refine meets_ask ?_
      rintro db w ⟨-, rfl, rfl⟩
      have hrun : (i.asking.catalog.answer .databaseName).run w =
          (((i.catalog.answer .databaseName).run w.state).1,
            ⟨((i.catalog.answer .databaseName).run w.state).2,
              w.answers ++ [((i.catalog.answer .databaseName).run w.state).1]⟩) := rfl
      rw [hrun]
      rcases (i.catalog.answer .databaseName).run w.state with ⟨e | name, s⟩
      · exact .inl ⟨rfl, rfl⟩
      · exact ⟨rfl, rfl⟩
    exact hask.bind fun name => (meets_set fun _ _ hw => ⟨rfl, hw.2⟩).bind fun _ =>
      meets_pure fun _ _ hw => hw

/-- Where the name is not known it is asked for once. -/
theorem Asks.meets (hx : i.Asks x Q) (answers : List (Except Error String)) :
    Meets (Lacks answers) x (fun a db w => ∃ name, Knows name (answers ++ [.ok name]) db w ∧
      Q name a) (Refused answers) := by
  obtain ⟨f, rfl, hf⟩ := hx
  refine (meets_database answers).bind fun name => ?_
  have hrest : Meets (Knows name (answers ++ [.ok name])) (f name)
      (fun a db w => Knows name (answers ++ [.ok name]) db w ∧ Q name a) (Refused answers) :=
    (hf name _).imp_failed fun _ _ _ hw => .inr ⟨name, hw⟩
  exact hrest.imp fun _ _ _ hw => ⟨name, hw⟩

theorem asks_tables (p : String) : ∃ x, i.asking.tables p = (i.asking.checkpoint >>= fun _ => x) ∧
    i.Asks x fun name ts => ∀ t ∈ ts, t.fullName = name ++ "." ++ t.sourceName :=
  ⟨_, rfl, _, rfl, fun name => (knowing_ask fun _ => rfl).next fun _ =>
    knowing_mapM (knowing_loadTable p name) _⟩

theorem asks_views (p : String) : i.Asks (i.asking.views p) fun name vs =>
    ∀ v ∈ vs, v.fullName = name ++ "." ++ v.sourceName :=
  ⟨_, rfl, fun name => (knowing_ask fun _ => rfl).next fun _ =>
    knowing_mapM (knowing_loadView p name) _⟩

theorem asks_procedures (p : String) : i.Asks (i.asking.procedures p) fun name rs =>
    ∀ r ∈ rs, r.fullName = name ++ "." ++ r.sourceName :=
  ⟨_, rfl, fun name => (knowing_ask fun _ => rfl).next fun _ =>
    knowing_mapM (knowing_loadProcedure p name) _⟩

theorem asks_triggers (p : String) :
    ∃ x, i.asking.triggers p = (i.asking.checkpoint >>= fun _ => x) ∧
      i.Asks x fun name ts => ∀ t ∈ ts, t.fullName = name ++ "." ++ t.sourceName := by
  refine ⟨_, rfl, _, rfl, fun name => (knowing_ask fun _ => rfl).next fun rows => knowing_pure ?_⟩
  exact List.forall_mem_map.2 fun _ _ => rfl

/-- Everything that an introspection finds is qualified by the name that it asks for. -/
theorem asks_introspect :
    i.Asks i.asking.introspect fun name m => (Findings.manifest m).QualifiedBy name := by
  refine ⟨_, rfl, fun name => ?_⟩
  obtain ⟨x, htables, hx⟩ := asks_tables (i := i) i.asking.options.tablePrefix
  obtain ⟨y, htriggers, hy⟩ := asks_triggers (i := i) i.asking.options.tablePrefix
  refine Knowing.bind (htables ▸ knowing_checkpoint.next fun _ => hx.knowing) fun ts hts => ?_
  refine (asks_views _).knowing.bind fun vs hvs => (asks_procedures _).knowing.bind fun rs hrs => ?_
  refine Knowing.bind (htriggers ▸ knowing_checkpoint.next fun _ => hy.knowing) fun gs hgs => ?_
  exact knowing_now.next fun now => knowing_pure ⟨hts, hvs, hrs, hgs⟩

/-- An operation asks for the name first, but for the checkpoint that some have in front of that. -/
theorem asks_perform (op : Operation) :
    ∃ x, i.Asks x (fun name f => f.QualifiedBy name) ∧
      i.asking.perform op = if op.looksFirst then i.asking.checkpoint >>= fun _ => x else x := by
  cases op with
  | introspect => exact ⟨_, asks_introspect.map (f := Findings.manifest) fun _ _ h => h, rfl⟩
  | tables p =>
    obtain ⟨x, htables, hx⟩ := asks_tables (i := i) p
    refine ⟨_, hx.map (f := Findings.tables) fun _ _ h => h, ?_⟩
    exact (congrArg (Findings.tables <$> ·) htables).trans (map_bind _ _ _)
  | views p => exact ⟨_, (asks_views p).map (f := Findings.views) fun _ _ h => h, rfl⟩
  | procedures p => exact ⟨_, (asks_procedures p).map (f := Findings.procedures) fun _ _ h => h, rfl⟩
  | triggers p =>
    obtain ⟨x, htriggers, hx⟩ := asks_triggers (i := i) p
    refine ⟨_, hx.map (f := Findings.triggers) fun _ _ h => h, ?_⟩
    exact (congrArg (Findings.triggers <$> ·) htriggers).trans (map_bind _ _ _)

/-! ## One operation -/

/-- Where the name is known, no operation asks for it. -/
theorem knowing_perform (op : Operation) :
    Knowing name (i.asking.perform op) fun f => f.QualifiedBy name := by
  obtain ⟨x, hx, hop⟩ := asks_perform (i := i) op
  rw [hop]
  split
  · exact knowing_checkpoint.next fun _ => hx.knowing
  · exact hx.knowing

/-- Where the name is not known, an operation that goes on to need it asks for it once. -/
theorem meets_perform {op : Operation} {s : σ} (h : ¬i.EndsAtOnce s op)
    (answers : List (Except Error String)) :
    Meets (fun db w => db = none ∧ w = ⟨s, answers⟩) (i.asking.perform op)
      (fun f db w => ∃ name, Knows name (answers ++ [.ok name]) db w ∧ f.QualifiedBy name)
      (Refused answers) := by
  obtain ⟨x, hx, hop⟩ := asks_perform (i := i) op
  rw [hop]
  split
  · next hlooks =>
    have hgoes : (i.isCancelled.run s).1 = false := by simpa [EndsAtOnce, hlooks] using h
    refine Meets.bind (meets_checkpoint ?_) fun _ => hx.meets answers
    rintro db w ⟨rfl, rfl⟩
    rw [asking_isCancelled, hgoes]
    exact ⟨rfl, rfl⟩
  · rintro db w ⟨rfl, rfl⟩
    exact hx.meets answers none _ ⟨rfl, rfl⟩

/-- An operation that ends at once has asked for nothing. -/
theorem meets_perform_of_endsAtOnce {op : Operation} {s : σ} (h : i.EndsAtOnce s op)
    (answers : List (Except Error String)) :
    Meets (fun db w => db = none ∧ w = ⟨s, answers⟩) (i.asking.perform op) (fun _ _ _ => False)
      (fun e db w => e = .cancelled ∧ Lacks answers db w) := by
  obtain ⟨x, hx, hop⟩ := asks_perform (i := i) op
  rw [hop, if_pos h.1]
  have hstop : Meets (fun db w => db = none ∧ w = ⟨s, answers⟩) i.asking.checkpoint
      (fun _ _ _ => False) (fun e db w => e = .cancelled ∧ Lacks answers db w) := by
    refine meets_checkpoint ?_
    rintro db w ⟨rfl, rfl⟩
    rw [asking_isCancelled, h.2]
    exact ⟨rfl, rfl, rfl⟩
  exact hstop.bind fun _ _ _ hw => hw.elim

/-! ## Sequences of operations -/

/-- What there was to answer when so much is known: errors, and the name behind them if it is
known. -/
def Recorded (known : Option String) (answers : List (Except Error String)) : Prop :=
  ∃ failures : List Error, answers = failures.map .error ++ known.toList.map .ok

theorem Recorded.failed {answers : List (Except Error String)} (h : Recorded none answers)
    (e : Error) : Recorded none (answers ++ [.error e]) := by
  obtain ⟨failures, rfl⟩ := h
  exact ⟨failures ++ [e], by simp⟩

theorem Recorded.learned {answers : List (Except Error String)} (h : Recorded none answers)
    (name : String) : Recorded (some name) (answers ++ [.ok name]) := by
  obtain ⟨failures, rfl⟩ := h
  exact ⟨failures, by simp⟩

/-- How an operation changes what is known and what has been answered. -/
inductive Asking (i : Introspector (StateM σ)) (op : Operation) (w : Asked σ) :
    Option String → Except Error Findings → Option String → List (Except Error String) → Prop
  | known {name : String} {outcome : Except Error Findings}
    (h : ∀ f, outcome = .ok f → f.QualifiedBy name) :
    Asking i op w (some name) outcome (some name) w.answers
  | ended (h : i.EndsAtOnce w.state op) :
    Asking i op w none (.error .cancelled) none w.answers
  | failed (h : ¬i.EndsAtOnce w.state op) (e : Error) :
    Asking i op w none (.error e) none (w.answers ++ [.error e])
  | learned (h : ¬i.EndsAtOnce w.state op) {name : String} {outcome : Except Error Findings}
    (hf : ∀ f, outcome = .ok f → f.QualifiedBy name) :
    Asking i op w none outcome (some name) (w.answers ++ [.ok name])

/-- The step of one operation. -/
theorem exists_asking (i : Introspector (StateM σ)) (op : Operation) (db : Option String)
    (w : Asked σ) : ∃ outcome db' w', ((i.asking.perform op).run.run db).run w = ((outcome, db'), w') ∧
      Asking i op w db outcome db' w'.answers := by
  cases db with
  | some name =>
    have hknowing : Knowing name (i.asking.perform op) fun f => f.QualifiedBy name :=
      knowing_perform op
    have hstep := hknowing w.answers (some name) w ⟨rfl, rfl⟩
    rcases hrun : ((i.asking.perform op).run.run (some name)).run w with ⟨⟨e | f, db'⟩, w'⟩
    · rw [hrun] at hstep
      obtain ⟨rfl, hw⟩ := hstep
      exact ⟨_, _, w', rfl, hw ▸ .known nofun⟩
    · rw [hrun] at hstep
      obtain ⟨⟨rfl, hw⟩, hf⟩ := hstep
      exact ⟨_, _, w', rfl, hw ▸ .known (by rintro _ ⟨⟩; exact hf)⟩
  | none =>
    by_cases hends : i.EndsAtOnce w.state op
    · have hstep := meets_perform_of_endsAtOnce hends w.answers none w ⟨rfl, rfl⟩
      rcases hrun : ((i.asking.perform op).run.run none).run w with ⟨⟨e | f, db'⟩, w'⟩
      · rw [hrun] at hstep
        obtain ⟨rfl, rfl, hw⟩ := hstep
        exact ⟨_, _, w', rfl, hw ▸ .ended hends⟩
      · rw [hrun] at hstep
        exact hstep.elim
    · have hstep := meets_perform hends w.answers none w ⟨rfl, rfl⟩
      rcases hrun : ((i.asking.perform op).run.run none).run w with ⟨⟨e | f, db'⟩, w'⟩
      · rw [hrun] at hstep
        rcases hstep with ⟨rfl, hw⟩ | ⟨name, rfl, hw⟩
        · exact ⟨_, _, w', rfl, hw ▸ .failed hends e⟩
        · exact ⟨_, _, w', rfl, hw ▸ .learned hends nofun⟩
      · rw [hrun] at hstep
        obtain ⟨name, ⟨rfl, hw⟩, hf⟩ := hstep
        exact ⟨_, _, w', rfl, hw ▸ .learned hends (by rintro _ ⟨⟩; exact hf)⟩

theorem Asking.recorded {op : Operation} {w : Asked σ} {db db' : Option String}
    {outcome : Except Error Findings} {answers : List (Except Error String)}
    (h : Asking i op w db outcome db' answers) (hw : Recorded db w.answers) :
    Recorded db' answers ∧ (∀ name, db = some name → db' = some name) ∧
      ∀ f, outcome = .ok f → ∃ name, db' = some name ∧ f.QualifiedBy name := by
  cases h with
  | known h => exact ⟨hw, fun _ h => h, fun f hf => ⟨_, rfl, h f hf⟩⟩
  | ended => exact ⟨hw, nofun, nofun⟩
  | failed _ e => exact ⟨hw.failed e, nofun, nofun⟩
  | learned _ hf => exact ⟨hw.learned _, nofun, fun f hok => ⟨_, rfl, hf f hok⟩⟩

/-- The first operation, and the others from where it ends. -/
theorem performAll_cons (i : Introspector (StateM σ)) (op : Operation) (ops : List Operation)
    (db : Option String) (s : σ) : ((i.performAll (op :: ops)).run db).run s =
      (let first := ((i.perform op).run.run db).run s
      let rest := ((i.performAll ops).run first.1.2).run first.2
      ((first.1.1 :: rest.1.1, rest.1.2), rest.2)) := by
  unfold performAll
  rw [List.mapM_cons]
  rfl

/-- A sequence of operations comes out the same when answers are remembered. -/
theorem performAll_eq (i : Introspector (StateM σ)) (ops : List Operation) (db : Option String)
    (w : Asked σ) : ((i.performAll ops).run db).run w.state =
      (let r := ((i.asking.performAll ops).run db).run w; (r.1, r.2.state)) := by
  induction ops generalizing db w with
  | nil => rfl
  | cons op ops ih =>
    have hop := i.remembered_perform op db w
    simp only [performAll_cons, hop, ih]

/-- A sequence of operations from any point on. -/
theorem recorded_performAll (ops : List Operation) {db : Option String} {w : Asked σ}
    (h : Recorded db w.answers) :
    ∃ outcomes db' w', ((i.asking.performAll ops).run db).run w = ((outcomes, db'), w') ∧
      Recorded db' w'.answers ∧ (∀ name, db = some name → db' = some name) ∧
      ∀ f, .ok f ∈ outcomes → ∃ name, db' = some name ∧ f.QualifiedBy name := by
  induction ops generalizing db w with
  | nil => exact ⟨[], db, w, rfl, h, fun _ h => h, nofun⟩
  | cons op ops ih =>
    obtain ⟨outcome, db₁, w₁, hop, hasking⟩ := exists_asking i op db w
    obtain ⟨h₁, hkept₁, hf₁⟩ := hasking.recorded h
    obtain ⟨outcomes, db₂, w₂, hops, h₂, hkept₂, hf₂⟩ := ih h₁
    refine ⟨outcome :: outcomes, db₂, w₂, ?_, h₂, fun name h => hkept₂ name (hkept₁ name h), ?_⟩
    · simp only [performAll_cons, hop, hops]
    · intro f hf
      rcases List.mem_cons.1 hf with rfl | hf
      · obtain ⟨name, hname, hqualified⟩ := hf₁ f rfl
        exact ⟨name, hkept₂ name hname, hqualified⟩
      · exact hf₂ f hf

/-- The name of the database is asked for until there is an answer, and then kept. After any
sequence of operations the answers so far are errors, and behind them the name that is known, if it
is; and every full name in what the operations have given is made of that name. The next operation,
whichever it is, does not ask where the name is known or where it ends at its first checkpoint;
otherwise it asks exactly once, and ends with the error if that is the answer. All this is so of the
operations as they are, which come out the same when the answers are not remembered. -/
theorem database_kept (i : Introspector (StateM σ)) (s : σ) (ops : List Operation) :
    ∃ outcomes db w, ((i.asking.performAll ops).run none).run ⟨s, []⟩ = ((outcomes, db), w) ∧
      ((i.performAll ops).run none).run s = ((outcomes, db), w.state) ∧
      (∃ failures : List Error, w.answers = failures.map .error ++ db.toList.map .ok) ∧
      (∀ f, .ok f ∈ outcomes → ∃ name, db = some name ∧ f.QualifiedBy name) ∧
      ∀ op, ∃ outcome db' w', ((i.asking.perform op).run.run db).run w = ((outcome, db'), w') ∧
        ((i.perform op).run.run db).run w.state = ((outcome, db'), w'.state) ∧
        (db.isSome ∨ i.EndsAtOnce w.state op → w'.answers = w.answers) ∧
        (db = none → ¬i.EndsAtOnce w.state op → ∃ answer, w'.answers = w.answers ++ [answer] ∧
          ∀ e, answer = .error e → outcome = .error e) := by
  have hstart : Recorded none [] := ⟨[], rfl⟩
  obtain ⟨outcomes, db, w, hrun, hrecorded, -, hqualified⟩ :=
    recorded_performAll (i := i) (w := ⟨s, []⟩) ops hstart
  have hplain := i.performAll_eq ops none ⟨s, []⟩
  rw [hrun] at hplain
  refine ⟨outcomes, db, w, hrun, hplain, hrecorded, hqualified, fun op => ?_⟩
  obtain ⟨outcome, db', w', hop, hasking⟩ := exists_asking i op db w
  have hplain := i.remembered_perform op db w
  rw [hop] at hplain
  refine ⟨outcome, db', w', hop, hplain, ?_⟩
  generalize w'.answers = answers at hasking
  cases hasking with
  | known => exact ⟨fun _ => rfl, nofun⟩
  | ended hends => exact ⟨fun _ => rfl, fun _ hgoes => absurd hends hgoes⟩
  | failed hgoes e =>
    refine ⟨fun h => absurd (h.resolve_left nofun) hgoes, fun _ _ => ⟨_, rfl, ?_⟩⟩
    rintro _ ⟨⟩
    rfl
  | learned hgoes =>
    refine ⟨fun h => absurd (h.resolve_left nofun) hgoes, fun _ _ => ⟨_, rfl, ?_⟩⟩
    rintro _ ⟨⟩

/-- A catalog without objects that answers the question for the name of its database from a list.
-/
def emptyCatalog : Catalog (StateM (List (Except Error String))) where
  answer
    | .databaseName => fun s => (s.headD (.error .cancelled), s.tail)
    | .listRelations _ | .showColumns _ | .showIndex _ | .tableConstraints _ | .foreignKeys _
    | .selectRows _ _ | .listProcedures | .showTriggers => pure (.ok [])
    | .showCreateView _ | .showCreateProcedure _ => pure (.ok "")

/-- The second operation asks again, and the others keep what it was told. -/
example :
    (((asking ⟨emptyCatalog, .standard, pure false, pure .epoch⟩).performAll
      [.views "wp_", .triggers "wp_", .tables "wp_", .introspect]).run none).run
        ⟨[.error (.connectivity "connection lost" "database_name"), .ok "guild", .ok "union"], []⟩
      |>.2.answers = [.error (.connectivity "connection lost" "database_name"), .ok "guild"] := by
  rfl

end Introspector

end SchemaInstaller
