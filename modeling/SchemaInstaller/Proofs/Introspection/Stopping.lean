import SchemaInstaller.Proofs.Introspection.Runs

/-!
# Cancellation and failure stop a run

The calls to a catalog are watched: each is remembered with the error it failed with. Cancellation
is asked for when the call of a given number begins. Every part of an introspection keeps
`Informed`: no call has failed, and no guarded call has begun after cancellation (`Keeps`). A
checkpoint adds that cancellation has not been asked for (`Cleared`), which a guarded call needs and
any call uses up. An error ends the run at once (`Ended`). From these follow what is never called
after cancellation and which error a run returns (`Catalog.introspection_stops`).
-/

namespace SchemaInstaller

open Run

/-- The calls that do not begin once cancellation has been asked for. -/
def guardedCalls : List String :=
  ["list_relations:BASE TABLE", "show_columns", "select_rows", "show_create_view",
    "show_create_procedure", "show_triggers"]

/-- The name of a call, and the error if it failed. -/
structure CallRecord where
  name : String
  failure : Option Error
  deriving Repr, DecidableEq

/-- The state of a catalog, and the calls that have been made to it in their order. -/
structure Watched (σ : Type) where
  state : σ
  calls : List CallRecord
  deriving Repr, DecidableEq

namespace Catalog

/-- The error of an answer. -/
def failure? : Except Error α → Option Error
  | .ok _ => none
  | .error e => some e

/-- A catalog whose calls are remembered. -/
def watched (c : Catalog (StateM σ)) : Catalog (StateM (Watched σ)) where
  answer call := fun w =>
    let (result, s) := (c.answer call).run w.state
    (result, ⟨s, w.calls ++ [⟨call.name, failure? result⟩]⟩)

/-- The introspector of a watched catalog. Cancellation is asked for when the call of a number
begins, counting from one. The introspector loads one table after another. -/
def cancelledAt (c : Catalog (StateM σ)) (o : IntrospectionOptions) (now : Instant)
    (cancelAt : Option Nat) : Introspector (StateM (Watched σ)) where
  catalog := c.watched
  options := o
  isCancelled := fun w => (cancelAt.any (· ≤ w.calls.length), w)
  now := pure now

/-! ## What holds of the calls -/

/-- Cancellation has been asked for. -/
def Requested (cancelAt : Option Nat) (calls : List CallRecord) : Prop :=
  ∃ n, cancelAt = some n ∧ n ≤ calls.length

/-- No guarded call has begun after cancellation. -/
def Obeyed (cancelAt : Option Nat) (calls : List CallRecord) : Prop :=
  ∀ n, cancelAt = some n → ∀ r ∈ calls.drop n, r.name ∉ guardedCalls

/-- No call has failed. -/
def Succeeded (calls : List CallRecord) : Prop := ∀ r ∈ calls, r.failure = none

section Calls

variable {cancelAt : Option Nat} {calls : List CallRecord} {r : CallRecord}

theorem Obeyed.append (h : Obeyed cancelAt calls)
    (hr : r.name ∈ guardedCalls → ¬Requested cancelAt calls) : Obeyed cancelAt (calls ++ [r]) := by
  intro n hn x hx
  rw [List.drop_append, List.mem_append] at hx
  rcases hx with hx | hx
  · exact h n hn x hx
  · -- The new call is behind cancellation only if that was asked for before it.
    intro hguarded
    obtain rfl : x = r := List.mem_singleton.1 (List.mem_of_mem_drop hx)
    have hlt : calls.length < n := Nat.not_le.1 fun hle => hr hguarded ⟨n, hn, hle⟩
    rw [List.drop_eq_nil_of_le (by rw [List.length_singleton]; omega)] at hx
    cases hx

theorem Succeeded.append (h : Succeeded calls) (hr : r.failure = none) :
    Succeeded (calls ++ [r]) := by
  intro x hx
  rcases List.mem_append.1 hx with hx | hx
  · exact h x hx
  · obtain rfl := List.mem_singleton.1 hx
    exact hr

end Calls

/-! ## What holds along a run -/

/-- A run that goes on: no call has failed, and no guarded call has begun after cancellation. -/
structure Going (cancelAt : Option Nat) (w : Watched σ) : Prop where
  succeeded : Succeeded w.calls
  obeyed : Obeyed cancelAt w.calls

/-- A run that goes on and knows the name of the database. -/
def Informed (cancelAt : Option Nat) (db : Option String) (w : Watched σ) : Prop :=
  db.isSome ∧ Going cancelAt w

/-- Such a run when cancellation has not been asked for. -/
def Cleared (cancelAt : Option Nat) (db : Option String) (w : Watched σ) : Prop :=
  Informed cancelAt db w ∧ ¬Requested cancelAt w.calls

/-- A run whose last call was one of a name; if guarded, it began before cancellation. -/
def Answered (cancelAt : Option Nat) (name : String) (w : Watched σ) : Prop :=
  ∃ earlier, w.calls = earlier ++ [⟨name, none⟩] ∧
    (name ∈ guardedCalls → ¬Requested cancelAt earlier)

/-- A run that has made its last call, and has made it in time. -/
def Finished (cancelAt : Option Nat) (_ : Option String) (w : Watched σ) : Prop :=
  Going cancelAt w ∧ Answered cancelAt "show_triggers" w

/-- A run that an error has ended: it was cancelled after calls that succeeded, or its last call was
the first to fail. -/
structure Ended (cancelAt : Option Nat) (e : Error) (_ : Option String) (w : Watched σ) :
    Prop where
  obeyed : Obeyed cancelAt w.calls
  cause : e = .cancelled ∧ Requested cancelAt w.calls ∧ Succeeded w.calls ∨
    ∃ earlier name, w.calls = earlier ++ [⟨name, some e⟩] ∧ Succeeded earlier

/-- A part of a run that an error ends or that goes on as it was. -/
abbrev Keeps (cancelAt : Option Nat) (x : Run (StateM (Watched σ)) α) : Prop :=
  Meets (Informed cancelAt) x (fun _ => Informed cancelAt) (Ended cancelAt)

variable {σ α : Type} {c : Catalog (StateM σ)} {o : IntrospectionOptions} {now : Instant}
  {cancelAt : Option Nat}

theorem watched_answer_run (call : CatalogCall α) (w : Watched σ) :
    ((c.cancelledAt o now cancelAt).catalog.answer call).run w =
      (((c.answer call).run w.state).1, ⟨((c.answer call).run w.state).2,
        w.calls ++ [⟨call.name, failure? ((c.answer call).run w.state).1⟩]⟩) := rfl

/-- A call ends the run if it fails, and otherwise is remembered as the last. -/
theorem meets_call (known : Option String → Prop) {call : CatalogCall α}
    {before : Condition (Watched σ)}
    (h : ∀ db w, before db w → known db ∧ Going cancelAt w ∧
      (call.name ∈ guardedCalls → ¬Requested cancelAt w.calls)) :
    Meets before ((c.cancelledAt o now cancelAt).ask call)
      (fun _ db w => known db ∧ Going cancelAt w ∧ Answered cancelAt call.name w)
      (Ended cancelAt) := by
  refine meets_ask fun db w hw => ?_
  obtain ⟨hknown, hgoing, hpending⟩ := h db w hw
  rw [watched_answer_run]
  rcases (c.answer call).run w.state with ⟨e | a, s⟩
  · exact ⟨hgoing.obeyed.append hpending, .inr ⟨_, _, rfl, hgoing.succeeded⟩⟩
  · exact ⟨hknown, ⟨hgoing.succeeded.append rfl, hgoing.obeyed.append hpending⟩,
      _, rfl, hpending⟩

/-- A guarded call may follow a checkpoint. -/
theorem meets_guarded {call : CatalogCall α} :
    Meets (Cleared cancelAt) ((c.cancelledAt o now cancelAt).ask call)
      (fun _ => Informed cancelAt) (Ended cancelAt) :=
  (meets_call (fun db => db.isSome) fun _ _ hw => ⟨hw.1.1, hw.1.2, fun _ => hw.2⟩).imp
    fun _ _ _ hw => ⟨hw.1, hw.2.1⟩

/-- A call that is not guarded may be made at any time. -/
theorem keeps_ask (call : CatalogCall α) (h : call.name ∉ guardedCalls) :
    Keeps cancelAt ((c.cancelledAt o now cancelAt).ask call) :=
  (meets_call (fun db => db.isSome) fun _ _ hw => ⟨hw.1, hw.2, fun hg => absurd hg h⟩).imp
    fun _ _ _ hw => ⟨hw.1, hw.2.1⟩

/-- A run that passes a checkpoint has not been cancelled. -/
theorem meets_checkpoint_cleared :
    Meets (Informed cancelAt) (c.cancelledAt o now cancelAt).checkpoint
      (fun _ => Cleared cancelAt) (Ended cancelAt) := by
  refine meets_checkpoint fun db w hw => ?_
  have hrun : (c.cancelledAt o now cancelAt).isCancelled.run w =
      (cancelAt.any (· ≤ w.calls.length), w) := rfl
  rw [hrun]
  cases h : cancelAt.any (· ≤ w.calls.length) with
  | true =>
    obtain ⟨n, hn, hle⟩ := (Option.any_eq_true _ _).1 h
    exact ⟨hw.2.obeyed, .inl ⟨rfl, ⟨n, hn, of_decide_eq_true hle⟩, hw.2.succeeded⟩⟩
  | false =>
    refine ⟨hw, ?_⟩
    rintro ⟨n, rfl, hle⟩
    exact of_decide_eq_false h hle

/-- A known name of the database is not asked for again, so a checkpoint before it still holds after
it. -/
theorem meets_database {before : Condition (Watched σ)} (h : ∀ db w, before db w → db.isSome) :
    Meets before (c.cancelledAt o now cancelAt).database (fun _ => before) (Ended cancelAt) := by
  refine meets_get.bind fun known => ?_
  cases known with
  | none =>
    rintro db w ⟨rfl, hw⟩
    cases h none w hw
  | some name => exact meets_pure fun _ _ hw => hw.2

/-- The name of the database is asked for by the first call of all. -/
theorem meets_first_database :
    Meets (fun db w => db = none ∧ w.calls = []) (c.cancelledAt o now cancelAt).database
      (fun _ => Informed cancelAt) (Ended cancelAt) := by
  refine meets_get.bind fun known => ?_
  cases known with
  | some name =>
    rintro db w ⟨rfl, hdb, -⟩
    cases hdb
  | none =>
    have hcall : Meets (fun db (w : Watched σ) => none = db ∧ db = none ∧ w.calls = [])
        ((c.cancelledAt o now cancelAt).ask .databaseName)
        (fun _ _ w => True ∧ Going cancelAt w ∧ Answered cancelAt "database_name" w)
        (Ended cancelAt) := by
      refine meets_call (fun _ => True) fun db w hw => ⟨trivial, ⟨?_, ?_⟩, ?_⟩
      · rw [Succeeded, hw.2.2]
        simp
      · rw [Obeyed, hw.2.2]
        simp
      · exact fun h => absurd h (show "database_name" ∉ guardedCalls by decide)
    refine hcall.bind fun name => (meets_set fun db w hw => ?_).bind fun _ =>
      meets_pure fun _ _ hw => hw
    exact ⟨rfl, hw.2.1⟩

/-! ## Every part of a run -/

theorem meets_columns (table : String) :
    Meets (Cleared cancelAt) ((c.cancelledAt o now cancelAt).columns table)
      (fun _ => Informed cancelAt) (Ended cancelAt) :=
  meets_guarded.bind fun _ => meets_pure fun _ _ hw => hw

theorem keeps_indexes (table : String) :
    Keeps cancelAt ((c.cancelledAt o now cancelAt).indexes table) := by
  have h : "show_index" ∉ guardedCalls := by decide
  exact (keeps_ask (.showIndex table) h).bind fun _ => meets_pure fun _ _ hw => hw

theorem keeps_constraints (table : String) :
    Keeps cancelAt ((c.cancelledAt o now cancelAt).constraints table) := by
  have h : "table_constraints" ∉ guardedCalls := by decide
  exact (keeps_ask (.tableConstraints table) h).bind fun _ => meets_pure fun _ _ hw => hw

theorem keeps_foreignKeys (table p : String) :
    Keeps cancelAt ((c.cancelledAt o now cancelAt).foreignKeys table p) := by
  have h : "foreign_keys" ∉ guardedCalls := by decide
  exact (keeps_ask (.foreignKeys table) h).bind fun _ => meets_pure fun _ _ hw => hw

theorem keeps_seedData (table : String) :
    Keeps cancelAt ((c.cancelledAt o now cancelAt).seedData table) := by
  unfold Introspector.seedData
  split
  · refine (meets_checkpoint_cleared.bind fun _ => meets_guarded).bind fun rows => ?_
    split <;> exact meets_pure fun _ _ hw => hw
  · exact meets_pure fun _ _ hw => hw

theorem keeps_loadTable (p database : String) (relation : RelationRow) :
    Keeps cancelAt ((c.cancelledAt o now cancelAt).loadTable p database relation) := by
  refine meets_checkpoint_cleared.bind fun _ => (meets_columns _).bind fun columns => ?_
  refine (keeps_indexes _).bind fun indexes => (keeps_constraints _).bind fun constraints => ?_
  refine (keeps_foreignKeys _ _).bind fun foreignKeys => ?_
  exact (keeps_seedData _).bind fun seeds => meets_pure fun _ _ hw => hw

theorem keeps_tables (p : String) : Keeps cancelAt ((c.cancelledAt o now cancelAt).tables p) := by
  refine meets_checkpoint_cleared.bind fun _ => ?_
  refine (meets_database fun _ _ hw => hw.1.1).bind fun database => ?_
  exact meets_guarded.bind fun _ => meets_mapM _ (keeps_loadTable p database)

theorem keeps_loadView (p database : String) (relation : RelationRow) :
    Keeps cancelAt ((c.cancelledAt o now cancelAt).loadView p database relation) :=
  meets_checkpoint_cleared.bind fun _ => meets_guarded.bind fun _ => meets_pure fun _ _ hw => hw

theorem keeps_views (p : String) : Keeps cancelAt ((c.cancelledAt o now cancelAt).views p) := by
  have h : "list_relations:VIEW" ∉ guardedCalls := by decide
  refine (meets_database fun _ _ hw => hw.1).bind fun database => ?_
  exact (keeps_ask (.listRelations .view) h).bind fun _ => meets_mapM _ (keeps_loadView p database)

theorem keeps_loadProcedure (p database name : String) :
    Keeps cancelAt ((c.cancelledAt o now cancelAt).loadProcedure p database name) :=
  meets_checkpoint_cleared.bind fun _ => meets_guarded.bind fun _ => meets_pure fun _ _ hw => hw

theorem keeps_procedures (p : String) :
    Keeps cancelAt ((c.cancelledAt o now cancelAt).procedures p) := by
  have h : "list_procedures" ∉ guardedCalls := by decide
  refine (meets_database fun _ _ hw => hw.1).bind fun database => ?_
  exact (keeps_ask .listProcedures h).bind fun _ => meets_mapM _ (keeps_loadProcedure p database)

/-- The triggers are listed last, and no call comes between the checkpoint and their own. -/
theorem meets_triggers (p : String) :
    Meets (Informed cancelAt) ((c.cancelledAt o now cancelAt).triggers p)
      (fun _ => Finished cancelAt) (Ended cancelAt) := by
  refine meets_checkpoint_cleared.bind fun _ => ?_
  refine (meets_database fun _ _ hw => hw.1.1).bind fun database => ?_
  have hcall : Meets (Cleared cancelAt) ((c.cancelledAt o now cancelAt).ask .showTriggers)
      (fun _ _ w => True ∧ Going cancelAt w ∧ Answered cancelAt "show_triggers" w)
      (Ended cancelAt) :=
    meets_call (fun _ => True) fun _ _ hw => ⟨trivial, hw.1.2, fun _ => hw.2⟩
  exact hcall.bind fun _ => meets_pure fun _ _ hw => hw.2

variable (c o now cancelAt) in
theorem meets_introspect :
    Meets (fun db w => db = none ∧ w.calls = []) (c.cancelledAt o now cancelAt).introspect
      (fun _ => Finished cancelAt) (Ended cancelAt) := by
  refine meets_first_database.bind fun database => (keeps_tables _).bind fun tables => ?_
  refine (keeps_views _).bind fun views => (keeps_procedures _).bind fun procedures => ?_
  refine (meets_triggers _).bind fun triggers => ?_
  have hnow : Meets (Finished cancelAt) (liftM (c.cancelledAt o now cancelAt).now)
      (fun _ => Finished cancelAt) (Ended cancelAt) := meets_lift fun _ _ hw => hw
  exact hnow.bind fun _ => meets_pure fun _ _ hw => hw

/-! ## Whole runs -/

/-- A call is the last one, or it is among those before the last. -/
theorem eq_last_or_earlier {earlier later before : List CallRecord} {r x : CallRecord}
    (h : earlier ++ r :: later = before ++ [x]) :
    (later = [] ∧ r = x) ∨ ∃ rest, before = earlier ++ r :: rest := by
  rcases List.eq_nil_or_concat later with rfl | ⟨rest, y, rfl⟩
  · exact .inl ⟨rfl, (List.append_singleton_inj.1 h).2⟩
  · rw [List.concat_eq_append, ← List.cons_append, ← List.append_assoc] at h
    exact .inr ⟨rest, (List.append_singleton_inj.1 h).1.symm⟩

section Records

variable {w : Watched σ} {db : Option String} {e e' : Error} {earlier later : List CallRecord}
  {r : CallRecord}

/-- A run ends with an error only if it was to stop or a call has failed. -/
theorem cause_of_ended (h : Ended cancelAt e db w) :
    (e = .cancelled ∧ Requested cancelAt w.calls) ∨ w.calls.findSome? (·.failure) = some e := by
  rcases h.cause with ⟨rfl, hrequested, -⟩ | ⟨before, name, hcalls, hbefore⟩
  · exact .inl ⟨rfl, hrequested⟩
  · have hnone : before.findSome? (·.failure) = none := List.findSome?_eq_none_iff.2 hbefore
    exact .inr (by rw [hcalls, List.findSome?_append, hnone]; rfl)

/-- When an error has ended a run, a call that failed is the last one, and the error is its own. -/
theorem eq_of_ended (h : Ended cancelAt e db w) (hw : w.calls = earlier ++ r :: later)
    (hr : r.failure = some e') : later = [] ∧ e = e' := by
  have hmem : r ∈ w.calls := by
    rw [hw]
    exact List.mem_append_right _ List.mem_cons_self
  rcases h.cause with ⟨-, -, hsucceeded⟩ | ⟨before, name, hcalls, hbefore⟩
  · cases hr.symm.trans (hsucceeded r hmem)
  · rcases eq_last_or_earlier (hw.symm.trans hcalls) with ⟨hlater, rfl⟩ | ⟨rest, rfl⟩
    · exact ⟨hlater, Option.some.inj hr⟩
    · cases hr.symm.trans (hbefore r (List.mem_append_right _ List.mem_cons_self))

/-- A run that has finished was not cancelled before its last call, which lists the triggers. -/
theorem name_of_finished (h : Finished cancelAt db w) (hw : w.calls = earlier ++ r :: later)
    (hcancel : cancelAt = some (earlier.length + 1)) : r.name = "show_triggers" := by
  obtain ⟨-, before, hcalls, hpending⟩ := h
  rcases eq_last_or_earlier (hw.symm.trans hcalls) with ⟨-, rfl⟩ | ⟨rest, rfl⟩
  · rfl
  · refine absurd ⟨_, hcancel, ?_⟩ (hpending (by decide))
    rw [List.length_append, List.length_cons]
    omega

theorem not_guarded_of_obeyed (h : Obeyed cancelAt w.calls) (hw : w.calls = earlier ++ r :: later)
    (hcancel : cancelAt = some (earlier.length + 1)) : ∀ x ∈ later, x.name ∉ guardedCalls := by
  have hdrop : w.calls.drop (earlier.length + 1) = later := by
    rw [hw, ← List.drop_drop, List.drop_left]
    rfl
  exact hdrop ▸ h _ hcancel

end Records

/-- Whatever a catalog answers, cancellation and failure stop an introspection. Once a call has
begun at which cancellation is asked for, no guarded call begins, and unless that call is the last
one of all, the result is an error: that of the first call to fail, if one does, or that the run was
cancelled. A call that fails is the last one, and its error is the result. There is no other reason
for an error. -/
theorem introspection_stops (c : Catalog (StateM σ)) (o : IntrospectionOptions) (now : Instant)
    (cancelAt : Option Nat) (s : σ) :
    ∃ result w, (c.cancelledAt o now cancelAt).manifest.run ⟨s, []⟩ = (result, w) ∧
      (∀ earlier r later, w.calls = earlier ++ r :: later →
        cancelAt = some (earlier.length + 1) →
          (∀ x ∈ later, x.name ∉ guardedCalls) ∧
          (r.name ≠ "show_triggers" → ∃ e, result = .error e ∧
            (e = .cancelled ∨ w.calls.findSome? (·.failure) = some e))) ∧
      (∀ earlier r later e, w.calls = earlier ++ r :: later → r.failure = some e →
        later = [] ∧ result = .error e) ∧
      (∀ e, result = .error e → (e = .cancelled ∧ Requested cancelAt w.calls) ∨
        w.calls.findSome? (·.failure) = some e) := by
  have hends := meets_introspect c o now cancelAt none ⟨s, []⟩ ⟨rfl, rfl⟩
  have hrun : (c.cancelledAt o now cancelAt).manifest.run ⟨s, []⟩ =
      (let r := ((c.cancelledAt o now cancelAt).introspect.run.run none).run ⟨s, []⟩
      (r.1.1, r.2)) := rfl
  rcases h : ((c.cancelledAt o now cancelAt).introspect.run.run none).run ⟨s, []⟩
    with ⟨⟨e | m, db⟩, w⟩
  · rw [h] at hends hrun
    have hcause := cause_of_ended hends
    refine ⟨_, w, hrun, fun earlier r later hw hcancel => ⟨?_, fun _ => ⟨e, rfl, ?_⟩⟩, ?_, ?_⟩
    · exact not_guarded_of_obeyed hends.obeyed hw hcancel
    · exact hcause.imp_left And.left
    · intro earlier r later e' hw hr
      obtain ⟨hlater, rfl⟩ := eq_of_ended hends hw hr
      exact ⟨hlater, rfl⟩
    · rintro e' ⟨⟩
      exact hcause
  · rw [h] at hends hrun
    refine ⟨_, w, hrun, fun earlier r later hw hcancel => ⟨?_, fun hname => ?_⟩, ?_, ?_⟩
    · exact not_guarded_of_obeyed hends.1.obeyed hw hcancel
    · exact absurd (name_of_finished hends hw hcancel) hname
    · intro earlier r later e hw hr
      have hmem : r ∈ w.calls := hw ▸ List.mem_append_right _ List.mem_cons_self
      cases hr.symm.trans (hends.1.succeeded r hmem)
    · rintro e ⟨⟩

/-- A catalog of two tables that answers as many calls as its state says. -/
def harborCatalog : Catalog (StateM Nat) where
  answer {α} (call : CatalogCall α) := fun left =>
    let result : α := match call with
      | .databaseName => "harbor"
      | .listRelations .baseTable => [⟨"wp_berths", none⟩, ⟨"wp_ships", none⟩]
      | .listRelations .view => []
      | .showColumns _ => [⟨"id", "int(11)", "NO", "PRI", none, "", none⟩]
      | .showIndex _ => []
      | .tableConstraints _ => []
      | .foreignKeys _ => []
      | .selectRows _ _ => []
      | .showCreateView _ => ""
      | .listProcedures => []
      | .showCreateProcedure _ => ""
      | .showTriggers => []
    if left = 0 then (.error (.connectivity "connection lost" call.name), 0)
    else (.ok result, left - 1)

/-- Cancellation is asked for when the columns of the first table are; the fifth call fails. -/
theorem harborCatalog_stops :
    ∃ result w,
      (harborCatalog.cancelledAt .standard .epoch (some 3)).manifest.run ⟨4, []⟩ = (result, w) ∧
      w.calls.map (·.name) = ["database_name", "list_relations:BASE TABLE", "show_columns",
        "show_index", "table_constraints"] ∧
      (∀ x ∈ w.calls.drop 3, x.name ∉ guardedCalls) ∧
      result = .error (.connectivity "connection lost" "table_constraints") := by
  obtain ⟨result, w, hrun, hcancelled, hfailed, -⟩ :=
    introspection_stops harborCatalog .standard .epoch (some 3) 4
  have hcalls : ((harborCatalog.cancelledAt .standard .epoch (some 3)).manifest.run
      ⟨4, []⟩).2.calls = [⟨"database_name", none⟩, ⟨"list_relations:BASE TABLE", none⟩,
        ⟨"show_columns", none⟩, ⟨"show_index", none⟩, ⟨"table_constraints",
          some (.connectivity "connection lost" "table_constraints")⟩] := by
    decide +kernel
  rw [hrun] at hcalls
  refine ⟨result, w, hrun, by rw [hcalls]; rfl, ?_, ?_⟩
  · have hdrop := (hcancelled [_, _] _ [_, _] hcalls rfl).1
    rw [hcalls]
    exact hdrop
  · exact (hfailed [_, _, _, _] _ [] _ hcalls rfl).2

end Catalog

end SchemaInstaller
