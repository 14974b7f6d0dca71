import ClientSdk.Generation
import ClientSdk.Proofs.Augmentation.Sealing
import ClientSdk.Proofs.Fallible
import ClientSdk.Proofs.Validation.Selections

/-!
# The Events of a Run

A run leaves one event for each step that it completes. This module says which: how a run goes is
a relation, `RunsTo`, that names the step at which it ends and lists what the steps before have
left, and `classModels` has exactly the outcomes of that relation.

## Main definitions

* `Leaves`: the result of a computation and the events that it adds to those before it.
* `Schema.userTypeCount`: the number of types that the user declared.
* `Prepares`, `PreparationFails`: how a schema is prepared, or at which step that ends.
* `DocumentRun`, `Builds`, `DocumentFails`: how the operations of a document are built, or at
  which step that ends.
* `RunsTo`: how a whole run goes.
* `fullTrace`: the events of a run without failure.

## Main results

* `Leaves.mapM_ok`, `Leaves.mapM_error`: the events of a loop, complete or ended by a failure.
* `RunsTo.leaves`, `exists_runsTo`: a run that goes one way leaves the events of that way, and
  every run goes one way.
* `trace_classModels`: the events of `classModels`, and that they begin a full trace.
-/

namespace ClientSdk

variable {α β : Type}

/-! ### Computations that leave events -/

/-- The computation has the result, and adds the events to whatever events there were before. -/
def Leaves (run : Traced α) (result : Except GenerationError α) (events : List RunEvent) : Prop :=
  ∀ log, run.run.run log = (result, log ++ events)

namespace Leaves

variable {run : Traced α} {f : α → Traced β} {a : α} {e : GenerationError}
  {result : Except GenerationError β} {events events' : List RunEvent}

/-- What a computation leaves is its trace. -/
theorem trace_eq {result : Except GenerationError α} (h : Leaves run result events) :
    run.trace = (result, events) := by
  rw [Traced.trace, h []]
  rfl

/-- Returning a value leaves no event. -/
protected theorem pure (a : α) : Leaves (pure a) (.ok a) [] := fun log => by
  rw [List.append_nil]
  rfl

/-- A note leaves its event. -/
protected theorem note (event : RunEvent) : Leaves (Traced.note event) (.ok ()) [event] :=
  fun _ => rfl

/-- After a success the next step adds its events. -/
theorem bind_ok (h : Leaves run (.ok a) events) (hnext : Leaves (f a) result events') :
    Leaves (run >>= f) result (events ++ events') := fun log => by
  have hrun : (run >>= f).run.run log = (f a).run.run (log ++ events) := by
    rw [ExceptT.run_bind, StateT.run_bind, h log]
    rfl
  rw [hrun, hnext, List.append_assoc]

/-- What is returned in some form leaves no further event. -/
theorem bind_pure {g : α → β} (h : Leaves run (.ok a) events) :
    Leaves (run >>= fun a => pure (g a)) (.ok (g a)) events := by
  simpa using h.bind_ok (f := fun a => pure (g a)) (.pure (g a))

/-- After a failure there is no next step. -/
theorem bind_error (h : Leaves run (.error e) events) :
    Leaves (run >>= f) (.error e) events := fun log => by
  rw [ExceptT.run_bind, StateT.run_bind, h log]
  rfl

/-- A step without events that succeeds is passed over. -/
theorem lift_ok {x : Except GenerationError α} (hx : x = .ok a)
    (hnext : Leaves (f a) result events) : Leaves (liftM x >>= f) result events := fun log => by
  rw [hx]
  exact hnext log

/-- A step without events that fails ends the computation. -/
theorem lift_error {x : Except GenerationError α} (hx : x = .error e) :
    Leaves (liftM x >>= f) (.error e) [] := fun log => by
  rw [hx, List.append_nil]
  rfl

/-- A note comes before the events of the next step. -/
theorem note_ok {event : RunEvent} {f : Unit → Traced β} (hnext : Leaves (f ()) result events) :
    Leaves (Traced.note event >>= f) result (event :: events) :=
  (Leaves.note event).bind_ok hnext

/-- A loop of notes leaves their events in order. -/
theorem forM_note (event : α → RunEvent) (as : List α) :
    Leaves (as.forM fun a => Traced.note (event a)) (.ok ()) (as.map event) := by
  induction as with
  | nil => exact .pure ()
  | cons a as ih => exact note_ok ih

variable {g : α → Traced β} {as done : List α} {outcomes : List (β × List RunEvent)}

/-- A loop whose steps all succeed leaves their events in order. -/
theorem mapM_ok
    (h : List.Forall₂ (fun a outcome => Leaves (g a) (.ok outcome.1) outcome.2) as outcomes) :
    Leaves (as.mapM g) (.ok (outcomes.map Prod.fst)) (outcomes.flatMap Prod.snd) := by
  induction h with
  | nil => exact .pure []
  | @cons a outcome as outcomes hfirst _ ih =>
      rw [List.mapM_cons]
      exact hfirst.bind_ok ih.bind_pure

/-- A loop ends with the first step that fails: it leaves the events of the steps before and of
that step. -/
theorem mapM_error
    (h : List.Forall₂ (fun a outcome => Leaves (g a) (.ok outcome.1) outcome.2) done outcomes)
    (hfail : Leaves (g a) (.error e) events) (rest : List α) :
    Leaves ((done ++ a :: rest).mapM g) (.error e) (outcomes.flatMap Prod.snd ++ events) := by
  induction h with
  | nil =>
      rw [List.nil_append, List.mapM_cons]
      exact hfail.bind_error
  | @cons b outcome done outcomes hfirst _ ih =>
      rw [List.cons_append, List.mapM_cons, List.flatMap_cons, List.append_assoc]
      exact hfirst.bind_ok ih.bind_error

end Leaves

/-! ### The schema -/

/-- The number of types that the user declared: those that are not built in. -/
def Schema.userTypeCount (schema : Schema) : Nat :=
  schema.types.entries.countP fun entry => !entry.2.builtin

/-- There are as many declared names as types that the user declared. -/
theorem Schema.length_declaredNames (schema : Schema) :
    schema.declaredNames.length = schema.userTypeCount := by
  rw [declaredNames, List.length_map, ← List.countP_eq_length_filter, TypeMap.values,
    List.countP_map]
  rfl

/-- The schema of a document is read as `loaded`, augmented to `result` and valid as `valid`. -/
structure Prepares (source : SourceText) (loaded : Schema) (result : Augmentation)
    (valid : ValidSchema) : Prop where
  reads : Schema.ofText source.text = .ok loaded
  augments : augment loaded = .ok result
  validates : result.schema.toValid = .ok valid

/-- The events of a schema that is prepared: it has been read, with so many user types, changed
by augmentation and validated. -/
def preparationEvents (path : String) (types : Nat) (changes : List Addition) : List RunEvent :=
  .loadedSchema path types :: (changes.map .added ++ [.validated])

/-- The preparation of a schema ends at one of its three steps, after the events of the steps
before. -/
inductive PreparationFails (source : SourceText) : GenerationError → List RunEvent → Prop
  | unread {e : GenerationError} : Schema.ofText source.text = .error e →
      PreparationFails source e []
  | unaugmented {loaded : Schema} {e : GenerationError} : Schema.ofText source.text = .ok loaded →
      augment loaded = .error e →
      PreparationFails source e [.loadedSchema source.path loaded.userTypeCount]
  | invalid {loaded : Schema} {result : Augmentation} {e : GenerationError} :
      Schema.ofText source.text = .ok loaded → augment loaded = .ok result →
      result.schema.toValid = .error e →
      PreparationFails source e
        (.loadedSchema source.path loaded.userTypeCount :: result.changes.map .added)

/-- A schema that is prepared leaves the events of all three steps. -/
theorem Prepares.leaves {source : SourceText} {loaded : Schema} {result : Augmentation}
    {valid : ValidSchema} (h : Prepares source loaded result valid) :
    Leaves (prepareSchema source) (.ok (result.schema, valid))
      (preparationEvents source.path loaded.userTypeCount result.changes) := by
  rw [← loaded.length_declaredNames]
  refine .lift_ok h.reads (.note_ok (.lift_ok h.augments ?_))
  refine (Leaves.forM_note RunEvent.added result.changes).bind_ok ?_
  exact .lift_ok h.validates (.note_ok (.pure (result.schema, valid)))

/-- A preparation that ends at a step leaves the events of the steps before. -/
theorem PreparationFails.leaves {source : SourceText} {e : GenerationError}
    {events : List RunEvent} (h : PreparationFails source e events) :
    Leaves (prepareSchema source) (.error e) events := by
  cases h with
  | unread hread => exact .lift_error hread
  | @unaugmented loaded _ hread haugment =>
      rw [← loaded.length_declaredNames]
      exact .lift_ok hread (.note_ok (.lift_error haugment))
  | @invalid loaded result _ hread haugment hvalid =>
      rw [← loaded.length_declaredNames]
      refine .lift_ok hread (.note_ok (.lift_ok haugment ?_))
      rw [← List.append_nil (result.changes.map RunEvent.added)]
      exact (Leaves.forM_note RunEvent.added result.changes).bind_ok (.lift_error hvalid)

/-- The events of a preparation that ends at a step begin those of a schema that is prepared. -/
theorem PreparationFails.exists_isPrefix {source : SourceText} {e : GenerationError}
    {events : List RunEvent} (h : PreparationFails source e events) :
    ∃ types changes, events <+: preparationEvents source.path types changes := by
  cases h with
  | unread => exact ⟨0, [], List.nil_prefix⟩
  | @unaugmented loaded => exact ⟨loaded.userTypeCount, [], [.validated], rfl⟩
  | @invalid loaded result =>
      exact ⟨loaded.userTypeCount, result.changes, [.validated], rfl⟩

/-- A schema is prepared, or its preparation ends at a step. -/
theorem prepares_or_fails (source : SourceText) :
    (∃ loaded result valid, Prepares source loaded result valid) ∨
      ∃ e events, PreparationFails source e events := by
  cases hread : Schema.ofText source.text with
  | error e => exact .inr ⟨e, _, .unread hread⟩
  | ok loaded =>
    cases haugment : augment loaded with
    | error e => exact .inr ⟨e, _, .unaugmented hread haugment⟩
    | ok result =>
      cases hvalid : result.schema.toValid with
      | error e => exact .inr ⟨e, _, .invalid hread haugment hvalid⟩
      | ok valid => exact .inl ⟨loaded, result, valid, hread, haugment, hvalid⟩

/-! ### The documents -/

/-- The event of an operation whose model is built. -/
def builtEvent (operation : Operation) : RunEvent := .builtModel operation.name operation.kind

/-- A document whose operations are built. -/
structure DocumentRun where
  /-- The path that the document is reported under. -/
  path : String
  /-- Its operations. -/
  operations : List Operation
  /-- The models of the operations. -/
  models : List ClassModel

/-- The events of a document: that it is read, with its number of operations, and one for each
operation that is built. -/
def DocumentRun.events (run : DocumentRun) : List RunEvent :=
  .loadedOperations run.path run.operations.length :: run.operations.map builtEvent

/-- A document without operations. It stands for one that a run does not come to. -/
def DocumentRun.blank (source : SourceText) : DocumentRun := ⟨source.path, [], []⟩

section Documents

variable (schema : Schema) (valid : ValidSchema) (package : String) (source : SourceText)

/-- The document is read, and each of its operations has a model. -/
structure Builds (run : DocumentRun) : Prop where
  path_eq : run.path = source.path
  reads : operationsOfText valid source.text source.path = .ok run.operations
  builds : List.Forall₂ (fun operation model =>
    ClassModel.ofOperation schema package operation = .ok model) run.operations run.models

/-- A document ends a run: it is not read, or one of its operations has no model. The events are
those of its steps before. -/
inductive DocumentFails : GenerationError → List RunEvent → Prop
  | unread {e : GenerationError} : operationsOfText valid source.text source.path = .error e →
      DocumentFails e []
  | unbuilt {done rest : List Operation} {operation : Operation} {models : List ClassModel}
      {e : GenerationError} :
      operationsOfText valid source.text source.path = .ok (done ++ operation :: rest) →
      List.Forall₂ (fun operation model =>
        ClassModel.ofOperation schema package operation = .ok model) done models →
      ClassModel.ofOperation schema package operation = .error e →
      DocumentFails e
        (.loadedOperations source.path (done ++ operation :: rest).length :: done.map builtEvent)

variable {schema valid package source}

/-- An operation whose model is built leaves its event. -/
theorem leaves_modelOf {operation : Operation} {model : ClassModel}
    (h : ClassModel.ofOperation schema package operation = .ok model) :
    Leaves (modelOf schema package operation) (.ok model) [builtEvent operation] :=
  .lift_ok h (.note_ok (.pure model))

/-- Operations whose models are built, with the models and the events. -/
theorem forall₂_leaves_modelOf {operations : List Operation} {models : List ClassModel}
    (h : List.Forall₂ (fun operation model =>
      ClassModel.ofOperation schema package operation = .ok model) operations models) :
    ∃ outcomes : List (ClassModel × List RunEvent),
      List.Forall₂ (fun operation outcome =>
        Leaves (modelOf schema package operation) (.ok outcome.1) outcome.2) operations outcomes ∧
      outcomes.map Prod.fst = models ∧
      outcomes.flatMap Prod.snd = operations.map builtEvent := by
  induction h with
  | nil => exact ⟨[], .nil, rfl, rfl⟩
  | @cons operation model operations models hfirst _ ih =>
      obtain ⟨outcomes, hleaves, hmodels, hevents⟩ := ih
      refine ⟨(model, [builtEvent operation]) :: outcomes, .cons (leaves_modelOf hfirst) hleaves,
        ?_, ?_⟩
      · rw [List.map_cons, hmodels]
      · rw [List.flatMap_cons, hevents, List.map_cons, List.singleton_append]

/-- A document whose operations are built gives their models and leaves all of its events. -/
theorem Builds.leaves {run : DocumentRun} (h : Builds schema valid package source run) :
    Leaves (modelsOfDocument schema valid package source) (.ok run.models) run.events := by
  obtain ⟨outcomes, hleaves, hmodels, hevents⟩ := forall₂_leaves_modelOf h.builds
  rw [DocumentRun.events, h.path_eq, ← hmodels, ← hevents]
  exact .lift_ok h.reads (.note_ok (.mapM_ok hleaves))

/-- A document that ends a run leaves the events of the steps before. -/
theorem DocumentFails.leaves {e : GenerationError} {events : List RunEvent}
    (h : DocumentFails schema valid package source e events) :
    Leaves (modelsOfDocument schema valid package source) (.error e) events := by
  cases h with
  | unread hread => exact .lift_error hread
  | @unbuilt done rest operation models _ hread hdone hfail =>
      obtain ⟨outcomes, hleaves, -, hevents⟩ := forall₂_leaves_modelOf hdone
      have hloop := Leaves.mapM_error hleaves (.lift_error hfail) rest
      rw [← hevents, ← List.append_nil (outcomes.flatMap Prod.snd)]
      exact .lift_ok hread (.note_ok hloop)

/-- The events of a document that ends a run begin those of a document whose operations are
built. -/
theorem DocumentFails.exists_isPrefix {e : GenerationError} {events : List RunEvent}
    (h : DocumentFails schema valid package source e events) :
    ∃ run : DocumentRun, run.path = source.path ∧ events <+: run.events := by
  cases h with
  | unread => exact ⟨.blank source, rfl, List.nil_prefix⟩
  | @unbuilt done rest operation models =>
      refine ⟨⟨source.path, done ++ operation :: rest, []⟩, rfl, ?_⟩
      rw [DocumentRun.events, List.map_append]
      exact List.cons_prefix_cons.mpr ⟨rfl, List.prefix_append ..⟩

variable (schema valid package source)

/-- The operations of a document are built, or the document ends the run. -/
theorem builds_or_fails : (∃ run, Builds schema valid package source run) ∨
    ∃ e events, DocumentFails schema valid package source e events := by
  cases hread : operationsOfText valid source.text source.path with
  | error e => exact .inr ⟨e, _, .unread hread⟩
  | ok operations =>
    rcases forall₂_or_exists_first operations fun operation _ =>
        exists_eq_ok_or_error (ClassModel.ofOperation schema package operation) with
      ⟨models, hmodels⟩ | ⟨done, operation, rest, models, rfl, hdone, e, hfail⟩
    · exact .inl ⟨⟨source.path, operations, models⟩, rfl, hread, hmodels⟩
    · exact .inr ⟨e, _, .unbuilt hread hdone hfail⟩

end Documents

/-! ### The whole run -/

/-- The events of a run without failure: those of the schema, and then those of the documents. -/
def fullTrace (path : String) (types : Nat) (changes : List Addition) (runs : List DocumentRun) :
    List RunEvent :=
  preparationEvents path types changes ++ runs.flatMap (·.events)

section Runs

variable (source : SourceText) (documents : List SourceText) (package : String)

/-- How a run goes, with its result and its events: it ends with the schema, or with a document
after those before it have been built, or it gives the models of all documents. -/
inductive RunsTo : Except GenerationError (List ClassModel) → List RunEvent → Prop
  | unprepared {e : GenerationError} {events : List RunEvent} :
      PreparationFails source e events → RunsTo (.error e) events
  | stopped {loaded : Schema} {result : Augmentation} {valid : ValidSchema}
      {done rest : List SourceText} {document : SourceText} {runs : List DocumentRun}
      {e : GenerationError} {events : List RunEvent} :
      Prepares source loaded result valid → documents = done ++ document :: rest →
      List.Forall₂ (Builds result.schema valid package) done runs →
      DocumentFails result.schema valid package document e events →
      RunsTo (.error e)
        (fullTrace source.path loaded.userTypeCount result.changes runs ++ events)
  | completed {loaded : Schema} {result : Augmentation} {valid : ValidSchema}
      {runs : List DocumentRun} :
      Prepares source loaded result valid →
      List.Forall₂ (Builds result.schema valid package) documents runs →
      RunsTo (.ok (runs.flatMap (·.models)))
        (fullTrace source.path loaded.userTypeCount result.changes runs)

variable {source documents package}

/-- Documents whose operations are built, with the models and the events. -/
theorem forall₂_leaves_modelsOfDocument {schema : Schema} {valid : ValidSchema}
    {sources : List SourceText} {runs : List DocumentRun}
    (h : List.Forall₂ (Builds schema valid package) sources runs) :
    List.Forall₂ (fun source outcome =>
        Leaves (modelsOfDocument schema valid package source) (.ok outcome.1) outcome.2)
      sources (runs.map fun run => (run.models, run.events)) :=
  List.forall₂_map_right_iff.mpr (h.imp fun _ _ => Builds.leaves)

/-- A run that goes one way has the result and leaves the events of that way. -/
theorem RunsTo.leaves {result : Except GenerationError (List ClassModel)}
    {events : List RunEvent} (h : RunsTo source documents package result events) :
    Leaves (classModels source documents package) result events := by
  cases h with
  | unprepared hfail => exact hfail.leaves.bind_error
  | @stopped loaded result valid done rest document runs e events hprepares hdocuments hdone
      hfail =>
      have hloop := Leaves.mapM_error (forall₂_leaves_modelsOfDocument hdone) hfail.leaves rest
      rw [List.flatMap_map, ← hdocuments] at hloop
      rw [fullTrace, List.append_assoc]
      exact hprepares.leaves.bind_ok hloop.bind_error
  | @completed loaded result valid runs hprepares hruns =>
      have hloop := Leaves.mapM_ok (forall₂_leaves_modelsOfDocument hruns)
      rw [List.map_map, List.flatMap_map] at hloop
      exact hprepares.leaves.bind_ok hloop.bind_pure

/-- Documents that are built are reported under their paths. -/
theorem map_path_of_builds {schema : Schema} {valid : ValidSchema} {sources : List SourceText}
    {runs : List DocumentRun} (h : List.Forall₂ (Builds schema valid package) sources runs) :
    runs.map (·.path) = sources.map (·.path) := by
  induction h with
  | nil => rfl
  | cons hfirst _ ih => rw [List.map_cons, List.map_cons, hfirst.path_eq, ih]

/-- However a run goes, its events begin the trace of a run of the same documents without
failure. -/
theorem RunsTo.exists_isPrefix {result : Except GenerationError (List ClassModel)}
    {events : List RunEvent} (h : RunsTo source documents package result events) :
    ∃ types changes runs, runs.map (·.path) = documents.map (·.path) ∧
      events <+: fullTrace source.path types changes runs := by
  -- The documents that the run does not come to may have any operations; here they have none.
  have hblank : ∀ sources : List SourceText,
      (sources.map DocumentRun.blank).map (·.path) = sources.map (·.path) := fun sources =>
    List.map_map ..
  cases h with
  | unprepared hfail =>
      obtain ⟨types, changes, hbegins⟩ := hfail.exists_isPrefix
      exact ⟨types, changes, documents.map .blank, hblank documents,
        hbegins.trans (List.prefix_append ..)⟩
  | @stopped loaded result valid done rest document runs e events _ hdocuments hdone hfail =>
      obtain ⟨run, hpath, hbegins⟩ := hfail.exists_isPrefix
      refine ⟨loaded.userTypeCount, result.changes, runs ++ run :: rest.map .blank, ?_, ?_⟩
      · rw [hdocuments, List.map_append, List.map_append, List.map_cons, List.map_cons,
          map_path_of_builds hdone, hpath, hblank]
      · rw [fullTrace, fullTrace, List.flatMap_append, List.flatMap_cons, List.append_assoc]
        exact (List.prefix_append_right_inj _).mpr ((List.prefix_append_right_inj _).mpr
          (hbegins.trans (List.prefix_append ..)))
  | @completed loaded result valid runs _ hruns =>
      exact ⟨_, _, runs, map_path_of_builds hruns, List.prefix_rfl⟩

variable (source documents package)

/-- Every run goes one way. -/
theorem exists_runsTo : ∃ result events, RunsTo source documents package result events := by
  rcases prepares_or_fails source with ⟨loaded, result, valid, hprepares⟩ | ⟨e, events, hfail⟩
  · rcases forall₂_or_exists_first documents fun document _ =>
        builds_or_fails result.schema valid package document with
      ⟨runs, hruns⟩ | ⟨done, document, rest, runs, hdocuments, hdone, e, events, hfail⟩
    · exact ⟨_, _, .completed hprepares hruns⟩
    · exact ⟨_, _, .stopped hprepares hdocuments hdone hfail⟩
  · exact ⟨_, _, .unprepared hfail⟩

/-- A run has the outcome and the trace of the one way in which it goes. -/
theorem trace_eq_iff_runsTo (result : Except GenerationError (List ClassModel))
    (events : List RunEvent) :
    (classModels source documents package).trace = (result, events) ↔
      RunsTo source documents package result events := by
  constructor
  · intro htrace
    obtain ⟨result', events', hruns⟩ := exists_runsTo source documents package
    obtain ⟨rfl, rfl⟩ := Prod.mk.inj (htrace.symm.trans hruns.leaves.trace_eq)
    exact hruns
  · intro hruns
    exact hruns.leaves.trace_eq

/-- **The events of a run are faithful.** A run without failure leaves the event of its schema with
the number of user types, one event for each change of the augmentation, the event of the valid
schema, and for each document the event that it is read with its number of operations and one
event for each of its operations, and it gives the models of all operations in order. A run with a
failure leaves the events of the steps before the one that fails, and no others. In both cases the
events begin a trace of a run without failure. -/
theorem trace_classModels :
    (∀ result events, (classModels source documents package).trace = (result, events) ↔
      RunsTo source documents package result events) ∧
    ∃ types changes runs, runs.map (·.path) = documents.map (·.path) ∧
      (classModels source documents package).trace.2 <+:
        fullTrace source.path types changes runs := by
  obtain ⟨result, events, hruns⟩ := exists_runsTo source documents package
  refine ⟨trace_eq_iff_runsTo source documents package, ?_⟩
  rw [hruns.leaves.trace_eq]
  exact hruns.exists_isPrefix

end Runs

/-! ### The events of a schema with two object types -/

/-- The schema of ships and harbors with a path. -/
def berthSource : SourceText := ⟨"berths.graphql", berthText⟩

/-- The events of reading, augmenting and validating that schema. -/
def berthEvents : List RunEvent := [
  .loadedSchema "berths.graphql" 2,
  .added (.markerType "sdk:MutationRef.InsertData"),
  .added (.markerType "sdk:MutationRef.UpdateData"),
  .added (.markerType "sdk:MutationRef.DeleteData"),
  .added (.relationField "Harbor" "ships_as_harbor"),
  .added (.inputType "Harbor_Data"), .added (.inputType "Ship_Data"),
  .added (.mutationField "harbor_insert"), .added (.mutationField "harbor_delete"),
  .added (.mutationField "harbor_update"), .added (.mutationField "ship_insert"),
  .added (.mutationField "ship_delete"), .added (.mutationField "ship_update"),
  .added (.queryField "harbor"), .added (.queryField "harbors"),
  .added (.queryField "ship"), .added (.queryField "ships"),
  .validated]

/-- A document with a query of the ships. -/
def fleetSource : SourceText := ⟨"fleet.graphql", "query Fleet { ships { home { depth } } }"⟩

/-- That document when it is parsed. -/
def fleetDocument : Document := [.operation
  { kind := .query, name := some "Fleet"
    selections := [.field none "ships" [] [] [
      .field none "home" [] [] [.field none "depth" [] [] []]]] }]

/-- Its query. -/
def selectFleet : Operation where
  name := "Fleet"
  kind := .query
  selections := [.field "ships" none [.field "home" none [.field "depth" none []]]]

/-- A document with a query of the harbors and one of a meta field. -/
def depthsSource : SourceText :=
  ⟨"depths.graphql", "query Depths { harbors { depth } } query Meta { __typename }"⟩

/-- That document when it is parsed. -/
def depthsDocument : Document := [
  .operation { kind := .query, name := some "Depths"
               selections := [.field none "harbors" [] [] [.field none "depth" [] [] []]] },
  .operation { kind := .query, name := some "Meta"
               selections := [.field none "__typename" [] [] []] }]

/-- Its first query. -/
def selectDepths : Operation where
  name := "Depths"
  kind := .query
  selections := [.field "harbors" none [.field "depth" none []]]

/-- Its second query. -/
def selectMeta : Operation where
  name := "Meta"
  kind := .query
  selections := [.field "__typename" none []]

/-- The schema is augmented so that all three queries are valid. The first two have models, and
there is none for the meta field. -/
theorem exists_augment_berthSchema : ∃ result, augment berthSchema = .ok result ∧
    preparationEvents "berths.graphql" berthSchema.userTypeCount result.changes = berthEvents ∧
    result.schema.toDeclarations.isValidOperations fleetDocument = true ∧
    result.schema.toDeclarations.isValidOperations depthsDocument = true ∧
    (∃ model, ClassModel.ofOperation result.schema "crate" selectFleet = .ok model ∧
      model.operationName = "Fleet") ∧
    (∃ model, ClassModel.ofOperation result.schema "crate" selectDepths = .ok model) ∧
    ClassModel.ofOperation result.schema "crate" selectMeta =
      .error (.unknownField "Query" "__typename") := by
  refine ⟨_, rfl, rfl, ?_, ?_, ⟨_, rfl, rfl⟩, ⟨_, rfl⟩, rfl⟩
  · decide +kernel
  · decide +kernel

/-- A run over the first document gives the model of its query. A run over both documents ends with
the query of the meta field, and has left the events of all steps before. -/
theorem trace_classModels_berths :
    (∃ model, model.operationName = "Fleet" ∧
      (classModels berthSource [fleetSource] "crate").trace = (.ok [model], berthEvents ++
        [.loadedOperations "fleet.graphql" 1, .builtModel "Fleet" .query])) ∧
    (classModels berthSource [fleetSource, depthsSource] "crate").trace =
      (.error (.unknownField "Query" "__typename"), berthEvents ++
        [.loadedOperations "fleet.graphql" 1, .builtModel "Fleet" .query,
          .loadedOperations "depths.graphql" 2, .builtModel "Depths" .query]) := by
  obtain ⟨result, haugment, hevents, hvalidFleet, hvalidDepths, ⟨fleet, hfleet, hname⟩,
    ⟨depths, hdepths⟩, hmeta⟩ := exists_augment_berthSchema
  obtain ⟨valid, hvalid, hdeclarations⟩ := exists_toValid_of_augment_berthSchema haugment
  rw [← hdeclarations] at hvalidFleet hvalidDepths
  have hprepares : Prepares berthSource berthSchema result valid :=
    ⟨ofText_berthText, haugment, hvalid⟩
  have hbuilds : Builds result.schema valid "crate" fleetSource
      ⟨"fleet.graphql", [selectFleet], [fleet]⟩ :=
    ⟨rfl, operationsOfText_eq_ok (by cbv) hvalidFleet rfl rfl, .cons hfleet .nil⟩
  have hreads : operationsOfText valid depthsSource.text depthsSource.path =
      .ok ([selectDepths] ++ selectMeta :: []) :=
    operationsOfText_eq_ok (by cbv) hvalidDepths rfl rfl
  have hstops := RunsTo.stopped hprepares
    (show [fleetSource, depthsSource] = [fleetSource] ++ depthsSource :: [] from rfl)
    (.cons hbuilds .nil) (.unbuilt hreads (.cons hdepths .nil) hmeta)
  -- The first document is built in both runs, and only the second run comes to the other one.
  rw [fullTrace, List.append_assoc] at hstops
  refine ⟨⟨fleet, hname, ?_⟩, ?_⟩
  · rw [← hevents]
    exact ((trace_classModels berthSource [fleetSource] "crate").1 _ _).mpr
      (.completed hprepares (.cons hbuilds .nil))
  · rw [← hevents]
    exact ((trace_classModels berthSource [fleetSource, depthsSource] "crate").1 _ _).mpr hstops

end ClientSdk
