import PacketFilter.Proofs.Entering
import PacketFilter.Proofs.Stages
import PacketFilter.Proofs.Survey
import PacketFilter.Proofs.Views

/-!
# Setting up applications

The maps of an application are created one after the other, so they follow each
other in the store and can be found under their names; whatever was there
before stays.  A program that is let through has them in the same order, and
what its run delivers from the first stage on is what the engine reports.
-/

namespace PacketFilter

theorem Schema.capacity_pos {schema : Schema} (sound : schema.problem? = none) :
    0 < schema.capacity := by
  rw [problem?] at sound
  split at sound
  · cases sound
  · rename_i positive
    exact Nat.pos_of_ne_zero positive

namespace Store

variable {store before between after : Store} {name : String} {id : MapId} {schema : Schema}

theorem lookup_insertName
    {names : List (String × MapId)} (fresh : names.lookup name = none) (other : String) :
    (insertName name id names).lookup other =
      if other = name then some id else names.lookup other := by
  induction names with
  | nil =>
      rw [insertName, List.lookup_cons]
      by_cases same : other = name
      · simp [same]
      · rw [beq_false_of_ne same, if_neg same]
  | cons entry rest continues =>
      have differs : name ≠ entry.1 := by
        rintro rfl
        rw [List.lookup_cons_self] at fresh
        cases fresh
      have later : rest.lookup name = none := by
        rwa [List.lookup_cons, beq_false_of_ne differs] at fresh
      rw [insertName]
      split
      · rw [List.lookup_cons]
        by_cases same : other = name
        · simp [same]
        · rw [beq_false_of_ne same, if_neg same]
      · rw [List.lookup_cons, List.lookup_cons, continues later]
        by_cases here : other = entry.1
        · have apart : other ≠ name := fun same => differs (same.symm.trans here)
          simp [here, differs.symm]
        · rw [beq_false_of_ne here]

/-- The maps have been created, beside those that were there before. -/
structure Installs (before after : Store) (schemas : List (String × Schema)) : Prop where
  workers : after.workers = before.workers
  size : after.maps.size = before.maps.size + schemas.length
  older : ∀ (name : String) (id : MapId), before.find? name = some id → after.find? name = some id
  others : ∀ name, name ∉ schemas.map Prod.fst → after.find? name = before.find? name
  kept : ∀ (id : MapId) (map : Map), before.map? id = some map → after.map? id = some map
  named : ∀ (index : Nat) (entry : String × Schema), schemas[index]? = some entry →
    after.find? entry.1 = some (before.maps.size + index)
  fresh : ∀ (index : Nat) (entry : String × Schema), schemas[index]? = some entry →
    after.map? (before.maps.size + index) =
      some (Map.ofSchema entry.1 entry.2 (max 1 before.workers))
  sound : ∀ entry ∈ schemas, entry.2.problem? = none

theorem installs_of_create
    (created : (create name schema).run before = (.ok id, after)) :
    id = before.maps.size ∧ before.Installs after [(name, schema)] := by
  rw [create, Stateful.run_bind, Stateful.run_get] at created
  dsimp only at created
  split at created
  · cases created
  · rename_i unnamed
    have fresh : before.names.lookup name = none := Option.not_isSome_iff_eq_none.mp unnamed
    rcases problem : schema.problem? with _ | problem
    · rw [Stateful.run_bind, Stateful.run_mk_pure, Map.create, problem] at created
      cases created
      have lookup (other : String) : ({ before with
          maps := before.maps.push (Map.ofSchema name schema (max 1 before.workers)),
          names := insertName name before.maps.size before.names } : Store).find? other =
            if other = name then some before.maps.size else before.find? other :=
        lookup_insertName fresh other
      refine ⟨rfl, rfl, Array.size_push _, fun other id found => ?_, fun other apart => ?_,
        fun id map there => ?_, fun index entry here => ?_, fun index entry here => ?_,
        fun entry listed => ?_⟩
      · have differs : other ≠ name := by
          rintro rfl
          cases fresh.symm.trans found
        rw [lookup, if_neg differs, found]
      · rw [lookup, if_neg fun same => apart (List.mem_singleton.mpr same)]
      · have inside := (Array.getElem?_eq_some_iff.mp there).1
        exact (Array.getElem?_push_lt inside).trans
          ((Array.getElem?_eq_getElem inside).symm.trans there)
      · rcases index with _ | index
        · cases here
          rw [lookup, if_pos rfl]
          rfl
        · cases here
      · rcases index with _ | index
        · cases here
          exact Array.getElem?_push_size
        · cases here
      · rcases List.mem_singleton.mp listed with rfl
        exact problem
    · rw [Stateful.run_bind, Stateful.run_mk_pure, Map.create, problem] at created
      cases created

/-- A map is not created when its name is in use or its declaration makes no sense. -/
theorem create_refused
    {error : MapError} (refused : (create name schema).run before = (.error error, after)) :
    after = before ∧
      ((∃ id, before.find? name = some id) ∧ error = .duplicateName name ∨
        ∃ problem, schema.problem? = some problem ∧
          error = .invalidSchema schema.kind problem) := by
  rw [create, Stateful.run_bind, Stateful.run_get] at refused
  dsimp only at refused
  split at refused
  · rename_i taken
    cases refused
    exact ⟨rfl, .inl ⟨Option.isSome_iff_exists.mp taken, rfl⟩⟩
  · rcases wrong : schema.problem? with _ | problem
    all_goals
      rw [Stateful.run_bind, Stateful.run_mk_pure, Map.create, wrong] at refused
      cases refused
    exact ⟨rfl, .inr ⟨problem, rfl, rfl⟩⟩

namespace Installs

variable {first rest schemas : List (String × Schema)}

theorem nil (store : Store) : store.Installs store [] where
  workers := rfl
  size := rfl
  older _ _ found := found
  others _ _ := rfl
  kept _ _ there := there
  named _ _ here := by cases here
  fresh _ _ here := by cases here
  sound _ listed := by cases listed

theorem append
    (earlier : before.Installs between first) (later : between.Installs after rest) :
    before.Installs after (first ++ rest) where
  workers := later.workers.trans earlier.workers
  size := by rw [later.size, earlier.size, List.length_append, Nat.add_assoc]
  older name id found := later.older name id (earlier.older name id found)
  others name apart := by
    rw [List.map_append, List.mem_append, not_or] at apart
    exact (later.others name apart.2).trans (earlier.others name apart.1)
  kept id map there := later.kept id map (earlier.kept id map there)
  named index entry here := by
    rcases Nat.lt_or_ge index first.length with early | late
    · rw [List.getElem?_append_left early] at here
      exact later.older _ _ (earlier.named index entry here)
    · rw [List.getElem?_append_right late] at here
      rw [later.named _ _ here, earlier.size, Nat.add_assoc, Nat.add_sub_cancel' late]
  fresh index entry here := by
    rcases Nat.lt_or_ge index first.length with early | late
    · rw [List.getElem?_append_left early] at here
      exact later.kept _ _ (earlier.fresh index entry here)
    · rw [List.getElem?_append_right late] at here
      have there := later.fresh _ _ here
      rwa [earlier.size, earlier.workers, Nat.add_assoc, Nat.add_sub_cancel' late] at there
  sound entry listed :=
    (List.mem_append.mp listed).elim (earlier.sound entry) (later.sound entry)

/-- The map of an index is as new. -/
theorem has
    (installs : before.Installs after schemas) (index : Nat) {entry : String × Schema}
    {good : Map → Prop} (here : schemas[index]? = some entry)
    (fine : good (Map.ofSchema entry.1 entry.2 (max 1 before.workers))) :
    after.Has (before.maps.size + index) good :=
  ⟨_, installs.fresh index entry here, fine⟩

end Installs

theorem run_expectShape
    {map : Map} {kind : MapKind} {keySize valueSize : Nat} (there : store.map? id = some map)
    (shape : map.schema.shape = (kind, keySize, valueSize)) :
    (expectShape id kind keySize valueSize).run store = (.ok (), store) := by
  rw [expectShape, run_onMap _ there, Stateful.run_bind, Stateful.run_get]
  dsimp only
  rw [if_pos shape]
  exact congrArg _ (setMap_self there)

end Store

/-! ## Views of maps of the right shape -/

section

variable {κ ν : Type} {store : Store} {id : MapId} {map : Map} {value : Layout ν}

theorem TypedTable.run_ofMap
    {kind : MapKind} {key : Layout κ} (there : store.map? id = some map)
    (shape : map.schema.shape = (kind, key.size, value.size)) :
    (ofMap kind id key value).run store = (.ok ⟨id, key, value⟩, store) := by
  rw [ofMap, Stateful.run_bind, Store.run_expectShape there shape]
  rfl

theorem TypedArray.run_ofMap
    (there : store.map? id = some map) (shape : map.schema.shape = (.array, 4, value.size)) :
    (ofMap id value).run store = (.ok ⟨id, value⟩, store) := by
  rw [ofMap, Stateful.run_bind, Store.run_expectShape there shape]
  rfl

theorem WorkerArray.run_ofMap
    (there : store.map? id = some map)
    (shape : map.schema.shape = (.perWorkerArray, 4, value.size)) :
    (ofMap id value).run store = (.ok ⟨id, value⟩, store) := by
  rw [ofMap, Stateful.run_bind, Store.run_expectShape there shape]
  rfl

theorem RecordQueue.run_ofMap
    {ring : Ring} (there : store.map? id = some map) (isRing : map.content = .ringBuffer ring) :
    (ofMap id).run store = (.ok ⟨id⟩, store) := by
  have ringed : map.ring?.isSome = true := by
    rw [Map.ring?, isRing]
    rfl
  rw [ofMap, Stateful.run_bind, Store.run_onMap _ there, Stateful.run_bind, Stateful.run_get]
  dsimp only
  rw [if_pos ringed, Stateful.run_pure]
  exact congrArg _ (Store.setMap_self there)

end

namespace ApplicationAction

variable {store begun : Store} {schemas : List (String × Schema)} {maps : List MapId}

theorem run_onMaps {α : Type} (action : StoreAction α) (store : Store) :
    (onMaps action).run store =
      ((action.run store).1.mapError .map, (action.run store).2) :=
  rfl

theorem installs_of_createMaps
    (created : (createMaps schemas).run store = (.ok maps, begun)) :
    maps = List.range' store.maps.size schemas.length ∧ store.Installs begun schemas := by
  induction schemas generalizing store maps with
  | nil =>
      cases created
      exact ⟨rfl, .nil _⟩
  | cons entry rest continues =>
      rw [createMaps, List.mapM_cons, Stateful.run_bind, run_onMaps] at created
      rcases made : (Store.create entry.1 entry.2).run store with ⟨error | id, between⟩
      · rw [made] at created
        cases created
      · rw [made] at created
        change (createMaps rest >>= _).run between = _ at created
        rw [Stateful.run_bind] at created
        rcases others : (createMaps rest).run between with ⟨error | later, after⟩
        · rw [others] at created
          cases created
        · rw [others] at created
          cases created
          rcases Store.installs_of_create made with ⟨rfl, installs⟩
          rcases continues others with ⟨rfl, installs'⟩
          refine ⟨?_, installs.append installs'⟩
          rw [installs.size]
          rfl

/-- When not all maps of an application are created, it is for one of them that is not, and those
before it are left. -/
theorem stops_of_createMaps
    {error : ApplicationError} (failed : (createMaps schemas).run store = (.error error, begun)) :
    ∃ made entry later refusal, schemas = made ++ entry :: later ∧
      (∃ maps, (createMaps made).run store = (.ok maps, begun)) ∧
      (Store.create entry.1 entry.2).run begun = (.error refusal, begun) ∧
        error = .map refusal := by
  induction schemas generalizing store with
  | nil => cases failed
  | cons entry rest continues =>
      have split (schemas : List (String × Schema)) : createMaps (entry :: schemas) =
          (onMaps (Store.create entry.1 entry.2) >>= fun id =>
            createMaps schemas >>= fun ids => pure (id :: ids)) := List.mapM_cons
      rw [split, Stateful.run_bind, run_onMaps] at failed
      rcases made : (Store.create entry.1 entry.2).run store with ⟨refusal | id, between⟩
      · rw [made] at failed
        cases failed
        rcases Store.create_refused made with ⟨rfl, _⟩
        exact ⟨[], entry, rest, refusal, rfl, ⟨[], rfl⟩, made, rfl⟩
      · rw [made] at failed
        dsimp only [Except.mapError] at failed
        rw [Stateful.run_bind] at failed
        rcases others : (createMaps rest).run between with ⟨error' | ids, after⟩
        · rw [others] at failed
          cases failed
          rcases continues others with
            ⟨first, entry', later, refusal, rfl, ⟨maps, run⟩, refused, same⟩
          refine ⟨entry :: first, entry', later, refusal, rfl, ⟨id :: maps, ?_⟩, refused, same⟩
          rw [split, Stateful.run_bind, run_onMaps, made]
          dsimp only [Except.mapError]
          rw [Stateful.run_bind, run]
          rfl
        · rw [others] at failed
          cases failed

end ApplicationAction

namespace Application

variable {program : Program} {store : Store} {elapsed : String} {verified : VerifiedProgram}

theorem mapM_resolveBinding
    {find? : String → Option (MapId × Schema)} {bindings : List MapBinding} :
    ∀ {found : List (MapId × Schema)}, bindings.mapM (Verifier.resolveBinding find?) = .ok found →
      List.Forall₂ (fun binding entry => find? binding.name = some entry) bindings found := by
  induction bindings with
  | nil =>
      intro found resolved
      cases resolved
      exact .nil
  | cons binding rest others =>
      intro found resolved
      rw [List.mapM_cons] at resolved
      rcases Checked.bind_eq_ok.mp resolved with ⟨first, here, resolved⟩
      rcases Checked.bind_eq_ok.mp resolved with ⟨later, there, made⟩
      cases made
      exact .cons (Verifier.resolveBinding_eq_ok here) (others there)

/-- A program that has been let through works on the maps of its bindings. -/
theorem maps_of_load
    (loaded : load program store elapsed = .ok verified) :
    verified.program = program ∧
      List.Forall₂ (fun binding id => store.find? binding.name = some id) program.bindings
        verified.maps := by
  rw [load] at loaded
  rcases passed : Verifier.verify {} store.binding? program elapsed with rejection | verified'
  · rw [passed] at loaded
    cases loaded
  · rw [passed] at loaded
    cases loaded
    refine ⟨(Verifier.verify_establishes passed).1, ?_⟩
    simp only [Verifier.verify] at passed
    rcases prepared : Verifier.prepare store.binding? {} program with rejection | ⟨journey, maps⟩
    · rw [prepared] at passed
      cases passed
    · have resolved := prepared
      simp only [Verifier.prepare] at resolved
      rcases Checked.bind_eq_ok.mp resolved with ⟨_, _, resolved⟩
      rcases Checked.bind_eq_ok.mp resolved with ⟨found, here, resolved⟩
      rcases Checked.bind_eq_ok.mp resolved with ⟨_, _, resolved⟩
      rcases Checked.bind_eq_ok.mp resolved with ⟨loops, _, made⟩
      cases made
      have named : ∀ (binding : MapBinding) (entry : MapId × Schema),
          store.binding? binding.name = some entry → store.find? binding.name = some entry.1 := by
        intro binding entry known
        rcases Option.bind_eq_some_iff.mp known with ⟨id, here, known⟩
        rcases Option.bind_eq_some_iff.mp known with ⟨map, _, made⟩
        cases made
        exact here
      have resolves := (mapM_resolveBinding here).imp named
      rw [prepared] at passed
      dsimp only at passed
      split at passed
      · cases passed
      all_goals
        cases passed
        exact List.forall₂_map_right_iff.mpr resolves

/-- The program is the one that has been written, on these maps.  This is what loading leads to. -/
structure Installed (written : Except ApplicationError Program) (maps : List MapId)
    (verified : VerifiedProgram) : Prop where
  program : written = .ok verified.program
  maps : verified.maps = maps

/-- The maps that an application has created are those of its program. -/
theorem installed_of_load
    {written : Except ApplicationError Program} {schemas : List (String × Schema)} {base : MapId}
    (bound : ∀ source, written = .ok source →
      source.bindings = schemas.map fun entry => .ofSchema entry.1 entry.2)
    (named : ∀ (index : Nat) (entry : String × Schema), schemas[index]? = some entry →
      store.find? entry.1 = some (base + index))
    (loaded : (written.bind fun source => load source store elapsed) = .ok verified) :
    Installed written (List.range' base schemas.length) verified := by
  rcases Checked.bind_eq_ok.mp loaded with ⟨source, made, loaded⟩
  rcases maps_of_load loaded with ⟨rfl, each⟩
  rw [bound _ made, List.forall₂_map_left_iff] at each
  refine ⟨made, List.ext_getElem ?_ fun index inside _ => ?_⟩
  · rw [List.length_range', each.length_eq]
  · have early : index < schemas.length := each.length_eq ▸ inside
    rw [List.getElem_range', Nat.one_mul]
    exact Option.some.inj ((each.get early inside).symm.trans
      (named index _ (List.getElem?_eq_getElem early)))

end Application

/-! ## Runs of an application's program -/

/-- The first stage of a run: the first register holds the context. -/
def Stage.first (packet : Bytes) (store : Store) : Stage :=
  ⟨0, packet, store, [(1, Memory.contextPointer)], [], [], none⟩

theorem Stage.first_fits
    {context : PacketContext} {area : WorkArea} {store : Store}
    (sized : area.stack.size = stackSize) :
    (first context.packet store).Fits context.metadata
      (Machine.start (Engine.memory context area store)) where
  position := rfl
  packet := rfl
  store := rfl
  metadata := rfl
  records := rfl
  stack := sized
  regions := Nat.le_refl _
  frame := congrArg stackPlace sized
  known name word found := by
    rw [first, List.lookup_cons] at found
    split at found
    case h_1 same =>
      cases found
      rw [eq_of_beq same]
      rfl
    case h_2 => cases found
  slots _ listed := by cases listed
  pointers _ listed := by cases listed
  target? := rfl

/-- What is delivered from the first stage on is what the engine reports. -/
theorem Engine.run_of_delivers
    {engine : Engine} {clock : Clock} {program : VerifiedProgram} {context : PacketContext}
    {store : Store} {post : Except Fault Verdict → Bytes → Store → Prop} (area : WorkArea)
    (sized : engine.stackSize = Stage.stackSize)
    (short : program.program.code.size ≤ engine.budget)
    (delivers : Stage.Delivers (engine.setup clock program) context.metadata post
      (.first context.packet store)) :
    let result := engine.run clock program context area store
    post result.outcome result.context.packet result.store := by
  let depth := program.statistics.stackDepth
  have stack : (area.reset engine.stackSize depth).stack.size = Stage.stackSize :=
    (area.reset_size _ _).trans sized
  have fits : (Stage.first context.packet store).Fits context.metadata
      (Machine.start (memory context (area.reset engine.stackSize depth) store)) :=
    Stage.first_fits stack
  rcases delivers _ fits with ⟨code, final, ⟨records, holds⟩, ends⟩
  have run := ends engine.budget ((Nat.sub_le _ _).trans short)
  have allClosed : final.memory.openRecords = [] := by
    rw [Memory.openRecords, records]
    rfl
  have same : final.memory.discardOpen = final.memory := by
    have mapped : final.memory.records.map (fun _ => none) = final.memory.records := by
      rw [records, Array.map_empty]
    rw [Memory.discardOpen, allClosed, mapped]
    rfl
  have closed : (Machine.start (memory context (area.reset engine.stackSize depth) store)).run
      (engine.setup clock program) =
        (.ok code, { final with memory := final.memory.discardOpen }) := by
    rw [Machine.run]
    show Machine.close _ _ = _
    rw [show (engine.setup clock program).budget = engine.budget from rfl, run,
      Machine.close, allClosed]
    rfl
  rw [same] at closed
  show post _ _ _
  simp only [Engine.run]
  rw [closed]
  exact holds

end PacketFilter
