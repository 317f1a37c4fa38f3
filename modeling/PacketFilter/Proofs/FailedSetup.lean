import PacketFilter.Proofs.BalancerControl
import PacketFilter.Proofs.FloodControl

/-!
# Applications that could not be set up

Setting up an application can only fail while its maps are created.  Those that
have been created by then are left, empty, and keep their names; what was there
before is as it was.
-/

namespace PacketFilter

open ApplicationAction

/-- How a store is left when the maps of an application could not all be created: one of them was
not, for its name is in use or its declaration makes no sense.  All those before it are there, as
new as they were created, beside what was there before; if there are none before it, nothing has
changed. -/
def Store.StopsAt (before after : Store) (schemas : List (String × Schema))
    (error : ApplicationError) : Prop :=
  ∃ made entry later, schemas = made ++ entry :: later ∧ before.Installs after made ∧
    (made = [] → after = before) ∧
    ((∃ id, before.find? entry.1 = some id) ∧ error = .map (.duplicateName entry.1) ∨
      ∃ problem, entry.2.problem? = some problem ∧
        error = .map (.invalidSchema entry.2.kind problem))

theorem ApplicationAction.stopsAt_of_createMaps
    {schemas : List (String × Schema)} {before after : Store} {error : ApplicationError}
    (distinct : (schemas.map Prod.fst).Nodup)
    (failed : (createMaps schemas).run before = (.error error, after)) :
    before.StopsAt after schemas error := by
  rcases stops_of_createMaps failed with
    ⟨made, entry, later, refusal, rfl, ⟨maps, created⟩, refused, rfl⟩
  have installs := (installs_of_createMaps created).2
  refine ⟨made, entry, later, rfl, installs, ?_, ?_⟩
  · rintro rfl
    cases created
    rfl
  · rcases (Store.create_refused refused).2 with ⟨⟨id, taken⟩, rfl⟩ | ⟨problem, wrong, rfl⟩
    · have apart : entry.1 ∉ made.map Prod.fst := fun listed => by
        rw [List.map_append, List.map_cons] at distinct
        exact (List.nodup_append.mp distinct).2.2 _ listed _ List.mem_cons_self rfl
      exact .inl ⟨⟨id, (installs.others _ apart).symm.trans taken⟩, rfl⟩
    · exact .inr ⟨problem, wrong, rfl⟩

/-- When a guard or a balancer cannot be set up, one of its maps could not be created, and the store
is as it was but for the new maps before that one. -/
theorem failed_setup_leaves_first_maps (store after : Store) (error : ApplicationError) :
    (∀ config, (FloodGuard.create config).run store = (.error error, after) →
      store.StopsAt after (FloodGuard.schemas config) error) ∧
    (∀ maxConnections, (LoadBalancer.create maxConnections).run store = (.error error, after) →
      store.StopsAt after (LoadBalancer.schemas maxConnections) error) := by
  constructor
  · intro config failed
    rcases created : (createMaps (FloodGuard.schemas config)).run store with ⟨error' | maps, made⟩
    · rw [FloodGuard.create, Stateful.run_bind, created] at failed
      cases failed
      have distinct : ((FloodGuard.schemas config).map Prod.fst).Nodup := by
        simp [FloodGuard.schemas]
      exact stopsAt_of_createMaps distinct created
    · rcases FloodGuard.run_create created with ⟨begun, run, _⟩
      cases run.symm.trans failed
  · intro maxConnections failed
    rcases created : (createMaps (LoadBalancer.schemas maxConnections)).run store with
      ⟨error' | maps, made⟩
    · rw [LoadBalancer.create, Stateful.run_bind, created] at failed
      cases failed
      have distinct : ((LoadBalancer.schemas maxConnections).map Prod.fst).Nodup := by
        simp [LoadBalancer.schemas]
      exact stopsAt_of_createMaps distinct created
    · rcases LoadBalancer.run_create created with ⟨begun, run, _⟩
      cases run.symm.trans failed

/-- A guard for no flows fails at its second map, a balancer for no connections at its first. -/
theorem failed_setup_without_room :
    let config : FloodGuardConfig :=
      { threshold := 1, maxFlows := 0, maxBlocked := 1, eventSlots := 1 }
    (∃ error after, (FloodGuard.create config).run {} = (.error error, after) ∧
      ({} : Store).StopsAt after (FloodGuard.schemas config) error) ∧
    ∃ error after, (LoadBalancer.create 0).run {} = (.error error, after) ∧
      ({} : Store).StopsAt after (LoadBalancer.schemas 0) error := by
  intro config
  have guardFails : ((FloodGuard.create config).run {}).1.toOption.isNone := by decide +kernel
  have balancerFails : ((LoadBalancer.create 0).run {}).1.toOption.isNone := by decide +kernel
  constructor
  · rcases failed : (FloodGuard.create config).run {} with ⟨error | guard, after⟩
    · exact ⟨error, after, rfl, (failed_setup_leaves_first_maps {} after error).1 config failed⟩
    · rw [failed] at guardFails
      cases guardFails
  · rcases failed : (LoadBalancer.create 0).run {} with ⟨error | balancer, after⟩
    · exact ⟨error, after, rfl, (failed_setup_leaves_first_maps {} after error).2 0 failed⟩
    · rw [failed] at balancerFails
      cases balancerFails

/-- A guard for no flows is refused and leaves its block list behind, so that it cannot be set up
with room for flows either. -/
theorem failed_setup_leaves_blocklist :
    let config (maxFlows : Nat) : FloodGuardConfig :=
      { threshold := 1, maxFlows, maxBlocked := 1, eventSlots := 1 }
    let failed := (FloodGuard.create (config 0)).run {}
    failed.1.toOption.isNone ∧ ({} : Store).find? "ddos_blocklist" = none ∧
      failed.2.find? "ddos_blocklist" = some 0 ∧
      ((FloodGuard.create (config 1)).run {}).1.toOption.isSome ∧
      ((FloodGuard.create (config 1)).run failed.2).1.toOption.isNone := by
  decide +kernel

end PacketFilter
