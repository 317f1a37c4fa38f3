import PacketFilter.Proofs.Checked
import PacketFilter.Verifier.Call

/-!
# Prototypes that were met

What a call that was let through says of the argument registers, one theorem
for each helper that looks at them.
-/

namespace PacketFilter

/-! ## Single arguments -/

section

variable {setting : Setting} {focus : Focus} {helper : Helper} {register : Nat}
variable {value : AbstractValue} {arguments arguments' : CallArguments}

theorem checkMapHandle_eq_ok :
    checkMapHandle setting helper register value arguments = .ok arguments' ↔
      value.kind = .mapHandle ∧ ∃ schema, setting.schema? value.mapIndex = some schema ∧
        schema.kind ∈ helper.prototype.mapKinds ∧
          { arguments with map? := some (value.mapIndex, schema) } = arguments' := by
  rw [checkMapHandle, demand_bind_eq_ok, Checked.bind_eq_ok]
  apply and_congr_right
  intro _
  apply exists_congr
  intro schema
  rw [Setting.schemaOf_eq_ok, demand_bind_eq_ok]
  apply and_congr_right
  intro _
  exact and_congr_right fun _ => ⟨Except.ok.inj, congrArg Except.ok⟩

/-- The size argument of a helper, and the memory that it measures. -/
theorem checkConstantSize_eq_ok
    (passed : checkConstantSize setting focus helper register value arguments = .ok arguments') :
    ∃ word, value.constant? = some word ∧ 1 ≤ word.toNat ∧
      word.toNat ≤ sizeLimit helper arguments.map? ∧
        (∀ number pointer, arguments.memory? = some (number, pointer) →
          checkHelperMemory setting focus number pointer word.toNat = .ok ()) ∧
          arguments' = { arguments with constantSize := word.toNat } := by
  simp only [checkConstantSize] at passed
  split at passed
  case h_1 => cases passed
  case h_2 word constant =>
    rw [demand_bind_eq_ok] at passed
    rcases passed with ⟨⟨least, most⟩, passed⟩
    refine ⟨word, constant, least, most, ?_⟩
    split at passed
    case h_1 number pointer there =>
      rcases Checked.bind_eq_ok.mp passed with ⟨_, readable, made⟩
      cases made
      refine ⟨fun number' pointer' same => ?_, rfl⟩
      rw [there] at same
      cases same
      exact readable
    case h_2 absent =>
      cases passed
      exact ⟨fun number pointer there => absurd there (absent number pointer), rfl⟩

/-- A record argument that passes is live, held and not moved. -/
theorem checkRecord_eq_ok
    (passed : checkRecord register value arguments = .ok arguments') :
    value.kind = .record ∧ value.mayBeNull = false ∧ value.reference ≠ 0 ∧ value.offset = 0 ∧
      value.bounds.constant? = some 0 ∧
        arguments' = { arguments with released := value.reference } := by
  simp only [checkRecord, demand_bind_eq_ok, Bool.not_eq_true'] at passed
  rcases passed with ⟨⟨kind, checked, held, unmoved, still⟩, made⟩
  cases made
  exact ⟨kind, checked, held, unmoved, still, rfl⟩

end

/-! ## Calls -/

section

variable {setting : Setting} {focus : Focus} {helper : Helper} {name : RegisterName}
variable {rule : ArgumentRule} {slots : List (ArgumentRule × RegisterName)}
variable {taken arguments : CallArguments}

theorem checkArguments_cons
    (used : rule ≠ .unused)
    (passed : ((rule, name) :: slots).foldlM (checkArgument setting focus helper) taken =
      .ok arguments) :
    ∃ taken', checkUsedArgument setting focus helper rule name.val (focus.state.register name)
        taken = .ok taken' ∧
      slots.foldlM (checkArgument setting focus helper) taken' = .ok arguments := by
  rw [List.foldlM_cons, Checked.bind_eq_ok] at passed
  rcases passed with ⟨taken', passed, rest⟩
  refine ⟨taken', ?_, rest⟩
  rw [checkArgument, if_neg used, Checked.bind_eq_ok] at passed
  rcases passed with ⟨value, initialized, passed⟩
  rw [Focus.read_eq_ok] at initialized
  rwa [initialized.1] at passed

/-- The first argument is the handle of a declared map of a kind that the helper accepts. -/
structure Focus.HasHandle (focus : Focus) (setting : Setting) (helper : Helper) (schema : Schema) :
    Prop where
  kind : (focus.state.register .first).kind = .mapHandle
  declared : setting.schema? (focus.state.register .first).mapIndex = some schema
  allowed : schema.kind ∈ helper.prototype.mapKinds

/-- What the first argument is taken for when it is a handle. -/
def Focus.mapArgument (focus : Focus) (schema : Schema) : CallArguments :=
  { map? := some ((focus.state.register .first).mapIndex, schema) }

/-- Arguments that start with a handle go on with the schema of its map. -/
theorem checkArguments_handle
    (passed : ((.mapHandle, .first) :: slots).foldlM (checkArgument setting focus helper) {} =
      .ok arguments) :
    ∃ schema, focus.HasHandle setting helper schema ∧
      slots.foldlM (checkArgument setting focus helper) (focus.mapArgument schema) =
        .ok arguments := by
  rcases checkArguments_cons (by decide) passed with ⟨taken', handle, rest⟩
  rcases checkMapHandle_eq_ok.mp handle with ⟨kind, schema, declared, allowed, rfl⟩
  exact ⟨schema, ⟨kind, declared, allowed⟩, rest⟩

/-- A key argument that passes has the bytes of a key. -/
theorem checkArguments_key
    {schema : Schema}
    (passed : ((.mapKey, name) :: slots).foldlM (checkArgument setting focus helper)
      (focus.mapArgument schema) = .ok arguments) :
    checkHelperMemory setting focus name.val (focus.state.register name) schema.keySize = .ok () ∧
      slots.foldlM (checkArgument setting focus helper) (focus.mapArgument schema) =
        .ok arguments := by
  rcases checkArguments_cons (by decide) passed with ⟨taken', key, rest⟩
  simp only [checkUsedArgument, requiredSchema, Focus.mapArgument] at key
  rcases Checked.bind_eq_ok.mp key with ⟨_, known, key⟩
  cases known
  rcases Checked.bind_eq_ok.mp key with ⟨_, readable, made⟩
  cases made
  exact ⟨readable, rest⟩

/-- A value argument that passes has the bytes of a value. -/
theorem checkArguments_value
    {schema : Schema}
    (passed : ((.mapValue, name) :: slots).foldlM (checkArgument setting focus helper)
      (focus.mapArgument schema) = .ok arguments) :
    checkHelperMemory setting focus name.val (focus.state.register name) schema.valueSize =
        .ok () ∧
      slots.foldlM (checkArgument setting focus helper) (focus.mapArgument schema) =
        .ok arguments := by
  rcases checkArguments_cons (by decide) passed with ⟨taken', value, rest⟩
  simp only [checkUsedArgument, requiredSchema, Focus.mapArgument] at value
  rcases Checked.bind_eq_ok.mp value with ⟨_, known, value⟩
  cases known
  rcases Checked.bind_eq_ok.mp value with ⟨_, readable, made⟩
  cases made
  exact ⟨readable, rest⟩

end

namespace Focus

/-- The arguments meet the prototype of the helper. -/
def Accepts (focus : Focus) (setting : Setting) (helper : Helper) (arguments : CallArguments) :
    Prop :=
  (helper.prototype.arguments.zip RegisterName.arguments).foldlM
    (checkArgument setting focus helper) {} = .ok arguments

namespace Accepts

variable {setting : Setting} {focus : Focus} {arguments : CallArguments}

/-- An accepted lookup has a handle and a key of its map. -/
theorem mapLookup
    (accepts : focus.Accepts setting .mapLookup arguments) :
    ∃ schema, focus.HasHandle setting .mapLookup schema ∧
      checkHelperMemory setting focus 2 (focus.state.register .second) schema.keySize = .ok () ∧
        arguments = focus.mapArgument schema := by
  rcases checkArguments_handle accepts with ⟨schema, handle, rest⟩
  rcases checkArguments_key rest with ⟨readable, rest⟩
  cases rest
  exact ⟨schema, handle, readable, rfl⟩

/-- An accepted update has a handle, and a key and a value of its map. -/
theorem mapUpdate
    (accepts : focus.Accepts setting .mapUpdate arguments) :
    ∃ schema, focus.HasHandle setting .mapUpdate schema ∧
      checkHelperMemory setting focus 2 (focus.state.register .second) schema.keySize = .ok () ∧
        checkHelperMemory setting focus 3 (focus.state.register .third) schema.valueSize = .ok () ∧
          arguments = focus.mapArgument schema := by
  rcases checkArguments_handle accepts with ⟨schema, handle, rest⟩
  rcases checkArguments_key rest with ⟨readable, rest⟩
  rcases checkArguments_value rest with ⟨readable', rest⟩
  rcases checkArguments_cons (by decide) rest with ⟨taken, mode, rest⟩
  simp only [checkUsedArgument, demand_bind_eq_ok] at mode
  cases mode.2
  cases rest
  exact ⟨schema, handle, readable, readable', rfl⟩

/-- An accepted deletion has a handle and a key of its map. -/
theorem mapDelete
    (accepts : focus.Accepts setting .mapDelete arguments) :
    ∃ schema, focus.HasHandle setting .mapDelete schema ∧
      checkHelperMemory setting focus 2 (focus.state.register .second) schema.keySize = .ok () ∧
        arguments = focus.mapArgument schema := by
  rcases checkArguments_handle accepts with ⟨schema, handle, rest⟩
  rcases checkArguments_key rest with ⟨readable, rest⟩
  cases rest
  exact ⟨schema, handle, readable, rfl⟩

theorem currentTime
    (accepts : focus.Accepts setting .currentTime arguments) :
    arguments = {} := by
  cases accepts
  rfl

theorem workerNumber
    (accepts : focus.Accepts setting .workerNumber arguments) :
    arguments = {} := by
  cases accepts
  rfl

/-- An accepted redirection has no flags. -/
theorem redirect
    (accepts : focus.Accepts setting .redirect arguments) :
    (focus.state.register .second).constant? = some 0 ∧ arguments = {} := by
  rcases checkArguments_cons (by decide) accepts with ⟨taken, target, rest⟩
  simp only [checkUsedArgument, demand_bind_eq_ok] at target
  cases target.2
  rcases checkArguments_cons (by decide) rest with ⟨taken, flags, rest⟩
  simp only [checkUsedArgument, demand_bind_eq_ok] at flags
  cases flags.2
  cases rest
  exact ⟨flags.1, rfl⟩

/-- An accepted digest has a constant length within the limit, and so many bytes to read. -/
theorem digest
    (accepts : focus.Accepts setting .digest arguments) :
    ∃ word, (focus.state.register .second).constant? = some word ∧ 1 ≤ word.toNat ∧
      word.toNat ≤ Helper.digestLimit ∧
        checkHelperMemory setting focus 1 (focus.state.register .first) word.toNat = .ok () ∧
          arguments.released = 0 := by
  rcases checkArguments_cons (by decide) accepts with ⟨taken, memory, rest⟩
  cases memory
  rcases checkArguments_cons (by decide) rest with ⟨taken, size, rest⟩
  rcases @checkConstantSize_eq_ok setting focus _ _ _ _ _ size with
    ⟨word, constant, least, most, readable, rfl⟩
  cases rest
  exact ⟨word, constant, least, most, readable _ _ rfl, rfl⟩

/-- An accepted output has a ring, and a constant length that a record of it can take. -/
theorem ringOutput
    (accepts : focus.Accepts setting .ringOutput arguments) :
    ∃ schema word, focus.HasHandle setting .ringOutput schema ∧
      (focus.state.register .third).constant? = some word ∧ 1 ≤ word.toNat ∧
        word.toNat ≤ schema.valueSize ∧
          checkHelperMemory setting focus 2 (focus.state.register .second) word.toNat = .ok () ∧
            arguments.released = 0 := by
  rcases checkArguments_handle accepts with ⟨schema, handle, rest⟩
  rcases checkArguments_cons (by decide) rest with ⟨taken, memory, rest⟩
  cases memory
  rcases checkArguments_cons (by decide) rest with ⟨taken, size, rest⟩
  rcases @checkConstantSize_eq_ok setting focus _ _ _ _ _ size with
    ⟨word, constant, least, most, readable, rfl⟩
  rcases checkArguments_cons (by decide) rest with ⟨taken, flags, rest⟩
  simp only [checkUsedArgument, demand_bind_eq_ok] at flags
  cases flags.2
  cases rest
  exact ⟨schema, word, handle, constant, least, most, readable _ _ rfl, rfl⟩

/-- An accepted reservation has a ring, and a constant length that a record of it can take. -/
theorem ringReserve
    (accepts : focus.Accepts setting .ringReserve arguments) :
    ∃ schema word, focus.HasHandle setting .ringReserve schema ∧
      (focus.state.register .second).constant? = some word ∧ 1 ≤ word.toNat ∧
        word.toNat ≤ schema.valueSize ∧ arguments.constantSize = word.toNat ∧
          arguments.released = 0 := by
  rcases checkArguments_handle accepts with ⟨schema, handle, rest⟩
  rcases checkArguments_cons (by decide) rest with ⟨taken, size, rest⟩
  rcases @checkConstantSize_eq_ok setting focus _ _ _ _ _ size with
    ⟨word, constant, least, most, _, rfl⟩
  rcases checkArguments_cons (by decide) rest with ⟨taken, flags, rest⟩
  simp only [checkUsedArgument, demand_bind_eq_ok] at flags
  cases flags.2
  cases rest
  exact ⟨schema, word, handle, constant, least, most, rfl, rfl⟩

/-- The helpers that release a record. -/
theorem ringComplete
    {helper : Helper}
    (accepts : focus.Accepts setting helper arguments)
    (completes : helper = .ringSubmit ∨ helper = .ringDiscard) :
    (focus.state.register .first).kind = .record ∧
      (focus.state.register .first).mayBeNull = false ∧
        (focus.state.register .first).reference ≠ 0 ∧
          (focus.state.register .first).offset = 0 ∧
            (focus.state.register .first).bounds.constant? = some 0 ∧
              arguments.released = (focus.state.register .first).reference := by
  have shape : helper.prototype.arguments.zip RegisterName.arguments =
      [(.record, .first), (.anyScalar, .second), (.unused, 3), (.unused, 4), (.unused, 5)] := by
    rcases completes with rfl | rfl <;> rfl
  rw [Accepts, shape] at accepts
  rcases checkArguments_cons (by decide) accepts with ⟨taken, record, rest⟩
  rcases checkRecord_eq_ok record with ⟨kind, checked, held, unmoved, still, rfl⟩
  rcases checkArguments_cons (by decide) rest with ⟨taken, flags, rest⟩
  simp only [checkUsedArgument, demand_bind_eq_ok] at flags
  cases flags.2
  cases rest
  exact ⟨kind, checked, held, unmoved, still, rfl⟩

end Accepts

end Focus

end PacketFilter
