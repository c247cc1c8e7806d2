import NaturalFunctions.Call.Client
import NaturalFunctions.Proofs.Answer.Flattening

namespace NaturalFunctions

namespace Definitions

variable {defs : Definitions} {type : Descriptor}

def flatSchema (defs : Definitions) : List Descriptor → Option Schema
  | [] => none
  | [single] => defs.derive single
  | members => defs.derive (.union members)

theorem resolveSchema_eq_derive (type : Descriptor) : defs.resolveSchema type = defs.derive type := by
  unfold resolveSchema
  cases type with
  | reference i =>
    cases hs : defs.schema? i with
    | none => simp [attachedSchema?, hs]
    | some schema => simp [attachedSchema?, hs, derive, deriveFrom]
  | _ => rfl

theorem unionMembers_or_error (type : Descriptor) :
    defs.unionMembers (.union [type, .error]) = defs.unionMembers type ++ [.error] := by
  unfold unionMembers
  rw [membersFrom]
  exact membersFrom_append_error [] [type]

theorem isError_error : defs.isError .error = true := by
  simp [isError, resolve, resolveFrom]

theorem derive_error : defs.derive .error = none := by
  rw [derive, deriveFrom]

theorem withoutError_of_no_error (h : ∀ member ∈ defs.unionMembers type, defs.isError member = false) :
    defs.withoutError type = type := by
  have hany : (defs.unionMembers type).any defs.isError = false := by
    simpa using h
  simp [withoutError, withoutError?, hany]

theorem resolveSchema_withoutError
    (h : ∀ member ∈ defs.unionMembers type, defs.isError member = false) :
    defs.resolveSchema (defs.withoutError (.union [type, .error])) =
      defs.flatSchema (defs.unionMembers type) := by
  have hfilter : (defs.unionMembers type ++ [Descriptor.error]).filter
      (fun member => !defs.isError member) = defs.unionMembers type := by
    rw [List.filter_append, List.filter_eq_self.mpr (by simpa using h)]
    simp [isError_error]
  have hany : (defs.unionMembers type ++ [Descriptor.error]).any defs.isError = true := by
    simp [isError_error]
  rw [resolveSchema_eq_derive, withoutError, withoutError?, unionMembers_or_error]
  simp only [hfilter, hany, ↓reduceIte]
  match defs.unionMembers type with
  | [] => simp [derive_union, flatSchema, derive_error]
  | [single] => rfl
  | first :: second :: rest => rfl

theorem flatSchema_eq_none_iff {members : List Descriptor} :
    defs.flatSchema members = none ↔
      members = [] ∨ ∃ member ∈ members, defs.derive member = none := by
  unfold flatSchema
  split
  · simp
  · simp
  · rename_i hnil _
    rw [derive_union, Option.map_eq_none_iff, mapM_eq_none_iff]
    exact (or_iff_right hnil).symm

def Level (defs : Definitions) (type : Descriptor) : Prop :=
  ∀ members, defs.Opens type members →
    2 ≤ members.length ∧ (defs.unionMembers type).length = members.length ∧
      ∀ member ∈ members, ∀ nested, ¬ defs.Opens member nested

theorem flatSchema_eq_anyOf {members : List Descriptor} {schemas : List Schema}
    (h : members.map defs.derive = schemas.map some) (hl : 2 ≤ members.length) :
    defs.flatSchema members = some (Schema.anyOf schemas) := by
  match members with
  | first :: second :: rest =>
    rw [flatSchema, derive_union, mapM_eq_some_iff_map.mpr h]
    · rfl
    · simp
    · simp

theorem map_derive_of_flatSchema {members : List Descriptor} {schemas : List Schema}
    (h : defs.flatSchema members = some (Schema.anyOf schemas))
    (hw : weight (members.map defs.derive) ≤ weight (schemas.map some)) :
    2 ≤ members.length ∧ members.map defs.derive = schemas.map some := by
  match members with
  | [] => simp [flatSchema] at h
  | [single] =>
    have hlt := weight_lt_anyOf schemas
    rw [flatSchema] at h
    rw [List.map_cons, weight, h] at hw
    omega
  | first :: second :: rest =>
    rw [flatSchema] at h
    · obtain ⟨others, hmap, heq⟩ := derive_members h
      obtain rfl : schemas = others := by simpa [Schema.anyOf] using heq
      exact ⟨by simp, hmap⟩
    · simp
    · simp

theorem flatSchema_eq_some_iff_level (hp : defs.Plain type) {schema : Schema}
    (h : defs.derive type = some schema) :
    defs.flatSchema (defs.unionMembers type) = some schema ↔ defs.Level type := by
  rcases flattening_of_derive hp h (fun k hk => absurd hk List.not_mem_nil) with
    ⟨member, hm, hd, hno⟩ | ⟨seen, members, hopens, hm, hd⟩
  · have hlevel : defs.Level type := fun members ho => absurd ho (hno members)
    rw [unionMembers, hm]
    exact ⟨fun _ => hlevel, fun _ => hd⟩
  · obtain ⟨schemas, hmap, rfl⟩ := derive_members hd
    have hplain : ∀ member ∈ members, defs.Plain member := hp.of_opens hopens
    have hloss := flattening_keeps_or_loses seen members hplain (exists_derive_of_map hmap)
    have hmembers : defs.unionMembers type = defs.membersFrom seen members := hm
    rw [← hmembers, hmap] at hloss
    constructor
    · intro hflat others hopens'
      obtain rfl := hopens.unique hopens'
      have hw : weight ((defs.unionMembers type).map defs.derive) ≤ weight (schemas.map some) := by
        rcases hloss with ⟨hkept, -⟩ | ⟨hlt, -⟩
        · exact Nat.le_of_eq (by rw [hkept])
        · omega
      obtain ⟨htwo, hkept⟩ := map_derive_of_flatSchema hflat hw
      have hcount : (defs.unionMembers type).length = members.length := by
        simpa using congrArg List.length (hkept.trans hmap.symm)
      rcases hloss with ⟨-, hno⟩ | ⟨hlt, -⟩
      · exact ⟨hcount ▸ htwo, hcount, hno⟩
      · rw [hkept] at hlt
        omega
    · intro hlevel
      obtain ⟨htwo, hcount, hno⟩ := hlevel members hopens
      rcases hloss with ⟨hkept, -⟩ | ⟨-, ⟨member, hmem, nested, ho⟩ | hless⟩
      · exact flatSchema_eq_anyOf hkept (hcount ▸ htwo)
      · exact absurd ho (hno member hmem nested)
      · omega

end Definitions

namespace Client

/-- The schema for a type or an error is that of the flattened members of the type. Where the
flattening looks through no definition with a schema, it is the schema of the type exactly for a
level type. -/
theorem schema_beside_error (client : Client) (defs : Definitions) (prompt : Prompt)
    (companion : Companion) (model : Model) (type : Descriptor)
    (hmodel : client.model? companion = some model)
    (h : ∀ member ∈ defs.unionMembers type, defs.isError member = false) :
    ∃ alone beside : Request,
      client.prepare defs prompt companion type = .ok alone ∧
      client.prepare defs prompt companion (.union [type, .error]) = .ok beside ∧
      alone.schema = defs.resolveSchema type ∧
      beside.schema = defs.flatSchema (defs.unionMembers type) ∧
      (defs.opens type = false → beside.schema = alone.schema) ∧
      (defs.Plain type → ∀ schema, alone.schema = some schema →
        (beside.schema = alone.schema ↔ defs.Level type)) ∧
      (alone.schema = none → (beside.schema = alone.schema ↔ defs.unionMembers type = [] ∨
        ∃ member ∈ defs.unionMembers type, defs.derive member = none)) := by
  have halone := Definitions.withoutError_of_no_error h
  have hbeside := Definitions.resolveSchema_withoutError h
  have hprepare : ∀ target, ∃ request : Request,
      client.prepare defs prompt companion target = .ok request ∧
        request.schema = defs.resolveSchema (defs.withoutError target) := by
    intro target
    simp only [prepare, hmodel]
    exact ⟨_, rfl, rfl⟩
  obtain ⟨alone, ha, hsa⟩ := hprepare type
  obtain ⟨beside, hb, hsb⟩ := hprepare (.union [type, .error])
  rw [halone] at hsa
  rw [hbeside] at hsb
  refine ⟨alone, beside, ha, hb, hsa, hsb, fun hc => ?_, fun hp schema hs => ?_, fun hs => ?_⟩
  · rw [hsa, hsb, Definitions.resolveSchema_eq_derive, Definitions.unionMembers,
      Definitions.membersFrom_closed hc, Definitions.membersFrom]
    rfl
  · have hd : defs.derive type = some schema := by
      rw [← Definitions.resolveSchema_eq_derive, ← hsa, hs]
    rw [hs, hsb]
    exact Definitions.flatSchema_eq_some_iff_level hp hd
  · rw [hs, hsb]
    exact Definitions.flatSchema_eq_none_iff

def petBody : Descriptor := .union [.primitive .int, .primitive .string]

def petSchema : Schema := .obj [("title", .str "pet")]

def petDefinitions : Definitions := [⟨"Pet", some petBody, some petSchema⟩]

theorem unionMembers_petBody :
    petDefinitions.unionMembers petBody = [.primitive .int, .primitive .string] := by
  simp [petBody, Definitions.unionMembers, Definitions.membersFrom]

theorem unionMembers_pet :
    petDefinitions.unionMembers (.reference 0) = [.primitive .int, .primitive .string] := by
  have hb : petDefinitions.body? 0 = some petBody := rfl
  rw [Definitions.unionMembers, Definitions.membersFrom_expand hb rfl List.not_mem_nil]
  simp [petBody, Definitions.membersFrom]

theorem no_error_among_pets :
    ∀ member ∈ [Descriptor.primitive .int, .primitive .string],
      petDefinitions.isError member = false := by
  simp [Definitions.isError, Definitions.resolve, Definitions.resolveFrom]

theorem derive_petBody : petDefinitions.derive petBody =
    some (Schema.anyOf [Schema.primitive .int, Schema.primitive .string]) := by
  simp [petBody, Definitions.derive, Definitions.deriveFrom]

theorem schema_beside_error_petBody :
    ∃ beside : Request,
      Client.prepare ⟨some (.custom "m")⟩ petDefinitions (.ofText "x") .none
        (.union [petBody, .error]) = .ok beside ∧
      beside.schema = petDefinitions.resolveSchema petBody := by
  have h : ∀ member ∈ petDefinitions.unionMembers petBody,
      petDefinitions.isError member = false := by
    rw [unionMembers_petBody]
    exact no_error_among_pets
  have hplain : petDefinitions.Plain petBody := by
    intro i hi
    cases hi with
    | member hm hi =>
      simp only [List.mem_cons, List.not_mem_nil, or_false] at hm
      rcases hm with rfl | rfl <;> cases hi
  have hlevel : petDefinitions.Level petBody := by
    intro members ho
    cases ho
    refine ⟨by simp, by rw [unionMembers_petBody], fun member hm nested ho => ?_⟩
    simp only [List.mem_cons, List.not_mem_nil, or_false] at hm
    rcases hm with rfl | rfl <;> cases ho
  obtain ⟨alone, beside, -, hb, hsa, -, -, hexact, -⟩ := schema_beside_error
    ⟨some (.custom "m")⟩ petDefinitions (.ofText "x") .none (.custom "m") petBody rfl h
  rw [Definitions.resolveSchema_eq_derive, derive_petBody] at hsa
  refine ⟨beside, hb, ?_⟩
  rw [(hexact hplain _ hsa).mpr hlevel, hsa, Definitions.resolveSchema_eq_derive, derive_petBody]

theorem attached_schema_lost_beside_error :
    (∀ member ∈ petDefinitions.unionMembers (.reference 0),
      petDefinitions.isError member = false) ∧
    petDefinitions.resolveSchema (.reference 0) = some petSchema ∧
    petDefinitions.resolveSchema (petDefinitions.withoutError (.union [.reference 0, .error])) =
      some (Schema.anyOf [Schema.primitive .int, Schema.primitive .string]) ∧
    petDefinitions.resolveSchema (petDefinitions.withoutError (.union [.reference 0, .error])) ≠
      petDefinitions.resolveSchema (.reference 0) := by
  have h : ∀ member ∈ petDefinitions.unionMembers (.reference 0),
      petDefinitions.isError member = false := by
    rw [unionMembers_pet]
    exact no_error_among_pets
  have halone : petDefinitions.resolveSchema (.reference 0) = some petSchema := rfl
  have hbeside : petDefinitions.resolveSchema
      (petDefinitions.withoutError (.union [.reference 0, .error])) =
        some (Schema.anyOf [Schema.primitive .int, Schema.primitive .string]) := by
    rw [Definitions.resolveSchema_withoutError h, unionMembers_pet, ← derive_petBody]
    rfl
  refine ⟨h, halone, hbeside, ?_⟩
  rw [halone, hbeside]
  simp [Schema.anyOf, petSchema]

end Client

end NaturalFunctions
