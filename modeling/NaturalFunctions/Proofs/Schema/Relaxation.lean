import NaturalFunctions.Proofs.Schema.Nodes
import NaturalFunctions.Proofs.Schema.Validity

namespace NaturalFunctions.Schema

def Relaxes (node : Schema) : Prop :=
  ∀ value, admits node value = true → admits (normalize node) value = true

/-- On the values that the node admits, the branches of an exclusive choice still exclude each other
once they are reduced. -/
def KeptApart (node : Schema) : Prop :=
  ∀ branches, ("oneOf", .arr branches) ∈ node.fields → ∀ value, admits node value = true →
    branches.countP (fun branch => admits (normalize branch) value) ≤ 1

variable {tree node : Schema} {key : String} {constraint change value : Json}
  {assertion : Assertion} {combined : Bool}

theorem meets_of_admits (hm : (key, constraint) ∈ node.fields)
    (ha : Assertion.ofKey? key = some assertion) (hv : admits node value = true) :
    meets assertion constraint value = true := by
  cases node with
  | obj members => exact admits_obj_iff.mp hv _ hm assertion ha
  | null | bool | num | str | arr => cases hm

theorem meets_reduced_items (hr : reduceValue? combined false .items constraint = some change)
    (hm : ("items", constraint) ∈ node.fields)
    (hparts : ∀ step part, Follows step node part → Relaxes part)
    (h : meets .items constraint value = true) : meets .items change value = true := by
  by_cases ha : ∃ entries, constraint = .arr entries
  · obtain ⟨entries, rfl⟩ := ha
    obtain rfl := Option.some.inj hr
    rw [meets_positions_iff] at h ⊢
    intro values hv
    rw [List.zip_map_left, List.forall_mem_map]
    rintro ⟨entry, item⟩ hp
    obtain ⟨index, hi⟩ := List.getElem?_of_mem (List.of_mem_zip hp).1
    exact hparts _ entry (.position hm hi) item (h values hv _ hp)
  · push Not at ha
    have hchange : change = normalize constraint := by
      cases constraint with
      | arr entries => exact absurd rfl (ha entries)
      | null | bool | num | str | obj => exact (Option.some.inj hr).symm
    rw [meets_item_iff ha] at h
    rw [hchange, meets_item_iff (normalize_ne_arr ha)]
    exact fun values hv item hi => hparts _ constraint (.item hm ha) item (h values hv item hi)

theorem meets_reduced_combinator {branches : List Schema} (hk : key ∈ combinators)
    (hm : (key, .arr branches) ∈ node.fields) (ha : Assertion.ofKey? key = some assertion)
    (hparts : ∀ step part, Follows step node part → Relaxes part) (hapart : KeptApart node)
    (hv : admits node value = true) :
    meets assertion (.arr (branches.map normalize)) value = true := by
  have h : meets assertion (.arr branches) value = true := meets_of_admits hm ha hv
  have hbranch : ∀ branch ∈ branches, Relaxes branch := by
    intro branch hb
    obtain ⟨index, hi⟩ := List.getElem?_of_mem hb
    exact hparts _ branch (.branch hk hm hi)
  simp only [combinators, List.mem_cons, List.not_mem_nil, or_false] at hk
  rcases hk with rfl | rfl | rfl <;> obtain rfl := Option.some.inj ha
  · rw [meets_allOf_iff] at h ⊢
    exact List.forall_mem_map.mpr fun branch hb => hbranch branch hb value (h branch hb)
  · rw [meets_anyOf_iff] at h ⊢
    obtain ⟨branch, hb, hadmits⟩ := h
    exact ⟨_, List.mem_map_of_mem hb, hbranch branch hb value hadmits⟩
  · rw [meets_oneOf_iff] at h ⊢
    rw [List.countP_map]
    obtain ⟨branch, hb, hadmits⟩ := List.countP_pos_iff.mp (h ▸ Nat.one_pos)
    -- The branch that admitted the value still does, so only a second one could do harm.
    exact Nat.le_antisymm (hapart branches hm value hv)
      (List.countP_pos_iff.mpr ⟨branch, hb, hbranch branch hb value hadmits⟩)

theorem meets_reduced_properties {properties : List (String × Schema)}
    (hm : ("properties", .obj properties) ∈ node.fields)
    (hparts : ∀ step part, Follows step node part → Relaxes part)
    (h : meets .properties (.obj properties) value = true) :
    meets .properties (.obj (properties.map fun property => (property.1, normalize property.2)))
      value = true := by
  rw [meets_properties_iff] at h ⊢
  intro members hv
  rw [List.forall_mem_map]
  exact fun property hp part hl =>
    hparts _ property.2 (.property hm hp) part (h members hv property hp part hl)

theorem meets_reduced {keyword : Keyword} (hm : (key, constraint) ∈ node.fields)
    (hk : Keyword.ofKey? key = some keyword) (ha : Assertion.ofKey? key = some assertion)
    (hr : reduceValue? combined false keyword constraint = some change)
    (hparts : ∀ step part, Follows step node part → Relaxes part) (hapart : KeptApart node)
    (hv : admits node value = true) : meets assertion change value = true := by
  have h := meets_of_admits hm ha hv
  rw [Keyword.ofKey?_eq_some_iff] at hk
  cases keyword with
  | required =>
    obtain rfl := Option.some.inj hr
    exact h
  | type =>
    cases combined with
    | true => cases hr
    | false =>
      obtain rfl := Option.some.inj hr
      exact h
  | items =>
    obtain rfl := List.mem_singleton.mp hk
    obtain rfl := Option.some.inj ha
    exact meets_reduced_items hr hm hparts h
  | combinator =>
    cases constraint with
    | arr branches =>
      obtain rfl := Option.some.inj hr
      exact meets_reduced_combinator hk hm ha hparts hapart hv
    | null | bool | num | str | obj => cases hr
  | properties =>
    obtain rfl := List.mem_singleton.mp hk
    obtain rfl := Option.some.inj ha
    cases constraint with
    | obj properties =>
      obtain rfl := Option.some.inj hr
      exact meets_reduced_properties hm hparts h
    | null | bool | num | str | arr => cases hr

theorem Relaxes.of_parts (hbyte : isByteText node.fields = false)
    (hparts : ∀ step part, Follows step node part → Relaxes part) (hapart : KeptApart node) :
    Relaxes node := by
  intro value hv
  cases node with
  | obj members =>
    rw [normalize, normalizeMembers_eq_filterMap, show isByteText members = false from hbyte,
      admits_obj_iff]
    intro reduced hreduced assertion ha
    obtain ⟨⟨key, constraint⟩, hm, hr⟩ := List.mem_filterMap.mp hreduced
    simp only [reduce?, Option.bind_eq_some_iff, Option.map_eq_some_iff] at hr
    obtain ⟨keyword, hk, change, hr, rfl⟩ := hr
    exact meets_reduced hm hk ha hr hparts hapart hv
  | null | bool | num | str | arr => simpa [normalize] using hv

theorem Relaxes.keptApart (h : Relaxes node) : KeptApart node := by
  intro branches hm value hv
  have hreduced : ("oneOf", Json.arr (branches.map normalize)) ∈ (normalize node).fields :=
    mem_fields_normalize hm fun _ _ => reduce?_arr (by decide)
  have hmeets := meets_of_admits hreduced rfl (h value hv)
  rw [meets_oneOf_iff, List.countP_map] at hmeets
  exact Nat.le_of_eq hmeets

theorem relaxes_of_keptApart
    (hbyte : ∀ path node, NodeAt tree path node → isByteText node.fields = false)
    (hapart : ∀ path node, NodeAt tree path node → KeptApart node) : Relaxes tree := by
  induction hn : sizeOf tree using Nat.strongRecOn generalizing tree with
  | _ n ih =>
    subst hn
    rw [forall_nodeAt_iff] at hbyte hapart
    refine .of_parts hbyte.1 (fun step part hf => ?_) hapart.1
    exact ih _ hf.sizeOf_lt (hbyte.2 step part hf) (hapart.2 step part hf) rfl

theorem normalize_relaxes (tree : Schema)
    (hbyte : ∀ path node, NodeAt tree path node → isByteText node.fields = false) :
    ((∀ path node, NodeAt tree path node → KeptApart node) →
      ∀ value, admits tree value = true → admits (normalize tree) value = true) ∧
    ((∀ path node, NodeAt tree path node → KeptApart node) ↔
      ∀ path node, NodeAt tree path node →
        ∀ value, admits node value = true → admits (normalize node) value = true) := by
  refine ⟨relaxes_of_keptApart hbyte, fun hapart path node hn => ?_, fun h path node hn => ?_⟩
  · exact relaxes_of_keptApart (fun _ _ hi => hbyte _ _ (hn.trans hi))
      fun _ _ hi => hapart _ _ (hn.trans hi)
  · exact Relaxes.keptApart (h path node hn)

theorem not_follows_of_plain {step : Step} {part : Schema}
    (h : ∀ member ∈ node.fields, member.1 ∉ "items" :: "properties" :: combinators) :
    ¬ Follows step node part := by
  intro hf
  cases hf with
  | position hm _ | item hm _ | property hm _ => exact h _ hm (by simp)
  | branch hk hm _ => exact h _ hm (by simp [hk])

theorem forall_nodeAt_choice {P : Schema → Prop} {branches : List Schema}
    (hroot : P (.obj [("oneOf", .arr branches)])) (hbranches : ∀ branch ∈ branches, P branch)
    (hplain : ∀ branch ∈ branches, ∀ member ∈ branch.fields,
      member.1 ∉ "items" :: "properties" :: combinators) (path : List Step) (node : Schema)
    (hn : NodeAt (.obj [("oneOf", .arr branches)]) path node) : P node := by
  cases hn with
  | root => exact hroot
  | step hf hn =>
    have hmem : ∀ step part, Follows step (.obj [("oneOf", .arr branches)]) part →
        part ∈ branches := by
      intro step part hf
      cases hf with
      | position hm _ | item hm _ | property hm _ => simp [Json.fields] at hm
      | branch _ hm hi =>
        simp only [Json.fields, List.mem_singleton, Prod.mk.injEq, Json.arr.injEq] at hm
        exact hm.2 ▸ List.mem_of_getElem? hi
    cases hn with
    | root => exact hbranches _ (hmem _ _ hf)
    | step hf' _ => exact absurd hf' (not_follows_of_plain (hplain _ (hmem _ _ hf)))

def countSchema : Schema := .obj [("minimum", Json.ofNat 0), ("type", .str "integer")]

def wordSchema : Schema :=
  .obj [("enum", Json.ofStrings ["many", "none"]), ("type", .str "string")]

def countOrWord : Schema := .obj [("oneOf", .arr [countSchema, wordSchema])]

theorem normalize_relaxes_countOrWord :
    (∀ path node, NodeAt countOrWord path node → isByteText node.fields = false) ∧
    (∀ path node, NodeAt countOrWord path node → KeptApart node) ∧
    admits countOrWord (Json.ofNat 7) = true ∧
    admits (normalize countOrWord) (Json.ofNat 7) = true ∧
    admits countOrWord (.num (.int (-7))) = false ∧
    admits (normalize countOrWord) (.num (.int (-7))) = true := by
  have hbyte : ∀ path node, NodeAt countOrWord path node → isByteText node.fields = false :=
    forall_nodeAt_choice (by decide) (by decide) (by decide)
  have hapart : ∀ path node, NodeAt countOrWord path node → KeptApart node := by
    refine forall_nodeAt_choice ?_
      (by simp [KeptApart, Json.fields, countSchema, wordSchema]) (by decide)
    intro branches hm value _
    simp only [Json.fields, List.mem_singleton, Prod.mk.injEq, Json.arr.injEq, true_and] at hm
    subst hm
    have hdisjoint : admits (normalize countSchema) value = false ∨
        admits (normalize wordSchema) value = false := by
      cases value with
      | num number => exact .inr rfl
      | null | bool | str | arr | obj => exact .inl rfl
    rcases hdisjoint with h | h <;> simp [List.countP_cons, h] <;> split <;> omega
  have hseven : admits countOrWord (Json.ofNat 7) = true := by decide
  exact ⟨hbyte, hapart, hseven, (normalize_relaxes countOrWord hbyte).1 hapart _ hseven, by decide,
    by decide⟩

def eitherHalf : Schema :=
  .obj [("oneOf", .arr [countSchema,
    .obj [("maximum", .num (.int (-1))), ("type", .str "integer")]])]

theorem normalize_narrows_eitherHalf :
    (∀ path node, NodeAt eitherHalf path node → isByteText node.fields = false ∧
      ∀ member ∈ node.fields, (Assertion.ofKey? member.1).isSome) ∧
    admits eitherHalf (Json.ofNat 5) = true ∧
    admits (normalize eitherHalf) (Json.ofNat 5) = false :=
  ⟨forall_nodeAt_choice (by decide) (by decide) (by decide), by decide, by decide⟩

end NaturalFunctions.Schema
