import NaturalFunctions.Types.Shape

/-!
Types stored side by side, each one built from types before it. Only a definition may point ahead:
a name is declared first and given its target later.
-/

namespace NaturalFunctions

inductive TypeNode where
  | primitive (kind : PrimitiveKind)
  | record (fields : List (RecordField TypeId))
  | array (element : TypeId)
  | tuple (members : List TypeId)
  | union (members : List TypeId)
  | named (name : String) (target : Option TypeId)
  | json
  | error
  | nominal (name : String) (supertypes : List TypeId)
deriving DecidableEq, Repr

namespace TypeNode

def parts : TypeNode → List TypeId
  | .record fields => fields.map RecordField.type
  | .array element => [element]
  | .tuple members => members
  | .union members => members
  | .nominal _ supertypes => supertypes
  | _ => []

def target? : TypeNode → Option TypeId
  | .named _ target => target
  | _ => none

def shape : TypeNode → TypeShape
  | .primitive kind => .primitive kind
  | .record fields => .record fields
  | .array element => .array element
  | .tuple members => .tuple members
  | .union members => .union members
  | .named name (some target) => .reference name target
  | .named name none => .other name
  | .json => .json
  | .error => .error
  | .nominal name _ => .other name

def withTarget (target : TypeId) : TypeNode → TypeNode
  | .named name _ => .named name (some target)
  | node => node

theorem parts_withTarget (target : TypeId) (node : TypeNode) :
    (node.withTarget target).parts = node.parts := by
  cases node <;> rfl

theorem target_withTarget {target t : TypeId} {node : TypeNode}
    (h : (node.withTarget target).target? = some t) : t = target ∨ node.target? = some t := by
  cases node <;> simp_all [withTarget, target?]

theorem mem_parts_of_shape {node : TypeNode} {part : TypeId} (h : part ∈ node.shape.parts) :
    part ∈ node.parts := by
  cases node with
  | named name target => cases target <;> simp [shape, TypeShape.parts] at h
  | _ => simp_all [shape, TypeShape.parts, parts]

def Fits (size : Nat) (node : TypeNode) : Prop :=
  (∀ part ∈ node.parts, part < size) ∧ ∀ target ∈ node.target?.toList, target < size

instance (size : Nat) (node : TypeNode) : Decidable (node.Fits size) :=
  inferInstanceAs (Decidable (_ ∧ _))

end TypeNode

/-- The handle of a type is its place. The first two places hold `error` and `json`. -/
structure TypeArena where
  nodes : List TypeNode
  published : List ((String × String × String) × TypeId)
  error_node : nodes[0]? = some .error
  json_node : nodes[1]? = some .json
  part_lt : ∀ (id : TypeId) (node : TypeNode), nodes[id]? = some node → ∀ part ∈ node.parts, part < id
  target_lt : ∀ (id : TypeId) (node : TypeNode), nodes[id]? = some node →
    ∀ target, node.target? = some target → target < nodes.length

namespace TypeArena

def errorId : TypeId := 0

def jsonId : TypeId := 1

def size (arena : TypeArena) : Nat := arena.nodes.length

/-- A handle that names no type counts as an `error`. -/
def node (arena : TypeArena) (ty : TypeId) : TypeNode := arena.nodes[ty]?.getD .error

theorem node_part_lt (arena : TypeArena) {ty part : TypeId} (h : part ∈ (arena.node ty).parts) :
    part < ty := by
  unfold node at h
  cases hn : arena.nodes[ty]? with
  | none => simp [hn, TypeNode.parts] at h
  | some node => exact arena.part_lt ty node hn part (by simpa [hn] using h)

def empty : TypeArena where
  nodes := [.error, .json]
  published := []
  error_node := rfl
  json_node := rfl
  part_lt := by
    intro id node h part hp
    match id with
    | 0 => simp at h; simp [← h, TypeNode.parts] at hp
    | 1 => simp at h; simp [← h, TypeNode.parts] at hp
    | _ + 2 => simp at h
  target_lt := by
    intro id node h target ht
    match id with
    | 0 => simp at h; simp [← h, TypeNode.target?] at ht
    | 1 => simp at h; simp [← h, TypeNode.target?] at ht
    | _ + 2 => simp at h

theorem two_le_size (arena : TypeArena) : 2 ≤ arena.nodes.length := by
  have h := arena.json_node
  rw [List.getElem?_eq_some_iff] at h
  obtain ⟨h, _⟩ := h
  omega

def add (arena : TypeArena) (new : TypeNode) (fits : new.Fits arena.size) : TypeArena where
  nodes := arena.nodes ++ [new]
  published := arena.published
  error_node := by
    have h := arena.two_le_size
    rw [List.getElem?_append_left (by omega)]
    exact arena.error_node
  json_node := by
    have h := arena.two_le_size
    rw [List.getElem?_append_left (by omega)]
    exact arena.json_node
  part_lt := by
    intro id node h part hp
    rcases Nat.lt_or_ge id arena.nodes.length with hl | hl
    · rw [List.getElem?_append_left hl] at h
      exact arena.part_lt id node h part hp
    · rw [List.getElem?_append_right hl] at h
      have hm : node = new := by simpa using List.mem_of_getElem? h
      subst hm
      exact Nat.lt_of_lt_of_le (fits.1 part hp) hl
  target_lt := by
    intro id node h target ht
    rw [List.length_append]
    refine Nat.lt_add_right 1 ?_
    rcases Nat.lt_or_ge id arena.nodes.length with hl | hl
    · rw [List.getElem?_append_left hl] at h
      exact arena.target_lt id node h target ht
    · rw [List.getElem?_append_right hl] at h
      have hm : node = new := by simpa using List.mem_of_getElem? h
      subst hm
      exact fits.2 target (by simp [ht])

def add? (arena : TypeArena) (new : TypeNode) : Option TypeArena :=
  if fits : new.Fits arena.size then some (arena.add new fits) else none

def define (arena : TypeArena) (named target : TypeId) (h : target < arena.size) : TypeArena where
  nodes := arena.nodes.modify named (TypeNode.withTarget target)
  published := arena.published
  error_node := by simp [List.getElem?_modify, arena.error_node, TypeNode.withTarget]
  json_node := by simp [List.getElem?_modify, arena.json_node, TypeNode.withTarget]
  part_lt := by
    intro id node hn part hp
    rw [List.getElem?_modify, Option.map_eq_map, Option.map_eq_some_iff] at hn
    obtain ⟨old, ho, he⟩ := hn
    refine arena.part_lt id old ho part ?_
    subst he
    split at hp
    · rwa [TypeNode.parts_withTarget] at hp
    · exact hp
  target_lt := by
    intro id node hn t ht
    rw [List.length_modify]
    rw [List.getElem?_modify, Option.map_eq_map, Option.map_eq_some_iff] at hn
    obtain ⟨old, ho, he⟩ := hn
    subst he
    split at ht
    · rcases TypeNode.target_withTarget ht with ht | ht
      · exact ht ▸ h
      · exact arena.target_lt id old ho t ht
    · exact arena.target_lt id old ho t ht

def define? (arena : TypeArena) (named target : TypeId) : Option TypeArena :=
  if h : target < arena.size then some (arena.define named target h) else none

def publish (arena : TypeArena) (org module name : String) (ty : TypeId) : TypeArena :=
  { arena with published := ((org, module, name), ty) :: arena.published }

end TypeArena

end NaturalFunctions
