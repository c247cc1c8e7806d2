import NaturalFunctions.Types.Subtyping

namespace NaturalFunctions.TypeArena

def model (arena : TypeArena) : SemanticModel where
  shape ty := (arena.node ty).shape
  isSubtype := arena.isSubtype
  errorType := errorId
  jsonType := jsonId
  moduleType org module name := arena.published.lookup (org, module, name)
  inner := List.range arena.size
  rank := id
  mem_inner := by
    intro ty h
    rw [List.mem_range]
    rcases Nat.lt_or_ge ty arena.size with hl | hl
    · exact hl
    · exact absurd (by simp [node, List.getElem?_eq_none hl, TypeNode.shape, TypeShape.next,
        TypeShape.parts, TypeShape.target?]) h
  rank_part := by
    intro ty part h
    exact arena.node_part_lt (TypeNode.mem_parts_of_shape h)

end NaturalFunctions.TypeArena
