import NaturalFunctions.Proofs.Json.RoundTrip

namespace NaturalFunctions.Json

variable {tree other : Json}

theorem eq_of_text (hp : tree.Proper) (hf : tree.FloatFree) (hp' : other.Proper)
    (hf' : other.FloatFree) (h : other.text = tree.text) : other = tree := by
  have hchars : other.chars = tree.chars := by simpa [text] using congrArg String.toList h
  -- a reader that goes deep enough for both trees finds them behind the same characters
  have hread := parse_chars hp hf (max tree.depth other.depth)
  have hread' := parse_chars hp' hf' (max tree.depth other.depth)
  rw [if_pos (Nat.le_max_left ..)] at hread
  rw [if_pos (Nat.le_max_right ..), hchars, hread] at hread'
  exact (Except.ok.inj hread').symm

theorem canonical_text_reads_back (hp : tree.Proper) (hf : tree.FloatFree) :
    ofText tree.text = (if tree.depth ≤ 127 then .ok tree else .error .malformed) ∧
      ∀ other : Json, other.Proper → other.FloatFree → other.text = tree.text → other = tree := by
  constructor
  · rw [ofText, text, String.toList_ofList, parse_chars hp hf, maxDepth]
  · intro other hp' hf' h
    exact eq_of_text hp hf hp' hf' h

def edgeTree : Json :=
  .obj [("\"\\\n\x01", .arr [.num (.int (-9223372036854775808)),
      .num (.int 18446744073709551615), .null, .bool false, .arr []]),
    ("é\x7f", .obj [("", .str "\x1f\t/😀")])]

theorem canonical_text_reads_back_edge : edgeTree.Proper ∧ edgeTree.FloatFree ∧
    ofText edgeTree.text = .ok edgeTree := by
  have hkeys : "\"\\\n\x01" < "é\x7f" := by decide
  have hsorted {first second : Json} :
      Table.Sorted [("\"\\\n\x01", first), ("é\x7f", second)] := List.pairwise_pair.mpr hkeys
  have hone {member : String × Json} : Table.Sorted [member] := List.pairwise_singleton _ _
  have hp : edgeTree.Proper := by simp [edgeTree, hsorted, hone]
  have hf : edgeTree.FloatFree := by simp [edgeTree]
  obtain ⟨hread, -⟩ := canonical_text_reads_back hp hf
  exact ⟨hp, hf, hread⟩

end NaturalFunctions.Json
