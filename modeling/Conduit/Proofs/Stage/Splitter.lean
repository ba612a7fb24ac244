import Conduit.Stage.Splitter

/-!
# Chunks and pieces

The chunks of a list are the list cut up: in order they make the list again (`flatten_chunks`), none
is empty, and none is longer than the size. The pieces that a splitter makes of a payload of bytes
carry its chunks (`Splitter.split_bytes`), for a tag changes nothing in a payload.
-/

namespace Conduit.Stage

variable {α : Type u} {size : Nat} {l part : List α}

/-- The chunks in order are the list. -/
theorem flatten_chunks (hsize : 0 < size) (l : List α) : (chunks size l).flatten = l := by
  fun_induction chunks size l with
  | case1 l h =>
    obtain rfl := h.resolve_left (Nat.ne_of_gt hsize)
    rfl
  | case2 l h ih => rw [List.flatten_cons, ih, List.take_append_drop]

theorem ne_nil_of_mem_chunks (h : part ∈ chunks size l) : part ≠ [] := by
  fun_induction chunks size l with
  | case1 l _ => cases h
  | case2 l hl ih =>
    rcases List.mem_cons.1 h with rfl | h
    · rw [Ne, List.take_eq_nil_iff]
      exact hl
    · exact ih h

theorem length_le_of_mem_chunks (h : part ∈ chunks size l) : part.length ≤ size := by
  fun_induction chunks size l with
  | case1 l _ => cases h
  | case2 l _ ih =>
    rcases List.mem_cons.1 h with rfl | h
    · exact List.length_take_le size l
    · exact ih h

namespace Splitter

/-- A tag changes nothing in the payloads of pieces. -/
theorem map_asBytes_tagged (name : String) (pieces : List Message) :
    (tagged name pieces).map Message.asBytes = pieces.map Message.asBytes := by
  have hbytes : Message.asBytes ∘ (fun p : Message × Nat ↦
      p.1.withChunk (tag name p.2 pieces.length)) = Message.asBytes ∘ Prod.fst := rfl
  rw [tagged, List.map_map, hbytes, ← List.map_map, List.zipIdx_map_fst]

/-- A splitter of bytes always makes pieces, which carry the chunks of the payload in order. -/
theorem split_bytes {s : Splitter} (h : s.mode = .bytes) (name : String) (m : Message) :
    ∃ pieces, s.split name m = .ok pieces ∧
      pieces.map Message.asBytes = chunks s.size m.asBytes := by
  refine ⟨tagged name (s.splitBytes m), by rw [split, h], ?_⟩
  rw [map_asBytes_tagged, splitBytes, List.map_map]
  exact List.map_id (chunks s.size m.asBytes)

end Splitter

end Conduit.Stage
