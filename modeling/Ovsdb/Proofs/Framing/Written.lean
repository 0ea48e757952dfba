import Ovsdb.Proofs.Framing.Texts
import Ovsdb.Proofs.Json.Nesting

/-! What a reader makes of a stream that has been written: the values that have been written, whatever the pieces are
    that the stream arrives in. -/

namespace Ovsdb.Framing.Reader
open Json (Legible maxDepth)

variable {frames : List Json} {reads : List (List UInt8)}

/-- Frames are read one by one, and then the stream ends cleanly. -/
theorem outcomes_frames (whole : ∀ j ∈ frames, j.isContainer = true) (legible : ∀ j ∈ frames, Legible maxDepth j)
    (filled : ∀ read ∈ reads, read ≠ []) (bytes : reads.flatten = frames.flatMap frameBytes) :
    outcomes (frames.length + 1) empty reads = frames.map (.ok ∘ some) ++ [.ok none] := by
  have texts : List.Forall₂ IsText (frames.map frameBytes) frames := by
    refine List.forall₂_map_left_iff.mpr (List.forall₂_same.mpr fun j mem => ?_)
    exact ⟨Json.read_frameBytes (legible j mem), whole j mem⟩
  have nothing : ∀ b ∈ ([] : List UInt8), Blank b := fun _ mem => absurd mem List.not_mem_nil
  obtain ⟨after, blank, run⟩ := outcomes_texts texts nothing
  have all := run [] 1
  rw [List.append_nil, List.append_nil, List.nil_append, outcomes_one, nextFrame_blank blank] at all
  rw [outcomes_eq filled, bytes]
  exact all

/-- What is written comes back: arrays and objects that are not nested too deep, whatever strings and numbers are in
    them, if the doubles among these come back from their digits. -/
theorem written_frames_come_back (whole : ∀ j ∈ frames, j.isContainer = true)
    (shallow : ∀ j ∈ frames, j.depth ≤ maxDepth) (distinct : ∀ j ∈ frames, j.Distinct)
    (restorable : ∀ j ∈ frames, ∀ x finite, .float x finite ∈ j.parts →
      Json.read (Json.float x finite).bytes = some (.float x finite))
    (filled : ∀ read ∈ reads, read ≠ []) (bytes : reads.flatten = frames.flatMap frameBytes) :
    outcomes (frames.length + 1) empty reads = frames.map (.ok ∘ some) ++ [.ok none] :=
  outcomes_frames whole (fun j mem => Json.legible (shallow j mem) (distinct j mem) (restorable j mem)) filled bytes

/-- An object and an array, with brackets and quotes in their strings, the smallest and the largest integer, and a
    double. -/
def assorted : List Json :=
  [.obj [("]\"", .arr [.int ⟨-0x8000000000000000, by decide, by decide⟩, .obj []]), ("", .str "\x7b\\\n\x00😀")],
    .arr [.int ⟨0xffffffffffffffff, by decide, by decide⟩, .float 0.5 (by decide +kernel), .null]]

/-- They come back when each byte arrives on its own. -/
theorem written_frames_come_back_bytewise :
    outcomes 3 empty ((assorted.flatMap frameBytes).map ([·])) = assorted.map (.ok ∘ some) ++ [.ok none] := by
  show outcomes (assorted.length + 1) empty _ = _
  refine written_frames_come_back ?_ ?_ ?_ ?_ ?_ ?_
  · simp [assorted, Json.isContainer]
  · simp [assorted, Json.depth, Json.itemsDepth, Json.membersDepth, maxDepth]
  · simp [assorted, Json.Distinct, Json.parts, Json.itemsParts, Json.membersParts]
  · suffices ∀ x finite, x = 0.5 → Json.read (Json.float x finite).bytes = some (.float x finite) by
      simpa [assorted, Json.parts, Json.itemsParts, Json.membersParts]
    rintro x finite rfl
    rfl
  · intro read mem
    obtain ⟨b, -, rfl⟩ := List.mem_map.mp mem
    exact List.cons_ne_nil b []
  · rw [← List.flatMap_def, List.flatMap_singleton']

end Ovsdb.Framing.Reader
