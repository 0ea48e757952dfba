import Ovsdb.Proofs.Json.Decode
import Ovsdb.Proofs.Text.Digits
import Ovsdb.Version

/-! Versions are three runs of digits with dots between them. Each part is the number that its run denotes, or the
    largest 64-bit word if that number is larger. -/

namespace Ovsdb
open Text (IsRun)

/-- A text that spells a version, with the runs of digits that it consists of. -/
structure SpellsVersion (s : String) (major minor patch : List Char) : Prop where
  dotted : s.toList = major ++ '.' :: (minor ++ '.' :: patch)
  major : IsRun major
  minor : IsRun minor
  patch : IsRun patch

variable {s : String} {v : Version} {run major minor patch : List Char}

theorem Text.IsRun.dotless (h : IsRun run) : '.' ∉ run := fun dot =>
  absurd (h.2 '.' dot) (by decide)

namespace SpellsVersion

theorem splitOn (h : SpellsVersion s major minor patch) : s.toList.splitOn '.' = [major, minor, patch] := by
  rw [h.dotted, List.splitOn_append_cons_self_of_not_mem h.major.dotless,
    List.splitOn_append_cons_self_of_not_mem h.minor.dotless, List.splitOn_eq_singleton h.patch.dotless]

theorem of_splitOn (cut : s.toList.splitOn '.' = [major, minor, patch]) (hmajor : IsRun major) (hminor : IsRun minor)
    (hpatch : IsRun patch) : SpellsVersion s major minor patch := by
  have joined : ['.'].intercalate (s.toList.splitOn '.') = s.toList := List.intercalate_splitOn '.'
  rw [cut] at joined
  exact ⟨by rw [← joined]; simp [List.intercalate], hmajor, hminor, hpatch⟩

end SpellsVersion

theorem isVersion_iff : isVersion s = true ↔ ∃ major minor patch, SpellsVersion s major minor patch := by
  constructor
  · intro h
    rw [isVersion] at h
    split at h
    · next major minor patch cut =>
      simp only [Bool.and_eq_true, Text.isDigits_iff] at h
      exact ⟨major, minor, patch, .of_splitOn cut h.1.1 h.1.2 h.2⟩
    · cases h
  · rintro ⟨major, minor, patch, spells⟩
    simp [isVersion, spells.splitOn, spells.major, spells.minor, spells.patch]

namespace Version

/-- The number of a run, as far as a 64-bit word goes. -/
def clamped (run : List Char) : Nat :=
  min (Nat.ofDigitChars 10 run 0) (2 ^ 64 - 1)

theorem component_eq (h : IsRun run) : component run = clamped run := by
  rw [component, Text.parseWord_of_run h, Text.word?_of_run h, clamped, show UInt64.size = 2 ^ 64 from rfl]
  split <;> simp only [Option.getD_some, Option.getD_none] <;> omega

theorem parts_eq (spells : SpellsVersion v.text major minor patch) :
    v.parts = [clamped major, clamped minor, clamped patch] := by
  rw [parts, spells.splitOn, List.map_cons, List.map_cons, List.map_cons, List.map_nil, component_eq spells.major,
    component_eq spells.minor, component_eq spells.patch]

theorem ofString_eq_ok : ofString s = .ok v ↔ v.text = s := by
  rw [ofString]
  split
  · next valid =>
    constructor
    · rintro ⟨⟩
      rfl
    · rintro rfl
      rfl
  · next invalid =>
    constructor
    · exact nofun
    · rintro rfl
      exact absurd v.valid invalid

/-- A text is a version if and only if it is three runs of digits with single dots between them, and is refused as it
    is otherwise. Its parts are the numbers of the three runs, each cut down to the largest 64-bit word, and it is
    kept and written as it was given. -/
theorem version_is_three_runs (s : String) :
    ((∃ v, ofString s = .ok v) ↔ ∃ major minor patch, SpellsVersion s major minor patch) ∧
    ((¬∃ major minor patch, SpellsVersion s major minor patch) → ofString s = .error (.invalidVersion s)) ∧
    ∀ v, ofString s = .ok v →
      (∀ major minor patch, SpellsVersion s major minor patch → v.parts =
        [major, minor, patch].map fun run => min (Nat.ofDigitChars 10 run 0) (2 ^ 64 - 1)) ∧
      v.text = s ∧ v.toJson = .str s ∧ decode v.toJson = .ok v := by
  refine ⟨?_, fun unspelled => ?_, fun v read => ?_⟩
  · rw [← isVersion_iff]
    constructor
    · rintro ⟨v, read⟩
      exact ofString_eq_ok.mp read ▸ v.valid
    · exact fun valid => ⟨⟨s, valid⟩, ofString_eq_ok.mpr rfl⟩
  · rw [← isVersion_iff] at unspelled
    rw [ofString, dif_neg unspelled]
  · obtain rfl := ofString_eq_ok.mp read
    exact ⟨fun major minor patch spells => parts_eq spells, rfl, rfl, (Restores.version v).read⟩

/-- Zeros in front do not count, and a number of 65 bits is too large by one. -/
theorem version_is_three_runs_outgrown :
    ∃ v, ofString "007.18446744073709551616.0" = .ok v ∧ v.parts = [7, 18446744073709551615, 0] := by
  have spells : SpellsVersion "007.18446744073709551616.0" "007".toList "18446744073709551616".toList "0".toList :=
    ⟨by decide, by simp [IsRun], by simp [IsRun], by simp [IsRun]⟩
  obtain ⟨accepted, -, facts⟩ := version_is_three_runs "007.18446744073709551616.0"
  obtain ⟨v, read⟩ := accepted.mpr ⟨_, _, _, spells⟩
  exact ⟨v, read, (facts v read).1 _ _ _ spells⟩

end Version
end Ovsdb
