import Ovsdb.Address
import Ovsdb.Proofs.Text.Digits

/-! Which texts are addresses, and what a client makes of its settings. An address is its scheme and whatever stands
    behind the first colon, and is displayed as it was given. Settings are refused for a wrong address before they
    are refused for a wrong interval. -/

namespace Ovsdb
open Text (Numeral parseWord parseWord_eq_some)

variable {s secs scheme rest : String} {cs before behind : List Char} {a : Address} {k : Option String} {e : Error}
  {n : Nat} {c : Config}

/-! ### Addresses -/

theorem splitAtColon_append (colonless : ':' ∉ before) :
    splitAtColon (before ++ ':' :: behind) = some (before, behind) := by
  induction before with
  | nil => rfl
  | cons c before ih =>
    obtain ⟨other, colonless⟩ := List.ne_and_not_mem_of_not_mem_cons colonless
    rw [List.cons_append, splitAtColon, if_neg (Ne.symm other), ih colonless]
    rfl

theorem append_of_splitAtColon (h : splitAtColon cs = some (before, behind)) : cs = before ++ ':' :: behind := by
  induction cs generalizing before with
  | nil => cases h
  | cons c rest ih =>
    rw [splitAtColon] at h
    split at h
    · next colon =>
      cases h
      rw [colon, List.nil_append]
    · obtain ⟨⟨before, behind⟩, cut, same⟩ := Option.map_eq_some_iff.mp h
      cases same
      rw [ih cut, List.cons_append]

theorem eq_append_of_toList (scheme : String) (h : s.toList = scheme.toList ++ ':' :: behind) :
    s = scheme ++ ":" ++ String.ofList behind :=
  String.toList_inj.mp (by simp [h])

namespace Address

/-- What is dialled: all that stands behind the scheme. -/
def target : Address → String
  | .tcp target | .unix target => target

theorem ofString_append (scheme : String) (colonless : ':' ∉ scheme.toList) (filled : rest ≠ "") :
    ofString (scheme ++ ":" ++ rest) =
      if scheme = "tcp" then .ok (.tcp rest)
      else if scheme = "unix" then .ok (.unix rest)
      else .error (.connection (.unknownProtocol scheme)) := by
  have cut : splitAtColon (scheme ++ ":" ++ rest).toList = some (scheme.toList, rest.toList) := by
    rw [String.toList_append, String.toList_append, List.append_assoc]
    exact splitAtColon_append colonless
  cases chars : rest.toList with
  | nil => exact absurd (String.toList_eq_nil_iff.mp chars) filled
  | cons c more =>
    rw [chars] at cut
    rw [ofString, cut]
    simp only [String.toList_inj, ← chars, String.ofList_toList]

theorem ofString_text (filled : a.target ≠ "") : ofString a.text = .ok a := by
  cases a with
  | tcp target => exact ofString_append "tcp" (by decide) filled
  | unix target => exact ofString_append "unix" (by decide) filled

theorem text_of_ofString (h : ofString s = .ok a) : a.text = s ∧ a.target ≠ "" := by
  rw [ofString] at h
  split at h
  · cases h
  · cases h
  · next protocol c rest cut =>
    have whole := append_of_splitAtColon cut
    have filled : String.ofList (c :: rest) ≠ "" := by simp
    split at h
    · next tcp =>
      cases h
      exact ⟨(eq_append_of_toList "tcp" (tcp ▸ whole)).symm, filled⟩
    · split at h
      · next unix =>
        cases h
        exact ⟨(eq_append_of_toList "unix" (unix ▸ whole)).symm, filled⟩
      · cases h

theorem exists_fault (h : ofString s = .error e) : ∃ fault, e = .connection fault := by
  rw [ofString] at h
  repeat' split at h
  all_goals cases h
  all_goals exact ⟨_, rfl⟩

/-- The texts of addresses are a scheme with something behind it. -/
theorem exists_ofString :
    (∃ a, ofString s = .ok a) ↔ ∃ rest, rest ≠ "" ∧ (s = "tcp:" ++ rest ∨ s = "unix:" ++ rest) := by
  constructor
  · rintro ⟨a, read⟩
    obtain ⟨rfl, filled⟩ := text_of_ofString read
    cases a with
    | tcp target => exact ⟨target, filled, .inl rfl⟩
    | unix target => exact ⟨target, filled, .inr rfl⟩
  · rintro ⟨rest, filled, rfl | rfl⟩
    · exact ⟨.tcp rest, ofString_text (a := .tcp rest) filled⟩
    · exact ⟨.unix rest, ofString_text (a := .unix rest) filled⟩

end Address

/-! ### Settings -/

namespace Config

/-- What a setting for the interval means. -/
inductive Interval : Option String → Option Nat → Prop where
  | unset : Interval none none
  | off {secs : String} (zero : Numeral secs.toList 0) : Interval (some secs) none
  | every {secs : String} {n : Nat} (read : Numeral secs.toList n) (positive : n ≠ 0) : Interval (some secs) (some n)

theorem Interval.eq_none_iff {keepalive : Option Nat} (h : Interval k keepalive) :
    keepalive = none ↔ k = none ∨ ∃ secs, k = some secs ∧ Numeral secs.toList 0 := by
  cases h with
  | unset => simp
  | off zero => simpa using zero
  | every read positive => simpa using fun zero => positive (read.unique zero)

theorem Interval.eq_some_iff {keepalive : Option Nat} (h : Interval k keepalive) :
    keepalive = some n ↔ n ≠ 0 ∧ ∃ secs, k = some secs ∧ Numeral secs.toList n := by
  cases h with
  | unset => simp
  | off zero => simpa using fun positive read => positive (read.unique zero)
  | every read positive =>
    simp only [Option.some_inj, exists_eq_left']
    constructor
    · rintro rfl
      exact ⟨positive, read⟩
    · exact fun h => read.unique h.2

/-- A setting for the interval that means nothing. -/
def Senseless (k : Option String) : Prop :=
  ∃ secs, k = some secs ∧ ¬∃ n, Numeral secs.toList n

theorem ofValues_of_fault (h : Address.ofString s = .error e) : ofValues (some s) k = .error e := by
  simp [ofValues, h, bind, Except.bind]

theorem ofValues_of_senseless (h : Address.ofString s = .ok a) (senseless : Senseless k) :
    ∃ secs, k = some secs ∧
      ofValues (some s) k = .error (.connection (.invalidSetting "OVSDB_KEEPALIVE_SECS" secs)) := by
  obtain ⟨secs, rfl, wrong⟩ := senseless
  have unread : parseWord secs.toList = none :=
    Option.eq_none_iff_forall_ne_some.mpr fun n read => wrong ⟨n, parseWord_eq_some.mp read⟩
  refine ⟨secs, rfl, ?_⟩
  simp [ofValues, h, bind, Except.bind, unread, throw, throwThe, MonadExceptOf.throw]

theorem ofValues_of_sense (h : Address.ofString s = .ok a) (sense : ¬Senseless k) :
    ∃ keepalive, Interval k keepalive ∧ ofValues (some s) k = .ok ⟨a, keepalive⟩ := by
  cases k with
  | none => exact ⟨none, .unset, by simp [ofValues, h, bind, Except.bind, pure, Except.pure]⟩
  | some secs =>
    have numeral : ∃ n, Numeral secs.toList n := by simpa [Senseless] using sense
    obtain ⟨n, numeral⟩ := numeral
    have read := parseWord_eq_some.mpr numeral
    by_cases zero : n = 0
    · subst zero
      exact ⟨none, .off numeral, by simp [ofValues, h, bind, Except.bind, pure, Except.pure, read]⟩
    · exact ⟨some n, .every numeral zero, by simp [ofValues, h, bind, Except.bind, pure, Except.pure, read, zero]⟩

/-- Which texts are addresses and which settings are accepted. An address is `tcp:` or `unix:` with anything behind it,
    is displayed as it was given, and comes back from its text. Settings are refused exactly if the address is wrong or
    the interval is set to something else than digits, with or without a plus sign, that fit a 64-bit word; a wrong
    address is what is reported first. If they are accepted the server is asked every so many seconds, and not at all
    if no interval is set or it is zero. -/
theorem settings_understood :
    (∀ s, (∃ a, Address.ofString s = .ok a) ↔ ∃ rest, rest ≠ "" ∧ (s = "tcp:" ++ rest ∨ s = "unix:" ++ rest)) ∧
    (∀ s a, Address.ofString s = .ok a → a.text = s) ∧
    (∀ a : Address, a.target ≠ "" → Address.ofString a.text = .ok a) ∧
    ∀ s k,
      ((∃ e, ofValues (some s) k = .error e) ↔ (¬∃ a, Address.ofString s = .ok a) ∨
        ∃ secs, k = some secs ∧ ¬∃ n, Numeral secs.toList n) ∧
      (∀ e, ofValues (some s) k = .error e → ∃ fault, e = .connection fault) ∧
      (∀ e, Address.ofString s = .error e → ofValues (some s) k = .error e) ∧
      ∀ c, ofValues (some s) k = .ok c → Address.ofString s = .ok c.address ∧
        (c.keepalive = none ↔ k = none ∨ ∃ secs, k = some secs ∧ Numeral secs.toList 0) ∧
        ∀ n, c.keepalive = some n ↔ n ≠ 0 ∧ ∃ secs, k = some secs ∧ Numeral secs.toList n := by
  refine ⟨fun s => Address.exists_ofString, fun s a read => (Address.text_of_ofString read).1,
    fun a => Address.ofString_text, fun s k => ?_⟩
  cases address : Address.ofString s with
  | error e =>
    have refused := ofValues_of_fault (k := k) address
    obtain ⟨fault, rfl⟩ := Address.exists_fault address
    simp [refused]
  | ok a =>
    by_cases senseless : Senseless k
    · obtain ⟨secs, rfl, refused⟩ := ofValues_of_senseless address senseless
      have wrong : ∀ n, ¬Numeral secs.toList n := by simpa [Senseless] using senseless
      simp [refused, wrong]
    · obtain ⟨keepalive, interval, accepted⟩ := ofValues_of_sense address senseless
      have sense : ¬∃ secs, k = some secs ∧ ¬∃ n, Numeral secs.toList n := senseless
      rw [accepted]
      refine ⟨by simpa using sense, nofun, nofun, ?_⟩
      rintro c ⟨⟩
      exact ⟨rfl, interval.eq_none_iff, fun n => interval.eq_some_iff⟩

/-- Colons in the target and a sign before the interval are accepted. Of two faults the one of the address counts. -/
theorem settings_understood_signed :
    ofValues (some "tcp:[::1]:6640") (some "+05") = .ok ⟨.tcp "[::1]:6640", some 5⟩ ∧
      (Address.tcp "[::1]:6640").text = "tcp:[::1]:6640" ∧ (∃ secs, some "+05" = some secs ∧ Numeral secs.toList 5) ∧
      ofValues (some "udp:x") (some "soon") = .error (.connection (.unknownProtocol "udp")) := by
  have accepted : ofValues (some "tcp:[::1]:6640") (some "+05") = .ok ⟨.tcp "[::1]:6640", some 5⟩ := rfl
  obtain ⟨address, -, interval⟩ := (settings_understood.2.2.2 _ _).2.2.2 _ accepted
  exact ⟨accepted, settings_understood.2.1 _ _ address, ((interval 5).mp rfl).2,
    (settings_understood.2.2.2 _ _).2.2.1 _ rfl⟩

end Config
end Ovsdb
