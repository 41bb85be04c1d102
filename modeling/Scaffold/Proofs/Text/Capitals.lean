import Mathlib.Data.List.Basic
import Scaffold.Text.UpperCase

/-!
# What capital letters are not

A capital letter is a scalar value from `U+0041` on, never a surrogate and never a code point that
ends a line (`CodePoint.mem_toUpper`), so that a text keeps its lines, and its bytes, when its first
letter becomes a capital.  In ASCII it is one of the letters `A`–`Z`
(`CodePoint.mem_toUpper_ascii`).
-/

namespace Scaffold

namespace CodePoint

/-- A scalar value from the first capital letter on. -/
def IsLate (c : CodePoint) : Prop := c.IsScalar ∧ 0x41 ≤ c.toNat

theorem isLate_of_ofNat? {n : Nat} {c : CodePoint} (h : ofNat? n = some c) (hn : 0x41 ≤ n)
    (hs : n < 0xD800 ∨ 0xE000 ≤ n) : c.IsLate := by
  rw [ofNat?, dif_neg (by omega)] at h
  by_cases hv : n.isValidChar
  · rw [dif_pos hv] at h
    obtain rfl := Option.some.inj h
    refine ⟨trivial, ?_⟩
    have hnat : (Char.ofNatAux n hv).toNat = n := UInt32.toNat_ofNatLT
    change 0x41 ≤ (Char.ofNatAux n hv).toNat
    rwa [hnat]
  · rw [dif_neg hv] at h
    cases h

theorem capitalSequences_late : ∀ s ∈ capitalSequences, ∀ n ∈ s.2,
    0x41 ≤ n ∧ (n < 0xD800 ∨ 0xE000 ≤ n) := by
  decide +kernel

theorem capitalRuns_late : ∀ r ∈ capitalRuns,
    0x41 ≤ (r.1 : Int) + r.2.2.2 ∧ ((r.2.1 : Int) + r.2.2.2 < 0xD800 ∨
      0xE000 ≤ (r.1 : Int) + r.2.2.2) := by
  decide +kernel

/-- What holds of all capitals holds of what a code point becomes, unless it stays. -/
theorem mem_toUpper_of {P : CodePoint → Prop} {c d : CodePoint}
    (hsequences : ∀ s ∈ capitalSequences, ∀ n ∈ s.2, ofNat? n = some d → P d)
    (hruns : ∀ r ∈ capitalRuns, r.1 ≤ c.toNat → c.toNat ≤ r.2.1 →
      ofNat? ((c.toNat : Int) + r.2.2.2).toNat = some d → P d)
    (h : d ∈ c.toUpper) : d = c ∨ P d := by
  rw [toUpper] at h
  dsimp only at h
  split at h
  · rename_i s capitals hs
    obtain ⟨n, hn, hd⟩ := List.mem_filterMap.1 h
    exact .inr (hsequences _ (List.mem_of_find?_eq_some hs) n hn hd)
  · split at h
    · rename_i first last step distance hr
      have hb := List.find?_some hr
      simp only [Bool.and_eq_true, decide_eq_true_eq] at hb
      cases ho : ofNat? ((c.toNat : Int) + distance).toNat with
      | none => exact .inl (by simpa [ho] using h)
      | some e =>
        obtain rfl : d = e := by simpa [ho] using h
        exact .inr (hruns _ (List.mem_of_find?_eq_some hr) hb.1.1 hb.1.2 ho)
    · exact .inl (by simpa using h)

theorem mem_toUpper {c d : CodePoint} (h : d ∈ c.toUpper) : d = c ∨ d.IsLate := by
  refine mem_toUpper_of (fun s hs n hn hd => ?_) (fun r hr hfirst hlast hd => ?_) h
  · obtain ⟨h₁, h₂⟩ := capitalSequences_late s hs n hn
    exact isLate_of_ofNat? hd h₁ h₂
  · obtain ⟨h₁, h₂⟩ := capitalRuns_late r hr
    exact isLate_of_ofNat? hd (by omega) (by omega)

/-! ### Capitals of ASCII -/

theorem toNat_of_ofNat? {n : Nat} {c : CodePoint} (h : ofNat? n = some c) : c.toNat = n := by
  rw [ofNat?] at h
  by_cases hn : 0xD800 ≤ n ∧ n < 0xE000
  · rw [dif_pos hn] at h
    obtain rfl := Option.some.inj h
    change 0xD800 + (n - 0xD800) = n
    omega
  · rw [dif_neg hn] at h
    by_cases hv : n.isValidChar
    · rw [dif_pos hv] at h
      obtain rfl := Option.some.inj h
      exact UInt32.toNat_ofNatLT
    · rw [dif_neg hv] at h
      cases h

/-- One of the capital letters of ASCII, or beyond ASCII. -/
def IsCapitalOrWide (n : Nat) : Prop := (0x41 ≤ n ∧ n ≤ 0x5A) ∨ 0x80 ≤ n

theorem capitalSequences_wide : ∀ s ∈ capitalSequences, ∀ n ∈ s.2,
    (0x41 ≤ n ∧ n ≤ 0x5A) ∨ 0x80 ≤ n := by
  decide +kernel

theorem capitalRuns_wide : ∀ r ∈ capitalRuns,
    (0x41 ≤ (r.1 : Int) + r.2.2.2 ∧ (r.2.1 : Int) + r.2.2.2 ≤ 0x5A) ∨
      0x80 ≤ (r.1 : Int) + r.2.2.2 := by
  decide +kernel

/-- In ASCII, only the capital letters are capitals. -/
theorem mem_toUpper_ascii {c d : CodePoint} (h : d ∈ c.toUpper) :
    d = c ∨ IsCapitalOrWide d.toNat := by
  refine mem_toUpper_of (P := fun d => IsCapitalOrWide d.toNat)
    (fun s hs n hn hd => ?_) (fun r hr hfirst hlast hd => ?_) h
  · rw [toNat_of_ofNat? hd]
    exact capitalSequences_wide s hs n hn
  · rw [toNat_of_ofNat? hd, IsCapitalOrWide]
    have hrun := capitalRuns_wide r hr
    omega

theorem capitalSequences_ne_nil : ∀ s ∈ capitalSequences, s.2.filterMap ofNat? ≠ [] := by
  decide +kernel

theorem toUpper_ne_nil (c : CodePoint) : c.toUpper ≠ [] := by
  rw [toUpper]
  dsimp only
  split
  · rename_i hs
    exact capitalSequences_ne_nil _ (List.mem_of_find?_eq_some hs)
  · split
    · rename_i distance _
      cases ofNat? ((c.toNat : Int) + distance).toNat <;> exact List.cons_ne_nil _ _
    · exact List.cons_ne_nil _ _

end CodePoint

namespace Text

theorem capitalize_ne_nil {t : Text} (h : t ≠ []) : t.capitalize ≠ [] := by
  cases t with
  | nil => exact absurd rfl h
  | cons c t => exact List.append_ne_nil_of_left_ne_nil (CodePoint.toUpper_ne_nil c) t

theorem mem_capitalize_of {P : CodePoint → Prop} {t : Text} {d : CodePoint}
    (hP : ∀ c, d ∈ CodePoint.toUpper c → d = c ∨ P d) (h : d ∈ t.capitalize) : d ∈ t ∨ P d := by
  cases t with
  | nil => cases h
  | cons c t =>
    rcases List.mem_append.1 h with h | h
    · exact (hP c h).imp_left fun h => by simp [h]
    · exact .inl (by simp [h])

theorem mem_capitalize {t : Text} {d : CodePoint} (h : d ∈ t.capitalize) : d ∈ t ∨ d.IsLate :=
  mem_capitalize_of (fun _ => CodePoint.mem_toUpper) h

theorem mem_capitalize_ascii {t : Text} {d : CodePoint} (h : d ∈ t.capitalize) :
    d ∈ t ∨ CodePoint.IsCapitalOrWide d.toNat :=
  mem_capitalize_of (P := fun d => CodePoint.IsCapitalOrWide d.toNat)
    (fun _ => CodePoint.mem_toUpper_ascii) h

/-- An early code point, such as a line feed, is in a capitalized text only if it was there. -/
theorem not_mem_capitalize {t : Text} {d : CodePoint} (h : d ∉ t) (hd : d.toNat < 0x41) :
    d ∉ t.capitalize := fun hm => by
  rcases mem_capitalize hm with hm | ⟨-, hl⟩
  · exact h hm
  · omega

end Text

end Scaffold
