import Mathlib.Data.List.Forall2
import Scaffold.Number.Numeral

/-!
# Runs of digits

What the readers of numerals do to a text that has no blank and no sign: nothing is cut off
(`Numeral.trim_of_toAscii`, `Numeral.readSign_of_head`), and digits are added up from the left, each
digit making the number before it `radix` times as large (`Numeral.readDigits?_of_forall₂`).
-/

namespace Scaffold

open CodePoint

namespace Numeral

variable {radix acc : Nat} {t u : Text} {ds : List Nat}

theorem toAscii_of_ascii (h : ∀ c ∈ t, c.toNat < 127) : toAscii t = t :=
  (List.map_congr_left fun c hc => if_pos (h c hc)).trans (List.map_id t)

/-- Nothing is cut off a text without blanks. -/
theorem trim_of_toAscii (h : toAscii t = u) (hu : ∀ c ∈ u, isMargin c = false) : trim t = u := by
  have hmargin {v : Text} (hv : ∀ c ∈ v, isMargin c = false) : v.dropWhile isMargin = v := by
    cases v with
    | nil => rfl
    | cons c v => exact List.dropWhile_cons_of_neg (by simp [hv c List.mem_cons_self])
  rw [trim, h, hmargin hu, hmargin fun c hc => hu c (List.mem_reverse.1 hc), List.reverse_reverse]

theorem readSign_of_head (h : ∀ c ∈ t.head?, c ≠ .scalar '-' ∧ c ≠ .scalar '+') :
    readSign t = (false, t) := by
  rw [readSign.eq_def]
  split
  · exact absurd rfl (h _ rfl).1
  · exact absurd rfl (h _ rfl).2
  · rfl

theorem digitBelow?_underscore (radix : Nat) : digitBelow? radix (.scalar '_') = none := by
  have h : hexValue? (.scalar '_') = none := by decide
  rw [digitBelow?, h]
  rfl

/-- A run of digits is read digit by digit. -/
theorem readDigits?_of_forall₂ (hne : t ≠ [])
    (h : List.Forall₂ (fun c d => digitBelow? radix c = some d) t ds) :
    readDigits? radix acc t = some (ds.foldl (radix * · + ·) acc) := by
  induction h generalizing acc with
  | nil => exact absurd rfl hne
  | @cons c d t ds hc ht ih =>
    rw [readDigits?, hc, List.foldl_cons, Nat.mul_comm radix acc]
    cases ht with
    | nil => rfl
    | @cons e _ t _ he ht =>
      have hunderscore : e ≠ .scalar '_' := by
        rintro rfl
        rw [digitBelow?_underscore] at he
        cases he
      dsimp only
      split
      · cases ‹_›
      · rename_i hcons
        exact absurd (List.cons.inj hcons).1 hunderscore
      · rename_i hcons
        rw [← hcons]
        exact ih (List.cons_ne_nil e t)

end Numeral

end Scaffold
