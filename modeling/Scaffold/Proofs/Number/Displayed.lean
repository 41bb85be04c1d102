import Scaffold.Proofs.Number.Decimal
import Scaffold.Proofs.Text.Lines
import Scaffold.Value.Display

/-!
# The text of a number

The digits of a natural number are digits of ASCII, no two numbers have the same
(`Text.ofNat_inj`), and whatever number is displayed, its text has nothing but digits, signs, a
point and the letters of exponents and of infinite and undefined numbers (`Number.display_subset`).
-/

namespace Scaffold

open CodePoint

/-- The code points that numbers are displayed with. -/
def numberParts : Text := "+-.0123456789aefin"

theorem Text.isAsciiDigit_of_mem_ofNat {n : Nat} {c : CodePoint} (h : c ∈ Text.ofNat n) :
    c.isAsciiDigit = true := by
  obtain ⟨d, hd, rfl⟩ := List.mem_map.1 h
  exact Nat.isDigit_of_mem_toDigits (by decide) (by decide) hd

theorem Text.ofNat_inj {m n : Nat} (h : Text.ofNat m = Text.ofNat n) : m = n := by
  have hdigits : Nat.toDigits 10 m = Nat.toDigits 10 n :=
    List.map_injective_iff.2 (fun _ _ => CodePoint.scalar.inj) h
  rw [← Nat.ofDigitChars_ten_toDigits (n := m), hdigits, Nat.ofDigitChars_ten_toDigits]

theorem Text.ofNat_subset_numberParts (n : Nat) : Text.ofNat n ⊆ numberParts := fun c hc => by
  obtain ⟨d, hd, rfl⟩ := List.mem_map.1 hc
  exact Numeral.of_isDigit (P := fun d => CodePoint.scalar d ∈ numberParts) (by decide)
    (Nat.isDigit_of_mem_toDigits (by decide) (by decide) hd)

theorem Text.ofInt_subset_numberParts (i : Int) : Text.ofInt i ⊆ numberParts := by
  cases i with
  | ofNat n => exact ofNat_subset_numberParts n
  | negSucc n => exact List.append_subset.2 ⟨by decide, ofNat_subset_numberParts _⟩

theorem Text.isInline_ofInt (i : Int) : (Text.ofInt i).IsInline := fun hmem =>
  absurd (ofInt_subset_numberParts i hmem) (by decide)

namespace DoubleLayout

theorem replicate_zero_subset (n : Nat) :
    List.replicate n (CodePoint.scalar '0') ⊆ numberParts := fun c hc => by
  rw [List.eq_of_mem_replicate hc]
  decide

theorem exponentPart_subset (p : Int) : exponentPart p ⊆ numberParts := by
  refine List.append_subset.2 ⟨?_, List.append_subset.2 ⟨replicate_zero_subset _, ?_⟩⟩
  · split_ifs <;> decide
  · exact Text.ofNat_subset_numberParts _

theorem layDigits_subset (digits : Nat) (exponent : Int) :
    layDigits digits exponent ⊆ numberParts := by
  have hdigits := Text.ofNat_subset_numberParts digits
  unfold layDigits
  dsimp only
  generalize Text.ofNat digits = text at hdigits
  have hpoint : Text.ofString "." ⊆ numberParts := by decide
  split_ifs with hscientific hsmall hwhole
  · -- one digit stands in front of the point
    cases text with
    | nil => exact List.nil_subset _
    | cons d rest =>
      obtain ⟨hd, hrest⟩ := List.cons_subset.1 hdigits
      cases rest with
      | nil => exact List.cons_subset.2 ⟨hd, exponentPart_subset _⟩
      | cons e rest =>
        exact List.append_subset.2 ⟨List.append_subset.2 ⟨List.append_subset.2
          ⟨List.cons_subset.2 ⟨hd, List.nil_subset _⟩, hpoint⟩, hrest⟩, exponentPart_subset _⟩
  · simp only [List.append_subset]
    exact ⟨⟨by decide, replicate_zero_subset _⟩, hdigits⟩
  · simp only [List.append_subset]
    exact ⟨⟨hdigits, replicate_zero_subset _⟩, by decide⟩
  · simp only [List.append_subset]
    exact ⟨⟨List.Subset.trans (List.take_subset _ _) hdigits, hpoint⟩,
      List.Subset.trans (List.drop_subset _ _) hdigits⟩

theorem plain_lay_subset (d : Double) : plain.lay d ⊆ numberParts := by
  have hsign (negative : Bool) : sign negative ⊆ numberParts := by cases negative <;> decide
  cases d with
  | nan => exact fun c hc => by revert c; decide
  | infinite s => exact List.append_subset.2 ⟨hsign s, by decide⟩
  | finite s m e =>
    refine List.append_subset.2 ⟨hsign s, ?_⟩
    unfold magnitude
    split_ifs
    · decide
    · split <;> exact layDigits_subset _ _

end DoubleLayout

theorem Number.display_subset (n : Number) : n.display ⊆ numberParts := by
  cases n with
  | integer i => exact Text.ofInt_subset_numberParts i
  | double d => exact DoubleLayout.plain_lay_subset d

theorem Number.isInline_display (n : Number) : n.display.IsInline := fun hmem =>
  absurd (n.display_subset hmem) (by decide)

end Scaffold
