import Mathlib.Data.List.TakeWhile
import Scaffold.Proofs.Number.Digits

/-!
# Decimal numerals

Decimal digits of any script are read as the number they denote (`Numeral.read_of_digitValues`), and
the digits of a natural number as this number (`Numeral.read_ofNat`), unless there are more of them
than a numeral may have.
-/

namespace Scaffold

open CodePoint

namespace Numeral

variable {ds : List Char} {c : Char} {t : Text} {vs : List Nat}

/-- What holds of each digit of ASCII. -/
theorem of_isDigit {P : Char → Prop} (hall : ∀ n : Fin 10, P (Nat.digitChar n)) {c : Char}
    (h : c.isDigit = true) : P c := by
  simp only [Char.isDigit, Bool.and_eq_true, decide_eq_true_eq, ge_iff_le,
    UInt32.le_iff_toNat_le] at h
  have hlow : 48 ≤ c.toNat := h.1
  have hhigh : c.toNat ≤ 57 := h.2
  have hc : c = Nat.digitChar (c.toNat - 48) := by
    apply Char.toNat_inj.1
    rw [Nat.toNat_digitChar_of_lt_ten (by omega)]
    omega
  rw [hc]
  exact hall ⟨c.toNat - 48, by omega⟩

/-- A decimal digit is one of ASCII, or stands behind ASCII and is no blank. -/
theorem ascii_or_late {c : CodePoint} {v : Nat} (h : c.digitValue? = some v) :
    (∃ d : Fin 10, c = .scalar (Nat.digitChar d) ∧ v = d) ∨ 127 ≤ c.toNat ∧ c.isBlank = false := by
  obtain ⟨z, hfound, rfl⟩ := Option.map_eq_some_iff.1 h
  have hz := List.mem_of_find?_eq_some hfound
  have hrun := List.find?_some hfound
  simp only [Bool.and_eq_true, decide_eq_true_eq] at hrun
  have hzeros : ∀ z ∈ digitZeros, (z = 0x30 ∨ 127 ≤ z) ∧
      ∀ i ∈ blankRanges, z + 9 < i.1 ∨ i.2 < z := by decide +kernel
  obtain ⟨rfl | hlate, hblanks⟩ := hzeros z hz
  · refine .inl ⟨⟨c.toNat - 0x30, by omega⟩, ?_, rfl⟩
    cases c with
    | scalar c =>
      simp only [CodePoint.toNat] at hrun
      refine congrArg CodePoint.scalar (Char.toNat_inj.1 ?_)
      rw [Nat.toNat_digitChar_of_lt_ten (by simp only [CodePoint.toNat]; omega)]
      simp only [CodePoint.toNat]
      omega
    | surrogate u =>
      simp only [CodePoint.toNat] at hrun
      omega
  · refine .inr ⟨by omega, Bool.eq_false_iff.2 fun hblank => ?_⟩
    obtain ⟨i, hi, hlow, hhigh⟩ := Ranges.mem_of_contains hblank
    have := hblanks i hi
    omega

theorem toAsciiLower_of_late {c : CodePoint} (h : 127 ≤ c.toNat) : c.toAsciiLower = c := by
  cases c with
  | surrogate u => rfl
  | scalar c =>
    have hcapital : ¬ (c.val ≥ 'A'.val ∧ c.val ≤ 'Z'.val) := fun hc => by
      have : c.toNat ≤ 'Z'.toNat := hc.2
      exact absurd (Nat.le_trans h this) (by decide)
    exact congrArg CodePoint.scalar (dif_neg hcapital)

/-- A decimal digit becomes the one of ASCII, and is no other part of a number. -/
structure IsDecimalDigit (c : CodePoint) (v : Nat) : Prop where
  ascii : toAscii [c] = [.scalar (Nat.digitChar v)]
  letter : c.toAsciiLower ∉ Text.ofString "xboe"
  mark : c ∉ Text.ofString "_n."

theorem isDecimalDigit {c : CodePoint} {v : Nat} (h : c.digitValue? = some v) :
    IsDecimalDigit c v := by
  rcases ascii_or_late h with ⟨d, rfl, rfl⟩ | ⟨hlate, hblank⟩
  · have hall : ∀ d : Fin 10, toAscii [.scalar (Nat.digitChar d)] = [.scalar (Nat.digitChar d)] ∧
        toAsciiLower (.scalar (Nat.digitChar d)) ∉ Text.ofString "xboe" ∧
        CodePoint.scalar (Nat.digitChar d) ∉ Text.ofString "_n." := by decide
    exact ⟨(hall d).1, (hall d).2.1, (hall d).2.2⟩
  · have hearly : ∀ c ∈ Text.ofString "xboe_n.", c.toNat < 127 := by decide
    have hnot : c ∉ Text.ofString "xboe_n." := fun hc => Nat.not_lt.2 hlate (hearly c hc)
    refine ⟨?_, ?_, fun hc => hnot (List.mem_append_right (Text.ofString "xboe") hc)⟩
    · simp [toAscii, Nat.not_lt.2 hlate, hblank, h]
    · rw [toAsciiLower_of_late hlate]
      exact fun hc => hnot (List.mem_append_left (Text.ofString "_n.") hc)

/-- The text consists of decimal digits with the values `vs`. -/
def HasDigits (t : Text) (vs : List Nat) : Prop :=
  List.Forall₂ (fun c v => c.digitValue? = some v) t vs

theorem HasDigits.toAscii_eq (h : HasDigits t vs) :
    toAscii t = (vs.map Nat.digitChar).map .scalar := by
  induction h with
  | nil => rfl
  | @cons c v t vs hc _ ih =>
    have happend : toAscii (c :: t) = toAscii [c] ++ toAscii t := rfl
    rw [happend, (isDecimalDigit hc).ascii, ih]
    rfl

theorem HasDigits.isDecimalDigit (h : HasDigits t vs) : ∀ c ∈ t, ∃ v, IsDecimalDigit c v := by
  intro c hc
  obtain ⟨i, hi, rfl⟩ := List.getElem_of_mem hc
  exact ⟨_, Numeral.isDecimalDigit (h.get hi (h.length_eq ▸ hi))⟩

theorem HasDigits.lt_ten (h : HasDigits t vs) : ∀ v ∈ vs, v < 10 := by
  intro v hv
  obtain ⟨i, hi, rfl⟩ := List.getElem_of_mem hv
  exact digitValue?_lt (h.get (h.length_eq ▸ hi) hi)

theorem readDecimal_of_digitValues (hne : t ≠ []) (h : HasDigits t vs)
    (hlen : t.length ≤ maxDigits) : readDecimal t = .ok (vs.foldl (10 * · + ·) 0 : Nat) := by
  have hdigit : ∀ v : Fin 10, isMargin (.scalar (Nat.digitChar v)) = false ∧
      isAsciiDigit (.scalar (Nat.digitChar v)) = true ∧
      digitBelow? 10 (.scalar (Nat.digitChar v)) = some v.val ∧
      (.scalar (Nat.digitChar v) ≠ CodePoint.scalar '-' ∧
        .scalar (Nat.digitChar v) ≠ CodePoint.scalar '+') := by decide
  have hmem : ∀ c ∈ (vs.map Nat.digitChar).map CodePoint.scalar,
      ∃ v : Fin 10, c = .scalar (Nat.digitChar v) := by
    intro c hc
    simp only [List.mem_map, exists_exists_and_eq_and] at hc
    obtain ⟨v, hv, rfl⟩ := hc
    exact ⟨⟨v, h.lt_ten v hv⟩, rfl⟩
  have htrim : trim t = (vs.map Nat.digitChar).map .scalar :=
    trim_of_toAscii h.toAscii_eq fun c hc => by
      obtain ⟨v, rfl⟩ := hmem c hc
      exact (hdigit v).1
  have hsign : readSign ((vs.map Nat.digitChar).map .scalar) =
      (false, (vs.map Nat.digitChar).map .scalar) :=
    readSign_of_head fun c hc => by
      obtain ⟨v, rfl⟩ := hmem c (List.mem_of_mem_head? hc)
      exact (hdigit v).2.2.2
  have hcount : (((vs.map Nat.digitChar).map CodePoint.scalar).takeWhile isAsciiDigit).length =
      t.length := by
    rw [List.takeWhile_eq_self_iff.2 fun c hc => ?_, List.length_map, List.length_map, h.length_eq]
    obtain ⟨v, rfl⟩ := hmem c hc
    exact (hdigit v).2.1
  have hread : readDigits? 10 0 ((vs.map Nat.digitChar).map .scalar) =
      some (vs.foldl (10 * · + ·) 0) := by
    refine readDigits?_of_forall₂ ?_ ?_
    · intro hnil
      have hvs : vs = [] := List.map_eq_nil_iff.1 (List.map_eq_nil_iff.1 hnil)
      exact hne (List.length_eq_zero_iff.1 (h.length_eq.trans (hvs ▸ rfl)))
    · rw [List.map_map, List.forall₂_map_left_iff, List.forall₂_same]
      exact fun v hv => (hdigit ⟨v, h.lt_ten v hv⟩).2.2.1
  rw [readDecimal, htrim, hsign]
  simp only [hcount, if_neg (Nat.not_lt.2 hlen), hread]
  rfl

theorem significant_of_digits (h : HasDigits t vs) : significant t = t := by
  have hmark := fun c hc => (h.isDecimalDigit c hc).elim fun _ h => h.mark
  have hfilter : t.filter (· ≠ .scalar '_') = t :=
    List.filter_eq_self.2 fun c hc => decide_eq_true fun he => hmark c hc (he ▸ by decide)
  rw [significant, hfilter, Text.dropEnd, if_neg]
  rw [Text.endsWith, Bool.and_eq_true, beq_iff_eq]
  rintro ⟨-, htail⟩
  refine hmark (.scalar 'n') (List.mem_of_mem_drop (i := t.length - 1) ?_) (by decide)
  exact htail ▸ List.mem_singleton_self _

theorem HasDigits.not_mem_lower (h : HasDigits t vs) {d : CodePoint}
    (hd : d ∈ Text.ofString "xboe") : d ∉ t.map toAsciiLower := by
  intro hmem
  obtain ⟨c, hc, rfl⟩ := List.mem_map.1 hmem
  obtain ⟨v, hv⟩ := h.isDecimalDigit c hc
  exact hv.letter hd

theorem radixOf?_of_digits (h : HasDigits t vs) : radixOf? t = none := by
  rw [radixOf?.eq_def]
  split
  · rename_i htail
    exact absurd (htail ▸ by simp) (h.not_mem_lower (d := .scalar 'x') (by decide))
  · rename_i htail
    exact absurd (htail ▸ by simp) (h.not_mem_lower (d := .scalar 'b') (by decide))
  · rename_i htail
    exact absurd (htail ▸ by simp) (h.not_mem_lower (d := .scalar 'o') (by decide))
  · rfl

/-- Decimal digits are a literal that denotes what the digits add up to. -/
theorem read_of_digitValues (hne : t ≠ []) (h : HasDigits t vs) (hlen : t.length ≤ maxDigits) :
    Numeral.read t = .ok (.integer (vs.foldl (10 * · + ·) 0 : Nat)) := by
  have hdouble : (t.any fun c =>
      decide (c.toAsciiLower = .scalar 'e') || decide (c = .scalar '.')) = false := by
    refine List.any_eq_false.2 fun c hc => ?_
    obtain ⟨v, hv⟩ := h.isDecimalDigit c hc
    have hletter : c.toAsciiLower ≠ .scalar 'e' := fun he => hv.letter (he ▸ by decide)
    have hpoint : c ≠ .scalar '.' := fun he => hv.mark (he ▸ by decide)
    simp [hletter, hpoint]
  rw [Numeral.read, significant_of_digits h, radixOf?_of_digits h]
  simp only [hdouble, readDecimal_of_digitValues hne h hlen]
  rfl

/-- Digits are a decimal literal. -/
theorem read_of_digits (hne : ds ≠ []) (hds : ∀ c ∈ ds, c.isDigit = true)
    (hlen : ds.length ≤ maxDigits) :
    Numeral.read (ds.map .scalar) = .ok (.integer (Nat.ofDigitChars 10 ds 0)) := by
  have hdigits : HasDigits (ds.map .scalar) (ds.map fun c => c.toNat - '0'.toNat) := by
    rw [HasDigits, List.forall₂_map_left_iff, List.forall₂_map_right_iff, List.forall₂_same]
    exact fun c hc => of_isDigit
      (P := fun c => digitValue? (.scalar c) = some (c.toNat - '0'.toNat)) (by decide) (hds c hc)
  rw [read_of_digitValues (by simpa using hne) hdigits (by simpa using hlen), List.foldl_map,
    Nat.ofDigitChars_eq_foldl]

/-- **A natural number is read from its digits.** -/
theorem read_ofNat {n : Nat} (hn : (Text.ofNat n).length ≤ maxDigits) :
    Numeral.read (Text.ofNat n) = .ok (.integer n) := by
  rw [Text.ofNat, List.length_map] at hn
  rw [Text.ofNat, read_of_digits Nat.toDigits_ne_nil
    (fun c hc => Nat.isDigit_of_mem_toDigits (by decide) (by decide) hc) hn,
    Nat.ofDigitChars_ten_toDigits]

end Numeral

end Scaffold
