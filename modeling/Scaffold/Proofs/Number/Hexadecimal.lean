import Mathlib.Algebra.Group.Nat.Defs
import Scaffold.Proofs.Number.Digits

/-!
# Hexadecimal numerals

Hexadecimal digits are read as the number they denote (`Numeral.readInteger?_of_isHexOf`), small or
capital and with zeros in front of them.  The digits that are written for a number denote it
(`Numeral.isHexOf_hex`), and they have the width asked for if the number fits
(`Numeral.length_hex`).
-/

namespace Scaffold

open CodePoint

namespace Numeral

/-- The number that hexadecimal digits denote behind the number `acc`. -/
def hexBehind? (acc : Nat) (t : Text) : Option Nat :=
  t.foldlM (fun n c => c.hexValue?.map (16 * n + ·)) acc

/-- The text consists of hexadecimal digits that denote `n`. -/
structure IsHexOf (t : Text) (n : Nat) : Prop where
  /-- There is a digit. -/
  ne_nil : t ≠ []
  /-- The digits denote the number. -/
  denotes : hexBehind? 0 t = some n

variable {c : CodePoint} {t : Text} {n acc width : Nat}

theorem hexBehind?_cons (acc : Nat) (c : CodePoint) (t : Text) :
    hexBehind? acc (c :: t) = c.hexValue?.bind fun d => hexBehind? (16 * acc + d) t := by
  rw [hexBehind?, List.foldlM_cons]
  cases c.hexValue? <;> rfl

theorem hexBehind?_append (acc : Nat) (t u : Text) :
    hexBehind? acc (t ++ u) = (hexBehind? acc t).bind fun n => hexBehind? n u := by
  rw [hexBehind?, List.foldlM_append]
  rfl

/-! ### Digits -/

/-- What holds of each hexadecimal digit of ASCII holds of every one. -/
theorem of_hexValue? {P : CodePoint → Prop} (hall : ∀ n : Fin 128,
    (hexValue? (.scalar (Char.ofNat n))).isSome → P (.scalar (Char.ofNat n)))
    (h : c.hexValue?.isSome) : P c := by
  cases c with
  | surrogate u => cases h
  | scalar c =>
    have hlt : c.toNat < 128 := by
      have hle : c ≤ '9' ∨ c ≤ 'f' ∨ c ≤ 'F' := by
        rw [hexValue?] at h
        split at h
        · exact .inl (by simp_all)
        · split at h
          · exact .inr (.inl (by simp_all))
          · split at h
            · exact .inr (.inr (by simp_all))
            · cases h
      have hto {d : Char} (hle : c ≤ d) : c.toNat ≤ d.toNat := hle
      rcases hle with h | h | h
      · exact Nat.lt_of_le_of_lt (hto h) (by decide)
      · exact Nat.lt_of_le_of_lt (hto h) (by decide)
      · exact Nat.lt_of_le_of_lt (hto h) (by decide)
    have := hall ⟨c.toNat, hlt⟩
    rw [Char.ofNat_toNat] at this
    exact this h

/-- A hexadecimal digit is in ASCII, and is neither a blank nor a sign nor a mark. -/
structure IsPlainDigit (c : CodePoint) : Prop where
  ascii : c.toNat < 127
  margin : isMargin c = false
  minus : c ≠ .scalar '-'
  plus : c ≠ .scalar '+'
  underscore : c ≠ .scalar '_'
  mark : c.toAsciiLower ≠ .scalar 'x'
  opening : c ≠ .scalar '\x7b'
  closing : c ≠ .scalar '\x7d'
  below : digitBelow? 16 c = c.hexValue?

theorem isPlainDigit (h : c.hexValue?.isSome) : IsPlainDigit c := by
  have hall : ∀ n : Fin 128, (hexValue? (.scalar (Char.ofNat n))).isSome →
      (CodePoint.scalar (Char.ofNat n)).toNat < 127 ∧ isMargin (.scalar (Char.ofNat n)) = false ∧
      CodePoint.scalar (Char.ofNat n) ∉ Text.ofString "-+_\x7b\x7d" ∧
      (CodePoint.scalar (Char.ofNat n)).toAsciiLower ≠ .scalar 'x' ∧
      digitBelow? 16 (.scalar (Char.ofNat n)) = hexValue? (.scalar (Char.ofNat n)) := by
    decide +kernel
  obtain ⟨hascii, hmargin, hmarks, hmark, hbelow⟩ := of_hexValue? (P := fun c => c.toNat < 127 ∧
    isMargin c = false ∧ c ∉ Text.ofString "-+_\x7b\x7d" ∧ c.toAsciiLower ≠ .scalar 'x' ∧
    digitBelow? 16 c = c.hexValue?) hall h
  have hne {d : CodePoint} (hd : d ∈ Text.ofString "-+_\x7b\x7d") : c ≠ d := fun he =>
    hmarks (he ▸ hd)
  exact ⟨hascii, hmargin, hne (by decide), hne (by decide), hne (by decide), hmark,
    hne (by decide), hne (by decide), hbelow⟩

theorem isPlainDigit_of_mem (h : (hexBehind? acc t).isSome) : ∀ c ∈ t, IsPlainDigit c := by
  induction t generalizing acc with
  | nil => nofun
  | cons c t ih =>
    rw [hexBehind?_cons] at h
    cases hc : c.hexValue? with
    | none => rw [hc] at h; cases h
    | some d =>
      rw [hc] at h
      exact List.forall_mem_cons.2 ⟨isPlainDigit (by rw [hc]; rfl), ih h⟩

/-! ### Reading -/

theorem exists_digits_of_hexBehind? (h : hexBehind? acc t = some n) :
    ∃ ds, List.Forall₂ (fun c d => digitBelow? 16 c = some d) t ds ∧
      ds.foldl (16 * · + ·) acc = n := by
  induction t generalizing acc with
  | nil => exact ⟨[], .nil, Option.some.inj h⟩
  | cons c t ih =>
    rw [hexBehind?_cons] at h
    obtain ⟨d, hd, hrest⟩ := Option.bind_eq_some_iff.1 h
    obtain ⟨ds, hds, hsum⟩ := ih hrest
    have hbelow := (isPlainDigit (c := c) (by rw [hd]; rfl)).below
    exact ⟨d :: ds, .cons (hbelow.trans hd) hds, hsum⟩

theorem readDigits?_hex (hne : t ≠ []) (h : hexBehind? acc t = some n) :
    readDigits? 16 acc t = some n := by
  obtain ⟨ds, hds, rfl⟩ := exists_digits_of_hexBehind? h
  exact readDigits?_of_forall₂ hne hds

theorem trim_of_plain (h : ∀ c ∈ t, IsPlainDigit c) : trim t = t :=
  trim_of_toAscii (toAscii_of_ascii fun c hc => (h c hc).ascii) fun c hc => (h c hc).margin

theorem readSign_of_plain (h : ∀ c ∈ t, IsPlainDigit c) : readSign t = (false, t) :=
  readSign_of_head fun c hc =>
    ⟨(h c (List.mem_of_mem_head? hc)).minus, (h c (List.mem_of_mem_head? hc)).plus⟩

theorem dropMark_of_plain (h : ∀ c ∈ t, IsPlainDigit c) : dropMark 'x' t = t := by
  rw [dropMark.eq_def]
  split
  · rw [if_neg (h _ (by simp)).mark]
  · rfl

/-- Hexadecimal digits are read as the number they denote. -/
theorem readInteger?_of_isHexOf (h : IsHexOf t n) : readInteger? 16 'x' t = some (n : Int) := by
  have hplain : ∀ c ∈ t, IsPlainDigit c :=
    isPlainDigit_of_mem (show (hexBehind? 0 t).isSome by rw [h.denotes]; rfl)
  rw [readInteger?, trim_of_plain hplain, readSign_of_plain hplain]
  dsimp only
  rw [dropMark_of_plain hplain, readDigits?_hex h.ne_nil h.denotes]
  rfl

/-! ### Writing -/

theorem hexValue?_digitChar (d : Nat) (h : d < 16) :
    hexValue? (.scalar (Nat.digitChar d)) = some d := by
  have hall : ∀ d : Fin 16, hexValue? (.scalar (Nat.digitChar d)) = some d.val := by decide
  exact hall ⟨d, h⟩

theorem hexBehind?_toDigits (n : Nat) :
    hexBehind? 0 ((Nat.toDigits 16 n).map .scalar) = some n := by
  induction n using Nat.strongRecOn with
  | ind n ih =>
    have hdigit (acc d : Nat) (hd : d < 16) :
        hexBehind? acc [.scalar (Nat.digitChar d)] = some (16 * acc + d) := by
      rw [hexBehind?_cons, hexValue?_digitChar d hd]
      rfl
    rcases Nat.lt_or_ge n 16 with hn | hn
    · rw [Nat.toDigits_of_lt_base hn, List.map_singleton, hdigit 0 n hn, Nat.mul_zero, Nat.zero_add]
    · rw [Nat.toDigits_of_base_le (by decide) hn, List.map_append, hexBehind?_append,
        ih (n / 16) (Nat.div_lt_self (by omega) (by decide)), Option.bind_some, List.map_singleton,
        hdigit _ _ (Nat.mod_lt n (by decide)), Nat.div_add_mod]

theorem hexBehind?_zeros (k : Nat) : hexBehind? 0 (List.replicate k (.scalar '0')) = some 0 := by
  induction k with
  | zero => rfl
  | succ k ih => rwa [List.replicate_succ, hexBehind?_cons]

/-- The digits that are written for a number denote it. -/
theorem isHexOf_hex (n width : Nat) : IsHexOf (Text.hex n width) n where
  ne_nil := by
    rw [Text.hex, Text.padLeft]
    exact List.append_ne_nil_of_right_ne_nil _ (by simp [Nat.toDigits_ne_nil])
  denotes := by
    rw [Text.hex, Text.padLeft, hexBehind?_append, hexBehind?_zeros]
    exact hexBehind?_toDigits n

theorem length_hex (hwidth : 0 < width) (h : n < 16 ^ width) :
    (Text.hex n width).length = width := by
  have hle := (Nat.length_toDigits_le_iff (by decide) hwidth).2 h
  rw [Text.hex, Text.padLeft, List.length_append, List.length_replicate, List.length_map]
  exact Nat.sub_add_cancel hle

end Numeral

end Scaffold
