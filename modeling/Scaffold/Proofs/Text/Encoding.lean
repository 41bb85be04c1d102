import Mathlib.Data.List.Basic
import Scaffold.Text.Utf8

/-!
# Texts survive in files

Every text of scalar values has bytes, and reading them gives the text back
(`Utf8.exists_encode`).  What is read from a file is made of scalar values
(`Utf8.isScalar_of_decode`), so it can be written again.
-/

namespace Scaffold

namespace Utf8

/-! ### Reading one character -/

theorem isSecond_eq_true {a b : UInt8} : isSecond a b = true ↔
    0x80 ≤ b.toNat ∧ b.toNat ≤ 0xBF ∧ (a.toNat = 0xE0 → 0xA0 ≤ b.toNat) ∧
      (a.toNat = 0xED → b.toNat ≤ 0x9F) ∧ (a.toNat = 0xF0 → 0x90 ≤ b.toNat) ∧
      (a.toNat = 0xF4 → b.toNat ≤ 0x8F) := by
  simp only [isSecond, Bool.and_eq_true, Bool.or_eq_true, decide_eq_true_eq, bne_iff_ne, ne_eq,
    UInt8.le_iff_toNat_le, ← UInt8.toNat_inj, UInt8.reduceToNat, and_assoc, ← imp_iff_not_or]

theorem isTail_eq_true {b : UInt8} : isTail b = true ↔ 0x80 ≤ b.toNat ∧ b.toNat ≤ 0xBF := by
  simp only [isTail, Bool.and_eq_true, decide_eq_true_eq, UInt8.le_iff_toNat_le, UInt8.reduceToNat]

theorem decodeFrom_one {a : UInt8} (ha : a.toNat < 0x80) (pos : Nat) (r : Bytes) :
    decodeFrom pos (a :: r) =
      (decodeFrom (pos + 1) r).map (.scalar (Char.ofNat a.toNat) :: ·) := by
  rw [decodeFrom.eq_def]
  exact if_pos (UInt8.lt_iff_toNat_lt.2 ha)

theorem decodeFrom_two {a b : UInt8} (ha : 0xC2 ≤ a.toNat ∧ a.toNat < 0xE0)
    (hb : isSecond a b = true) (pos : Nat) (r : Bytes) :
    decodeFrom pos (a :: b :: r) = (decodeFrom (pos + 2) r).map
      (.scalar (Char.ofNat ((a.toNat - 0xC0) * 0x40 + payload b)) :: ·) := by
  have h₁ : ¬ a < 0x80 := by
    simp only [UInt8.lt_iff_toNat_lt, UInt8.reduceToNat]; omega
  have h₂ : ¬ (a < 0xC2 ∨ 0xF4 < a) := by
    simp only [UInt8.lt_iff_toNat_lt, UInt8.reduceToNat]; omega
  have h₃ : a < 0xE0 := UInt8.lt_iff_toNat_lt.2 ha.2
  rw [decodeFrom.eq_def]
  dsimp only
  rw [if_neg h₁, if_neg h₂]
  simp only [hb, Bool.not_true, Bool.false_eq_true, if_false, if_pos h₃]

theorem decodeFrom_three {a b c : UInt8} (ha : 0xE0 ≤ a.toNat ∧ a.toNat < 0xF0)
    (hb : isSecond a b = true) (hc : isTail c = true) (pos : Nat) (r : Bytes) :
    decodeFrom pos (a :: b :: c :: r) = (decodeFrom (pos + 3) r).map
      (.scalar (Char.ofNat ((a.toNat - 0xE0) * 0x1000 + payload b * 0x40 + payload c)) :: ·) := by
  have h₁ : ¬ a < 0x80 := by
    simp only [UInt8.lt_iff_toNat_lt, UInt8.reduceToNat]; omega
  have h₂ : ¬ (a < 0xC2 ∨ 0xF4 < a) := by
    simp only [UInt8.lt_iff_toNat_lt, UInt8.reduceToNat]; omega
  have h₃ : ¬ a < 0xE0 := by
    simp only [UInt8.lt_iff_toNat_lt, UInt8.reduceToNat]; omega
  have h₄ : a < 0xF0 := UInt8.lt_iff_toNat_lt.2 ha.2
  rw [decodeFrom.eq_def]
  dsimp only
  rw [if_neg h₁, if_neg h₂]
  simp only [hb, hc, Bool.not_true, Bool.false_eq_true, if_false, if_neg h₃, if_pos h₄]

theorem decodeFrom_four {a b c d : UInt8} (ha : 0xF0 ≤ a.toNat ∧ a.toNat ≤ 0xF4)
    (hb : isSecond a b = true) (hc : isTail c = true) (hd : isTail d = true) (pos : Nat)
    (r : Bytes) :
    decodeFrom pos (a :: b :: c :: d :: r) = (decodeFrom (pos + 4) r).map
      (.scalar (Char.ofNat ((a.toNat - 0xF0) * 0x40000 + payload b * 0x1000 + payload c * 0x40
        + payload d)) :: ·) := by
  have h₁ : ¬ a < 0x80 := by
    simp only [UInt8.lt_iff_toNat_lt, UInt8.reduceToNat]; omega
  have h₂ : ¬ (a < 0xC2 ∨ 0xF4 < a) := by
    simp only [UInt8.lt_iff_toNat_lt, UInt8.reduceToNat]; omega
  have h₃ : ¬ a < 0xE0 := by
    simp only [UInt8.lt_iff_toNat_lt, UInt8.reduceToNat]; omega
  have h₄ : ¬ a < 0xF0 := by
    simp only [UInt8.lt_iff_toNat_lt, UInt8.reduceToNat]; omega
  rw [decodeFrom.eq_def]
  dsimp only
  rw [if_neg h₁, if_neg h₂]
  simp only [hb, hc, hd, Bool.not_true, Bool.false_eq_true, if_false, if_neg h₃, if_neg h₄]

/-! ### Writing and reading -/

theorem toNat_ofNat {n : Nat} (h : n < 256) : (UInt8.ofNat n).toNat = n := by
  rw [UInt8.toNat_ofNat']
  exact Nat.mod_eq_of_lt h

/-- The bytes of a character are read as that character. -/
theorem decodeFrom_encodeScalar (c : Char) (pos : Nat) (r : Bytes) : ∃ pos',
    decodeFrom pos (encodeScalar c.toNat ++ r) = (decodeFrom pos' r).map (.scalar c :: ·) := by
  have hv : c.toNat < 0xD800 ∨ (0xDFFF < c.toNat ∧ c.toNat < 0x110000) := c.valid
  rw [encodeScalar]
  split_ifs with h₁ h₂ h₃
  · refine ⟨pos + 1, ?_⟩
    have ha := toNat_ofNat (n := c.toNat) (by omega)
    rw [List.singleton_append, decodeFrom_one (by omega), ha, Char.ofNat_toNat]
  · refine ⟨pos + 2, ?_⟩
    have ha := toNat_ofNat (n := 0xC0 + c.toNat / 0x40) (by omega)
    have hb := toNat_ofNat (n := 0x80 + c.toNat % 0x40) (by omega)
    have hn : ((UInt8.ofNat (0xC0 + c.toNat / 0x40)).toNat - 0xC0) * 0x40
        + payload (.ofNat (0x80 + c.toNat % 0x40)) = c.toNat := by
      unfold payload; omega
    simp only [List.cons_append, List.nil_append]
    rw [decodeFrom_two (by omega) (isSecond_eq_true.2 (by omega))]
    simp only [hn, Char.ofNat_toNat]
  · refine ⟨pos + 3, ?_⟩
    have ha := toNat_ofNat (n := 0xE0 + c.toNat / 0x1000) (by omega)
    have hb := toNat_ofNat (n := 0x80 + c.toNat / 0x40 % 0x40) (by omega)
    have hc := toNat_ofNat (n := 0x80 + c.toNat % 0x40) (by omega)
    have hn : ((UInt8.ofNat (0xE0 + c.toNat / 0x1000)).toNat - 0xE0) * 0x1000
        + payload (.ofNat (0x80 + c.toNat / 0x40 % 0x40)) * 0x40
        + payload (.ofNat (0x80 + c.toNat % 0x40)) = c.toNat := by
      unfold payload; omega
    simp only [List.cons_append, List.nil_append]
    rw [decodeFrom_three (by omega) (isSecond_eq_true.2 (by omega)) (isTail_eq_true.2 (by omega))]
    simp only [hn, Char.ofNat_toNat]
  · refine ⟨pos + 4, ?_⟩
    have ha := toNat_ofNat (n := 0xF0 + c.toNat / 0x40000) (by omega)
    have hb := toNat_ofNat (n := 0x80 + c.toNat / 0x1000 % 0x40) (by omega)
    have hc := toNat_ofNat (n := 0x80 + c.toNat / 0x40 % 0x40) (by omega)
    have hd := toNat_ofNat (n := 0x80 + c.toNat % 0x40) (by omega)
    have hn : ((UInt8.ofNat (0xF0 + c.toNat / 0x40000)).toNat - 0xF0) * 0x40000
        + payload (.ofNat (0x80 + c.toNat / 0x1000 % 0x40)) * 0x1000
        + payload (.ofNat (0x80 + c.toNat / 0x40 % 0x40)) * 0x40
        + payload (.ofNat (0x80 + c.toNat % 0x40)) = c.toNat := by
      unfold payload; omega
    simp only [List.cons_append, List.nil_append]
    rw [decodeFrom_four (by omega) (isSecond_eq_true.2 (by omega)) (isTail_eq_true.2 (by omega))
      (isTail_eq_true.2 (by omega))]
    simp only [hn, Char.ofNat_toNat]

theorem exists_encodeFrom {t : Text} (ht : t.IsScalar) (pos : Nat) :
    ∃ b, encodeFrom pos t = .ok b ∧ ∀ pos, decodeFrom pos b = .ok t := by
  induction t generalizing pos with
  | nil => exact ⟨[], rfl, fun _ => rfl⟩
  | cons c t ih =>
    cases c with
    | surrogate u => exact absurd (ht (.surrogate u) (by simp)) id
    | scalar c =>
      obtain ⟨b, hb, hd⟩ := ih (fun d hd => ht d (by simp [hd])) (pos + 1)
      refine ⟨encodeScalar c.toNat ++ b, by rw [encodeFrom, hb]; rfl, fun pos => ?_⟩
      obtain ⟨pos', h⟩ := decodeFrom_encodeScalar c pos b
      rw [h, hd]
      rfl

/-- **A text of scalar values survives in a file.** -/
theorem exists_encode {t : Text} (ht : t.IsScalar) : ∃ b, encode t = .ok b ∧ decode b = .ok t := by
  obtain ⟨b, hb, hd⟩ := exists_encodeFrom ht 0
  exact ⟨b, hb, hd 0⟩

theorem isScalar_of_encodeFrom {t : Text} {pos : Nat} {b : Bytes}
    (h : encodeFrom pos t = .ok b) : t.IsScalar := by
  induction t generalizing pos b with
  | nil => simp [Text.IsScalar]
  | cons c t ih =>
    cases c with
    | surrogate u => cases h
    | scalar c =>
      rw [encodeFrom] at h
      cases hr : encodeFrom (pos + 1) t with
      | error e => simp [hr, Except.map] at h
      | ok b =>
        intro d hd
        rcases List.mem_cons.1 hd with rfl | hd
        · trivial
        · exact ih hr d hd

/-- What is written is read back. -/
theorem decode_of_encode {t : Text} {b : Bytes} (h : encode t = .ok b) : decode b = .ok t := by
  obtain ⟨b', hb, hd⟩ := exists_encode (isScalar_of_encodeFrom h)
  rw [h, Except.ok.injEq] at hb
  rw [hb, hd]

theorem isScalar_of_decodeFrom {pos : Nat} {b : Bytes} {t : Text}
    (h : decodeFrom pos b = .ok t) : t.IsScalar := by
  have hcons : ∀ {c : Char} {x : Except DecodeError Text} {t : Text},
      (∀ {t}, x = .ok t → t.IsScalar) → x.map (.scalar c :: ·) = .ok t → t.IsScalar := by
    intro c x t hx h
    cases x with
    | error e => cases h
    | ok u =>
      obtain rfl : .scalar c :: u = t := by simpa [Except.map] using h
      intro d hd
      rcases List.mem_cons.1 hd with rfl | hd
      · trivial
      · exact hx rfl d hd
  fun_induction decodeFrom pos b generalizing t with
  | case1 => cases h; simp [Text.IsScalar]
  | case2 _ _ _ _ ih => exact hcons ih h
  | case6 _ _ _ _ _ _ _ _ ih => exact hcons ih h
  | case9 _ _ _ _ _ _ _ _ _ _ _ ih => exact hcons ih h
  | case12 _ _ _ _ _ _ _ _ _ _ _ _ _ ih => exact hcons ih h
  | _ => cases h

/-- What is read from a file is made of scalar values. -/
theorem isScalar_of_decode {b : Bytes} {t : Text} (h : decode b = .ok t) : t.IsScalar :=
  isScalar_of_decodeFrom h

end Utf8

end Scaffold
