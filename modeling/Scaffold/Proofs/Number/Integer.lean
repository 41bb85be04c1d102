import Mathlib.Data.Nat.Digits.Defs
import Scaffold.Proofs.Number.Hexadecimal
import Scaffold.Proofs.Token.Filler

/-!
# Integer literals

A number token without a fraction and without an exponent is read as the integer that its digits
denote in the radix of its mark, or in base ten (`Numeral.read_of_mem_tokenize`).  Underscores and a
final `n` make no difference, and the hexadecimal digits `e` and `b` are digits.

* The scanner writes a number in one of two ways: a mark with digits behind it, or a decimal
  (`scanNumber_cases`).  The reader tells them apart by the same two code points.
* `Numeral.integerOf` is the integer of a literal, from the values of its digits alone.

Behind a mark there may be nothing but underscores.  Such a literal denotes no number, and no
decimal of more than `Numeral.maxDigits` digits is read.
-/

namespace Scaffold

open CodePoint

/-! ### The tokens of a source -/

/-- Each token but the end was scanned somewhere in the source. -/
theorem Lexes.exists_scans {start : Nat} {operand : Bool} {t : Text} {ts : List Token}
    (h : Lexes start operand t ts) {u : Token} (hu : u ∈ ts) (hkind : u.kind ≠ .eof) :
    ∃ operand c r rest, Scans (scanToken operand c r) u.lexeme rest := by
  induction h with
  | done =>
    rw [List.mem_singleton] at hu
    exact absurd (congrArg Token.kind hu) hkind
  | skip _ _ ih => exact ih hu
  | @token _ operand c read rest l _ _ hscan _ ih =>
    rcases List.mem_cons.1 hu with rfl | hu
    · exact ⟨operand, c, read ++ rest, rest, hscan⟩
    · exact ih hu

theorem scans_number {operand : Bool} {c : CodePoint} {r value rest : Text}
    (h : Scans (scanToken operand c r) (.number, value) rest) :
    beginsNumber c r = true ∧ value = c :: (scanNumber c r).1 := by
  obtain ⟨s, hs, hvalue, -⟩ := h
  unfold scanToken at hs
  split_ifs at hs with _ _ _ hnumber
  · obtain ⟨s, -, rfl⟩ := Except.map_eq_ok_iff.1 hs
    cases hvalue
  · obtain ⟨s, -, rfl⟩ := Except.map_eq_ok_iff.1 hs
    cases hvalue
  · split at hs
    · cases hs
    · cases hs
      cases hvalue
  · cases hs
    exact ⟨hnumber, (Prod.ext_iff.1 hvalue).2.symm⟩
  · cases hs
    cases hvalue
  · cases hs
    cases hvalue

/-! ### How the scanner writes numbers -/

/-- The letters that mark a radix, with the radix. -/
def radixMarks : List (Char × Nat) := [('x', 16), ('b', 2), ('o', 8)]

/-- What may stand at the end of a number: nothing, or the mark of a large integer. -/
def largeMarks : List Text := ["", "n"]

theorem scanLargeMark_mem (t : Text) : (scanLargeMark t).1 ∈ largeMarks := by
  unfold scanLargeMark
  split
  · exact List.mem_cons_of_mem _ (List.mem_singleton_self _)
  · exact List.mem_cons_self

theorem exists_of_scanMarked? {mark : Char} {t read rest : Text}
    (h : scanMarked? mark t = some (read, rest)) :
    ∃ m ds, ∃ large ∈ largeMarks, m.toAsciiLower = .scalar mark ∧
      (∀ d ∈ ds, isMarkedPart mark d = true) ∧ read = m :: (ds ++ large) := by
  unfold scanMarked? at h
  split at h
  · rename_i m t
    split_ifs at h with hm
    dsimp only at h
    split_ifs at h
    cases h
    exact ⟨m, _, _, scanLargeMark_mem _, hm, fun d hd => List.mem_takeWhile_imp hd, rfl⟩
  · cases h

/-- A number is a zero, a mark and what may stand behind it, or a decimal. -/
theorem scanNumber_cases (c : CodePoint) (t : Text) :
    (∃ p ∈ radixMarks, ∃ m ds, ∃ large ∈ largeMarks, c = .scalar '0' ∧
      m.toAsciiLower = .scalar p.1 ∧ (∀ d ∈ ds, isMarkedPart p.1 d = true) ∧
      (scanNumber c t).1 = m :: (ds ++ large)) ∨
    scanNumber c t = scanDecimal c t := by
  unfold scanNumber
  dsimp only
  split_ifs with hc
  · have hmarked {mark : Char} (radix : Nat) (hmark : (mark, radix) ∈ radixMarks)
        {x : Text × Text} (hx : scanMarked? mark t = some x) :
        ∃ p ∈ radixMarks, ∃ m ds, ∃ large ∈ largeMarks, c = .scalar '0' ∧
          m.toAsciiLower = .scalar p.1 ∧ (∀ d ∈ ds, isMarkedPart p.1 d = true) ∧
          x.1 = m :: (ds ++ large) := by
      obtain ⟨m, ds, large, hlarge, hm, hds, hread⟩ := exists_of_scanMarked? hx
      exact ⟨_, hmark, m, ds, large, hlarge, hc, hm, hds, hread⟩
    cases hx : scanMarked? 'x' t with
    | some x => exact .inl (hmarked 16 (by decide) hx)
    | none =>
      cases hb : scanMarked? 'b' t with
      | some x => exact .inl (hmarked 2 (by decide) hb)
      | none =>
        cases ho : scanMarked? 'o' t with
        | some x => exact .inl (hmarked 8 (by decide) ho)
        | none => exact .inr rfl
  · exact .inr rfl

theorem scanFraction_head (t : Text) : ∀ d ∈ (scanFraction t).1.head?, d = .scalar '.' := by
  unfold scanFraction
  split
  · exact fun d hd => (Option.mem_some_iff.1 hd).symm
  · nofun

theorem scanExponent_head (t : Text) :
    ∀ d ∈ (scanExponent t).1.head?, d.toAsciiLower = .scalar 'e' := by
  cases t with
  | nil => nofun
  | cons e t =>
    by_cases he : e.toAsciiLower = .scalar 'e'
    · rw [scanExponent_cons he]
      split_ifs
      · nofun
      · exact fun d hd => Option.mem_some_iff.1 hd ▸ he
    · rw [scanExponent_of_head fun c hc => by rwa [← Option.mem_some_iff.1 hc]]
      nofun

/-- A decimal is digits and underscores, a fraction, an exponent and the mark of a large integer,
each of them but the first told by how it begins. -/
theorem scanDecimal_parts (c : CodePoint) (t : Text) :
    ∃ whole fraction exponent, ∃ large ∈ largeMarks,
      (scanDecimal c t).1 = whole ++ fraction ++ exponent ++ large ∧
      (∀ d ∈ whole, isNumberPart d = true) ∧ (∀ d ∈ fraction.head?, d = .scalar '.') ∧
      ∀ d ∈ exponent.head?, d.toAsciiLower = .scalar 'e' := by
  have hfraction (t : Text) :
      ∀ d ∈ (if c = .scalar '.' then ([], t) else scanFraction t).1.head?, d = .scalar '.' := by
    split_ifs
    · nofun
    · exact scanFraction_head t
  exact ⟨_, _, _, _, scanLargeMark_mem _, rfl, fun d hd => List.mem_takeWhile_imp hd,
    hfraction _, scanExponent_head _⟩

namespace Numeral

/-! ### The integer of a literal -/

/-- The radix that the literal is marked with, by a small letter or a capital one. -/
def markedRadix? : Text → Option Nat
  | .scalar '0' :: m :: _ =>
    (radixMarks.find? fun p => m.toAsciiLower = .scalar p.1).map Prod.snd
  | _ => none

/-- The values of the digits of a literal: behind the mark those of the radix, without a mark
decimal digits of any script. -/
def digitsOf (raw : Text) : List Nat :=
  match markedRadix? raw with
  | some radix => (raw.drop 2).filterMap (digitBelow? radix)
  | none => raw.filterMap CodePoint.digitValue?

/-- The integer that the digits of a literal denote. -/
def integerOf (raw : Text) : Nat := Nat.ofDigits ((markedRadix? raw).getD 10) (digitsOf raw).reverse

/-- The literal is an integer that can be read. -/
structure IsInteger (raw : Text) : Prop where
  /-- It has no fraction. -/
  whole : markedRadix? raw = none → .scalar '.' ∉ raw
  /-- It has no exponent. -/
  plain : markedRadix? raw = none → ∀ c ∈ raw, c.toAsciiLower ≠ .scalar 'e'
  /-- Behind a mark there is a digit. -/
  digit : markedRadix? raw ≠ none → digitsOf raw ≠ []
  /-- A decimal is not too long. -/
  short : markedRadix? raw = none → (digitsOf raw).length ≤ maxDigits

variable {m : CodePoint} {t ds large : Text} {p : Char × Nat}

theorem ofDigits_reverse (radix : Nat) (vs : List Nat) :
    Nat.ofDigits radix vs.reverse = vs.foldl (radix * · + ·) 0 := by
  rw [Nat.ofDigits_eq_foldr, List.foldr_reverse]
  simp only [Nat.cast_id, Nat.add_comm]

theorem forall₂_filterMap {α β : Type} {f : α → Option β} {as : List α}
    (h : ∀ a ∈ as, (f a).isSome) : List.Forall₂ (fun a b => f a = some b) as (as.filterMap f) := by
  induction as with
  | nil => exact .nil
  | cons a as ih =>
    obtain ⟨b, hb⟩ := Option.isSome_iff_exists.1 (h a List.mem_cons_self)
    rw [List.filterMap_cons_some hb]
    exact .cons hb (ih fun a ha => h a (List.mem_cons_of_mem _ ha))

theorem significant_append (ht : .scalar 'n' ∉ t) (hlarge : large ∈ largeMarks) :
    significant (t ++ large) = t.filter (· ≠ .scalar '_') := by
  have hends : Text.endsWith (t.filter (· ≠ .scalar '_')) "n" = false :=
    Bool.eq_false_iff.2 fun hends => ht <| List.mem_of_mem_filter <|
      (Text.endsWith_eq_true_iff.1 hends).subset (List.mem_singleton_self (CodePoint.scalar 'n'))
  rcases List.mem_cons.1 hlarge with rfl | hlarge
  · rw [Text.ofString_empty, List.append_nil, significant, Text.dropEnd,
      if_neg (Bool.eq_false_iff.1 hends)]
  · rw [List.mem_singleton.1 hlarge, significant, List.filter_append]
    exact Text.dropEnd_append _ _

/-- Underscores and the mark of a large integer have no value. -/
theorem filterMap_parts {f : CodePoint → Option Nat} (hf : ∀ d ∈ Text.ofString "_n", f d = none)
    (ds : Text) (hlarge : large ∈ largeMarks) :
    (ds ++ large).filterMap f = (ds.filter (· ≠ .scalar '_')).filterMap f := by
  have hend : large.filterMap f = [] := List.filterMap_eq_nil_iff.2 fun d hd => by
    have hall : ∀ large ∈ largeMarks, large ⊆ Text.ofString "_n" := by decide
    exact hf d (hall large hlarge hd)
  rw [List.filterMap_append, hend, List.append_nil, List.filterMap_filter]
  refine List.filterMap_congr fun d _ => ?_
  split_ifs with hd
  · rfl
  · obtain rfl : d = .scalar '_' := by simpa using hd
    exact hf _ (by decide)

/-! ### Literals with a mark -/

/-- A code point that becomes the letter of a mark is a letter of ASCII, and not a part of a
number that the readers look for. -/
structure IsMarkLetter (m : CodePoint) : Prop where
  ascii : m.toNat < 127
  margin : isMargin m = false
  other : m ∉ Text.ofString "_n"

theorem isMarkLetter (hp : p ∈ radixMarks) (hm : m.toAsciiLower = .scalar p.1) :
    IsMarkLetter m := by
  have hall : ∀ n : Fin 127, ∀ p ∈ radixMarks,
      toAsciiLower (.scalar (Char.ofNat n)) = .scalar p.1 →
        isMargin (.scalar (Char.ofNat n)) = false ∧
        CodePoint.scalar (Char.ofNat n) ∉ Text.ofString "_n" := by
    decide +kernel
  have hascii : m.toNat < 127 := by
    by_contra hlate
    rw [toAsciiLower_of_late (Nat.le_of_not_lt hlate)] at hm
    have hletters : ∀ p ∈ radixMarks, (CodePoint.scalar p.1).toNat < 127 := by decide
    exact hlate (hm ▸ hletters p hp)
  cases m with
  | surrogate u => cases hm
  | scalar m =>
    have := hall ⟨m.toNat, hascii⟩ p hp (by rw [Char.ofNat_toNat]; exact hm)
    rw [Char.ofNat_toNat] at this
    exact ⟨hascii, this.1, this.2⟩

theorem markedRadix?_of_mark (hp : p ∈ radixMarks) (hm : m.toAsciiLower = .scalar p.1) (t : Text) :
    markedRadix? (.scalar '0' :: m :: t) = some p.2 := by
  have hall : ∀ p ∈ radixMarks,
      ((radixMarks.find? fun q => CodePoint.scalar p.1 = .scalar q.1).map Prod.snd) = some p.2 := by
    decide
  rw [markedRadix?, hm, hall p hp]

theorem radixOf?_of_mark (hp : p ∈ radixMarks) (hm : m.toAsciiLower = .scalar p.1) (t : Text) :
    radixOf? (.scalar '0' :: m :: t) = some (p.2, p.1) := by
  have hzero : toAsciiLower (.scalar '0') = .scalar '0' := by decide
  rw [radixOf?.eq_def, List.map_cons, List.map_cons, hm, hzero]
  simp only [radixMarks, List.mem_cons, List.not_mem_nil, or_false] at hp
  rcases hp with rfl | rfl | rfl <;> rfl

/-- What stands behind a mark is an underscore or a digit below the radix. -/
theorem eq_or_isSome_of_isMarkedPart (hp : p ∈ radixMarks) {d : CodePoint}
    (hd : isMarkedPart p.1 d = true) : d = .scalar '_' ∨ (digitBelow? p.2 d).isSome := by
  refine (Bool.or_eq_true_iff.1 hd).imp of_decide_eq_true fun hd => ?_
  simp only [radixMarks, List.mem_cons, List.not_mem_nil, or_false] at hp
  rcases hp with rfl | rfl | rfl
  · have hhex : d.hexValue?.isSome := hd
    rwa [(isPlainDigit hhex).below]
  · exact hd
  · exact hd

theorem hexValue?_of_digitBelow? {radix : Nat} {d : CodePoint} (h : (digitBelow? radix d).isSome) :
    d.hexValue?.isSome := by
  cases hd : d.hexValue? with
  | none => rw [digitBelow?, hd] at h; cases h
  | some v => rfl

theorem readInteger?_of_mark (hp : p ∈ radixMarks) (hm : m.toAsciiLower = .scalar p.1)
    (hne : t ≠ []) (ht : ∀ d ∈ t, (digitBelow? p.2 d).isSome) :
    readInteger? p.2 p.1 (.scalar '0' :: m :: t) =
      some (Nat.ofDigits p.2 (t.filterMap (digitBelow? p.2)).reverse : Nat) := by
  have hletter := isMarkLetter hp hm
  have hplain := fun d hd => isPlainDigit (hexValue?_of_digitBelow? (ht d hd))
  have hascii : ∀ d ∈ .scalar '0' :: m :: t, d.toNat < 127 :=
    List.forall_mem_cons.2 ⟨by decide, List.forall_mem_cons.2
      ⟨hletter.ascii, fun d hd => (hplain d hd).ascii⟩⟩
  have hmargin : ∀ d ∈ .scalar '0' :: m :: t, isMargin d = false :=
    List.forall_mem_cons.2 ⟨by decide, List.forall_mem_cons.2
      ⟨hletter.margin, fun d hd => (hplain d hd).margin⟩⟩
  have hdrop : dropMark p.1 (.scalar '0' :: m :: t) = t := by
    rw [dropMark, if_pos hm]
    rintro u rfl
    exact (hplain _ List.mem_cons_self).underscore rfl
  have hsign : readSign (.scalar '0' :: m :: t) = (false, .scalar '0' :: m :: t) := rfl
  rw [readInteger?, trim_of_toAscii (toAscii_of_ascii hascii) hmargin, hsign]
  dsimp only
  rw [hdrop, readDigits?_of_forall₂ hne (forall₂_filterMap ht), ofDigits_reverse]
  rfl

/-- A literal with a mark and a digit behind it is read as the integer of its digits. -/
theorem read_of_mark (hp : p ∈ radixMarks) (hm : m.toAsciiLower = .scalar p.1)
    (hds : ∀ d ∈ ds, isMarkedPart p.1 d = true) (hlarge : large ∈ largeMarks)
    (hne : digitsOf (.scalar '0' :: m :: (ds ++ large)) ≠ []) :
    Numeral.read (.scalar '0' :: m :: (ds ++ large)) =
      .ok (.integer (integerOf (.scalar '0' :: m :: (ds ++ large)))) := by
  have hnone : ∀ d ∈ Text.ofString "_n", digitBelow? p.2 d = none := by
    have hvalue : ∀ d ∈ Text.ofString "_n", d.hexValue? = none := by decide
    exact fun d hd => by rw [digitBelow?, hvalue d hd]; rfl
  have hdigit : ∀ d ∈ ds.filter (· ≠ .scalar '_'), (digitBelow? p.2 d).isSome := fun d hd =>
    (eq_or_isSome_of_isMarkedPart hp (hds d (List.mem_of_mem_filter hd))).resolve_left
      (of_decide_eq_true (List.mem_filter.1 hd).2)
  have hvalues : digitsOf (.scalar '0' :: m :: (ds ++ large)) =
      (ds.filter (· ≠ .scalar '_')).filterMap (digitBelow? p.2) := by
    rw [digitsOf, markedRadix?_of_mark hp hm, ← filterMap_parts hnone ds hlarge]
    rfl
  have hletter := isMarkLetter hp hm
  have hlarge' : CodePoint.scalar 'n' ∉ .scalar '0' :: m :: ds := by
    intro hmem
    rcases List.mem_cons.1 hmem with h | hmem
    · cases h
    rcases List.mem_cons.1 hmem with h | hmem
    · exact hletter.other (h ▸ by decide)
    rcases eq_or_isSome_of_isMarkedPart hp (hds _ hmem) with h | h
    · cases h
    · rw [hnone _ (by decide)] at h
      cases h
  have hsignificant : significant (.scalar '0' :: m :: (ds ++ large)) =
      .scalar '0' :: m :: ds.filter (· ≠ .scalar '_') := by
    have hm' : m ≠ .scalar '_' := fun h => hletter.other (h ▸ by decide)
    have happend : .scalar '0' :: m :: (ds ++ large) = .scalar '0' :: m :: ds ++ large := rfl
    rw [happend, significant_append hlarge' hlarge, List.filter_cons_of_pos (by decide),
      List.filter_cons_of_pos (by simpa using hm')]
  have hbody : ds.filter (· ≠ .scalar '_') ≠ [] := fun hnil => hne (by rw [hvalues, hnil]; rfl)
  rw [Numeral.read, hsignificant, radixOf?_of_mark hp hm]
  dsimp only
  rw [readInteger?_of_mark hp hm hbody hdigit, integerOf, markedRadix?_of_mark hp hm, hvalues]
  rfl

/-! ### Decimal literals -/

/-- A literal of decimal digits and underscores is read as the integer of its digits. -/
theorem read_of_numberParts (ht : ∀ d ∈ t, isNumberPart d = true) (hlarge : large ∈ largeMarks)
    (hmark : markedRadix? (t ++ large) = none) (hne : digitsOf (t ++ large) ≠ [])
    (hshort : (digitsOf (t ++ large)).length ≤ maxDigits) :
    Numeral.read (t ++ large) = .ok (.integer (integerOf (t ++ large))) := by
  have hnone : ∀ d ∈ Text.ofString "_n", d.digitValue? = none := by decide +kernel
  have hvalues : digitsOf (t ++ large) =
      (t.filter (· ≠ .scalar '_')).filterMap CodePoint.digitValue? := by
    rw [digitsOf, hmark, ← filterMap_parts hnone t hlarge]
  have hdigits : HasDigits (t.filter (· ≠ .scalar '_')) (digitsOf (t ++ large)) := by
    rw [hvalues]
    refine forall₂_filterMap fun d hd => ?_
    obtain ⟨hd, hunderscore⟩ := List.mem_filter.1 hd
    exact (Bool.or_eq_true_iff.1 (ht d hd)).resolve_right (by simpa using hunderscore)
  have hn : CodePoint.scalar 'n' ∉ t := fun hmem => absurd (ht _ hmem) (by decide +kernel)
  have hsignificant : significant (t ++ large) = significant (t.filter (· ≠ .scalar '_')) := by
    rw [significant_append hn hlarge, significant_of_digits hdigits]
  have hread : Numeral.read (t ++ large) = Numeral.read (t.filter (· ≠ .scalar '_')) := by
    rw [Numeral.read, hsignificant, Numeral.read]
  have hbody : t.filter (· ≠ .scalar '_') ≠ [] := fun hnil => hne (by rw [hvalues, hnil]; rfl)
  rw [hread, read_of_digitValues hbody hdigits (hdigits.length_eq ▸ hshort), integerOf, hmark,
    ofDigits_reverse]
  rfl

/-- A decimal without a fraction and without an exponent is digits and underscores. -/
theorem exists_numberParts {c : CodePoint} (hc : beginsNumber c t = true)
    (hmark : markedRadix? (c :: (scanDecimal c t).1) = none)
    (hint : IsInteger (c :: (scanDecimal c t).1)) :
    ∃ parts, ∃ large ∈ largeMarks, c :: (scanDecimal c t).1 = c :: parts ++ large ∧
      c.isAsciiDigit = true ∧ ∀ d ∈ parts, isNumberPart d = true := by
  obtain ⟨whole, fraction, exponent, large, hlarge, hread, hwhole, hfraction, hexponent⟩ :=
    scanDecimal_parts c t
  have hnil {part : Text} (h : ∀ d ∈ part.head?, d ∉ c :: (scanDecimal c t).1)
      (hpart : part ⊆ (scanDecimal c t).1) : part = [] := by
    cases part with
    | nil => rfl
    | cons d part =>
      exact absurd (List.mem_cons_of_mem c (hpart List.mem_cons_self)) (h d rfl)
  obtain rfl : fraction = [] := hnil
    (fun d hd hmem => hint.whole hmark (hfraction d hd ▸ hmem)) (by rw [hread]; simp)
  obtain rfl : exponent = [] := hnil
    (fun d hd hmem => hint.plain hmark d hmem (hexponent d hd)) (by rw [hread]; simp)
  refine ⟨whole, large, hlarge, by simp [hread], ?_, hwhole⟩
  have hpoint : c ≠ .scalar '.' := fun h => hint.whole hmark (h ▸ List.mem_cons_self)
  simpa [beginsNumber, hpoint] using hc

/-- What stands behind the first code point of a decimal is no mark. -/
theorem toAsciiLower_ne_of_scanDecimal {c d : CodePoint} (hd : d ∈ (scanDecimal c t).1.head?) :
    ∀ p ∈ radixMarks, d.toAsciiLower ≠ .scalar p.1 := by
  obtain ⟨whole, fraction, exponent, large, hlarge, hread, hwhole, hfraction, hexponent⟩ :=
    scanDecimal_parts c t
  have hletters : ∀ p ∈ radixMarks, CodePoint.scalar p.1 ∈ Text.ofString "xbo" := by decide
  have hother : ∀ e ∈ Text.ofString "_.n", e.toAsciiLower ∉ Text.ofString "xbo" := by decide
  suffices hlower : d.toAsciiLower ∉ Text.ofString "xbo" from
    fun p hp he => hlower (he ▸ hletters p hp)
  rw [hread] at hd
  simp only [List.head?_append, Option.mem_def, Option.or_eq_some_iff] at hd
  rcases hd with ((hd | ⟨-, hd⟩) | ⟨-, hd⟩) | ⟨-, hd⟩
  · rcases Bool.or_eq_true_iff.1 (hwhole d (List.mem_of_mem_head? hd)) with hdigit | hunderscore
    · obtain ⟨v, hv⟩ := Option.isSome_iff_exists.1 hdigit
      exact fun hmem => (isDecimalDigit hv).letter (List.mem_append_left (Text.ofString "e") hmem)
    · exact hother d (of_decide_eq_true hunderscore ▸ by decide)
  · exact hother d (hfraction d hd ▸ by decide)
  · rw [hexponent d hd]
    decide
  · have hall : ∀ large ∈ largeMarks, large ⊆ Text.ofString "_.n" := by decide
    exact hother d (hall large hlarge (List.mem_of_mem_head? hd))

theorem markedRadix?_scanDecimal (c : CodePoint) (t : Text) :
    markedRadix? (c :: (scanDecimal c t).1) = none := by
  unfold markedRadix?
  split
  · rename_i m u heq
    have hm : m ∈ (scanDecimal c t).1.head? := by rw [(List.cons.inj heq).2]; rfl
    rw [List.find?_eq_none.2 fun p hp => ?_]
    · rfl
    · simpa using toAsciiLower_ne_of_scanDecimal hm p hp
  · rfl

theorem isDigit_of_isAsciiDigit {c : CodePoint} (h : c.isAsciiDigit = true) : c.isDigit = true := by
  cases c with
  | surrogate u => cases h
  | scalar c => exact of_isDigit (P := fun c => isDigit (.scalar c) = true) (by decide) h

/-! ### Number tokens -/

/-- **An integer literal is read as the integer of its digits.** -/
theorem read_of_mem_tokenize {source : Text} {ts : List Token} {u : Token}
    (h : tokenize source = .ok ts) (hu : u ∈ ts) (hkind : u.kind = .number)
    (hint : IsInteger u.value) :
    Numeral.read u.value = .ok (.integer (integerOf u.value)) := by
  obtain ⟨operand, c, t, rest, hscan⟩ :=
    (lexes_of_tokensFrom h (Nat.zero_add _).symm).exists_scans hu (by simp [hkind])
  rw [Token.lexeme, hkind] at hscan
  obtain ⟨hbegins, hvalue⟩ := scans_number hscan
  rw [hvalue] at hint ⊢
  rcases scanNumber_cases c t with ⟨p, hp, m, ds, large, hlarge, rfl, hm, hds, hread⟩ | hdecimal
  · rw [hread] at hint ⊢
    have hmark := markedRadix?_of_mark hp hm (ds ++ large)
    exact read_of_mark hp hm hds hlarge (hint.digit (by simp [hmark]))
  · rw [hdecimal] at hint ⊢
    have hmark := markedRadix?_scanDecimal c t
    obtain ⟨parts, large, hlarge, hparts, hc, hdigits⟩ := exists_numberParts hbegins hmark hint
    have hshort := hint.short hmark
    rw [hparts] at hmark hshort ⊢
    have hdigit := isDigit_of_isAsciiDigit hc
    refine read_of_numberParts ?_ hlarge hmark (fun hnil => ?_) hshort
    · exact List.forall_mem_cons.2 ⟨Bool.or_eq_true_iff.2 (.inl hdigit), hdigits⟩
    · rw [digitsOf, hmark] at hnil
      have := List.filterMap_eq_nil_iff.1 hnil c List.mem_cons_self
      rw [isDigit, this] at hdigit
      cases hdigit

/-- A large integer in hexadecimal, with digits that other literals have as marks. -/
theorem read_of_mem_tokenize_hexadecimal :
    Numeral.read "0XbE_1_n" = .ok (.integer 0xbe1) := by
  have htokens : tokenize "x = 0XbE_1_n" = .ok [⟨.ident, "x", 0, 1⟩, ⟨.punct, "=", 2, 3⟩,
      ⟨.number, "0XbE_1_n", 4, 12⟩, Token.endOf 12] := Except.eq_ok_of_toOption (by decide +kernel)
  exact read_of_mem_tokenize (u := ⟨.number, "0XbE_1_n", 4, 12⟩) htokens (by simp) rfl
    ⟨by decide, by decide, by decide, by decide⟩

end Numeral

end Scaffold
