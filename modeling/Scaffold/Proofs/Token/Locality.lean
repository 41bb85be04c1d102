import Scaffold.Proofs.Token.Quoting

/-!
# What a scanner looks at

A scanner looks beyond what it reads: a name ends where no letter follows, and a point may begin a
number.  Yet what it reads is the same wherever the text behind it is broken off by a code point
that no token goes on with (`Interrupts`), such as a blank or a bracket.

* A reader of names or numbers is local (`IsLocal`) if it is put together from local readers
  (`IsLocal.succession`): `isLocal_scanIdent`, `isLocal_scanNumber`, `scanPunct_local`.
* `scanToken_local` says the same of a token.
-/

namespace Scaffold

open CodePoint

/-- No name, number, long mark or flag of a regular expression goes on with the code point. -/
structure Interrupts (c : CodePoint) : Prop where
  /-- It stands in no name. -/
  name : isIdentPart c = false
  /-- It is no digit. -/
  digit : isNumberPart c = false
  /-- It is no flag. -/
  flag : isRegexFlag c = false
  /-- It stands in no long mark. -/
  mark : ∀ mark ∈ longPuncts, c ∉ mark

theorem interrupts_iff {c : CodePoint} : Interrupts c ↔ isIdentPart c = false ∧
    isNumberPart c = false ∧ isRegexFlag c = false ∧ ∀ mark ∈ longPuncts, c ∉ mark :=
  ⟨fun h => ⟨h.name, h.digit, h.flag, h.mark⟩, fun ⟨h₁, h₂, h₃, h₄⟩ => ⟨h₁, h₂, h₃, h₄⟩⟩

instance : DecidablePred Interrupts := fun _ => decidable_of_iff _ interrupts_iff.symm

/-- What holds of each blank, by looking at all of them. -/
theorem CodePoint.of_isBlank {P : CodePoint → Prop}
    (hall : ∀ i ∈ blankRanges, ∀ n ∈ List.range' i.1 (i.2 + 1 - i.1), P (.scalar (Char.ofNat n)))
    {c : CodePoint} (h : c.isBlank = true) : P c := by
  obtain ⟨i, hi, hlo, hhi⟩ := Ranges.mem_of_contains h
  have hc := hall i hi c.toNat (List.mem_range'_1.2 ⟨hlo, by omega⟩)
  cases c with
  | scalar c => simpa [toNat] using hc
  | surrogate u =>
    have hsmall : ∀ i ∈ blankRanges, i.2 < 0xD800 := by decide
    have := hsmall i hi
    simp only [toNat] at hhi
    omega

theorem interrupts_of_isBlank {c : CodePoint} (h : c.isBlank = true) : Interrupts c :=
  of_isBlank (by decide +kernel) h

/-- The text begins with a code point that interrupts, or is empty. -/
def IsBreak (t : Text) : Prop := ∀ c ∈ t.head?, Interrupts c

theorem isBreak_cons {c : CodePoint} {t : Text} (h : Interrupts c) : IsBreak (c :: t) := by
  rintro d hd
  exact Option.mem_some_iff.1 hd ▸ h

/-- What a text begins with it still begins with where it is broken off, or else the break. -/
theorem IsBreak.head {tail : Text} (h : IsBreak tail) {t : Text} (after : Text) {c : CodePoint}
    (hc : c ∈ (t ++ tail).head?) : c ∈ (t ++ after).head? ∨ Interrupts c := by
  cases t with
  | nil => exact .inr (h c hc)
  | cons d t => exact .inl hc

theorem IsBreak.prefix_left {tail : Text} (h : IsBreak tail) {word t : Text}
    (hword : ∀ c ∈ word, ¬ Interrupts c) (hbegins : word <+: t ++ tail) : word <+: t := by
  obtain ⟨rest, hrest⟩ := hbegins
  rcases List.append_eq_append_iff.1 hrest with ⟨u, rfl, -⟩ | ⟨u, rfl, rfl⟩
  · exact List.prefix_append word u
  · cases u with
    | nil => simp
    | cons c u => exact absurd (h c rfl) (hword c (by simp))

/-! ### Names and numbers -/

/-- What the scanner reads it reads as well where the text is broken off somewhere behind that. -/
def IsLocal (f : Text → Text × Text) : Prop :=
  ∀ ⦃t mid after tail : Text⦄, (f t).2 = mid ++ after → IsBreak tail →
    f ((f t).1 ++ (mid ++ tail)) = ((f t).1, mid ++ tail)

theorem isLocal_spanWhile {p : CodePoint → Bool} (hp : ∀ c, Interrupts c → p c = false) :
    IsLocal (Text.spanWhile p) := by
  intro t mid after tail h htail
  refine spanWhile_append (fun c hc => List.mem_takeWhile_imp hc) fun c hc => ?_
  rcases htail.head after hc with hc | hc
  · have := List.head?_dropWhile_not p t
    rw [← h] at hc
    change c ∈ (t.dropWhile p).head? at hc
    rw [Option.mem_def.1 hc] at this
    simpa using this
  · exact hp c hc

/-- A scanner that reads nothing unless the text begins as `p` wants it. -/
theorem isLocal_of_head {f : Text → Text × Text} {p : CodePoint → Prop}
    (hp : ∀ c, Interrupts c → ¬ p c) (hnone : ∀ t : Text, (∀ c ∈ t.head?, ¬ p c) → f t = ([], t))
    (h : ∀ (c : CodePoint) (t mid after tail : Text), p c → (f (c :: t)).2 = mid ++ after →
      IsBreak tail → f ((f (c :: t)).1 ++ (mid ++ tail)) = ((f (c :: t)).1, mid ++ tail)) :
    IsLocal f := by
  intro t mid after tail hrest htail
  by_cases hhead : ∃ c u, t = c :: u ∧ p c
  · obtain ⟨c, u, rfl, hc⟩ := hhead
    exact h c u mid after tail hc hrest htail
  · have hnot : ∀ c ∈ t.head?, ¬ p c := fun c hc hpc => by
      cases t with
      | nil => cases hc
      | cons d u =>
        obtain rfl := Option.some.inj hc
        exact hhead ⟨d, u, rfl, hpc⟩
    rw [hnone t hnot] at hrest ⊢
    obtain rfl : t = mid ++ after := hrest
    exact hnone _ fun c hc => (htail.head after hc).elim (hnot c) (hp c)

theorem IsLocal.succession {f g : Text → Text × Text} (hf : IsLocal f)
    (happend : ∀ t, (g t).1 ++ (g t).2 = t) (hg : IsLocal g) :
    IsLocal fun t => ((f t).1 ++ (g (f t).2).1, (g (f t).2).2) := by
  intro t mid after tail h htail
  dsimp only at h ⊢
  have hfirst : f ((f t).1 ++ (((g (f t).2).1 ++ mid) ++ tail)) =
      ((f t).1, ((g (f t).2).1 ++ mid) ++ tail) := by
    refine @hf _ _ after _ ?_ htail
    rw [List.append_assoc, ← h, happend]
  rw [List.append_assoc, ← List.append_assoc _ mid, hfirst, List.append_assoc, hg h htail]

/-- A scanner that reads nothing reads nothing if the text is broken off. -/
theorem IsLocal.eq_nil {f : Text → Text × Text} (hf : IsLocal f)
    (happend : ∀ t, (f t).1 ++ (f t).2 = t) {t after tail : Text} (h : (f (t ++ after)).1 = [])
    (htail : IsBreak tail) : (f (t ++ tail)).1 = [] := by
  have hrest := happend (t ++ after)
  rw [h, List.nil_append] at hrest
  have := hf hrest htail
  rw [h, List.nil_append] at this
  rw [this]

theorem isLocal_scanLargeMark : IsLocal scanLargeMark := by
  refine isLocal_of_head (p := (· = .scalar 'n')) ?_ ?_ ?_
  · rintro _ h rfl
    exact absurd h (by decide)
  · intro t ht
    unfold scanLargeMark
    split
    · exact absurd rfl (ht _ rfl)
    · rfl
  · rintro _ t mid after tail rfl h -
    rfl

theorem isLocal_numberParts : IsLocal (Text.spanWhile isNumberPart) :=
  isLocal_spanWhile fun _ h => h.digit

theorem isLocal_digits : IsLocal (Text.spanWhile CodePoint.isDigit) :=
  isLocal_spanWhile fun _ h => (Bool.or_eq_false_iff.1 h.digit).1

theorem scanFraction_point (t : Text) : scanFraction (.scalar '.' :: t) =
    (.scalar '.' :: (Text.spanWhile isNumberPart t).1, (Text.spanWhile isNumberPart t).2) := rfl

theorem isLocal_scanFraction : IsLocal scanFraction := by
  refine isLocal_of_head (p := (· = .scalar '.')) ?_ ?_ ?_
  · rintro _ h rfl
    exact absurd h (by decide)
  · intro t ht
    unfold scanFraction
    split
    · exact absurd rfl (ht _ rfl)
    · rfl
  · rintro _ t mid after tail rfl h htail
    rw [scanFraction_point] at h ⊢
    rw [List.cons_append, scanFraction_point, isLocal_numberParts h htail]

theorem toAsciiLower_ne_of_interrupts {c : CodePoint} (h : Interrupts c) {letter : Char}
    (hletter : letter.isLower = true) : c.toAsciiLower ≠ .scalar letter := by
  intro hc
  cases c with
  | surrogate u => cases hc
  | scalar c =>
    have hname : c.isAlpha = false := by
      have := h.name
      simp only [isIdentPart, isIdentStart, isAsciiLetter, satisfies, Bool.or_eq_false_iff] at this
      exact this.1.1.1
    obtain ⟨hupper, hlower⟩ : c.isUpper = false ∧ c.isLower = false := Bool.or_eq_false_iff.1 hname
    have hsame : c.toLower = c := dif_neg fun h => Bool.eq_false_iff.1 hupper (decide_eq_true h)
    obtain rfl : c.toLower = letter := CodePoint.scalar.inj hc
    rw [hsame, hlower] at hletter
    cases hletter

/-- The sign at the beginning of a text, and the text behind it. -/
def splitSign : Text → Text × Text
  | .scalar '+' :: t => ([.scalar '+'], t)
  | .scalar '-' :: t => ([.scalar '-'], t)
  | t => ([], t)

theorem scanExponent_cons {e : CodePoint} (he : e.toAsciiLower = .scalar 'e') (t : Text) :
    scanExponent (e :: t) =
      if (Text.spanWhile CodePoint.isDigit (splitSign t).2).1 = [] then ([], e :: t)
      else (e :: (splitSign t).1 ++ (Text.spanWhile CodePoint.isDigit (splitSign t).2).1,
        (Text.spanWhile CodePoint.isDigit (splitSign t).2).2) := by
  rw [scanExponent.eq_def]
  simp only [if_pos he]
  rfl

theorem isLocal_splitSign : IsLocal splitSign := by
  refine isLocal_of_head (p := fun c => c = .scalar '+' ∨ c = .scalar '-') ?_ ?_ ?_
  · rintro _ h (rfl | rfl) <;> exact absurd h (by decide)
  · intro t ht
    unfold splitSign
    split
    · exact absurd (.inl rfl) (ht _ rfl)
    · exact absurd (.inr rfl) (ht _ rfl)
    · rfl
  · rintro _ t mid after tail (rfl | rfl) h - <;> rfl

/-- Where no digit follows a sign, none does if the text is broken off. -/
theorem digits_eq_nil_of_isBreak {mid after tail : Text} (htail : IsBreak tail)
    (h : (Text.spanWhile CodePoint.isDigit (splitSign (mid ++ after)).2).1 = []) :
    (Text.spanWhile CodePoint.isDigit (splitSign (mid ++ tail)).2).1 = [] := by
  have hbreak : ∀ {t after : Text}, (Text.spanWhile CodePoint.isDigit (t ++ after)).1 = [] →
      (Text.spanWhile CodePoint.isDigit (t ++ tail)).1 = [] := fun h =>
    isLocal_digits.eq_nil (spanWhile_append_rest _) h htail
  cases mid with
  | nil =>
    have htail' : splitSign tail = ([], tail) := by
      have := @isLocal_splitSign [] [] [] tail rfl htail
      simpa [splitSign] using this
    rw [List.nil_append, htail']
    exact @hbreak [] [] rfl
  | cons c mid =>
    rw [List.cons_append] at h ⊢
    by_cases hplus : c = .scalar '+'
    · subst hplus
      exact hbreak h
    · by_cases hminus : c = .scalar '-'
      · subst hminus
        exact hbreak h
      · have hsign : ∀ t : Text, splitSign (c :: t) = ([], c :: t) := fun t => by
          rw [splitSign.eq_def]
          split
          · exact absurd (List.cons.inj ‹_›).1 hplus
          · exact absurd (List.cons.inj ‹_›).1 hminus
          · rfl
        rw [hsign] at h ⊢
        exact hbreak (t := c :: mid) h

theorem scanExponent_of_head {t : Text} (h : ∀ c ∈ t.head?, ¬ c.toAsciiLower = .scalar 'e') :
    scanExponent t = ([], t) := by
  cases t with
  | nil => rfl
  | cons c t =>
    rw [scanExponent.eq_def]
    simp only [if_neg (h c rfl)]

theorem isLocal_scanExponent : IsLocal scanExponent := by
  have hmark : ∀ c, Interrupts c → ¬ c.toAsciiLower = .scalar 'e' := fun c h =>
    toAsciiLower_ne_of_interrupts h (by decide)
  refine isLocal_of_head hmark (fun t ht => scanExponent_of_head ht) ?_
  · intro e t mid after tail he h htail
    rw [scanExponent_cons he] at h ⊢
    split_ifs at h ⊢ with hdigits
    · dsimp only at h ⊢
      rw [List.nil_append]
      cases mid with
      | nil => exact scanExponent_of_head fun c hc => hmark c (htail c hc)
      | cons c mid =>
        obtain ⟨rfl, rfl⟩ := List.cons.inj h
        rw [List.cons_append, scanExponent_cons he, if_pos (digits_eq_nil_of_isBreak htail hdigits)]
    · dsimp only at h ⊢
      have hsign : splitSign ((splitSign t).1 ++
          (((Text.spanWhile CodePoint.isDigit (splitSign t).2).1 ++ mid) ++ tail)) =
          ((splitSign t).1, ((Text.spanWhile CodePoint.isDigit (splitSign t).2).1 ++ mid) ++
            tail) := by
        refine @isLocal_splitSign _ _ after _ ?_ htail
        rw [List.append_assoc, ← h, spanWhile_append_rest]
      rw [List.append_assoc] at hsign
      rw [List.cons_append, List.cons_append, List.append_assoc, scanExponent_cons he, hsign,
        isLocal_digits h htail, if_neg hdigits]
      rfl

theorem isLocal_scanDecimal (c : CodePoint) : IsLocal (scanDecimal c) := by
  have hfraction : IsLocal fun t => if c = .scalar '.' then ([], t) else scanFraction t := by
    by_cases hc : c = .scalar '.'
    · simp only [hc, if_true]
      exact fun t mid after tail h _ => rfl
    · simp only [hc, if_false]
      exact isLocal_scanFraction
  refine ((isLocal_numberParts.succession (fun t => ?_) hfraction).succession
    scanExponent_append_rest isLocal_scanExponent).succession scanLargeMark_append_rest
      isLocal_scanLargeMark
  split
  · rfl
  · exact scanFraction_append_rest t

theorem hexValue?_eq_none_of_interrupts {c : CodePoint} (h : Interrupts c) :
    c.hexValue? = none := by
  have hname := h.name
  simp only [isIdentPart, isIdentStart, isAsciiLetter, isAsciiDigit, Bool.or_eq_false_iff] at hname
  cases c with
  | surrogate u => rfl
  | scalar c =>
    obtain ⟨⟨⟨hletter, -⟩, -⟩, hdigit⟩ := hname
    obtain ⟨hupper, hlower⟩ : c.isUpper = false ∧ c.isLower = false :=
      Bool.or_eq_false_iff.1 hletter
    rw [hexValue?, if_neg, if_neg, if_neg]
    · rintro ⟨hlo, hhi⟩
      exact Bool.eq_false_iff.1 hupper (decide_eq_true ⟨hlo, Nat.le_trans hhi (by decide)⟩)
    · rintro ⟨hlo, hhi⟩
      exact Bool.eq_false_iff.1 hlower (Bool.and_eq_true_iff.2
        ⟨decide_eq_true hlo, decide_eq_true (Nat.le_trans hhi (by decide))⟩)
    · rintro ⟨hlo, hhi⟩
      exact Bool.eq_false_iff.1 hdigit
        (Bool.and_eq_true_iff.2 ⟨decide_eq_true hlo, decide_eq_true hhi⟩)

theorem isMarkedPart_of_interrupts {mark : Char} {c : CodePoint} (h : Interrupts c) :
    isMarkedPart mark c = false := by
  have hline : c ≠ .scalar '_' := fun hc => absurd h (hc ▸ by decide)
  have hhex := hexValue?_eq_none_of_interrupts h
  unfold isMarkedPart
  split <;> simp [hline, hhex, Numeral.digitBelow?]

theorem isLocal_markedParts (mark : Char) : IsLocal (Text.spanWhile (isMarkedPart mark)) :=
  isLocal_spanWhile fun _ h => isMarkedPart_of_interrupts h

theorem scanMarked?_cons {mark : Char} {m : CodePoint} (hm : m.toAsciiLower = .scalar mark)
    (t : Text) : scanMarked? mark (m :: t) =
      if (Text.spanWhile (isMarkedPart mark) t).1 = [] then none
      else some (m :: (Text.spanWhile (isMarkedPart mark) t).1 ++
          (scanLargeMark (Text.spanWhile (isMarkedPart mark) t).2).1,
        (scanLargeMark (Text.spanWhile (isMarkedPart mark) t).2).2) := by
  rw [scanMarked?, if_pos hm]

/-- A number with a radix mark is read as well where the text is broken off behind it. -/
theorem scanMarked?_local {mark : Char} {t read mid after tail : Text}
    (h : scanMarked? mark t = some (read, mid ++ after)) (htail : IsBreak tail) :
    scanMarked? mark (read ++ (mid ++ tail)) = some (read, mid ++ tail) := by
  cases t with
  | nil => cases h
  | cons m t =>
    by_cases hm : m.toAsciiLower = .scalar mark
    · rw [scanMarked?_cons hm] at h
      split_ifs at h with hdigits
      obtain ⟨rfl, hrest⟩ := Prod.mk.inj (Option.some.inj h)
      have hsplit : (Text.spanWhile (isMarkedPart mark) t).2 =
          ((scanLargeMark (Text.spanWhile (isMarkedPart mark) t).2).1 ++ mid) ++ after := by
        rw [List.append_assoc, ← hrest, scanLargeMark_append_rest]
      have hspan := isLocal_markedParts mark hsplit htail
      rw [List.append_assoc] at hspan
      rw [List.cons_append, List.cons_append, List.append_assoc, scanMarked?_cons hm, hspan,
        if_neg hdigits, isLocal_scanLargeMark hrest htail]
      rfl
    · rw [scanMarked?, if_neg hm] at h
      cases h

/-- Where no number with a radix mark is read, none is if the text is broken off. -/
theorem scanMarked?_eq_none_of_isBreak {mark : Char} (hmark : mark.isLower = true)
    {t after tail : Text} (h : scanMarked? mark (t ++ after) = none) (htail : IsBreak tail) :
    scanMarked? mark (t ++ tail) = none := by
  cases t with
  | nil => exact scanMarked?_eq_none fun m hm => toAsciiLower_ne_of_interrupts (htail m hm) hmark
  | cons m t =>
    by_cases hm : m.toAsciiLower = .scalar mark
    · rw [List.cons_append, scanMarked?_cons hm] at h ⊢
      split_ifs at h with hdigits
      exact if_pos ((isLocal_markedParts mark).eq_nil (spanWhile_append_rest _) hdigits htail)
    · rw [List.cons_append, scanMarked?, if_neg hm]

/-- A number with a radix mark, or else what another scanner reads. -/
def scanMarkedOr (mark : Char) (f : Text → Text × Text) (t : Text) : Text × Text :=
  (scanMarked? mark t).getD (f t)

theorem scanMarkedOr_append_rest (mark : Char) {f : Text → Text × Text}
    (happend : ∀ t, (f t).1 ++ (f t).2 = t) (t : Text) :
    (scanMarkedOr mark f t).1 ++ (scanMarkedOr mark f t).2 = t := by
  unfold scanMarkedOr
  cases h : scanMarked? mark t with
  | none => exact happend t
  | some p => exact scanMarked?_append_rest h

theorem IsLocal.scanMarkedOr {mark : Char} (hmark : mark.isLower = true) {f : Text → Text × Text}
    (hf : IsLocal f) (happend : ∀ t, (f t).1 ++ (f t).2 = t) : IsLocal (scanMarkedOr mark f) := by
  intro t mid after tail h htail
  unfold Scaffold.scanMarkedOr at h ⊢
  cases hmarked : scanMarked? mark t with
  | some p =>
    rw [hmarked, Option.getD_some] at h
    have hp : scanMarked? mark t = some (p.1, mid ++ after) := h ▸ hmarked
    rw [Option.getD_some, scanMarked?_local hp htail, Option.getD_some]
  | none =>
    rw [hmarked, Option.getD_none] at h
    -- the radix is passed over again
    have hsplit : (f t).1 ++ mid ++ after = t := by rw [List.append_assoc, ← h, happend]
    have hpass : scanMarked? mark ((f t).1 ++ mid ++ tail) = none :=
      scanMarked?_eq_none_of_isBreak hmark (hsplit.symm ▸ hmarked) htail
    rw [List.append_assoc] at hpass
    rw [Option.getD_none, hpass, Option.getD_none, hf h htail]

theorem isLocal_scanNumber (c : CodePoint) : IsLocal (scanNumber c) := by
  by_cases hc : c = .scalar '0'
  · have hnumber : scanNumber c =
        scanMarkedOr 'x' (scanMarkedOr 'b' (scanMarkedOr 'o' (scanDecimal c))) := by
      funext t
      unfold scanNumber scanMarkedOr
      rw [if_pos hc]
      cases scanMarked? 'x' t with
      | some p => rfl
      | none => cases scanMarked? 'b' t <;> rfl
    have happend := scanDecimal_append_rest c
    rw [hnumber]
    exact (((isLocal_scanDecimal c).scanMarkedOr (by decide) happend).scanMarkedOr (by decide)
      (scanMarkedOr_append_rest 'o' happend)).scanMarkedOr (by decide)
        (scanMarkedOr_append_rest 'b' (scanMarkedOr_append_rest 'o' happend))
  · have hnumber : scanNumber c = scanDecimal c := by
      funext t
      rw [scanNumber, if_neg hc, Option.getD_none]
    exact hnumber ▸ isLocal_scanDecimal c

theorem isLocal_scanIdent : IsLocal scanIdent :=
  isLocal_spanWhile fun _ h => h.name

/-! ### Marks and regular expressions -/

theorem not_interrupts_of_mem_longPuncts {word : Text} (hword : word ∈ longPuncts) :
    ∀ c ∈ word, ¬ Interrupts c := fun _ hc h => h.mark word hword hc

/-- A text does not begin with a long mark only because it is broken off. -/
theorem startsWith_of_isBreak {t after tail word : Text} (htail : IsBreak tail)
    (hword : ∀ c ∈ word, ¬ Interrupts c) (h : Text.startsWith (t ++ tail) word = true) :
    Text.startsWith (t ++ after) word = true :=
  Text.startsWith_iff.2 <| (htail.prefix_left hword (Text.startsWith_iff.1 h)).trans <|
    List.prefix_append t after

/-- A mark is read as well where the text is broken off behind it. -/
theorem scanPunct_local {c : CodePoint} {mid after tail : Text} (w : Text)
    (h : scanPunct c (w ++ (mid ++ after)) = c :: w) (htail : IsBreak tail) :
    scanPunct c (w ++ (mid ++ tail)) = c :: w := by
  have hstarts : ∀ word ∈ longPuncts, Text.startsWith (c :: (w ++ (mid ++ tail))) word = true →
      Text.startsWith (c :: (w ++ (mid ++ after))) word = true := fun word hword hstarts => by
    have hbroken := @startsWith_of_isBreak (c :: (w ++ mid)) after _ _ htail
      (not_interrupts_of_mem_longPuncts hword)
    simp only [List.cons_append, List.append_assoc] at hbroken
    exact hbroken hstarts
  unfold scanPunct at h ⊢
  cases hfound : longPuncts.find? (Text.startsWith (c :: (w ++ (mid ++ after)))) with
  | none =>
    have hnone : longPuncts.find? (Text.startsWith (c :: (w ++ (mid ++ tail)))) = none :=
      List.find?_eq_none.2 fun word hword hbegins =>
        List.find?_eq_none.1 hfound word hword (hstarts word hword hbegins)
    rw [hfound] at h
    rw [hnone]
    exact h
  | some word =>
    rw [hfound, Option.getD_some] at h
    obtain ⟨-, before, behind, hmarks, hbefore⟩ := List.find?_eq_some_iff_append.1 hfound
    have hsome : longPuncts.find? (Text.startsWith (c :: (w ++ (mid ++ tail)))) = some word := by
      refine List.find?_eq_some_iff_append.2 ⟨?_, before, behind, hmarks, fun u hu => ?_⟩
      · rw [h, Text.startsWith_iff, ← List.cons_append]
        exact List.prefix_append _ _
      · have hnot := hbefore u hu
        rw [Bool.not_eq_true'] at hnot ⊢
        refine Bool.eq_false_iff.2 fun hbegins => ?_
        have := hstarts u (hmarks ▸ List.mem_append_left _ hu) hbegins
        rw [hnot] at this
        cases this
    rw [hsome, Option.getD_some, h]

theorem isLocal_flags : IsLocal (Text.spanWhile isRegexFlag) :=
  isLocal_spanWhile fun _ h => h.flag

/-- A regular expression is skipped up to `rest`, also where the text is broken off behind it. -/
def SkipsRegex (inClass : Bool) (t rest : Text) : Prop :=
  ∃ body, body ≠ [] ∧ t = body ++ rest ∧ ∀ (start : Nat) ⦃mid after tail : Text⦄,
    rest = mid ++ after → IsBreak tail →
      skipRegex start inClass (body ++ (mid ++ tail)) = .ok (mid ++ tail)

theorem SkipsRegex.step {t rest : Text} {inClass inClass' : Bool} (h : SkipsRegex inClass' t rest)
    (read : Text)
    (hread : ∀ start u, skipRegex start inClass (read ++ u) = skipRegex start inClass' u) :
    SkipsRegex inClass (read ++ t) rest := by
  obtain ⟨body, hne, rfl, hbody⟩ := h
  refine ⟨read ++ body, by simp [hne], (List.append_assoc _ _ _).symm, ?_⟩
  intro start mid after tail hrest htail
  rw [List.append_assoc, hread]
  exact hbody start hrest htail

theorem skipRegex_cons {c : CodePoint} (hc : c ≠ .scalar '\\') (start : Nat) (inClass : Bool)
    (t : Text) : skipRegex start inClass (c :: t) =
      if c = newline then .error ⟨.unclosedRegex, start⟩
      else if c = .scalar '[' then skipRegex start true t
      else if c = .scalar ']' then skipRegex start false t
      else if c = .scalar '/' ∧ inClass = false then .ok (t.dropWhile isRegexFlag)
      else skipRegex start inClass t := by
  rw [skipRegex]
  · exact fun h _ => hc h
  · exact fun _ _ h _ => hc h

theorem skipsRegex {start : Nat} {inClass : Bool} {t rest : Text}
    (h : skipRegex start inClass t = .ok rest) : SkipsRegex inClass t rest := by
  have hescape : ∀ {c : CodePoint} {t : Text}, (c = .scalar '\\' → t = [] → False) →
      (∀ d u, c = .scalar '\\' → t = d :: u → False) → c ≠ .scalar '\\' := by
    rintro _ (_ | ⟨d, u⟩) h h' rfl
    · exact h rfl rfl
    · exact h' d u rfl rfl
  fun_induction skipRegex start inClass t with
  | case1 => cases h
  | case2 => cases h
  | case3 inClass c t ih => exact (ih h).step [.scalar '\\', c] fun _ _ => rfl
  | case4 => cases h
  | case5 inClass t hnil hcons hnewline ih =>
    refine (ih h).step [.scalar '['] fun start u => ?_
    rw [List.singleton_append, skipRegex_cons (by decide), if_neg (by decide), if_pos rfl]
  | case6 inClass t hnil hcons hnewline hopen ih =>
    refine (ih h).step [.scalar ']'] fun start u => ?_
    rw [List.singleton_append, skipRegex_cons (by decide), if_neg (by decide), if_neg (by decide),
      if_pos rfl]
  | case7 inClass c t hnil hcons hnewline hopen hclose hslash =>
    cases h
    refine ⟨c :: (Text.spanWhile isRegexFlag t).1, List.cons_ne_nil _ _,
      (congrArg (c :: ·) (spanWhile_append_rest isRegexFlag t)).symm, ?_⟩
    intro start mid after tail hrest htail
    have hflags := congrArg Prod.snd (isLocal_flags hrest htail)
    rw [List.cons_append, skipRegex_cons (hescape hnil hcons), if_neg hnewline, if_neg hopen,
      if_neg hclose, if_pos hslash]
    exact congrArg Except.ok hflags
  | case8 inClass c t hnil hcons hnewline hopen hclose hslash ih =>
    refine (ih h).step [c] fun start u => ?_
    rw [List.singleton_append, skipRegex_cons (hescape hnil hcons), if_neg hnewline, if_neg hopen,
      if_neg hclose, if_neg hslash]

/-! ### One token -/

theorem beginsNumber_iff {c : CodePoint} {t : Text} : beginsNumber c t = true ↔
    c.isAsciiDigit = true ∨ c = .scalar '.' ∧ ∃ d ∈ t.head?, d.isAsciiDigit = true := by
  simp [beginsNumber, Option.any_eq_true]

theorem isNumberPart_of_isAsciiDigit {c : CodePoint} (h : c.isAsciiDigit = true) :
    isNumberPart c = true := by
  cases c with
  | surrogate u => cases h
  | scalar c =>
    exact Numeral.of_isDigit (P := fun c => isNumberPart (.scalar c) = true) (by decide +kernel) h

/-- A number does not begin only because the text is broken off. -/
theorem beginsNumber_of_isBreak {c : CodePoint} {t after tail : Text} (htail : IsBreak tail)
    (h : beginsNumber c (t ++ tail) = true) : beginsNumber c (t ++ after) = true := by
  rw [beginsNumber_iff] at h ⊢
  refine h.imp_right fun ⟨hpoint, d, hd, hdigit⟩ => ⟨hpoint, d, ?_, hdigit⟩
  refine (htail.head after hd).resolve_right fun hbreak => ?_
  have := isNumberPart_of_isAsciiDigit hdigit
  rw [hbreak.digit] at this
  cases this

/-- A number that is read still begins where the text is broken off behind it. -/
theorem beginsNumber_append {c : CodePoint} {t : Text} (h : beginsNumber c t = true) (u : Text) :
    beginsNumber c ((scanNumber c t).1 ++ u) = true := by
  rw [beginsNumber_iff] at h ⊢
  refine h.imp_right fun ⟨hpoint, d, hd, hdigit⟩ => ⟨hpoint, d, ?_, hdigit⟩
  obtain ⟨t, rfl⟩ : ∃ t', t = d :: t' := by
    cases t with
    | nil => cases hd
    | cons e t => exact ⟨t, congrArg (· :: t) (Option.some.inj hd)⟩
  subst hpoint
  have hwhole : (Text.spanWhile isNumberPart (d :: t)).1 =
      d :: (Text.spanWhile isNumberPart t).1 :=
    List.takeWhile_cons_of_pos (isNumberPart_of_isAsciiDigit hdigit)
  rw [scanNumber, if_neg (by decide), Option.getD_none]
  dsimp only [scanDecimal]
  rw [hwhole]
  rfl

theorem consumed_append_rest (read rest : Text) : consumed (read ++ rest) rest = read := by
  simp [consumed]

theorem scanPunct_eq_cons (c : CodePoint) (t : Text) : ∃ read rest, scanPunct c t = c :: read ∧
    t = read ++ rest ∧ t.drop ((scanPunct c t).length - 1) = rest := by
  obtain ⟨rest, hrest⟩ := scanPunct_prefix c t
  obtain ⟨d, read, hread⟩ := List.exists_cons_of_ne_nil (scanPunct_ne_nil c t)
  rw [hread, List.cons_append, List.cons.injEq] at hrest
  obtain ⟨rfl, rfl⟩ := hrest
  exact ⟨read, rest, hread, rfl, by simp [hread]⟩

section

variable {operand : Bool} {c : CodePoint} {t rest : Text}

/-- A regular expression, where no operand stands before the slash. -/
theorem scansToken_regex (h : skipRegex (t.length + 1) false t = .ok rest) :
    Scans (scanToken false (.scalar '/') t) (.regex, consumed (.scalar '/' :: t) rest) rest := by
  rw [scanToken, if_neg (by decide), if_neg (by decide), if_pos ⟨rfl, rfl⟩]
  split
  · rename_i hfault
    rw [h] at hfault
    cases hfault
  · rename_i hread
    obtain rfl := Except.ok.inj (h.symm.trans hread)
    exact ⟨_, rfl, rfl, rfl⟩

section

variable (hstring : ¬(c = .scalar '\'' ∨ c = .scalar '"')) (htemplate : c ≠ .scalar '\x60')
  (hregex : ¬(c = .scalar '/' ∧ operand = false))

include hstring htemplate hregex

/-- A number, where nothing is quoted. -/
theorem scansToken_number (hnumber : beginsNumber c t = true) :
    Scans (scanToken operand c t) (.number, c :: (scanNumber c t).1) (scanNumber c t).2 := by
  rw [scanToken, if_neg hstring, if_neg htemplate, if_neg hregex, if_pos hnumber]
  exact ⟨_, rfl, rfl, rfl⟩

/-- A name, where no number begins. -/
theorem scansToken_ident (hnumber : ¬ beginsNumber c t = true) (hident : isIdentStart c = true) :
    Scans (scanToken operand c t) (.ident, c :: (scanIdent t).1) (scanIdent t).2 := by
  rw [scanToken, if_neg hstring, if_neg htemplate, if_neg hregex, if_neg hnumber, if_pos hident]
  exact ⟨_, rfl, rfl, rfl⟩

/-- A mark, where no name begins either. -/
theorem scansToken_punct (hnumber : ¬ beginsNumber c t = true) (hident : ¬ isIdentStart c = true) :
    Scans (scanToken operand c t) (.punct, scanPunct c t)
      (t.drop ((scanPunct c t).length - 1)) := by
  rw [scanToken, if_neg hstring, if_neg htemplate, if_neg hregex, if_neg hnumber, if_neg hident]
  exact ⟨_, rfl, rfl, rfl⟩

end

variable (operand c t) in
/-- The token is read up to `rest`, also where the text is broken off behind it. -/
def ReadsToken (l : Lexeme) (rest : Text) : Prop :=
  ∃ read, t = read ++ rest ∧ ∀ ⦃mid after tail : Text⦄, rest = mid ++ after → IsBreak tail →
    Scans (scanToken operand c (read ++ (mid ++ tail))) l (mid ++ tail)

theorem readsToken_string {v : Text} (hc : c = .scalar '\'' ∨ c = .scalar '"')
    (h : Scans (scanString c (t.length + 1) t) v rest) :
    ReadsToken operand c t (.string, v) rest := by
  obtain ⟨body, -, rfl, hbody⟩ := scanString_local h
  refine ⟨body, rfl, fun mid after tail _ _ => ?_⟩
  rw [scanToken, if_pos hc]
  exact (hbody _ _).lift _ _

theorem readsToken_template {v : Text × Bool}
    (h : Scans (scanTemplate (t.length + 1) t) v rest) :
    ReadsToken operand (.scalar '\x60') t (.template v.2, v.1) rest := by
  obtain ⟨body, -, rfl, hbody⟩ := scanTemplate_local h
  refine ⟨body, rfl, fun mid after tail _ _ => ?_⟩
  rw [scanToken, if_neg (by decide), if_pos rfl]
  exact (hbody _ _).lift (fun v : Text × Bool => (TokenKind.template v.2, v.1)) _

theorem readsToken_regex (h : skipRegex (t.length + 1) false t = .ok rest) :
    ReadsToken false (.scalar '/') t (.regex, consumed (.scalar '/' :: t) rest) rest := by
  obtain ⟨body, -, rfl, hbody⟩ := skipsRegex h
  refine ⟨body, rfl, fun mid after tail hrest htail => ?_⟩
  have hscans := scansToken_regex (hbody ((body ++ (mid ++ tail)).length + 1) hrest htail)
  have hsame : consumed (.scalar '/' :: (body ++ (mid ++ tail))) (mid ++ tail) =
      consumed (.scalar '/' :: (body ++ rest)) rest := by
    rw [← List.cons_append, ← List.cons_append, consumed_append_rest, consumed_append_rest]
  rwa [hsame] at hscans

section

variable (hstring : ¬(c = .scalar '\'' ∨ c = .scalar '"')) (htemplate : c ≠ .scalar '\x60')
  (hregex : ¬(c = .scalar '/' ∧ operand = false))

include hstring htemplate hregex

theorem readsToken_number (hnumber : beginsNumber c t = true) :
    ReadsToken operand c t (.number, c :: (scanNumber c t).1) (scanNumber c t).2 := by
  refine ⟨(scanNumber c t).1, (scanNumber_append_rest c t).symm, ?_⟩
  intro mid after tail hrest htail
  have hnumber' := beginsNumber_append hnumber (mid ++ tail)
  have hscans := scansToken_number hstring htemplate hregex hnumber'
  rwa [isLocal_scanNumber c hrest htail] at hscans

theorem readsToken_ident (hnumber : ¬ beginsNumber c t = true) (hident : isIdentStart c = true) :
    ReadsToken operand c t (.ident, c :: (scanIdent t).1) (scanIdent t).2 := by
  have hsplit := (spanWhile_append_rest isIdentPart t).symm
  refine ⟨(scanIdent t).1, hsplit, fun mid after tail hrest htail => ?_⟩
  have hnumber' : ¬ beginsNumber c ((scanIdent t).1 ++ mid ++ tail) = true := fun hbegins => by
    have hall := @beginsNumber_of_isBreak _ _ after _ htail hbegins
    rw [List.append_assoc, ← hrest] at hall
    exact hnumber (hsplit ▸ hall)
  rw [List.append_assoc] at hnumber'
  have hscans := scansToken_ident hstring htemplate hregex hnumber' hident
  rwa [isLocal_scanIdent hrest htail] at hscans

theorem readsToken_punct (hnumber : ¬ beginsNumber c t = true)
    (hident : ¬ isIdentStart c = true) :
    ReadsToken operand c t (.punct, scanPunct c t) (t.drop ((scanPunct c t).length - 1)) := by
  obtain ⟨read, rest, hread, rfl, hdrop⟩ := scanPunct_eq_cons c t
  rw [hdrop]
  refine ⟨read, rfl, ?_⟩
  rintro mid after tail rfl htail
  have hread' := scanPunct_local read hread htail
  have hnumber' : ¬ beginsNumber c (read ++ (mid ++ tail)) = true := fun hbegins => by
    rw [← List.append_assoc] at hbegins hnumber
    exact hnumber (beginsNumber_of_isBreak htail hbegins)
  have hscans := scansToken_punct hstring htemplate hregex hnumber' hident
  rw [hread', List.length_cons, Nat.add_sub_cancel, List.drop_left] at hscans
  rwa [hread]

end

/-- **A token is read as well where the text is broken off**, anywhere behind it. -/
theorem scanToken_local {l : Lexeme} (h : Scans (scanToken operand c t) l rest) :
    ReadsToken operand c t l rest := by
  unfold scanToken at h
  split_ifs at h with hstring htemplate hregex hnumber hident
  · obtain ⟨v, hv, rfl⟩ := h.of_lift
    exact readsToken_string hstring hv
  · obtain ⟨v, hv, rfl⟩ := h.of_lift
    obtain rfl := htemplate
    exact readsToken_template hv
  · obtain ⟨rfl, rfl⟩ := hregex
    split at h
    · obtain ⟨s, hs, -⟩ := h
      cases hs
    · rename_i hskip
      obtain ⟨s, hs, rfl, rfl⟩ := h
      cases hs
      exact readsToken_regex hskip
  · obtain ⟨s, hs, rfl, rfl⟩ := h
    cases hs
    exact readsToken_number hstring htemplate hregex hnumber
  · obtain ⟨s, hs, rfl, rfl⟩ := h
    cases hs
    exact readsToken_ident hstring htemplate hregex hnumber hident
  · obtain ⟨s, hs, rfl, rfl⟩ := h
    cases hs
    exact readsToken_punct hstring htemplate hregex hnumber hident

end

end Scaffold
