import Scaffold.Proofs.Number.Hexadecimal
import Scaffold.Proofs.Token.Filler
import Scaffold.Value.Json

/-!
# Escaped strings

Each code point of a text is written in a string literal as it stands in JSON, or by its number in
braces (`Spelling`).  The literal is one token (`tokenize_quote`).  Escape sequences are decoded one
by one, so that a code point above `U+FFFF` is read from its number in braces, but from JSON, where
it takes two escape sequences, as the two surrogates of the pair (`CodePoint.units`).
-/

namespace Scaffold

open CodePoint Numeral

namespace CodePoint

theorem toNat_lt (c : CodePoint) : c.toNat < 0x110000 := by
  cases c with
  | scalar c =>
    have hvalid : c.toNat < 0xD800 ∨ (0xDFFF < c.toNat ∧ c.toNat < 0x110000) := c.valid
    simp only [toNat]
    omega
  | surrogate u =>
    simp only [toNat]
    omega

theorem ofNat?_toNat (c : CodePoint) : ofNat? c.toNat = some c := by
  cases c with
  | surrogate u => exact ofNat?_toNat_surrogate u
  | scalar c =>
    have hvalid : c.toNat < 0xD800 ∨ (0xDFFF < c.toNat ∧ c.toNat < 0x110000) := c.valid
    rw [toNat, ofNat?, dif_neg (by omega), dif_pos (show c.toNat.isValidChar from c.valid)]
    exact congrArg (fun d => some (scalar d)) (Char.toNat_inj.1 UInt32.toNat_ofNatLT)

/-- The code point with the number `n` is known by its number. -/
theorem eq_of_toNat {c d : CodePoint} {n : Nat} (h : c.toNat = n) (hd : ofNat? n = some d) :
    c = d := by
  rw [← h, ofNat?_toNat] at hd
  exact Option.some.inj hd

/-- The first surrogate of the pair for a code point above `U+FFFF`. -/
def highSurrogate (c : CodePoint) : CodePoint :=
  .surrogate (Fin.ofNat 2048 ((c.toNat - 0x10000) / 0x400))

/-- The second surrogate of the pair. -/
def lowSurrogate (c : CodePoint) : CodePoint :=
  .surrogate (Fin.ofNat 2048 (0x400 + (c.toNat - 0x10000) % 0x400))

/-- The UTF-16 code units of a code point: the code point itself, or a pair of surrogates. -/
def units (c : CodePoint) : Text :=
  if c.toNat ≤ 0xFFFF then [c] else [c.highSurrogate, c.lowSurrogate]

theorem toNat_highSurrogate (c : CodePoint) :
    c.highSurrogate.toNat = 0xD800 + (c.toNat - 0x10000) / 0x400 := by
  have := c.toNat_lt
  have hlt : (c.toNat - 0x10000) / 0x400 < 2048 := by omega
  exact congrArg (0xD800 + ·) (Nat.mod_eq_of_lt hlt)

theorem toNat_lowSurrogate (c : CodePoint) :
    c.lowSurrogate.toNat = 0xDC00 + (c.toNat - 0x10000) % 0x400 := by
  have hlt : 0x400 + (c.toNat - 0x10000) % 0x400 < 2048 := by omega
  exact (congrArg (0xD800 + ·) (Nat.mod_eq_of_lt hlt)).trans (Nat.add_assoc _ _ _).symm

end CodePoint

/-! ### Escape sequences -/

namespace Escape

variable {c : CodePoint} {digits : Text}

/-- Hexadecimal digits give the code point whose number they denote. -/
theorem codePoint_of_isHexOf (h : IsHexOf digits c.toNat) : codePoint digits = .ok c := by
  have := c.toNat_lt
  rw [codePoint, readInteger?_of_isHexOf h]
  dsimp only
  rw [if_neg (by omega), if_neg (by omega), Int.toNat_natCast, ofNat?_toNat]

/-- Four digits behind the letter `u`. -/
theorem read_four (hlength : digits.length = 4) (h : IsHexOf digits c.toNat) (rest : Text) :
    read (.scalar 'u' :: (digits ++ rest)) = .ok ([c], rest) := by
  have hplain := isPlainDigit_of_mem (show (hexBehind? 0 digits).isSome by rw [h.denotes]; rfl)
  have htake : (digits ++ rest).take 4 = digits := hlength ▸ List.take_left
  have hdrop : (digits ++ rest).drop 4 = rest := hlength ▸ List.drop_left
  rw [read.eq_def]
  split
  · rename_i heq
    cases heq
  · -- the number has no brace in front of it
    rename_i t heq
    obtain ⟨d, ds, rfl⟩ := List.exists_cons_of_ne_nil h.ne_nil
    cases heq
    exact absurd rfl (hplain _ List.mem_cons_self).opening
  · rename_i t hbrace heq
    cases heq
    rw [htake, hdrop, codePoint_of_isHexOf h]
    rfl
  · rename_i heq
    cases heq
  · rename_i heq
    cases heq
  · rename_i hu _ _ heq
    obtain ⟨rfl, rfl⟩ := List.cons.inj heq
    exact (hu rfl).elim

/-- Digits between braces behind the letter `u`. -/
theorem read_braced (h : IsHexOf digits c.toNat) (rest : Text) :
    read (.scalar 'u' :: .scalar '\x7b' :: (digits ++ (.scalar '\x7d' :: rest))) =
      .ok ([c], rest) := by
  have hplain := isPlainDigit_of_mem (show (hexBehind? 0 digits).isSome by rw [h.denotes]; rfl)
  have hnot : (digits ++ (Text.ofString "\x7d").dropLast).includes "\x7d" = false := by
    refine Bool.eq_false_iff.2 fun hincludes => ?_
    have hmem := (Text.includes_eq_true.1 hincludes).subset (List.mem_singleton_self _)
    rcases List.mem_append.1 hmem with hmem | hmem
    · exact (hplain _ hmem).closing rfl
    · cases hmem
  have hcut : Text.cut? "\x7d" (digits ++ (.scalar '\x7d' :: rest)) = some (digits, rest) :=
    Text.cut?_of_first (by decide) hnot
  rw [read, hcut]
  dsimp only
  rw [codePoint_of_isHexOf h]
  rfl

end Escape

/-! ### Parts of a string -/

/-- In front of any text, the part of a string in quotes `quote` is read as `v`. -/
def ReadsPart (quote : CodePoint) (part v : Text) : Prop :=
  ∀ t w rest, (∀ start, Scans (scanString quote start t) w rest) →
    ∀ start, Scans (scanString quote start (part ++ t)) (v ++ w) rest

namespace ReadsPart

variable {quote c : CodePoint} {part part' v v' : Text}

theorem nil : ReadsPart quote [] [] := fun _ _ _ h => h

/-- A part that the closing quote follows. -/
theorem closed (h : ReadsPart quote part v) (start : Nat) :
    Scans (scanString quote start (part ++ [quote])) v [] := by
  have hclosed := h [quote] [] [] (fun start => scanString_quote quote start []) start
  rwa [List.append_nil] at hclosed

theorem append (h : ReadsPart quote part v) (h' : ReadsPart quote part' v') :
    ReadsPart quote (part ++ part') (v ++ v') := by
  intro t w rest ht
  rw [List.append_assoc, List.append_assoc]
  exact h _ _ _ (h' t w rest ht)

theorem flatMap {α : Type} {f g : α → Text} (h : ∀ x, ReadsPart quote (f x) (g x)) (xs : List α) :
    ReadsPart quote (xs.flatMap f) (xs.flatMap g) := by
  induction xs with
  | nil => exact nil
  | cons x xs ih => exact (h x).append ih

theorem plain (hquote : c ≠ quote) (hbackslash : c ≠ .scalar '\\') (hnewline : c ≠ newline) :
    ReadsPart quote [c] [c] := fun _ _ _ ht start =>
  scanString_text hquote hbackslash hnewline (ht start)

theorem escape (hquote : quote ≠ .scalar '\\')
    (h : ∀ rest, Escape.read (part ++ rest) = .ok (v, rest)) :
    ReadsPart quote (.scalar '\\' :: part) v := fun t _ _ ht start =>
  scanString_escape hquote (h t) (ht start)

end ReadsPart

/-! ### Texts in quotes -/

/-- How a code point is written in a string literal. -/
inductive Spelling where
  /-- As in JSON. -/
  | json (c : CodePoint)
  /-- By its number in braces. -/
  | braced (c : CodePoint) (digits : Text) (denotes : IsHexOf digits c.toNat)

namespace Spelling

/-- The code point that is written. -/
def codePoint : Spelling → CodePoint
  | json c | braced c _ _ => c

/-- What is written for it. -/
def text : Spelling → Text
  | json c => Text.jsonPart c
  | braced _ digits _ => "\\u\x7b" ++ digits ++ "\x7d"

/-- What is read from it. -/
def value : Spelling → Text
  | json c => c.units
  | braced c _ _ => [c]

/-- The code point is written as a pair of surrogates. -/
def IsPair : Spelling → Prop
  | json c => 0xFFFF < c.toNat
  | braced _ _ _ => False

/-- The code points in double quotes. -/
def quote (ss : List Spelling) : Text := "\"" ++ ss.flatMap text ++ "\""

theorem readsPart_jsonEscape {c : CodePoint} (h : c.toNat ≤ 0xFFFF) :
    ReadsPart (.scalar '"') (Text.jsonEscape c.toNat) [c] :=
  ReadsPart.escape (by decide) fun rest => Escape.read_four
    (length_hex (by decide) (Nat.lt_succ_of_le h)) (isHexOf_hex c.toNat 4) rest

theorem readsPart_jsonPart (c : CodePoint) :
    ReadsPart (.scalar '"') (Text.jsonPart c) c.units := by
  have hunits (d : CodePoint) (h : d.toNat ≤ 0xFFFF) : d.units = [d] := if_pos h
  rw [Text.jsonPart]
  split_ifs with hquote hbackslash hn hr ht hb hf hprintable hbasic
  · subst hquote
    exact ReadsPart.escape (by decide) fun _ => rfl
  · subst hbackslash
    exact ReadsPart.escape (by decide) fun _ => rfl
  · subst hn
    exact ReadsPart.escape (by decide) fun _ => rfl
  · subst hr
    exact ReadsPart.escape (by decide) fun _ => rfl
  · subst ht
    exact ReadsPart.escape (by decide) fun _ => rfl
  · obtain rfl := eq_of_toNat hb (d := .scalar '\x08') (by decide)
    exact ReadsPart.escape (by decide) fun _ => rfl
  · obtain rfl := eq_of_toNat hf (d := .scalar '\x0c') (by decide)
    exact ReadsPart.escape (by decide) fun _ => rfl
  · rw [hunits c (by omega)]
    exact ReadsPart.plain hquote hbackslash hn
  · rw [hunits c hbasic]
    exact readsPart_jsonEscape hbasic
  · rw [units, if_neg hbasic, ← toNat_highSurrogate, ← toNat_lowSurrogate]
    have hhigh : c.highSurrogate.toNat ≤ 0xFFFF := by
      have := c.toNat_lt
      rw [toNat_highSurrogate]
      omega
    have hlow : c.lowSurrogate.toNat ≤ 0xFFFF := by
      rw [toNat_lowSurrogate]
      omega
    exact (readsPart_jsonEscape hhigh).append (readsPart_jsonEscape hlow)

theorem readsPart_text (x : Spelling) : ReadsPart (.scalar '"') x.text x.value := by
  cases x with
  | json c => exact readsPart_jsonPart c
  | braced c digits denotes =>
    have htext : (braced c digits denotes).text =
        .scalar '\\' :: .scalar 'u' :: .scalar '\x7b' :: (digits ++ [.scalar '\x7d']) := rfl
    rw [htext]
    refine ReadsPart.escape (by decide) fun rest => ?_
    rw [List.cons_append, List.cons_append, List.append_assoc]
    exact Escape.read_braced denotes rest

/-- A list of spellings gives their code points exactly where none is a pair. -/
theorem flatMap_value_eq_iff (ss : List Spelling) :
    ss.flatMap value = ss.map codePoint ↔ ∀ x ∈ ss, ¬ x.IsPair := by
  induction ss with
  | nil => simp
  | cons x ss ih =>
    rw [List.flatMap_cons, List.map_cons, List.forall_mem_cons, ← ih]
    have hsingle (hvalue : x.value = [x.codePoint]) (hpair : ¬ x.IsPair) :
        x.value ++ ss.flatMap value = x.codePoint :: ss.map codePoint ↔
          ¬ x.IsPair ∧ ss.flatMap value = ss.map codePoint := by
      rw [hvalue, List.singleton_append, List.cons.injEq]
      exact and_congr_left' (iff_of_true rfl hpair)
    cases x with
    | braced c digits denotes => exact hsingle rfl id
    | json c =>
      rcases Nat.lt_or_ge 0xFFFF c.toNat with hpair | hbasic
      · -- a surrogate is none of the code points that need a pair
        have hunits : c.units = [c.highSurrogate, c.lowSurrogate] :=
          if_neg (Nat.not_le_of_lt hpair)
        have hne : c.highSurrogate ≠ c := fun heq => by
          have hnat := c.toNat_highSurrogate
          have := c.toNat_lt
          rw [heq] at hnat
          omega
        refine iff_of_false (fun heq => ?_) (fun h => h.1 hpair)
        rw [value, hunits] at heq
        exact hne (List.cons.inj heq).1
      · exact hsingle (if_pos hbasic) (Nat.not_lt_of_ge hbasic)

/-- Every text is the JSON string of its code points. -/
theorem quote_json (s : Text) : quote (s.map json) = s.json := by
  rw [quote, Text.json, List.flatMap_map]
  rfl

end Spelling

/-- **Escape sequences are decoded one by one.**  Code points in double quotes are one token,
whatever way each of them is written.  The value of the token consists of these code points exactly
where none is written as a pair of surrogates.  JSON is the case in which all are written as in
JSON, and so those above `U+FFFF` as pairs. -/
theorem tokenize_quote (ss : List Spelling) :
    tokenize (Spelling.quote ss) = .ok [⟨.string, ss.flatMap Spelling.value, 0,
      (Spelling.quote ss).length⟩, Token.endOf (Spelling.quote ss).length] ∧
    (ss.flatMap Spelling.value = ss.map Spelling.codePoint ↔ ∀ x ∈ ss, ¬ x.IsPair) ∧
    Spelling.quote ((ss.map Spelling.codePoint).map Spelling.json) =
      Text.json (ss.map Spelling.codePoint) :=
  ⟨tokenize_string (.inr rfl) (ReadsPart.flatMap Spelling.readsPart_text ss).closed,
    Spelling.flatMap_value_eq_iff ss, Spelling.quote_json _⟩

/-- A face as JSON, and by its number in braces. -/
theorem tokenize_json_pair :
    tokenize (Text.json "😀") = .ok [⟨.string, [.surrogate 0x3D, .surrogate 0x600], 0, 14⟩,
      Token.endOf 14] ∧
    tokenize "\"\\u\x7b1F600\x7d\"" = .ok [⟨.string, "😀", 0, 11⟩, Token.endOf 11] ∧
    Text.ofString "😀" ≠ [.surrogate 0x3D, .surrogate 0x600] :=
  ⟨Except.eq_ok_of_toOption (by decide +kernel), Except.eq_ok_of_toOption (by decide +kernel),
    by decide⟩

end Scaffold
